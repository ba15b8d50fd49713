import OakKeyring.Tui.DateEntry

/-!
# A form on a bench

A text area with its cursor at the end, and calendars.
-/

namespace OakKeyring

open Gregorian

/-- A text area with its cursor at the end of the text. -/
@[reducible] def referenceTextArea : TextArea where
  Area := String × Bool
  create := ("", false)
  lines area := TextArea.splitLines area.1
  cursor area :=
    let lines := TextArea.splitLines area.1
    (lines.length - 1, (lines.getLastD "").length)
  moveCursor _ area := (area.1, false)
  selectAll area := (area.1, true)
  insertStr text area := (if area.2 then text else area.1 ++ text, false)
  insertChar c area := (if area.2 then String.singleton c else area.1.push c, false)
  insertNewline area := (if area.2 then "\n" else area.1.push '\n', false)
  deleteChar area := (if area.2 then "" else popChar area.1, false)
  deleteNextChar area := (if area.2 then "" else area.1, false)

/-- A calendar that is not asked. -/
@[reducible] def closedCalendar : Calendar where
  parseDate _ := none

/-- A calendar that reads dates with all their digits. -/
@[reducible] def referenceCalendar : Calendar where
  parseDate text :=
    match text.toList.splitOn '-' with
    | [year, month, day] =>
        let date : Ymd := ((digitsNumber year : Int), digitsNumber month, digitsNumber day)
        if (year.length = 4 ∧ month.length = 2 ∧ day.length = 2 ∧
            (year ++ month ++ day).all Char.isDigit) ∧ validDate date then some (midnight date)
        else none
    | _ => none

theorem referenceCalendar_lawful : @LawfulCalendar referenceCalendar :=
  letI : Calendar := referenceCalendar
  { parseDate_denotes := by
      intro text date h
      obtain ⟨year, month, day, hyear, hmonth, hday, hdigits, htext, hdate⟩ := h.digits
      have hparts : text.toList.splitOn '-' = [year, month, day] := by
        rw [htext]
        exact Validation.splitOn_digits hdigits
      have hvalid := h.valid
      rw [hdate] at hvalid
      have hall : (year ++ month ++ day).all Char.isDigit = true := List.all_eq_true.mpr hdigits
      simp only [Calendar.parseDate, hparts]
      rw [if_pos ⟨⟨hyear, hmonth, hday, hall⟩, hvalid⟩, hdate] }

end OakKeyring
