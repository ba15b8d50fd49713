import OakKeyring.Lib.Checks
import OakKeyring.Lib.Gregorian
import OakKeyring.Tui.DateKeys

/-!
# From a date to an expiry

The check of a date compares it with the local date. The expiry that it stands for is midnight
UTC.
-/

namespace OakKeyring

open Gregorian

/-- An instant is not earlier than another. -/
def DateTime.NotEarlier (instant now : DateTime) : Prop :=
  now.seconds < instant.seconds ∨ (now.seconds = instant.seconds ∧ now.nanos ≤ instant.nanos)

def midnight (date : Ymd) : DateTime where
  seconds := 86400 * dayNumber date.1 date.2.1 date.2.2
  nanos := 0

def validDate (date : Ymd) : Prop :=
  Valid date.1 date.2.1 date.2.2

instance (date : Ymd) : Decidable (validDate date) :=
  inferInstanceAs (Decidable (_ ∧ _ ∧ _ ∧ _))

/-- The number that digits make. -/
def digitsNumber (digits : List Char) : Nat :=
  digits.foldl (fun n c => 10 * n + (c.toNat - '0'.toNat)) 0

/-- A text in the form `YYYY-MM-DD` that is a date of the calendar. -/
structure DenotesDate (text : String) (date : Ymd) : Prop where
  digits : ∃ year month day : List Char, year.length = 4 ∧ month.length = 2 ∧ day.length = 2 ∧
    (∀ c ∈ year ++ month ++ day, c.isDigit = true) ∧
    text = String.ofList (year ++ '-' :: (month ++ '-' :: day)) ∧
    date = ((digitsNumber year : Int), digitsNumber month, digitsNumber day)
  valid : validDate date

/-- A date of the calendar is parsed, to midnight UTC. -/
class LawfulCalendar [Calendar] : Prop where
  parseDate_denotes : ∀ {text : String} {date : Ymd}, DenotesDate text date →
    Calendar.parseDate text = some (midnight date)

/-- The time, and the date that it is in the local time zone. -/
structure Clock where
  now : DateTime
  /-- seconds east of UTC -/
  offset : Int
  today : Ymd
  offset_bound : -86400 < offset ∧ offset < 86400
  valid_today : validDate today
  today_eq : dayNumber today.1 today.2.1 today.2.2 = (now.seconds + offset) / 86400

/-- Every time in every time zone has a local date. -/
theorem exists_clock (now : DateTime) {offset : Int}
    (hoffset : -86400 < offset ∧ offset < 86400) :
    ∃ clock : Clock, clock.now = now ∧ clock.offset = offset := by
  obtain ⟨y, m, d, hvalid, hnumber⟩ := exists_date ((now.seconds + offset) / 86400)
  exact ⟨
    { now := now
      offset := offset
      today := (y, m, d)
      offset_bound := hoffset
      valid_today := hvalid
      today_eq := hnumber }, rfl, rfl⟩

/-! ## The check -/

namespace Validation

theorem before_iff_Before (d d' : Ymd) :
    before d d' = true ↔ Before d.1 d.2.1 d.2.2 d'.1 d'.2.1 d'.2.2 := by
  simp [before, Before]

theorem monthLength_eq_maxDay {year : Int} {month : Nat} (h : 1 ≤ month) :
    monthLength year month = maxDay year month := by
  have hleap : isLeap year = isLeapYear year := rfl
  unfold monthLength maxDay
  rw [hleap]
  split
  · exact absurd h (Nat.not_succ_le_zero 0)
  all_goals first | rfl | (split <;> simp_all)

/-- The letters after a sign. -/
def unsigned (chars : List Char) : List Char :=
  match chars with
  | '+' :: rest => rest
  | chars => chars

theorem parseUnsigned_eq (chars : List Char) :
    parseUnsigned chars =
      if unsigned chars = [] ∨ ¬ (unsigned chars).all Char.isDigit then none
      else some (digitsNumber (unsigned chars)) := rfl

theorem mem_unsigned {chars : List Char} {c : Char} (hc : c ∈ chars) (hsign : c ≠ '+') :
    c ∈ unsigned chars := by
  unfold unsigned
  split
  · rcases List.mem_cons.mp hc with heq | hrest
    · exact absurd heq hsign
    · exact hrest
  · exact hc

theorem parseUnsigned_digits {digits : List Char} (hne : digits ≠ [])
    (h : ∀ c ∈ digits, c.isDigit = true) : parseUnsigned digits = some (digitsNumber digits) := by
  have hunsigned : unsigned digits = digits := by
    unfold unsigned
    split
    · cases h '+' List.mem_cons_self
    · rfl
  have hall : digits.all Char.isDigit = true := List.all_eq_true.mpr h
  rw [parseUnsigned_eq, hunsigned, if_neg (by simp [hne, hall])]

/-- What is parsed has no blank. -/
theorem blank_notMem_of_parseUnsigned {chars : List Char} {n : Nat}
    (h : parseUnsigned chars = some n) : ' ' ∉ chars := by
  intro hblank
  rw [parseUnsigned_eq] at h
  split at h
  · cases h
  · rename_i hdigits
    have hall : ∀ c ∈ unsigned chars, c.isDigit = true := by
      simpa using fun hbad => hdigits (Or.inr hbad)
    cases hall ' ' (mem_unsigned hblank (by decide))

/-- What is left to check of the three numbers. -/
def checkYmd (today : Ymd) (year month day : Nat) : Except FormMessage Unit := do
  if month = 0 ∨ 12 < month then throw .ValidationInvalidMonth
  if day = 0 ∨ 31 < day then throw .ValidationInvalidDay
  if maxDay year month < day then throw .ValidationInvalidDay
  if (year : Int) ≤ MAX_YEAR ∧ before (year, month, day) today then throw .ValidationPastDate

/-- An accepted text is three numbers that pass. -/
theorem validateDate_eq_ok_iff {today : Ymd} {date : String} :
    validateDate today date = .ok () ↔
      date.utf8ByteSize = 10 ∧ ∃ ys ms ds year month day,
        date.toList.splitOn '-' = [ys, ms, ds] ∧ parseUnsigned ys = some year ∧
          parseUnsigned ms = some month ∧ parseUnsigned ds = some day ∧
            checkYmd today year month day = .ok () := by
  unfold validateDate
  by_cases hsize : date.utf8ByteSize = 10
  -- ten bytes, so the three pieces decide
  · simp only [hsize, ne_eq, not_true_eq_false, if_false, true_and]
    constructor
    · intro h
      split at h
      · rename_i ys ms ds hparts
        cases hyear : parseUnsigned ys with
        | none =>
            simp only [hyear] at h
            cases h
        | some year =>
            cases hmonth : parseUnsigned ms with
            | none =>
                simp only [hyear, hmonth] at h
                cases h
            | some month =>
                cases hday : parseUnsigned ds with
                | none =>
                    simp only [hyear, hmonth, hday] at h
                    cases h
                | some day =>
                    simp only [hyear, hmonth, hday] at h
                    exact ⟨ys, ms, ds, year, month, day, hparts, hyear, hmonth, hday, h⟩
      · cases h
    · rintro ⟨ys, ms, ds, year, month, day, hparts, hyear, hmonth, hday, hcheck⟩
      rw [hparts]
      simp only [hyear, hmonth, hday]
      exact hcheck
  -- another length is refused before the pieces are looked at
  · simp only [hsize, ne_eq, not_false_eq_true, if_true, false_and, iff_false]
    intro h
    cases h

theorem maxDay_le (year : Int) (month : Nat) : maxDay year month ≤ 31 := by
  unfold maxDay
  split
  any_goals decide
  split <;> decide

theorem checkYmd_eq_ok_iff {today : Ymd} {year month day : Nat} (hyear : (year : Int) ≤ MAX_YEAR) :
    checkYmd today year month day = .ok () ↔
      validDate ((year : Int), month, day) ∧ before ((year : Int), month, day) today = false := by
  have hcheck : checkYmd today year month day = .ok () ↔
      ¬ (month = 0 ∨ 12 < month) ∧ ¬ (day = 0 ∨ 31 < day) ∧ ¬ maxDay year month < day ∧
        ¬ ((year : Int) ≤ MAX_YEAR ∧ before (year, month, day) today = true) := by
    unfold checkYmd
    rw [Checks.unless_throw_eq_ok_iff, Checks.unless_throw_eq_ok_iff,
      Checks.unless_throw_eq_ok_iff, Checks.last_throw_eq_ok_iff]
    exact and_congr_right' (and_congr_right' (and_congr_right' (and_iff_left rfl)))
  have hmax := maxDay_le year month
  rw [hcheck]
  constructor
  · rintro ⟨hmonth, hday, hlast, hpast⟩
    have hpos : 1 ≤ month := Nat.pos_of_ne_zero fun hzero => hmonth (Or.inl hzero)
    refine ⟨⟨hpos, (by omega : month ≤ 12), (by omega : 1 ≤ day), ?_⟩, ?_⟩
    · exact (Nat.not_lt.mp hlast).trans_eq (monthLength_eq_maxDay hpos).symm
    · simpa [hyear] using hpast
  · rintro ⟨⟨hpos, hmonth, hday, hlast⟩, hpast⟩
    have hlast : day ≤ maxDay year month := hlast.trans_eq (monthLength_eq_maxDay hpos)
    have hpos : 1 ≤ month := hpos
    have hmonth : month ≤ 12 := hmonth
    have hday : 1 ≤ day := hday
    refine ⟨by omega, by omega, Nat.not_lt.mpr hlast, ?_⟩
    simp [hpast]

/-- A text with a blank is refused. -/
theorem blank_notMem_of_validateDate {today : Ymd} {date : String}
    (h : validateDate today date = .ok ()) : ' ' ∉ date.toList := by
  obtain ⟨-, ys, ms, ds, year, month, day, hparts, hyear, hmonth, hday, -⟩ :=
    validateDate_eq_ok_iff.mp h
  have hjoined : date.toList = ys ++ '-' :: (ms ++ '-' :: ds) := by
    calc date.toList
        = ['-'].intercalate (date.toList.splitOn '-') := (List.intercalate_splitOn '-').symm
      _ = ys ++ '-' :: (ms ++ '-' :: ds) := by
          rw [hparts]
          simp [List.intercalate]
  rw [hjoined]
  have hys := blank_notMem_of_parseUnsigned hyear
  have hms := blank_notMem_of_parseUnsigned hmonth
  have hds := blank_notMem_of_parseUnsigned hday
  simp [hys, hms, hds]

theorem digitsNumber_lt {digits : List Char} (h : ∀ c ∈ digits, c.isDigit = true) :
    digitsNumber digits < 10 ^ digits.length := by
  have hdigit : ∀ c : Char, c.isDigit = true → c.toNat - '0'.toNat < 10 := by
    intro c hc
    have hnine : c.toNat ≤ '9'.toNat := by
      have hle : c.val ≤ '9'.val := by
        simp [Char.isDigit] at hc
        exact hc.2
      exact UInt32.le_iff_toNat_le.mp hle
    have hten : '9'.toNat = '0'.toNat + 9 := by decide
    omega
  have hrun : ∀ n, digits.foldl (fun n c => 10 * n + (c.toNat - '0'.toNat)) n <
      (n + 1) * 10 ^ digits.length := by
    induction digits with
    | nil => simp
    | cons c digits ih =>
        intro n
        have hc := hdigit c (h c List.mem_cons_self)
        have hrest := ih (fun d hd => h d (List.mem_cons_of_mem c hd))
          (10 * n + (c.toNat - '0'.toNat))
        refine Nat.lt_of_lt_of_le hrest ?_
        rw [List.length_cons, Nat.pow_succ, ← Nat.mul_assoc, Nat.mul_right_comm]
        exact Nat.mul_le_mul_right _ (by omega)
  simpa [digitsNumber] using hrun 0

theorem utf8ByteSize_ascii {chars : List Char} (h : ∀ c ∈ chars, c.utf8Size = 1) :
    (String.ofList chars).utf8ByteSize = chars.length := by
  induction chars with
  | nil => rfl
  | cons c chars ih =>
      have hrest := ih fun d hd => h d (List.mem_cons_of_mem c hd)
      have hsplit : String.ofList (c :: chars) = String.singleton c ++ String.ofList chars := by
        simp
      rw [hsplit, String.utf8ByteSize_append, String.utf8ByteSize_singleton, hrest,
        h c List.mem_cons_self, List.length_cons, Nat.add_comm]

theorem utf8Size_of_isDigit {c : Char} (h : c.isDigit = true) : c.utf8Size = 1 := by
  rw [Char.utf8Size_eq_one_iff]
  simp [Char.isDigit] at h
  exact UInt32.le_trans h.2 (by decide)

/-- The three parts of a date. -/
theorem splitOn_digits {year month day : List Char}
    (hdigits : ∀ c ∈ year ++ month ++ day, c.isDigit = true) :
    (String.ofList (year ++ '-' :: (month ++ '-' :: day))).toList.splitOn '-' =
      [year, month, day] := by
  have hfree : ∀ piece ∈ [year, month, day], '-' ∉ piece := by
    intro piece hpiece hdash
    have hmem : '-' ∈ year ++ month ++ day := by
      rcases List.mem_cons.mp hpiece with heq | hrest
      · simp [← heq, hdash]
      · rcases List.mem_cons.mp hrest with heq | hlast
        · simp [← heq, hdash]
        · simp [← List.mem_singleton.mp hlast, hdash]
    cases hdigits '-' hmem
  have hjoin : year ++ '-' :: (month ++ '-' :: day) = ['-'].intercalate [year, month, day] := by
    simp [List.intercalate]
  rw [String.toList_ofList, hjoin]
  exact List.splitOn_intercalate '-' hfree (List.cons_ne_nil _ _)

/-- The check of eight digits. -/
theorem validateDate_digits {today : Ymd} {year month day : List Char} (hyear : year.length = 4)
    (hmonth : month.length = 2) (hday : day.length = 2)
    (hdigits : ∀ c ∈ year ++ month ++ day, c.isDigit = true) :
    validateDate today (String.ofList (year ++ '-' :: (month ++ '-' :: day))) = .ok () ↔
      validDate ((digitsNumber year : Int), digitsNumber month, digitsNumber day) ∧
        before ((digitsNumber year : Int), digitsNumber month, digitsNumber day) today = false := by
  have hys : ∀ c ∈ year, c.isDigit = true := fun c hc => hdigits c (by simp [hc])
  have hms : ∀ c ∈ month, c.isDigit = true := fun c hc => hdigits c (by simp [hc])
  have hds : ∀ c ∈ day, c.isDigit = true := fun c hc => hdigits c (by simp [hc])
  -- eight digits and two dashes, one byte each
  have hsize : (String.ofList (year ++ '-' :: (month ++ '-' :: day))).utf8ByteSize = 10 := by
    rw [utf8ByteSize_ascii]
    · simp [hyear, hmonth, hday]
    · intro c hc
      by_cases hdash : c = '-'
      · rw [hdash]
        decide
      · refine utf8Size_of_isDigit (hdigits c ?_)
        simpa [hdash, or_assoc] using hc
  have hparts := splitOn_digits hdigits
  -- four digits stay below the largest year
  have hbound : (digitsNumber year : Int) ≤ MAX_YEAR := by
    have hlt := digitsNumber_lt hys
    rw [hyear] at hlt
    unfold MAX_YEAR
    omega
  have hne : ∀ {piece : List Char} {n : Nat}, piece.length = n + 1 → piece ≠ [] := by
    intro piece n hlength hnil
    rw [hnil] at hlength
    cases hlength
  have hy := parseUnsigned_digits (hne hyear) hys
  have hm := parseUnsigned_digits (hne hmonth) hms
  have hd := parseUnsigned_digits (hne hday) hds
  rw [validateDate_eq_ok_iff, ← checkYmd_eq_ok_iff hbound]
  constructor
  -- the pieces that were read are the digits, so the numbers agree as well
  · rintro ⟨-, ys, ms, ds, y, m, d, hsplit, hpy, hpm, hpd, hcheck⟩
    cases hparts.symm.trans hsplit
    cases hy.symm.trans hpy
    cases hm.symm.trans hpm
    cases hd.symm.trans hpd
    exact hcheck
  · intro hcheck
    exact ⟨hsize, _, _, _, _, _, _, hparts, hy, hm, hd, hcheck⟩

end Validation

/-! ## Eight digits -/

theorem fillBlanks_eight {digits : List Char} (h : digits.length = 8) :
    fillBlanks FormFields.dateTemplate.toList digits =
      digits.take 4 ++ '-' :: ((digits.drop 4).take 2 ++ '-' :: digits.drop 6) := by
  match digits, h with
  | [a, b, c, d, e, f, g, k], _ => rfl

/-- The date of eight digits. -/
def dateOf (digits : List Char) : Ymd :=
  ((digitsNumber (digits.take 4) : Int), digitsNumber ((digits.drop 4).take 2),
    digitsNumber (digits.drop 6))

theorem blank_mem_filledDate {digits : List Char} (h : digits.length < 8) :
    ' ' ∈ (filledDate digits).toList := by
  rw [filledDate, String.toList_ofList]
  exact blank_mem_fillBlanks h

theorem DenotesDate.blank_notMem {text : String} {date : Ymd} (h : DenotesDate text date) :
    ' ' ∉ text.toList := by
  obtain ⟨year, month, day, -, -, -, hdigits, htext, -⟩ := h.digits
  intro hblank
  rw [htext, String.toList_ofList] at hblank
  have hmem : ' ' ∈ year ++ month ++ day := by
    simpa [or_assoc] using hblank
  cases hdigits ' ' hmem

/-- A filled template is a date just when it has eight digits that make one. -/
theorem denotesDate_filledDate_iff {digits : List Char} (hlength : digits.length ≤ 8)
    (hdigits : ∀ c ∈ digits, c.isDigit = true) {date : Ymd} :
    DenotesDate (filledDate digits) date ↔
      digits.length = 8 ∧ date = dateOf digits ∧ validDate date := by
  constructor
  · intro h
    -- a blank leaves a byte that is no digit, so nothing was left blank
    have height : digits.length = 8 := by
      by_contra hfewer
      exact h.blank_notMem (blank_mem_filledDate (Nat.lt_of_le_of_ne hlength hfewer))
    obtain ⟨year, month, day, hyear, hmonth, hday, -, htext, hdate⟩ := h.digits
    have hsame : digits.take 4 ++ '-' :: ((digits.drop 4).take 2 ++ '-' :: digits.drop 6) =
        year ++ '-' :: (month ++ '-' :: day) :=
      (fillBlanks_eight height).symm.trans (String.ofList_injective htext)
    obtain ⟨hy, hrest⟩ := List.append_inj hsame (by simp [hyear, height])
    obtain ⟨hm, hlast⟩ := List.append_inj (List.cons.inj hrest).2 (by simp [hmonth, height])
    have hd := (List.cons.inj hlast).2
    refine ⟨height, ?_, h.valid⟩
    rw [hdate, dateOf, hy, hm, hd]
  -- eight digits fill every place of the mask
  · rintro ⟨height, hdate, hvalid⟩
    refine ⟨⟨digits.take 4, (digits.drop 4).take 2, digits.drop 6, ?_, ?_, ?_, ?_, ?_, hdate⟩,
      hvalid⟩
    · simp [height]
    · simp [height]
    · simp [height]
    · intro c hc
      apply hdigits c
      rcases List.mem_append.mp hc with hfirst | hday
      · rcases List.mem_append.mp hfirst with hyear | hmonth
        · exact List.mem_of_mem_take hyear
        · exact List.mem_of_mem_drop (List.mem_of_mem_take hmonth)
      · exact List.mem_of_mem_drop hday
    · rw [filledDate, fillBlanks_eight height]

/-- A filled template is accepted just when it is a date that is not before today. -/
theorem validateDate_filledDate_iff {today : Ymd} {digits : List Char}
    (hlength : digits.length ≤ 8) (hdigits : ∀ c ∈ digits, c.isDigit = true) :
    Validation.validateDate today (filledDate digits) = .ok () ↔
      ∃ date, DenotesDate (filledDate digits) date ∧ Validation.before date today = false := by
  constructor
  · intro h
    have height : digits.length = 8 := by
      by_contra hfewer
      exact Validation.blank_notMem_of_validateDate h
        (blank_mem_filledDate (Nat.lt_of_le_of_ne hlength hfewer))
    have hvalid : validDate (dateOf digits) ∧ Validation.before (dateOf digits) today = false := by
      rw [filledDate, fillBlanks_eight height] at h
      refine (Validation.validateDate_digits ?_ ?_ ?_ ?_).mp h
      · simp [height]
      · simp [height]
      · simp [height]
      · intro c hc
        apply hdigits c
        rcases List.mem_append.mp hc with hfirst | hday
        · rcases List.mem_append.mp hfirst with hyear | hmonth
          · exact List.mem_of_mem_take hyear
          · exact List.mem_of_mem_drop (List.mem_of_mem_take hmonth)
        · exact List.mem_of_mem_drop hday
    exact ⟨dateOf digits, (denotesDate_filledDate_iff hlength hdigits).mpr
      ⟨height, rfl, hvalid.1⟩, hvalid.2⟩
  · rintro ⟨date, hdenotes, hpast⟩
    obtain ⟨year, month, day, hyear, hmonth, hday, hall, htext, hdate⟩ := hdenotes.digits
    rw [htext, Validation.validateDate_digits hyear hmonth hday hall, ← hdate]
    exact ⟨hdenotes.valid, hpast⟩

/-! ## The clock -/

/-- A date whose midnight has not passed is not before the local date. -/
theorem Clock.not_before_of_notEarlier (clock : Clock) {date : Ymd} (hvalid : validDate date)
    (h : (midnight date).NotEarlier clock.now) :
    Validation.before date clock.today = false := by
  rw [Bool.eq_false_iff]
  intro hbefore
  have hless := (before_iff hvalid clock.valid_today).mp
    ((Validation.before_iff_Before date clock.today).mp hbefore)
  have hoffset := clock.offset_bound.2
  have hseconds : clock.now.seconds ≤ 86400 * dayNumber date.1 date.2.1 date.2.2 := by
    rcases h with hlater | ⟨hsame, -⟩
    · exact Int.le_of_lt hlater
    · exact Int.le_of_eq hsame
  rw [clock.today_eq] at hless
  omega

/-! ## The screens -/

section

variable [TextArea] [Calendar]

/-- What a form with a typed date should be like. -/
structure EntersDate (clock : Clock) (keys : List DateKey) (form : FormState) : Prop where
  text : form.fields.dateText = filledDate (DateKey.typed keys)
  accepted_iff : Validation.validateDate clock.today form.fields.dateText = .ok () ↔
    (∃ date, DenotesDate form.fields.dateText date) ∧
      ∃ instant, form.expiryDatetime clock.now = some instant ∧ instant.NotEarlier clock.now

/-- No digit is erased, and the date is not one whose midnight has passed though it is not before
the local date. -/
def PlainDate (clock : Clock) (keys : List DateKey) : Prop :=
  DateKey.erases keys = false ∧
    ∀ date, DenotesDate (filledDate (DateKey.typed keys)) date →
      Validation.before date clock.today = false → (midnight date).NotEarlier clock.now

omit [Calendar] in
/-- A date was typed, so there is a text. -/
theorem customDate_of_denotesDate {f : FormFields} {date : Ymd}
    (h : DenotesDate f.dateText date) : f.customDate = some f.dateText := by
  cases hcustom : f.customDate with
  | none =>
      have htemplate : f.dateText = FormFields.dateTemplate := by
        simp [FormFields.dateText, hcustom]
      have hblank := h.blank_notMem
      rw [htemplate] at hblank
      exact absurd (by decide) hblank
  | some text => simp [FormFields.dateText, hcustom]

variable [LawfulCalendar]

/-- The expiry of a date is its midnight. -/
theorem expiryDatetime_of_denotesDate {form : FormState} (hcustom : form.fields.expiresAt = .Custom)
    {date : Ymd} (h : DenotesDate form.fields.dateText date) (now : DateTime) :
    form.expiryDatetime now = some (midnight date) := by
  rw [FormState.expiryDatetime, if_pos hcustom, customDate_of_denotesDate h, Option.bind_some]
  exact LawfulCalendar.parseDate_denotes h

theorem entersDate_iff (clock : Clock) (keys : List DateKey) {form : FormState} {f : FormFields}
    (hnone : f.customDate = none) (hfields : form.fields = keys.foldl DateKey.apply f)
    (hcustom : form.fields.expiresAt = .Custom) :
    EntersDate clock keys form ↔ PlainDate clock keys := by
  obtain ⟨hlength, hdigits⟩ := DateKey.typed_spec keys
  have htext := DateKey.dateText_eq_iff keys hnone
  rw [← hfields] at htext
  -- what is accepted denotes a date that is not past
  have haccepted : Validation.validateDate clock.today (filledDate (DateKey.typed keys)) = .ok () ↔
      ∃ date, DenotesDate (filledDate (DateKey.typed keys)) date ∧
        Validation.before date clock.today = false :=
    validateDate_filledDate_iff hlength hdigits
  constructor
  · intro h
    refine ⟨htext.mp h.text, fun date hdenotes hpast => ?_⟩
    have hok := haccepted.mpr ⟨date, hdenotes, hpast⟩
    rw [← h.text] at hok hdenotes
    obtain ⟨-, instant, hinstant, hlater⟩ := h.accepted_iff.mp hok
    -- the expiry is the midnight of the date that was typed
    have hmidnight := expiryDatetime_of_denotesDate hcustom hdenotes clock.now
    exact Option.some.inj (hinstant.symm.trans hmidnight) ▸ hlater
  · intro ⟨hkeys, hlater⟩
    have hfilled := htext.mpr hkeys
    refine ⟨hfilled, ?_⟩
    rw [← hfilled] at haccepted hlater
    constructor
    · intro hok
      obtain ⟨date, hdenotes, hpast⟩ := haccepted.mp hok
      exact ⟨⟨date, hdenotes⟩, _, expiryDatetime_of_denotesDate hcustom hdenotes clock.now,
        hlater date hdenotes hpast⟩
    -- both instants are midnights of one date
    · intro ⟨⟨date, hdenotes⟩, instant, hinstant, hnotEarlier⟩
      have hmidnight := expiryDatetime_of_denotesDate hcustom hdenotes clock.now
      have heq : instant = midnight date := Option.some.inj (hinstant.symm.trans hmidnight)
      exact haccepted.mpr ⟨date, hdenotes,
        clock.not_before_of_notEarlier hdenotes.valid (heq ▸ hnotEarlier)⟩

end

end OakKeyring
