import OakKeyring.Tui.CreateRecord
import OakKeyring.Tui.EditFrame

/-!
# Typing a date

A digit goes to the first blank of the template, and Backspace cuts the text. The text is the
template with the digits in it until the first digit is erased.
-/

namespace OakKeyring

/-- A key that the custom date takes. -/
inductive DateKey
  | Digit (c : Char) (h : c.isDigit = true)
  | Backspace

namespace DateKey

def event : DateKey → KeyEvent
  | Digit c _ => { code := .Char c, control := false }
  | Backspace => { code := .Backspace, control := false }

def apply [TextArea] (f : FormFields) : DateKey → FormFields
  | Digit c _ => f.pushDateChar c
  | Backspace => f.popDateChar

/-- What a key makes of the digits that are there, at most eight. -/
def edit (digits : List Char) : DateKey → List Char
  | Digit c _ => if digits.length < 8 then digits ++ [c] else digits
  | Backspace => digits.dropLast

/-- The digits typed and not yet erased. -/
def typed (keys : List DateKey) : List Char :=
  keys.foldl edit []

/-- Whether a Backspace comes after a digit. -/
def erases : List DateKey → Bool
  | [] => false
  | Backspace :: keys => erases keys
  | Digit _ _ :: keys => keys.any fun key =>
      match key with
      | Backspace => true
      | Digit _ _ => false

end DateKey

/-! ## The template -/

/-- A template with letters in its blanks, from the left. -/
def fillBlanks : List Char → List Char → List Char
  | [], _ => []
  | t :: template, [] => t :: template
  | t :: template, c :: letters =>
      if t = ' ' then c :: fillBlanks template letters
      else t :: fillBlanks template (c :: letters)

/-- The template of a date with digits in it. -/
def filledDate (digits : List Char) : String :=
  String.ofList (fillBlanks FormFields.dateTemplate.toList digits)

/-- The first blank takes a letter. -/
def takeBlank (c : Char) (text : List Char) : List Char :=
  match text.findIdx? fun ch => ch = ' ' with
  | some index => text.set index c
  | none => text

theorem takeBlank_cons (c t : Char) (text : List Char) :
    takeBlank c (t :: text) = if t = ' ' then c :: text else t :: takeBlank c text := by
  by_cases ht : t = ' '
  · simp [takeBlank, List.findIdx?_cons, ht]
  · simp only [takeBlank, List.findIdx?_cons, ht, decide_false, Bool.false_eq_true, if_false]
    cases text.findIdx? fun ch => ch = ' ' <;> simp

@[simp] theorem length_takeBlank (c : Char) (text : List Char) :
    (takeBlank c text).length = text.length := by
  unfold takeBlank
  split <;> simp

@[simp] theorem fillBlanks_nil (template : List Char) : fillBlanks template [] = template := by
  cases template <;> rfl

theorem length_fillBlanks (template letters : List Char) :
    (fillBlanks template letters).length = template.length := by
  induction template generalizing letters with
  | nil => rfl
  | cons t template ih =>
      cases letters with
      | nil => rfl
      | cons c letters =>
          by_cases ht : t = ' ' <;> simp [fillBlanks, ht, ih]

/-- A further letter goes to the first blank that is left; if none is left it goes nowhere. -/
theorem takeBlank_fillBlanks (c : Char) (template letters : List Char) (h : ' ' ∉ letters) :
    takeBlank c (fillBlanks template letters) =
      fillBlanks template
        (if letters.length < template.count ' ' then letters ++ [c] else letters) := by
  induction template generalizing letters with
  | nil => rfl
  | cons t template ih =>
      have hnil := ih [] List.not_mem_nil
      cases letters with
      | nil =>
          by_cases ht : t = ' '
          · simp [takeBlank_cons, fillBlanks, ht]
          · by_cases hroom : 0 < template.count ' ' <;>
              simp_all [takeBlank_cons, fillBlanks]
      | cons d letters =>
          have hd : d ≠ ' ' := fun heq => h (heq ▸ List.mem_cons_self)
          by_cases ht : t = ' '
          · have hrest := ih letters fun hmem => h (List.mem_cons_of_mem d hmem)
            by_cases hroom : letters.length < template.count ' ' <;>
              simp [fillBlanks, takeBlank_cons, ht, hd, hrest, hroom]
          · have hrest := ih (d :: letters) h
            by_cases hroom : letters.length + 1 < template.count ' ' <;>
              simp [fillBlanks, takeBlank_cons, ht, hrest, hroom]

/-- A blank is left if there are too few letters. -/
theorem blank_mem_fillBlanks {template letters : List Char}
    (h : letters.length < template.count ' ') : ' ' ∈ fillBlanks template letters := by
  induction template generalizing letters with
  | nil => simp at h
  | cons t template ih =>
      cases letters with
      | nil =>
          rw [fillBlanks_nil]
          exact List.count_pos_iff.mp (Nat.zero_lt_of_lt h)
      | cons d letters =>
          by_cases ht : t = ' '
          · have hroom : letters.length < template.count ' ' := by simpa [ht] using h
            simpa [fillBlanks, ht] using Or.inr (ih hroom)
          · have hroom : (d :: letters).length < template.count ' ' := by simpa [ht] using h
            simpa [fillBlanks, ht] using Or.inr (ih hroom)

/-! ## The text of the form -/

section

variable [TextArea]

/-- What the custom date shows before anything is typed is the template. -/
def FormFields.dateText (f : FormFields) : String :=
  f.customDate.getD dateTemplate

theorem toList_dateText_pushDateChar (c : Char) (f : FormFields) :
    (f.pushDateChar c).dateText.toList = takeBlank c f.dateText.toList := by
  simp only [FormFields.pushDateChar, takeBlank, FormFields.dateText]
  cases (f.customDate.getD FormFields.dateTemplate).toList.findIdx? fun ch => ch = ' ' <;> simp

@[simp] theorem length_dateText_pushDateChar (c : Char) (f : FormFields) :
    (f.pushDateChar c).dateText.length = f.dateText.length := by
  rw [← String.length_toList, toList_dateText_pushDateChar, length_takeBlank, String.length_toList]

theorem isSome_pushDateChar (c : Char) (f : FormFields) :
    (f.pushDateChar c).customDate.isSome = true := by
  unfold FormFields.pushDateChar
  dsimp only
  split <;> rfl

omit [TextArea] in
theorem length_popChar (text : String) : (popChar text).length = text.length - 1 := by
  rw [popChar, String.length_ofList, List.length_dropLast, String.length_toList]

/-- A text that is cut is shorter than before, unless it was empty. -/
theorem length_dateText_popDateChar {f : FormFields} (h : f.customDate.isSome = true) :
    f.popDateChar.customDate.isSome = true ∧
      f.popDateChar.dateText.length ≤ f.dateText.length - 1 := by
  rcases Option.isSome_iff_exists.mp h with ⟨date, hdate⟩
  by_cases hempty : date = ""
  · simp [FormFields.popDateChar, FormFields.dateText, hdate, hempty]
  · simp only [FormFields.popDateChar, FormFields.dateText, hdate, hempty, if_false,
      Option.getD_some]
    refine ⟨rfl, ?_⟩
    split
    · rw [length_popChar, length_popChar]
      exact Nat.sub_le _ _
    · rw [length_popChar]

end

/-! ## Runs -/

namespace DateKey

def isDigits (keys : List DateKey) : Prop :=
  ∀ key ∈ keys, ∃ c h, key = Digit c h

theorem ne_blank {c : Char} (h : c.isDigit = true) : c ≠ ' ' := by
  intro heq
  rw [heq] at h
  cases h

theorem isDigit_edit {digits : List Char} (h : ∀ c ∈ digits, c.isDigit = true) (key : DateKey) :
    ∀ c ∈ edit digits key, c.isDigit = true := by
  intro c hc
  cases key with
  | Digit c' h' =>
      by_cases hroom : digits.length < 8
      · rw [edit, if_pos hroom] at hc
        rcases List.mem_append.mp hc with hmem | hlast
        · exact h c hmem
        · exact List.mem_singleton.mp hlast ▸ h'
      · rw [edit, if_neg hroom] at hc
        exact h c hc
  | Backspace => exact h c (List.mem_of_mem_dropLast hc)

theorem length_edit_le {digits : List Char} (h : digits.length ≤ 8) (key : DateKey) :
    (edit digits key).length ≤ 8 := by
  cases key with
  | Digit c _ =>
      by_cases hroom : digits.length < 8
      · rw [edit, if_pos hroom, List.length_append]
        exact hroom
      · rw [edit, if_neg hroom]
        exact h
  | Backspace =>
      have hdrop : (edit digits Backspace).length = digits.length - 1 := List.length_dropLast
      omega

theorem typed_spec (keys : List DateKey) :
    (typed keys).length ≤ 8 ∧ ∀ c ∈ typed keys, c.isDigit = true := by
  have hrun : ∀ digits : List Char, digits.length ≤ 8 ∧ (∀ c ∈ digits, c.isDigit = true) →
      (keys.foldl edit digits).length ≤ 8 ∧ ∀ c ∈ keys.foldl edit digits, c.isDigit = true := by
    induction keys with
    | nil => exact fun _ h => h
    | cons key keys ih =>
        intro digits h
        exact ih _ ⟨length_edit_le h.1 key, isDigit_edit h.2 key⟩
  exact hrun [] ⟨Nat.zero_le 8, fun _ h => nomatch h⟩

theorem erases_digit_iff (c : Char) (h : c.isDigit = true) (keys : List DateKey) :
    erases (Digit c h :: keys) = false ↔ isDigits keys := by
  unfold erases isDigits
  rw [List.any_eq_false]
  refine forall₂_congr fun key _ => ?_
  cases key with
  | Digit c' h' => simpa using h'
  | Backspace => simp

theorem length_filledDate (digits : List Char) : (filledDate digits).length = 10 := by
  have hlength := length_fillBlanks FormFields.dateTemplate.toList digits
  rw [filledDate, String.length_ofList, hlength]
  decide

section

variable [TextArea]

/-- One digit. -/
theorem dateText_push {f : FormFields} {digits : List Char}
    (hdigits : ∀ c ∈ digits, c.isDigit = true) (htext : f.dateText = filledDate digits) (c : Char)
    (h : c.isDigit = true) :
    (apply f (Digit c h)).dateText = filledDate (edit digits (Digit c h)) := by
  have hblank : ' ' ∉ digits := fun hmem => ne_blank (hdigits ' ' hmem) rfl
  apply String.toList_injective
  calc (apply f (Digit c h)).dateText.toList
      = takeBlank c f.dateText.toList := toList_dateText_pushDateChar c f
    _ = takeBlank c (fillBlanks FormFields.dateTemplate.toList digits) := by
        rw [htext]
        exact congrArg (takeBlank c) String.toList_ofList
    _ = fillBlanks FormFields.dateTemplate.toList
          (if digits.length < 8 then digits ++ [c] else digits) :=
        takeBlank_fillBlanks c _ digits hblank
    _ = (filledDate (edit digits (Digit c h))).toList := String.toList_ofList.symm

/-- Digits only. -/
theorem dateText_digits {keys : List DateKey} (hkeys : isDigits keys) {f : FormFields}
    {digits : List Char} (hdigits : ∀ c ∈ digits, c.isDigit = true)
    (htext : f.dateText = filledDate digits) :
    (keys.foldl apply f).dateText = filledDate (keys.foldl edit digits) := by
  induction keys generalizing f digits with
  | nil => exact htext
  | cons key keys ih =>
      rcases hkeys key List.mem_cons_self with ⟨c, h, hkey⟩
      rw [hkey]
      exact ih (fun other hother => hkeys other (List.mem_cons_of_mem key hother))
        (isDigit_edit hdigits _) (dateText_push hdigits htext c h)

/-- Once a text is cut it stays too short. -/
theorem length_dateText_run (keys : List DateKey) {f : FormFields}
    (hsome : f.customDate.isSome = true) :
    (keys.foldl apply f).dateText.length ≤ f.dateText.length := by
  induction keys generalizing f with
  | nil => exact Nat.le_refl _
  | cons key keys ih =>
      cases key with
      | Digit c h =>
          have hrest := ih (f := f.pushDateChar c) (isSome_pushDateChar c f)
          rw [length_dateText_pushDateChar] at hrest
          exact hrest
      | Backspace =>
          rcases length_dateText_popDateChar hsome with ⟨hsome', hless⟩
          exact (ih hsome').trans (hless.trans (Nat.sub_le _ 1))

theorem length_dateText_cut {keys : List DateKey} {f : FormFields}
    (hsome : f.customDate.isSome = true) (hlength : f.dateText.length ≤ 10)
    (hcut : ¬ isDigits keys) : (keys.foldl apply f).dateText.length < 10 := by
  induction keys generalizing f with
  | nil => exact absurd (fun key hmem => nomatch hmem) hcut
  | cons key keys ih =>
      cases key with
      | Digit c h =>
          apply ih (f := f.pushDateChar c) (isSome_pushDateChar c f)
          · rwa [length_dateText_pushDateChar]
          · intro hkeys
            apply hcut
            intro other hother
            rcases List.mem_cons.mp hother with heq | hrest
            · exact ⟨c, h, heq⟩
            · exact hkeys other hrest
      | Backspace =>
          rcases length_dateText_popDateChar hsome with ⟨hsome', hless⟩
          have hrest := length_dateText_run keys hsome'
          exact Nat.lt_of_le_of_lt (hrest.trans hless) (by omega)

/-- The text is the template with the digits in it just when no digit was erased. -/
theorem dateText_eq_iff (keys : List DateKey) {f : FormFields} (hnone : f.customDate = none) :
    (keys.foldl apply f).dateText = filledDate (typed keys) ↔ erases keys = false := by
  induction keys generalizing f with
  | nil => simp [FormFields.dateText, hnone, typed, filledDate, erases]
  | cons key keys ih =>
      cases key with
      | Backspace =>
          have hsame : apply f Backspace = f := by
            simp [apply, FormFields.popDateChar, hnone]
          rw [List.foldl_cons, hsame]
          exact ih hnone
      | Digit c h =>
          rw [erases_digit_iff]
          have htext : f.dateText = filledDate [] := by
            simp [FormFields.dateText, hnone, filledDate]
          have hempty : ∀ c ∈ ([] : List Char), c.isDigit = true := fun _ hmem => nomatch hmem
          have hfirst := dateText_push hempty htext c h
          constructor
          · intro hsame
            by_contra hcut
            have hshort := length_dateText_cut (isSome_pushDateChar c f) (by
              rw [length_dateText_pushDateChar, htext, length_filledDate]) hcut
            have hlength := congrArg String.length hsame
            rw [length_filledDate] at hlength
            exact absurd hlength (Nat.ne_of_lt hshort)
          · intro hkeys
            exact dateText_digits hkeys (isDigit_edit hempty _) hfirst

end

end DateKey

end OakKeyring
