import OakKeyring.Samples.Form
import OakKeyring.Tui.DateEntry

/-!
# The custom date of both screens

The create screen and the edit screen hand the keys of the custom date to the same two functions.
-/

namespace OakKeyring

open Gregorian

/-- Keys for the custom date, each with what it finds outside the screen. -/
abbrev DateKeys := List (Surroundings × DateKey)

namespace DateKeys

def events (keys : DateKeys) : List (Surroundings × KeyEvent) :=
  keys.map fun e => (e.1, e.2.event)

def pressed (keys : DateKeys) : List DateKey :=
  keys.map Prod.snd

end DateKeys

section Screens

variable [TextArea]

/-- The custom date has the focus, and nothing is open over the form. -/
structure FormState.OnDate (form : FormState) : Prop where
  notSaving : form.saving = false
  noWeakDialog : form.showWeakPasswordDialog = false
  noUnsavedDialog : form.showUnsavedDialog = false
  noCredentialDropdown : form.credentialDropdown.expanded = false
  noExpiryDropdown : form.expiryDropdown.expanded = false
  focused : form.focusedField = expiryFieldIndex form.credentialType
  custom : form.fields.expiresAt = .Custom

theorem DateKey.expiresAt_apply (key : DateKey) (f : FormFields) :
    (key.apply f).expiresAt = f.expiresAt := by
  cases key with
  | Digit c h =>
      simp only [DateKey.apply, FormFields.pushDateChar]
      split <;> rfl
  | Backspace =>
      simp only [DateKey.apply, FormFields.popDateChar]
      split
      · rfl
      · split <;> rfl

theorem FormState.OnDate.apply {form : FormState} (h : form.OnDate) (key : DateKey) :
    ({ form with fields := key.apply form.fields, hasChanges := true } : FormState).OnDate :=
  { h with custom := (key.expiresAt_apply form.fields).trans h.custom }

variable [Calendar]

/-! ## The edit screen -/

namespace EditRecordScreen

variable {s : EditRecordScreen}

/-- The custom date takes the keys. -/
structure OnDate (s : EditRecordScreen) : Prop where
  form : s.form.OnDate
  noGenerator : s.generator.expanded = false

omit [Calendar] in
theorem OnDate.isCustomDateFocused (h : s.OnDate) : s.isCustomDateFocused = true := by
  simp [EditRecordScreen.isCustomDateFocused, h.form.focused, h.form.custom]

theorem handleKey_date (h : s.OnDate) (a : Surroundings) (key : DateKey) :
    s.handleKey a key.event = s.withFields (key.apply s.form.fields) := by
  have hfocused := h.isCustomDateFocused
  cases key with
  | Digit c hdigit =>
      have hblank := DateKey.ne_blank hdigit
      simp [handleKey, DateKey.event, handleChar, handleDateChar, DateKey.apply, h.form.notSaving,
        h.form.noWeakDialog, h.form.noUnsavedDialog, h.noGenerator, h.form.noExpiryDropdown,
        hfocused, hdigit, hblank]
  | Backspace =>
      simp [handleKey, DateKey.event, DateKey.apply, h.form.notSaving, h.form.noWeakDialog,
        h.form.noUnsavedDialog, h.noGenerator, h.form.noExpiryDropdown, hfocused]

theorem onDate_press (h : s.OnDate) (keys : DateKeys) :
    (s.press keys.events).OnDate ∧
      (s.press keys.events).form.fields = keys.pressed.foldl DateKey.apply s.form.fields := by
  induction keys generalizing s with
  | nil => exact ⟨h, rfl⟩
  | cons e keys ih =>
      have hstep := handleKey_date h e.1 e.2
      have hnext : (s.handleKey e.1 e.2.event).screen.OnDate := by
        rw [hstep]
        exact ⟨h.form.apply e.2, h.noGenerator⟩
      obtain ⟨hdate, hfields⟩ := ih hnext
      refine ⟨hdate, ?_⟩
      rw [hstep] at hfields
      rw [DateKeys.events, List.map_cons, press, List.foldl_cons, hstep]
      exact hfields

end EditRecordScreen

/-! ## The create screen -/

namespace CreateRecordScreen

variable {s : CreateRecordScreen}

/-- The custom date takes the keys. -/
structure OnDate (s : CreateRecordScreen) : Prop where
  form : s.form.OnDate
  noGenerator : s.generator.expanded = false

omit [Calendar] in
theorem OnDate.isCustomDateFocused (h : s.OnDate) : s.isCustomDateFocused = true :=
  EditRecordScreen.OnDate.isCustomDateFocused (s := s.asEdit) ⟨h.form, h.noGenerator⟩

theorem handleKey_date (h : s.OnDate) (a : Surroundings) (key : DateKey) :
    s.handleKey a key.event =
      s.withForm { s.form with fields := key.apply s.form.fields, hasChanges := true } := by
  have hfocused := h.isCustomDateFocused
  cases key with
  | Digit c hdigit =>
      have hblank := DateKey.ne_blank hdigit
      have hkey : s.handleKey a (DateKey.Digit c hdigit).event = s.handleDateChar c := by
        simp [handleKey, DateKey.event, handleChar, h.form.notSaving, h.form.noWeakDialog,
          h.form.noUnsavedDialog, h.noGenerator, h.form.noCredentialDropdown,
          h.form.noExpiryDropdown, hfocused, hblank]
      have hshared : s.asEdit.handleDateChar c =
          s.asEdit.withFields (s.form.fields.pushDateChar c) := if_pos hdigit
      rw [hkey, handleDateChar, via, hshared]
      rfl
  | Backspace =>
      have hkey : s.handleKey a DateKey.Backspace.event = s.handleDateBackspace := by
        simp [handleKey, DateKey.event, h.form.notSaving, h.form.noWeakDialog,
          h.form.noUnsavedDialog, h.noGenerator, h.form.noCredentialDropdown,
          h.form.noExpiryDropdown, hfocused]
      rw [hkey]
      rfl

theorem onDate_press (h : s.OnDate) (keys : DateKeys) :
    (s.press keys.events).OnDate ∧
      (s.press keys.events).form.fields = keys.pressed.foldl DateKey.apply s.form.fields := by
  induction keys generalizing s with
  | nil => exact ⟨h, rfl⟩
  | cons e keys ih =>
      have hstep := handleKey_date h e.1 e.2
      have hnext : (s.handleKey e.1 e.2.event).screen.OnDate := by
        rw [hstep]
        exact ⟨h.form.apply e.2, h.noGenerator⟩
      obtain ⟨hdate, hfields⟩ := ih hnext
      refine ⟨hdate, ?_⟩
      rw [hstep] at hfields
      rw [DateKeys.events, List.map_cons, press, List.foldl_cons, hstep]
      exact hfields

end CreateRecordScreen

/-- On either screen the date is entered as it should be just when the keys are plain. -/
theorem entersDate_screens_iff [LawfulCalendar] (clock : Clock) (keys : DateKeys) :
    (∀ s : EditRecordScreen, s.OnDate → s.form.fields.customDate = none →
      (EntersDate clock keys.pressed (s.press keys.events).form ↔
        PlainDate clock keys.pressed)) ∧
    ∀ s : CreateRecordScreen, s.OnDate → s.form.fields.customDate = none →
      (EntersDate clock keys.pressed (s.press keys.events).form ↔
        PlainDate clock keys.pressed) := by
  constructor
  · intro s hs hnone
    obtain ⟨hdate, hfields⟩ := EditRecordScreen.onDate_press hs keys
    exact entersDate_iff clock keys.pressed hnone hfields hdate.form.custom
  · intro s hs hnone
    obtain ⟨hdate, hfields⟩ := CreateRecordScreen.onDate_press hs keys
    exact entersDate_iff clock keys.pressed hnone hfields hdate.form.custom

end Screens

/-! ## Noon of a new year's day -/

namespace NewYear

/-- 2026-01-01, at noon in UTC. -/
def clock : Clock where
  now := { seconds := 86400 * dayNumber 2026 1 1 + 43200, nanos := 0 }
  offset := 0
  today := (2026, 1, 1)
  offset_bound := by decide
  valid_today := by decide
  today_eq := by decide

def around : Surroundings where
  draws := fun _ => none
  password :=
    { style := .Random
      length := 16
      includeLowercase := true
      includeDigits := true
      includeUppercase := true
      includeSpecial := true
      memorableWordCount := 4
      memorableCapitalize := true
      memorableSeparator := "-"
      pinLength := 6 }
  now := clock.now
  today := clock.today
  queueFull := false

/-- Eight digits. -/
def digits (day : Char) (h : day.isDigit = true) : DateKeys :=
  [.Digit '2' rfl, .Digit '0' rfl, .Digit '2' rfl, .Digit '6' rfl, .Digit '0' rfl, .Digit '1' rfl,
    .Digit '0' rfl, .Digit day h].map fun key => (around, key)

/-- A digit that is erased. -/
def erased : DateKeys :=
  [(around, .Digit '2' rfl), (around, .Backspace)]

section

attribute [local instance] referenceTextArea referenceCalendar referenceCalendar_lawful

def form (mode : FormMode) : FormState :=
  let fresh := FormState.new mode .Login
  { fresh with focusedField := 5, fields.expiresAt := .Custom }

theorem onDate_form (mode : FormMode) : (form mode).OnDate :=
  ⟨rfl, rfl, rfl, rfl, rfl, rfl, rfl⟩

def editScreen : EditRecordScreen where
  form := form (.Edit Uuid.nil)
  generator := .new around.draws
  allTags := []
  recordId := some Uuid.nil
  recordVersion := some 1

def createScreen : CreateRecordScreen where
  form := form .Create
  generator := .new around.draws
  allTags := []

theorem onDate_editScreen : editScreen.OnDate :=
  ⟨onDate_form _, rfl⟩

theorem onDate_createScreen : createScreen.OnDate :=
  ⟨onDate_form _, rfl⟩

theorem denotes_digits {day : Char} {h : day.isDigit = true} {date : Ymd}
    (hdenotes : DenotesDate (filledDate (DateKey.typed (digits day h).pressed)) date) :
    date = dateOf ['2', '0', '2', '6', '0', '1', '0', day] :=
  ((denotesDate_filledDate_iff (DateKey.typed_spec _).1 (DateKey.typed_spec _).2).mp hdenotes).2.1

/-- The next day is entered and accepted. -/
theorem entersDate_tomorrow :
    EntersDate clock (digits '2' rfl).pressed (editScreen.press (digits '2' rfl).events).form := by
  refine ((entersDate_screens_iff clock (digits '2' rfl)).1 editScreen onDate_editScreen
    rfl).mpr ⟨rfl, ?_⟩
  intro date hdenotes _
  rw [denotes_digits hdenotes]
  exact Or.inl (by decide)

/-- A digit that is erased leaves a text without its place, and the day itself is accepted though
its midnight has passed. -/
theorem not_entersDate :
    ¬ EntersDate clock erased.pressed (editScreen.press erased.events).form ∧
      ¬ EntersDate clock (digits '1' rfl).pressed
        (createScreen.press (digits '1' rfl).events).form := by
  constructor
  · intro h
    obtain ⟨hdate, hfields⟩ := EditRecordScreen.onDate_press onDate_editScreen erased
    have hplain := (entersDate_iff clock erased.pressed rfl hfields hdate.form.custom).mp h
    exact absurd hplain.1 (by decide)
  · intro h
    obtain ⟨hdate, hfields⟩ := CreateRecordScreen.onDate_press onDate_createScreen (digits '1' rfl)
    have hplain := (entersDate_iff clock _ rfl hfields hdate.form.custom).mp h
    have hdenotes : DenotesDate (filledDate (DateKey.typed (digits '1' rfl).pressed))
        (dateOf ['2', '0', '2', '6', '0', '1', '0', '1']) :=
      (denotesDate_filledDate_iff (DateKey.typed_spec _).1 (DateKey.typed_spec _).2).mpr
        ⟨rfl, rfl, by decide⟩
    rcases hplain.2 _ hdenotes (by decide) with hlater | ⟨hsame, -⟩
    · exact absurd hlater (by decide)
    · exact absurd hsame (by decide)

end

end NewYear

end OakKeyring
