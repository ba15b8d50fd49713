import OakKeyring.Tui.EditRecord

/-!
# What the keys leave alone

No key changes the record that is edited, and a save sends what the form has at that moment. A
field that no key changes has what was loaded into it.
-/

namespace OakKeyring

variable [TextArea]

namespace FormState

variable (s : FormState)

@[simp] theorem clearSubFocus_credentialType :
    s.clearSubFocus.credentialType = s.credentialType := rfl

@[simp] theorem focusNext_credentialType : s.focusNext.credentialType = s.credentialType := by
  unfold focusNext
  split
  · rfl
  · split <;> rfl

@[simp] theorem focusPrev_credentialType : s.focusPrev.credentialType = s.credentialType := by
  unfold focusPrev
  split
  · rfl
  · rfl
  · split <;> rfl

@[simp] theorem focusField_credentialType (index : Nat) :
    (s.focusField index).credentialType = s.credentialType := rfl

@[simp] theorem toggleCurrentVisibility_credentialType :
    s.toggleCurrentVisibility.credentialType = s.credentialType := by
  unfold toggleCurrentVisibility
  split <;> rfl

@[simp] theorem subFocusNext_credentialType :
    s.subFocusNext.2.credentialType = s.credentialType := by
  unfold subFocusNext
  split
  · rfl
  · dsimp only
    split <;> rfl

@[simp] theorem subFocusPrev_credentialType :
    s.subFocusPrev.2.credentialType = s.credentialType := by
  unfold subFocusPrev
  split
  · rfl
  · split <;> rfl

@[simp] theorem clearCurrentLimitError_credentialType :
    s.clearCurrentLimitError.credentialType = s.credentialType := rfl

@[simp] theorem setCurrentLimitError_credentialType :
    s.setCurrentLimitError.credentialType = s.credentialType := by
  unfold setCurrentLimitError
  dsimp only
  split <;> rfl

@[simp] theorem startSaving_credentialType : s.startSaving.credentialType = s.credentialType := rfl

end FormState

/-! ## One key -/

namespace EditRecordScreen

variable [Calendar] {s : EditRecordScreen} {r : Reply} {a : Surroundings}

/-- The screen still edits the same record. -/
structure SameTarget (s s' : EditRecordScreen) : Prop where
  id : s'.recordId = s.recordId
  version : s'.recordVersion = s.recordVersion
  type : s'.form.credentialType = s.form.credentialType

/-- What a reply may do: it keeps the record, and what it sends is what the form has. -/
structure Answers (s : EditRecordScreen) (r : Reply) : Prop where
  target : SameTarget s r.screen
  sent : ∀ params, r.sent = some params → ∃ now, params = s.updateCommand now

omit [Calendar] in
theorem SameTarget.refl (s : EditRecordScreen) : SameTarget s s :=
  ⟨rfl, rfl, rfl⟩

omit [Calendar] in
theorem SameTarget.trans {s s' s'' : EditRecordScreen} (h : SameTarget s s')
    (h' : SameTarget s' s'') : SameTarget s s'' :=
  ⟨h'.id.trans h.id, h'.version.trans h.version, h'.type.trans h.type⟩

theorem answers_quiet (htarget : SameTarget s r.screen) (hquiet : r.sent = none) : Answers s r where
  target := htarget
  sent := by
    intro params hsent
    rw [hquiet] at hsent
    cases hsent

/-- A reply to a screen that has the same record, and would send the same. -/
theorem Answers.of_same {s' : EditRecordScreen} (h : Answers s' r) (htarget : SameTarget s s')
    (hsame : ∀ now, s'.updateCommand now = s.updateCommand now) : Answers s r where
  target := htarget.trans h.target
  sent := by
    intro params hsent
    rcases h.sent params hsent with ⟨now, hparams⟩
    exact ⟨now, hparams.trans (hsame now)⟩

theorem answers_continues : Answers s s.continues :=
  answers_quiet (.refl s) rfl

theorem answers_result {result : ScreenResult} (h : Answers s r) :
    Answers s { r with result := result } :=
  ⟨h.target, h.sent⟩

theorem answers_withForm {form : FormState}
    (h : form.credentialType = s.form.credentialType) : Answers s (s.withForm form) :=
  answers_quiet ⟨rfl, rfl, h⟩ rfl

theorem answers_withFields (f : FormFields) : Answers s (s.withFields f) :=
  answers_withForm rfl

theorem answers_withGenerator (g : GeneratorState) : Answers s (s.withGenerator g) :=
  answers_quiet ⟨rfl, rfl, rfl⟩ rfl

theorem answers_submitUpdateRecord : Answers s (s.submitUpdateRecord a) := by
  unfold submitUpdateRecord
  split
  · exact answers_withForm rfl
  · refine ⟨⟨rfl, rfl, rfl⟩, ?_⟩
    intro params hsent
    exact ⟨a.now, (Option.some.inj hsent).symm⟩

theorem answers_attemptSave : Answers s (s.attemptSave a) := by
  unfold attemptSave
  split
  · exact answers_withForm rfl
  · split
    · exact answers_withForm rfl
    · exact answers_submitUpdateRecord

theorem answers_cancelForm : Answers s s.cancelForm := by
  unfold cancelForm
  split
  · exact answers_withForm rfl
  · exact answers_result answers_continues

theorem answers_handleWeakPasswordDialog (key : KeyCode) :
    Answers s (s.handleWeakPasswordDialog a key) := by
  unfold handleWeakPasswordDialog
  split
  · exact answers_withForm rfl
  · exact answers_withForm rfl
  · exact answers_withForm rfl
  · exact answers_withForm rfl
  · dsimp only
    split
    · exact answers_quiet ⟨rfl, rfl, rfl⟩ rfl
    -- the form that is sent differs in the dialog only
    · exact answers_submitUpdateRecord.of_same ⟨rfl, rfl, rfl⟩ fun _ => rfl
  · exact answers_continues

theorem answers_handleUnsavedDialog (key : KeyCode) : Answers s (s.handleUnsavedDialog key) := by
  unfold handleUnsavedDialog
  split
  · exact answers_withForm rfl
  · exact answers_withForm rfl
  · exact answers_withForm rfl
  · exact answers_withForm rfl
  · exact answers_withForm rfl
  · split
    · exact answers_withForm rfl
    · exact answers_result answers_continues
  · exact answers_result (answers_withForm rfl)
  · exact answers_continues

theorem answers_useGenerated : Answers s s.useGenerated :=
  answers_quiet ⟨rfl, rfl, rfl⟩ rfl

theorem answers_activateGeneratorFocus : Answers s (s.activateGeneratorFocus a) := by
  unfold activateGeneratorFocus
  dsimp only
  split
  · exact answers_useGenerated
  · exact answers_withGenerator _
  · split
    · exact answers_withGenerator _
    · split
      · exact answers_withGenerator _
      · exact answers_continues
  · exact answers_continues

theorem answers_handleGeneratorFocusKey (key : KeyCode) :
    Answers s (s.handleGeneratorFocusKey a key) := by
  unfold handleGeneratorFocusKey
  dsimp only
  cases s.generator.generator.focus with
  | LengthSlider => cases key <;> exact answers_withGenerator _
  | Toggle index => cases key <;> exact answers_withGenerator _
  | SeparatorInput => cases key <;> exact answers_withGenerator _
  | RegenerateButton => cases key <;> exact answers_withGenerator _
  | ActionButton => cases key <;> exact answers_withGenerator _
  | StyleSelector => exact answers_continues

theorem answers_handleGeneratorKey (key : KeyCode) : Answers s (s.handleGeneratorKey a key) := by
  unfold handleGeneratorKey
  dsimp only
  split
  · exact answers_quiet ⟨rfl, rfl, rfl⟩ rfl
  · exact answers_withGenerator _
  · exact answers_withGenerator _
  · exact answers_withGenerator _
  · exact answers_withGenerator _
  · exact answers_withGenerator _
  · split
    · exact answers_withGenerator _
    · exact answers_useGenerated
  · split <;> exact answers_withGenerator _
  · split <;> exact answers_withGenerator _
  · split <;> exact answers_withGenerator _
  · exact answers_activateGeneratorFocus
  · exact answers_activateGeneratorFocus
  · exact answers_handleGeneratorFocusKey _

theorem answers_handleExpiryDropdown (key : KeyCode) :
    Answers s (s.handleExpiryDropdown key) := by
  unfold handleExpiryDropdown
  dsimp only
  split <;> exact answers_withForm rfl

theorem answers_expandGenerator : Answers s (s.expandGenerator a) :=
  answers_quiet ⟨rfl, rfl, rfl⟩ rfl

theorem answers_copySecret : Answers s s.copySecret := by
  unfold copySecret
  split
  · split
    · exact answers_continues
    · exact answers_result answers_continues
  · exact answers_continues

theorem answers_enterField : Answers s s.enterField := by
  unfold enterField
  dsimp only
  split
  · exact answers_withForm rfl
  · split
    · refine answers_withForm ?_
      split <;> rfl
    · exact answers_continues

theorem answers_handleEnter : Answers s (s.handleEnter a) := by
  unfold handleEnter
  split
  · exact answers_attemptSave
  · exact answers_cancelForm
  · split
    · split
      · exact answers_withForm rfl
      · exact answers_withForm (FormState.setCurrentLimitError_credentialType _)
    · split
      · exact answers_withForm (FormState.toggleCurrentVisibility_credentialType _)
      · exact answers_copySecret
      · split
        · exact answers_expandGenerator
        · exact answers_enterField
      · exact answers_continues
      · exact answers_enterField

omit [Calendar] in
theorem typeIntoTail_credentialType (c : Char) :
    (s.typeIntoTail c).credentialType = s.form.credentialType := by
  unfold typeIntoTail
  dsimp only
  split
  · split <;> rfl
  · split <;> rfl

theorem answers_handleCharInput (c : Char) : Answers s (s.handleCharInput c) := by
  unfold handleCharInput
  dsimp only
  split
  · exact answers_continues
  · split
    · exact answers_continues
    · split
      · exact answers_withForm (FormState.setCurrentLimitError_credentialType _)
      · refine answers_withForm ?_
        split
        · rfl
        · exact typeIntoTail_credentialType c

theorem answers_handleBackspace : Answers s s.handleBackspace := by
  unfold handleBackspace
  dsimp only
  split
  · exact answers_continues
  · split
    · exact answers_continues
    · split
      · exact answers_withFields _
      · exact answers_withForm rfl

theorem answers_handleDelete : Answers s s.handleDelete := by
  unfold handleDelete
  dsimp only
  split
  · exact answers_withFields _
  · split
    · split <;> exact answers_withForm rfl
    · split <;> exact answers_withForm rfl

theorem answers_handleDateChar (c : Char) : Answers s (s.handleDateChar c) := by
  unfold handleDateChar
  split
  · exact answers_withFields _
  · exact answers_continues

/-! ### Arrow keys -/

theorem answers_handleDown : Answers s s.handleDown := by
  unfold handleDown
  split
  · exact answers_withForm rfl
  · exact answers_withForm (FormState.focusNext_credentialType _)

theorem answers_handleUp : Answers s s.handleUp := by
  unfold handleUp
  split
  · exact answers_withForm rfl
  · exact answers_withForm (FormState.focusPrev_credentialType _)

/-- The tags may lose their focus before the rest of the key is handled. -/
theorem answers_tagsFirst {f : FormFields → Bool × FormFields} {rest : EditRecordScreen → Reply}
    (hrest : ∀ s', SameTarget s s' → (rest s').sent = none ∧ SameTarget s' (rest s').screen) :
    Answers s (s.tagsFirst f rest) := by
  have hafter : ∀ s', SameTarget s s' → Answers s (rest s') := fun s' hs =>
    answers_quiet (hs.trans (hrest s' hs).2) (hrest s' hs).1
  unfold tagsFirst
  dsimp only
  split
  · split
    · exact answers_quiet ⟨rfl, rfl, rfl⟩ rfl
    · exact hafter _ ⟨rfl, rfl, rfl⟩
  · exact hafter s (.refl s)

omit [Calendar] in
theorem withForm_quiet {form : FormState} (h : form.credentialType = s.form.credentialType) :
    (s.withForm form).sent = none ∧ SameTarget s (s.withForm form).screen :=
  ⟨rfl, rfl, rfl, h⟩

theorem answers_handleRight : Answers s s.handleRight := by
  refine answers_tagsFirst fun s' _ => ?_
  dsimp only
  split
  · exact withForm_quiet rfl
  · split
    · exact withForm_quiet rfl
    · split
      · exact withForm_quiet (FormState.subFocusNext_credentialType _)
      · exact withForm_quiet (FormState.focusNext_credentialType _)

theorem answers_handleLeft : Answers s s.handleLeft := by
  refine answers_tagsFirst fun s' _ => ?_
  dsimp only
  split
  · exact withForm_quiet rfl
  · split
    · exact withForm_quiet (FormState.subFocusPrev_credentialType _)
    · exact withForm_quiet (FormState.focusPrev_credentialType _)

/-! ### Every key -/

theorem answers_handleChar (control : Bool) (c : Char) : Answers s (s.handleChar a control c) := by
  have hsecret : SameTarget s s.focusSecret := ⟨rfl, rfl, rfl⟩
  have hsame : ∀ now, s.focusSecret.updateCommand now = s.updateCommand now := fun _ => rfl
  unfold handleChar
  split
  · unfold activateGenerateShortcut
    split
    · exact answers_quiet ⟨rfl, rfl, rfl⟩ rfl
    · exact answers_continues
  · split
    · exact (answers_withForm (FormState.toggleCurrentVisibility_credentialType _)).of_same
        hsecret hsame
    · split
      · exact answers_copySecret.of_same hsecret hsame
      · split
        · exact answers_attemptSave
        · split
          · exact answers_handleEnter
          · split
            · exact answers_handleDateChar c
            · exact answers_handleCharInput c

/-- No key changes the record that is edited, and what a key sends is what the form has. -/
theorem answers_handleKey (key : KeyEvent) : Answers s (s.handleKey a key) := by
  unfold handleKey
  split
  · exact answers_continues
  · split
    · exact answers_handleWeakPasswordDialog _
    · split
      · exact answers_handleUnsavedDialog _
      · split
        · exact answers_handleGeneratorKey _
        · split
          · exact answers_handleExpiryDropdown _
          · cases key.code with
            | Tab => exact answers_withForm (FormState.focusNext_credentialType _)
            | BackTab => exact answers_withForm (FormState.focusPrev_credentialType _)
            | Up => exact answers_handleUp
            | Down => exact answers_handleDown
            | Left => exact answers_handleLeft
            | Right => exact answers_handleRight
            | Esc => exact answers_cancelForm
            | Enter => exact answers_handleEnter
            | Backspace =>
                change Answers s (if _ then _ else _)
                split
                · exact answers_withFields _
                · exact answers_handleBackspace
            | Delete => exact answers_handleDelete
            | Char c => exact answers_handleChar _ c
            | Other => exact answers_continues

/-! ## A sequence of keys -/

/-- The keys, each with what it finds outside the screen. -/
abbrev Keys := List (Surroundings × KeyEvent)

def press (s : EditRecordScreen) (keys : Keys) : EditRecordScreen :=
  keys.foldl (fun s e => (s.handleKey e.1 e.2).screen) s

theorem sameTarget_press (s : EditRecordScreen) (keys : Keys) : SameTarget s (s.press keys) := by
  induction keys generalizing s with
  | nil => exact .refl s
  | cons e keys ih => exact (answers_handleKey e.2).target.trans (ih _)

/-- No key of the sequence changes what is read of the form. -/
def Untouched {α : Type} (read : FormFields → α) : EditRecordScreen → Keys → Prop
  | _, [] => True
  | s, e :: keys =>
      read (s.handleKey e.1 e.2).screen.form.fields = read s.form.fields ∧
        Untouched read (s.handleKey e.1 e.2).screen keys

theorem Untouched.press {α : Type} {read : FormFields → α} {s : EditRecordScreen} {keys : Keys}
    (h : Untouched read s keys) : read (s.press keys).form.fields = read s.form.fields := by
  induction keys generalizing s with
  | nil => rfl
  | cons e keys ih => exact (ih h.2).trans h.1

end EditRecordScreen

/-! ## Fields and attributes -/

/-- The attributes that are kept in a payload. -/
inductive PayloadField
  | name
  | username
  | password
  | appId
  | secretKey
  | publicKey
  | privateKey
  | passphrase
  | url
  | notes
deriving DecidableEq, Repr

/-- An attribute of a payload, if its type has it; some may be left out. -/
def EncryptedPayload.value : EncryptedPayload → PayloadField → Option (Option String)
  | .Login name .., .name => some (some name)
  | .Login _ username .., .username => some (some username)
  | .Login _ _ password .., .password => some (some password)
  | .Login _ _ _ url _, .url => some url
  | .Login _ _ _ _ notes, .notes => some notes
  | .Api name .., .name => some (some name)
  | .Api _ appId .., .appId => some (some appId)
  | .Api _ _ secretKey .., .secretKey => some (some secretKey)
  | .Api _ _ _ url _, .url => some url
  | .Api _ _ _ _ notes, .notes => some notes
  | .Ssh name .., .name => some (some name)
  | .Ssh _ publicKey .., .publicKey => some (some publicKey)
  | .Ssh _ _ privateKey .., .privateKey => some privateKey
  | .Ssh _ _ _ passphrase _, .passphrase => some passphrase
  | .Ssh _ _ _ _ notes, .notes => some notes
  | .SecureNote name _, .name => some (some name)
  | .SecureNote _ notes, .notes => some notes
  | _, _ => none

/-- The text that the form has for an attribute. -/
def FormFields.value (f : FormFields) : PayloadField → Option String
  | .name => some f.name
  | .username => f.username
  | .password => f.password
  | .appId => f.appId
  | .secretKey => f.secretKey
  | .publicKey => f.publicKey
  | .privateKey => f.privateKey
  | .passphrase => f.passphrase
  | .url => some f.url
  | .notes => some f.notesText

omit [TextArea] in
/-- A payload is what its attributes are. -/
theorem payload_eq_of_value {p p' : EncryptedPayload} (htype : p'.credentialType = p.credentialType)
    (h : ∀ field, p'.value field = p.value field) : p' = p := by
  have htext : ∀ {a b : String}, some (some a) = some (some b) → a = b :=
    fun heq => Option.some.inj (Option.some.inj heq)
  have hoptional : ∀ {a b : Option String}, some a = some b → a = b := Option.some.inj
  cases p with
  | Login name username password url notes =>
      cases p' with
      | Login name' username' password' url' notes' =>
          rw [htext (h .name), htext (h .username), htext (h .password), hoptional (h .url),
            hoptional (h .notes)]
      | _ => cases htype
  | Api name appId secretKey url notes =>
      cases p' with
      | Api name' appId' secretKey' url' notes' =>
          rw [htext (h .name), htext (h .appId), htext (h .secretKey), hoptional (h .url),
            hoptional (h .notes)]
      | _ => cases htype
  | Ssh name publicKey privateKey passphrase notes =>
      cases p' with
      | Ssh name' publicKey' privateKey' passphrase' notes' =>
          rw [htext (h .name), htext (h .publicKey), hoptional (h .privateKey),
            hoptional (h .passphrase), hoptional (h .notes)]
      | _ => cases htype
  | SecureNote name notes =>
      cases p' with
      | SecureNote name' notes' => rw [htext (h .name), hoptional (h .notes)]
      | _ => cases htype

/-! ## What the form holds -/

namespace TextArea

/-- No line of the text ends in a carriage return, not even the last. -/
def PlainLines (text : String) : Prop :=
  ∀ line ∈ text.toList.splitOn '\n', line.getLast? ≠ some '\r'

omit [TextArea]

theorem stripCr_eq_self_iff (line : List Char) :
    stripCr line = line ↔ line.getLast? ≠ some '\r' := by
  unfold stripCr
  split
  case isTrue hreturn =>
    have hne : line ≠ [] := by
      intro hnil
      rw [hnil] at hreturn
      cases hreturn
    refine iff_of_false (fun hsame => ?_) fun hno => hno hreturn
    have hlength := congrArg List.length hsame
    rw [List.length_dropLast] at hlength
    have hpos := List.length_pos_iff.mpr hne
    omega
  case isFalse hno => exact iff_of_true rfl hno

theorem toList_joinLines_splitLines (text : String) :
    (joinLines (splitLines text)).toList =
      ['\n'].intercalate ((text.toList.splitOn '\n').map stripCr) := by
  have hback : String.toList ∘ (fun line => String.ofList (stripCr line)) = stripCr := by
    funext line
    exact String.toList_ofList
  unfold joinLines splitLines
  rw [String.toList_ofList, List.map_map, hback]

/-- A text comes back from its lines exactly when none of them ends in a carriage return. -/
theorem joinLines_splitLines_iff (text : String) :
    joinLines (splitLines text) = text ↔ PlainLines text := by
  have hlines : (∀ line ∈ text.toList.splitOn '\n', stripCr line = line) ↔ PlainLines text :=
    forall₂_congr fun line _ => stripCr_eq_self_iff line
  rw [← hlines]
  constructor
  · intro hsame
    have hfree : ∀ line ∈ (text.toList.splitOn '\n').map stripCr, '\n' ∉ line := by
      intro line hline hmem
      rcases List.mem_map.mp hline with ⟨piece, hpiece, rfl⟩
      have hinside : '\n' ∈ piece := by
        unfold stripCr at hmem
        split at hmem
        · exact List.mem_of_mem_dropLast hmem
        · exact hmem
      have hbreak := (Separated.splitOnP_free _ hpiece '\n' hinside).1
      simp at hbreak
    have hparts := congrArg (fun s : String => s.toList.splitOn '\n') hsame
    simp only [toList_joinLines_splitLines] at hparts
    rw [List.splitOn_intercalate '\n' hfree (by simp [List.splitOn_ne_nil])] at hparts
    exact List.map_inj_left.mp (hparts.trans (List.map_id _).symm)
  · intro hplain
    apply String.toList_injective
    rw [toList_joinLines_splitLines, List.map_congr_left hplain, List.map_id',
      List.intercalate_splitOn]

end TextArea

namespace EditRecordScreen

@[simp] theorem loadFields_expiresAt (record : DecryptedRecord) (f : FormFields) :
    (loadFields record f).expiresAt = f.expiresAt := by
  unfold loadFields
  cases record.payload <;> rfl

@[simp] theorem loadFields_tags (record : DecryptedRecord) (f : FormFields) :
    (loadFields record f).tags = record.tags := by
  unfold loadFields
  cases record.payload <;> rfl

/-- What a save makes of an attribute that was loaded and left alone: an absent address becomes an
empty one, and notes lose what the text area does not give back, and are absent when empty. -/
def reloaded : PayloadField → Option (Option String) → Option (Option String)
  | .url, some none => some (some "")
  | .notes, some (some text) =>
      some (FormState.optionalNotes (TextArea.joinLines (TextArea.splitLines text)))
  | _, value => value

omit [TextArea] in
theorem reloaded_of_ne {field : PayloadField} {value : Option (Option String)}
    (hurl : field = .url → value ≠ some none)
    (hnotes : field = .notes → ∀ text, value = some (some text) →
      text ≠ "" ∧ TextArea.PlainLines text) : reloaded field value = value := by
  unfold reloaded
  split
  · exact absurd rfl (hurl rfl)
  · rename_i text
    rcases hnotes rfl text rfl with ⟨hne, hplain⟩
    rw [(TextArea.joinLines_splitLines_iff text).mpr hplain, FormState.optionalNotes, if_neg hne]
  · rfl

omit [TextArea] in
/-- Notes that come back as they were are not empty, and the text area gives them back. -/
theorem plain_of_reloaded {text : String}
    (h : reloaded .notes (some (some text)) = some (some text)) :
    text ≠ "" ∧ TextArea.PlainLines text := by
  have hoptional : FormState.optionalNotes (TextArea.joinLines (TextArea.splitLines text)) =
      some text := Option.some.inj h
  unfold FormState.optionalNotes at hoptional
  split at hoptional
  · cases hoptional
  · rename_i hne
    have hsame := Option.some.inj hoptional
    exact ⟨fun hempty => hne (hsame.trans hempty), (TextArea.joinLines_splitLines_iff text).mp hsame⟩

omit [TextArea] in
theorem reloaded_url (url : Option String) :
    reloaded .url (some url) = some (some (url.getD "")) := by
  cases url <;> rfl

omit [TextArea] in
theorem reloaded_notes (notes : Option String) :
    reloaded .notes (some notes) = some (FormState.optionalNotes
      (TextArea.joinLines (TextArea.splitLines (notes.getD "")))) := by
  cases notes <;> rfl

variable [LawfulTextArea]

/-- The notes that are read back are the lines of those that were loaded. -/
theorem notesText_loaded {f : FormFields} (hnew : f.notes = TextArea.create) (text : String) :
    (f.setNotesText text).notesText = TextArea.joinLines (TextArea.splitLines text) := by
  have hlines := LawfulTextArea.lines_given text
  unfold FormFields.notesText FormFields.setNotesText textareaText
  dsimp only
  rw [hnew, hlines]

/-- An attribute whose field has what was loaded into it. -/
theorem value_snapshot_of_loaded {record : DecryptedRecord} {form : FormState}
    {field : PayloadField} (htype : form.credentialType = record.credentialType)
    (h : form.fields.value field =
      (loadFields record (.new record.credentialType)).value field) :
    form.buildPayloadSnapshot.value field = reloaded field (record.payload.value field) := by
  have hnotes : ∀ {f : FormFields} {notes : Option String}, f.notes = TextArea.create →
      some form.fields.notesText = some (f.setNotesText (notes.getD "")).notesText →
      some (FormState.optionalNotes form.fields.notesText) = reloaded .notes (some notes) := by
    intro f notes hnew hsame
    rw [reloaded_notes, ← notesText_loaded hnew (notes.getD "")]
    exact congrArg (fun text => some (FormState.optionalNotes text)) (Option.some.inj hsame)
  -- an empty text and a missing one are loaded alike
  have htext : ∀ {value : Option String} {text : String}, value = some text →
      (some (some (value.getD "")) : Option (Option String)) = some (some text) := by
    intro value text hvalue
    rw [hvalue]
    rfl
  unfold loadFields at h
  unfold DecryptedRecord.credentialType at htype
  unfold FormState.buildPayloadSnapshot
  rw [htype]
  -- the fields of each type; the others are not on its form
  cases hpayload : record.payload with
  | Login name username password url notes =>
      simp only [hpayload] at h
      cases field with
      | name => exact congrArg some h
      | username => exact htext h
      | password => exact htext h
      | url => exact (congrArg some h).trans (reloaded_url url).symm
      | notes => exact hnotes rfl h
      | _ => rfl
  | Api name appId secretKey url notes =>
      simp only [hpayload] at h
      cases field with
      | name => exact congrArg some h
      | appId => exact htext h
      | secretKey => exact htext h
      | url => exact (congrArg some h).trans (reloaded_url url).symm
      | notes => exact hnotes rfl h
      | _ => rfl
  | Ssh name publicKey privateKey passphrase notes =>
      simp only [hpayload] at h
      cases field with
      | name => exact congrArg some h
      | publicKey => exact htext h
      | privateKey => exact congrArg some h
      | passphrase => exact congrArg some h
      | notes => exact hnotes rfl h
      | _ => rfl
  | SecureNote name notes =>
      simp only [hpayload] at h
      cases field with
      | name => exact congrArg some h
      | notes => exact hnotes rfl h
      | _ => rfl

end EditRecordScreen

end OakKeyring
