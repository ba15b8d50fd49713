import OakKeyring.Tui.FormValidation
import OakKeyring.Tui.Generator
import OakKeyring.Vault.Record

/-!
# The edit screen

The screen that a record is loaded into, the keys it answers to, and the command that it sends.
-/

namespace OakKeyring

/-- A character that is typed. -/
abbrev Letter := Char

inductive KeyCode
  | Tab
  | BackTab
  | Up
  | Down
  | Left
  | Right
  | Esc
  | Enter
  | Backspace
  | Delete
  | Char (c : Letter)
  | Other
deriving DecidableEq, Repr

structure KeyEvent where
  code : KeyCode
  control : Bool
deriving DecidableEq, Repr

/-- What a key event finds outside the screen. -/
structure Surroundings where
  draws : Draws
  password : PasswordDefaultsConfig
  now : DateTime
  today : Ymd
  /-- the queue of the executor takes no command -/
  queueFull : Bool

inductive ScreenResult
  | Continue
  /-- `Command::CopyRawToClipboard` -/
  | CopyRawToClipboard (value : String)
  /-- `NavigateTo(Screen::Main)` -/
  | NavigateToMain
  | PopScreen
deriving DecidableEq, Repr

/-- The results that the screen answers to. -/
inductive EditResult
  | TagsLoaded (names : List String)
  | RecordForEditLoaded (record : DecryptedRecord)
  | RecordUpdated
  | Error
  | FatalError
  | Cancelled
deriving DecidableEq, Repr

inductive EditMessage
  | KeyEvent (key : OakKeyring.KeyEvent)
  | Tick
  | CommandCompleted (result : EditResult)
deriving DecidableEq, Repr

structure EditRecordScreen [TextArea] where
  form : FormState
  generator : EmbeddedGeneratorState
  allTags : List String
  recordId : Option Uuid
  recordVersion : Option Nat

/-- What a key makes of the screen, and the `Command::UpdateRecord` that is sent. -/
structure Reply [TextArea] where
  screen : EditRecordScreen
  result : ScreenResult
  sent : Option UpdateRecordParams

def popChar (s : String) : String :=
  String.ofList s.toList.dropLast

section

variable [TextArea]

namespace FormFields

/-- The field of a payload that is typed into. -/
def pushChar (ct : CredentialType) (focused : Nat) (c : Char) (f : FormFields) : FormFields :=
  match focused, ct with
  | 1, _ => { f with name := f.name.push c }
  | 2, .SecureNote => { f with notes := TextArea.insertChar c f.notes }
  | 2, _ => { f with url := f.url.push c }
  | 3, .Login => { f with username := some ((f.username.getD "").push c) }
  | 3, .Api => { f with appId := some ((f.appId.getD "").push c) }
  | 3, .Ssh => { f with publicKey := some ((f.publicKey.getD "").push c) }
  | 4, .Login => { f with password := some ((f.password.getD "").push c) }.updateStrength
  | 4, .Api => { f with secretKey := some ((f.secretKey.getD "").push c) }
  | 4, .Ssh => { f with privateKey := some ((f.privateKey.getD "").push c) }
  | 5, .Ssh => { f with passphrase := some ((f.passphrase.getD "").push c) }
  | _, _ => f

def popField (ct : CredentialType) (focused : Nat) (f : FormFields) : FormFields :=
  match focused, ct with
  | 1, _ => { f with name := popChar f.name }
  | 2, .SecureNote => { f with notes := TextArea.deleteChar f.notes }
  | 2, _ => { f with url := popChar f.url }
  | 3, .Login => { f with username := f.username.map popChar }
  | 3, .Api => { f with appId := f.appId.map popChar }
  | 3, .Ssh => { f with publicKey := f.publicKey.map popChar }
  | 4, .Login => { f with password := f.password.map popChar }.updateStrength
  | 4, .Api => { f with secretKey := f.secretKey.map popChar }
  | 4, .Ssh => { f with privateKey := f.privateKey.map popChar }
  | 5, .Ssh => { f with passphrase := f.passphrase.map popChar }
  | _, _ => f

/-- The fields up to the secrets, which are told by their number. -/
def isNumbered (ct : CredentialType) (focused : Nat) : Bool :=
  (1 ≤ focused ∧ focused ≤ 4) ∨ (focused = 5 ∧ ct = .Ssh)

def dateTemplate : String := "    -  -  "

/-- The first blank of the date takes the digit. -/
def pushDateChar (c : Char) (f : FormFields) : FormFields :=
  let date := (f.customDate.getD dateTemplate).toList
  match date.findIdx? fun ch => ch = ' ' with
  | some index => { f with customDate := some (String.ofList (date.set index c)) }
  | none => { f with customDate := some (String.ofList date) }

/-- A separator goes with the digit after it. -/
def popDateChar (f : FormFields) : FormFields :=
  match f.customDate with
  | none => f
  | some date =>
      if date = "" then f
      else
        let popped := popChar date
        let last := popped.toList.getLast?
        { f with customDate := some (if last = some '-' then popChar popped else popped) }

end FormFields

namespace EditRecordScreen

def new (draws : Draws) (recordId : Uuid) (ct : CredentialType) : EditRecordScreen where
  form := .newEdit recordId ct
  generator := .new draws
  allTags := []
  recordId := some recordId
  recordVersion := none

variable (s : EditRecordScreen)

def continues : Reply where
  screen := s
  result := .Continue
  sent := none

/-- The form is replaced and nothing else happens. -/
def withForm (form : FormState) : Reply :=
  { s with form := form }.continues

def withFields (f : FormFields) : Reply :=
  s.withForm { s.form with fields := f, hasChanges := true }

def withGenerator (g : GeneratorState) : Reply :=
  { s with generator.generator := g }.continues

/-- The attributes of the command come from the form, the id and the version from the record that
was loaded. -/
def updateCommand [Calendar] (now : DateTime) : UpdateRecordParams where
  id := s.recordId.getD Uuid.nil
  payload := s.form.buildPayloadSnapshot
  isFavorite := false
  expiresAt := s.form.expiryDatetime now
  tags := s.form.fields.tags
  expectedVersion := s.recordVersion.getD 0

def submitUpdateRecord [Calendar] (a : Surroundings) : Reply :=
  if a.queueFull then
    s.withForm
      { s.form with
        validationErrors := [{ fieldIndex := 1, message := .CommandQueueFull }]
        focusedField := 1 }
  else
    { screen := { s with form := s.form.startSaving }
      result := .Continue
      sent := some (s.updateCommand a.now) }

def attemptSave [Calendar] (a : Surroundings) : Reply :=
  match Validation.validate s.form.fields s.form.credentialType a.today with
  | error :: errors =>
      s.withForm
        { s.form with
          validationErrors := error :: errors
          focusedField := error.fieldIndex }
  | [] =>
      if s.form.credentialType = .Login ∧ s.form.isPasswordWeak then
        s.withForm { s.form with showWeakPasswordDialog := true }
      else s.submitUpdateRecord a

def cancelForm : Reply :=
  if s.form.hasChanges then
    s.withForm { s.form with showUnsavedDialog := true, unsavedDialogFocus := 0 }
  else { s.continues with result := .NavigateToMain }

def handleWeakPasswordDialog [Calendar] (a : Surroundings) (key : KeyCode) : Reply :=
  match key with
  | .Esc => s.withForm { s.form with showWeakPasswordDialog := false, weakDialogFocus := 0 }
  | .Left | .Tab => s.withForm { s.form with weakDialogFocus := 0 }
  | .Right => s.withForm { s.form with weakDialogFocus := 1 }
  | .Enter =>
      let closed :=
        { s with form := { s.form with showWeakPasswordDialog := false, weakDialogFocus := 0 } }
      if s.form.weakDialogFocus = 0 then closed.continues else closed.submitUpdateRecord a
  | _ => s.continues

def handleUnsavedDialog (key : KeyCode) : Reply :=
  match key with
  | .Esc | .Char 'n' =>
      s.withForm { s.form with showUnsavedDialog := false, unsavedDialogFocus := 0 }
  | .Tab | .Right | .Left =>
      s.withForm { s.form with unsavedDialogFocus := 1 - s.form.unsavedDialogFocus }
  | .Enter =>
      if s.form.unsavedDialogFocus = 0 then s.withForm { s.form with showUnsavedDialog := false }
      else { s.continues with result := .NavigateToMain }
  | .Char 'y' =>
      { s.withForm { s.form with unsavedDialogFocus := 1 } with result := .NavigateToMain }
  | _ => s.continues

/-! ## The generator -/

/-- The generated password goes into the form. -/
def useGenerated : Reply :=
  let taken := s.generator.usePassword
  { s with generator := taken.2 }.withFields
    { s.form.fields with password := some taken.1 }.updateStrength

def activateGeneratorFocus (a : Surroundings) : Reply :=
  let g := s.generator.generator
  match g.focus with
  | .ActionButton => s.useGenerated
  | .RegenerateButton => s.withGenerator (g.regenerate a.draws)
  | .Toggle index =>
      if g.style = .Random then s.withGenerator (g.toggleCharType a.draws index)
      else if g.style = .Memorable ∧ index = 0 then s.withGenerator (g.toggleCapitalize a.draws)
      else s.continues
  | _ => s.continues

def handleGeneratorFocusKey (a : Surroundings) (key : KeyCode) : Reply :=
  let g := s.generator.generator
  match g.focus, key with
  | .LengthSlider, .Left => s.withGenerator (g.decrementLength a.draws)
  | .LengthSlider, .Right => s.withGenerator (g.incrementLength a.draws)
  | .Toggle _, .Left => s.withGenerator g.focusPrevToggle
  | .Toggle _, .Right => s.withGenerator g.focusNextToggle
  | .SeparatorInput, .Left => s.withGenerator g.focusPrevToggle
  | .SeparatorInput, .Right => s.withGenerator g.focusNextToggle
  | .SeparatorInput, .Char c => s.withGenerator (g.setSeparator a.draws (String.singleton c))
  | .SeparatorInput, .Backspace => s.withGenerator (g.setSeparator a.draws "-")
  | .RegenerateButton, .Right => s.withGenerator { g with focus := .ActionButton }
  | .ActionButton, .Left => s.withGenerator { g with focus := .RegenerateButton }
  | _, _ => s.continues

/-- The embedded panel has no style selector. -/
def embeddedFocusOrder (g : GeneratorState) : List GeneratorFocus :=
  g.focusOrder.filter fun focus => focus ≠ .StyleSelector

def handleGeneratorKey (a : Surroundings) (key : KeyCode) : Reply :=
  let g := s.generator.generator
  let order := embeddedFocusOrder g
  match key with
  | .Esc => { s with generator := s.generator.collapse }.continues
  | .Down => s.withGenerator g.focusSectionDown
  | .Up => s.withGenerator g.focusSectionUp
  | .Tab => s.withGenerator (g.rotateFocus order (· + 1))
  | .BackTab => s.withGenerator (g.rotateFocus order (· + order.length - 1))
  | .Char 'r' => s.withGenerator (g.regenerate a.draws)
  | .Char 'y' =>
      if g.focus = .SeparatorInput then s.withGenerator (g.setSeparator a.draws "y")
      else s.useGenerated
  | .Char '+' | .Char '=' =>
      if g.focus = .SeparatorInput then s.withGenerator (g.setSeparator a.draws "+")
      else s.withGenerator (g.incrementLength a.draws)
  | .Char '-' =>
      if g.focus = .SeparatorInput then s.withGenerator (g.setSeparator a.draws "-")
      else s.withGenerator (g.decrementLength a.draws)
  | .Enter | .Char ' ' => s.activateGeneratorFocus a
  | key => s.handleGeneratorFocusKey a key

/-! ## The fields -/

def handleExpiryDropdown (key : KeyCode) : Reply :=
  let dropdown := s.form.expiryDropdown
  match key with
  | .Up => s.withForm { s.form with expiryDropdown.selectedIndex := dropdown.selectedIndex - 1 }
  | .Down =>
      s.withForm
        { s.form with
          expiryDropdown.selectedIndex :=
            if dropdown.selectedIndex < ExpiryOption.allOptions.length - 1 then
              dropdown.selectedIndex + 1
            else dropdown.selectedIndex }
  | .Enter | .Right | .Char ' ' =>
      s.withForm
        { s.form with
          fields.expiresAt :=
            (ExpiryOption.allOptions[dropdown.selectedIndex]?).getD s.form.fields.expiresAt
          expiryDropdown.expanded := false
          hasChanges := true }
  | .Esc | .Left => s.withForm { s.form with expiryDropdown.expanded := false }
  | _ => s.continues

def isTagsFocused : Bool :=
  s.form.footerFocus = none ∧ s.form.focusedField = tagsFieldIndex s.form.credentialType

def isCustomDateFocused : Bool :=
  s.form.focusedField = expiryFieldIndex s.form.credentialType ∧ s.form.fields.expiresAt = .Custom

def expandGenerator (a : Surroundings) : Reply :=
  { s with generator := .expandFromConfig a.draws a.password }.continues

def copySecret : Reply :=
  match s.form.currentSecretValue with
  | some value =>
      if value = "" then s.continues
      else { s.continues with result := .CopyRawToClipboard value }
  | none => s.continues

/-- What is left for Enter when it is not on a button. -/
def enterField : Reply :=
  let ct := s.form.credentialType
  if s.form.focusedField = expiryFieldIndex ct then
    s.withForm { s.form with expiryDropdown.expanded := true }
  else if s.form.focusedField = tagsFieldIndex ct ∧ s.form.fields.tagInput ≠ "" then
    let committed := s.form.fields.commitTagInput
    let form := { s.form with fields := committed.2 }
    s.withForm
      (if committed.1 then { form.clearCurrentLimitError with hasChanges := true } else form)
  else s.continues

def handleEnter [Calendar] (a : Surroundings) : Reply :=
  match s.form.footerFocus with
  | some .Save => s.attemptSave a
  | some .Cancel => s.cancelForm
  | none =>
      if s.form.focusedField = notesFieldIndex s.form.credentialType then
        if s.form.canInsertCharIntoCurrentField '\n' then
          s.withForm
            { s.form with
              fields.notes := TextArea.insertNewline s.form.fields.notes
              hasChanges := true }.clearCurrentLimitError
        else s.withForm s.form.setCurrentLimitError
      else
        match s.form.passwordSubFocus with
        | .Show => s.withForm s.form.toggleCurrentVisibility
        | .Copy => s.copySecret
        | .Generate =>
            if s.form.credentialType = .Login ∧ s.form.focusedField = 4 then s.expandGenerator a
            else s.enterField
        | .Paste => s.continues
        | .Input => s.enterField

/-- The tags and the notes, which are told by the type of the record. -/
def typeIntoTail (c : Char) : FormState :=
  let form := s.form
  if form.focusedField = tagsFieldIndex form.credentialType then
    if FormState.endsTag c then
      let committed := form.fields.commitTagInput
      { form with
        fields := committed.2
        hasChanges := form.hasChanges || committed.1 }
    else
      { form with
        fields.tagFocus := none
        fields.tagInput := form.fields.tagInput.push c
        hasChanges := true }
  else if form.focusedField = notesFieldIndex form.credentialType then
    { form with
      fields.notes := TextArea.insertChar c form.fields.notes
      hasChanges := true }
  else form

def handleCharInput (c : Char) : Reply :=
  let form := s.form
  if form.footerFocus.isSome then s.continues
  else if form.passwordSubFocus ≠ .Input then s.continues
  else if ¬ form.canInsertCharIntoCurrentField c then s.withForm form.setCurrentLimitError
  else
    let typed :=
      if FormFields.isNumbered form.credentialType form.focusedField then
        { form with
          fields := form.fields.pushChar form.credentialType form.focusedField c
          hasChanges := true }
      else s.typeIntoTail c
    s.withForm typed.clearCurrentLimitError

def handleBackspace : Reply :=
  let form := s.form
  if form.footerFocus.isSome then s.continues
  else if form.passwordSubFocus ≠ .Input then s.continues
  else
    let numbered := FormFields.isNumbered form.credentialType form.focusedField
    let removed := form.fields.removeFocusedTag
    let onTags := ¬ numbered ∧ form.focusedField = tagsFieldIndex form.credentialType
    if onTags ∧ form.fields.tagInput = "" ∧ removed.1 then s.withFields removed.2
    else
      let f :=
        if numbered then form.fields.popField form.credentialType form.focusedField
        else if onTags then
          if form.fields.tagInput = "" then removed.2
          else { form.fields with tagInput := popChar form.fields.tagInput }
        else if form.focusedField = notesFieldIndex form.credentialType then
          { form.fields with notes := TextArea.deleteChar form.fields.notes }
        else form.fields
      s.withForm { form with fields := f, hasChanges := true }.clearCurrentLimitError

def handleDelete : Reply :=
  let removed := s.form.fields.removeFocusedTag
  if s.isTagsFocused ∧ removed.1 then s.withFields removed.2
  else
    -- a tag focus that is out of range is gone even when no tag is removed
    let form := if s.isTagsFocused then { s.form with fields := removed.2 } else s.form
    if form.textareaCapturesVertical then
      s.withForm
        { form with
          fields.notes := TextArea.deleteNextChar form.fields.notes
          hasChanges := true }
    else s.withForm form

def handleDateChar (c : Char) : Reply :=
  if c.isDigit then s.withFields (s.form.fields.pushDateChar c) else s.continues

/-! ## The arrow keys -/

def moveNotesCursor (move : CursorMove) : Reply :=
  s.withForm { s.form with fields.notes := TextArea.moveCursor move s.form.fields.notes }

def handleDown : Reply :=
  if s.form.textareaCapturesVertical ∧ cursorHasLineBelow s.form.fields.notes then
    s.moveNotesCursor .Down
  else s.withForm s.form.focusNext

def handleUp : Reply :=
  if s.form.textareaCapturesVertical ∧ cursorHasLineAbove s.form.fields.notes then
    s.moveNotesCursor .Up
  else s.withForm s.form.focusPrev

/-- The cursor of the notes is not at the end of its line. -/
def notesCursorBefore : Bool :=
  let cursor := TextArea.cursor s.form.fields.notes
  match (TextArea.lines s.form.fields.notes)[cursor.1]? with
  | some line => cursor.2 < line.utf8ByteSize
  | none => false

def openFocusedDropdown : Bool :=
  s.form.footerFocus = none ∧ s.form.focusedField = expiryFieldIndex s.form.credentialType

/-- The tags take the key first, and drop their focus when they do not. -/
def tagsFirst (f : FormFields → Bool × FormFields) (rest : EditRecordScreen → Reply) : Reply :=
  if s.isTagsFocused then
    let moved := f s.form.fields
    let after := { s with form.fields := moved.2 }
    if moved.1 then after.continues else rest after
  else rest s

def handleRight : Reply :=
  s.tagsFirst FormFields.focusNextTag fun s =>
    if s.openFocusedDropdown then s.withForm { s.form with expiryDropdown.expanded := true }
    else if s.form.textareaCapturesVertical ∧ s.notesCursorBefore then s.moveNotesCursor .Forward
    else
      let moved := s.form.subFocusNext
      if moved.1 then s.withForm moved.2 else s.withForm s.form.focusNext

def handleLeft : Reply :=
  s.tagsFirst FormFields.focusPrevTag fun s =>
    if s.form.textareaCapturesVertical ∧ 0 < (TextArea.cursor s.form.fields.notes).2 then
      s.moveNotesCursor .Back
    else
      let moved := s.form.subFocusPrev
      if moved.1 then s.withForm moved.2 else s.withForm s.form.focusPrev

/-! ## Shortcuts -/

def shortcutSecretFieldIndex : Nat :=
  match s.form.credentialType with
  | .Login | .Api | .Ssh => 4
  | .SecureNote => 2

def focusSecret : EditRecordScreen :=
  { s with form := s.form.focusField s.shortcutSecretFieldIndex }

def activateGenerateShortcut (a : Surroundings) : Reply :=
  if s.form.credentialType = .Login then
    { s with form := s.form.focusField 4 }.expandGenerator a
  else s.continues

def activateVisibilityShortcut : Reply :=
  s.focusSecret.withForm s.focusSecret.form.toggleCurrentVisibility

def handleChar [Calendar] (a : Surroundings) (control : Bool) (c : Char) : Reply :=
  if control ∧ c = 'g' then s.activateGenerateShortcut a
  else if control ∧ c = 'v' then s.activateVisibilityShortcut
  else if control ∧ c = 'c' then s.focusSecret.copySecret
  else if control ∧ c = 's' then s.attemptSave a
  else if c = ' ' ∧ s.form.footerFocus.isSome then s.handleEnter a
  else if s.isCustomDateFocused then s.handleDateChar c
  else s.handleCharInput c

def handleKey [Calendar] (a : Surroundings) (key : KeyEvent) : Reply :=
  if s.form.saving then s.continues
  else if s.form.showWeakPasswordDialog then s.handleWeakPasswordDialog a key.code
  else if s.form.showUnsavedDialog then s.handleUnsavedDialog key.code
  else if s.generator.expanded then s.handleGeneratorKey a key.code
  else if s.form.expiryDropdown.expanded then s.handleExpiryDropdown key.code
  else
    match key.code with
    | .Tab => s.withForm s.form.focusNext
    | .Down => s.handleDown
    | .BackTab => s.withForm s.form.focusPrev
    | .Up => s.handleUp
    | .Right => s.handleRight
    | .Left => s.handleLeft
    | .Esc => s.cancelForm
    | .Enter => s.handleEnter a
    | .Char c => s.handleChar a key.control c
    | .Backspace =>
        if s.isCustomDateFocused then s.withFields s.form.fields.popDateChar
        else s.handleBackspace
    | .Delete => s.handleDelete
    | .Other => s.continues

/-! ## Messages -/

/-- The fields of a record, as they are put into the form of its type. -/
def loadFields (record : DecryptedRecord) (f : FormFields) : FormFields :=
  let load (name url : String) (username password appId secretKey publicKey privateKey
      passphrase notes : Option String) : FormFields :=
    { f with
      name := name
      url := url
      username := username
      password := password
      appId := appId
      secretKey := secretKey
      publicKey := publicKey
      privateKey := privateKey
      passphrase := passphrase
      tags := record.tags }.updateStrength.setNotesText (notes.getD "")
  match record.payload with
  | .Login name username password url notes =>
      load name (url.getD "") (some username) (some password) none none none none none notes
  | .Api name appId secretKey url notes =>
      load name (url.getD "") none none (some appId) (some secretKey) none none none notes
  | .Ssh name publicKey privateKey passphrase notes =>
      load name "" none none none none (some publicKey) privateKey passphrase notes
  | .SecureNote name notes => load name "" none none none none none none none notes

def loadRecord (record : DecryptedRecord) : EditRecordScreen :=
  let form := FormState.newEdit record.id record.credentialType
  { s with
    form := { form with fields := loadFields record form.fields, hasChanges := false }
    recordId := some record.id
    recordVersion := some record.version }

def update [Calendar] (a : Surroundings) (message : EditMessage) : Reply :=
  match message with
  | .KeyEvent key => s.handleKey a key
  | .Tick => s.withForm s.form.tickSaving
  | .CommandCompleted (.TagsLoaded names) => { s with allTags := names }.continues
  | .CommandCompleted (.RecordForEditLoaded record) => (s.loadRecord record).continues
  | .CommandCompleted .RecordUpdated => { s.continues with result := .PopScreen }
  | .CommandCompleted .Error => s.withForm s.form.finishSaving
  | .CommandCompleted .FatalError => s.withForm s.form.finishSaving
  | .CommandCompleted .Cancelled => s.withForm s.form.finishSaving

end EditRecordScreen

end

end OakKeyring
