import OakKeyring.Tui.EditRecord

/-!
# The create screen

The form without a record behind it. Its keys are those of the edit screen, apart from the type of
the credential, which can be chosen, and the command that is sent.
-/

namespace OakKeyring

/-- The results that the create screen answers to. -/
inductive CreateResult
  | TagsLoaded (names : List String)
  | RecordCreated
  | Error
  | FatalError
  | Cancelled
deriving DecidableEq, Repr

inductive CreateMessage
  | KeyEvent (key : OakKeyring.KeyEvent)
  | Tick
  | CommandCompleted (result : CreateResult)
deriving DecidableEq, Repr

structure CreateRecordScreen [TextArea] where
  form : FormState
  generator : EmbeddedGeneratorState
  allTags : List String

/-- What a key makes of the screen, and the `Command::CreateRecord` that is sent. -/
structure CreateReply [TextArea] where
  screen : CreateRecordScreen
  result : ScreenResult
  sent : Option CreateRecordParams

section

variable [TextArea]

namespace FormState

def newCreate : FormState :=
  new .Create .Login

def isCredentialTypeEditable (s : FormState) : Bool :=
  s.mode = .Create

/-- The fields that all types have are kept. -/
def switchCredentialType (ct : CredentialType) (s : FormState) : FormState :=
  if s.mode = .Create then
    let fresh := FormFields.new ct
    { s with
      credentialType := ct
      fields :=
        { fresh with
          name := s.fields.name
          url := s.fields.url
          expiresAt := s.fields.expiresAt
          tags := s.fields.tags }.setNotesText s.fields.notesText
      focusedField := 0
      footerFocus := none
      hasChanges := true }
  else s

end FormState

namespace CreateRecordScreen

def new (draws : Draws) : CreateRecordScreen where
  form := .newCreate
  generator := .new draws
  allTags := []

variable (s : CreateRecordScreen)

def continues : CreateReply where
  screen := s
  result := .Continue
  sent := none

def withForm (form : FormState) : CreateReply :=
  { s with form := form }.continues

/-- The same form in the edit screen, which has the same code for most keys. -/
def asEdit : EditRecordScreen where
  form := s.form
  generator := s.generator
  allTags := s.allTags
  recordId := none
  recordVersion := none

/-- A handler that both screens have; it sends no command. -/
def via (handler : EditRecordScreen → Reply) : CreateReply :=
  let reply := handler s.asEdit
  { screen :=
      { form := reply.screen.form
        generator := reply.screen.generator
        allTags := reply.screen.allTags }
    result := reply.result
    sent := none }

def cancelForm : CreateReply :=
  s.via EditRecordScreen.cancelForm

def handleUnsavedDialog (key : KeyCode) : CreateReply :=
  s.via fun e => e.handleUnsavedDialog key

def handleGeneratorKey (a : Surroundings) (key : KeyCode) : CreateReply :=
  s.via fun e => e.handleGeneratorKey a key

def handleExpiryDropdown (key : KeyCode) : CreateReply :=
  s.via fun e => e.handleExpiryDropdown key

def handleCharInput (c : Char) : CreateReply :=
  s.via fun e => e.handleCharInput c

def handleBackspace : CreateReply :=
  s.via EditRecordScreen.handleBackspace

def handleDelete : CreateReply :=
  s.via EditRecordScreen.handleDelete

def handleDateChar (c : Char) : CreateReply :=
  s.via fun e => e.handleDateChar c

def handleDateBackspace : CreateReply :=
  s.via fun e => e.withFields e.form.fields.popDateChar

def handleDown : CreateReply :=
  s.via EditRecordScreen.handleDown

def handleUp : CreateReply :=
  s.via EditRecordScreen.handleUp

def handleLeft : CreateReply :=
  s.via EditRecordScreen.handleLeft

def activateGenerateShortcut (a : Surroundings) : CreateReply :=
  s.via fun e => e.activateGenerateShortcut a

def activateVisibilityShortcut : CreateReply :=
  s.via EditRecordScreen.activateVisibilityShortcut

def activateCopyShortcut : CreateReply :=
  s.via fun e => e.focusSecret.copySecret

def isTagsFocused : Bool :=
  s.asEdit.isTagsFocused

def isCustomDateFocused : Bool :=
  s.asEdit.isCustomDateFocused

/-! ## Saving -/

def createCommand [Calendar] (now : DateTime) : CreateRecordParams where
  credentialType := s.form.credentialType
  payload := s.form.buildPayloadSnapshot
  isFavorite := false
  expiresAt := s.form.expiryDatetime now
  tags := s.form.fields.tags

def submitCreateRecord [Calendar] (a : Surroundings) : CreateReply :=
  if a.queueFull then
    s.withForm
      { s.form with
        validationErrors := [{ fieldIndex := 1, message := .CommandQueueFull }]
        focusedField := 1 }
  else
    { screen := { s with form := s.form.startSaving }
      result := .Continue
      sent := some (s.createCommand a.now) }

def attemptSave [Calendar] (a : Surroundings) : CreateReply :=
  match Validation.validate s.form.fields s.form.credentialType a.today with
  | error :: errors =>
      s.withForm
        { s.form with
          validationErrors := error :: errors
          focusedField := error.fieldIndex }
  | [] =>
      if s.form.credentialType = .Login ∧ s.form.isPasswordWeak then
        s.withForm { s.form with showWeakPasswordDialog := true }
      else s.submitCreateRecord a

def handleWeakPasswordDialog [Calendar] (a : Surroundings) (key : KeyCode) : CreateReply :=
  match key with
  | .Esc => s.withForm { s.form with showWeakPasswordDialog := false, weakDialogFocus := 0 }
  | .Left | .Tab => s.withForm { s.form with weakDialogFocus := 0 }
  | .Right => s.withForm { s.form with weakDialogFocus := 1 }
  | .Enter =>
      let closed :=
        { s with form := { s.form with showWeakPasswordDialog := false, weakDialogFocus := 0 } }
      if s.form.weakDialogFocus = 0 then closed.continues else closed.submitCreateRecord a
  | _ => s.continues

/-! ## The type of the credential -/

def handleCredentialDropdown (key : KeyCode) : CreateReply :=
  let dropdown := s.form.credentialDropdown
  match key with
  | .Up => s.withForm { s.form with credentialDropdown.selectedIndex := dropdown.selectedIndex - 1 }
  | .Down =>
      s.withForm
        { s.form with
          credentialDropdown.selectedIndex :=
            if dropdown.selectedIndex < 3 then dropdown.selectedIndex + 1
            else dropdown.selectedIndex }
  | .Enter | .Right | .Char ' ' =>
      let ct : CredentialType :=
        match dropdown.selectedIndex with
        | 0 => .Login
        | 1 => .Api
        | 2 => .Ssh
        | _ => .SecureNote
      let switched := s.form.switchCredentialType ct
      s.withForm { switched with credentialDropdown.expanded := false }
  | .Esc | .Left => s.withForm { s.form with credentialDropdown.expanded := false }
  | _ => s.continues

def onCredentialField : Bool :=
  s.form.focusedField = 0 ∧ s.form.isCredentialTypeEditable

def isDropdownFocused : Bool :=
  s.form.footerFocus = none ∧
    (s.onCredentialField ∨ s.form.focusedField = expiryFieldIndex s.form.credentialType)

/-- The form with the focused dropdown open, if there is one. -/
def openFocusedDropdown : Option FormState :=
  if s.form.footerFocus.isSome then none
  else if s.onCredentialField then some { s.form with credentialDropdown.expanded := true }
  else if s.form.focusedField = expiryFieldIndex s.form.credentialType then
    some { s.form with expiryDropdown.expanded := true }
  else none

/-- What is left for Enter when it is not on a button. -/
def enterField : CreateReply :=
  if s.onCredentialField then s.withForm { s.form with credentialDropdown.expanded := true }
  else s.via EditRecordScreen.enterField

def handleEnter [Calendar] (a : Surroundings) : CreateReply :=
  match s.form.footerFocus with
  | some .Save => s.attemptSave a
  | some .Cancel => s.cancelForm
  | none =>
      if s.form.focusedField = notesFieldIndex s.form.credentialType then
        if s.form.canInsertCharIntoCurrentField '\n' then
          s.withForm
            { s.form with
              fields.notes := TextArea.insertNewline s.form.fields.notes
              hasChanges := true }.clearCurrentLimitError
        else s.withForm s.form.setCurrentLimitError
      else
        match s.form.passwordSubFocus with
        | .Show => s.withForm s.form.toggleCurrentVisibility
        | .Copy => s.via EditRecordScreen.copySecret
        | .Generate =>
            if s.form.credentialType = .Login ∧ s.form.focusedField = 4 then
              s.via fun e => e.expandGenerator a
            else s.enterField
        | .Paste => s.continues
        | .Input => s.enterField

/-! ## Keys -/

def handleRight : CreateReply :=
  -- the tags take the key first, and drop their focus when they do not
  let moved := s.form.fields.focusNextTag
  let after : CreateRecordScreen :=
    if s.isTagsFocused then { s with form.fields := moved.2 } else s
  if s.isTagsFocused ∧ moved.1 then after.continues
  else
    match after.openFocusedDropdown with
    | some form => after.withForm form
    | none =>
        if after.form.textareaCapturesVertical ∧ after.asEdit.notesCursorBefore then
          after.via fun e => e.moveNotesCursor .Forward
        else
          let next := after.form.subFocusNext
          if next.1 then after.withForm next.2 else after.withForm after.form.focusNext

def handleChar [Calendar] (a : Surroundings) (control : Bool) (c : Char) : CreateReply :=
  if control ∧ c = 'g' then s.activateGenerateShortcut a
  else if control ∧ c = 'v' then s.activateVisibilityShortcut
  else if control ∧ c = 'c' then s.activateCopyShortcut
  else if control ∧ c = 's' then s.attemptSave a
  else if c = ' ' ∧ (s.isDropdownFocused ∨ s.form.footerFocus.isSome) then s.handleEnter a
  else if s.isCustomDateFocused then s.handleDateChar c
  else s.handleCharInput c

def handleKey [Calendar] (a : Surroundings) (key : KeyEvent) : CreateReply :=
  if s.form.saving then s.continues
  else if s.form.showWeakPasswordDialog then s.handleWeakPasswordDialog a key.code
  else if s.form.showUnsavedDialog then s.handleUnsavedDialog key.code
  else if s.generator.expanded then s.handleGeneratorKey a key.code
  else if s.form.credentialDropdown.expanded then s.handleCredentialDropdown key.code
  else if s.form.expiryDropdown.expanded then s.handleExpiryDropdown key.code
  else
    match key.code with
    | .Tab => s.withForm s.form.focusNext
    | .Down => s.handleDown
    | .BackTab => s.withForm s.form.focusPrev
    | .Up => s.handleUp
    | .Right => s.handleRight
    | .Left => s.handleLeft
    | .Esc => s.cancelForm
    | .Enter => s.handleEnter a
    | .Char c => s.handleChar a key.control c
    | .Backspace => if s.isCustomDateFocused then s.handleDateBackspace else s.handleBackspace
    | .Delete => s.handleDelete
    | .Other => s.continues

/-! ## Messages -/

def update [Calendar] (a : Surroundings) (message : CreateMessage) : CreateReply :=
  match message with
  | .KeyEvent key => s.handleKey a key
  | .Tick => s.withForm s.form.tickSaving
  | .CommandCompleted (.TagsLoaded names) => { s with allTags := names }.continues
  | .CommandCompleted .RecordCreated => { s.continues with result := .PopScreen }
  | .CommandCompleted .Error => s.withForm s.form.finishSaving
  | .CommandCompleted .FatalError => s.withForm s.form.finishSaving
  | .CommandCompleted .Cancelled => s.withForm s.form.finishSaving

/-- The keys, each with what it finds outside the screen. -/
def press [Calendar] (s : CreateRecordScreen) (keys : List (Surroundings × KeyEvent)) :
    CreateRecordScreen :=
  keys.foldl (fun s e => (s.handleKey e.1 e.2).screen) s

end CreateRecordScreen

end

end OakKeyring
