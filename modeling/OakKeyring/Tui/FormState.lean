import OakKeyring.Crypto.Strength
import OakKeyring.Types.Listing
import Mathlib.Algebra.Group.Nat.Defs

/-!
# The state of a record form

The fields of all credential types, the text area of the notes, and the focus that moves over them.
-/

namespace OakKeyring

inductive CursorMove
  | Forward
  | Back
  | Up
  | Down
deriving DecidableEq, Repr

/-- The text area widget: its lines, its cursor and the edits it offers. -/
class TextArea where
  Area : Type
  create : Area
  lines : Area → List String
  cursor : Area → Nat × Nat
  moveCursor : CursorMove → Area → Area
  selectAll : Area → Area
  insertStr : String → Area → Area
  insertChar : Char → Area → Area
  insertNewline : Area → Area
  deleteChar : Area → Area
  deleteNextChar : Area → Area

/-- `NaiveDate::parse_from_str` with `%Y-%m-%d`, at midnight. -/
class Calendar where
  parseDate : String → Option DateTime

/-- A line without the carriage return that it may end in. -/
def TextArea.stripCr (line : List Char) : List Char :=
  if line.getLast? = some '\r' then line.dropLast else line

/-- The lines of a text that is inserted: a line feed ends a line, alone or after a carriage
return. -/
def TextArea.splitLines (text : String) : List String :=
  (text.toList.splitOn '\n').map fun line => String.ofList (stripCr line)

def TextArea.joinLines (lines : List String) : String :=
  String.ofList (['\n'].intercalate (lines.map String.toList))

section Notes

variable [TextArea]

def textareaText (area : TextArea.Area) : String :=
  TextArea.joinLines (TextArea.lines area)

def setTextareaText (text : String) (area : TextArea.Area) : TextArea.Area :=
  let cleared := TextArea.deleteChar (TextArea.selectAll area)
  if text = "" then cleared else TextArea.insertStr text cleared

def cursorHasLineAbove (area : TextArea.Area) : Bool :=
  0 < (TextArea.cursor area).1

def cursorHasLineBelow (area : TextArea.Area) : Bool :=
  (TextArea.cursor area).1 + 1 < (TextArea.lines area).length

/-- A text area returns the lines that it was given. -/
class LawfulTextArea : Prop where
  lines_given : ∀ text : String,
    TextArea.lines (setTextareaText text TextArea.create) = TextArea.splitLines text

end Notes

/-! ## Fields -/

inductive FormMode
  | Create
  | Edit (recordId : Uuid)
deriving DecidableEq, Repr

/-- The part of a secret field that has the focus. -/
inductive PasswordFieldFocus
  | Input
  | Show
  | Copy
  | Generate
  | Paste
deriving DecidableEq, Repr

inductive FormFooterButton
  | Save
  | Cancel
deriving DecidableEq, Repr

inductive ExpiryOption
  | Never
  | Days30
  | Days90
  | Year1
  | Custom
deriving DecidableEq, Repr

namespace ExpiryOption

def allOptions : List ExpiryOption :=
  [.Never, .Days30, .Days90, .Year1, .Custom]

def days (n : Nat) (now : DateTime) : DateTime :=
  { now with seconds := now.seconds + 86400 * n }

def toDatetime (now : DateTime) : ExpiryOption → Option DateTime
  | Never => none
  | Days30 => some (days 30 now)
  | Days90 => some (days 90 now)
  | Year1 => some (days 365 now)
  | Custom => none

end ExpiryOption

structure DropdownState where
  expanded : Bool
  selectedIndex : Nat
deriving DecidableEq, Repr

/-- The texts of a form's errors, which are looked up in the language of the user. -/
inductive FormMessage
  | ValidationRequired
  | ValidationTooLong (max actual : Nat)
  | ValidationTooManyTags (max actual : Nat)
  | ValidationDateFormat
  | ValidationInvalidMonth
  | ValidationInvalidDay
  | ValidationPastDate
  /-- "Action failed: command queue full" -/
  | CommandQueueFull
deriving DecidableEq, Repr

structure ValidationError where
  fieldIndex : Nat
  message : FormMessage
deriving DecidableEq, Repr

/-- The fields of every credential type. -/
structure FormFields [TextArea] where
  name : String
  url : String
  username : Option String
  password : Option String
  passwordVisible : Bool
  strength : Option PasswordStrength
  appId : Option String
  secretKey : Option String
  secretVisible : Bool
  publicKey : Option String
  privateKey : Option String
  privateVisible : Bool
  passphrase : Option String
  passphraseVisible : Bool
  expiresAt : ExpiryOption
  customDate : Option String
  tags : List String
  tagInput : String
  tagFocus : Option Nat
  notes : TextArea.Area

def notesFieldIndex : CredentialType → Nat
  | .Login | .Api => 7
  | .Ssh => 8
  | .SecureNote => 2

def expiryFieldIndex : CredentialType → Nat
  | .Login | .Api => 5
  | .Ssh => 6
  | .SecureNote => 3

def tagsFieldIndex : CredentialType → Nat
  | .Login | .Api => 6
  | .Ssh => 7
  | .SecureNote => 4

namespace FormFields

variable [TextArea]

def new (ct : CredentialType) : FormFields where
  name := ""
  url := ""
  username := if ct = .Login then some "" else none
  password := if ct = .Login then some "" else none
  passwordVisible := false
  strength := none
  appId := if ct = .Api then some "" else none
  secretKey := if ct = .Api then some "" else none
  secretVisible := false
  publicKey := if ct = .Ssh then some "" else none
  privateKey := if ct = .Ssh then some "" else none
  privateVisible := false
  passphrase := if ct = .Ssh then some "" else none
  passphraseVisible := false
  expiresAt := .Never
  customDate := none
  tags := []
  tagInput := ""
  tagFocus := none
  notes := TextArea.create

def updateStrength (f : FormFields) : FormFields :=
  match f.password with
  | some password =>
      { f with strength := if password = "" then none else some (evaluateStrength password) }
  | none => f

/-- The tag that was typed is added, unless it is empty, too long, one too many or there. -/
def commitTagInput (f : FormFields) : Bool × FormFields :=
  let tag := trim f.tagInput
  if tag = "" ∨ MAX_TAGS_PER_RECORD ≤ f.tags.length ∨ MAX_TAG_CHARS < tag.length ∨ tag ∈ f.tags then
    (false, { f with tagInput := "" })
  else
    (true, { f with tagInput := "", tags := f.tags ++ [tag], tagFocus := none })

def focusPrevTag (f : FormFields) : Bool × FormFields :=
  if f.tags = [] ∨ f.tagInput ≠ "" then (false, { f with tagFocus := none })
  else
    let next :=
      match f.tagFocus with
      | some index => index - 1
      | none => f.tags.length - 1
    (true, { f with tagFocus := some next })

def focusNextTag (f : FormFields) : Bool × FormFields :=
  if f.tags = [] ∨ f.tagInput ≠ "" then (false, { f with tagFocus := none })
  else
    let next :=
      match f.tagFocus with
      | some index => min (index + 1) (f.tags.length - 1)
      | none => 0
    (true, { f with tagFocus := some next })

def removeFocusedTag (f : FormFields) : Bool × FormFields :=
  match f.tagFocus with
  | none => (false, f)
  | some index =>
      if f.tags.length ≤ index then (false, { f with tagFocus := none })
      else
        let tags := f.tags.eraseIdx index
        (true,
          { f with
            tags := tags
            tagFocus := if tags = [] then none else some (min index (tags.length - 1)) })

def notesText (f : FormFields) : String :=
  textareaText f.notes

def setNotesText (text : String) (f : FormFields) : FormFields :=
  { f with notes := setTextareaText text f.notes }

end FormFields

structure FormState [TextArea] where
  mode : FormMode
  credentialType : CredentialType
  fields : FormFields
  focusedField : Nat
  hasChanges : Bool
  validationErrors : List ValidationError
  expiryDropdown : DropdownState
  credentialDropdown : DropdownState
  showWeakPasswordDialog : Bool
  weakDialogFocus : Nat
  showUnsavedDialog : Bool
  unsavedDialogFocus : Nat
  passwordSubFocus : PasswordFieldFocus
  footerFocus : Option FormFooterButton
  saving : Bool
  savingTick : Nat

namespace FormState

variable [TextArea]

def new (mode : FormMode) (ct : CredentialType) : FormState where
  mode := mode
  credentialType := ct
  fields := .new ct
  focusedField :=
    match mode with
    | .Create => 0
    | .Edit _ => 1
  hasChanges := false
  validationErrors := []
  expiryDropdown := { expanded := false, selectedIndex := 0 }
  credentialDropdown := { expanded := false, selectedIndex := 0 }
  showWeakPasswordDialog := false
  weakDialogFocus := 0
  showUnsavedDialog := false
  unsavedDialogFocus := 0
  passwordSubFocus := .Input
  footerFocus := none
  saving := false
  savingTick := 0

def newEdit (recordId : Uuid) (ct : CredentialType) : FormState :=
  new (.Edit recordId) ct

variable (s : FormState)

def firstFocusableField : Nat :=
  match s.mode with
  | .Create => 0
  | .Edit _ => 1

def startSaving : FormState :=
  { s with
    saving := true
    savingTick := 0
    footerFocus := none
    credentialDropdown.expanded := false
    expiryDropdown.expanded := false
    showWeakPasswordDialog := false
    showUnsavedDialog := false }

def finishSaving : FormState :=
  { s with
    saving := false
    savingTick := 0 }

def tickSaving : FormState :=
  if s.saving then { s with savingTick := (s.savingTick + 1) % 2 ^ 64 } else s

/-- The inline buttons of the focused field. -/
def inlineButtons : Option (List PasswordFieldFocus) :=
  if s.footerFocus.isSome then none
  else
    match s.credentialType, s.focusedField with
    | .Login, 4 => some [.Generate, .Show, .Copy]
    | .Api, 4 => some [.Show, .Copy]
    | .Ssh, 3 => some [.Paste, .Copy]
    | .Ssh, 4 => some [.Show, .Paste, .Copy]
    | .Ssh, 5 => some [.Show, .Paste, .Copy]
    | _, _ => none

/-- Whether the focus moved on to an inline button, and the form after it. -/
def subFocusNext : Bool × FormState :=
  match s.inlineButtons with
  | none => (false, s)
  | some buttons =>
      let next :=
        if s.passwordSubFocus = .Input then buttons[0]?
        else
          (buttons.findIdx? fun button => button = s.passwordSubFocus).bind fun index =>
            buttons[index + 1]?
      match next with
      | some button => (true, { s with passwordSubFocus := button })
      | none => (false, s)

def subFocusPrev : Bool × FormState :=
  match s.inlineButtons with
  | none => (false, s)
  | some buttons =>
      match buttons.findIdx? fun button => button = s.passwordSubFocus with
      | none => (false, s)
      | some 0 => (true, { s with passwordSubFocus := .Input })
      | some (index + 1) =>
          (true, { s with passwordSubFocus := (buttons[index]?).getD .Input })

def toggleCurrentVisibility : FormState :=
  match s.credentialType, s.focusedField with
  | .Login, 4 => { s with fields.passwordVisible := !s.fields.passwordVisible }
  | .Api, 4 => { s with fields.secretVisible := !s.fields.secretVisible }
  | .Ssh, 4 => { s with fields.privateVisible := !s.fields.privateVisible }
  | .Ssh, 5 => { s with fields.passphraseVisible := !s.fields.passphraseVisible }
  | _, _ => s

def currentSecretValue : Option String :=
  match s.credentialType, s.focusedField with
  | .Login, 4 => s.fields.password
  | .Api, 4 => s.fields.secretKey
  | .Ssh, 3 => s.fields.publicKey
  | .Ssh, 4 => s.fields.privateKey
  | .Ssh, 5 => s.fields.passphrase
  | _, _ => none

def fieldCount : Nat :=
  match s.credentialType with
  | .Login | .Api => 8
  | .Ssh => 9
  | .SecureNote => 5

/-- The focus leaves the inline buttons and the tags. -/
def clearSubFocus : FormState :=
  { s with
    passwordSubFocus := .Input
    fields.tagFocus := none }

def focusNext : FormState :=
  match s.footerFocus with
  | some _ => { s with footerFocus := some .Cancel }.clearSubFocus
  | none =>
      if s.focusedField < s.fieldCount - 1 then
        { s with focusedField := s.focusedField + 1 }.clearSubFocus
      else { s with footerFocus := some .Save }.clearSubFocus

def focusPrev : FormState :=
  match s.footerFocus with
  | some .Cancel => { s with footerFocus := some .Save }.clearSubFocus
  | some .Save =>
      { s with
        footerFocus := none
        focusedField := s.fieldCount - 1 }.clearSubFocus
  | none =>
      if s.firstFocusableField < s.focusedField then
        { s with focusedField := s.focusedField - 1 }.clearSubFocus
      else s

def focusField (index : Nat) : FormState :=
  let focused := min (max index s.firstFocusableField) (s.fieldCount - 1)
  { s with
    focusedField := focused
    footerFocus := none
    passwordSubFocus := .Input
    fields.tagFocus :=
      if focused ≠ tagsFieldIndex s.credentialType then none else s.fields.tagFocus }

def currentFieldCharLimit : Option (String × Nat) :=
  if s.footerFocus.isSome then none
  else
    match s.focusedField, s.credentialType with
    | 1, _ => some ("name", MAX_RECORD_NAME_CHARS)
    | 2, .SecureNote => some ("notes", MAX_SECURE_NOTE_CHARS)
    | 2, _ => some ("url", MAX_URL_CHARS)
    | 3, .Login => some ("username", MAX_LOGIN_USERNAME_CHARS)
    | 3, .Api => some ("app_id", MAX_API_APP_ID_CHARS)
    | 3, .Ssh => some ("public_key", MAX_SSH_PUBLIC_KEY_CHARS)
    | 3, .SecureNote => none
    | 4, .Login => some ("password", MAX_LOGIN_PASSWORD_CHARS)
    | 4, .Api => some ("secret_key", MAX_API_SECRET_CHARS)
    | 4, .Ssh => some ("private_key", MAX_SSH_PRIVATE_KEY_CHARS)
    | 4, .SecureNote => some ("tag", MAX_TAG_CHARS)
    | 5, .Ssh => some ("passphrase", MAX_SSH_PASSPHRASE_CHARS)
    | focused, ct =>
        if focused = tagsFieldIndex ct then some ("tag", MAX_TAG_CHARS)
        else if focused = notesFieldIndex ct then some ("notes", MAX_NOTES_CHARS)
        else none

def charCount (value : Option String) : Nat :=
  (value.map String.length).getD 0

def currentFieldCharCount : Nat :=
  match s.focusedField, s.credentialType with
  | 1, _ => s.fields.name.length
  | 2, .SecureNote => s.fields.notesText.length
  | 2, _ => s.fields.url.length
  | 3, .Login => charCount s.fields.username
  | 3, .Api => charCount s.fields.appId
  | 3, .Ssh => charCount s.fields.publicKey
  | 3, .SecureNote => 0
  | 4, .Login => charCount s.fields.password
  | 4, .Api => charCount s.fields.secretKey
  | 4, .Ssh => charCount s.fields.privateKey
  | 4, .SecureNote => s.fields.tagInput.length
  | 5, .Ssh => charCount s.fields.passphrase
  | focused, ct =>
      if focused = tagsFieldIndex ct then s.fields.tagInput.length
      else if focused = notesFieldIndex ct then s.fields.notesText.length
      else 0

/-- The characters that end a tag. -/
def endsTag (c : Char) : Bool :=
  c = ',' ∨ c = '，'

/-- A further tag would be one too many. -/
def tagsFull : Bool :=
  s.focusedField = tagsFieldIndex s.credentialType ∧ s.fields.tagInput = "" ∧
    MAX_TAGS_PER_RECORD ≤ s.fields.tags.length

def canInsertCharIntoCurrentField (c : Char) : Bool :=
  if s.focusedField = tagsFieldIndex s.credentialType ∧ endsTag c then true
  else if s.tagsFull ∧ ¬ endsTag c then false
  else
    match s.currentFieldCharLimit with
    | none => true
    | some (_, max) => s.currentFieldCharCount < max

def clearCurrentLimitError : FormState :=
  { s with
    validationErrors := s.validationErrors.filter fun error => error.fieldIndex ≠ s.focusedField }

def setCurrentLimitError : FormState :=
  let message :=
    if s.tagsFull then
      some (FormMessage.ValidationTooManyTags MAX_TAGS_PER_RECORD s.fields.tags.length)
    else
      s.currentFieldCharLimit.map fun limit =>
        .ValidationTooLong limit.2 s.currentFieldCharCount
  let cleared := s.clearCurrentLimitError
  match message with
  | some message =>
      { cleared with
        validationErrors := cleared.validationErrors ++
          [{ fieldIndex := s.focusedField, message := message }] }
  | none => cleared

def isPasswordWeak : Bool :=
  match s.fields.strength with
  | some strength => strength.level = .VeryWeak ∨ strength.level = .Weak
  | none => false

/-- The expiry that the form stands for at a time. -/
def expiryDatetime [Calendar] (now : DateTime) : Option DateTime :=
  if s.fields.expiresAt = .Custom then s.fields.customDate.bind Calendar.parseDate
  else s.fields.expiresAt.toDatetime now

/-- A text that may be left out, when it is empty. -/
def optionalNotes (text : String) : Option String :=
  if text = "" then none else some text

def buildPayloadSnapshot : EncryptedPayload :=
  let f := s.fields
  let notes := optionalNotes f.notesText
  match s.credentialType with
  | .Login => .Login f.name (f.username.getD "") (f.password.getD "") (some f.url) notes
  | .Api => .Api f.name (f.appId.getD "") (f.secretKey.getD "") (some f.url) notes
  | .Ssh => .Ssh f.name (f.publicKey.getD "") f.privateKey f.passphrase notes
  | .SecureNote => .SecureNote f.name notes

/-- Whether the up and down keys move the cursor of the notes. -/
def textareaCapturesVertical : Bool :=
  if s.footerFocus.isSome then false
  else if s.expiryDropdown.expanded ∨ s.credentialDropdown.expanded then false
  else s.focusedField = notesFieldIndex s.credentialType

end FormState

end OakKeyring
