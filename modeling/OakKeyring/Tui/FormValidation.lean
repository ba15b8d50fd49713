import OakKeyring.Tui.FormState

/-! # The checks of a record form -/

namespace OakKeyring

/-- A date of the calendar, by year, month and day. -/
abbrev Ymd := Int × Nat × Nat

namespace Validation

/-- `str::parse` of an unsigned number. -/
def parseUnsigned (chars : List Char) : Option Nat :=
  let digits :=
    match chars with
    | '+' :: rest => rest
    | chars => chars
  if digits = [] ∨ ¬ digits.all Char.isDigit then none
  else some (digits.foldl (fun n c => 10 * n + (c.toNat - '0'.toNat)) 0)

def isLeapYear (year : Int) : Bool :=
  (year % 4 = 0 ∧ year % 100 ≠ 0) ∨ year % 400 = 0

def maxDay (year : Int) (month : Nat) : Nat :=
  match month with
  | 4 | 6 | 9 | 11 => 30
  | 2 => if isLeapYear year then 29 else 28
  | _ => 31

def before (d d' : Ymd) : Bool :=
  d.1 < d'.1 ∨ (d.1 = d'.1 ∧ (d.2.1 < d'.2.1 ∨ (d.2.1 = d'.2.1 ∧ d.2.2 < d'.2.2)))

/-- The years that `NaiveDate::from_ymd_opt` takes. -/
def MAX_YEAR : Int := 262142

/-- The year has no sign here, as the text is cut at every `-`. -/
def validateDate (today : Ymd) (date : String) : Except FormMessage Unit := do
  if date.utf8ByteSize ≠ 10 then throw .ValidationDateFormat
  match date.toList.splitOn '-' with
  | [year, month, day] =>
      let some year := parseUnsigned year | throw .ValidationDateFormat
      let some month := parseUnsigned month | throw .ValidationInvalidMonth
      let some day := parseUnsigned day | throw .ValidationInvalidDay
      if month = 0 ∨ 12 < month then throw .ValidationInvalidMonth
      if day = 0 ∨ 31 < day then throw .ValidationInvalidDay
      if maxDay year month < day then throw .ValidationInvalidDay
      if (year : Int) ≤ MAX_YEAR ∧ before (year, month, day) today then throw .ValidationPastDate
  | _ => throw .ValidationDateFormat

def blank (value : Option String) : Bool :=
  match value with
  | some value => trim value = ""
  | none => true

def requiredError (fieldIndex : Nat) (value : Option String) : List ValidationError :=
  if blank value then [{ fieldIndex := fieldIndex, message := .ValidationRequired }] else []

def lenError (fieldIndex : Nat) (value : String) (max : Nat) : List ValidationError :=
  if max < value.length then
    [{ fieldIndex := fieldIndex, message := .ValidationTooLong max value.length }]
  else []

def optionalLenError (fieldIndex : Nat) (value : Option String) (max : Nat) :
    List ValidationError :=
  match value with
  | some value => lenError fieldIndex value max
  | none => []

section

variable [TextArea] (f : FormFields) (ct : CredentialType)

def typeErrors : List ValidationError :=
  match ct with
  | .Login =>
      requiredError 3 f.username ++ optionalLenError 3 f.username MAX_LOGIN_USERNAME_CHARS ++
        requiredError 4 f.password ++ optionalLenError 4 f.password MAX_LOGIN_PASSWORD_CHARS
  | .Api =>
      requiredError 3 f.appId ++ optionalLenError 3 f.appId MAX_API_APP_ID_CHARS ++
        requiredError 4 f.secretKey ++ optionalLenError 4 f.secretKey MAX_API_SECRET_CHARS
  | .Ssh =>
      requiredError 3 f.publicKey ++ optionalLenError 3 f.publicKey MAX_SSH_PUBLIC_KEY_CHARS ++
        optionalLenError 4 f.privateKey MAX_SSH_PRIVATE_KEY_CHARS ++
        optionalLenError 5 f.passphrase MAX_SSH_PASSPHRASE_CHARS
  | .SecureNote => []

def tagErrors : List ValidationError :=
  (if MAX_TAGS_PER_RECORD < f.tags.length then
    [{ fieldIndex := tagsFieldIndex ct
       message := .ValidationTooManyTags MAX_TAGS_PER_RECORD f.tags.length }]
  else []) ++
    f.tags.flatMap (fun tag => lenError (tagsFieldIndex ct) tag MAX_TAG_CHARS) ++
    (if f.tagInput ≠ "" then lenError (tagsFieldIndex ct) f.tagInput MAX_TAG_CHARS else [])

def expiryErrors (today : Ymd) : List ValidationError :=
  if f.expiresAt = .Custom then
    match f.customDate with
    | some date =>
        match validateDate today date with
        | .ok () => []
        | .error message => [{ fieldIndex := expiryFieldIndex ct, message := message }]
    | none => [{ fieldIndex := expiryFieldIndex ct, message := .ValidationDateFormat }]
  else []

/-- All errors of a form, those of the upper fields first. -/
def validate (today : Ymd) : List ValidationError :=
  requiredError 1 (some f.name) ++ lenError 1 f.name MAX_RECORD_NAME_CHARS ++ typeErrors f ct ++
    (if ct ≠ .SecureNote then lenError 2 f.url MAX_URL_CHARS else []) ++
    lenError (notesFieldIndex ct) f.notesText
      (if ct = .SecureNote then MAX_SECURE_NOTE_CHARS else MAX_NOTES_CHARS) ++
    tagErrors f ct ++ expiryErrors f ct today

end

end Validation

end OakKeyring
