import OakKeyring.Lib.Separated
import OakKeyring.Types.Record

/-! # Credential payloads and their limits -/

namespace OakKeyring

inductive DataError
  | InvalidCredentialType (value : String)
  | InvalidAuditOperation (value : String)
  | InvalidUuid (value : String)
  | InvalidTimestamp (value : Int)
  | FieldTooLong (field : String) (max actual : Nat)
  | EmptyField (field : String)
deriving DecidableEq, Repr

def DataError.toText : DataError → String
  | InvalidCredentialType value => s!"Invalid credential type: {value}"
  | InvalidAuditOperation value => s!"Invalid audit operation: {value}"
  | InvalidUuid value => s!"Invalid UUID: {value}"
  | InvalidTimestamp value => s!"Invalid timestamp: {value}"
  | FieldTooLong field max actual => s!"Field too long: {field}, max {max}, actual {actual}"
  | EmptyField field => s!"Empty field: {field}"

/-- The fields of a payload that can be asked for one at a time. -/
inductive FieldSelector
  | Password
  | Username
  | Url
  | Notes
  | Passphrase
deriving DecidableEq, Repr

/-- The name that `Debug` prints. -/
def FieldSelector.debug : FieldSelector → String
  | Password => "Password"
  | Username => "Username"
  | Url => "Url"
  | Notes => "Notes"
  | Passphrase => "Passphrase"

def CredentialType.debug : CredentialType → String
  | Login => "Login"
  | Api => "Api"
  | Ssh => "Ssh"
  | SecureNote => "SecureNote"

/-- What a record keeps under encryption. -/
inductive EncryptedPayload
  | Login (name username password : String) (url notes : Option String)
  | Api (name appId secretKey : String) (url notes : Option String)
  | Ssh (name publicKey : String) (privateKey passphrase notes : Option String)
  | SecureNote (name : String) (notes : Option String)
deriving DecidableEq, Repr

namespace EncryptedPayload

def name : EncryptedPayload → String
  | Login name .. => name
  | Api name .. => name
  | Ssh name .. => name
  | SecureNote name _ => name

/-- The credential type a payload is made for. -/
def credentialType : EncryptedPayload → CredentialType
  | Login .. => .Login
  | Api .. => .Api
  | Ssh .. => .Ssh
  | SecureNote .. => .SecureNote

end EncryptedPayload

def MAX_RECORD_NAME_CHARS : Nat := 120
def MAX_LOGIN_USERNAME_CHARS : Nat := 320
def MAX_LOGIN_PASSWORD_CHARS : Nat := 1024
def MAX_URL_CHARS : Nat := 2048
def MAX_API_APP_ID_CHARS : Nat := 512
def MAX_API_SECRET_CHARS : Nat := 8192
def MAX_SSH_PUBLIC_KEY_CHARS : Nat := 16384
def MAX_SSH_PRIVATE_KEY_CHARS : Nat := 65536
def MAX_SSH_PASSPHRASE_CHARS : Nat := 1024
def MAX_NOTES_CHARS : Nat := 16384
def MAX_SECURE_NOTE_CHARS : Nat := 65536
def MAX_TAG_CHARS : Nat := 50
def MAX_TAGS_PER_RECORD : Nat := 10

def validateLen (field value : String) (max : Nat) : Except DataError Unit :=
  if max < value.length then .error (.FieldTooLong field max value.length) else .ok ()

def validateOptionalLen (field : String) (value : Option String) (max : Nat) :
    Except DataError Unit :=
  match value with
  | some value => validateLen field value max
  | none => .ok ()

def validatePayload : EncryptedPayload → Except DataError Unit
  | .Login name username password url notes => do
      validateLen "name" name MAX_RECORD_NAME_CHARS
      validateLen "username" username MAX_LOGIN_USERNAME_CHARS
      validateLen "password" password MAX_LOGIN_PASSWORD_CHARS
      validateOptionalLen "url" url MAX_URL_CHARS
      validateOptionalLen "notes" notes MAX_NOTES_CHARS
  | .Api name appId secretKey url notes => do
      validateLen "name" name MAX_RECORD_NAME_CHARS
      validateLen "app_id" appId MAX_API_APP_ID_CHARS
      validateLen "secret_key" secretKey MAX_API_SECRET_CHARS
      validateOptionalLen "url" url MAX_URL_CHARS
      validateOptionalLen "notes" notes MAX_NOTES_CHARS
  | .Ssh name publicKey privateKey passphrase notes => do
      validateLen "name" name MAX_RECORD_NAME_CHARS
      validateLen "public_key" publicKey MAX_SSH_PUBLIC_KEY_CHARS
      validateOptionalLen "private_key" privateKey MAX_SSH_PRIVATE_KEY_CHARS
      validateOptionalLen "passphrase" passphrase MAX_SSH_PASSPHRASE_CHARS
      validateOptionalLen "notes" notes MAX_NOTES_CHARS
  | .SecureNote name notes => do
      validateLen "name" name MAX_RECORD_NAME_CHARS
      validateOptionalLen "notes" notes MAX_SECURE_NOTE_CHARS

/-- `char::is_whitespace`: the Unicode property `White_Space`. -/
def isWhitespace (c : Char) : Bool :=
  let n := c.toNat
  (9 ≤ n && n ≤ 13) || n == 0x20 || n == 0x85 || n == 0xA0 || n == 0x1680 ||
    (0x2000 ≤ n && n ≤ 0x200A) || n == 0x2028 || n == 0x2029 || n == 0x202F || n == 0x205F ||
    n == 0x3000

/-- `str::trim`. -/
def trim (s : String) : String :=
  let front := s.toList.dropWhile isWhitespace
  String.ofList (front.reverse.dropWhile isWhitespace).reverse

theorem toList_trim (text : String) :
    (trim text).toList = Separated.strip isWhitespace text.toList :=
  String.toList_ofList

theorem trim_trim (text : String) : trim (trim text) = trim text := by
  apply String.toList_injective
  rw [toList_trim, toList_trim, Separated.strip_strip]

theorem length_trim_le (text : String) : (trim text).length ≤ text.length := by
  rw [← String.length_toList, ← String.length_toList, toList_trim]
  exact Separated.length_strip_le _

def validateTag (tag : String) : Except DataError Unit :=
  if trim tag = "" then .error (.EmptyField "tag")
  else validateLen "tag" (trim tag) MAX_TAG_CHARS

def validateTags (tags : List String) : Except DataError Unit :=
  if MAX_TAGS_PER_RECORD < tags.length then
    .error (.FieldTooLong "tags" MAX_TAGS_PER_RECORD tags.length)
  else tags.forM validateTag

theorem validateTags_iff {tags : List String} :
    validateTags tags = .ok () ↔
      tags.length ≤ MAX_TAGS_PER_RECORD ∧ ∀ tag ∈ tags, validateTag tag = .ok () := by
  have hall : ∀ names : List String,
      names.forM validateTag = .ok () ↔ ∀ tag ∈ names, validateTag tag = .ok () := by
    intro names
    induction names with
    | nil => exact ⟨fun _ _ hmem => (nomatch hmem), fun _ => rfl⟩
    | cons name names ih =>
        have hcons : (name :: names).forM validateTag =
            validateTag name >>= fun _ => names.forM validateTag := rfl
        rw [hcons, List.forall_mem_cons, ← ih]
        cases hname : validateTag name with
        | ok a => exact ⟨fun h => ⟨rfl, h⟩, fun h => h.2⟩
        | error e => exact ⟨fun h => (nomatch h), fun h => (nomatch h.1)⟩
  unfold validateTags
  by_cases hmany : MAX_TAGS_PER_RECORD < tags.length
  · rw [if_pos hmany]
    exact ⟨fun h => (nomatch h), fun h => absurd hmany (Nat.not_lt.mpr h.1)⟩
  · rw [if_neg hmany, hall]
    exact ⟨fun h => ⟨Nat.not_lt.mp hmany, h⟩, fun h => h.2⟩

end OakKeyring
