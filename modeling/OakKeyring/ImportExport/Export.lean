import OakKeyring.ImportExport.Calls

/-!
# Writing export files

A payload is written encrypted under the export password, or as plain rows. Either file is
written beside its target first and renamed.
-/

namespace OakKeyring

open Effect Transfer

structure ExportRecord where
  id : String
  credentialType : String
  name : String
  username : Option String
  password : Option String
  url : Option String
  notes : Option String
  tags : Option (List String)
  isFavorite : Option Bool
  expiresAt : Option String
  publicKey : Option String
  privateKey : Option String
  passphrase : Option String
  appId : Option String
  secretKey : Option String
deriving DecidableEq, Repr

structure ExportPayload where
  version : String
  vaultId : String
  exportedAt : String
  records : List ExportRecord
deriving DecidableEq, Repr

/-- The crates `serde_json`, for payloads, and `csv`. The parser of backups reads the fields that
the export writes. -/
class ExportFormats where
  payloadToVec : ExportPayload → Except String Bytes
  payloadFromSlice : Bytes → Except String ExportPayload
  /-- The rows as text, in UTF-8. -/
  writeRows : List (List String) → Except String Bytes
  readRows : Bytes → Except String (List (List String))

export ExportFormats (payloadToVec payloadFromSlice writeRows readRows)

/-- What is written is read back. -/
class LawfulExportFormats [ExportFormats] : Prop where
  payloadFromSlice_payloadToVec : ∀ {payload : ExportPayload} {bytes : Bytes},
    payloadToVec payload = .ok bytes → payloadFromSlice bytes = .ok payload
  readRows_writeRows : ∀ {rows : List (List String)} {bytes : Bytes},
    writeRows rows = .ok bytes → readRows bytes = .ok rows

def CredentialType.toDbStr : CredentialType → String
  | Login => "login"
  | Api => "api"
  | Ssh => "ssh"
  | SecureNote => "secure_note"

section Records

variable [Codec]

/-- `decrypted_record_to_export`. -/
def decryptedRecordToExport (record : DecryptedRecord) : ExportRecord :=
  let base : ExportRecord :=
    { id := record.id.toText
      credentialType := record.credentialType.toDbStr
      name := record.name
      username := none
      password := none
      url := none
      notes := none
      tags := some record.tags
      isFavorite := some record.isFavorite
      expiresAt := record.expiresAt.map toRfc3339
      publicKey := none
      privateKey := none
      passphrase := none
      appId := none
      secretKey := none }
  match record.payload with
  | .Login _ username password url notes =>
      { base with
        username := some username
        password := some password
        url := url
        notes := notes }
  | .Api _ appId secretKey url notes =>
      { base with
        url := url
        notes := notes
        appId := some appId
        secretKey := some secretKey }
  | .Ssh _ publicKey privateKey passphrase notes =>
      { base with
        notes := notes
        publicKey := some publicKey
        privateKey := privateKey
        passphrase := passphrase }
  | .SecureNote _ notes => { base with notes := notes }

@[simp] theorem id_decryptedRecordToExport (record : DecryptedRecord) :
    (decryptedRecordToExport record).id = record.id.toText := by
  unfold decryptedRecordToExport
  cases record.payload <;> rfl

end Records

/-! ## Checks before an export -/

def validateExportPassword (password : String) : Except ImportExportError Unit :=
  if (utf8 password).length < 8 then .error .InvalidPassword else .ok ()

/-- `validate_export_path` and `validate_export_csv_path`: the extension, and that the parent
exists. -/
def validatePathWith (extension message : String) (path : PathBuf) : TransferM Unit := do
  if path.extension ≠ some extension then
    throw (.InvalidFormat message)
  else
    match path.parent with
    | none => throw (.FileWriteError path "cannot determine parent directory")
    | some parent =>
        -- an empty parent is the current directory
        if parent.absolute = false ∧ parent.components = [] then pure ()
        else
          let found : Bool ← ask (.pathExists parent)
          if found then pure ()
          else throw (.FileWriteError path "parent directory does not exist")

def validateExportPath (path : PathBuf) : TransferM Unit :=
  validatePathWith "okb" "output file must have .okb extension" path

def validateExportCsvPath (path : PathBuf) : TransferM Unit :=
  validatePathWith "csv" "output file must have .csv extension" path

inductive ExportSessionStatus
  | Created
  | Exporting
  | Completed
  | Failed
deriving DecidableEq, Repr

def ExportSessionStatus.debug : ExportSessionStatus → String
  | Created => "Created"
  | Exporting => "Exporting"
  | Completed => "Completed"
  | Failed => "Failed"

structure ExportSession where
  id : Uuid
  scope : ExportScope
  format : ExportFormat
  exportPassword : String
  outputPath : PathBuf
  status : ExportSessionStatus
  recordCount : Nat
  encryptedSize : Option Nat
  createdAt : DateTime
  completedAt : Option DateTime
deriving DecidableEq, Repr

def createExportSession (scope : ExportScope) (format : ExportFormat) (exportPassword : String)
    (outputPath : PathBuf) : TransferM ExportSession := do
  match format with
  | .Okb =>
      value (validateExportPassword exportPassword)
      validateExportPath outputPath
  | .Csv => validateExportCsvPath outputPath
  let id ← fresh
  let createdAt ← now
  return {
    id := id
    scope := scope
    format := format
    exportPassword := exportPassword
    outputPath := outputPath
    status := .Created
    recordCount := 0
    encryptedSize := none
    createdAt := createdAt
    completedAt := none }

/-! ## Files -/

/-- `Argon2Params::medium`. -/
def Argon2Params.medium : Argon2Params where
  mCost := 49152
  tCost := 2
  pCost := 2

/-- `OKB_VERSION` in little-endian order. -/
def OKB_VERSION : Bytes := [1, 0, 0, 0]

/-- The file is written under a temporary name and renamed. -/
def writeAtomically (temp : String) (bytes : Bytes) (path : PathBuf) : TransferM Unit := do
  let tmpPath := path.withExtension temp
  io (.writeFile tmpPath bytes) (fun answer => answer) fun e => .FileWriteError tmpPath e
  io (.renameFile tmpPath path) (fun answer => answer) fun e =>
    .FileWriteError path s!"atomic rename failed: {e}"

section Writing

variable [Crypto] [Argon2] [ExportFormats]

/-- The layout of a backup: version, salt, nonce, ciphertext. -/
def okbBytes (salt : Salt) (nonce : Nonce) (ciphertext : Bytes) : Bytes :=
  OKB_VERSION ++ salt.bytes ++ nonce.bytes ++ ciphertext

def encryptAndWriteOkb (payload : ExportPayload) (password : String) (path : PathBuf) :
    TransferM Nat := do
  let json ← value ((payloadToVec payload).mapError fun e =>
    .InternalError s!"failed to serialize export payload: {e}")
  let salt : Salt ← Fallible.ask (I := TransferI) (.keystore .generateSalt)
  let dek ← onKeystore .KeyDerivationFailed (KeyStore.deriveKeyLocked password salt .medium)
  let nonce : Nonce ← Fallible.ask (I := TransferI) (.keystore .generateNonce)
  let ciphertext ← value ((Crypto.aeadEncrypt json [] dek nonce).mapError .EncryptionFailed)
  let bytes := okbBytes salt nonce ciphertext
  writeAtomically "okb.tmp" bytes path
  return bytes.length

/-- The byte order mark that Excel asks for. -/
def UTF8_BOM : Bytes := [0xEF, 0xBB, 0xBF]

def csvHeader : List String :=
  ["id", "credential_type", "name", "username", "password", "url", "notes", "tags", "is_favorite",
    "expires_at", "public_key", "private_key", "passphrase", "app_id", "secret_key"]

def csvRow (record : ExportRecord) : List String :=
  [record.id, record.credentialType, record.name, record.username.getD "",
    record.password.getD "", record.url.getD "", record.notes.getD "",
    (record.tags.map fun tags => ";".intercalate tags).getD "",
    (record.isFavorite.map fun favorite => if favorite then "true" else "false").getD "",
    record.expiresAt.getD "", record.publicKey.getD "", record.privateKey.getD "",
    record.passphrase.getD "", record.appId.getD "", record.secretKey.getD ""]

def writeCsv (payload : ExportPayload) (path : PathBuf) : TransferM Nat := do
  let rows ← value ((writeRows (csvHeader :: payload.records.map csvRow)).mapError fun e =>
    .FileWriteError path s!"failed to write CSV record: {e}")
  let bytes := UTF8_BOM ++ rows
  writeAtomically "csv.tmp" bytes path
  return bytes.length

/-! ## The export -/

variable [Codec]

/-- The collected records are written; an export of none fails. -/
def executeExport (session : ExportSession) (records : List ExportRecord) (vaultId : String) :
    TransferM (PathBuf × Nat) := do
  if session.status ≠ .Created then
    throw (.InvalidSessionStatus "Created" session.status.debug)
  if records.isEmpty then
    throw (.VaultError "no records to export")
  let exportedAt ← now
  let payload : ExportPayload :=
    { version := "1.0"
      vaultId := vaultId
      exportedAt := toRfc3339 exportedAt
      records := records }
  let _ ← match session.format with
    | .Okb => encryptAndWriteOkb payload session.exportPassword session.outputPath
    | .Csv => writeCsv payload session.outputPath
  let _ ← now
  return (session.outputPath, records.length)

end Writing

end OakKeyring
