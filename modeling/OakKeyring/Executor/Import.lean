import OakKeyring.Executor.Export
import OakKeyring.ImportExport.Import

/-!
# The import commands

The executor validates a file in a session of its own, or takes one that was validated before, and
creates a record for everything that the service hands over.
-/

namespace OakKeyring

open Effect Transfer

inductive SkipReason
  | Duplicate
  | ValidationFailed
  | VaultWriteError
deriving DecidableEq, Repr

inductive ImportOutcome
  | Cancelled (operation : String)
  | Error (source : ErrorSource) (messageKey fallback : String)
  | ImportValidated (sessionId : Uuid) (preview : ImportPreview)
  | ImportCompleted (importedCount reviewedCount skippedCount failedCount : Nat)
      (skipBreakdown : List (SkipReason × Nat))
deriving DecidableEq, Repr

structure ImportCommand where
  sessionId : Option Uuid
  source : ImportSource
  path : PathBuf
  password : Option String
  columnMapping : Option CsvColumnMapping
  importAsNotes : Bool
deriving DecidableEq, Repr

def importError (e : ImportExportError) (messageKey message : String) : ImportOutcome :=
  .Error (.service e) messageKey s!"{message}: {e.toText}"

/-- `build_skip_breakdown`. -/
def buildSkipBreakdown (result : ImportResult) : List (SkipReason × Nat) :=
  (if 0 < result.skipped then [(.Duplicate, result.skipped)] else []) ++
    (if 0 < result.validationFailed then [(.ValidationFailed, result.validationFailed)] else [])

/-- The payload of a credential type, from the fields it knows. -/
def fieldsToPayload (credentialType : CredentialType) (fields : FieldMap) : EncryptedPayload :=
  match credentialType with
  | .Login =>
      .Login (fields.text "name") (fields.text "username") (fields.text "password")
        (fields.lookup "url") (fields.lookup "notes")
  | .Api =>
      .Api (fields.text "name") (fields.text "app_id") (fields.text "secret_key")
        (fields.lookup "url") (fields.lookup "notes")
  | .Ssh =>
      .Ssh (fields.text "name") (fields.text "public_key") (fields.lookup "private_key")
        (fields.lookup "passphrase") (fields.lookup "notes")
  | .SecureNote => .SecureNote (fields.text "name") (fields.lookup "notes")

/-- What is asked of the vault for an imported record. -/
def importParams (credentialType : CredentialType) (fields : FieldMap) (tags : List String) :
    CreateRecordParams where
  credentialType := credentialType
  payload := fieldsToPayload credentialType fields
  isFavorite := false
  expiresAt := none
  tags := tags

/-- The counts of the create loop. -/
structure ImportCounts where
  imported : Nat
  reviewed : Nat
  failed : Nat
deriving DecidableEq, Repr

def ImportCounts.zero : ImportCounts where
  imported := 0
  reviewed := 0
  failed := 0

def ImportCounts.count (counts : ImportCounts) (record : ImportableRecord) {α : Type}
    (created : Except VaultError α) : ImportCounts :=
  match created with
  | .ok _ =>
      if record.isReview then { counts with reviewed := counts.reviewed + 1 }
      else { counts with imported := counts.imported + 1 }
  | .error _ => { counts with failed := counts.failed + 1 }

/-- The details of the audit entry. -/
def importDetail (source : ImportSource) (counts : ImportCounts) (skipped : Nat) : String :=
  s!"source={source.debug}, imported={counts.imported}, reviewed={counts.reviewed}, " ++
    s!"failed={counts.failed}, skipped={skipped}"

section Handlers

variable [Crypto] [Argon2] [ExportFormats] [TextPatterns]

def handleValidateImportFile (sessions : ImportSessions) (source : ImportSource)
    (path : PathBuf) (password : Option String) :
    Prog TransferI (ImportOutcome × ImportSessions) := do
  let cancelled : Bool ← perform .isCancelled
  if cancelled then
    return (.Cancelled "import_validate", sessions)
  else
    let (id, sessions) ← createImportSession sessions source path password none false
    match ← validateImportFile sessions id with
    | (.ok preview, sessions) => return (.ImportValidated id preview, sessions)
    | (.error e, sessions) =>
        return (importError e "error.import_validate_failed" "Failed to validate import file",
          sessions)

/-- The given session, or a new one whose file is validated. -/
def openImportSession (sessions : ImportSessions) (command : ImportCommand) :
    Prog TransferI (Except ImportOutcome Uuid × ImportSessions) := do
  match command.sessionId with
  | some id => return (.ok id, sessions)
  | none =>
      let (id, sessions) ← createImportSession sessions command.source command.path
        command.password command.columnMapping command.importAsNotes
      match ← validateImportFile sessions id with
      | (.ok _, sessions) => return (.ok id, sessions)
      | (.error e, sessions) =>
          return (.error (importError e "error.import_validate_failed"
            "Failed to validate import file"), sessions)

/-- The create loop; `none` if it was cancelled. -/
def createRecords (vault : Option VaultService) : List ImportableRecord → ImportCounts →
    Prog TransferI (Option ImportCounts)
  | [], counts => pure (some counts)
  | record :: rest, counts => do
      let cancelled : Bool ← perform .isCancelled
      if cancelled then
        return none
      else
        let created ← (onVault vault fun v => Vault.createRecord v
          (importParams record.credentialType record.fields record.tags)).run
        createRecords vault rest (counts.count record created)

/-- The audit entry, the health scan and the report. -/
def reportImport (vault : Option VaultService) (source : ImportSource) (result : ImportResult)
    (counts : ImportCounts) : Prog TransferI ImportOutcome := do
  let _ ← (onVault vault fun _ => Vault.query (.insertAuditEntry .VaultImport none none
    (some (importDetail source counts result.skipped)))).run
  let outcome : ImportOutcome :=
    .ImportCompleted counts.imported counts.reviewed result.skipped counts.failed
      (buildSkipBreakdown result)
  if 0 < counts.imported ∨ 0 < counts.reviewed then
    let _ ← perform .scheduleHealthCheck
    return outcome
  else
    return outcome

variable [Unicode]

/-- The import of a validated session. -/
def importSession (vault : Option VaultService) (sessions : ImportSessions)
    (command : ImportCommand) (id : Uuid) : Prog TransferI (ImportOutcome × ImportSessions) := do
  -- no key of a stored record is handed over
  let (executed, sessions) := executeImport sessions
    { sessionId := id
      existingKeys := []
      importAsNotes := command.importAsNotes }
  let cancelled : Bool ← perform .isCancelled
  if cancelled then
    return (.Cancelled "import_execute", sessions)
  else
    match executed with
    | .error e =>
        return (importError e "error.import_execute_failed" "Failed to execute import", sessions)
    | .ok (result, records) =>
        match ← createRecords vault records .zero with
        | none => return (.Cancelled "import_execute", sessions)
        | some counts =>
            let outcome ← reportImport vault command.source result counts
            return (outcome, sessions)

def handleExecuteImport (vault : Option VaultService) (sessions : ImportSessions)
    (command : ImportCommand) : Prog TransferI (ImportOutcome × ImportSessions) := do
  let cancelled : Bool ← perform .isCancelled
  if cancelled then
    return (.Cancelled "import_execute", sessions)
  else
    match ← openImportSession sessions command with
    | (.error outcome, sessions) => return (outcome, sessions)
    | (.ok id, sessions) => importSession vault sessions command id

/-- An import as the user makes it: the file is validated first, and the preview's session is
executed; or it is executed at once. -/
inductive ImportRoute
  | Previewed
  | Direct
deriving DecidableEq, Repr

/-- `handle_validate_import_file` and `handle_execute_import`, or the latter alone. -/
def importFile (route : ImportRoute) (vault : Option VaultService) (sessions : ImportSessions)
    (command : ImportCommand) : Prog TransferI (ImportOutcome × ImportSessions) := do
  match route with
  | .Direct => handleExecuteImport vault sessions { command with sessionId := none }
  | .Previewed =>
      match ← handleValidateImportFile sessions command.source command.path command.password with
      | (.ImportValidated id _, sessions) =>
          handleExecuteImport vault sessions { command with sessionId := some id }
      | other => return other

end Handlers

end OakKeyring
