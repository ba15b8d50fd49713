import OakKeyring.ImportExport.Export

/-!
# The export command

The executor verifies the master password, makes a session with the scope it is given, collects
the records from the vault and has the service write them.
-/

namespace OakKeyring

open Effect Transfer

inductive ExportResult
  | Cancelled (operation : String)
  | Error (source : ErrorSource) (messageKey fallback : String)
  | ExportCompleted (path : PathBuf) (recordCount : Nat) (format : ExportFormat)
deriving DecidableEq, Repr

structure ExportCommand where
  scope : ExportScope
  outputPath : PathBuf
  exportPassword : String
  masterPassword : String
  format : ExportFormat
deriving DecidableEq, Repr

section

variable [Unicode]

/-- The details of the audit entry. -/
def exportDetail (scope : ExportScope) (path : PathBuf) (count : Nat) : String :=
  s!"scope={scope.debug}, path={path.display}, count={count}"

end

/-- `RecordFilter::All`, sorted by name. -/
def exportSort : RecordSort where
  field := .Name
  direction := .Asc

def exportError (e : ImportExportError) (messageKey message : String) : ExportResult :=
  .Error (.service e) messageKey s!"{message}: {e.toText}"

def exportVaultError (e : VaultError) (messageKey message : String) : ExportResult :=
  .Error (.vault e) messageKey s!"{message}: {e.toText}"

section Handler

variable [Codec] [Crypto] [Argon2] [ValueJson] [ExportFormats] [Unicode]

/-- Decrypts one record after the other; the results so far are kept until a failure or a
cancellation ends the export. -/
def collectRecords (vault : Option VaultService) : List Uuid → List ExportRecord →
    Prog TransferI (Except ExportResult (List ExportRecord))
  | [], collected => pure (.ok collected)
  | id :: rest, collected => do
      let cancelled : Bool ← perform .isCancelled
      if cancelled then
        return .error (.Cancelled "export_execute")
      else
        match ← (onVault vault fun v => Vault.getDecryptedRecord v id).run with
        | .error e =>
            return .error (exportVaultError e "error.export_decrypt_failed"
              "Failed to decrypt record for export")
        | .ok decrypted =>
            collectRecords vault rest (collected ++ [decryptedRecordToExport decrypted])

/-- Steps 4 and 5: the records are written, and the export is audited. -/
def writeExport (vault : Option VaultService) (vaultDir : String) (command : ExportCommand)
    (session : ExportSession) (records : List ExportRecord) : Prog TransferI ExportResult := do
  let written ← (executeExport session records vaultDir).run
  let cancelled : Bool ← perform .isCancelled
  if cancelled then
    return .Cancelled "export_execute"
  else
    match written with
    | .error e => return exportError e "error.export_execute_failed" "Failed to execute export"
    | .ok (path, recordCount) =>
        let _ ← (onVault vault fun _ => Vault.query (.insertAuditEntry .VaultExport none none
          (some (exportDetail command.scope path recordCount)))).run
        return .ExportCompleted path recordCount command.format

/-- `handle_execute_export`. -/
def handleExecuteExport (vault : Option VaultService) (vaultDir : String)
    (frequency : Uuid → Nat) (command : ExportCommand) : Prog TransferI ExportResult := do
  let cancelled : Bool ← perform .isCancelled
  if cancelled then
    return .Cancelled "export_execute"
  else
    match ← (keystoreCalls.fallible (KeyStore.unlock command.masterPassword)).run with
    | .error _ =>
        return .Error (.keystore "ExecutorMasterPasswordRequired")
          "error.password_verification_failed" "Master password verification failed."
    | .ok _ =>
        match ← (createExportSession command.scope command.format command.exportPassword
            command.outputPath).run with
        | .error e =>
            return exportError e "error.export_session_create_failed"
              "Failed to create export session"
        | .ok session =>
            -- the listing takes no notice of the scope
            match ← (onVault vault fun v => Vault.listRecords v frequency .All exportSort).run with
            | .error e =>
                return exportVaultError e "error.export_list_records_failed"
                  "Failed to list records for export"
            | .ok records =>
                match ← collectRecords vault (records.map TuiRecord.id) [] with
                | .error result => return result
                | .ok exported => writeExport vault vaultDir command session exported

end Handler

end OakKeyring
