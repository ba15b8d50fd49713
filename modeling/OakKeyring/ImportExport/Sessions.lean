import OakKeyring.ImportExport.Export
import OakKeyring.ImportExport.Import
import OakKeyring.Lib.Transition

/-!
# The sessions of the import and export service

The service keeps its sessions by their ids and moves them from status to status. Every operation
is a call on the service as it is then.
-/

namespace OakKeyring

open Effect Transfer Transition

/-! ## The service -/

structure ImportExportService where
  importSessions : ImportSessions
  exportSessions : AList fun _ : Uuid => ExportSession
  /-- the formats that a parser is registered for -/
  parserRegistry : List ImportSource

/-- What an export is given; the collector is called once. -/
structure ExportParams where
  sessionId : Uuid
  recordCollector : Except String (List ExportRecord)
  vaultId : String

namespace ImportExportService

def new : ImportExportService where
  importSessions := ∅
  exportSessions := ∅
  parserRegistry :=
    [.Csv, .Bitwarden, .KeePass, .OnePassword1pux, .OnePasswordOpvault, .OpenKeyringBackup]

variable (s : ImportExportService)

def withImport (id : Uuid) (session : ImportSession) : ImportExportService :=
  { s with importSessions := s.importSessions.insert id session }

def withExport (id : Uuid) (session : ExportSession) : ImportExportService :=
  { s with exportSessions := s.exportSessions.insert id session }

def importSessionStatus (id : Uuid) : Option ImportSessionStatus :=
  (s.importSessions.lookup id).map ImportSession.status

def exportSessionStatus (id : Uuid) : Option ExportSessionStatus :=
  (s.exportSessions.lookup id).map ExportSession.status

/-! ## Imports -/

def createImportSession (source : ImportSource) (filePath : PathBuf)
    (decryptPassword : Option String) (csvMapping : Option CsvColumnMapping)
    (importAsNotes : Bool) :
    Prog TransferI (Except ImportExportError Uuid × ImportExportService) := do
  let (id, importSessions) ← OakKeyring.createImportSession s.importSessions source filePath
    decryptPassword csvMapping importAsNotes
  return (.ok id, { s with importSessions := importSessions })

def executeImport [Unicode] (params : ImportParams) :
    Except ImportExportError (ImportResult × List ImportableRecord) × ImportExportService :=
  let (executed, importSessions) := OakKeyring.executeImport s.importSessions params
  (executed, { s with importSessions := importSessions })

def cancelImport (id : Uuid) : Except ImportExportError Unit × ImportExportService :=
  match s.importSessions.lookup id with
  | none => (.error (.SessionNotFound id), s)
  | some session => (.ok (), s.withImport id { session with status := .Cancelled })

def cancelExportSession (id : Uuid) : Except ImportExportError Unit × ImportExportService :=
  match s.exportSessions.lookup id with
  | none => (.error (.SessionNotFound id), s)
  | some session => (.ok (), s.withExport id { session with status := .Failed })

section Files

variable [Crypto] [Argon2] [ExportFormats]

/-- A session whose format has no parser stays where it is then. -/
def validateImportFile [TextPatterns] (id : Uuid) :
    Prog TransferI (Except ImportExportError ImportPreview × ImportExportService) :=
  match s.importSessions.lookup id with
  | none => pure (.error (.SessionNotFound id), s)
  | some session =>
      if session.status = .Created ∧ session.source ∉ s.parserRegistry then
        pure (.error (.UnsupportedFormat session.source.debug),
          s.withImport id { session with status := .Validating })
      else do
        let (validated, importSessions) ← OakKeyring.validateImportFile s.importSessions id
        return (validated, { s with importSessions := importSessions })

/-! ## Exports -/

def createExportSession (scope : ExportScope) (format : ExportFormat) (exportPassword : String)
    (outputPath : PathBuf) :
    Prog TransferI (Except ImportExportError Uuid × ImportExportService) := do
  match ← (OakKeyring.createExportSession scope format exportPassword outputPath).run with
  | .error e => return (.error e, s)
  | .ok session => return (.ok session.id, s.withExport session.id session)

/-- The file of an export, in the format of the session. -/
def writeOutput (session : ExportSession) (payload : ExportPayload) : TransferM Nat :=
  match session.format with
  | .Okb => encryptAndWriteOkb payload session.exportPassword session.outputPath
  | .Csv => writeCsv payload session.outputPath

variable [Codec]

def exportPayload (records : List ExportRecord) (vaultId : String) (exportedAt : DateTime) :
    ExportPayload where
  version := "1.0"
  vaultId := vaultId
  exportedAt := toRfc3339 exportedAt
  records := records

/-- A collector that fails and a file that cannot be written leave the session as it is while it
is exported. -/
def executeExport (params : ExportParams) :
    Prog TransferI (Except ImportExportError (PathBuf × Nat) × ImportExportService) :=
  match s.exportSessions.lookup params.sessionId with
  | none => pure (.error (.SessionNotFound params.sessionId), s)
  | some session =>
      if session.status ≠ .Created then
        pure (.error (.InvalidSessionStatus "Created" session.status.debug), s)
      else
        let exporting := s.withExport params.sessionId { session with status := .Exporting }
        match params.recordCollector with
        | .error e => pure (.error (.VaultError e), exporting)
        | .ok records =>
            if records.isEmpty then
              pure (.error (.VaultError "no records to export"),
                s.withExport params.sessionId { session with status := .Failed })
            else do
              let exportedAt : DateTime ← perform (.vault .now)
              match ← (writeOutput session (exportPayload records params.vaultId exportedAt)).run with
              | .error e => return (.error e, exporting)
              | .ok size =>
                  let completedAt : DateTime ← perform (.vault .now)
                  return (.ok (session.outputPath, records.length),
                    s.withExport params.sessionId
                      { session with
                        status := .Completed
                        recordCount := records.length
                        encryptedSize := some size
                        completedAt := some completedAt })

variable {s}

/-- The service answers what the executor's export of the same session does. -/
theorem executeExport_answer {params : ExportParams} {session : ExportSession}
    {records : List ExportRecord} (hsession : s.exportSessions.lookup params.sessionId = some session)
    (hcollector : params.recordCollector = .ok records) :
    (do
      let (exported, _) ← s.executeExport params
      return exported) = (OakKeyring.executeExport session records params.vaultId).run := by
  unfold executeExport OakKeyring.executeExport
  rw [hsession]
  by_cases hcreated : session.status = .Created
  · by_cases hempty : records.isEmpty = true
    · simp only [hcreated, hcollector, hempty, ne_eq, not_true_eq_false, if_true, if_false]
      rfl
    · simp only [hcreated, hcollector, hempty, ne_eq, not_true_eq_false, if_false]
      have hwritten : ∀ (p : TransferM Nat) (finish : Nat → DateTime → ImportExportService)
          (failed : ImportExportService), (do
            let (exported, _) ← (do
              match ← p.run with
              | .error e => return (.error e, failed)
              | .ok size =>
                  let completedAt : DateTime ← perform (.vault .now)
                  return (.ok (session.outputPath, records.length), finish size completedAt) :
              Prog TransferI (Except ImportExportError (PathBuf × Nat) × ImportExportService))
            return exported) = (do
            let _ ← p
            let _ ← now
            return (session.outputPath, records.length) : TransferM (PathBuf × Nat)).run := by
        intro p finish failed
        rw [ExceptT.run_bind, Prog.bind_assoc]
        congr 1
        funext written
        cases written with
        | error e => rfl
        | ok size => rfl
      refine congrArg (Prog.call (I := TransferI) (.vault .now)) (funext fun exportedAt => ?_)
      unfold writeOutput exportPayload
      cases session.format with
      | Okb => exact hwritten _ _ _
      | Csv => exact hwritten _ _ _
  · simp only [hcreated, ne_eq, not_false_eq_true, if_true]
    rfl

end Files

end ImportExportService

/-! ## Steps -/

/-- The operations that move sessions. -/
inductive SessionCommand
  | createImportSession (source : ImportSource) (filePath : PathBuf)
      (decryptPassword : Option String) (csvMapping : Option CsvColumnMapping)
      (importAsNotes : Bool)
  | validateImportFile (id : Uuid)
  | executeImport (params : ImportParams)
  | cancelImport (id : Uuid)
  | createExportSession (scope : ExportScope) (format : ExportFormat) (exportPassword : String)
      (outputPath : PathBuf)
  | executeExport (params : ExportParams)
  | cancelExportSession (id : Uuid)

/-- What an operation answers. -/
inductive SessionAnswer
  | created (id : Uuid)
  | validated (preview : ImportPreview)
  | imported (result : ImportResult) (records : List ImportableRecord)
  | exported (path : PathBuf) (recordCount : Nat)
  | cancelled

/-- One operation of a run: what was called, what it met on the way, and what came back. -/
structure SessionLabel where
  command : SessionCommand
  trace : List (Event TransferI)
  outcome : Except ImportExportError SessionAnswer

section Steps

variable [Codec] [Crypto] [Argon2] [ExportFormats] [TextPatterns] [Unicode]

/-- The operation that a command names. -/
def SessionCommand.program (s : ImportExportService) :
    SessionCommand → Prog TransferI (Except ImportExportError SessionAnswer × ImportExportService)
  | createImportSession source filePath decryptPassword csvMapping importAsNotes => do
      let (created, s') ← s.createImportSession source filePath decryptPassword csvMapping
        importAsNotes
      return (created.map .created, s')
  | validateImportFile id => do
      let (validated, s') ← s.validateImportFile id
      return (validated.map .validated, s')
  | executeImport params =>
      let (executed, s') := s.executeImport params
      pure (executed.map fun handed => .imported handed.1 handed.2, s')
  | cancelImport id =>
      let (cancelled, s') := s.cancelImport id
      pure (cancelled.map fun _ => .cancelled, s')
  | createExportSession scope format exportPassword outputPath => do
      let (created, s') ← s.createExportSession scope format exportPassword outputPath
      return (created.map .created, s')
  | executeExport params => do
      let (exported, s') ← s.executeExport params
      return (exported.map fun written => .exported written.1 written.2, s')
  | cancelExportSession id =>
      let (cancelled, s') := s.cancelExportSession id
      pure (cancelled.map fun _ => .cancelled, s')

/-- A call on the service, whatever the vault, the key store and the files are then. -/
def sessionStep [Parsers] (s : ImportExportService) (l : SessionLabel)
    (s' : ImportExportService) : Prop :=
  (l.command.program s).Returns l.trace (l.outcome, s') ∧
    ∃ w w', Path transferEnv w l.trace w'

end Steps

end OakKeyring
