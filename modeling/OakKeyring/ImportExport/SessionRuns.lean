import OakKeyring.ImportExport.Sessions
import OakKeyring.Samples.Import

/-!
# Runs of the import and export service

What one operation does to the status of a session is said once; that finished sessions stay as
they are, that failures end in `Failed` and that records are handed out once follow for whole runs.
-/

namespace OakKeyring

open Effect Transfer Transition

/-! ## Statuses -/

def ImportSessionStatus.Finished : ImportSessionStatus → Prop
  | Completed => True
  | Cancelled => True
  | Failed => True
  | _ => False

def ExportSessionStatus.Finished : ExportSessionStatus → Prop
  | Completed => True
  | Failed => True
  | _ => False

/-- The errors that are about the session and not about what it does. -/
def ImportExportError.AboutSession : ImportExportError → Prop
  | SessionNotFound _ => True
  | InvalidSessionStatus _ _ => True
  | _ => False

/-- The session that an operation is asked to work on. -/
def SessionCommand.session? : SessionCommand → Option Uuid
  | createImportSession .. => none
  | validateImportFile id => some id
  | executeImport params => some params.sessionId
  | cancelImport id => some id
  | createExportSession .. => none
  | executeExport params => some params.sessionId
  | cancelExportSession id => some id

/-- The session whose records an operation hands out for creation. -/
def SessionLabel.handedOut (l : SessionLabel) : Option Uuid :=
  match l.command, l.outcome with
  | .executeImport params, .ok (.imported _ _) => some params.sessionId
  | _, _ => none

/-- The identifier that was drawn for a new session. -/
def SessionLabel.Draws (l : SessionLabel) (id : Uuid) : Prop :=
  ∃ e ∈ l.trace, e = (⟨.vault .newUuid, id⟩ : Event TransferI)

namespace ImportExportService

variable {s : ImportExportService} {id other : Uuid}

@[simp] theorem importSessionStatus_withImport (session : ImportSession) :
    (s.withImport id session).importSessionStatus other =
      if other = id then some session.status else s.importSessionStatus other := by
  unfold withImport importSessionStatus
  by_cases heq : other = id
  · rw [if_pos heq, heq]
    simp
  · rw [if_neg heq]
    simp [AList.lookup_insert_ne heq]

@[simp] theorem exportSessionStatus_withImport (session : ImportSession) :
    (s.withImport id session).exportSessionStatus other = s.exportSessionStatus other :=
  rfl

@[simp] theorem importSessionStatus_withExport (session : ExportSession) :
    (s.withExport id session).importSessionStatus other = s.importSessionStatus other :=
  rfl

@[simp] theorem exportSessionStatus_withExport (session : ExportSession) :
    (s.withExport id session).exportSessionStatus other =
      if other = id then some session.status else s.exportSessionStatus other := by
  unfold withExport exportSessionStatus
  by_cases heq : other = id
  · rw [if_pos heq, heq]
    simp
  · rw [if_neg heq]
    simp [AList.lookup_insert_ne heq]

@[simp] theorem parserRegistry_withImport (session : ImportSession) :
    (s.withImport id session).parserRegistry = s.parserRegistry :=
  rfl

@[simp] theorem parserRegistry_withExport (session : ExportSession) :
    (s.withExport id session).parserRegistry = s.parserRegistry :=
  rfl

end ImportExportService

/-! ## What an operation does -/

section Moves

variable [Codec] [Crypto] [Argon2] [ExportFormats]

/-- A run of the part that writes the file, on the answers that follow the first one. -/
def Writes (session : ExportSession) (records : List ExportRecord) (vaultId : String)
    (trace : List (Event TransferI)) (outcome : Except ImportExportError Nat) : Prop :=
  ∃ (exportedAt : DateTime) (t rest : List (Event TransferI)),
    trace = ⟨.vault .now, exportedAt⟩ :: (t ++ rest) ∧
      (ImportExportService.writeOutput session
        (ImportExportService.exportPayload records vaultId exportedAt)).run.Returns t outcome

/-- The ways an operation moves a session. -/
inductive SessionMove (l : SessionLabel) (s : ImportExportService) : ImportExportService → Prop
  /-- nothing happens -/
  | refused {e : ImportExportError} (hout : l.outcome = .error e)
      (hwhy : e.AboutSession ∨ l.command.session? = none) : SessionMove l s s
  | createdImport {id : Uuid} {session : ImportSession}
      (hcommand : ∃ source path password mapping notes,
        l.command = .createImportSession source path password mapping notes)
      (hout : l.outcome = .ok (.created id)) (hdraws : l.Draws id)
      (hstatus : session.status = .Created) : SessionMove l s (s.withImport id session)
  | unsupported {id : Uuid} {session : ImportSession} {e : ImportExportError}
      (hcommand : l.command = .validateImportFile id)
      (hbefore : s.importSessionStatus id = some .Created) (hout : l.outcome = .error e)
      (hsource : session.source ∉ s.parserRegistry) (hstatus : session.status = .Validating) :
      SessionMove l s (s.withImport id session)
  | unparsed {id : Uuid} {session : ImportSession} {e : ImportExportError}
      (hcommand : l.command = .validateImportFile id)
      (hbefore : s.importSessionStatus id = some .Created) (hout : l.outcome = .error e)
      (hstatus : session.status = .Failed) : SessionMove l s (s.withImport id session)
  | validated {id : Uuid} {session : ImportSession} {preview : ImportPreview}
      (hcommand : l.command = .validateImportFile id)
      (hbefore : s.importSessionStatus id = some .Created)
      (hout : l.outcome = .ok (.validated preview)) (hstatus : session.status = .Validated) :
      SessionMove l s (s.withImport id session)
  | imported {params : ImportParams} {session : ImportSession} {result : ImportResult}
      {records : List ImportableRecord} (hcommand : l.command = .executeImport params)
      (hbefore : s.importSessionStatus params.sessionId = some .Validated)
      (hout : l.outcome = .ok (.imported result records)) (hstatus : session.status = .Completed) :
      SessionMove l s (s.withImport params.sessionId session)
  | cancelledImport {id : Uuid} {session : ImportSession} (hcommand : l.command = .cancelImport id)
      (hout : l.outcome = .ok .cancelled) (hstatus : session.status = .Cancelled) :
      SessionMove l s (s.withImport id session)
  | createdExport {id : Uuid} {session : ExportSession}
      (hcommand : ∃ scope format password path,
        l.command = .createExportSession scope format password path)
      (hout : l.outcome = .ok (.created id)) (hdraws : l.Draws id)
      (hstatus : session.status = .Created) : SessionMove l s (s.withExport id session)
  | uncollected {params : ExportParams} {session : ExportSession} {reason : String}
      {e : ImportExportError} (hcommand : l.command = .executeExport params)
      (hsession : s.exportSessions.lookup params.sessionId = some session)
      (hbefore : session.status = .Created)
      (hcollector : params.recordCollector = .error reason) (hout : l.outcome = .error e) :
      SessionMove l s (s.withExport params.sessionId { session with status := .Exporting })
  | nothingToExport {params : ExportParams} {session : ExportSession} {e : ImportExportError}
      (hcommand : l.command = .executeExport params)
      (hbefore : s.exportSessionStatus params.sessionId = some .Created)
      (hout : l.outcome = .error e) (hstatus : session.status = .Failed) :
      SessionMove l s (s.withExport params.sessionId session)
  | unwritten {params : ExportParams} {session : ExportSession} {records : List ExportRecord}
      {e : ImportExportError} (hcommand : l.command = .executeExport params)
      (hsession : s.exportSessions.lookup params.sessionId = some session)
      (hbefore : session.status = .Created) (hcollector : params.recordCollector = .ok records)
      (hsome : records.isEmpty = false)
      (hwrites : Writes session records params.vaultId l.trace (.error e))
      (hout : l.outcome = .error e) :
      SessionMove l s (s.withExport params.sessionId { session with status := .Exporting })
  | exported {params : ExportParams} {session : ExportSession} {path : PathBuf}
      {recordCount : Nat} (hcommand : l.command = .executeExport params)
      (hbefore : s.exportSessionStatus params.sessionId = some .Created)
      (hout : l.outcome = .ok (.exported path recordCount)) (hstatus : session.status = .Completed) :
      SessionMove l s (s.withExport params.sessionId session)
  | cancelledExport {id : Uuid} {session : ExportSession}
      (hcommand : l.command = .cancelExportSession id) (hout : l.outcome = .ok .cancelled)
      (hstatus : session.status = .Failed) : SessionMove l s (s.withExport id session)

variable {l : SessionLabel} {s s' : ImportExportService}

theorem move_createImportSession {source : ImportSource} {filePath : PathBuf}
    {decryptPassword : Option String} {csvMapping : Option CsvColumnMapping} {importAsNotes : Bool}
    (hcommand : l.command = .createImportSession source filePath decryptPassword csvMapping
      importAsNotes)
    (hreturns : (do
      let (created, s') ← s.createImportSession source filePath decryptPassword csvMapping
        importAsNotes
      return (created.map SessionAnswer.created, s')).Returns l.trace (l.outcome, s')) :
    SessionMove l s s' := by
  rcases hreturns with ⟨id, t, htrace, hrest⟩
  rcases hrest with ⟨createdAt, t', ht, -, hvalue⟩
  have hout : l.outcome = .ok (.created id) := congrArg Prod.fst hvalue
  have hs' : s' = s.withImport id _ := congrArg Prod.snd hvalue
  rw [hs']
  refine .createdImport ⟨_, _, _, _, _, hcommand⟩ hout ⟨_, ?_, rfl⟩ rfl
  rw [htrace]
  exact List.mem_cons_self

omit [Codec] in
/-- The validation of a session that was just created ends in one of two statuses. -/
theorem validateImportFile_created [TextPatterns] {sessions sessions' : ImportSessions} {id : Uuid}
    {session : ImportSession} {trace : List (Event TransferI)}
    {validated : Except ImportExportError ImportPreview}
    (hsession : sessions.lookup id = some session) (hcreated : session.status = .Created)
    (hreturns : (validateImportFile sessions id).Returns trace (validated, sessions')) :
    (∃ e, validated = .error e ∧
      sessions' = sessions.insert id { session with status := .Failed }) ∨
    ∃ preview session', validated = .ok preview ∧ session'.status = .Validated ∧
      sessions' = sessions.insert id session' := by
  unfold validateImportFile at hreturns
  rw [hsession] at hreturns
  simp only [hcreated, ne_eq, not_true_eq_false, if_false] at hreturns
  rcases (Prog.returns_bind _ _ _ _).mp hreturns with ⟨t₁, t₂, parsed, -, -, hrest⟩
  cases parsed with
  | error e =>
      have hvalue := hrest.2
      exact Or.inl ⟨e, congrArg Prod.fst hvalue, congrArg Prod.snd hvalue⟩
  | ok items =>
      rcases (Prog.returns_bind _ _ _ _).mp hrest with ⟨u₁, u₂, csvHeaders, -, -, hlast⟩
      have hvalue := hlast.2
      exact Or.inr ⟨_, _, congrArg Prod.fst hvalue, rfl, congrArg Prod.snd hvalue⟩

theorem move_validateImportFile [TextPatterns] {id : Uuid}
    (hcommand : l.command = .validateImportFile id)
    (hreturns : (do
      let (validated, s') ← s.validateImportFile id
      return (validated.map SessionAnswer.validated, s')).Returns l.trace (l.outcome, s')) :
    SessionMove l s s' := by
  unfold ImportExportService.validateImportFile at hreturns
  cases hsession : s.importSessions.lookup id with
  | none =>
      rw [hsession] at hreturns
      -- a session that is not there is refused, and nothing changes
      have hvalue := hreturns.2
      have hout : l.outcome = .error (.SessionNotFound id) := congrArg Prod.fst hvalue
      have hs' : s' = s := congrArg Prod.snd hvalue
      rw [hs']
      exact .refused hout (Or.inl trivial)
  | some session =>
      rw [hsession] at hreturns
      have hstatus : s.importSessionStatus id = some session.status := by
        unfold ImportExportService.importSessionStatus
        rw [hsession]
        rfl
      -- the session is in its first status, or it is refused
      by_cases hcreated : session.status = .Created
      · rw [hcreated] at hstatus
        by_cases hparser : session.source ∈ s.parserRegistry
        · simp only [hparser, not_true_eq_false, and_false, if_false] at hreturns
          -- the parser ran, and the session has its result
          rcases (Prog.returns_bind _ _ _ _).mp hreturns with ⟨t₁, t₂, result, -, hinner, hlast⟩
          rcases (Prog.returns_bind _ _ _ _).mp hinner with ⟨u₁, u₂, ⟨validated, sessions'⟩, -,
            hvalidated, hvalue⟩
          have hresult := hvalue.2
          have hlast := hlast.2
          rw [hresult] at hlast
          have hs' : s' = { s with importSessions := sessions' } := congrArg Prod.snd hlast
          have hout : l.outcome = validated.map SessionAnswer.validated := congrArg Prod.fst hlast
          rcases validateImportFile_created hsession hcreated hvalidated with
            ⟨e, hvalidated, hsessions⟩ | ⟨preview, session', hvalidated, hnext, hsessions⟩
          · rw [hvalidated] at hout
            rw [hs', hsessions]
            exact .unparsed hcommand hstatus hout rfl
          · rw [hvalidated] at hout
            rw [hs', hsessions]
            exact .validated hcommand hstatus hout hnext
        · simp only [hcreated, hparser, not_false_eq_true, and_self, if_true] at hreturns
          have hvalue := hreturns.2
          -- no parser for its source
          have hs' : s' = s.withImport id { session with status := .Validating } :=
            congrArg Prod.snd hvalue
          rw [hs']
          exact .unsupported hcommand hstatus (congrArg Prod.fst hvalue) hparser rfl
      · unfold validateImportFile at hreturns
        simp only [hsession, hcreated, false_and, if_false, ne_eq, not_false_eq_true, if_true] at hreturns
        have hvalue := hreturns.2
        have hs' : s' = s := congrArg Prod.snd hvalue
        rw [hs']
        exact .refused (congrArg Prod.fst hvalue) (Or.inl trivial)

theorem move_executeImport [Unicode] {params : ImportParams}
    (hcommand : l.command = .executeImport params)
    (hvalue : (l.outcome, s') =
      ((s.executeImport params).1.map fun handed => SessionAnswer.imported handed.1 handed.2,
        (s.executeImport params).2)) : SessionMove l s s' := by
  have hout := congrArg Prod.fst hvalue
  have hs' := congrArg Prod.snd hvalue
  unfold ImportExportService.executeImport executeImport at hout hs'
  cases hsession : s.importSessions.lookup params.sessionId with
  | none =>
      simp only [hsession] at hout hs'
      rw [hs']
      exact .refused hout (Or.inl trivial)
  | some session =>
      by_cases hvalidated : session.status = .Validated
      · simp only [hsession, hvalidated, ne_eq, not_true_eq_false, if_false] at hout hs'
        have hstatus : s.importSessionStatus params.sessionId = some .Validated := by
          unfold ImportExportService.importSessionStatus
          rw [hsession, ← hvalidated]
          rfl
        rw [hs']
        exact .imported hcommand hstatus hout rfl
      · simp only [hsession, hvalidated, ne_eq, not_false_eq_true, if_true] at hout hs'
        rw [hs']
        exact .refused hout (Or.inl trivial)

theorem move_cancelImport {id : Uuid} (hcommand : l.command = .cancelImport id)
    (hvalue : (l.outcome, s') =
      ((s.cancelImport id).1.map fun _ => SessionAnswer.cancelled, (s.cancelImport id).2)) :
    SessionMove l s s' := by
  have hout := congrArg Prod.fst hvalue
  have hs' := congrArg Prod.snd hvalue
  unfold ImportExportService.cancelImport at hout hs'
  cases hsession : s.importSessions.lookup id with
  | none =>
      simp only [hsession] at hout hs'
      rw [hs']
      exact .refused hout (Or.inl trivial)
  | some session =>
      simp only [hsession] at hout hs'
      rw [hs']
      exact .cancelledImport hcommand hout rfl

theorem move_cancelExportSession {id : Uuid} (hcommand : l.command = .cancelExportSession id)
    (hvalue : (l.outcome, s') =
      ((s.cancelExportSession id).1.map fun _ => SessionAnswer.cancelled,
        (s.cancelExportSession id).2)) : SessionMove l s s' := by
  have hout := congrArg Prod.fst hvalue
  have hs' := congrArg Prod.snd hvalue
  unfold ImportExportService.cancelExportSession at hout hs'
  cases hsession : s.exportSessions.lookup id with
  | none =>
      simp only [hsession] at hout hs'
      rw [hs']
      exact .refused hout (Or.inl trivial)
  | some session =>
      simp only [hsession] at hout hs'
      rw [hs']
      exact .cancelledExport hcommand hout rfl

omit [Codec] [Crypto] [Argon2] [ExportFormats] in
/-- A new export session has the identifier that was drawn for it. -/
theorem createExportSession_draws {scope : ExportScope} {format : ExportFormat}
    {password : String} {path : PathBuf} {trace : List (Event TransferI)} {session : ExportSession}
    (hreturns : (OakKeyring.createExportSession scope format password path).run.Returns trace
      (.ok session)) :
    (⟨.vault .newUuid, session.id⟩ : Event TransferI) ∈ trace ∧ session.status = .Created := by
  -- a new session is stored under a fresh id
  have hnew : ∀ {t : List (Event TransferI)}, (do
      let id ← fresh
      let createdAt ← now
      return ({
        id := id
        scope := scope
        format := format
        exportPassword := password
        outputPath := path
        status := .Created
        recordCount := 0
        encryptedSize := none
        createdAt := createdAt
        completedAt := none } : ExportSession) : TransferM ExportSession).run.Returns t
          (.ok session) →
      (⟨.vault .newUuid, session.id⟩ : Event TransferI) ∈ t ∧ session.status = .Created := by
    rintro t ⟨id, t', ht, createdAt, t'', ht', -, hvalue⟩
    rw [Except.ok.inj hvalue, ht]
    exact ⟨List.mem_cons_self, rfl⟩
  cases format with
  | Okb =>
      rcases returns_ok_bind hreturns with ⟨t₁, t₂, _, ht, -, hrest⟩
      rcases returns_ok_bind hrest with ⟨u₁, u₂, _, hu, -, hlast⟩
      rw [ht, hu]
      have hdrawn := hnew hlast
      exact ⟨List.mem_append_right _ (List.mem_append_right _ hdrawn.1), hdrawn.2⟩
  | Csv =>
      rcases returns_ok_bind hreturns with ⟨t₁, t₂, _, ht, -, hlast⟩
      rw [ht]
      have hdrawn := hnew hlast
      exact ⟨List.mem_append_right _ hdrawn.1, hdrawn.2⟩

theorem move_createExportSession {scope : ExportScope} {format : ExportFormat}
    {password : String} {path : PathBuf}
    (hcommand : l.command = .createExportSession scope format password path)
    (hreturns : (do
      let (created, s') ← s.createExportSession scope format password path
      return (created.map SessionAnswer.created, s')).Returns l.trace (l.outcome, s')) :
    SessionMove l s s' := by
  rcases (Prog.returns_bind _ _ _ _).mp hreturns with ⟨t₁, t₂, result, htrace, hinner, hlast⟩
  rcases (Prog.returns_bind _ _ _ _).mp hinner with ⟨u₁, u₂, created, ht₁, hcreated, hvalue⟩
  have hlast := hlast.2
  cases created with
  | error e =>
      rw [hvalue.2] at hlast
      have hs' : s' = s := congrArg Prod.snd hlast
      rw [hs']
      refine .refused (congrArg Prod.fst hlast) (Or.inr ?_)
      rw [hcommand]
      rfl
  | ok session =>
      rw [hvalue.2] at hlast
      have hs' : s' = s.withExport session.id session := congrArg Prod.snd hlast
      rcases createExportSession_draws hcreated with ⟨hdraws, hstatus⟩
      rw [hs']
      refine .createdExport ⟨_, _, _, _, hcommand⟩ (congrArg Prod.fst hlast) ⟨_, ?_, rfl⟩ hstatus
      rw [htrace, ht₁]
      exact List.mem_append_left _ (List.mem_append_left _ hdraws)

/-- An export of a new session with records answers what its writer does. -/
theorem writes_executeExport {params : ExportParams} {session : ExportSession}
    {records : List ExportRecord} {trace : List (Event TransferI)}
    {exported : Except ImportExportError (PathBuf × Nat)}
    (hsession : s.exportSessions.lookup params.sessionId = some session)
    (hcreated : session.status = .Created) (hcollector : params.recordCollector = .ok records)
    (hsome : records.isEmpty = false)
    (hreturns : (s.executeExport params).Returns trace (exported, s')) :
    (∃ e, Writes session records params.vaultId trace (.error e) ∧ exported = .error e ∧
      s' = s.withExport params.sessionId { session with status := .Exporting }) ∨
    ∃ size after, Writes session records params.vaultId trace (.ok size) ∧
      exported = .ok (session.outputPath, records.length) ∧ after.status = .Completed ∧
      s' = s.withExport params.sessionId after := by
  unfold ImportExportService.executeExport at hreturns
  rw [hsession] at hreturns
  simp only [hcreated, hcollector, hsome, ne_eq, not_true_eq_false, Bool.false_eq_true,
    if_false] at hreturns
  rcases (Prog.returns_bind _ _ _ _).mp hreturns with ⟨v₁, v₂, exportedAt, htrace, hnow, hrest⟩
  -- the time is read before anything is written
  have hv₁ := (Prog.returns_perform _ _ _).mp hnow
  rcases (Prog.returns_bind _ _ _ _).mp hrest with ⟨u₁, u₂, written, hu, hwrites, hend⟩
  -- only the file of the session's format is written
  have hwritten : Writes session records params.vaultId trace written := by
    refine ⟨exportedAt, u₁, u₂, ?_, hwrites⟩
    rw [htrace, hv₁, hu]
    rfl
  cases written with
  | error e =>
      have hvalue := hend.2
      exact Or.inl ⟨e, hwritten, congrArg Prod.fst hvalue, congrArg Prod.snd hvalue⟩
  | ok size =>
      rcases (Prog.returns_bind _ _ _ _).mp hend with ⟨x₁, x₂, completedAt, -, -, -, hvalue⟩
      exact Or.inr ⟨size, _, hwritten, congrArg Prod.fst hvalue, rfl, congrArg Prod.snd hvalue⟩

theorem move_executeExport {params : ExportParams} (hcommand : l.command = .executeExport params)
    (hreturns : (do
      let (exported, s') ← s.executeExport params
      return (exported.map fun written : PathBuf × Nat =>
        SessionAnswer.exported written.1 written.2, s')).Returns l.trace (l.outcome, s')) :
    SessionMove l s s' := by
  rcases (Prog.returns_bind _ _ _ _).mp hreturns with ⟨t₁, t₂, result, htrace, hinner, hlast⟩
  -- the command makes no call beyond those of the export
  have htrace : l.trace = t₁ := by
    rw [htrace, hlast.1, List.append_nil]
  have hlast := hlast.2
  have hexported := hinner
  unfold ImportExportService.executeExport at hinner
  cases hsession : s.exportSessions.lookup params.sessionId with
  | none =>
      rw [hsession] at hinner
      rw [hinner.2] at hlast
      have hs' : s' = s := congrArg Prod.snd hlast
      rw [hs']
      exact .refused (congrArg Prod.fst hlast) (Or.inl trivial)
  | some session =>
      rw [hsession] at hinner
      by_cases hcreated : session.status = .Created
      · have hstatus : s.exportSessionStatus params.sessionId = some .Created := by
          unfold ImportExportService.exportSessionStatus
          rw [hsession, ← hcreated]
          rfl
        simp only [hcreated, ne_eq, not_true_eq_false, if_false] at hinner
        -- the records are collected, or the export stops here
        cases hcollector : params.recordCollector with
        | error reason =>
            rw [hcollector] at hinner
            rw [hinner.2] at hlast
            have hs' := congrArg Prod.snd hlast
            dsimp only at hs'
            rw [hs']
            exact .uncollected hcommand hsession hcreated hcollector (congrArg Prod.fst hlast)
        | ok records =>
            simp only [hcollector] at hinner
            -- nothing is written of an empty collection
            cases hempty : records.isEmpty with
            | true =>
                simp only [hempty, if_true] at hinner
                rw [hinner.2] at hlast
                have hs' := congrArg Prod.snd hlast
                dsimp only at hs'
                rw [hs']
                exact .nothingToExport hcommand hstatus (congrArg Prod.fst hlast) rfl
            | false =>
                have hs' : s' = result.2 := congrArg Prod.snd hlast
                have hout := congrArg Prod.fst hlast
                -- the file is written, or the writes say why not
                rcases writes_executeExport hsession hcreated hcollector hempty hexported with
                  ⟨e, hwritten, hresult, hleft⟩ | ⟨size, after, -, hresult, hcompleted, hleft⟩
                · rw [← htrace] at hwritten
                  dsimp only at hout
                  rw [hresult] at hout
                  rw [hs', hleft]
                  exact .unwritten hcommand hsession hcreated hcollector hempty hwritten hout
                · dsimp only at hout
                  rw [hresult] at hout
                  rw [hs', hleft]
                  exact .exported hcommand hstatus hout hcompleted
      · simp only [hcreated, ne_eq, not_false_eq_true, if_true] at hinner
        rw [hinner.2] at hlast
        have hs' : s' = s := congrArg Prod.snd hlast
        rw [hs']
        exact .refused (congrArg Prod.fst hlast) (Or.inl trivial)

/-- Every operation makes one of the moves. -/
theorem sessionStep.move [TextPatterns] [Unicode] [Parsers] (hstep : sessionStep s l s') :
    SessionMove l s s' := by
  have hreturns := hstep.1
  cases hcommand : l.command with
  | createImportSession source filePath decryptPassword csvMapping importAsNotes =>
      rw [hcommand] at hreturns
      exact move_createImportSession hcommand hreturns
  | validateImportFile id =>
      rw [hcommand] at hreturns
      exact move_validateImportFile hcommand hreturns
  | executeImport params =>
      rw [hcommand] at hreturns
      exact move_executeImport hcommand hreturns.2
  | cancelImport id =>
      rw [hcommand] at hreturns
      exact move_cancelImport hcommand hreturns.2
  | createExportSession scope format password path =>
      rw [hcommand] at hreturns
      exact move_createExportSession hcommand hreturns
  | executeExport params =>
      rw [hcommand] at hreturns
      exact move_executeExport hcommand hreturns
  | cancelExportSession id =>
      rw [hcommand] at hreturns
      exact move_cancelExportSession hcommand hreturns.2

end Moves

/-! ## The life of a session -/

/-- The moves of an import session. -/
inductive ImportNext : Option ImportSessionStatus → ImportSessionStatus → Prop
  | create : ImportNext none .Created
  | validate : ImportNext (some .Created) .Validated
  | fail : ImportNext (some .Created) .Failed
  | complete : ImportNext (some .Validated) .Completed
  | cancel {before : Option ImportSessionStatus} (hcompleted : before ≠ some .Completed)
      (hfailed : before ≠ some .Failed) : ImportNext before .Cancelled

/-- The moves of an export session; a cancelled one counts as failed. -/
inductive ExportNext : Option ExportSessionStatus → ExportSessionStatus → Prop
  | create : ExportNext none .Created
  | complete : ExportNext (some .Created) .Completed
  | fail : ExportNext (some .Created) .Failed
  | cancel {before : Option ExportSessionStatus} (hcompleted : before ≠ some .Completed) :
      ExportNext before .Failed

theorem ImportNext.finished {before after : ImportSessionStatus}
    (h : ImportNext (some before) after) (hfinished : before.Finished) : after = before := by
  cases h with
  | validate => exact hfinished.elim
  | fail => exact hfinished.elim
  | complete => exact hfinished.elim
  | cancel hcompleted hfailed =>
      cases before with
      | Cancelled => rfl
      | Completed => exact absurd rfl hcompleted
      | Failed => exact absurd rfl hfailed
      | Created => exact hfinished.elim
      | Validating => exact hfinished.elim
      | Validated => exact hfinished.elim
      | Importing => exact hfinished.elim

theorem ExportNext.finished {before after : ExportSessionStatus}
    (h : ExportNext (some before) after) (hfinished : before.Finished) : after = before := by
  cases h with
  | complete => exact hfinished.elim
  | fail => exact hfinished.elim
  | cancel hcompleted =>
      cases before with
      | Failed => rfl
      | Completed => exact absurd rfl hcompleted
      | Created => exact hfinished.elim
      | Exporting => exact hfinished.elim

theorem ImportNext.at_rest {before : Option ImportSessionStatus} {after : ImportSessionStatus}
    (h : ImportNext before after) : after ≠ .Validating ∧ after ≠ .Importing := by
  cases h <;> exact ⟨nofun, nofun⟩

theorem ExportNext.at_rest {before : Option ExportSessionStatus} {after : ExportSessionStatus}
    (h : ExportNext before after) : after ≠ .Exporting := by
  cases h <;> exact nofun

/-! ## What a safe operation keeps -/

/-- A failure of the operation leaves its session in `Failed`. -/
def SessionCommand.FailedIn (s : ImportExportService) : SessionCommand → Prop
  | createImportSession .. => True
  | validateImportFile id => s.importSessionStatus id = some .Failed
  | executeImport params => s.importSessionStatus params.sessionId = some .Failed
  | cancelImport id => s.importSessionStatus id = some .Failed
  | createExportSession .. => True
  | executeExport params => s.exportSessionStatus params.sessionId = some .Failed
  | cancelExportSession id => s.exportSessionStatus id = some .Failed

/-- No session is left in the middle of an operation. -/
def SessionsAtRest (s : ImportExportService) : Prop :=
  ∀ id, s.importSessionStatus id ≠ some .Validating ∧ s.importSessionStatus id ≠ some .Importing ∧
    s.exportSessionStatus id ≠ some .Exporting

section Safe

variable [Codec] [Crypto] [Argon2] [ExportFormats]

/-- An operation that gives no used identifier again, cancels nothing that is finished, and, as an
export of a new session, gets its records and writes its file. -/
def SessionSafe (e : Step ImportExportService SessionLabel) : Prop :=
  match e.label.command with
  | .createImportSession .. => ∀ id, e.label.Draws id → e.source.importSessionStatus id = none
  | .createExportSession .. => ∀ id, e.label.Draws id → e.source.exportSessionStatus id = none
  | .cancelImport id =>
      e.source.importSessionStatus id ≠ some .Completed ∧
        e.source.importSessionStatus id ≠ some .Failed
  | .cancelExportSession id => e.source.exportSessionStatus id ≠ some .Completed
  | .executeExport params =>
      ∀ session, e.source.exportSessions.lookup params.sessionId = some session →
        session.status = .Created → ∃ records, params.recordCollector = .ok records ∧
          (records.isEmpty = false → ∀ written,
            Writes session records params.vaultId e.label.trace written → ∃ size, written = .ok size)
  | _ => True

variable {l : SessionLabel} {s s' : ImportExportService} {id : Uuid}

/-- What a safe operation does to an import session. -/
theorem SessionMove.import_next (hmove : SessionMove l s s')
    (hsafe : SessionSafe { source := s, label := l, target := s' })
    (hparsers : ∀ source, source ∈ s.parserRegistry) :
    s'.importSessionStatus id = s.importSessionStatus id ∨
      ∃ status, s'.importSessionStatus id = some status ∧
        ImportNext (s.importSessionStatus id) status := by
  unfold SessionSafe at hsafe
  have hsame : s' = s → s'.importSessionStatus id = s.importSessionStatus id ∨
      ∃ status, s'.importSessionStatus id = some status ∧
        ImportNext (s.importSessionStatus id) status := fun heq => Or.inl (by rw [heq])
  -- the session that an operation is about makes its move, the others stay
  have hmoved : ∀ {target : Uuid} {session : ImportSession},
      ImportNext (s.importSessionStatus target) session.status →
      (s.withImport target session).importSessionStatus id = s.importSessionStatus id ∨
        ∃ status, (s.withImport target session).importSessionStatus id = some status ∧
          ImportNext (s.importSessionStatus id) status := by
    intro target session hnext
    rw [ImportExportService.importSessionStatus_withImport]
    by_cases heq : id = target
    · rw [if_pos heq, heq]
      exact Or.inr ⟨_, rfl, hnext⟩
    · rw [if_neg heq]
      exact Or.inl rfl
  cases hmove with
  | refused hout hwhy => exact hsame rfl
  | createdImport hcommand hout hdraws hstatus =>
      rcases hcommand with ⟨source, path, password, mapping, notes, hcommand⟩
      rw [hcommand] at hsafe
      apply hmoved
      rw [hsafe _ hdraws, hstatus]
      exact .create
  | unsupported hcommand hbefore hout hsource hstatus => exact absurd (hparsers _) hsource
  | unparsed hcommand hbefore hout hstatus =>
      apply hmoved
      rw [hbefore, hstatus]
      exact .fail
  | validated hcommand hbefore hout hstatus =>
      apply hmoved
      rw [hbefore, hstatus]
      exact .validate
  | imported hcommand hbefore hout hstatus =>
      apply hmoved
      rw [hbefore, hstatus]
      exact .complete
  | cancelledImport hcommand hout hstatus =>
      rw [hcommand] at hsafe
      apply hmoved
      rw [hstatus]
      exact .cancel hsafe.1 hsafe.2
  | _ => exact Or.inl (ImportExportService.importSessionStatus_withExport _)

/-- What a safe operation does to an export session. -/
theorem SessionMove.export_next (hmove : SessionMove l s s')
    (hsafe : SessionSafe { source := s, label := l, target := s' }) :
    s'.exportSessionStatus id = s.exportSessionStatus id ∨
      ∃ status, s'.exportSessionStatus id = some status ∧
        ExportNext (s.exportSessionStatus id) status := by
  unfold SessionSafe at hsafe
  -- a command that does not touch the session leaves its status
  have hsame : s' = s → s'.exportSessionStatus id = s.exportSessionStatus id ∨
      ∃ status, s'.exportSessionStatus id = some status ∧
        ExportNext (s.exportSessionStatus id) status := fun heq => Or.inl (by rw [heq])
  have hmoved : ∀ {target : Uuid} {session : ExportSession},
      ExportNext (s.exportSessionStatus target) session.status →
      (s.withExport target session).exportSessionStatus id = s.exportSessionStatus id ∨
        ∃ status, (s.withExport target session).exportSessionStatus id = some status ∧
          ExportNext (s.exportSessionStatus id) status := by
    intro target session hnext
    rw [ImportExportService.exportSessionStatus_withExport]
    by_cases heq : id = target
    · rw [if_pos heq, heq]
      exact Or.inr ⟨_, rfl, hnext⟩
    · rw [if_neg heq]
      exact Or.inl rfl
  cases hmove with
  | refused hout hwhy => exact hsame rfl
  | createdExport hcommand hout hdraws hstatus =>
      rcases hcommand with ⟨scope, format, password, path, hcommand⟩
      rw [hcommand] at hsafe
      apply hmoved
      rw [hsafe _ hdraws, hstatus]
      exact .create
  | uncollected hcommand hsession hbefore hcollector hout =>
      rw [hcommand] at hsafe
      -- the collector does not fail in a safe run
      rcases hsafe _ hsession hbefore with ⟨records, hcollected, -⟩
      cases hcollector.symm.trans hcollected
  | nothingToExport hcommand hbefore hout hstatus =>
      apply hmoved
      rw [hbefore, hstatus]
      exact .fail
  | unwritten hcommand hsession hbefore hcollector hsome hwrites hout =>
      rw [hcommand] at hsafe
      -- and neither do the writes
      rcases hsafe _ hsession hbefore with ⟨records, hcollected, hserved⟩
      cases hcollector.symm.trans hcollected
      rcases hserved hsome _ hwrites with ⟨size, hsize⟩
      cases hsize
  | exported hcommand hbefore hout hstatus =>
      apply hmoved
      rw [hbefore, hstatus]
      exact .complete
  | cancelledExport hcommand hout hstatus =>
      rw [hcommand] at hsafe
      apply hmoved
      rw [hstatus]
      exact .cancel hsafe
  | _ => exact Or.inl (ImportExportService.exportSessionStatus_withImport _)

/-- A failure that is not about the session leaves it in `Failed`. -/
theorem SessionMove.failedIn (hmove : SessionMove l s s')
    (hsafe : SessionSafe { source := s, label := l, target := s' })
    (hparsers : ∀ source, source ∈ s.parserRegistry) {e : ImportExportError}
    (hout : l.outcome = .error e) (habout : ¬ e.AboutSession) : l.command.FailedIn s' := by
  unfold SessionSafe at hsafe
  -- an error is no answer
  have hok : ∀ {answer : SessionAnswer}, l.outcome ≠ .ok answer := by
    intro answer hanswer
    cases hout.symm.trans hanswer
  cases hmove with
  | refused hrefused hwhy =>
      -- the refusal is about this session, or about none
      rcases hwhy with hown | hnone
      · rw [Except.error.inj (hout.symm.trans hrefused)] at habout
        exact absurd hown habout
      · cases hcommand : l.command with
        | createImportSession source path password mapping notes => trivial
        | createExportSession scope format password path => trivial
        | _ =>
            rw [hcommand] at hnone
            cases hnone
  | unsupported hcommand hbefore hout' hsource hstatus => exact absurd (hparsers _) hsource
  | unparsed hcommand hbefore hout' hstatus =>
      rw [hcommand]
      simp [SessionCommand.FailedIn, hstatus]
  | nothingToExport hcommand hbefore hout' hstatus =>
      rw [hcommand]
      simp [SessionCommand.FailedIn, hstatus]
  | uncollected hcommand hsession hbefore hcollector hout' =>
      rw [hcommand] at hsafe
      rcases hsafe _ hsession hbefore with ⟨records, hcollected, -⟩
      cases hcollector.symm.trans hcollected
  | unwritten hcommand hsession hbefore hcollector hsome hwrites hout' =>
      rw [hcommand] at hsafe
      rcases hsafe _ hsession hbefore with ⟨records, hcollected, hserved⟩
      cases hcollector.symm.trans hcollected
      rcases hserved hsome _ hwrites with ⟨size, hsize⟩
      cases hsize
  | createdImport hcommand hanswer hdraws hstatus => exact absurd hanswer hok
  | validated hcommand hbefore hanswer hstatus => exact absurd hanswer hok
  | imported hcommand hbefore hanswer hstatus => exact absurd hanswer hok
  | cancelledImport hcommand hanswer hstatus => exact absurd hanswer hok
  | createdExport hcommand hanswer hdraws hstatus => exact absurd hanswer hok
  | exported hcommand hbefore hanswer hstatus => exact absurd hanswer hok
  | cancelledExport hcommand hanswer hstatus => exact absurd hanswer hok

/-- Records are handed out by a validated session, which is completed then. -/
theorem SessionMove.handed (hmove : SessionMove l s s') (hhanded : l.handedOut = some id) :
    s.importSessionStatus id = some .Validated ∧ s'.importSessionStatus id = some .Completed := by
  have himported : ∃ params result records, l.command = .executeImport params ∧
      l.outcome = .ok (.imported result records) ∧ params.sessionId = id := by
    unfold SessionLabel.handedOut at hhanded
    split at hhanded
    · rename_i params result records hcommand hout
      exact ⟨params, result, records, hcommand, hout, Option.some.inj hhanded⟩
    · cases hhanded
  rcases himported with ⟨params, result, records, hcommand, hout, hid⟩
  cases hmove with
  | imported hcommand' hbefore hout' hstatus =>
      rw [hcommand] at hcommand'
      cases hcommand'
      rw [← hid]
      exact ⟨hbefore, by simp [hstatus]⟩
  | refused hrefused hwhy => cases hout.symm.trans hrefused
  | createdImport hcommand' hanswer hdraws hstatus => cases hout.symm.trans hanswer
  | unsupported hcommand' hbefore hfails hsource hstatus => cases hout.symm.trans hfails
  | unparsed hcommand' hbefore hfails hstatus => cases hout.symm.trans hfails
  | validated hcommand' hbefore hanswer hstatus => cases hout.symm.trans hanswer
  | cancelledImport hcommand' hanswer hstatus => cases hout.symm.trans hanswer
  | createdExport hcommand' hanswer hdraws hstatus => cases hout.symm.trans hanswer
  | uncollected hcommand' hsession hbefore hcollector hfails => cases hout.symm.trans hfails
  | nothingToExport hcommand' hbefore hfails hstatus => cases hout.symm.trans hfails
  | unwritten hcommand' hsession hbefore hcollector hsome hwrites hfails =>
      cases hout.symm.trans hfails
  | exported hcommand' hbefore hanswer hstatus => cases hout.symm.trans hanswer
  | cancelledExport hcommand' hanswer hstatus => cases hout.symm.trans hanswer

omit [Codec] [Crypto] [Argon2] [ExportFormats] in
/-- A run has one answer of the writer. -/
theorem Writes.unique [Codec] [Crypto] [Argon2] [ExportFormats] {session : ExportSession}
    {records : List ExportRecord} {vaultId : String} {trace : List (Event TransferI)}
    {written written' : Except ImportExportError Nat}
    (h : Writes session records vaultId trace written)
    (h' : Writes session records vaultId trace written') : written = written' := by
  rcases h with ⟨exportedAt, t, rest, htrace, hwrites⟩
  rcases h' with ⟨exportedAt', t', rest', htrace', hwrites'⟩
  have heq := htrace.symm.trans htrace'
  injection heq with hevent hrest
  cases hevent
  exact (hwrites.unique hwrites' hrest).2

/-- An export that is answered got its records and wrote its file. -/
theorem SessionSafe.of_exported [TextPatterns] [Unicode] [Parsers] {params : ExportParams}
    {answer : SessionAnswer} (hstep : sessionStep s l s')
    (hcommand : l.command = .executeExport params) (hout : l.outcome = .ok answer) :
    SessionSafe { source := s, label := l, target := s' } := by
  unfold SessionSafe
  rw [hcommand]
  intro session hsession hcreated
  have hreturns := hstep.1
  rw [hcommand] at hreturns
  rcases (Prog.returns_bind _ _ _ _).mp hreturns with ⟨t₁, t₂, result, htrace, hexported, hlast⟩
  have htrace : l.trace = t₁ := by
    rw [htrace, hlast.1, List.append_nil]
  have hfirst : l.outcome = result.1.map fun written => SessionAnswer.exported written.1 written.2 :=
    congrArg Prod.fst hlast.2
  -- the command answered, so the export did not fail
  have hfails : ∀ {e : ImportExportError}, result.1 ≠ .error e := by
    intro e hresult
    rw [hfirst, hresult] at hout
    cases hout
  -- the collector has answered as well
  cases hcollector : params.recordCollector with
  | error reason =>
      have hrefused := hexported
      unfold ImportExportService.executeExport at hrefused
      rw [hsession] at hrefused
      simp only [hcreated, hcollector, ne_eq, not_true_eq_false, if_false] at hrefused
      exact absurd (congrArg Prod.fst hrefused.2) hfails
  | ok records =>
      refine ⟨records, rfl, ?_⟩
      intro hsome written hwrites
      dsimp only at hwrites
      rw [htrace] at hwrites
      rcases writes_executeExport hsession hcreated hcollector hsome hexported with
        ⟨e, -, hresult, -⟩ | ⟨size, after, hwritten, -, -, -⟩
      · exact absurd hresult hfails
      · exact ⟨size, hwrites.unique hwritten⟩

theorem SessionMove.parserRegistry (hmove : SessionMove l s s') :
    s'.parserRegistry = s.parserRegistry := by
  cases hmove <;> rfl

end Safe

/-! ## Runs -/

section Runs

variable [Codec] [Crypto] [Argon2] [ExportFormats] [TextPatterns] [Unicode] [Parsers]

/-- The sessions of a run live as they should. -/
structure SessionsFollow (es : List (Step ImportExportService SessionLabel)) : Prop where
  imports : ∀ done rest u, es = done ++ rest → Run sessionStep .new done u → ∀ id status,
    u.importSessionStatus id = some status → status.Finished →
      ∀ w ∈ visited u rest, w.importSessionStatus id = some status
  exports : ∀ done rest u, es = done ++ rest → Run sessionStep .new done u → ∀ id status,
    u.exportSessionStatus id = some status → status.Finished →
      ∀ w ∈ visited u rest, w.exportSessionStatus id = some status
  failures : ∀ e ∈ es, ∀ error, e.label.outcome = .error error → ¬ error.AboutSession →
    e.label.command.FailedIn e.target
  atRest : ∀ u ∈ visited .new es, SessionsAtRest u
  once : (es.filterMap fun e => e.label.handedOut).Nodup

variable {s s' : ImportExportService} {es : List (Step ImportExportService SessionLabel)}

/-- Every format has a parser, and no session is in the middle of an operation. -/
structure SessionsInv (s : ImportExportService) : Prop where
  parsers : ∀ source, source ∈ s.parserRegistry
  rest : SessionsAtRest s

omit [Codec] [Crypto] [Argon2] [ExportFormats] [TextPatterns] [Unicode] [Parsers] in
theorem sessionsInv_new : SessionsInv .new where
  parsers := by
    intro source
    cases source <;> decide
  rest := fun _ => ⟨nofun, nofun, nofun⟩

theorem SessionsInv.step {e : Step ImportExportService SessionLabel} (h : SessionsInv e.source)
    (hstep : sessionStep e.source e.label e.target) (hsafe : SessionSafe e) :
    SessionsInv e.target := by
  have hmove := hstep.move
  refine ⟨?_, ?_⟩
  · rw [hmove.parserRegistry]
    exact h.parsers
  · intro id
    rcases h.rest id with ⟨hvalidating, himporting, hexporting⟩
    have himports : e.target.importSessionStatus id ≠ some .Validating ∧
        e.target.importSessionStatus id ≠ some .Importing := by
      rcases hmove.import_next hsafe h.parsers with hsame | ⟨status, hstatus, hnext⟩
      · rw [hsame]
        exact ⟨hvalidating, himporting⟩
      · rw [hstatus]
        rcases hnext.at_rest with ⟨hnotValidating, hnotImporting⟩
        exact ⟨fun heq => hnotValidating (Option.some.inj heq),
          fun heq => hnotImporting (Option.some.inj heq)⟩
    refine ⟨himports.1, himports.2, ?_⟩
    rcases hmove.export_next hsafe with hsame | ⟨status, hstatus, hnext⟩
    · rw [hsame]
      exact hexporting
    · rw [hstatus]
      exact fun heq => hnext.at_rest (Option.some.inj heq)

/-- A finished import session stays as it is. -/
theorem import_finished_stays (hrun : Run sessionStep s es s') (hinv : SessionsInv s)
    (hsafe : ∀ e ∈ es, SessionSafe e) {id : Uuid} {status : ImportSessionStatus}
    (hstatus : s.importSessionStatus id = some status) (hfinished : status.Finished) :
    ∀ w ∈ visited s es, w.importSessionStatus id = some status := by
  have hall : ∀ w ∈ visited s es, SessionsInv w ∧ w.importSessionStatus id = some status := by
    refine hrun.invariant ⟨hinv, hstatus⟩ hsafe ?_
    rintro e hstep hC ⟨hsource, hkept⟩
    refine ⟨hsource.step hstep hC, ?_⟩
    rcases hstep.move.import_next hC hsource.parsers with hsame | ⟨after, hafter, hnext⟩
    · exact hsame.trans hkept
    · rw [hkept] at hnext
      rw [hafter, hnext.finished hfinished]
  exact fun w hw => (hall w hw).2

theorem export_finished_stays (hrun : Run sessionStep s es s')
    (hsafe : ∀ e ∈ es, SessionSafe e) {id : Uuid} {status : ExportSessionStatus}
    (hstatus : s.exportSessionStatus id = some status) (hfinished : status.Finished) :
    ∀ w ∈ visited s es, w.exportSessionStatus id = some status := by
  refine hrun.invariant hstatus hsafe ?_
  intro e hstep hC hkept
  rcases hstep.move.export_next hC with hsame | ⟨after, hafter, hnext⟩
  · exact hsame.trans hkept
  · rw [hkept] at hnext
    rw [hafter, hnext.finished hfinished]

/-- The sessions whose records were handed out are completed, each once. -/
structure HandedOut (done : List (Step ImportExportService SessionLabel))
    (s : ImportExportService) : Prop where
  inv : SessionsInv s
  completed : ∀ id ∈ done.filterMap fun e => e.label.handedOut,
    s.importSessionStatus id = some .Completed
  once : (done.filterMap fun e => e.label.handedOut).Nodup

theorem handedOut_run (hrun : Run sessionStep .new es s') (hsafe : ∀ e ∈ es, SessionSafe e) :
    HandedOut es s' := by
  refine (hrun.restrict hsafe).history (P := HandedOut) ⟨sessionsInv_new, nofun, List.nodup_nil⟩ ?_
  rintro done e ⟨hstep, hC⟩ ⟨hinv, hcompleted, honce⟩
  have hmove := hstep.move
  -- what was handed out before stays completed
  have hkept : ∀ id ∈ done.filterMap fun e => e.label.handedOut,
      e.target.importSessionStatus id = some .Completed := by
    intro id hid
    have hone : Run sessionStep e.source [e] e.target := Run.of_step hstep (Run.nil _)
    have hsafeOne : ∀ e' ∈ [e], SessionSafe e' := by
      intro e' he'
      rw [List.mem_singleton.mp he']
      exact hC
    exact import_finished_stays hone hinv hsafeOne (hcompleted id hid) trivial _ hone.last_mem
  refine ⟨hinv.step hstep hC, ?_, ?_⟩
  -- the session that is handed out now was not handed out before
  · intro id hid
    rw [List.filterMap_append, List.mem_append] at hid
    rcases hid with hold | hnew
    · exact hkept id hold
    · rw [List.filterMap_cons] at hnew
      cases hhanded : e.label.handedOut with
      | none =>
          rw [hhanded] at hnew
          cases hnew
      | some given =>
          rw [hhanded] at hnew
          rw [List.mem_singleton.mp hnew]
          exact (hmove.handed hhanded).2
  · rw [List.filterMap_append, List.filterMap_cons]
    cases hhanded : e.label.handedOut with
    | none => simpa using honce
    | some given =>
        have hvalidated := (hmove.handed hhanded).1
        refine List.nodup_append.mpr ⟨honce, List.nodup_singleton _, ?_⟩
        intro id hid other hother heq
        rw [heq, List.mem_singleton.mp hother] at hid
        cases (hcompleted given hid).symm.trans hvalidated

/-- In a run whose operations are safe the sessions follow their life. -/
theorem sessions_follow_state_machine (hrun : Run sessionStep .new es s')
    (hsafe : ∀ e ∈ es, SessionSafe e) : SessionsFollow es := by
  have hinv : ∀ u ∈ visited .new es, SessionsInv u :=
    hrun.invariant sessionsInv_new hsafe fun e hstep hC hsource => hsource.step hstep hC
  have hsources : ∀ e ∈ es, SessionsInv e.source :=
    hrun.invariant_source sessionsInv_new hsafe fun e hstep hC hsource => hsource.step hstep hC
  have hpart : ∀ done rest u, es = done ++ rest → Run sessionStep .new done u →
      Run sessionStep u rest s' ∧ SessionsInv u ∧ ∀ e ∈ rest, SessionSafe e := by
    intro done rest u hes hdone
    rw [hes] at hrun hsafe
    have hstart := hdone.invariant sessionsInv_new
      (fun e he => hsafe e (List.mem_append_left _ he))
      fun e hstep hC hsource => hsource.step hstep hC
    exact ⟨hdone.rest hrun, hstart u hdone.last_mem,
      fun e he => hsafe e (List.mem_append_right _ he)⟩
  refine ⟨?_, ?_, ?_, ?_, ?_⟩
  · intro done rest u hes hdone id status hstatus hfinished
    rcases hpart done rest u hes hdone with ⟨hrest, hstart, hsafeRest⟩
    exact import_finished_stays hrest hstart hsafeRest hstatus hfinished
  · intro done rest u hes hdone id status hstatus hfinished
    rcases hpart done rest u hes hdone with ⟨hrest, -, hsafeRest⟩
    exact export_finished_stays hrest hsafeRest hstatus hfinished
  · intro e he error hout habout
    exact (hrun.step_of_mem he).move.failedIn (hsafe e he) (hsources e he).parsers hout habout
  · exact fun u hu => (hinv u hu).rest
  · exact (handedOut_run hrun hsafe).once

end Runs

/-! ## An export to a full disk -/

namespace DiskFull

def sessionId : Uuid :=
  Uuid.filled 1

def path : PathBuf where
  absolute := true
  components := ["tmp", "out.csv"]

def record : ExportRecord where
  id := "1"
  credentialType := "secure_note"
  name := "note"
  username := none
  password := none
  url := none
  notes := none
  tags := none
  isFavorite := none
  expiresAt := none
  publicKey := none
  privateKey := none
  passphrase := none
  appId := none
  secretKey := none

abbrev formats : ExportFormats :=
  referenceExportFormats [[csvHeader, csvRow record]] []

def create : SessionCommand :=
  .createExportSession .All .Csv "" path

def write (records : List ExportRecord) : SessionCommand :=
  .executeExport
    { sessionId := sessionId
      recordCollector := .ok records
      vaultId := "vault" }

section

attribute [local instance] Sample.codec FileImport.crypto KeyStore.Changed.argon2 formats
  FileImport.patterns FileImport.unicode FileImport.parsers

/-- The answers of a disk that may be full. -/
def serve (full : Bool) : Handler TransferI TransferBench
  | b, .writeFile path bytes =>
      if full then (.error "No space left on device (os error 28)", b)
      else
        TransferBench.serve KeyStore.Changed.newSalt KeyStore.Changed.newNonce Sample.instant b
          (.writeFile path bytes)
  | b, c => TransferBench.serve KeyStore.Changed.newSalt KeyStore.Changed.newNonce Sample.instant b c

theorem serve_env {full : Bool} {b b' : TransferBench} {c : TransferCall} {answer : c.Answer}
    (h : (serve full).env b c answer b') : transferEnv b.world c answer b'.world := by
  have hserves : TransferBench.serve KeyStore.Changed.newSalt KeyStore.Changed.newNonce
      Sample.instant b c = (answer, b') → transferEnv b.world c answer b'.world :=
    fun hserve => TransferBench.serve_env hserve
  cases c with
  | writeFile path bytes =>
      have hserve : serve full b (.writeFile path bytes) = (answer, b') := h
      cases full with
      | true =>
          cases hserve
          have hfiles : (fun other => if other = path then b.files path else b.files other) =
              b.files := by
            funext other
            by_cases heq : other = path
            · rw [if_pos heq, heq]
            · rw [if_neg heq]
          refine Or.inr ⟨b.files path, _, ?_, rfl⟩
          calc b.world
              = { b.world with files := b.files } := rfl
            _ = { b.world with
                  files := fun other => if other = path then b.files path else b.files other } := by
                rw [hfiles]
            _ = b.world.writeFile path (b.files path) := rfl
      | false => exact hserves hserve
  | _ => exact hserves h

/-- One operation on the service. -/
def perform (full : Bool) (command : SessionCommand) (s : ImportExportService)
    (b : TransferBench) :
    (Except ImportExportError SessionAnswer × ImportExportService) × TransferBench :=
  run (serve full) (command.program s) b

def step (full : Bool) (command : SessionCommand) (s : ImportExportService) (b : TransferBench) :
    Step ImportExportService SessionLabel where
  source := s
  label :=
    { command := command
      trace := runTrace (serve full) (command.program s) b
      outcome := (perform full command s b).1.1 }
  target := (perform full command s b).1.2

theorem sessionStep_perform (full : Bool) (command : SessionCommand) (s : ImportExportService)
    (b : TransferBench) :
    sessionStep s (step full command s b).label (perform full command s b).1.2 := by
  refine ⟨returns_runTrace (serve full) (command.program s) b, b.world,
    (perform full command s b).2.world, ?_⟩
  exact (path_runTrace (serve full) (command.program s) b).map TransferBench.world
    fun _ _ _ _ hstep => serve_env hstep

def start : TransferBench where
  vault :=
    { tables := .fresh Sample.seed
      uuids := [sessionId]
      nonces := []
      fault := none }
  keystore := KeyStore.Changed.bench false
  files := fun _ => none
  patience := none

/-- The service with the new session, and what is left of the answers. -/
def created : ImportExportService :=
  (perform false create .new start).1.2

def afterCreated : TransferBench :=
  (perform false create .new start).2

/-- Operations in their order, each on what the ones before it left. -/
def steps (full : Bool) : List SessionCommand → ImportExportService → TransferBench →
    List (Step ImportExportService SessionLabel)
  | [], _, _ => []
  | command :: commands, s, b =>
      step full command s b ::
        steps full commands (perform full command s b).1.2 (perform full command s b).2

def afterwards (full : Bool) : List SessionCommand → ImportExportService → TransferBench →
    ImportExportService × TransferBench
  | [], s, b => (s, b)
  | command :: commands, s, b =>
      afterwards full commands (perform full command s b).1.2 (perform full command s b).2

theorem run_steps (full : Bool) (commands : List SessionCommand) (s : ImportExportService)
    (b : TransferBench) :
    Run sessionStep s (steps full commands s b) (afterwards full commands s b).1 := by
  induction commands generalizing s b with
  | nil => exact Run.nil s
  | cons command commands ih => exact Run.cons (sessionStep_perform _ _ _ _) (ih _ _)

/-! ### An import and an export next to each other -/

def importId : Uuid :=
  Uuid.filled 2

/-- The file of an import is there, and the disk has room. -/
def ready : TransferBench :=
  { start with
    vault := { start.vault with uuids := [importId, sessionId] }
    files := (FileImport.bench FileImport.login).files }

def handOut : SessionCommand :=
  .executeImport
    { sessionId := importId
      existingKeys := []
      importAsNotes := false }

def transfers : List SessionCommand :=
  [.createImportSession .Bitwarden FileImport.path none none false, create,
    .validateImportFile importId, handOut, write [record], handOut]

def transferred : List (Step ImportExportService SessionLabel) :=
  steps false transfers .new ready

/-- The records of the file are handed out, once, and the export is written. -/
theorem served_transferred :
    (transferred.map fun e => (e.label.handedOut, e.label.outcome.isOk)) =
        [(none, true), (none, true), (none, true), (some importId, true), (none, true),
          (none, false)] ∧
      ((afterwards false transfers .new ready).2.files path).isSome = true := by
  decide +kernel

/-- Sessions are created where there are none yet, and every export is answered. -/
def checked (e : Step ImportExportService SessionLabel) : Bool :=
  match e.label.command with
  | .createImportSession .. => e.source.importSessions.entries.isEmpty
  | .createExportSession .. => e.source.exportSessions.entries.isEmpty
  | .executeExport _ => e.label.outcome.isOk
  | .validateImportFile _ => true
  | .executeImport _ => true
  | _ => false

theorem safe_of_checked {e : Step ImportExportService SessionLabel}
    (hstep : sessionStep e.source e.label e.target) (hchecked : checked e = true) :
    SessionSafe e := by
  unfold checked at hchecked
  unfold SessionSafe
  cases hcommand : e.label.command with
  | createImportSession source path password mapping notes =>
      rw [hcommand] at hchecked
      intro id _
      unfold ImportExportService.importSessionStatus AList.lookup
      rw [List.isEmpty_iff.mp hchecked]
      rfl
  | createExportSession scope format password path =>
      rw [hcommand] at hchecked
      intro id _
      unfold ImportExportService.exportSessionStatus AList.lookup
      rw [List.isEmpty_iff.mp hchecked]
      rfl
  | executeExport params =>
      rw [hcommand] at hchecked
      -- an export that answers is safe; one that fails has to pass the check
      have hsafe : ∀ answer, e.label.outcome = .ok answer → SessionSafe e :=
        fun answer hout => SessionSafe.of_exported hstep hcommand hout
      unfold SessionSafe at hsafe
      rw [hcommand] at hsafe
      cases hout : e.label.outcome with
      | ok answer => exact hsafe answer hout
      | error error =>
          rw [hout] at hchecked
          cases hchecked
  | validateImportFile id => trivial
  | executeImport params => trivial
  | cancelImport id =>
      rw [hcommand] at hchecked
      cases hchecked
  | cancelExportSession id =>
      rw [hcommand] at hchecked
      cases hchecked

/-- The sessions of the import and of the export follow their life. -/
theorem sessions_follow_transferred :
    ((transferred.map fun e => (e.label.handedOut, e.label.outcome.isOk)) =
        [(none, true), (none, true), (none, true), (some importId, true), (none, true),
          (none, false)] ∧
      ((afterwards false transfers .new ready).2.files path).isSome = true) ∧
      SessionsFollow transferred := by
  refine ⟨served_transferred, sessions_follow_state_machine (run_steps false transfers .new ready) ?_⟩
  have hchecked : transferred.all checked = true := by decide +kernel
  intro e he
  exact safe_of_checked ((run_steps false transfers .new ready).step_of_mem he)
    (List.all_eq_true.mp hchecked e he)

theorem run_full :
    Run sessionStep .new
      [step false create .new start, step true (write [record]) created afterCreated]
      (perform true (write [record]) created afterCreated).1.2 :=
  Run.cons (sessionStep_perform _ _ _ _) (Run.cons (sessionStep_perform _ _ _ _) (Run.nil _))

/-- The disk is full, and the session is left as it was while it was exported. -/
theorem export_unwritten :
    ((perform true (write [record]) created afterCreated).1.1.map fun _ => ()) =
        .error (.FileWriteError (path.withExtension "csv.tmp")
          "No space left on device (os error 28)") ∧
      (perform true (write [record]) created afterCreated).1.2.exportSessionStatus sessionId =
        some .Exporting := by
  decide +kernel

/-- Not every run lets the sessions follow their life. -/
theorem sessions_not_follow :
    ¬ ∀ (es : List (Step ImportExportService SessionLabel)) (s : ImportExportService),
      Run sessionStep .new es s → SessionsFollow es := by
  intro hall
  have hfailed := (hall _ _ run_full).failures
    (step true (write [record]) created afterCreated) (by simp)
  cases hout : (perform true (write [record]) created afterCreated).1.1 with
  | ok answer =>
      have hfails := export_unwritten.1
      rw [hout] at hfails
      cases hfails
  | error e =>
      have hfails := export_unwritten.1
      rw [hout] at hfails
      have hleft := hfailed e hout (by rw [Except.error.inj hfails]; exact id)
      have hstatus : (perform true (write [record]) created afterCreated).1.2.exportSessionStatus sessionId =
        some .Failed := hleft
      cases export_unwritten.2.symm.trans hstatus

end

end DiskFull

end OakKeyring
