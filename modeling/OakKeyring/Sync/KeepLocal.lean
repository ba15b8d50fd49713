import OakKeyring.Sync.Snapshot
import OakKeyring.Sync.TaskSpec

/-!
# What keeping the local record does to the cloud

A device with its store, and other devices that may change the store between its turns. The
resolution uploads the record file alone, with the version after the local one; the entry in
the metadata is never touched, so no other device is told.
-/

namespace OakKeyring

open Effect Transition

/-- A device and the store it works on. -/
structure DeviceState where
  task : SyncTask
  store : CloudStore

inductive DeviceLabel
  | turn (l : TaskLabel)
  | others

/-- The rows of a snapshot are read by primary key. -/
def SyncVaultData.UniqueRows (data : SyncVaultData) : Prop :=
  (data.localRecords.map LocalRecordInfo.recordId).Nodup

/-- The local record is kept: its content is in the cloud under a version above the one it
replaced, the metadata says so, and a device that had the replaced revision downloads it. -/
structure KeptLocal [Codec] [Serde] (content : CloudRecord) (id : String) (s s' : CloudStore)
    (record : CloudRecord) (info : RecordVersionInfo) : Prop where
  file : s'.records id = some record
  holds_content : record = { content with version := record.version }
  entry : s'.entry id = some info
  recorded : info.version = record.version
  newer : ∀ replaced, s.entry id = some replaced → replaced.version < record.version
  downloaded : ∀ (ctx : PipelineContext) (row : LocalRecordInfo) (replaced : RecordVersionInfo),
    s.entry id = some replaced → ctx.remoteMetadata = s'.metadata →
    row.recordId = id → row.syncStatus = .Synced → row.version = replaced.version →
      DetectStage.classify ctx row = .DownloadOnly ∧
        PushStage.acceptedRead (ctx.remoteInfo id) (.ok record) = some record

section

variable [Codec] [Serde]

/-- A record matches the entry made for it. -/
theorem PushStage.matchesInfo_uploadedInfo {now : DateTime} {record : CloudRecord}
    {info : RecordVersionInfo} (h : uploadedInfo now record = .ok info) :
    matchesInfo info record = true ∧ info.version = record.version := by
  unfold uploadedInfo at h
  cases hchecksum : computeChecksum record.encryptedData with
  | error e =>
      rw [hchecksum] at h
      cases h
  | ok checksum =>
      cases hprivate : record.computePrivateMetadataChecksum with
      | error e =>
          rw [hchecksum, hprivate] at h
          cases h
      | ok privateChecksum =>
          rw [hchecksum, hprivate] at h
          cases h
          refine ⟨?_, rfl⟩
          cases privateChecksum <;> simp [matchesInfo, hchecksum, hprivate]

/-- Keeping the local record takes the upload and the entry for it in the metadata. -/
theorem keptLocal_of_entered {content record : CloudRecord} {id : String} {s s' : CloudStore}
    {info : RecordVersionInfo} {now : DateTime} (hfile : s'.records id = some record)
    (hcontent : record = { content with version := record.version })
    (hvalid : record.validate = .ok ()) (hmade : PushStage.uploadedInfo now record = .ok info)
    (hentry : s'.entry id = some info)
    (hnewer : ∀ replaced, s.entry id = some replaced → replaced.version < record.version) :
    KeptLocal content id s s' record info := by
  have hmatches := PushStage.matchesInfo_uploadedInfo hmade
  refine ⟨hfile, hcontent, hentry, hmatches.2, hnewer, ?_⟩
  intro ctx row replaced hreplaced hremote hid hsynced hversion
  have hinfo : ctx.remoteInfo id = some info := by
    unfold PipelineContext.remoteInfo
    rw [hremote]
    exact hentry
  have hbehind : row.version < info.version := by
    have hlt := hnewer replaced hreplaced
    rw [hmatches.2]
    omega
  constructor
  · unfold DetectStage.classify
    rw [hid, hinfo]
    have hne : info.version ≠ row.version := by omega
    simp [hsynced, hne, hbehind]
  · rw [hinfo]
    simp [PushStage.acceptedRead, hvalid, Except.isOk, Except.toBool, hmatches.1]

/-- Without a new entry the local record is not kept. -/
theorem not_keptLocal_of_metadata_eq {content record : CloudRecord} {id : String}
    {s s' : CloudStore} {info : RecordVersionInfo} (hmetadata : s'.metadata = s.metadata) :
    ¬ KeptLocal content id s s' record info := by
  intro hwins
  have hentry : s.entry id = some info := by
    have hsame : s.entry id = s'.entry id := by
      unfold CloudStore.entry
      rw [hmetadata]
    rw [hsame]
    exact hwins.entry
  have hnewer := hwins.newer info hentry
  have hrecorded := hwins.recorded
  omega

end

namespace SyncPipeline

variable [Codec] [Serde]

/-- A conflict of a finished run is a pending row behind its metadata entry. -/
theorem conflict_detected {ctx ctx' : PipelineContext} {tr : StorageTrace}
    {result : PipelineResult} (hfresh : ctx.Fresh)
    (hrun : (execute ctx).Returns tr (ctx', result)) :
    ctx'.localRecords = ctx.localRecords ∧ ∀ id ∈ ctx'.conflicts,
      ∃ row ∈ ctx.localRecords, ∃ info, row.recordId = id ∧ row.syncStatus = .Pending ∧
        ctx'.remoteInfo id = some info ∧ row.version < info.version := by
  rcases (returns_execute _ _ _ _).mp hrun with ⟨read, rest, -, h⟩
  -- what the push stage adds afterwards leaves the three fields alone
  have hsame : ctx'.localRecords = (prepare ctx read).1.localRecords ∧
      ctx'.conflicts = (prepare ctx read).1.conflicts ∧
      ctx'.remoteInfo = (prepare ctx read).1.remoteInfo := by
    by_cases hcontinue : (prepare ctx read).2 = .Continue
    · rw [if_pos hcontinue] at h
      rcases h with ⟨outcome, hpush, -⟩
      have hinfo := (prepare_fresh hfresh read).2.2.2
      rcases (PushStage.returns_execute _ _ _ _ hinfo).mp hpush with
        ⟨us, ds, cs, rest', -, -, -, -, hfinish⟩
      rcases PushStage.finish_frame hfinish with ⟨final, rfl, -⟩
      exact ⟨rfl, rfl, rfl⟩
    · rw [if_neg hcontinue] at h
      rcases h with ⟨-, rfl, -⟩
      exact ⟨rfl, rfl, rfl⟩
  rw [hsame.1, hsame.2.1, hsame.2.2]
  rcases prepare_cases ctx read with ⟨outcome, -, h⟩ | ⟨m, -, -, -, h⟩ | ⟨-, h⟩
  · rw [h]
    refine ⟨rfl, ?_⟩
    simp [hfresh.conflicts]
  · have hframe := DetectStage.remoteMetadata_execute (pulled ctx m)
    have hinfo : (DetectStage.execute (pulled ctx m)).1.remoteInfo = (pulled ctx m).remoteInfo := by
      unfold PipelineContext.remoteInfo
      rw [hframe.1]
    rw [h, hinfo]
    refine ⟨hframe.2.2.1, ?_⟩
    intro id hid
    have hnone : (pulled ctx m).conflicts = [] := hfresh.conflicts
    rw [DetectStage.execute_eq (m := m) rfl, hnone, List.nil_append,
      DetectStage.mem_idsWith] at hid
    rcases hid with ⟨row, hrow, rfl, hconflict⟩
    rcases DetectStage.classify_conflict hconflict with ⟨info, hlookup, hpending, hbehind⟩
    exact ⟨row, hrow, info, rfl, hpending, hlookup, hbehind⟩
  · have hframe := DetectStage.remoteMetadata_execute { ctx with remoteMetadata := none }
    rw [h]
    refine ⟨hframe.2.2.1, ?_⟩
    rw [DetectStage.execute_eq_of_none rfl]
    simp [hfresh.conflicts]

end SyncPipeline

namespace SyncTask

variable [Codec] [Serde]

/-- The turn ran a cycle that found the pending local version `l` of a record behind version
`r` of the metadata. -/
def Detects (t : SyncTask) (l : TaskLabel) (id : Uuid) (localVersion remoteVersion : Nat) : Prop :=
  ∃ rest ctx result, l.trace = StorageOp.listRecords.answered (.ok ()) :: rest ∧
    (SyncPipeline.execute (t.receive l.input).pipelineContext).Returns rest (ctx, result) ∧
    ∃ row ∈ ctx.localRecords, ∃ info, Uuid.parseStr row.recordId = some id ∧
      row.syncStatus = .Pending ∧ row.version = localVersion ∧
      ctx.remoteInfo row.recordId = some info ∧ info.version = remoteVersion

/-! ## Where pending items come from -/

omit [Codec] [Serde] in
/-- Of unique rows, the one found by id is the one that has it. -/
theorem find?_row {rows : List LocalRecordInfo} {row : LocalRecordInfo}
    (hunique : (rows.map LocalRecordInfo.recordId).Nodup) (hrow : row ∈ rows) :
    rows.find? (fun r => r.recordId == row.recordId) = some row := by
  induction rows with
  | nil => cases hrow
  | cons first rows ih =>
      rw [List.map_cons, List.nodup_cons] at hunique
      rcases List.mem_cons.mp hrow with rfl | hrow
      · simp
      · have hne : first.recordId ≠ row.recordId := by
          intro heq
          exact hunique.1 (heq ▸ List.mem_map_of_mem hrow)
        rw [List.find?_cons_of_neg (by simpa using hne)]
        exact ih hunique.2 hrow

/-- An item made from a conflict holds the local version, which is behind the remote one. -/
theorem conflictItem_detected {ctx ctx' : PipelineContext} {tr : StorageTrace}
    {result : PipelineResult} (hfresh : ctx.Fresh)
    (hunique : (ctx.localRecords.map LocalRecordInfo.recordId).Nodup)
    (hrun : (SyncPipeline.execute ctx).Returns tr (ctx', result)) {id : String}
    (hid : id ∈ ctx'.conflicts) {item : ConflictItem} (hitem : conflictItem ctx' id = some item) :
    ∃ row ∈ ctx'.localRecords, ∃ info, Uuid.parseStr row.recordId = some item.recordId ∧
      row.syncStatus = .Pending ∧ row.version = item.currentVersion ∧
      ctx'.remoteInfo row.recordId = some info ∧ item.currentVersion < info.version := by
  rcases SyncPipeline.conflict_detected hfresh hrun with ⟨hrows, hconflicts⟩
  rcases hconflicts id hid with ⟨row, hrow, info, rfl, hpending, hinfo, hbehind⟩
  -- the row of the conflict is the first one of its id
  have hfound : ctx'.localRecords.find? (fun r => r.recordId == row.recordId) = some row := by
    rw [hrows]
    exact find?_row hunique hrow
  have hversion : Uuid.parseStr row.recordId = some item.recordId ∧
      row.version = item.currentVersion := by
    unfold conflictItem at hitem
    rw [hfound] at hitem
    cases hdata : ctx'.conflictDataMap.lookup row.recordId with
    | none => simp [hdata] at hitem
    | some data =>
        cases huuid : Uuid.parseStr row.recordId with
        | none => simp [hdata, huuid] at hitem
        | some uuid =>
            simp only [hdata, huuid, Option.bind_eq_bind, Option.bind_some, Option.pure_def,
              Option.some.injEq] at hitem
            rw [← hitem]
            exact ⟨rfl, rfl⟩
  have hrow' : row ∈ ctx'.localRecords := by
    rw [hrows]
    exact hrow
  exact ⟨row, hrow', info, hversion.1, hpending, hversion.2, hinfo, hversion.2 ▸ hbehind⟩

/-- What a turn may have done to the vault data and to the pending items of a task: the vault
data are kept, and a new item comes from a conflict of the cycle the turn ran. -/
def KeepsItems (t : SyncTask) (tr : StorageTrace) (t' : SyncTask) : Prop :=
  t'.vaultData = t.vaultData ∧ ∀ item ∈ t'.pendingConflicts, item ∈ t.pendingConflicts ∨
    ∃ rest ctx result id, tr = StorageOp.listRecords.answered (.ok ()) :: rest ∧
      (SyncPipeline.execute t.pipelineContext).Returns rest (ctx, result) ∧
      id ∈ ctx.conflicts ∧ conflictItem ctx id = some item

theorem keepsItems_of_eq {t t' : SyncTask} {tr : StorageTrace} (hdata : t'.vaultData = t.vaultData)
    (hpending : ∀ item ∈ t'.pendingConflicts, item ∈ t.pendingConflicts) :
    t.KeepsItems tr t' :=
  ⟨hdata, fun item hitem => Or.inl (hpending item hitem)⟩

omit [Codec] [Serde] in
theorem handleError_keeps (t : SyncTask) (e : SyncError) :
    (t.handleError e).1.vaultData = t.vaultData ∧
      (t.handleError e).1.pendingConflicts = t.pendingConflicts := by
  have hretry : ∀ u : SyncTask, (u.scheduleRetry e).vaultData = u.vaultData ∧
      (u.scheduleRetry e).pendingConflicts = u.pendingConflicts := by
    intro u
    unfold scheduleRetry
    split <;> exact ⟨rfl, rfl⟩
  unfold handleError
  split
  · split
    · exact hretry _
    · exact ⟨rfl, rfl⟩
  · exact ⟨rfl, rfl⟩

omit [Codec] [Serde] in
theorem handlePipelineResult_keeps (t : SyncTask) (outcome : PipelineExecutionOutcome) :
    (t.handlePipelineResult outcome).1.vaultData = t.vaultData ∧
      (t.handlePipelineResult outcome).1.pendingConflicts = t.pendingConflicts := by
  unfold handlePipelineResult
  cases outcome.result with
  | Completed => exact ⟨rfl, rfl⟩
  | NoChanges => exact ⟨rfl, rfl⟩
  | ConflictsDetected ids => exact ⟨rfl, rfl⟩
  | Error e => exact t.handleError_keeps e

theorem runCycle_keepsItems {t t' : SyncTask} {tr : StorageTrace} {events : List SyncEvent}
    (h : (t.runCycle).Returns tr (t', events)) : t.KeepsItems tr t' := by
  rcases (t.returns_runCycle tr _).mp h with ⟨e, rfl, hout⟩ | ⟨rest, ctx, result, rfl, hrun, hout⟩
  · have hkeeps := t.handleError_keeps e
    rw [← hout] at hkeeps
    exact keepsItems_of_eq hkeeps.1 fun item hitem => hkeeps.2 ▸ hitem
  · have hkeeps := (t.storeConflicts ctx).handlePipelineResult_keeps (executionOutcome ctx result)
    rw [← hout] at hkeeps
    have hdata : (t.storeConflicts ctx).vaultData = t.vaultData := by
      unfold storeConflicts
      split <;> rfl
    refine ⟨hkeeps.1.trans hdata, ?_⟩
    intro item hitem
    rw [hkeeps.2] at hitem
    unfold storeConflicts at hitem
    -- the list is replaced by a run that found conflicts, and kept by any other
    split at hitem
    · exact Or.inl hitem
    · right
      rcases List.mem_filterMap.mp hitem with ⟨id, hid, hmade⟩
      exact ⟨rest, ctx, result, id, rfl, hrun, hid, hmade⟩

theorem transitionAndRun_keepsItems {t t' : SyncTask} {trigger : SyncTrigger}
    {tr : StorageTrace} {events : List SyncEvent}
    (h : (t.transitionAndRun trigger).Returns tr (t', events)) : t.KeepsItems tr t' := by
  rcases (t.returns_transitionAndRun trigger tr _).mp h with
    ⟨e, -, -, hout⟩ | ⟨m, u, evs, -, hrun, hout⟩
  · cases hout
    exact keepsItems_of_eq rfl fun _ h => h
  · cases hout
    have hkeeps := runCycle_keepsItems hrun
    exact hkeeps

theorem startCycle_keepsItems {t t' : SyncTask} {trigger : SyncTrigger} {tr : StorageTrace}
    {events : List SyncEvent} (h : (t.startCycle trigger).Returns tr (t', events)) :
    t.KeepsItems tr t' := by
  rcases (t.returns_startCycle trigger tr _).mp h with ⟨-, -, hout⟩ | ⟨-, -, hrun⟩
  · cases hout
    exact keepsItems_of_eq rfl fun _ h => h
  · exact transitionAndRun_keepsItems hrun

theorem loopStep_keepsItems {t t' : SyncTask} {l : TaskLabel} (h : t.loopStep l t') :
    (t.receive l.input).KeepsItems l.trace t' := by
  rcases l with ⟨input, tr, events⟩
  rcases h with ⟨-, h⟩
  cases input with
  | timer =>
      -- a cycle may bring items, each made for a detected conflict
      have hkeeps := transitionAndRun_keepsItems h.2
      exact hkeeps
  | command c =>
      cases c with
      | TriggerSync data => exact startCycle_keepsItems h
      | PullOnly => exact startCycle_keepsItems h
      | ResolveConflict recordId strategy =>
          -- a resolution takes items away and brings none
          rcases uploadsResolved_handleResolveConflict h with ⟨-, pending, rfl, hpending⟩
          exact keepsItems_of_eq rfl hpending
      | ResolveAllConflicts strategy =>
          rcases returns_handleResolveAll h with ⟨-, ⟨pending, rfl, hpending⟩, -⟩
          exact keepsItems_of_eq rfl hpending
      | Pause =>
          cases h.2
          exact keepsItems_of_eq rfl fun _ h => h
      | Resume =>
          cases h.2
          exact keepsItems_of_eq rfl fun _ h => h
      | PushMetadataAtomic m v =>
          rcases (returns_handlePushMetadataAtomic _ _ _ _ _).mp h with ⟨r, -, hout⟩
          cases hout
          exact keepsItems_of_eq rfl fun _ h => h
      | DownloadMetadata =>
          rcases (returns_handleDownloadMetadata _ _ _).mp h with ⟨read, -, hout⟩
          cases hout
          exact keepsItems_of_eq rfl fun _ h => h
      | Shutdown =>
          have htarget : t' = t.handleShutdown.1 := congrArg Prod.fst h.2
          have hkeeps : t.handleShutdown.1.vaultData = t.vaultData ∧
              t.handleShutdown.1.pendingConflicts = t.pendingConflicts := by
            unfold handleShutdown
            dsimp only
            split <;> exact ⟨rfl, rfl⟩
          rw [htarget]
          exact keepsItems_of_eq hkeeps.1 fun item hitem => by rwa [hkeeps.2] at hitem

end SyncTask

/-! ## A device over time -/

namespace DeviceState

variable [Codec] [Serde]

/-- A turn of the device on the store, or any change of the store by others. -/
def step (d : DeviceState) : DeviceLabel → DeviceState → Prop
  | .turn l, d' =>
      d.task.loopStep l d'.task ∧ Path storageEnv d.store l.trace d'.store ∧
        ∀ data, l.input = .command (.TriggerSync (some data)) → data.UniqueRows
  | .others, d' => d'.task = d.task

/-- A device whose task was just started. -/
def fresh (maxRetries : Nat) (store : CloudStore) : DeviceState where
  task := SyncTask.new (SyncStateMachine.new maxRetries)
  store := store

/-- An earlier turn of the run detected the conflict. -/
def Detected (done : List (Step DeviceState DeviceLabel)) (id : Uuid)
    (localVersion remoteVersion : Nat) : Prop :=
  ∃ e ∈ done, ∃ l, e.label = .turn l ∧
    e.source.task.Detects l id localVersion remoteVersion

/-- The turn is a resolution that keeps the local record and reports success for it. -/
def ReportsKept (e : Step DeviceState DeviceLabel) (id : String) (item : ConflictItem) : Prop :=
  ∃ l, e.label = .turn l ∧ item ∈ e.source.task.pendingConflicts ∧
    Uuid.parseStr id = some item.recordId ∧
    ((l.input = .command (.ResolveConflict id .KeepLocal) ∧
        SyncEvent.ConflictResolved id ∈ l.events) ∨
      (l.input = .command (.ResolveAllConflicts .KeepLocal) ∧
        item ∉ e.target.task.pendingConflicts))

/-- The history of a device: its rows are unique, and each of its pending items was detected
with a local version behind the remote one. -/
def ItemsDetected (done : List (Step DeviceState DeviceLabel)) (d : DeviceState) : Prop :=
  (∀ data, d.task.vaultData = some data → data.UniqueRows) ∧
    ∀ item ∈ d.task.pendingConflicts, ∃ remoteVersion,
      Detected done item.recordId item.currentVersion remoteVersion ∧
        item.currentVersion < remoteVersion

omit [Codec] [Serde] in
theorem uniqueRows_pipelineContext {t : SyncTask}
    (h : ∀ data, t.vaultData = some data → data.UniqueRows) :
    (t.pipelineContext.localRecords.map LocalRecordInfo.recordId).Nodup := by
  unfold SyncTask.pipelineContext
  cases hdata : t.vaultData with
  | none => exact List.nodup_nil
  | some data => exact h data hdata

theorem step_itemsDetected {done : List (Step DeviceState DeviceLabel)}
    {e : Step DeviceState DeviceLabel} (hstep : e.source.step e.label e.target)
    (hinv : ItemsDetected done e.source) : ItemsDetected (done ++ [e]) e.target := by
  rcases e with ⟨d, label, d'⟩
  -- what was detected before stays detected
  have hmore : ∀ {id l r}, Detected done id l r →
      Detected (done ++ [{ source := d, label := label, target := d' }]) id l r := by
    intro id l r hdetected
    rcases hdetected with ⟨e, he, hturn⟩
    exact ⟨e, List.mem_append_left _ he, hturn⟩
  -- an item that was there has its detection behind it
  have hold : ∀ item ∈ d.task.pendingConflicts, ∃ remoteVersion,
      Detected (done ++ [{ source := d, label := label, target := d' }]) item.recordId
        item.currentVersion remoteVersion ∧ item.currentVersion < remoteVersion := by
    intro item hitem
    rcases hinv.2 item hitem with ⟨r, hdetected, hbehind⟩
    exact ⟨r, hmore hdetected, hbehind⟩
  cases label with
  | others =>
      have htask : d'.task = d.task := hstep
      constructor
      · intro data hdata
        exact hinv.1 data (htask ▸ hdata)
      · intro item hitem
        exact hold item (htask ▸ hitem)
  | turn l =>
      rcases hstep with ⟨hloop, -, hrows⟩
      have hkeeps := SyncTask.loopStep_keepsItems hloop
      -- the data of the turn have each record once
      have hunique : ∀ data, (d.task.receive l.input).vaultData = some data →
          data.UniqueRows := by
        intro data hdata
        unfold SyncTask.receive at hdata
        split at hdata
        · rename_i data' hinput
          cases hdata
          exact hrows data hinput
        · exact hinv.1 data hdata
      have hpending : (d.task.receive l.input).pendingConflicts = d.task.pendingConflicts := by
        unfold SyncTask.receive
        split <;> rfl
      constructor
      · intro data hdata
        exact hunique data (hkeeps.1 ▸ hdata)
      · intro item hitem
        rcases hkeeps.2 item hitem with hitem | ⟨rest, ctx, result, id, htrace, hrun, hid, hmade⟩
        · exact hold item (hpending ▸ hitem)
        -- a new item: this very turn is the detection
        · rcases SyncTask.conflictItem_detected (SyncTask.pipelineContext_fresh _)
            (uniqueRows_pipelineContext hunique) hrun hid hmade with
            ⟨row, hrow, info, huuid, hrowPending, hversion, hinfo, hbehind⟩
          refine ⟨info.version, ⟨_, List.mem_append_right _ List.mem_cons_self, l, rfl, ?_⟩, hbehind⟩
          exact ⟨rest, ctx, result, htrace, hrun, row, hrow, info, huuid, hrowPending, hversion,
            hinfo, rfl⟩

theorem itemsDetected_of_run {maxRetries : Nat} {s₀ : CloudStore}
    {done : List (Step DeviceState DeviceLabel)} {d : DeviceState}
    (hrun : Run step (fresh maxRetries s₀) done d) : ItemsDetected done d := by
  refine hrun.history (P := ItemsDetected) ⟨?_, ?_⟩ fun _ _ => step_itemsDetected
  · intro data hdata
    cases hdata
  · intro item hitem
    cases hitem

omit [Codec] [Serde] in
/-- Uploads of records leave the metadata as it is. -/
theorem metadata_of_uploadsResolved {t : SyncTask} {tr : StorageTrace} {s s' : CloudStore}
    (huploads : t.UploadsResolved tr) (hpath : Path storageEnv s tr s') :
    s'.metadata = s.metadata := by
  induction tr generalizing s with
  | nil =>
      have hsame : s' = s := hpath
      rw [hsame]
  | cons e tr ih =>
      rcases hpath with ⟨u, hstep, hpath⟩
      have htail : t.UploadsResolved tr := fun e he => huploads e (List.mem_cons_of_mem _ he)
      rcases huploads e List.mem_cons_self with ⟨item, -, id, record, -, -, hcall⟩
      have hhead : u.metadata = s.metadata := by
        rcases e with ⟨c, answer⟩
        have hcall' : c = .writeRecord id { record with version := item.currentVersion + 1 } :=
          hcall
        subst hcall'
        cases hstep with
        | writeRecord => rfl
        | writeRecordFault => rfl
      rw [ih htail hpath, hhead]

/-- A resolution that keeps local records uploads for pending items and does nothing else. -/
theorem uploadsResolved_of_reportsKept {e : Step DeviceState DeviceLabel} {id : String}
    {item : ConflictItem} (hstep : e.source.step e.label e.target)
    (hkept : ReportsKept e id item) :
    ∃ l, e.label = .turn l ∧ e.source.task.UploadsResolved l.trace ∧
      Path storageEnv e.source.store l.trace e.target.store := by
  rcases e with ⟨d, label, d'⟩
  rcases hkept with ⟨l, rfl, -, -, hinput⟩
  rcases hstep with ⟨⟨-, hloop⟩, hpath, -⟩
  refine ⟨l, rfl, ?_, hpath⟩
  rcases hinput with ⟨hinput, -⟩ | ⟨hinput, -⟩
  · rw [hinput] at hloop
    exact (SyncTask.uploadsResolved_handleResolveConflict hloop).1
  · rw [hinput] at hloop
    exact (SyncTask.returns_handleResolveAll hloop).1

/-- No resolution of any run keeps the local record. Every file it uploads has a version that
is at most the remote version of the conflict it resolves, and the metadata entry still
describes the replaced revision. -/
theorem keepLocal_never_wins {maxRetries : Nat} {s₀ : CloudStore}
    {done rest : List (Step DeviceState DeviceLabel)} {e : Step DeviceState DeviceLabel}
    {last : DeviceState} (hrun : Run step (fresh maxRetries s₀) (done ++ e :: rest) last)
    {id : String} {item : ConflictItem} (hkept : ReportsKept e id item) :
    (∀ content record info, ¬ KeptLocal content id e.source.store e.target.store record info) ∧
      ∀ l, e.label = .turn l → ∀ id' record answer,
        (StorageOp.writeRecord id' record).answered answer ∈ l.trace →
        ∃ uuid localVersion remoteVersion, Uuid.parseStr id' = some uuid ∧
          Detected done uuid localVersion remoteVersion ∧
          record.version = localVersion + 1 ∧ record.version ≤ remoteVersion := by
  have hcut := hrun.of_append
  -- the turn makes uploads only, of items that were pending
  rcases uploadsResolved_of_reportsKept hcut.2 hkept with ⟨l, hlabel, huploads, hpath⟩
  have hmetadata := metadata_of_uploadsResolved huploads hpath
  constructor
  · intro content record info
    exact not_keptLocal_of_metadata_eq hmetadata
  · intro l' hlabel' id' record answer hwrite
    have hl : l' = l := by
      rw [hlabel] at hlabel'
      cases hlabel'
      rfl
    rw [hl] at hwrite
    -- each pending item goes back to a detection, whose version was the remote one
    have hitems := itemsDetected_of_run hcut.1
    rcases huploads _ hwrite with ⟨item, hitem, recordId, local', hid, -, hcall⟩
    have hcall' : StorageOp.writeRecord id' record =
        .writeRecord recordId { local' with version := item.currentVersion + 1 } := hcall
    injection hcall' with hids hrecord
    rcases hitems.2 item hitem with ⟨r, hdetected, hbehind⟩
    have hversion : record.version = item.currentVersion + 1 := by
      rw [hrecord]
    refine ⟨item.recordId, item.currentVersion, r, by rw [hids]; exact hid, hdetected, hversion, ?_⟩
    omega

/-- The turn a device makes for a command when the store has no faults. -/
def serveTurn (d : DeviceState) (c : SyncCommand) : Step DeviceState DeviceLabel :=
  let out := run (CloudStore.serve Sample.instant) (d.task.handleCommand c) d.store
  { source := d
    label := .turn
      { input := .command c
        trace := runTrace (CloudStore.serve Sample.instant) (d.task.handleCommand c) d.store
        events := out.1.2 }
    target :=
      { task := out.1.1
        store := out.2 } }

theorem source_serveTurn (d : DeviceState) (c : SyncCommand) : (serveTurn d c).source = d := rfl

theorem step_serveTurn {d : DeviceState} {c : SyncCommand} (hlive : d.task.state ≠ .ShuttingDown)
    (hrows : ∀ data, c = .TriggerSync (some data) → data.UniqueRows) :
    (serveTurn d c).source.step (serveTurn d c).label (serveTurn d c).target := by
  refine ⟨⟨hlive, returns_runTrace _ _ _⟩, CloudStore.path_serve _ _ _, ?_⟩
  intro data hdata
  cases hdata
  exact hrows data rfl

end DeviceState

/-! ### A kept record that loses -/

namespace DeviceState

section

attribute [local instance] Sample.codec Sample.serde

/-- A device with an edit of version 1. -/
def editedRow : SyncVaultData where
  localRecords :=
    [{ recordId := Sample.recordId
       syncStatus := .Pending
       version := 1 }]
  uploads := [Sample.record 1 "BAUG"]
  localMetadataVersion := 2
  lastRemoteMetadata := none
  localVaultToken := "token"

/-- A store that has version 3 of the record. -/
def newerStore : CloudStore :=
  CloudStore.putRecord
    { CloudStore.empty with
      metadata := some (Sample.metadata 3 (Sample.info 3
        "039058c6f2c0cb492c533b0a4d14ef77cc0f78abccced5287d84a1a2011cfb81")) }
    Sample.recordId (Sample.record 3 "AQID")

/-- The cycle that detects the conflict, and the resolution that keeps the local record. -/
def detectTurn : Step DeviceState DeviceLabel :=
  serveTurn (fresh 5 newerStore) (.TriggerSync (some editedRow))

def keepTurn : Step DeviceState DeviceLabel :=
  serveTurn detectTurn.target (.ResolveConflict Sample.recordId .KeepLocal)

/-- The item the cycle leaves. -/
def keptItem : ConflictItem :=
  detectTurn.target.task.pendingConflicts.headD
    { recordId := Uuid.nil
      conflictData := []
      currentVersion := 0 }

/-- What the cycle leaves: an item for the record, and a task that goes on. -/
theorem detectTurn_leaves :
    detectTurn.target.task.pendingConflicts.isEmpty = false ∧
      detectTurn.target.task.state ≠ .ShuttingDown ∧
      Uuid.parseStr Sample.recordId = some keptItem.recordId := by
  decide +kernel

theorem keptItem_pending : keptItem ∈ keepTurn.source.task.pendingConflicts := by
  have hsome := detectTurn_leaves.1
  rw [keepTurn, source_serveTurn, keptItem]
  cases hpending : detectTurn.target.task.pendingConflicts with
  | nil => simp [hpending] at hsome
  | cons item items => exact List.mem_cons_self

theorem detect_keep_run :
    Run step (fresh 5 newerStore) ([detectTurn] ++ [keepTurn]) keepTurn.target := by
  have hdetect : step detectTurn.source detectTurn.label detectTurn.target := by
    refine step_serveTurn (by decide) ?_
    intro data hdata
    cases hdata
    exact List.nodup_singleton _
  have hkeep : step keepTurn.source keepTurn.label keepTurn.target := by
    refine step_serveTurn detectTurn_leaves.2.1 ?_
    intro data hdata
    cases hdata
  have hsource : keepTurn.source = detectTurn.target := by
    rw [keepTurn, source_serveTurn]
  have htail : Run step detectTurn.target [keepTurn] keepTurn.target := by
    rw [← hsource]
    exact Run.of_step hkeep (Run.nil _)
  exact Run.of_step hdetect htail

theorem keepTurn_reportsKept : ReportsKept keepTurn Sample.recordId keptItem := by
  refine ⟨_, rfl, keptItem_pending, detectTurn_leaves.2.2, Or.inl ⟨rfl, ?_⟩⟩
  decide +kernel

/-- The rule at a resolution that reports success. -/
theorem keepLocal_never_wins_edited :
    (∀ content record info, ¬ KeptLocal content Sample.recordId keepTurn.source.store
        keepTurn.target.store record info) ∧
      ∀ l, keepTurn.label = .turn l → ∀ id' record answer,
        (StorageOp.writeRecord id' record).answered answer ∈ l.trace →
        ∃ uuid localVersion remoteVersion, Uuid.parseStr id' = some uuid ∧
          Detected [detectTurn] uuid localVersion remoteVersion ∧
          record.version = localVersion + 1 ∧ record.version ≤ remoteVersion :=
  keepLocal_never_wins detect_keep_run keepTurn_reportsKept

/-- Version 1 is kept against version 3: the file gets version 2, and success is reported. -/
theorem edited_row_not_kept :
    ¬ ∀ maxRetries s₀ done rest e last,
      Run step (fresh maxRetries s₀) (done ++ e :: rest) last →
      ∀ id item l r, ReportsKept e id item → Detected done item.recordId l r → l < r →
        ∃ content record info,
          KeptLocal content id e.source.store e.target.store record info := by
  intro hall
  have hitems := itemsDetected_of_run detect_keep_run.of_append.1
  rcases hitems.2 keptItem keptItem_pending with ⟨r, hdetected, hbehind⟩
  rcases hall 5 newerStore [detectTurn] [] keepTurn keepTurn.target detect_keep_run
    Sample.recordId keptItem _ r keepTurn_reportsKept hdetected hbehind with
    ⟨content, record, info, hwins⟩
  rcases uploadsResolved_of_reportsKept detect_keep_run.of_append.2 keepTurn_reportsKept with
    ⟨l, -, huploads, hpath⟩
  exact not_keptLocal_of_metadata_eq (metadata_of_uploadsResolved huploads hpath) hwins

end

end DeviceState

end OakKeyring
