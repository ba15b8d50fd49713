import OakKeyring.Samples.Vault
import OakKeyring.Executor.SyncData
import OakKeyring.Sync.ConflictQueue

/-!
# What becomes of the pending records of a sync cycle

Detection goes by the statuses of the rows and the push stage by the bodies of the snapshot. A
row whose body was dropped is neither uploaded nor counted as failed.
-/

namespace OakKeyring

open Effect

/-- The record is in exactly one of the two lists. -/
def PipelineContext.Accounted (ctx : PipelineContext) (id : String) : Prop :=
  (id ∈ ctx.uploadedIds ∧ id ∉ ctx.failedIds) ∨ (id ∉ ctx.uploadedIds ∧ id ∈ ctx.failedIds)

section

variable [Codec] [Serde]

namespace SyncPipeline

omit [Serde] in
/-- What the first two stages leave is in one list each. -/
theorem nodup_prepare {ctx : PipelineContext} (hfresh : ctx.Undetected)
    (hrows : (ctx.localRecords.map LocalRecordInfo.recordId).Nodup)
    (read : Except SyncError CloudMetadata) :
    ((prepare ctx read).1.toUpload ++ (prepare ctx read).1.toDownload ++
      (prepare ctx read).1.conflicts).Nodup := by
  rcases prepare_cases ctx read with ⟨outcome, -, hp⟩ | ⟨m, -, -, -, hp⟩ | ⟨-, hp⟩
  · rw [hp, hfresh.toUpload, hfresh.toDownload, hfresh.conflicts]
    exact List.nodup_nil
  · rw [hp]
    have hundetected : (pulled ctx m).Undetected :=
      ⟨hfresh.toUpload, hfresh.toDownload, hfresh.conflicts⟩
    exact DetectStage.nodup_execute hundetected rfl hrows
  · rw [hp, DetectStage.execute_eq_of_none rfl]
    dsimp only
    rw [hfresh.toUpload, hfresh.toDownload, hfresh.conflicts, List.append_nil, List.append_nil,
      List.nil_append]
    exact hrows.sublist (List.filter_sublist.map _)

omit [Serde] in
/-- A run that stops early had nothing to upload. -/
theorem toUpload_of_stopped {ctx : PipelineContext} (hfresh : ctx.Undetected)
    {read : Except SyncError CloudMetadata} (hstop : (prepare ctx read).2 ≠ .Continue) :
    (prepare ctx read).1.toUpload = [] := by
  rcases prepare_cases ctx read with ⟨outcome, -, hp⟩ | ⟨m, -, -, -, hp⟩ | ⟨-, hp⟩
  · rw [hp]
    exact hfresh.toUpload
  · rw [hp] at hstop ⊢
    have hm : (pulled ctx m).remoteMetadata = some m := rfl
    by_contra hsome
    rw [DetectStage.outcome_execute hm, if_neg (fun h => hsome h.1)] at hstop
    exact hstop rfl
  · rw [hp, DetectStage.execute_eq_of_none rfl] at hstop
    exact absurd rfl hstop

omit [Serde] in
theorem samePush_prepare (ctx : PipelineContext) (read : Except SyncError CloudMetadata) :
    (prepare ctx read).1.uploads = ctx.uploads ∧
      (prepare ctx read).1.uploadedIds = ctx.uploadedIds := by
  rcases prepare_cases ctx read with ⟨outcome, -, hp⟩ | ⟨m, -, -, -, hp⟩ | ⟨-, hp⟩
  · rw [hp]
    exact ⟨rfl, rfl⟩
  · rw [hp]
    exact (DetectStage.samePush_execute (pulled ctx m)).2
  · rw [hp]
    exact (DetectStage.samePush_execute { ctx with remoteMetadata := none }).2

end SyncPipeline

namespace PushStage

omit [Codec] [Serde] in
/-- An upload of distinct bodies is accepted or refused, once. -/
theorem accepted_or_refused {us : UploadAnswers} (hnodup : (us.map fun a => a.1.id).Nodup)
    {id : String} (hid : ∃ a ∈ us, a.1.id = id) :
    (id ∈ acceptedUploads us ∧ id ∉ refusedUploads us) ∨
      (id ∉ acceptedUploads us ∧ id ∈ refusedUploads us) := by
  rcases hid with ⟨a, ha, haid⟩
  have honly : ∀ b ∈ us, b.1.id = id → b = a := fun b hb hbid =>
    List.inj_on_of_nodup_map hnodup hb ha (hbid.trans haid.symm)
  unfold acceptedUploads refusedUploads
  simp only [List.mem_map, List.mem_filter]
  cases hok : a.2.isOk with
  | true =>
      refine Or.inl ⟨⟨a, ⟨ha, hok⟩, haid⟩, ?_⟩
      rintro ⟨b, ⟨hb, hrefused⟩, hbid⟩
      rw [honly b hb hbid, hok] at hrefused
      cases hrefused
  | false =>
      refine Or.inr ⟨?_, ⟨a, ⟨ha, by rw [hok]; rfl⟩, haid⟩⟩
      rintro ⟨b, ⟨hb, haccepted⟩, hbid⟩
      rw [honly b hb hbid, hok] at haccepted
      cases haccepted

omit [Codec] [Serde] in
/-- What is accepted or refused was uploaded. -/
theorem answered_of_mem {us : UploadAnswers} {id : String}
    (h : id ∈ acceptedUploads us ∨ id ∈ refusedUploads us) : ∃ a ∈ us, a.1.id = id := by
  unfold acceptedUploads refusedUploads at h
  simp only [List.mem_map, List.mem_filter] at h
  rcases h with ⟨a, ha, hid⟩ | ⟨a, ha, hid⟩
  · exact ⟨a, ha.1, hid⟩
  · exact ⟨a, ha.1, hid⟩

end PushStage

namespace SyncPipeline

/-- What a finished push stage has uploaded and counted as failed. -/
theorem lists_of_finish {t : SyncTask} {ctx' : PipelineContext} {outcome : StageOutcome}
    {tr : StorageTrace} {ph : PushPhases t.pipelineContext tr}
    (hfinish : (PushStage.finish (PushStage.afterAnswers ph.detected ph.uploads ph.downloads
      ph.conflicts)).Returns ph.rest (ctx', outcome)) :
    ctx'.toUpload = ph.detected.toUpload ∧
      ctx'.uploadedIds = PushStage.acceptedUploads ph.uploads ∧
      ctx'.failedIds = PushStage.refusedUploads ph.uploads ++
        PushStage.rejectedReads ph.detected.remoteInfo ph.downloads ++
        PushStage.rejectedConflicts ph.detected.remoteInfo ph.conflicts := by
  rcases PushStage.finish_frame hfinish with ⟨final, hctx', -⟩
  have huploaded : ph.detected.uploadedIds = [] :=
    (samePush_prepare t.pipelineContext ph.read).2.trans t.pipelineContext_undetected.2
  have hfailed : ph.detected.failedIds = [] :=
    (prepare_fresh t.pipelineContext_fresh ph.read).1
  rw [hctx']
  refine ⟨rfl, ?_, ?_⟩
  · change ph.detected.uploadedIds ++ PushStage.acceptedUploads ph.uploads = _
    rw [huploaded, List.nil_append]
  · change ph.detected.failedIds ++ PushStage.refusedUploads ph.uploads ++ _ ++ _ = _
    rw [hfailed, List.nil_append]

omit [Serde] in
/-- What is to upload belongs to a pending row. -/
theorem row_of_prepare {ctx : PipelineContext} (hfresh : ctx.Undetected)
    {read : Except SyncError CloudMetadata} {id : String}
    (hid : id ∈ (prepare ctx read).1.toUpload) :
    ∃ row ∈ ctx.localRecords, row.recordId = id ∧ row.syncStatus = .Pending := by
  rcases prepare_cases ctx read with ⟨outcome, -, hp⟩ | ⟨m, -, -, -, hp⟩ | ⟨-, hp⟩
  · rw [hp, hfresh.toUpload] at hid
    cases hid
  · rw [hp] at hid
    have hundetected : (pulled ctx m).Undetected :=
      ⟨hfresh.toUpload, hfresh.toDownload, hfresh.conflicts⟩
    rcases (DetectStage.mem_toUpload_execute hundetected id).mp hid with ⟨row, hrow, hrowId, h, -⟩
    exact ⟨row, hrow, hrowId, h⟩
  · rw [hp] at hid
    have hundetected : ({ ctx with remoteMetadata := none } : PipelineContext).Undetected :=
      ⟨hfresh.toUpload, hfresh.toDownload, hfresh.conflicts⟩
    rcases (DetectStage.mem_toUpload_execute hundetected id).mp hid with ⟨row, hrow, hrowId, h, -⟩
    exact ⟨row, hrow, hrowId, h⟩

theorem row_of_toUpload {t : SyncTask} {ctx' : PipelineContext} {result : PipelineResult}
    {tr : StorageTrace} (hrun : (execute t.pipelineContext).Returns tr (ctx', result))
    {id : String} (hid : id ∈ ctx'.toUpload) :
    ∃ row ∈ t.pipelineContext.localRecords, row.recordId = id ∧ row.syncStatus = .Pending := by
  have hundetected := t.pipelineContext_undetected.1
  rcases stops_or_pushes t.pipelineContext_fresh hrun with
    ⟨read, -, -, hctx', -⟩ | ⟨ph, outcome, -, hfinish⟩
  · rw [hctx'] at hid
    exact row_of_prepare hundetected hid
  · rw [(lists_of_finish hfinish).1] at hid
    exact row_of_prepare hundetected hid

/-- In a run over distinct rows and bodies, a record to upload is accounted for exactly when it
has a body. -/
theorem accounted_iff_body {t : SyncTask} {ctx' : PipelineContext} {result : PipelineResult}
    {tr : StorageTrace}
    (hrows : (t.pipelineContext.localRecords.map LocalRecordInfo.recordId).Nodup)
    (hbodies : (t.pipelineContext.uploads.map CloudRecord.id).Nodup)
    (hrun : (execute t.pipelineContext).Returns tr (ctx', result)) {id : String}
    (hid : id ∈ ctx'.toUpload) :
    ctx'.Accounted id ↔ ∃ r ∈ t.pipelineContext.uploads, r.id = id := by
  have hundetected := t.pipelineContext_undetected.1
  rcases stops_or_pushes t.pipelineContext_fresh hrun with
    ⟨read, -, hstop, hctx', -⟩ | ⟨ph, outcome, -, hfinish⟩
  · rw [hctx', toUpload_of_stopped hundetected hstop] at hid
    cases hid
  · rcases lists_of_finish hfinish with ⟨hto, huploaded, hfailed⟩
    rw [hto] at hid
    -- the id is in neither of the other lists of detection
    have hlists : (ph.detected.toUpload ++ ph.detected.toDownload ++ ph.detected.conflicts).Nodup :=
      nodup_prepare hundetected hrows ph.read
    rw [List.append_assoc, List.nodup_append'] at hlists
    have hother : id ∉ ph.detected.toDownload ++ ph.detected.conflicts := hlists.2.2 hid
    have hreads : id ∉ PushStage.rejectedReads ph.detected.remoteInfo ph.downloads := by
      intro hmem
      rcases List.mem_map.mp hmem with ⟨a, ha, haid⟩
      refine hother (List.mem_append_left _ ?_)
      have hin : a.1 ∈ ph.downloads.map Prod.fst := List.mem_map_of_mem (List.mem_filter.mp ha).1
      rw [ph.downloads_eq, haid] at hin
      exact hin
    have hconflicts : id ∉ PushStage.rejectedConflicts ph.detected.remoteInfo ph.conflicts := by
      intro hmem
      rcases List.mem_map.mp hmem with ⟨a, ha, haid⟩
      refine hother (List.mem_append_right _ ?_)
      have hin : a.1 ∈ ph.conflicts.map Prod.fst := List.mem_map_of_mem (List.mem_filter.mp ha).1
      rw [ph.conflicts_eq, haid] at hin
      exact hin
    have haccounted : ctx'.Accounted id ↔
        (id ∈ PushStage.acceptedUploads ph.uploads ∧ id ∉ PushStage.refusedUploads ph.uploads) ∨
          (id ∉ PushStage.acceptedUploads ph.uploads ∧
            id ∈ PushStage.refusedUploads ph.uploads) := by
      unfold PipelineContext.Accounted
      rw [huploaded, hfailed]
      simp [hreads, hconflicts]
    have hselected : PushStage.selectedUploads ph.detected =
        t.pipelineContext.uploads.filter fun r => ph.detected.toUpload.contains r.id := by
      unfold PushStage.selectedUploads PushPhases.detected
      rw [(samePush_prepare t.pipelineContext ph.read).1]
    have hbodiesOf : ph.uploads.map Prod.fst = _ := ph.uploads_eq.trans hselected
    rw [haccounted]
    constructor
    · intro h
      have hanswered : ∃ a ∈ ph.uploads, a.1.id = id :=
        PushStage.answered_of_mem (h.imp And.left And.right)
      rcases hanswered with ⟨a, ha, haid⟩
      have hin : a.1 ∈ ph.uploads.map Prod.fst := List.mem_map_of_mem ha
      rw [hbodiesOf] at hin
      exact ⟨a.1, (List.mem_filter.mp hin).1, haid⟩
    · rintro ⟨r, hr, hrid⟩
      have hin : r ∈ ph.uploads.map Prod.fst := by
        rw [hbodiesOf]
        refine List.mem_filter.mpr ⟨hr, ?_⟩
        rw [hrid]
        simpa using hid
      rcases List.mem_map.mp hin with ⟨a, ha, har⟩
      have hnodup : (ph.uploads.map fun a => a.1.id).Nodup := by
        have hmap : ph.uploads.map (fun a => a.1.id) =
            (ph.uploads.map Prod.fst).map CloudRecord.id := by
          rw [List.map_map]
          rfl
        rw [hmap, hbodiesOf]
        exact hbodies.sublist (List.filter_sublist.map _)
      exact PushStage.accepted_or_refused hnodup ⟨a, ha, by rw [har]; exact hrid⟩

end SyncPipeline

end

/-! ## From the vault to the result of a cycle -/

namespace Vault

variable [Codec] [Serde] [Crypto]

variable {v : VaultService} {t : Tables} {data : SyncVaultData}

namespace SyncSnapshot

theorem nodup_records (s : SyncSnapshot v t data) : (s.records.map StoredRecord.id).Nodup := by
  rw [(s.records_perm.map StoredRecord.id).nodup_iff, Tables.storedRecords_ids]
  exact t.records.nodupKeys

theorem nodup_rows (s : SyncSnapshot v t data) :
    (data.localRecords.map LocalRecordInfo.recordId).Nodup := by
  have htexts : data.localRecords.map LocalRecordInfo.recordId =
      (s.records.map StoredRecord.id).map Uuid.toText := by
    rw [s.localRecords_eq, List.map_map, List.map_map]
    rfl
  rw [htexts]
  exact s.nodup_records.map Uuid.toText_injective

/-- The bodies are those of the pending records that can be built and are valid. -/
theorem mem_uploads_iff (s : SyncSnapshot v t data) (r : CloudRecord) :
    r ∈ data.uploads ↔ ∃ record ∈ s.records, needsUpload s.states record = true ∧
      uploadForm v record (attachedHealth s.healths record.id) (s.nonceOf record.id) = .ok r ∧
      r.validate = .ok () := by
  rw [s.uploads_eq, List.mem_filterMap]
  simp only [List.mem_filter, validUpload_eq_some_iff, and_assoc]

omit [Codec] [Serde] [Crypto] in
/-- What is kept of a list has no more names than the list. -/
theorem sublist_filterMap {α β γ : Type} {f : α → Option β} {g : β → γ} {h : α → γ}
    (hname : ∀ x y, f x = some y → g y = h x) (xs : List α) :
    List.Sublist ((xs.filterMap f).map g) (xs.map h) := by
  induction xs with
  | nil => exact List.Sublist.refl _
  | cons x xs ih =>
      cases hx : f x with
      | none =>
          rw [List.filterMap_cons_none hx]
          exact ih.cons _
      | some y =>
          rw [List.filterMap_cons_some hx, List.map_cons, List.map_cons, hname x y hx]
          exact ih.cons_cons _

theorem nodup_bodies (s : SyncSnapshot v t data) : (data.uploads.map CloudRecord.id).Nodup := by
  have hnames : List.Sublist (data.uploads.map CloudRecord.id)
      ((s.records.filter (needsUpload s.states)).map fun record => record.id.toText) := by
    rw [s.uploads_eq]
    refine sublist_filterMap ?_ _
    intro record r hr
    exact id_uploadForm (validUpload_eq_some_iff.mp hr).1
  refine List.Nodup.sublist hnames ?_
  have hids : ((s.records.filter (needsUpload s.states)).map StoredRecord.id).Nodup :=
    s.nodup_records.sublist (List.filter_sublist.map _)
  have htexts := hids.map Uuid.toText_injective
  rw [List.map_map] at htexts
  exact htexts

end SyncSnapshot

/-- A snapshot that was taken is one of the vault. -/
theorem exists_snapshot {trv : List (Event VaultI)} {u : Tables}
    (hbuild : (buildSyncVaultData (some v)).run.Returns trv (.ok (some data)))
    (hpath : Path vaultEnv t trv u) : Nonempty (SyncSnapshot v t data) := by
  have hwpe := wpe_buildSyncVaultData v t (E := fun _ _ => True)
  exact (((wpe_iff _).mp hwpe).1 trv (some data) u hbuild hpath).2 data rfl

/-- In every cycle over a snapshot of the vault, the records to upload are all accounted for
exactly when each of them can be built and is valid. -/
theorem pending_accounted_iff {trv : List (Event VaultI)} {u : Tables} {task : SyncTask}
    {ctx : PipelineContext} {result : PipelineResult} {tr : StorageTrace}
    (hbuild : (buildSyncVaultData (some v)).run.Returns trv (.ok (some data)))
    (hpath : Path vaultEnv t trv u) (hdata : task.vaultData = some data)
    (hrun : (SyncPipeline.execute task.pipelineContext).Returns tr (ctx, result)) :
    ∃ s : SyncSnapshot v t data, (∀ id ∈ ctx.toUpload, ctx.Accounted id) ↔
      ∀ record ∈ s.records, record.id.toText ∈ ctx.toUpload →
        Uploadable v record (attachedHealth s.healths record.id) (s.nonceOf record.id) := by
  rcases exists_snapshot hbuild hpath with ⟨s⟩
  have hcontext : task.pipelineContext.localRecords = data.localRecords ∧
      task.pipelineContext.uploads = data.uploads := by
    unfold SyncTask.pipelineContext
    rw [hdata]
    exact ⟨rfl, rfl⟩
  have hbody := fun {id : String} (hid : id ∈ ctx.toUpload) =>
    SyncPipeline.accounted_iff_body (by rw [hcontext.1]; exact s.nodup_rows)
      (by rw [hcontext.2]; exact s.nodup_bodies) hrun hid
  -- an upload of the plan is a row that was read with the records
  have hrow : ∀ id ∈ ctx.toUpload, ∃ record ∈ s.records, record.id.toText = id ∧
      needsUpload s.states record = true := by
    intro id hid
    rcases SyncPipeline.row_of_toUpload hrun hid with ⟨row, hrow, hrowId, hpending⟩
    rw [hcontext.1, s.localRecords_eq] at hrow
    rcases List.mem_map.mp hrow with ⟨record, hrecord, hinfo⟩
    rw [← hinfo] at hrowId hpending
    exact ⟨record, hrecord, hrowId, beq_iff_eq.mpr hpending⟩
  refine ⟨s, ?_, ?_⟩
  -- the row that needs the upload is the record that has the body
  · intro hall record hrecord hid
    rcases (hbody hid).mp (hall _ hid) with ⟨r, hr, hrid⟩
    rw [hcontext.2] at hr
    rcases (s.mem_uploads_iff r).mp hr with ⟨other, hother, -, hform, hvalid⟩
    have hsame : other = record := by
      refine List.inj_on_of_nodup_map s.nodup_records hother hrecord ?_
      exact Uuid.toText_injective ((id_uploadForm hform).symm.trans hrid)
    rw [hsame] at hform
    exact ⟨r, hform, hvalid⟩
  · intro hall id hid
    rcases hrow id hid with ⟨record, hrecord, hrid, hneeds⟩
    rcases hall record hrecord (by rw [hrid]; exact hid) with ⟨r, hform, hvalid⟩
    refine (hbody hid).mpr ⟨r, ?_, (id_uploadForm hform).trans hrid⟩
    rw [hcontext.2]
    exact (s.mem_uploads_iff r).mpr ⟨record, hrecord, hneeds, hform, hvalid⟩

end Vault

/-! ### A pending record that cannot be decrypted -/

namespace Damaged

def recordId : Uuid :=
  Uuid.filled 1

/-- A record that was created and whose ciphertext was lost. -/
def row : RecordRow where
  credentialType := .SecureNote
  encryptedData := []
  nonce := Nonce.filled 1
  dekVersion := 1
  aad := recordAad recordId
  isFavorite := false
  expiresAt := none
  createdAt := 0
  updatedAt := 0
  updatedBy := "device"
  version := 1
  deleted := false
  deletedAt := none

def bench : Bench where
  tables := { Tables.fresh Sample.seed with records := AList.singleton recordId row }
  uuids := []
  nonces := []
  fault := none

def service : VaultService where
  crypto := .fromUnlockedKeystore
    { kek := some (List.replicate 32 7)
      currentDekVersion := 1 }
  deviceId := "device"

abbrev crypto : Crypto :=
  referenceCrypto []

section

attribute [local instance] Sample.codec Sample.serde crypto

def build : VaultM (Option SyncVaultData) :=
  Vault.buildSyncVaultData (some service)

def built : Option SyncVaultData :=
  (run (Bench.serve Sample.instant) build.run bench).1.toOption.join

theorem built_isSome : built.isSome = true := by
  decide +kernel

def data : SyncVaultData :=
  built.get built_isSome

theorem returns_data :
    build.run.Returns (runTrace (Bench.serve Sample.instant) build.run bench) (.ok (some data)) := by
  have hrun := returns_runTrace (Bench.serve Sample.instant) build.run bench
  have hbuilt : built = some data := (Option.some_get built_isSome).symm
  cases hresult : (run (Bench.serve Sample.instant) build.run bench).1 with
  | error e =>
      rw [built, hresult] at hbuilt
      cases hbuilt
  | ok data? =>
      rw [built, hresult] at hbuilt
      rw [hresult] at hrun
      have hdata : data? = some data := hbuilt
      rw [hdata] at hrun
      exact hrun

theorem path_data :
    Path vaultEnv bench.tables (runTrace (Bench.serve Sample.instant) build.run bench)
      (run (Bench.serve Sample.instant) build.run bench).2.tables :=
  (path_runTrace (Bench.serve Sample.instant) build.run bench).map Bench.tables
    fun _ _ _ _ hstep => Bench.serve_env hstep

/-- The task with that snapshot. -/
def task : SyncTask :=
  { SyncTask.new (SyncStateMachine.new 3) with vaultData := some data }

def cycle (t : SyncTask) : PipelineContext × PipelineResult :=
  (run (CloudStore.serve Sample.instant) (SyncPipeline.execute t.pipelineContext)
    CloudStore.empty).1

def cycleTrace (t : SyncTask) : StorageTrace :=
  runTrace (CloudStore.serve Sample.instant) (SyncPipeline.execute t.pipelineContext)
    CloudStore.empty

theorem returns_cycle (t : SyncTask) :
    (SyncPipeline.execute t.pipelineContext).Returns (cycleTrace t) ((cycle t).1, (cycle t).2) :=
  returns_runTrace _ _ _

/-- The rule at a cycle over the snapshot and an empty cloud. -/
theorem pending_accounted_iff_damaged :
    ∃ s : Vault.SyncSnapshot service bench.tables data,
      (∀ id ∈ (cycle task).1.toUpload, (cycle task).1.Accounted id) ↔
        ∀ record ∈ s.records, record.id.toText ∈ (cycle task).1.toUpload →
          Vault.Uploadable service record (Vault.attachedHealth s.healths record.id)
            (s.nonceOf record.id) :=
  Vault.pending_accounted_iff returns_data path_data rfl (returns_cycle task)

/-- The record is to upload, and the cycle neither uploads it nor counts it as failed. -/
theorem damaged_record_skipped :
    ¬ ∀ (v : VaultService) (t : Tables) (d : SyncVaultData) trv u (task : SyncTask) ctx result tr,
      (Vault.buildSyncVaultData (some v)).run.Returns trv (.ok (some d)) →
      Path vaultEnv t trv u → task.vaultData = some d →
      (SyncPipeline.execute task.pipelineContext).Returns tr (ctx, result) →
      ∀ id ∈ ctx.toUpload, ctx.Accounted id := by
  intro hall
  have hselected : ((cycle task).1.toUpload.contains recordId.toText) = true := by decide +kernel
  have huploaded : (cycle task).1.uploadedIds.isEmpty = true := by decide +kernel
  have hfailed : (cycle task).1.failedIds.isEmpty = true := by decide +kernel
  have haccounted := hall service _ data _ _ task _ _ _ returns_data path_data rfl
    (returns_cycle task) _ (List.contains_iff_mem.mp hselected)
  rcases haccounted with ⟨hin, -⟩ | ⟨-, hin⟩
  · rw [List.isEmpty_iff.mp huploaded] at hin
    cases hin
  · rw [List.isEmpty_iff.mp hfailed] at hin
    cases hin

end

end Damaged

end OakKeyring
