import OakKeyring.Sync.Pipeline
import OakKeyring.Lib.Collect

/-!
# Runs of the pipeline

The loops of the push stage make one operation for each element, so a run is fixed by the
answers: the uploads with theirs, the downloads with theirs, the conflicts with theirs.
-/

namespace OakKeyring

open Effect

/-- Uploads with their answers. -/
abbrev UploadAnswers := List (CloudRecord × Except SyncError Unit)

/-- Record reads with their answers. -/
abbrev ReadAnswers := List (String × Except SyncError CloudRecord)

def uploadEvent (a : CloudRecord × Except SyncError Unit) : Event StorageI :=
  (StorageOp.writeRecord a.1.id a.1).answered a.2

def readEvent (a : String × Except SyncError CloudRecord) : Event StorageI :=
  (StorageOp.readRecord a.1).answered a.2

/-- The store reported that the record file does not exist. -/
def readAbsent : Except SyncError CloudRecord → Bool
  | .error (.RecordNotFound _) => true
  | _ => false

theorem uploadEvent_injective : Function.Injective uploadEvent := by
  rintro ⟨r, x⟩ ⟨r', x'⟩ h
  have hcall : StorageOp.writeRecord r.id r = .writeRecord r'.id r' := congrArg Event.call h
  injection hcall with _ hr
  subst hr
  injection h with _ hanswer
  exact congrArg (Prod.mk r) hanswer

theorem readEvent_injective : Function.Injective readEvent := by
  rintro ⟨id, x⟩ ⟨id', x'⟩ h
  have hcall : StorageOp.readRecord id = .readRecord id' := congrArg Event.call h
  injection hcall with hid
  subst hid
  injection h with _ hanswer
  exact congrArg (Prod.mk id) hanswer

namespace PushStage

/-! ## Uploads -/

/-- The records the stage uploads. -/
def selectedUploads (ctx : PipelineContext) : List CloudRecord :=
  ctx.uploads.filter fun record => ctx.toUpload.contains record.id

def afterUploads (ctx : PipelineContext) (us : UploadAnswers) : PipelineContext :=
  us.foldl (fun c a => receiveUpload c a.1 a.2) ctx

/-- The ids of the uploads that were accepted. -/
def acceptedUploads (us : UploadAnswers) : List String :=
  (us.filter fun a => a.2.isOk).map fun a => a.1.id

def refusedUploads (us : UploadAnswers) : List String :=
  (us.filter fun a => !a.2.isOk).map fun a => a.1.id

theorem returns_uploadRecords (ctx ctx' : PipelineContext) (tr : StorageTrace) :
    (uploadRecords ctx).Returns tr ctx' ↔
      ∃ us : UploadAnswers, us.map Prod.fst = selectedUploads ctx ∧
        tr = us.map uploadEvent ∧ ctx' = afterUploads ctx us :=
  Prog.returns_sweep (e := fun r x => uploadEvent (r, x))
    (fun r t x => Prog.returns_perform (I := StorageI) (.writeRecord r.id r) t x)
    receiveUpload (selectedUploads ctx) ctx ctx' tr

/-- Uploading changes nothing but the two lists of ids. -/
theorem afterUploads_eq (ctx : PipelineContext) (us : UploadAnswers) :
    afterUploads ctx us =
      { ctx with
        uploadedIds := ctx.uploadedIds ++ acceptedUploads us
        failedIds := ctx.failedIds ++ refusedUploads us } := by
  induction us generalizing ctx with
  | nil => simp [afterUploads, acceptedUploads, refusedUploads]
  | cons a us ih =>
      rcases a with ⟨r, x⟩
      have hunfold : afterUploads ctx ((r, x) :: us) = afterUploads (receiveUpload ctx r x) us :=
        rfl
      rw [hunfold, ih]
      cases x <;> simp [receiveUpload, PipelineContext.fail, acceptedUploads, refusedUploads,
        Except.isOk, Except.toBool]

theorem refusedUploads_eq_nil_iff (us : UploadAnswers) :
    refusedUploads us = [] ↔ ∀ a ∈ us, a.2.isOk = true := by
  simp [refusedUploads]

variable [Codec] [Serde]

/-! ## Downloads -/

def afterDownloads (ctx : PipelineContext) (ds : ReadAnswers) : PipelineContext :=
  (ds.map fun a => (a.1, CloudStorage.recordOfRead a.2)).foldl receiveDownload ctx

/-- The record that a read makes available, once it is valid and matches its entry. -/
def acceptedRead (info : Option RecordVersionInfo) (read : Except SyncError CloudRecord) :
    Option CloudRecord :=
  match read with
  | .ok r => if r.validate.isOk && info.all (fun i => matchesInfo i r) then some r else none
  | .error _ => none

/-- The read was counted as a failure: answered, but with nothing that can be used. -/
def ReadRejected (info : Option RecordVersionInfo) (read : Except SyncError CloudRecord) : Prop :=
  acceptedRead info read = none ∧ readAbsent read = false

omit [Codec] [Serde] in
theorem returns_batchDownloadRecords (ids : List String) (tr : StorageTrace)
    (results : List (String × Except SyncError (Option CloudRecord))) :
    (CloudStorage.batchDownloadRecords ids).Returns tr results ↔
      ∃ ds : ReadAnswers, ds.map Prod.fst = ids ∧ tr = ds.map readEvent ∧
        results = ds.map fun a => (a.1, CloudStorage.recordOfRead a.2) :=
  Prog.returns_mapM_sweep (e := fun id x => readEvent (id, x))
    (fun id t x => Prog.returns_perform (I := StorageI) (.readRecord id) t x)
    (fun id x => (id, CloudStorage.recordOfRead x)) ids results tr

theorem returns_downloadRecords (ctx ctx' : PipelineContext) (tr : StorageTrace) :
    (downloadRecords ctx).Returns tr ctx' ↔
      ∃ ds : ReadAnswers, ds.map Prod.fst = ctx.toDownload ∧ tr = ds.map readEvent ∧
        ctx' = afterDownloads ctx ds := by
  unfold downloadRecords
  simp only [Prog.returns_bind, returns_batchDownloadRecords, Prog.pure_eq, Prog.returns_ret]
  constructor
  · rintro ⟨t₁, t₂, results, rfl, ⟨ds, hids, rfl, rfl⟩, rfl, rfl⟩
    exact ⟨ds, hids, by simp, rfl⟩
  · rintro ⟨ds, hids, rfl, rfl⟩
    exact ⟨ds.map readEvent, [], _, by simp, ⟨ds, hids, rfl, rfl⟩, rfl, rfl⟩

/-- One download: kept, absent, or counted as failed. -/
theorem receiveDownload_eq (ctx : PipelineContext) (id : String)
    (read : Except SyncError CloudRecord) :
    receiveDownload ctx (id, CloudStorage.recordOfRead read) =
      match acceptedRead (ctx.remoteInfo id) read with
      | some r => acceptDownload ctx id r
      | none => if readAbsent read then ctx else ctx.fail id := by
  cases read with
  | ok r =>
      cases hvalid : r.validate with
      | error e =>
          simp [receiveDownload, CloudStorage.recordOfRead, acceptedRead, hvalid, readAbsent,
            Except.isOk, Except.toBool]
      | ok u =>
          cases hinfo : ctx.remoteInfo id with
          | none =>
              simp [receiveDownload, CloudStorage.recordOfRead, acceptedRead, hvalid, hinfo,
                Except.isOk, Except.toBool]
          | some info =>
              cases hmatch : matchesInfo info r <;>
                simp [receiveDownload, CloudStorage.recordOfRead, acceptedRead, hvalid, hinfo,
                  hmatch, readAbsent, Except.isOk, Except.toBool]
  | error e =>
      cases e <;> simp [receiveDownload, CloudStorage.recordOfRead, acceptedRead, readAbsent]

/-- The reads counted as failed. -/
def rejectedReads (info : String → Option RecordVersionInfo) (ds : ReadAnswers) : List String :=
  (ds.filter fun a => (acceptedRead (info a.1) a.2).isNone && !readAbsent a.2).map Prod.fst

/-- The records kept, under the ids they were asked for. -/
def keptDownloads (info : String → Option RecordVersionInfo) (ds : ReadAnswers)
    (kept : AList fun _ : String => CloudRecord) : AList fun _ : String => CloudRecord :=
  AList.collect (fun a => acceptedRead (info a.1) a.2) ds kept

theorem keptDownloads_cons (info : String → Option RecordVersionInfo)
    (a : String × Except SyncError CloudRecord) (ds : ReadAnswers)
    (kept : AList fun _ : String => CloudRecord) :
    keptDownloads info (a :: ds) kept =
      keptDownloads info ds
        (match acceptedRead (info a.1) a.2 with
        | some r => kept.insert a.1 r
        | none => kept) := by
  cases h : acceptedRead (info a.1) a.2 with
  | none => exact AList.collect_cons_none h
  | some r => exact AList.collect_cons_some h

def keptHealth (info : String → Option RecordVersionInfo) (ds : ReadAnswers) :
    List RecordHealthState :=
  ds.filterMap fun a => (acceptedRead (info a.1) a.2).bind CloudRecord.toHealthState

/-- The ids whose stale health state is to be deleted. -/
def clearedHealth (info : String → Option RecordVersionInfo) (ds : ReadAnswers) : List Uuid :=
  ds.filterMap fun a => (acceptedRead (info a.1) a.2).bind fun r =>
    if r.toHealthState.isNone && !r.hasEncryptedPrivateMetadata then Uuid.parseStr a.1 else none

/-- Downloading changes the records, the health lists and the failures. -/
theorem afterDownloads_eq (ctx : PipelineContext) (ds : ReadAnswers) :
    afterDownloads ctx ds =
      { ctx with
        failedIds := ctx.failedIds ++ rejectedReads ctx.remoteInfo ds
        downloads := keptDownloads ctx.remoteInfo ds ctx.downloads
        downloadedHealthStates := ctx.downloadedHealthStates ++ keptHealth ctx.remoteInfo ds
        downloadedHealthDeleted :=
          ctx.downloadedHealthDeleted ++ clearedHealth ctx.remoteInfo ds } := by
  induction ds generalizing ctx with
  | nil => simp [afterDownloads, rejectedReads, keptDownloads, keptHealth, clearedHealth]
  | cons a ds ih =>
      rcases a with ⟨id, read⟩
      have hunfold : afterDownloads ctx ((id, read) :: ds) =
          afterDownloads (receiveDownload ctx (id, CloudStorage.recordOfRead read)) ds := rfl
      rw [hunfold, receiveDownload_eq]
      -- what becomes of one read: a body that is kept, a missing file, or a failure
      cases haccepted : acceptedRead (ctx.remoteInfo id) read with
      | none =>
          cases habsent : readAbsent read with
          | true =>
              simp [ih, rejectedReads, keptDownloads_cons, keptHealth, clearedHealth, haccepted,
                habsent]
          | false =>
              have hinfo : (ctx.fail id).remoteInfo = ctx.remoteInfo := rfl
              simp only [Bool.false_eq_true, if_false]
              rw [ih, hinfo]
              simp [PipelineContext.fail, rejectedReads, keptDownloads_cons, keptHealth,
                clearedHealth, haccepted, habsent]
      | some r =>
          -- what is kept does not change what is known of the remote records
          have hinfo : (acceptDownload ctx id r).remoteInfo = ctx.remoteInfo := by
            unfold acceptDownload PipelineContext.remoteInfo
            cases r.toHealthState <;> cases r.hasEncryptedPrivateMetadata <;>
              cases Uuid.parseStr id <;> rfl
          simp only []
          rw [ih, hinfo]
          unfold acceptDownload
          -- the three parts of a body are each there or not
          cases hhealth : r.toHealthState <;>
            cases hprivate : r.hasEncryptedPrivateMetadata <;>
            cases hid : Uuid.parseStr id <;>
            simp [rejectedReads, keptDownloads_cons, keptHealth, clearedHealth, haccepted, hhealth,
              hprivate, hid]

theorem rejectedReads_eq_nil_iff (info : String → Option RecordVersionInfo)
    (ds : ReadAnswers) :
    rejectedReads info ds = [] ↔ ∀ a ∈ ds, ¬ ReadRejected (info a.1) a.2 := by
  simp [rejectedReads, ReadRejected]

/-! ## Conflicts -/

def afterConflicts (ctx : PipelineContext) (cs : ReadAnswers) : PipelineContext :=
  cs.foldl (fun c a => receiveConflict c a.1 (CloudStorage.recordOfRead a.2)) ctx

/-- The bytes kept for a conflict whose record was read. -/
def storedConflict (info : Option RecordVersionInfo) (read : Except SyncError CloudRecord) :
    Option Bytes :=
  match info, read with
  | some i, .ok r => (storeConflict r i.checksum).toOption
  | _, _ => none

/-- The conflict read was counted as a failure. -/
def ConflictRejected (info : Option RecordVersionInfo) (read : Except SyncError CloudRecord) :
    Prop :=
  info.isSome = true ∧ storedConflict info read = none ∧ readAbsent read = false

def rejectedConflicts (info : String → Option RecordVersionInfo) (cs : ReadAnswers) :
    List String :=
  (cs.filter fun a => (info a.1).isSome && (storedConflict (info a.1) a.2).isNone &&
    !readAbsent a.2).map Prod.fst

theorem receiveConflict_eq (ctx : PipelineContext) (id : String)
    (read : Except SyncError CloudRecord) :
    receiveConflict ctx id (CloudStorage.recordOfRead read) =
      match storedConflict (ctx.remoteInfo id) read with
      | some b => { ctx with conflictDataMap := ctx.conflictDataMap.insert id b }
      | none =>
          if (ctx.remoteInfo id).isSome && !readAbsent read then ctx.fail id else ctx := by
  unfold receiveConflict
  cases ctx.remoteInfo id with
  | none => simp [storedConflict]
  | some info =>
      cases read with
      | ok r =>
          cases hstore : storeConflict r info.checksum <;>
            simp [CloudStorage.recordOfRead, storedConflict, hstore, Except.toOption, readAbsent]
      | error e => cases e <;> simp [CloudStorage.recordOfRead, storedConflict, readAbsent]

theorem remoteInfo_receiveConflict (ctx : PipelineContext) (id : String)
    (result : Except SyncError (Option CloudRecord)) :
    (receiveConflict ctx id result).remoteInfo = ctx.remoteInfo := by
  unfold receiveConflict
  repeat' split
  all_goals rfl

/-- Fetching conflicts changes their stored data and the failures. -/
theorem afterConflicts_eq (ctx : PipelineContext) (cs : ReadAnswers) :
    afterConflicts ctx cs =
      { ctx with
        failedIds := ctx.failedIds ++ rejectedConflicts ctx.remoteInfo cs
        conflictDataMap := AList.collect (fun a => storedConflict (ctx.remoteInfo a.1) a.2) cs
          ctx.conflictDataMap } := by
  induction cs generalizing ctx with
  | nil => simp [afterConflicts, rejectedConflicts]
  | cons a cs ih =>
      rcases a with ⟨id, read⟩
      have hunfold : afterConflicts ctx ((id, read) :: cs) =
          afterConflicts (receiveConflict ctx id (CloudStorage.recordOfRead read)) cs := rfl
      rw [hunfold, receiveConflict_eq]
      -- what becomes of one conflict: its remote record is stored, or it has failed
      cases hstored : storedConflict (ctx.remoteInfo id) read with
      | some b =>
          have hinfo : PipelineContext.remoteInfo
              { ctx with conflictDataMap := ctx.conflictDataMap.insert id b } =
              ctx.remoteInfo := rfl
          simp only []
          rw [ih, hinfo, AList.collect_cons_some (by simpa using hstored)]
          simp [rejectedConflicts, hstored]
      | none =>
          have hinfo : (ctx.fail id).remoteInfo = ctx.remoteInfo := rfl
          rw [AList.collect_cons_none (by simpa using hstored)]
          cases hcase : (ctx.remoteInfo id).isSome && !readAbsent read with
          | true =>
              simp only [if_true]
              rw [ih, hinfo]
              simp only [Bool.and_eq_true, Bool.not_eq_true'] at hcase
              simp [PipelineContext.fail, rejectedConflicts, hstored, hcase.1, hcase.2]
          | false =>
              simp only [Bool.false_eq_true, if_false]
              rw [ih]
              have hnot : ((ctx.remoteInfo id).isSome && (storedConflict (ctx.remoteInfo id)
                  read).isNone && !readAbsent read) = false := by
                rw [hstored]
                simpa using hcase
              simp only [rejectedConflicts, List.filter_cons, hnot, Bool.false_eq_true, if_false]

theorem rejectedConflicts_eq_nil_iff (info : String → Option RecordVersionInfo)
    (cs : ReadAnswers) :
    rejectedConflicts info cs = [] ↔ ∀ a ∈ cs, ¬ ConflictRejected (info a.1) a.2 := by
  simp [rejectedConflicts, ConflictRejected]

/-- With an entry for every conflict, each is read once. -/
theorem returns_fetchConflicts (ctx ctx' : PipelineContext) (tr : StorageTrace)
    (hinfo : ∀ id ∈ ctx.conflicts, (ctx.remoteInfo id).isSome = true) :
    (fetchConflicts ctx).Returns tr ctx' ↔
      ∃ cs : ReadAnswers, cs.map Prod.fst = ctx.conflicts ∧ tr = cs.map readEvent ∧
        ctx' = afterConflicts ctx cs := by
  -- the sweep over the ids, with whatever context the stages before it leave
  have hsweep : ∀ (ids : List String) (c : PipelineContext),
      (∀ id ∈ ids, (c.remoteInfo id).isSome = true) →
      ids.foldlM fetchConflict c = ids.foldlM (fun c id =>
        CloudStorage.perform (.readRecord id) >>= fun x =>
          Prog.ret (receiveConflict c id (CloudStorage.recordOfRead x))) c := by
    intro ids
    induction ids with
    | nil =>
        intro c _
        rfl
    | cons id ids ih =>
        intro c hc
        rcases Option.isSome_iff_exists.mp (hc id List.mem_cons_self) with ⟨info, hid⟩
        rw [List.foldlM_cons, List.foldlM_cons]
        have hfetch : fetchConflict c id = CloudStorage.perform (.readRecord id) >>= fun x =>
            Prog.ret (receiveConflict c id (CloudStorage.recordOfRead x)) := by
          unfold fetchConflict
          rw [hid]
          rfl
        rw [hfetch, Prog.bind_assoc, Prog.bind_assoc]
        congr
        funext x
        apply ih
        intro id' hid'
        rw [remoteInfo_receiveConflict]
        exact hc id' (List.mem_cons_of_mem _ hid')
  unfold fetchConflicts
  rw [hsweep ctx.conflicts ctx hinfo]
  exact Prog.returns_sweep (e := fun id x => readEvent (id, x))
    (fun id t x => Prog.returns_perform (I := StorageI) (.readRecord id) t x)
    (fun c id x => receiveConflict c id (CloudStorage.recordOfRead x)) ctx.conflicts ctx ctx' tr

/-! ## The stage as a whole -/

/-- The context once every upload, download and conflict read is answered. -/
def afterAnswers (ctx : PipelineContext) (us : UploadAnswers) (ds cs : ReadAnswers) :
    PipelineContext :=
  { ctx with
    uploadedIds := ctx.uploadedIds ++ acceptedUploads us
    failedIds := ctx.failedIds ++ refusedUploads us ++ rejectedReads ctx.remoteInfo ds ++
      rejectedConflicts ctx.remoteInfo cs
    downloads := keptDownloads ctx.remoteInfo ds ctx.downloads
    downloadedHealthStates := ctx.downloadedHealthStates ++ keptHealth ctx.remoteInfo ds
    downloadedHealthDeleted := ctx.downloadedHealthDeleted ++ clearedHealth ctx.remoteInfo ds
    conflictDataMap := AList.collect (fun a => storedConflict (ctx.remoteInfo a.1) a.2) cs
      ctx.conflictDataMap }

theorem afterConflicts_afterDownloads_afterUploads (ctx : PipelineContext)
    (us : UploadAnswers) (ds cs : ReadAnswers) :
    afterConflicts (afterDownloads (afterUploads ctx us) ds) cs = afterAnswers ctx us ds cs := by
  rw [afterConflicts_eq, afterDownloads_eq, afterUploads_eq]
  rfl

theorem returns_execute (ctx ctx' : PipelineContext) (outcome : StageOutcome)
    (tr : StorageTrace) (hinfo : ∀ id ∈ ctx.conflicts, (ctx.remoteInfo id).isSome = true) :
    (PushStage.execute ctx).Returns tr (ctx', outcome) ↔
      ∃ (us : UploadAnswers) (ds cs : ReadAnswers) (rest : StorageTrace),
        us.map Prod.fst = selectedUploads ctx ∧ ds.map Prod.fst = ctx.toDownload ∧
        cs.map Prod.fst = ctx.conflicts ∧
        tr = us.map uploadEvent ++ (ds.map readEvent ++ (cs.map readEvent ++ rest)) ∧
        (finish (afterAnswers ctx us ds cs)).Returns rest (ctx', outcome) := by
  unfold PushStage.execute
  simp only [Prog.returns_bind, returns_uploadRecords, returns_downloadRecords]
  constructor
  -- the four phases of the trace, one after the other
  · rintro ⟨t₁, t₂, c₁, rfl, ⟨us, hus, rfl, rfl⟩, t₃, t₄, c₂, rfl, ⟨ds, hds, rfl, rfl⟩,
      t₅, rest, c₃, rfl, hcs, hfinish⟩
    have hframe : afterDownloads (afterUploads ctx us) ds =
        afterAnswers ctx us ds [] := by
      rw [← afterConflicts_afterDownloads_afterUploads]
      rfl
    have hds' : ds.map Prod.fst = ctx.toDownload := by
      rw [hds, afterUploads_eq]
    rw [returns_fetchConflicts _ _ _ (by rw [hframe]; exact hinfo)] at hcs
    rcases hcs with ⟨cs, hcs, rfl, rfl⟩
    rw [afterConflicts_afterDownloads_afterUploads] at hfinish
    refine ⟨us, ds, cs, rest, hus, hds', ?_, rfl, hfinish⟩
    rw [hcs, hframe]
    rfl
  · rintro ⟨us, ds, cs, rest, hus, hds, hcs, rfl, hfinish⟩
    have hframe : afterDownloads (afterUploads ctx us) ds =
        afterAnswers ctx us ds [] := by
      rw [← afterConflicts_afterDownloads_afterUploads]
      rfl
    refine ⟨_, _, _, rfl, ⟨us, hus, rfl, rfl⟩, _, _, _, rfl, ⟨ds, ?_, rfl, rfl⟩, _, rest,
      afterAnswers ctx us ds cs, rfl, ?_, hfinish⟩
    · rw [hds, afterUploads_eq]
    · rw [returns_fetchConflicts _ _ _ (by rw [hframe]; exact hinfo)]
      refine ⟨cs, ?_, rfl, ?_⟩
      · rw [hcs, hframe]
        rfl
      · rw [afterConflicts_afterDownloads_afterUploads]

/-- The end of the stage changes the final metadata at most, and says `Continue` only when
there are no conflicts. -/
theorem returns_finish {ctx ctx' : PipelineContext} {outcome : StageOutcome}
    {tr : StorageTrace} (h : (finish ctx).Returns tr (ctx', outcome)) :
    (ctx.uploadedIds = [] ∧ tr = [] ∧ ctx' = ctx ∧ outcome = PushStage.outcome ctx) ∨
      (ctx.uploadedIds ≠ [] ∧ ∃ r, (pushUpdatedMetadata ctx).Returns tr r ∧
        match r with
        | .ok updated => ctx' = { ctx with finalMetadata := some updated } ∧
            outcome = PushStage.outcome ctx
        | .error e => ctx' = ctx ∧ outcome = .Error e) := by
  unfold finish at h
  by_cases hnone : ctx.uploadedIds = []
  · rw [if_pos hnone] at h
    rcases h with ⟨rfl, hout⟩
    cases hout
    exact Or.inl ⟨hnone, rfl, rfl, rfl⟩
  · rw [if_neg hnone, Prog.returns_bind] at h
    rcases h with ⟨t₁, t₂, r, rfl, hr, h⟩
    refine Or.inr ⟨hnone, r, ?_⟩
    cases r with
    | ok updated =>
        rcases h with ⟨rfl, hout⟩
        cases hout
        exact ⟨by simpa using hr, rfl, rfl⟩
    | error e =>
        rcases h with ⟨rfl, hout⟩
        cases hout
        exact ⟨by simpa using hr, rfl, rfl⟩

/-- After the answers of the push stage only the final metadata can still change, and it does
not get lost. -/
theorem finish_frame {ctx ctx' : PipelineContext} {outcome : StageOutcome}
    {tr : StorageTrace} (h : (finish ctx).Returns tr (ctx', outcome)) :
    ∃ final, ctx' = { ctx with finalMetadata := final } ∧
      (ctx.finalMetadata.isSome = true → final.isSome = true) := by
  rcases returns_finish h with ⟨-, -, rfl, -⟩ | ⟨-, r, -, hr⟩
  · exact ⟨ctx'.finalMetadata, rfl, id⟩
  · cases r with
    | ok updated => exact ⟨some updated, hr.1, fun _ => rfl⟩
    | error e =>
        rcases hr with ⟨rfl, -⟩
        exact ⟨ctx'.finalMetadata, rfl, id⟩

/-- The fields of the context that the rest of a push depends on. -/
def SamePush (ctx ctx' : PipelineContext) : Prop :=
  ctx'.remoteMetadata = ctx.remoteMetadata ∧ ctx'.uploads = ctx.uploads ∧
    ctx'.uploadedIds = ctx.uploadedIds

end PushStage

namespace DetectStage

/-! ## Detection -/

def isUpload : ConflictAction → Bool
  | .UploadOnly => true
  | _ => false

def isDownload : ConflictAction → Bool
  | .DownloadOnly => true
  | _ => false

def isConflict : ConflictAction → Bool
  | .Conflict _ _ => true
  | _ => false

/-- The ids of the local records whose action satisfies a predicate. -/
def idsWith (p : ConflictAction → Bool) (ctx : PipelineContext) : List String :=
  (ctx.localRecords.filter fun r => p (classify ctx r)).map LocalRecordInfo.recordId

theorem foldl_assign (records : List LocalRecordInfo) (ctx : PipelineContext) :
    records.foldl assign ctx =
      { ctx with
        toUpload := ctx.toUpload ++
          (records.filter fun r => isUpload (classify ctx r)).map LocalRecordInfo.recordId
        toDownload := ctx.toDownload ++
          (records.filter fun r => isDownload (classify ctx r)).map LocalRecordInfo.recordId
        conflicts := ctx.conflicts ++
          (records.filter fun r => isConflict (classify ctx r)).map LocalRecordInfo.recordId } := by
  induction records generalizing ctx with
  | nil => simp
  | cons record records ih =>
      have hclassify : ∀ r, classify (assign ctx record) r = classify ctx r := by
        intro r
        unfold assign
        cases classify ctx record <;> rfl
      rw [List.foldl_cons, ih]
      simp only [hclassify]
      unfold assign
      cases haction : classify ctx record <;>
        simp [haction, isUpload, isDownload, isConflict]

/-- With remote metadata, each local record goes where its action sends it, and the missing
remote records are downloaded. -/
theorem execute_eq {ctx : PipelineContext} {m : CloudMetadata}
    (hm : ctx.remoteMetadata = some m) :
    (execute ctx).1 =
      { ctx with
        toUpload := ctx.toUpload ++ idsWith isUpload ctx
        toDownload := ctx.toDownload ++ idsWith isDownload ctx ++ ctx.missingRemoteIds m
        conflicts := ctx.conflicts ++ idsWith isConflict ctx } := by
  unfold execute
  split
  · rename_i hnone
    rw [hm] at hnone
    cases hnone
  · rename_i m' hsome
    rw [hm] at hsome
    cases hsome
    rw [foldl_assign]
    dsimp only
    split <;> rfl

theorem execute_eq_of_none {ctx : PipelineContext} (hm : ctx.remoteMetadata = none) :
    execute ctx =
      ({ ctx with
        toUpload := ctx.toUpload ++
          (ctx.localRecords.filter fun r => r.syncStatus == .Pending).map
            LocalRecordInfo.recordId }, .Continue) := by
  unfold execute
  rw [hm]

/-- Detection leaves what was pulled and what is to be uploaded. -/
theorem samePush_execute (ctx : PipelineContext) :
    PushStage.SamePush ctx (DetectStage.execute ctx).1 := by
  cases hm : ctx.remoteMetadata with
  | none =>
      rw [execute_eq_of_none hm]
      exact ⟨rfl, rfl, rfl⟩
  | some m =>
      rw [execute_eq hm]
      exact ⟨rfl, rfl, rfl⟩

theorem mem_idsWith {p : ConflictAction → Bool} {ctx : PipelineContext} {id : String} :
    id ∈ idsWith p ctx ↔
      ∃ r ∈ ctx.localRecords, r.recordId = id ∧ p (classify ctx r) = true := by
  simp [idsWith, and_comm, and_left_comm]

/-- A conflict is a pending record behind its metadata entry. -/
theorem classify_conflict {ctx : PipelineContext} {r : LocalRecordInfo}
    (h : isConflict (classify ctx r) = true) :
    ∃ info, ctx.remoteInfo r.recordId = some info ∧ r.syncStatus = .Pending ∧
      r.version < info.version := by
  unfold classify at h
  cases hinfo : ctx.remoteInfo r.recordId with
  | none =>
      simp only [hinfo] at h
      split at h <;> cases h
  | some info =>
      simp only [hinfo] at h
      split at h
      · cases h
      · refine ⟨info, rfl, ?_⟩
        unfold detectConflicts at h
        split at h
        · rename_i hstatus hcompare
          exact ⟨hstatus, Nat.compare_eq_gt.mp hcompare⟩
        all_goals cases h

end DetectStage

namespace SyncPipeline

variable [Codec] [Serde]

/-! ## The pipeline -/

/-- The stages before the push: what the metadata read leads to. -/
def prepare (ctx : PipelineContext) (read : Except SyncError CloudMetadata) :
    PipelineContext × StageOutcome :=
  match PullMetadataStage.receive ctx (CloudStorage.metadataOfRead read) with
  | (c, .Continue) => DetectStage.execute c
  | early => early

/-- The context of a device that goes on with the pulled metadata. -/
def pulled (ctx : PipelineContext) (m : CloudMetadata) : PipelineContext :=
  { ctx with
    finalMetadata := some m
    remoteMetadata := some m }

omit [Serde] in
/-- The pull ends the run, or detection goes on with the metadata, or without any. -/
theorem prepare_cases (ctx : PipelineContext) (read : Except SyncError CloudMetadata) :
    (∃ outcome, outcome ≠ .Continue ∧ prepare ctx read = (ctx, outcome)) ∨
      (∃ m, read = .ok m ∧ m.validate = .ok () ∧ m.vaultIdentityToken = ctx.localVaultToken ∧
        prepare ctx read = DetectStage.execute (pulled ctx m)) ∨
      (CloudStorage.metadataOfRead read = .ok none ∧
        prepare ctx read = DetectStage.execute { ctx with remoteMetadata := none }) := by
  unfold prepare
  cases hread : CloudStorage.metadataOfRead read with
  | error e => exact Or.inl ⟨.Error e, by simp, rfl⟩
  | ok m? =>
      cases m? with
      | none => exact Or.inr (Or.inr ⟨rfl, rfl⟩)
      | some m =>
          have hok := (CloudStorage.metadataOfRead_eq_some_iff read m).mp hread
          simp only [PullMetadataStage.receive, PullMetadataStage.receiveMetadata]
          by_cases hsame : m.metadataVersion = ctx.localMetadataVersion ∧
              ctx.hasPendingUploads = false ∧ ctx.missingRemoteIds m = []
          · rw [if_pos hsame]
            exact Or.inl ⟨.NoChanges, by simp, rfl⟩
          · rw [if_neg hsame]
            by_cases htoken : m.vaultIdentityToken ≠ ctx.localVaultToken
            · rw [if_pos htoken]
              exact Or.inl ⟨_, by simp, rfl⟩
            · rw [if_neg htoken]
              exact Or.inr (Or.inl ⟨m, hok.1, hok.2, not_not.mp htoken, rfl⟩)

/-- The result of the pipeline when the push stage ends so. -/
def resultOf : StageOutcome → PipelineResult
  | .Continue => .Completed
  | .NoChanges => .NoChanges
  | .ConflictDetected ids => .ConflictsDetected ids
  | .Error e => .Error e

theorem returns_runStages_cons (stage : Stage) (stages : List Stage) (ctx : PipelineContext)
    (tr : StorageTrace) (out : PipelineContext × PipelineResult) :
    (runStages (stage :: stages) ctx).Returns tr out ↔
      ∃ t₁ t₂ c outcome, tr = t₁ ++ t₂ ∧ (stage.execute ctx).Returns t₁ (c, outcome) ∧
        if outcome = .Continue then (runStages stages c).Returns t₂ out
        else t₂ = [] ∧ out = (c, resultOf outcome) := by
  rw [runStages, Prog.returns_bind]
  constructor
  · rintro ⟨t₁, t₂, ⟨c, outcome⟩, rfl, h₁, h₂⟩
    refine ⟨t₁, t₂, c, outcome, rfl, h₁, ?_⟩
    cases outcome <;> simpa [resultOf] using h₂
  · rintro ⟨t₁, t₂, c, outcome, rfl, h₁, h₂⟩
    refine ⟨t₁, t₂, (c, outcome), rfl, h₁, ?_⟩
    cases outcome <;> simpa [resultOf] using h₂

omit [Serde] in
theorem returns_pull (ctx : PipelineContext) (tr : StorageTrace)
    (out : PipelineContext × StageOutcome) :
    (PullMetadataStage.execute ctx).Returns tr out ↔
      ∃ read, tr = [StorageOp.readMetadata.answered read] ∧
        out = PullMetadataStage.receive ctx (CloudStorage.metadataOfRead read) := by
  unfold PullMetadataStage.execute
  rw [CloudStorage.returns_downloadMetadata]
  constructor
  · rintro ⟨read, rest, rfl, rfl, rfl⟩
    exact ⟨read, rfl, rfl⟩
  · rintro ⟨read, rfl, rfl⟩
    exact ⟨read, [], rfl, rfl, rfl⟩

/-- A push that lets the pipeline continue has met no conflict. -/
theorem conflicts_of_push_continue {ctx ctx' : PipelineContext} {tr : StorageTrace}
    (h : (PushStage.execute ctx).Returns tr (ctx', .Continue)) : ctx'.conflicts = [] := by
  unfold PushStage.execute at h
  simp only [Prog.returns_bind] at h
  rcases h with ⟨t₁, t₂, c₁, -, -, t₃, t₄, c₂, -, -, t₅, rest, c, -, -, hfinish⟩
  have hnone : PushStage.outcome c = .Continue → c.conflicts = [] := by
    unfold PushStage.outcome
    split
    · intro _
      assumption
    · intro hcontra
      cases hcontra
  rcases PushStage.returns_finish hfinish with ⟨-, -, rfl, hout⟩ | ⟨-, r, -, hr⟩
  · exact hnone hout.symm
  · cases r with
    | ok updated =>
        rw [hr.1]
        exact hnone hr.2.symm
    | error e => cases hr.2

/-- A run of the pipeline reads the metadata, and pushes when the first two stages find
something to do. -/
theorem returns_execute (ctx ctx' : PipelineContext) (result : PipelineResult)
    (tr : StorageTrace) :
    (execute ctx).Returns tr (ctx', result) ↔
      ∃ read rest, tr = StorageOp.readMetadata.answered read :: rest ∧
        if (prepare ctx read).2 = .Continue then
          ∃ outcome, (PushStage.execute (prepare ctx read).1).Returns rest (ctx', outcome) ∧
            result = resultOf outcome
        else rest = [] ∧ ctx' = (prepare ctx read).1 ∧ result = resultOf (prepare ctx read).2 := by
  -- the stages from the last one back
  have hpush : ∀ c rest, (runStages [.Push, .Resolve] c).Returns rest (ctx', result) ↔
      ∃ outcome, (PushStage.execute c).Returns rest (ctx', outcome) ∧
        result = resultOf outcome := by
    intro c rest
    rw [returns_runStages_cons]
    constructor
    · rintro ⟨t₁, t₂, c', outcome, rfl, h₁, h₂⟩
      by_cases hcontinue : outcome = .Continue
      · subst hcontinue
        -- a push that goes on has found no conflict, so there is nothing to resolve
        have hnone := conflicts_of_push_continue h₁
        rw [if_pos rfl, returns_runStages_cons] at h₂
        rcases h₂ with ⟨t₃, t₄, c'', outcome', rfl, ⟨rfl, hresolve⟩, h₄⟩
        simp only [ResolveStage.execute, hnone, if_true] at hresolve
        cases hresolve
        rw [if_pos rfl] at h₄
        rcases h₄ with ⟨rfl, hout⟩
        cases hout
        have hpush : (PushStage.execute c).Returns t₁ (ctx', .Continue) := h₁
        exact ⟨.Continue, by simpa using hpush, rfl⟩
      · rw [if_neg hcontinue] at h₂
        rcases h₂ with ⟨rfl, hout⟩
        cases hout
        have hpush : (PushStage.execute c).Returns t₁ (ctx', outcome) := h₁
        exact ⟨outcome, by simpa using hpush, rfl⟩
    · rintro ⟨outcome, h, rfl⟩
      refine ⟨rest, [], ctx', outcome, by simp, h, ?_⟩
      by_cases hcontinue : outcome = .Continue
      · subst hcontinue
        have hnone := conflicts_of_push_continue h
        rw [if_pos rfl, returns_runStages_cons]
        refine ⟨[], [], ctx', .Continue, rfl, ⟨rfl, ?_⟩, ?_⟩
        · simp [ResolveStage.execute, hnone]
        · rw [if_pos rfl]
          exact ⟨rfl, rfl⟩
      · rw [if_neg hcontinue]
        exact ⟨rfl, rfl⟩
  -- the detection asks the storage nothing
  have hdetect : ∀ c rest, (runStages [.Detect, .Push, .Resolve] c).Returns rest (ctx', result) ↔
      if (DetectStage.execute c).2 = .Continue then
        (runStages [.Push, .Resolve] (DetectStage.execute c).1).Returns rest (ctx', result)
      else rest = [] ∧ ctx' = (DetectStage.execute c).1 ∧
        result = resultOf (DetectStage.execute c).2 := by
    intro c rest
    rw [returns_runStages_cons]
    constructor
    · rintro ⟨t₁, t₂, c', outcome, rfl, ⟨rfl, hout⟩, h₂⟩
      rw [← hout]
      by_cases hcontinue : outcome = .Continue
      · rw [if_pos hcontinue] at h₂ ⊢
        exact h₂
      · rw [if_neg hcontinue] at h₂ ⊢
        rcases h₂ with ⟨rfl, hres⟩
        cases hres
        exact ⟨rfl, rfl, rfl⟩
    · intro h
      refine ⟨[], rest, (DetectStage.execute c).1, (DetectStage.execute c).2, rfl, ⟨rfl, rfl⟩, ?_⟩
      by_cases hcontinue : (DetectStage.execute c).2 = .Continue
      · rw [if_pos hcontinue] at h ⊢
        exact h
      · rw [if_neg hcontinue] at h ⊢
        rcases h with ⟨rfl, rfl, rfl⟩
        exact ⟨rfl, rfl⟩
  unfold execute stages
  rw [returns_runStages_cons]
  constructor
  · rintro ⟨t₁, t₂, c, outcome, rfl, h₁, h₂⟩
    rcases (returns_pull _ _ _).mp h₁ with ⟨read, rfl, hout⟩
    refine ⟨read, t₂, rfl, ?_⟩
    unfold prepare
    rw [← hout]
    by_cases hcontinue : outcome = .Continue
    · subst hcontinue
      rw [if_pos rfl, hdetect] at h₂
      simpa only [hpush] using h₂
    · rw [if_neg hcontinue] at h₂
      rcases h₂ with ⟨rfl, hres⟩
      cases hres
      cases outcome <;> simp_all
  · rintro ⟨read, rest, rfl, h⟩
    cases hreceive : PullMetadataStage.receive ctx (CloudStorage.metadataOfRead read) with
    | mk c outcome =>
        refine ⟨[_], rest, c, outcome, rfl, (returns_pull _ _ _).mpr ⟨read, rfl, hreceive.symm⟩,
          ?_⟩
        unfold prepare at h
        rw [hreceive] at h
        by_cases hcontinue : outcome = .Continue
        · subst hcontinue
          rw [if_pos rfl, hdetect]
          simpa only [hpush] using h
        · rw [if_neg hcontinue]
          cases outcome <;> simp_all

end SyncPipeline

end OakKeyring
