import Mathlib.Data.List.Nodup
import OakKeyring.Sync.Snapshot

/-!
# Which record goes where

Detection reads the local rows one by one and then the remote entries without a row. Each id
ends on at most one of the three lists, and the lists depend on the lookups in the two
metadata documents only.
-/

namespace OakKeyring

/-- A context in which nothing was classified yet. -/
structure PipelineContext.Undetected (ctx : PipelineContext) : Prop where
  toUpload : ctx.toUpload = []
  toDownload : ctx.toDownload = []
  conflicts : ctx.conflicts = []

/-- The private checksum an entry of a document records for an id. -/
def privateChecksumIn (m? : Option CloudMetadata) (id : String) : Option String :=
  (m?.bind fun m => m.records.lookup id).bind RecordVersionInfo.privateMetadataChecksum

namespace PipelineContext

/-- A pending row behind its entry. -/
def Conflicting (ctx : PipelineContext) (id : String) : Prop :=
  ∃ r ∈ ctx.localRecords, r.recordId = id ∧ r.syncStatus = .Pending ∧
    ∃ info, ctx.remoteInfo id = some info ∧ r.version < info.version

/-- A pending row without an entry, or not behind it. -/
def Uploading (ctx : PipelineContext) (id : String) : Prop :=
  ∃ r ∈ ctx.localRecords, r.recordId = id ∧ r.syncStatus = .Pending ∧
    ∀ info, ctx.remoteInfo id = some info → info.version ≤ r.version

/-- An entry that is not deleted and has no row. -/
def Missing (ctx : PipelineContext) (id : String) : Prop :=
  (∃ info, ctx.remoteInfo id = some info ∧ info.deleted = false) ∧
    ∀ r ∈ ctx.localRecords, r.recordId ≠ id

/-- A synced row with a newer entry, or with an entry of its version for which `changed`
holds. -/
def Outdated (ctx : PipelineContext) (changed : String → Prop) (id : String) : Prop :=
  ∃ r ∈ ctx.localRecords, r.recordId = id ∧ r.syncStatus = .Synced ∧
    ∃ info, ctx.remoteInfo id = some info ∧
      (r.version < info.version ∨ info.version = r.version ∧ changed id)

/-- The entry has a private checksum that is not the one of the snapshot; without one in the
snapshot the document as a whole has to be newer than the local one. -/
def ChecksumReplaced (ctx : PipelineContext) (id : String) : Prop :=
  ∃ checksum, privateChecksumIn ctx.remoteMetadata id = some checksum ∧
    ((∃ previous, privateChecksumIn ctx.lastRemoteMetadata id = some previous ∧
        previous ≠ checksum) ∨
      (privateChecksumIn ctx.lastRemoteMetadata id = none ∧
        ∃ m, ctx.remoteMetadata = some m ∧ ctx.localMetadataVersion < m.metadataVersion))

theorem privateMetadataChanged_iff (ctx : PipelineContext) {id : String}
    {info : RecordVersionInfo} (hinfo : ctx.remoteInfo id = some info) :
    ctx.privateMetadataChangedSinceLastSnapshot id info = true ↔ ctx.ChecksumReplaced id := by
  have hremote : privateChecksumIn ctx.remoteMetadata id = info.privateMetadataChecksum := by
    have hlookup : (ctx.remoteMetadata.bind fun m => m.records.lookup id) = some info := hinfo
    simp [privateChecksumIn, hlookup]
  unfold privateMetadataChangedSinceLastSnapshot ChecksumReplaced
  rw [hremote]
  cases hchecksum : info.privateMetadataChecksum with
  | none => simp
  | some checksum =>
      have hsnapshot : ((ctx.lastRemoteMetadata.bind fun m => m.records.lookup id).bind
          fun i => i.privateMetadataChecksum) = privateChecksumIn ctx.lastRemoteMetadata id := rfl
      simp only [hsnapshot, Option.some.injEq, exists_eq_left']
      cases privateChecksumIn ctx.lastRemoteMetadata id with
      | some previous => simp
      | none => cases ctx.remoteMetadata <;> simp

end PipelineContext

namespace DetectStage

variable {ctx : PipelineContext}

/-! ## One row -/

theorem detectConflicts_pending (l r : Nat) :
    detectConflicts .Pending l r = if l < r then .Conflict l r else .UploadOnly := by
  by_cases hlt : l < r
  · rw [if_pos hlt, detectConflicts_pending_eq_conflict]
    exact ⟨hlt, rfl, rfl⟩
  · rw [if_neg hlt, detectConflicts_pending_eq_upload]
    exact Nat.not_lt.mp hlt

theorem detectConflicts_synced (l r : Nat) :
    detectConflicts .Synced l r = if l < r then .DownloadOnly else .NoAction := by
  by_cases hlt : l < r
  · rw [if_pos hlt, detectConflicts_synced_eq_download]
    exact hlt
  · have hcompare : compare r l ≠ .gt := fun h => hlt (Nat.compare_eq_gt.mp h)
    rw [if_neg hlt]
    unfold detectConflicts
    cases h : compare r l with
    | gt => exact absurd h hcompare
    | eq => rfl
    | lt => rfl

theorem classify_pending {r : LocalRecordInfo} (h : r.syncStatus = .Pending) :
    classify ctx r = match ctx.remoteInfo r.recordId with
      | some info =>
          if r.version < info.version then .Conflict r.version info.version else .UploadOnly
      | none => .UploadOnly := by
  unfold classify
  cases ctx.remoteInfo r.recordId <;> simp [h, detectConflicts_pending]

theorem classify_synced {r : LocalRecordInfo} (h : r.syncStatus = .Synced) :
    classify ctx r = match ctx.remoteInfo r.recordId with
      | some info =>
          if r.version < info.version ∨
              info.version = r.version ∧
                ctx.privateMetadataChangedSinceLastSnapshot r.recordId info = true then
            .DownloadOnly
          else .NoAction
      | none => .NoAction := by
  unfold classify
  cases hinfo : ctx.remoteInfo r.recordId with
  | none => simp [h]
  | some info =>
      simp only [h, true_and, detectConflicts_synced]
      split <;> split <;> simp_all

/-- A row in conflict is left alone. -/
theorem classify_conflicted {r : LocalRecordInfo} (h : r.syncStatus = .Conflict) :
    classify ctx r = .NoAction := by
  unfold classify
  cases ctx.remoteInfo r.recordId <;> simp [h]

theorem isUpload_classify_iff (r : LocalRecordInfo) :
    isUpload (classify ctx r) = true ↔ r.syncStatus = .Pending ∧
      ∀ info, ctx.remoteInfo r.recordId = some info → info.version ≤ r.version := by
  cases hstatus : r.syncStatus with
  | Pending =>
      rw [classify_pending hstatus]
      cases ctx.remoteInfo r.recordId with
      | none => simp [isUpload]
      | some info =>
          by_cases hlt : r.version < info.version
          · simp [hlt, isUpload]
          · simp [hlt, isUpload, Nat.not_lt.mp hlt]
  | Synced =>
      rw [classify_synced hstatus]
      cases ctx.remoteInfo r.recordId with
      | none => simp [isUpload]
      | some info => dsimp only; split <;> simp [isUpload]
  | Conflict => simp [classify_conflicted hstatus, isUpload]

theorem isConflict_classify_iff (r : LocalRecordInfo) :
    isConflict (classify ctx r) = true ↔ r.syncStatus = .Pending ∧
      ∃ info, ctx.remoteInfo r.recordId = some info ∧ r.version < info.version := by
  cases hstatus : r.syncStatus with
  | Pending =>
      rw [classify_pending hstatus]
      cases ctx.remoteInfo r.recordId with
      | none => simp [isConflict]
      | some info => by_cases hlt : r.version < info.version <;> simp [hlt, isConflict]
  | Synced =>
      rw [classify_synced hstatus]
      cases ctx.remoteInfo r.recordId with
      | none => simp [isConflict]
      | some info => dsimp only; split <;> simp [isConflict]
  | Conflict => simp [classify_conflicted hstatus, isConflict]

theorem isDownload_classify_iff (r : LocalRecordInfo) :
    isDownload (classify ctx r) = true ↔ r.syncStatus = .Synced ∧
      ∃ info, ctx.remoteInfo r.recordId = some info ∧
        (r.version < info.version ∨
          info.version = r.version ∧ ctx.ChecksumReplaced r.recordId) := by
  cases hstatus : r.syncStatus with
  | Pending =>
      rw [classify_pending hstatus]
      cases ctx.remoteInfo r.recordId with
      | none => simp [isDownload]
      | some info => dsimp only; split <;> simp [isDownload]
  | Synced =>
      rw [classify_synced hstatus]
      cases hinfo : ctx.remoteInfo r.recordId with
      | none => simp [isDownload]
      | some info =>
          simp only [true_and, Option.some.injEq, exists_eq_left']
          rw [← ctx.privateMetadataChanged_iff hinfo]
          split
          · rename_i hdownload
            exact ⟨fun _ => hdownload, fun _ => rfl⟩
          · rename_i hnone
            exact ⟨fun h => (by cases h), fun h => absurd h hnone⟩
  | Conflict => simp [classify_conflicted hstatus, isDownload]

/-- An action selects one list at most. -/
theorem selects_one (a : ConflictAction) :
    ¬ (isUpload a = true ∧ isDownload a = true) ∧ ¬ (isUpload a = true ∧ isConflict a = true) ∧
      ¬ (isDownload a = true ∧ isConflict a = true) := by
  cases a <;> simp [isUpload, isDownload, isConflict]

/-! ## The three lists -/

/-- What detection leaves: no id twice, each where its row and its entry send it. -/
structure Partitioned (ctx : PipelineContext) (out : PipelineContext × StageOutcome) : Prop where
  nodup : (out.1.toUpload ++ out.1.toDownload ++ out.1.conflicts).Nodup
  conflicts : ∀ id, id ∈ out.1.conflicts ↔ ctx.Conflicting id
  toUpload : ∀ id, id ∈ out.1.toUpload ↔ ctx.Uploading id
  toDownload : ∀ id, id ∈ out.1.toDownload ↔
    ctx.Missing id ∨ ctx.Outdated ctx.ChecksumReplaced id
  noChanges : out.2 = .NoChanges ↔
    out.1.toUpload = [] ∧ out.1.toDownload = [] ∧ out.1.conflicts = []
  continues : out.2 ≠ .NoChanges → out.2 = .Continue

theorem mem_missingRemoteIds {m : CloudMetadata} (hm : ctx.remoteMetadata = some m)
    (id : String) : id ∈ ctx.missingRemoteIds m ↔ ctx.Missing id := by
  have hlocal : ctx.hasLocalRecord id = false ↔ ∀ r ∈ ctx.localRecords, r.recordId ≠ id := by
    simp [PipelineContext.hasLocalRecord]
  have hentry : ∀ info, ctx.remoteInfo id = some info ↔
      (⟨id, info⟩ : Sigma fun _ : String => RecordVersionInfo) ∈ m.records.entries := by
    intro info
    rw [PipelineContext.remoteInfo, hm]
    exact AList.mem_lookup_iff
  unfold PipelineContext.missingRemoteIds PipelineContext.Missing
  simp only [List.mem_map, List.mem_filter, Bool.and_eq_true, Bool.not_eq_true', hentry]
  constructor
  · rintro ⟨⟨id', info⟩, ⟨hmem, hdeleted, hmissing⟩, rfl⟩
    exact ⟨⟨info, hmem, hdeleted⟩, hlocal.mp hmissing⟩
  · rintro ⟨⟨info, hmem, hdeleted⟩, hmissing⟩
    exact ⟨⟨id, info⟩, ⟨hmem, hdeleted, hlocal.mpr hmissing⟩, rfl⟩

theorem nodup_missingRemoteIds (m : CloudMetadata) : (ctx.missingRemoteIds m).Nodup := by
  have hkeys : (m.records.entries.map Sigma.fst).Nodup := m.records.keys_nodup
  exact hkeys.sublist (List.filter_sublist.map Sigma.fst)

theorem nodup_idsWith (p : ConflictAction → Bool)
    (hrows : (ctx.localRecords.map LocalRecordInfo.recordId).Nodup) :
    (idsWith p ctx).Nodup :=
  hrows.sublist (List.filter_sublist.map LocalRecordInfo.recordId)

/-- With distinct rows, one id has one action. -/
theorem idsWith_disjoint {p q : ConflictAction → Bool}
    (hrows : (ctx.localRecords.map LocalRecordInfo.recordId).Nodup)
    (hpq : ∀ a, ¬ (p a = true ∧ q a = true)) : List.Disjoint (idsWith p ctx) (idsWith q ctx) := by
  intro id hp hq
  rcases mem_idsWith.mp hp with ⟨r, hr, hid, haction⟩
  rcases mem_idsWith.mp hq with ⟨r', hr', hid', haction'⟩
  have heq : r = r' := List.inj_on_of_nodup_map hrows hr hr' (hid.trans hid'.symm)
  rw [← heq] at haction'
  exact hpq _ ⟨haction, haction'⟩

theorem missing_disjoint (p : ConflictAction → Bool) {m : CloudMetadata}
    (hm : ctx.remoteMetadata = some m) :
    List.Disjoint (idsWith p ctx) (ctx.missingRemoteIds m) := by
  intro id hp hmissing
  rcases mem_idsWith.mp hp with ⟨r, hr, hid, -⟩
  exact ((mem_missingRemoteIds hm id).mp hmissing).2 r hr hid

theorem execute_undetected {m : CloudMetadata} (hfresh : ctx.Undetected)
    (hm : ctx.remoteMetadata = some m) :
    (execute ctx).1 =
      { ctx with
        toUpload := idsWith isUpload ctx
        toDownload := idsWith isDownload ctx ++ ctx.missingRemoteIds m
        conflicts := idsWith isConflict ctx } := by
  rw [execute_eq hm, hfresh.toUpload, hfresh.toDownload, hfresh.conflicts]
  rfl

/-- The outcome says whether there is anything to do. -/
theorem outcome_execute {m : CloudMetadata} (hm : ctx.remoteMetadata = some m) :
    (execute ctx).2 =
      if (execute ctx).1.toUpload = [] ∧ (execute ctx).1.toDownload = [] ∧
          (execute ctx).1.conflicts = [] then .NoChanges else .Continue := by
  unfold execute
  split
  · rename_i hnone
    rw [hm] at hnone
    cases hnone
  · dsimp only
    split <;> rfl

theorem mem_toUpload_execute (hfresh : ctx.Undetected) (id : String) :
    id ∈ (execute ctx).1.toUpload ↔ ctx.Uploading id := by
  cases hm : ctx.remoteMetadata with
  | some m =>
      rw [execute_undetected hfresh hm, mem_idsWith]
      refine exists_congr fun r => and_congr_right fun _ => and_congr_right fun hid => ?_
      rw [isUpload_classify_iff, hid]
  | none =>
      have hinfo : ctx.remoteInfo id = none := by
        rw [PipelineContext.remoteInfo, hm]
        rfl
      rw [execute_eq_of_none hm, hfresh.toUpload, List.nil_append, List.mem_map]
      refine exists_congr fun r => ?_
      simp only [List.mem_filter, beq_iff_eq, hinfo, reduceCtorEq, false_implies, implies_true,
        and_true]
      exact ⟨fun h => ⟨h.1.1, h.2, h.1.2⟩, fun h => ⟨⟨h.1, h.2.2⟩, h.2.1⟩⟩

theorem mem_conflicts_execute {m : CloudMetadata} (hfresh : ctx.Undetected)
    (hm : ctx.remoteMetadata = some m) (id : String) :
    id ∈ (execute ctx).1.conflicts ↔ ctx.Conflicting id := by
  rw [execute_undetected hfresh hm, mem_idsWith]
  refine exists_congr fun r => and_congr_right fun _ => and_congr_right fun hid => ?_
  rw [isConflict_classify_iff, hid]

theorem mem_toDownload_execute {m : CloudMetadata} (hfresh : ctx.Undetected)
    (hm : ctx.remoteMetadata = some m) (id : String) :
    id ∈ (execute ctx).1.toDownload ↔ ctx.Missing id ∨ ctx.Outdated ctx.ChecksumReplaced id := by
  rw [execute_undetected hfresh hm, List.mem_append, mem_missingRemoteIds hm, mem_idsWith,
    or_comm]
  refine or_congr Iff.rfl (exists_congr fun r => and_congr_right fun _ =>
    and_congr_right fun hid => ?_)
  rw [isDownload_classify_iff, hid]

/-- The three lists together hold no id twice. -/
theorem nodup_execute {m : CloudMetadata} (hfresh : ctx.Undetected)
    (hm : ctx.remoteMetadata = some m)
    (hrows : (ctx.localRecords.map LocalRecordInfo.recordId).Nodup) :
    ((execute ctx).1.toUpload ++ (execute ctx).1.toDownload ++
      (execute ctx).1.conflicts).Nodup := by
  have hone := selects_one
  rw [execute_undetected hfresh hm, List.nodup_append', List.nodup_append', List.nodup_append']
  refine ⟨⟨nodup_idsWith _ hrows,
    ⟨nodup_idsWith _ hrows, nodup_missingRemoteIds m, missing_disjoint _ hm⟩, ?_⟩,
    nodup_idsWith _ hrows, ?_⟩
  · rw [List.disjoint_append_right]
    exact ⟨idsWith_disjoint hrows fun a => (hone a).1, missing_disjoint _ hm⟩
  · rw [List.disjoint_append_left, List.disjoint_append_left]
    exact ⟨idsWith_disjoint hrows fun a => (hone a).2.1,
      idsWith_disjoint hrows fun a => (hone a).2.2,
      fun id hmissing hid => missing_disjoint _ hm hid hmissing⟩

theorem partitioned_execute {m : CloudMetadata} (hfresh : ctx.Undetected)
    (hm : ctx.remoteMetadata = some m)
    (hrows : (ctx.localRecords.map LocalRecordInfo.recordId).Nodup) :
    Partitioned ctx (execute ctx) where
  nodup := nodup_execute hfresh hm hrows
  conflicts := mem_conflicts_execute hfresh hm
  toUpload := mem_toUpload_execute hfresh
  toDownload := mem_toDownload_execute hfresh hm
  noChanges := by
    rw [outcome_execute hm]
    split
    · rename_i hempty
      exact ⟨fun _ => hempty, fun _ => rfl⟩
    · rename_i hsome
      exact ⟨fun h => (by cases h), fun h => absurd h hsome⟩
  continues := by
    intro hsome
    rw [outcome_execute hm] at hsome ⊢
    split
    · rename_i hempty
      exact absurd (if_pos hempty) hsome
    · rfl

/-! ## The order of the maps -/

/-- The same document, its entries listed in any order. -/
def SameDocument (m m' : CloudMetadata) : Prop :=
  m'.metadataVersion = m.metadataVersion ∧ m'.records.entries.Perm m.records.entries

/-- The same device with the same documents, their maps in any order. -/
structure Reordered (ctx ctx' : PipelineContext) : Prop where
  localRecords : ctx'.localRecords = ctx.localRecords
  localMetadataVersion : ctx'.localMetadataVersion = ctx.localMetadataVersion
  remote : Option.Rel SameDocument ctx.remoteMetadata ctx'.remoteMetadata
  snapshot : Option.Rel SameDocument ctx.lastRemoteMetadata ctx'.lastRemoteMetadata

/-- Two results that agree as sets, with the same outcome. -/
structure SameLists (out out' : PipelineContext × StageOutcome) : Prop where
  toUpload : ∀ id, id ∈ out'.1.toUpload ↔ id ∈ out.1.toUpload
  toDownload : ∀ id, id ∈ out'.1.toDownload ↔ id ∈ out.1.toDownload
  conflicts : ∀ id, id ∈ out'.1.conflicts ↔ id ∈ out.1.conflicts
  outcome : out'.2 = out.2

theorem lookup_sameDocument {m? m'? : Option CloudMetadata}
    (h : Option.Rel SameDocument m? m'?) (id : String) :
    (m'?.bind fun m => m.records.lookup id) = m?.bind fun m => m.records.lookup id := by
  cases h with
  | none => rfl
  | some hsame => exact AList.perm_lookup hsame.2

namespace Reordered

variable {ctx' : PipelineContext}

theorem remoteInfo (h : Reordered ctx ctx') (id : String) :
    ctx'.remoteInfo id = ctx.remoteInfo id :=
  lookup_sameDocument h.remote id

theorem conflicting_iff (h : Reordered ctx ctx') (id : String) :
    ctx'.Conflicting id ↔ ctx.Conflicting id := by
  simp [PipelineContext.Conflicting, h.localRecords, h.remoteInfo]

theorem uploading_iff (h : Reordered ctx ctx') (id : String) :
    ctx'.Uploading id ↔ ctx.Uploading id := by
  simp [PipelineContext.Uploading, h.localRecords, h.remoteInfo]

theorem missing_iff (h : Reordered ctx ctx') (id : String) :
    ctx'.Missing id ↔ ctx.Missing id := by
  simp [PipelineContext.Missing, h.localRecords, h.remoteInfo]

theorem newer_iff (h : Reordered ctx ctx') :
    (∃ m, ctx'.remoteMetadata = some m ∧ ctx'.localMetadataVersion < m.metadataVersion) ↔
      ∃ m, ctx.remoteMetadata = some m ∧ ctx.localMetadataVersion < m.metadataVersion := by
  have hremote := h.remote
  rw [h.localMetadataVersion]
  cases hm : ctx.remoteMetadata with
  | none =>
      cases hm' : ctx'.remoteMetadata with
      | none => simp
      | some m' =>
          rw [hm, hm'] at hremote
          cases hremote
  | some m =>
      cases hm' : ctx'.remoteMetadata with
      | none =>
          rw [hm, hm'] at hremote
          cases hremote
      | some m' =>
          rw [hm, hm'] at hremote
          cases hremote with
          | some hsame => simp [hsame.1]

theorem checksumReplaced_iff (h : Reordered ctx ctx') (id : String) :
    ctx'.ChecksumReplaced id ↔ ctx.ChecksumReplaced id := by
  have hremote : privateChecksumIn ctx'.remoteMetadata id =
      privateChecksumIn ctx.remoteMetadata id := by
    unfold privateChecksumIn
    rw [lookup_sameDocument h.remote]
  have hsnapshot : privateChecksumIn ctx'.lastRemoteMetadata id =
      privateChecksumIn ctx.lastRemoteMetadata id := by
    unfold privateChecksumIn
    rw [lookup_sameDocument h.snapshot]
  unfold PipelineContext.ChecksumReplaced
  rw [hremote, hsnapshot, h.newer_iff]

theorem outdated_iff (h : Reordered ctx ctx') (id : String) :
    ctx'.Outdated ctx'.ChecksumReplaced id ↔ ctx.Outdated ctx.ChecksumReplaced id := by
  simp [PipelineContext.Outdated, h.localRecords, h.remoteInfo, h.checksumReplaced_iff]

end Reordered

theorem Partitioned.sameLists {ctx' : PipelineContext}
    {out out' : PipelineContext × StageOutcome} (h : Partitioned ctx out)
    (h' : Partitioned ctx' out') (hsame : Reordered ctx ctx') : SameLists out out' := by
  have hupload : ∀ id, id ∈ out'.1.toUpload ↔ id ∈ out.1.toUpload := fun id => by
    rw [h'.toUpload, h.toUpload, hsame.uploading_iff]
  have hdownload : ∀ id, id ∈ out'.1.toDownload ↔ id ∈ out.1.toDownload := fun id => by
    rw [h'.toDownload, h.toDownload, hsame.missing_iff, hsame.outdated_iff]
  have hconflict : ∀ id, id ∈ out'.1.conflicts ↔ id ∈ out.1.conflicts := fun id => by
    rw [h'.conflicts, h.conflicts, hsame.conflicting_iff]
  refine ⟨hupload, hdownload, hconflict, ?_⟩
  have hempty : out'.2 = .NoChanges ↔ out.2 = .NoChanges := by
    rw [h'.noChanges, h.noChanges]
    simp only [List.eq_nil_iff_forall_not_mem, hupload, hdownload, hconflict]
  by_cases hnone : out.2 = .NoChanges
  · rw [hnone]
    exact hempty.mpr hnone
  · rw [h.continues hnone]
    exact h'.continues fun hnone' => hnone (hempty.mp hnone')

/-- Detection sorts every id to one list at most, by its row and its entry, whatever the
order of the two maps, and says `NoChanges` when there is nothing on the lists. -/
theorem detect_partitions {m : CloudMetadata} (hfresh : ctx.Undetected)
    (hm : ctx.remoteMetadata = some m)
    (hrows : (ctx.localRecords.map LocalRecordInfo.recordId).Nodup) :
    Partitioned ctx (execute ctx) ∧ ∀ ctx' : PipelineContext, ctx'.Undetected →
      Reordered ctx ctx' → SameLists (execute ctx) (execute ctx') := by
  have hhere := partitioned_execute hfresh hm hrows
  refine ⟨hhere, fun ctx' hfresh' hsame => ?_⟩
  have hremote := hsame.remote
  cases hm' : ctx'.remoteMetadata with
  | none =>
      rw [hm, hm'] at hremote
      cases hremote
  | some m' =>
      have hthere := partitioned_execute hfresh' hm' (by rw [hsame.localRecords]; exact hrows)
      exact hhere.sameLists hthere hsame

/-! ### A private checksum that is gone -/

section

/-- A synced row of version 1; the snapshot records a private checksum, the document of
version 4 has the entry without one. -/
def strippedEntry : PipelineContext :=
  { PipelineContext.new 3 "token" with
    remoteMetadata := some (Sample.metadata 4 (Sample.info 1 "checksum"))
    lastRemoteMetadata := some (Sample.metadata 3
      { Sample.info 1 "checksum" with privateMetadataChecksum := some "private" })
    localRecords :=
      [{ recordId := Sample.recordId
         syncStatus := .Synced
         version := 1 }] }

theorem strippedEntry_undetected : strippedEntry.Undetected :=
  ⟨rfl, rfl, rfl⟩

theorem detect_partitions_stripped :
    Partitioned strippedEntry (execute strippedEntry) ∧
      ∀ ctx' : PipelineContext, ctx'.Undetected → Reordered strippedEntry ctx' →
        SameLists (execute strippedEntry) (execute ctx') :=
  detect_partitions strippedEntry_undetected rfl (List.nodup_singleton _)

/-- The checksum of the snapshot is not the one of the entry, and the row is not downloaded. -/
theorem stripped_entry_not_downloaded :
    ¬ ∀ (ctx : PipelineContext) (m : CloudMetadata), ctx.Undetected →
      ctx.remoteMetadata = some m → (ctx.localRecords.map LocalRecordInfo.recordId).Nodup →
      ∀ id, id ∈ (execute ctx).1.toDownload ↔ ctx.Missing id ∨ ctx.Outdated (fun id =>
        privateChecksumIn ctx.remoteMetadata id ≠ privateChecksumIn ctx.lastRemoteMetadata id)
          id := by
  intro hall
  have hiff := hall strippedEntry _ strippedEntry_undetected rfl (List.nodup_singleton _)
    Sample.recordId
  have hnone : (execute strippedEntry).1.toDownload = [] := by decide
  have hremote : privateChecksumIn strippedEntry.remoteMetadata Sample.recordId = none := by
    decide
  have hsnapshot : privateChecksumIn strippedEntry.lastRemoteMetadata Sample.recordId =
      some "private" := by
    decide
  have hinfo : strippedEntry.remoteInfo Sample.recordId = some (Sample.info 1 "checksum") := by
    decide
  have hchanged : privateChecksumIn strippedEntry.remoteMetadata Sample.recordId ≠
      privateChecksumIn strippedEntry.lastRemoteMetadata Sample.recordId := by
    rw [hremote, hsnapshot]
    simp
  have hmem := hiff.mpr (Or.inr ⟨_, List.mem_singleton_self _, rfl, rfl, _, hinfo,
    Or.inr ⟨rfl, hchanged⟩⟩)
  rw [hnone] at hmem
  cases hmem

end

end DetectStage

/-! ## Detection in a run of the pipeline -/

namespace SyncPipeline

variable [Codec]

/-- Whether a run goes on past the metadata, and with which metadata. -/
def GoesOn (ctx : PipelineContext) (read : Except SyncError CloudMetadata)
    (m? : Option CloudMetadata) : Prop :=
  CloudStorage.metadataOfRead read = .ok m? ∧
    ∀ m, m? = some m → m.vaultIdentityToken = ctx.localVaultToken

omit [Codec] in
theorem hasPendingUploads_of_row {ctx : PipelineContext} {row : LocalRecordInfo}
    (hrow : row ∈ ctx.localRecords) (hpending : row.syncStatus = .Pending) :
    ctx.hasPendingUploads = true := by
  simp only [PipelineContext.hasPendingUploads, List.any_eq_true, beq_iff_eq]
  exact ⟨row, hrow, hpending⟩

/-- With the vault's metadata, or none, detection runs, unless no row is pending. -/
theorem prepare_goesOn {ctx : PipelineContext} {read : Except SyncError CloudMetadata}
    {m? : Option CloudMetadata} (h : GoesOn ctx read m?) :
    ((prepare ctx read).2 ≠ .Continue ∧ ctx.hasPendingUploads = false) ∨
      ∃ final, prepare ctx read =
        DetectStage.execute { ctx with remoteMetadata := m?, finalMetadata := final } := by
  unfold prepare
  rw [h.1]
  cases m? with
  | none => exact Or.inr ⟨ctx.finalMetadata, rfl⟩
  | some m =>
      have htoken : ¬ m.vaultIdentityToken ≠ ctx.localVaultToken := not_not.mpr (h.2 m rfl)
      simp only [PullMetadataStage.receive, PullMetadataStage.receiveMetadata, if_neg htoken]
      by_cases hsame : m.metadataVersion = ctx.localMetadataVersion ∧
          ctx.hasPendingUploads = false ∧ ctx.missingRemoteIds m = []
      · rw [if_pos hsame]
        exact Or.inl ⟨by simp, hsame.2.1⟩
      · rw [if_neg hsame]
        exact Or.inr ⟨some m, rfl⟩

/-- With other metadata the run stops before the push. -/
theorem prepare_not_goesOn {ctx : PipelineContext} {read : Except SyncError CloudMetadata}
    (h : ∀ m?, ¬ GoesOn ctx read m?) : (prepare ctx read).2 ≠ .Continue := by
  rcases prepare_cases ctx read with ⟨outcome, hstop, hout⟩ | ⟨m, hread, hvalid, htoken, -⟩ | ⟨hread, -⟩
  · rw [hout]
    exact hstop
  · have hsome := (CloudStorage.metadataOfRead_eq_some_iff read m).mpr ⟨hread, hvalid⟩
    refine absurd ⟨hsome, ?_⟩ (h (some m))
    intro m' hm'
    cases hm'
    exact htoken
  · refine absurd ⟨hread, ?_⟩ (h none)
    intro m' hm'
    cases hm'

theorem prepare_push {ctx : PipelineContext} (hfresh : ctx.Undetected)
    (read : Except SyncError CloudMetadata) :
    (prepare ctx read).1.uploadedIds = ctx.uploadedIds ∧
      ∀ id ∈ (prepare ctx read).1.conflicts, ((prepare ctx read).1.remoteInfo id).isSome = true := by
  rcases prepare_cases ctx read with ⟨outcome, -, h⟩ | ⟨m, -, -, -, h⟩ | ⟨-, h⟩
  · rw [h]
    refine ⟨rfl, ?_⟩
    simp [hfresh.conflicts]
  · rw [h]
    exact ⟨(DetectStage.samePush_execute (pulled ctx m)).2.2,
      DetectStage.remoteInfo_of_conflict (pulled ctx m) hfresh.conflicts⟩
  · rw [h]
    exact ⟨(DetectStage.samePush_execute { ctx with remoteMetadata := none }).2.2,
      DetectStage.remoteInfo_of_conflict _ hfresh.conflicts⟩

end SyncPipeline

theorem SyncTask.pipelineContext_undetected (t : SyncTask) :
    t.pipelineContext.Undetected ∧ t.pipelineContext.uploadedIds = [] := by
  unfold SyncTask.pipelineContext
  cases t.vaultData <;> exact ⟨⟨rfl, rfl, rfl⟩, rfl⟩

end OakKeyring
