import OakKeyring.Sync.PipelineSpec
import OakKeyring.Sync.Task
import OakKeyring.Samples.Store

/-!
# What the final metadata stands for

The executor stores the final metadata as the state it has caught up with. That is right when
every needed record and every conflict payload was obtained. The guard is that no failure was
counted, and a file that is absent is not counted.
-/

namespace OakKeyring

open Effect

/-- A remote entry the device must download: not deleted, and missing locally or newer than a
synced local record. -/
def Needed (localRecords : List LocalRecordInfo) (m : CloudMetadata) (id : String) : Prop :=
  ∃ info, m.records.lookup id = some info ∧ info.deleted = false ∧
    ((∀ r ∈ localRecords, r.recordId ≠ id) ∨
      ∃ r ∈ localRecords, r.recordId = id ∧ r.syncStatus = .Synced ∧ r.version < info.version)

/-- With final metadata, every needed record was downloaded and every conflict has its data. -/
def SnapshotSound (ctx : PipelineContext) (outcome : PipelineExecutionOutcome) : Prop :=
  outcome.finalMetadata.isSome = true → ∀ m, ctx.remoteMetadata = some m →
    (∀ id, Needed ctx.localRecords m id → (ctx.downloads.lookup id).isSome = true) ∧
    ∀ id ∈ ctx.conflicts, (outcome.conflictData.lookup id).isSome = true

namespace DetectStage

/-- Every needed record is on the download list. -/
theorem needed_mem_toDownload {ctx : PipelineContext} {m : CloudMetadata} {id : String}
    (hm : ctx.remoteMetadata = some m) (h : Needed ctx.localRecords m id) :
    id ∈ (execute ctx).1.toDownload := by
  rcases h with ⟨info, hlookup, hdeleted, hwhy⟩
  rw [execute_eq hm]
  rcases hwhy with hmissing | ⟨r, hr, hid, hsynced, hnewer⟩
  · have hentry : (⟨id, info⟩ : Sigma fun _ : String => RecordVersionInfo) ∈ m.records.entries :=
      AList.mem_lookup_iff.mp hlookup
    have hlocal : ctx.hasLocalRecord id = false := by
      simpa [PipelineContext.hasLocalRecord] using hmissing
    refine List.mem_append_right _ ?_
    exact List.mem_map.mpr ⟨_, List.mem_filter.mpr ⟨hentry, by simp [hdeleted, hlocal]⟩, rfl⟩
  · have hinfo : ctx.remoteInfo r.recordId = some info := by
      rw [hid, PipelineContext.remoteInfo, hm]
      exact hlookup
    have hclass : classify ctx r = .DownloadOnly := by
      have hne : info.version ≠ r.version := Nat.ne_of_gt hnewer
      simp [classify, hinfo, hne, hsynced, hnewer]
    refine List.mem_append_left _ (List.mem_append_right _ ?_)
    exact mem_idsWith.mpr ⟨r, hr, hid, by rw [hclass]; rfl⟩

/-- Nothing to do means that nothing is needed. -/
theorem toDownload_of_noChanges {ctx : PipelineContext}
    (h : (execute ctx).2 ≠ .Continue) :
    (execute ctx).1.toDownload = [] ∧ (execute ctx).1.conflicts = [] := by
  unfold execute at h ⊢
  split
  · rename_i hnone
    simp [hnone] at h
  · rename_i m hm
    simp only [hm] at h ⊢
    split
    · rename_i hempty
      exact ⟨hempty.2.1, hempty.2.2⟩
    · rename_i hne
      rw [if_neg hne] at h
      exact absurd rfl h

theorem remoteMetadata_execute (ctx : PipelineContext) :
    (execute ctx).1.remoteMetadata = ctx.remoteMetadata ∧
      (execute ctx).1.finalMetadata = ctx.finalMetadata ∧
      (execute ctx).1.localRecords = ctx.localRecords ∧
      (execute ctx).1.failedIds = ctx.failedIds ∧
      (execute ctx).1.downloads = ctx.downloads ∧
      (execute ctx).1.conflictDataMap = ctx.conflictDataMap := by
  cases hm : ctx.remoteMetadata with
  | none =>
      rw [execute_eq_of_none hm]
      exact ⟨hm, rfl, rfl, rfl, rfl, rfl⟩
  | some m =>
      rw [execute_eq hm]
      exact ⟨hm, rfl, rfl, rfl, rfl, rfl⟩

/-- Every conflict of a fresh context has a metadata entry. -/
theorem remoteInfo_of_conflict (ctx : PipelineContext) (hnone : ctx.conflicts = []) :
    ∀ id ∈ (execute ctx).1.conflicts, ((execute ctx).1.remoteInfo id).isSome = true := by
  intro id hid
  cases hm : ctx.remoteMetadata with
  | none =>
      rw [execute_eq_of_none hm] at hid
      rw [hnone] at hid
      cases hid
  | some m =>
      have hinfo : (execute ctx).1.remoteInfo = ctx.remoteInfo := by
        unfold PipelineContext.remoteInfo
        rw [(remoteMetadata_execute ctx).1]
      rw [execute_eq hm, hnone, List.nil_append, mem_idsWith] at hid
      rcases hid with ⟨r, -, rfl, hr⟩
      rcases classify_conflict hr with ⟨info, hlookup, -⟩
      rw [hinfo, hlookup]
      rfl

end DetectStage

variable [Codec] [Serde]

/-- The answers of a run that reached the push stage, loop by loop. -/
structure PushPhases (ctx : PipelineContext) (tr : StorageTrace) where
  read : Except SyncError CloudMetadata
  uploads : UploadAnswers
  downloads : ReadAnswers
  conflicts : ReadAnswers
  rest : StorageTrace
  continues : (SyncPipeline.prepare ctx read).2 = .Continue
  uploads_eq : uploads.map Prod.fst =
    PushStage.selectedUploads (SyncPipeline.prepare ctx read).1
  downloads_eq : downloads.map Prod.fst = (SyncPipeline.prepare ctx read).1.toDownload
  conflicts_eq : conflicts.map Prod.fst = (SyncPipeline.prepare ctx read).1.conflicts
  trace_eq : tr = StorageOp.readMetadata.answered read ::
    (uploads.map uploadEvent ++ (downloads.map readEvent ++ (conflicts.map readEvent ++ rest)))

namespace PushPhases

variable {ctx : PipelineContext} {tr : StorageTrace}

/-- The context with which the push stage starts. -/
def detected (ph : PushPhases ctx tr) : PipelineContext :=
  (SyncPipeline.prepare ctx ph.read).1

/-- No needed record and no conflict payload was reported absent at every read of it. -/
def NothingAbsent (ph : PushPhases ctx tr) : Prop :=
  ∀ m, ph.detected.remoteMetadata = some m →
    (∀ id, Needed ph.detected.localRecords m id →
      ∃ a ∈ ph.downloads, a.1 = id ∧ readAbsent a.2 = false) ∧
    ∀ id ∈ ph.detected.conflicts, ∃ a ∈ ph.conflicts, a.1 = id ∧ readAbsent a.2 = false

/-- An upload was refused, or a record or a conflict payload was answered with something that
cannot be used. -/
def SomethingFailed (ph : PushPhases ctx tr) : Prop :=
  (∃ a ∈ ph.uploads, a.2.isOk = false) ∨
    (∃ a ∈ ph.downloads, PushStage.ReadRejected (ph.detected.remoteInfo a.1) a.2) ∨
    ∃ a ∈ ph.conflicts, PushStage.ConflictRejected (ph.detected.remoteInfo a.1) a.2

omit [Serde] in
/-- A trace has the phases it has. -/
theorem eq_of_trace (ph ph' : PushPhases ctx tr) :
    ph.read = ph'.read ∧ ph.uploads = ph'.uploads ∧ ph.downloads = ph'.downloads ∧
      ph.conflicts = ph'.conflicts := by
  rcases ph with ⟨read, us, ds, cs, rest, -, hus, hds, hcs, htr⟩
  rcases ph' with ⟨read', us', ds', cs', rest', -, hus', hds', hcs', htr'⟩
  rw [htr] at htr'
  injection htr' with hread htail
  injection hread with _ hread
  subst hread
  have hlen : ∀ {β A : Type} {as as' : List (β × A)},
      as.map Prod.fst = as'.map Prod.fst → as.length = as'.length := by
    intro β A as as' h
    simpa using congrArg List.length h
  obtain ⟨h₁, htail⟩ := List.append_inj htail (by simpa using hlen (hus.trans hus'.symm))
  obtain ⟨h₂, htail⟩ := List.append_inj htail (by simpa using hlen (hds.trans hds'.symm))
  obtain ⟨h₃, -⟩ := List.append_inj htail (by simpa using hlen (hcs.trans hcs'.symm))
  exact ⟨rfl, uploadEvent_injective.list_map h₁, readEvent_injective.list_map h₂,
    readEvent_injective.list_map h₃⟩

end PushPhases

/-- A context in which no stage has run. -/
structure PipelineContext.Fresh (ctx : PipelineContext) : Prop where
  toDownload : ctx.toDownload = []
  conflicts : ctx.conflicts = []
  failedIds : ctx.failedIds = []
  downloads : ctx.downloads = ∅
  conflictDataMap : ctx.conflictDataMap = ∅
  finalMetadata : ctx.finalMetadata = none

omit [Codec] [Serde] in
theorem SyncTask.pipelineContext_fresh (t : SyncTask) : t.pipelineContext.Fresh := by
  unfold SyncTask.pipelineContext
  cases t.vaultData <;> exact ⟨rfl, rfl, rfl, rfl, rfl, rfl⟩

omit [Serde] in
/-- What the first two stages leave of a fresh context. -/
theorem SyncPipeline.prepare_fresh {ctx : PipelineContext} (hfresh : ctx.Fresh)
    (read : Except SyncError CloudMetadata) :
    (prepare ctx read).1.failedIds = [] ∧ (prepare ctx read).1.downloads = ∅ ∧
      (prepare ctx read).1.conflictDataMap = ∅ ∧
      ∀ id ∈ (prepare ctx read).1.conflicts,
        ((prepare ctx read).1.remoteInfo id).isSome = true := by
  rcases prepare_cases ctx read with ⟨outcome, -, h⟩ | ⟨m, -, -, -, h⟩ | ⟨-, h⟩
  · rw [h]
    refine ⟨hfresh.failedIds, hfresh.downloads, hfresh.conflictDataMap, ?_⟩
    simp [hfresh.conflicts]
  · rw [h]
    have hframe := DetectStage.remoteMetadata_execute (pulled ctx m)
    exact ⟨hframe.2.2.2.1.trans hfresh.failedIds, hframe.2.2.2.2.1.trans hfresh.downloads,
      hframe.2.2.2.2.2.trans hfresh.conflictDataMap,
      DetectStage.remoteInfo_of_conflict (pulled ctx m) hfresh.conflicts⟩
  · rw [h]
    have hframe := DetectStage.remoteMetadata_execute { ctx with remoteMetadata := none }
    exact ⟨hframe.2.2.2.1.trans hfresh.failedIds, hframe.2.2.2.2.1.trans hfresh.downloads,
      hframe.2.2.2.2.2.trans hfresh.conflictDataMap,
      DetectStage.remoteInfo_of_conflict _ hfresh.conflicts⟩

omit [Serde] in
/-- A device that goes on with metadata will report it, and downloads what it needs of it. -/
theorem SyncPipeline.prepare_remote {ctx : PipelineContext} (hfresh : ctx.Fresh)
    {read : Except SyncError CloudMetadata} {m : CloudMetadata}
    (hm : (prepare ctx read).1.remoteMetadata = some m)
    (hfinal : (prepare ctx read).2 = .Continue ∨
      (prepare ctx read).1.finalMetadata.isSome = true) :
    (prepare ctx read).1.finalMetadata.isSome = true ∧
      ∀ id, Needed (prepare ctx read).1.localRecords m id →
        id ∈ (prepare ctx read).1.toDownload := by
  rcases prepare_cases ctx read with ⟨outcome, hstop, h⟩ | ⟨m', -, -, -, h⟩ | ⟨-, h⟩
  · rw [h] at hfinal
    rcases hfinal with hcontinue | hsome
    · exact absurd hcontinue hstop
    · simp [hfresh.finalMetadata] at hsome
  · rw [h] at hm ⊢
    have hframe := DetectStage.remoteMetadata_execute (pulled ctx m')
    refine ⟨by rw [hframe.2.1]; rfl, ?_⟩
    intro id hneeded
    rw [hframe.1] at hm
    rw [hframe.2.2.1] at hneeded
    exact DetectStage.needed_mem_toDownload hm hneeded
  · rw [h] at hm
    rw [(DetectStage.remoteMetadata_execute { ctx with remoteMetadata := none }).1] at hm
    cases hm

omit [Serde] in
/-- A run that stops before the push stage with something to report needed nothing. -/
theorem SyncPipeline.prepare_early {ctx : PipelineContext} (hfresh : ctx.Fresh)
    {read : Except SyncError CloudMetadata} (hstop : (prepare ctx read).2 ≠ .Continue)
    (hfinal : (prepare ctx read).1.finalMetadata.isSome = true) :
    (prepare ctx read).1.toDownload = [] ∧ (prepare ctx read).1.conflicts = [] := by
  rcases prepare_cases ctx read with ⟨outcome, -, h⟩ | ⟨m, -, -, -, h⟩ | ⟨-, h⟩
  · rw [h] at hfinal
    simp [hfresh.finalMetadata] at hfinal
  · rw [h] at hstop ⊢
    exact DetectStage.toDownload_of_noChanges hstop
  · rw [h] at hstop ⊢
    exact DetectStage.toDownload_of_noChanges hstop

/-- In a push without a counted failure, a record was downloaded exactly when some read of it
was not absent. -/
theorem PushStage.lookup_keptDownloads_iff {info : String → Option RecordVersionInfo}
    {ds : ReadAnswers} (hok : ∀ a ∈ ds, ¬ ReadRejected (info a.1) a.2) (id : String) :
    ((keptDownloads info ds ∅).lookup id).isSome = true ↔
      ∃ a ∈ ds, a.1 = id ∧ readAbsent a.2 = false := by
  unfold keptDownloads
  rw [AList.isSome_lookup_collect_empty]
  constructor
  · rintro ⟨a, ha, hid, haccepted⟩
    refine ⟨a, ha, hid, ?_⟩
    unfold acceptedRead at haccepted
    cases hread : a.2 with
    | ok r => rfl
    | error e => simp [hread] at haccepted
  · rintro ⟨a, ha, hid, hpresent⟩
    refine ⟨a, ha, hid, ?_⟩
    by_contra hnone
    exact hok a ha ⟨by simpa using hnone, hpresent⟩

/-- The same for the payload of a conflict that has an entry. -/
theorem PushStage.lookup_storedConflicts_iff {info : String → Option RecordVersionInfo}
    {cs : ReadAnswers} (hinfo : ∀ a ∈ cs, (info a.1).isSome = true)
    (hok : ∀ a ∈ cs, ¬ ConflictRejected (info a.1) a.2) (id : String) :
    ((AList.collect (fun a => storedConflict (info a.1) a.2) cs ∅).lookup id).isSome = true ↔
      ∃ a ∈ cs, a.1 = id ∧ readAbsent a.2 = false := by
  rw [AList.isSome_lookup_collect_empty]
  constructor
  · rintro ⟨a, ha, hid, hstored⟩
    refine ⟨a, ha, hid, ?_⟩
    unfold storedConflict at hstored
    cases hread : a.2 with
    | ok r => rfl
    | error e => simp [hread] at hstored
  · rintro ⟨a, ha, hid, hpresent⟩
    refine ⟨a, ha, hid, ?_⟩
    by_contra hnone
    exact hok a ha ⟨hinfo a ha, by simpa using hnone, hpresent⟩

/-- A finished run stopped before the push stage, or left what the answers of that stage leave,
but for the final metadata. -/
theorem SyncPipeline.stops_or_pushes {ctx ctx' : PipelineContext} {result : PipelineResult}
    {tr : StorageTrace} (hfresh : ctx.Fresh) (hrun : (execute ctx).Returns tr (ctx', result)) :
    (∃ read, tr = [StorageOp.readMetadata.answered read] ∧
        (prepare ctx read).2 ≠ .Continue ∧ ctx' = (prepare ctx read).1 ∧
        result = resultOf (prepare ctx read).2) ∨
      ∃ ph : PushPhases ctx tr, ∃ outcome, result = resultOf outcome ∧
        (PushStage.finish (PushStage.afterAnswers ph.detected ph.uploads ph.downloads
          ph.conflicts)).Returns ph.rest (ctx', outcome) := by
  rcases (returns_execute _ _ _ _).mp hrun with ⟨read, rest, htr, h⟩
  by_cases hcontinue : (prepare ctx read).2 = .Continue
  · rw [if_pos hcontinue] at h
    rcases h with ⟨outcome, hpush, hresult⟩
    rcases (PushStage.returns_execute _ _ _ _ (prepare_fresh hfresh read).2.2.2).mp hpush with
      ⟨us, ds, cs, rest', hus, hds, hcs, hrest, hfinish⟩
    let ph : PushPhases ctx tr :=
      { read := read
        uploads := us
        downloads := ds
        conflicts := cs
        rest := rest'
        continues := hcontinue
        uploads_eq := hus
        downloads_eq := hds
        conflicts_eq := hcs
        trace_eq := by rw [htr, hrest] }
    exact Or.inr ⟨ph, outcome, hresult, hfinish⟩
  · rw [if_neg hcontinue] at h
    rcases h with ⟨hnil, hctx, hresult⟩
    exact Or.inl ⟨read, by rw [htr, hnil], hcontinue, hctx, hresult⟩

omit [Serde] in
/-- A run that stopped before the push stage has no phases of it. -/
theorem PushPhases.not_of_stopped {ctx : PipelineContext} {tr : StorageTrace}
    {read : Except SyncError CloudMetadata} (htr : tr = [StorageOp.readMetadata.answered read])
    (hstop : (SyncPipeline.prepare ctx read).2 ≠ .Continue) : PushPhases ctx tr → False := by
  intro ph
  have hsame := htr.symm.trans ph.trace_eq
  injection hsame with hread
  injection hread with _ hread
  have hcontinues := ph.continues
  rw [← hread] at hcontinues
  exact hstop hcontinues

namespace PushPhases

variable {ctx : PipelineContext} {tr : StorageTrace}

/-- Failures are what the push stage counts. -/
theorem failedIds_eq_nil_iff (ph : PushPhases ctx tr) (hfresh : ctx.Fresh) :
    (PushStage.afterAnswers ph.detected ph.uploads ph.downloads ph.conflicts).failedIds = [] ↔
      ¬ ph.SomethingFailed := by
  have hnone := (SyncPipeline.prepare_fresh hfresh ph.read).1
  unfold PushStage.afterAnswers SomethingFailed
  simp only [List.append_eq_nil_iff, PushStage.refusedUploads_eq_nil_iff,
    PushStage.rejectedReads_eq_nil_iff, PushStage.rejectedConflicts_eq_nil_iff]
  constructor
  · rintro ⟨⟨⟨-, hus⟩, hds⟩, hcs⟩ (⟨a, ha, hrefused⟩ | ⟨a, ha, hrejected⟩ | ⟨a, ha, hrejected⟩)
    · rw [hus a ha] at hrefused
      cases hrefused
    · exact hds a ha hrejected
    · exact hcs a ha hrejected
  · intro hok
    refine ⟨⟨⟨hnone, ?_⟩, ?_⟩, ?_⟩
    · intro a ha
      by_contra hrefused
      exact hok (Or.inl ⟨a, ha, by simpa using hrefused⟩)
    · intro a ha hrejected
      exact hok (Or.inr (Or.inl ⟨a, ha, hrejected⟩))
    · intro a ha hrejected
      exact hok (Or.inr (Or.inr ⟨a, ha, hrejected⟩))

end PushPhases

omit [Codec] [Serde] in
theorem SyncTask.finalMetadata_isSome_iff {ctx : PipelineContext} {result : PipelineResult} :
    (executionOutcome ctx result).finalMetadata.isSome = true ↔
      ctx.failedIds = [] ∧ ctx.finalMetadata.isSome = true := by
  unfold executionOutcome
  by_cases h : ctx.failedIds = [] <;> simp [h]

/-- The final metadata of a run is sound exactly when, in the run's push stage, no needed
record and no conflict payload was reported absent, unless some other answer of it failed. -/
theorem SyncTask.snapshot_sound_iff {t : SyncTask} {tr : StorageTrace}
    {ctx : PipelineContext} {result : PipelineResult}
    (hrun : (SyncPipeline.execute t.pipelineContext).Returns tr (ctx, result)) :
    SnapshotSound ctx (executionOutcome ctx result) ↔
      ∀ ph : PushPhases t.pipelineContext tr, ph.NothingAbsent ∨ ph.SomethingFailed := by
  have hfresh := t.pipelineContext_fresh
  rcases (SyncPipeline.returns_execute _ _ _ _).mp hrun with ⟨read, rest, htr, h⟩
  have hprepared := SyncPipeline.prepare_fresh hfresh read
  by_cases hcontinue : (SyncPipeline.prepare t.pipelineContext read).2 = .Continue
  · rw [if_pos hcontinue] at h
    rcases h with ⟨outcome, hpush, -⟩
    -- the phases of the push that was reached
    rcases (PushStage.returns_execute _ _ _ _ hprepared.2.2.2).mp hpush with
      ⟨us, ds, cs, rest', hus, hds, hcs, hrest, hfinish⟩
    let ph : PushPhases t.pipelineContext tr :=
      { read := read
        uploads := us
        downloads := ds
        conflicts := cs
        rest := rest'
        continues := hcontinue
        uploads_eq := hus
        downloads_eq := hds
        conflicts_eq := hcs
        trace_eq := by rw [htr, hrest] }
    -- the trace fixes the answers of its phases
    have hunique : (∀ ph : PushPhases t.pipelineContext tr,
        ph.NothingAbsent ∨ ph.SomethingFailed) ↔ ph.NothingAbsent ∨ ph.SomethingFailed := by
      refine ⟨fun h => h ph, fun h ph' => ?_⟩
      rcases ph.eq_of_trace ph' with ⟨h₁, h₂, h₃, h₄⟩
      unfold PushPhases.NothingAbsent PushPhases.SomethingFailed PushPhases.detected at h ⊢
      rw [← h₁, ← h₂, ← h₃, ← h₄]
      exact h
    rw [hunique]
    rcases PushStage.finish_frame hfinish with ⟨final, rfl, hkept⟩
    have hfailed := ph.failedIds_eq_nil_iff hfresh
    -- a failure anywhere leaves the final metadata out
    by_cases hfails : ph.SomethingFailed
    · refine ⟨fun _ => Or.inr hfails, fun _ hfinal => ?_⟩
      exact absurd hfails (hfailed.mp (finalMetadata_isSome_iff.mp hfinal).1)
    · have hnil := hfailed.mpr hfails
      -- nothing was rejected and every conflict has its entry
      have hrejects : (∀ a ∈ ds, ¬ PushStage.ReadRejected (ph.detected.remoteInfo a.1) a.2) ∧
          ∀ a ∈ cs, ¬ PushStage.ConflictRejected (ph.detected.remoteInfo a.1) a.2 :=
        ⟨fun a ha hr => hfails (Or.inr (Or.inl ⟨a, ha, hr⟩)),
          fun a ha hr => hfails (Or.inr (Or.inr ⟨a, ha, hr⟩))⟩
      have hentries : ∀ a ∈ cs, (ph.detected.remoteInfo a.1).isSome = true := by
        intro a ha
        refine hprepared.2.2.2 a.1 ?_
        rw [← hcs]
        exact List.mem_map_of_mem ha
      have hdownloads := PushStage.lookup_keptDownloads_iff hrejects.1
      have hconflicts := PushStage.lookup_storedConflicts_iff hentries hrejects.2
      rw [← hprepared.2.1] at hdownloads
      rw [← hprepared.2.2.1] at hconflicts
      refine Iff.trans (b := ph.NothingAbsent) ?_
        ⟨Or.inl, fun h => h.resolve_right hfails⟩
      constructor
      · intro h m hm
        have hfinal := (SyncPipeline.prepare_remote hfresh hm (Or.inl hcontinue)).1
        have hgood := h (finalMetadata_isSome_iff.mpr ⟨hnil, hkept hfinal⟩) m hm
        exact ⟨fun id hid => (hdownloads id).mp (hgood.1 id hid),
          fun id hid => (hconflicts id).mp (hgood.2 id hid)⟩
      · intro h _ m hm
        have hgood := h m hm
        exact ⟨fun id hid => (hdownloads id).mpr (hgood.1 id hid),
          fun id hid => (hconflicts id).mpr (hgood.2 id hid)⟩
  · rw [if_neg hcontinue] at h
    -- the run stopped before the push, without answers to judge by
    rcases h with ⟨hrest, rfl, -⟩
    constructor
    · intro _ ph
      refine absurd ph.continues ?_
      have hsame := htr.symm.trans ph.trace_eq
      injection hsame with hread
      injection hread with _ hread
      rw [← hread]
      exact hcontinue
    · intro _ hfinal m hm
      -- the run ended early, so nothing that the metadata list was missing
      have hsome := (finalMetadata_isSome_iff.mp hfinal).2
      have hnone := SyncPipeline.prepare_early hfresh hcontinue hsome
      have hneeds := (SyncPipeline.prepare_remote hfresh hm (Or.inr hsome)).2
      rw [hnone.1] at hneeds
      rw [hnone.2]
      exact ⟨fun id hid => absurd (hneeds id hid) (by simp), by simp⟩

omit [Codec] [Serde]

/-! ### A record file that is gone -/

namespace SyncTask

/-- A device that has nothing yet. -/
def emptyDevice : SyncTask :=
  { new (SyncStateMachine.new 5) with
    vaultData := some
      { localRecords := []
        uploads := []
        localMetadataVersion := 0
        lastRemoteMetadata := none
        localVaultToken := "token" } }

/-- Metadata that lists a record, and no record file. -/
def missingFileStore : CloudStore where
  metadata := some (Sample.metadata 3 (Sample.info 1 "checksum"))
  records := fun _ => none

/-- The rule at the run in which the listed record is absent. -/
theorem snapshot_sound_iff_missingFile :
    letI : Codec := referenceCodec [Sample.instant]
    letI : Serde := referenceSerde [] [] []
    let program := SyncPipeline.execute emptyDevice.pipelineContext
    let out := (run (CloudStore.serve Sample.instant) program missingFileStore).1
    SnapshotSound out.1 (executionOutcome out.1 out.2) ↔
      ∀ ph : PushPhases emptyDevice.pipelineContext
        (runTrace (CloudStore.serve Sample.instant) program missingFileStore),
        ph.NothingAbsent ∨ ph.SomethingFailed :=
  let : Codec := referenceCodec [Sample.instant]
  let : Serde := referenceSerde [] [] []
  snapshot_sound_iff (returns_runTrace _ _ _)

/-- The listed record is not downloaded, and the metadata is reported all the same. -/
theorem missingFile_unsound :
    letI : Codec := referenceCodec [Sample.instant]
    letI : Serde := referenceSerde [] [] []
    ¬ ∀ (t : SyncTask) tr ctx result,
      (SyncPipeline.execute t.pipelineContext).Returns tr (ctx, result) →
      SnapshotSound ctx (executionOutcome ctx result) := by
  let : Codec := referenceCodec [Sample.instant]
  let : Serde := referenceSerde [] [] []
  intro hall
  have hsound := hall emptyDevice _ _ _ (returns_runTrace (CloudStore.serve Sample.instant)
    (SyncPipeline.execute emptyDevice.pipelineContext) missingFileStore)
  have hdownloaded := (hsound (by decide +kernel) _ (by rfl)).1 Sample.recordId
    ⟨Sample.info 1 "checksum", by decide +kernel, rfl, Or.inl (by decide +kernel)⟩
  revert hdownloaded
  decide +kernel

end SyncTask

end OakKeyring
