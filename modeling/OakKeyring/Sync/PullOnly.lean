import OakKeyring.Sync.IdentityGate
import OakKeyring.Sync.Partition
import OakKeyring.Sync.PushRepair

/-!
# What a pull-only sync writes

`PullOnly` runs the same pipeline as a full sync, on the vault data the last `TriggerSync`
left. It writes nothing when no upload of that data belongs to a pending row that may be
pushed.
-/

namespace OakKeyring

open Effect Transition

/-- The data holds the upload of a pending row that is not behind its entry in the cloud. -/
def SyncVaultData.Offers (data : SyncVaultData) (m? : Option CloudMetadata) : Prop :=
  ∃ record ∈ data.uploads, ∃ row ∈ data.localRecords, row.recordId = record.id ∧
    row.syncStatus = .Pending ∧
    ∀ info, (m?.bind fun m => m.records.lookup record.id) = some info → info.version ≤ row.version

/-- No operation of the turn writes to the cloud. -/
def TaskLabel.WritesNothing (l : TaskLabel) : Prop :=
  ∀ e ∈ l.trace, StorageOp.IsRead e.call

instance (l : TaskLabel) : Decidable l.WritesNothing :=
  @List.decidableBAll _ (fun e : Event StorageI => StorageOp.IsRead e.call)
    (fun e => StorageOp.decidableIsRead e.call) l.trace

section

variable [Codec] [Serde]

namespace PushStage

/-! ## The push stage -/

omit [Codec] [Serde] in
theorem isRead_readEvents (rs : ReadAnswers) : ∀ e ∈ rs.map readEvent, StorageOp.IsRead e.call := by
  intro e he
  rcases List.mem_map.mp he with ⟨a, -, rfl⟩
  trivial

/-- Without an upload nothing is written, and every upload is. -/
theorem reads_execute_iff {ctx ctx' : PipelineContext} {outcome : StageOutcome}
    {tr : StorageTrace} (hnone : ctx.uploadedIds = [])
    (hinfo : ∀ id ∈ ctx.conflicts, (ctx.remoteInfo id).isSome = true)
    (hrun : (PushStage.execute ctx).Returns tr (ctx', outcome)) :
    (∀ e ∈ tr, StorageOp.IsRead e.call) ↔ selectedUploads ctx = [] := by
  rcases (returns_execute ctx ctx' outcome tr hinfo).mp hrun with
    ⟨us, ds, cs, rest, hus, -, -, htr, hfinish⟩
  constructor
  · intro hreads
    cases us with
    | nil => exact hus.symm
    -- a single upload is a write already
    | cons a us =>
        have hwrite : uploadEvent a ∈ tr := by
          rw [htr]
          exact List.mem_append_left _ List.mem_cons_self
        exact absurd (hreads _ hwrite) id
  · intro hselected
    -- nothing is uploaded, so the final metadata are not written either
    have hnil : us = [] := by
      rw [hselected] at hus
      exact List.map_eq_nil_iff.mp hus
    have hids : (afterAnswers ctx us ds cs).uploadedIds = [] := by
      rw [hnil]
      simp [afterAnswers, acceptedUploads, hnone]
    have hrest : rest = [] := by
      rcases returns_finish hfinish with ⟨-, hrest, -⟩ | ⟨hsome, -⟩
      · exact hrest
      · exact absurd hids hsome
    rw [htr, hnil, hrest, List.append_nil, List.map_nil, List.nil_append]
    intro e he
    rcases List.mem_append.mp he with he | he
    · exact isRead_readEvents ds e he
    · exact isRead_readEvents cs e he

omit [Codec] [Serde] in
theorem selectedUploads_eq_nil_iff (ctx : PipelineContext) :
    selectedUploads ctx = [] ↔ ∀ record ∈ ctx.uploads, record.id ∉ ctx.toUpload := by
  simp [selectedUploads]

end PushStage

namespace SyncPipeline

/-! ## The pipeline -/

omit [Codec] [Serde] in
/-- The uploads selected are those of the pending rows that may be pushed. -/
theorem selectedUploads_execute_iff {ctx : PipelineContext} (hfresh : ctx.Undetected) :
    PushStage.selectedUploads (DetectStage.execute ctx).1 = [] ↔
      ∀ record ∈ ctx.uploads, ¬ ctx.Uploading record.id := by
  have huploads : (DetectStage.execute ctx).1.uploads = ctx.uploads :=
    (DetectStage.samePush_execute ctx).2.1
  rw [PushStage.selectedUploads_eq_nil_iff, huploads]
  refine forall_congr' fun record => imp_congr_right fun _ => ?_
  rw [DetectStage.mem_toUpload_execute hfresh]

omit [Codec] [Serde] in
/-- A run that has nothing to do after detection has no upload either. -/
theorem selectedUploads_of_stop {ctx : PipelineContext}
    (hstop : (DetectStage.execute ctx).2 ≠ .Continue) :
    PushStage.selectedUploads (DetectStage.execute ctx).1 = [] := by
  cases hm : ctx.remoteMetadata with
  | none =>
      rw [DetectStage.execute_eq_of_none hm] at hstop
      exact absurd rfl hstop
  | some m =>
      rw [DetectStage.outcome_execute hm] at hstop
      split at hstop
      · rename_i hempty
        rw [PushStage.selectedUploads_eq_nil_iff, hempty.1]
        simp
      · exact absurd rfl hstop

omit [Serde] in
/-- What the push stage of a run would upload, by what the metadata read means. -/
theorem selectedUploads_prepare_iff {ctx : PipelineContext} (hfresh : ctx.Undetected)
    (read : Except SyncError CloudMetadata) :
    ((prepare ctx read).2 = .Continue →
        PushStage.selectedUploads (prepare ctx read).1 = []) ↔
      ∀ m?, GoesOn ctx read m? → ∀ record ∈ ctx.uploads,
        ¬ PipelineContext.Uploading { ctx with remoteMetadata := m? } record.id := by
  by_cases hgoes : ∃ m?, GoesOn ctx read m?
  · rcases hgoes with ⟨m?, hgoes⟩
    -- the detection goes on with one metadata file at most
    have hunique : ∀ m?', GoesOn ctx read m?' → m?' = m? := by
      intro m?' hgoes'
      have heq := hgoes'.1.symm.trans hgoes.1
      cases heq
      rfl
    rcases prepare_goesOn hgoes with ⟨hstop, hnone⟩ | ⟨final, hprepare⟩
    · refine iff_of_true (fun hcontinue => absurd hcontinue hstop) ?_
      -- without remote metadata there are no pending rows that could be uploaded
      rintro m?' - record - ⟨row, hrow, -, hpending, -⟩
      have hpendings : ctx.hasPendingUploads = true := hasPendingUploads_of_row hrow hpending
      rw [hnone] at hpendings
      cases hpendings
    · have hundetected : PipelineContext.Undetected
          { ctx with remoteMetadata := m?, finalMetadata := final } :=
        ⟨hfresh.toUpload, hfresh.toDownload, hfresh.conflicts⟩
      rw [hprepare]
      constructor
      · intro hselected m?' hgoes'
        rw [hunique m?' hgoes']
        refine (selectedUploads_execute_iff hundetected).mp ?_
        by_cases hcontinue : (DetectStage.execute
            { ctx with remoteMetadata := m?, finalMetadata := final }).2 = .Continue
        · exact hselected hcontinue
        · exact selectedUploads_of_stop hcontinue
      · intro hnone _
        exact (selectedUploads_execute_iff hundetected).mpr (hnone m? hgoes)
  · have hnone : ∀ m?, ¬ GoesOn ctx read m? := not_exists.mp hgoes
    refine iff_of_true (fun hcontinue => absurd hcontinue (prepare_not_goesOn hnone)) ?_
    intro m? hm
    exact absurd hm (hnone m?)

/-- A run of the pipeline writes nothing exactly when it has no upload for a pending row that
may be pushed. -/
theorem reads_execute_iff {ctx ctx' : PipelineContext} {result : PipelineResult}
    {tr : StorageTrace} (hfresh : ctx.Undetected) (hids : ctx.uploadedIds = [])
    (hrun : (execute ctx).Returns tr (ctx', result)) :
    (∀ e ∈ tr, StorageOp.IsRead e.call) ↔
      ∀ read rest, tr = StorageOp.readMetadata.answered read :: rest →
        ∀ m?, GoesOn ctx read m? → ∀ record ∈ ctx.uploads,
          ¬ PipelineContext.Uploading { ctx with remoteMetadata := m? } record.id := by
  rcases (returns_execute _ _ _ _).mp hrun with ⟨read, rest, htr, hrest⟩
  -- the connection and the metadata are only read
  have hreads : (∀ e ∈ tr, StorageOp.IsRead e.call) ↔
      ((prepare ctx read).2 = .Continue →
        PushStage.selectedUploads (prepare ctx read).1 = []) := by
    have hfirst : (∀ e ∈ tr, StorageOp.IsRead e.call) ↔ ∀ e ∈ rest, StorageOp.IsRead e.call := by
      rw [htr, List.forall_mem_cons]
      exact ⟨And.right, fun h => ⟨trivial, h⟩⟩
    rw [hfirst]
    by_cases hcontinue : (prepare ctx read).2 = .Continue
    · rw [if_pos hcontinue] at hrest
      rcases hrest with ⟨outcome, hpush, -⟩
      have hready := prepare_push hfresh read
      have hstage := PushStage.reads_execute_iff (hready.1.trans hids) hready.2 hpush
      exact ⟨fun h _ => hstage.mp h, fun h => hstage.mpr (h hcontinue)⟩
    · rw [if_neg hcontinue] at hrest
      rw [hrest.1]
      simp [hcontinue]
  refine (hreads.trans (selectedUploads_prepare_iff hfresh read)).trans ?_
  constructor
  · intro h read' rest' htr'
    rw [htr] at htr'
    injection htr' with hread
    injection hread with _ hread
    rw [← hread]
    exact h
  · intro h
    exact h read rest htr

end SyncPipeline

namespace SyncTask

/-! ## Turns -/

/-- The metadata that the turn reads, when it is the vault's or there is none, leaves no upload
of the vault data to push. -/
def NothingOffered (t : SyncTask) (l : TaskLabel) : Prop :=
  ∀ data, t.vaultData = some data → ∀ read rest,
    l.trace = StorageOp.listRecords.answered (.ok ()) ::
      StorageOp.readMetadata.answered read :: rest →
    ∀ m?, CloudStorage.metadataOfRead read = .ok m? →
      (∀ m, m? = some m → m.vaultIdentityToken = data.localVaultToken) → ¬ data.Offers m?

omit [Serde] in
/-- The uploads that a cycle of the task would make are those its vault data offers. -/
theorem offers_iff {t : SyncTask} (read : Except SyncError CloudMetadata) :
    (∀ m?, SyncPipeline.GoesOn t.pipelineContext read m? →
        ∀ record ∈ t.pipelineContext.uploads, ¬ PipelineContext.Uploading
          { t.pipelineContext with remoteMetadata := m? } record.id) ↔
      ∀ data, t.vaultData = some data → ∀ m?, CloudStorage.metadataOfRead read = .ok m? →
        (∀ m, m? = some m → m.vaultIdentityToken = data.localVaultToken) → ¬ data.Offers m? := by
  cases hdata : t.vaultData with
  | none =>
      have hnone : t.pipelineContext.uploads = [] := by
        unfold pipelineContext
        rw [hdata]
        rfl
      rw [hnone]
      simp
  | some data =>
      have hctx : t.pipelineContext =
          { PipelineContext.new data.localMetadataVersion data.localVaultToken with
            lastRemoteMetadata := data.lastRemoteMetadata
            localRecords := data.localRecords
            uploads := data.uploads } := by
        unfold pipelineContext
        rw [hdata]
      rw [hctx]
      constructor
      · intro h data' hdata' m? hread htoken hoffers
        cases hdata'
        rcases hoffers with ⟨record, hrecord, hrow⟩
        exact h m? ⟨hread, htoken⟩ record hrecord hrow
      · intro h m? hgoes record hrecord hrow
        exact h data rfl m? hgoes.1 hgoes.2 ⟨record, hrecord, hrow⟩

/-- A turn that only takes a transition and runs a cycle writes nothing exactly when there is
nothing on offer. -/
theorem reads_transitionAndRun_iff {t t' : SyncTask} {trigger : SyncTrigger} {l : TaskLabel}
    (hrun : (t.transitionAndRun trigger).Returns l.trace (t', l.events)) :
    l.WritesNothing ↔ t.NothingOffered l := by
  rcases (t.returns_transitionAndRun _ _ _).mp hrun with
    ⟨e, -, hnil, -⟩ | ⟨machine, u, events, -, hcycle, -⟩
  · unfold TaskLabel.WritesNothing NothingOffered
    rw [hnil]
    simp
  · rcases (returns_runCycle _ _ _).mp hcycle with ⟨e, htr, -⟩ | ⟨rest, ctx, result, htr, hpipe, -⟩
    · unfold TaskLabel.WritesNothing NothingOffered
      rw [htr]
      refine iff_of_true ?_ ?_
      · intro e' he'
        rw [List.mem_singleton.mp he']
        trivial
      · intro data _ read rest hfalse
        cases hfalse
    · have hctx : pipelineContext { t with stateMachine := machine } = t.pipelineContext := rfl
      rw [hctx] at hpipe
      -- the cycle starts from a context in which nothing was detected
      have hundetected := t.pipelineContext_undetected
      have hreads := SyncPipeline.reads_execute_iff hundetected.1 hundetected.2 hpipe
      have hwrites : l.WritesNothing ↔ ∀ e ∈ rest, StorageOp.IsRead e.call := by
        unfold TaskLabel.WritesNothing
        rw [htr, List.forall_mem_cons]
        exact ⟨And.right, fun h => ⟨trivial, h⟩⟩
      refine (hwrites.trans hreads).trans ?_
      constructor
      · intro h data hdata read rest' htr'
        rw [htr] at htr'
        injection htr' with _ hrest
        exact (offers_iff read).mp (h read rest' hrest) data hdata
      · intro h read rest' hrest
        refine (offers_iff read).mpr fun data hdata => ?_
        exact h data hdata read rest' (by rw [htr, hrest])

/-! ## Runs -/

/-- A turn that handles `PullOnly`. -/
def Pulls (e : Step SyncTask TaskLabel) : Prop :=
  e.label.input = .command .PullOnly

/-- The steps so far hold a failed `PullOnly` with no completed cycle since. -/
def PullFailed (done : List (Step SyncTask TaskLabel)) : Prop :=
  ∃ before pull after, done = before ++ pull :: after ∧ Pulls pull ∧
    (∃ error state, SyncEvent.Failed error state ∈ pull.label.events) ∧
    ∀ e ∈ after, ∀ event ∈ e.label.events, ¬ event.IsCompletion

/-- In every run from every task, a turn for `PullOnly`, or a retry after one that failed,
writes nothing exactly when the vault data that is left has nothing to offer. -/
theorem pull_only_reads_iff {t₀ t : SyncTask} {es done rest : List (Step SyncTask TaskLabel)}
    {e : Step SyncTask TaskLabel} (hrun : Run loopStep t₀ es t) (hes : es = done ++ e :: rest)
    (hpull : Pulls e ∨ e.label.input = .timer ∧ PullFailed done) :
    e.label.WritesNothing ↔ e.source.NothingOffered e.label := by
  rw [hes] at hrun
  have hstep := hrun.of_append.2
  rcases e with ⟨source, ⟨input, tr, events⟩, target⟩
  rcases hstep with ⟨-, hstep⟩
  rcases hpull with hinput | ⟨hinput, -⟩
  · have hcommand : input = .command .PullOnly := hinput
    rw [hcommand] at hstep
    rcases (source.returns_startCycle .PullOnly tr _).mp hstep with ⟨-, hnil, -⟩ | ⟨-, -, hcycle⟩
    · unfold TaskLabel.WritesNothing NothingOffered
      rw [hnil]
      simp
    · exact reads_transitionAndRun_iff
        (l := { input := input, trace := tr, events := events }) hcycle
  · have htimer : input = .timer := hinput
    rw [htimer] at hstep
    exact reads_transitionAndRun_iff (t := { source with nextRetry := false })
      (l := { input := input, trace := tr, events := events }) hstep.2

end SyncTask

end

/-! ### The data of an earlier sync -/

namespace SyncTask

section

attribute [local instance] Sample.codec Sample.serde

/-- A device with a pending row of version 1. -/
def pendingRow : SyncVaultData where
  localRecords :=
    [{ recordId := Sample.recordId
       syncStatus := .Pending
       version := 1 }]
  uploads := [Sample.record 1 "BAUG"]
  localMetadataVersion := 0
  lastRemoteMetadata := none
  localVaultToken := "token"

/-- The turn a task makes for a command when the store has no faults. -/
def taskTurn (s : CloudStore) (t : SyncTask) (c : SyncCommand) : Step SyncTask TaskLabel :=
  let out := run (CloudStore.serve Sample.instant) (t.handleCommand c) s
  { source := t
    label :=
      { input := .command c
        trace := runTrace (CloudStore.serve Sample.instant) (t.handleCommand c) s
        events := out.1.2 }
    target := out.1.1 }

theorem source_taskTurn (s : CloudStore) (t : SyncTask) (c : SyncCommand) :
    (taskTurn s t c).source = t := rfl

theorem loopStep_taskTurn (s : CloudStore) {t : SyncTask} (c : SyncCommand)
    (hlive : t.state ≠ .ShuttingDown) :
    loopStep (taskTurn s t c).source (taskTurn s t c).label (taskTurn s t c).target :=
  ⟨hlive, returns_runTrace _ _ _⟩

/-- The sync that uploads the row, and the pull that follows it. -/
def pushTurn : Step SyncTask TaskLabel :=
  taskTurn CloudStore.empty (new (SyncStateMachine.new 5)) (.TriggerSync (some pendingRow))

def pushedStore : CloudStore :=
  (run (CloudStore.serve Sample.instant)
    ((new (SyncStateMachine.new 5)).handleCommand (.TriggerSync (some pendingRow)))
    CloudStore.empty).2

def pullTurn : Step SyncTask TaskLabel :=
  taskTurn pushedStore pushTurn.target .PullOnly

/-- The task goes on after the push, and the pull writes. -/
theorem push_then_pull :
    pushTurn.target.state ≠ .ShuttingDown ∧ ¬ pullTurn.label.WritesNothing := by
  decide +kernel

theorem push_pull_run :
    Run loopStep (new (SyncStateMachine.new 5)) [pushTurn, pullTurn] pullTurn.target := by
  have hpush : loopStep pushTurn.source pushTurn.label pushTurn.target :=
    loopStep_taskTurn _ _ (by decide)
  have hpull : loopStep pullTurn.source pullTurn.label pullTurn.target :=
    loopStep_taskTurn _ _ push_then_pull.1
  have hnext : pullTurn.source = pushTurn.target := source_taskTurn _ _ _
  have htail : Run loopStep pushTurn.target [pullTurn] pullTurn.target := by
    rw [← hnext]
    exact Run.of_step hpull (Run.nil _)
  exact Run.of_step hpush htail

/-- The rule at a pull that follows a successful sync. -/
theorem pull_only_reads_iff_pushed :
    pullTurn.label.WritesNothing ↔ pullTurn.source.NothingOffered pullTurn.label := by
  have hes : [pushTurn, pullTurn] = [pushTurn] ++ pullTurn :: [] := rfl
  exact pull_only_reads_iff push_pull_run hes (Or.inl rfl)

/-- The pull uploads the row a second time, and pushes metadata. -/
theorem pull_only_uploads :
    ¬ ∀ (t₀ t : SyncTask) (es done rest : List (Step SyncTask TaskLabel))
      (e : Step SyncTask TaskLabel), Run loopStep t₀ es t → es = done ++ e :: rest →
      Pulls e ∨ e.label.input = .timer ∧ PullFailed done → e.label.WritesNothing := by
  intro hall
  exact push_then_pull.2 (hall _ _ _ [pushTurn] [] pullTurn push_pull_run rfl (Or.inl rfl))

end

end SyncTask

end OakKeyring
