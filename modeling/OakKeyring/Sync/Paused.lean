import OakKeyring.Sync.PipelineSpec
import OakKeyring.Sync.TaskSpec

/-!
# What a paused task does

A trigger looks at the pause, the backoff timer and the conflict resolutions do not. A turn of
a paused task is quiet when no retry gets through to the cloud and no resolution finds
anything to upload.
-/

namespace OakKeyring

open Effect Transition

/-- The operations that upload a record. -/
def StorageOp.Uploads : StorageOp → Prop
  | .writeRecord _ _ => True
  | _ => False

/-- The turn runs no pipeline and uploads no record. -/
structure TaskLabel.Quiet (l : TaskLabel) : Prop where
  noPipeline : l.input.runsCycle = true → ∀ e ∈ l.trace, e.call = .listRecords
  noUpload : ∀ e ∈ l.trace, ¬ e.call.Uploads

/-- Whether the pause holds after a turn: since the event `Paused`, until a `Resume` is
processed. -/
def TaskLabel.pausedAfter (l : TaskLabel) (paused : Bool) : Bool :=
  match l.input with
  | .command .Resume => false
  | _ => paused || l.events.contains .Paused

def pausedBy (es : List (Step SyncTask TaskLabel)) : Bool :=
  es.foldl (fun paused e => e.label.pausedAfter paused) false

/-- A metadata push writes no record. -/
theorem CloudStorage.no_upload_pushMetadataAtomic [Codec] {m : CloudMetadata} {v : Nat}
    {tr : StorageTrace} {r : Except SyncError Unit}
    (hrun : (CloudStorage.pushMetadataAtomic m v).Returns tr r) :
    ∀ e ∈ tr, ¬ StorageOp.Uploads (Event.call e) := by
  unfold CloudStorage.pushMetadataAtomic at hrun
  rcases (CloudStorage.returns_downloadMetadata _).mp hrun with ⟨read, rest, htr, hrest⟩
  -- what follows the download is at most one write of metadata
  have hwrite : ∀ e ∈ rest, ¬ StorageOp.Uploads (Event.call e) := by
    intro e he
    cases hread : CloudStorage.metadataOfRead read with
    | error e' =>
        simp only [hread] at hrest
        rw [hrest.1] at he
        cases he
    | ok current =>
        cases hcheck : CloudStorage.checkExpectedVersion v current with
        | error e' =>
            simp only [hread, hcheck] at hrest
            rw [hrest.1] at he
            cases he
        | ok u =>
            simp only [hread, hcheck] at hrest
            have hsingle := (Prog.returns_perform (I := StorageI) _ _ _).mp hrest
            rw [hsingle] at he
            rw [List.mem_singleton.mp he]
            exact id
  intro e he
  rw [htr] at he
  rcases List.mem_cons.mp he with heq | he
  · rw [heq]
    exact id
  · exact hwrite e he

namespace SyncTask

/-- A retry does not get through to the cloud; a resolution that keeps local records finds no
upload for a pending conflict. -/
def Calm (t : SyncTask) (l : TaskLabel) : Prop :=
  match l.input with
  | .timer => StorageOp.listRecords.answered (.ok ()) ∉ l.trace
  | .command (.ResolveConflict recordId .KeepLocal) =>
      ∀ id item, Uuid.parseStr recordId = some id →
        (t.pendingConflicts.find? fun c => c.recordId == id) = some item →
        t.uploadFor recordId = none
  | .command (.ResolveAllConflicts .KeepLocal) =>
      ∀ item ∈ t.pendingConflicts, t.uploadFor item.recordId.toText = none
  | .command _ => True

section

variable [Codec] [Serde]

omit [Codec] [Serde] in
/-- A turn of an input without a cycle is quiet when it uploads nothing. -/
theorem quiet_of_no_cycle {l : TaskLabel} (hcycle : l.input.runsCycle = false)
    (h : ∀ e ∈ l.trace, ¬ e.call.Uploads) : l.Quiet where
  noPipeline hruns := by
    rw [hcycle] at hruns
    cases hruns
  noUpload := h

omit [Codec] [Serde] in
theorem quiet_of_nil {l : TaskLabel} (h : l.trace = []) : l.Quiet where
  noPipeline _ e he := by
    rw [h] at he
    cases he
  noUpload e he := by
    rw [h] at he
    cases he

/-- A cycle is quiet when its connectivity check fails. -/
theorem quiet_transitionAndRun_iff {t t' : SyncTask} {trigger : SyncTrigger}
    {tr : StorageTrace} {events : List SyncEvent}
    (hrun : (t.transitionAndRun trigger).Returns tr (t', events)) :
    ((∀ e ∈ tr, e.call = .listRecords) ∧ ∀ e ∈ tr, ¬ StorageOp.Uploads (Event.call e)) ↔
      StorageOp.listRecords.answered (.ok ()) ∉ tr := by
  -- a connection that fails lists nothing with success
  have hnone : ∀ e, StorageOp.listRecords.answered (.ok ()) ∉
      [StorageOp.listRecords.answered (.error e)] := by
    intro e hmem
    have heq := List.mem_singleton.mp hmem
    injection heq with _ hanswer
    cases hanswer
  have hlists : ∀ a, (∀ e ∈ [StorageOp.listRecords.answered a], e.call = .listRecords) ∧
      ∀ e ∈ [StorageOp.listRecords.answered a], ¬ StorageOp.Uploads (Event.call e) := by
    intro a
    constructor
    · intro e he
      rw [List.mem_singleton.mp he]
      rfl
    · intro e he
      rw [List.mem_singleton.mp he]
      exact id
  rcases (t.returns_transitionAndRun _ tr _).mp hrun with
    ⟨e, -, hnil, -⟩ | ⟨machine, u, evs, -, hcycle, -⟩
  · rw [hnil]
    simp
  · rcases (returns_runCycle _ tr _).mp hcycle with ⟨e, htr, -⟩ | ⟨rest, ctx, result, htr, hpipe, -⟩
    · rw [htr]
      exact ⟨fun _ => hnone e, fun _ => hlists (.error e)⟩
    -- the pipeline reads the metadata first
    · rcases (SyncPipeline.returns_execute _ _ _ _).mp hpipe with ⟨read, rest', hrest, -⟩
      have hread : StorageOp.readMetadata.answered read ∈ tr := by
        rw [htr, hrest]
        exact List.mem_cons_of_mem _ List.mem_cons_self
      have hok : StorageOp.listRecords.answered (.ok ()) ∈ tr := by
        rw [htr]
        exact List.mem_cons_self
      constructor
      · intro hquiet
        have hcall : StorageOp.readMetadata = .listRecords := hquiet.1 _ hread
        cases hcall
      · intro hnot
        exact absurd hok hnot

/-- A turn of a paused task is quiet exactly when it is calm. -/
theorem quiet_iff_calm {t t' : SyncTask} {l : TaskLabel} (hstep : loopStep t l t')
    (hpaused : t.paused = true) : l.Quiet ↔ t.Calm l := by
  rcases l with ⟨input, tr, events⟩
  rcases hstep with ⟨-, hstep⟩
  have hdrop : ∀ {u : SyncTask} {trigger : SyncTrigger}, u.paused = true →
      (u.startCycle trigger).Returns tr (t', events) → tr = [] := by
    intro u trigger hu hrun
    rcases (u.returns_startCycle trigger tr _).mp hrun with ⟨-, hnil, -⟩ | ⟨hlive, -, -⟩
    · exact hnil
    · rw [hu] at hlive
      cases hlive
  -- a resolution is quiet when it is silent
  have hsilent : ∀ {c : SyncCommand}, TaskInput.runsCycle (.command c) = false →
      t.UploadsResolved tr →
      (({ input := .command c, trace := tr, events := events } : TaskLabel).Quiet ↔ tr = []) := by
    intro c hcycle huploads
    refine ⟨fun hquiet => ?_, fun hnil => quiet_of_nil hnil⟩
    by_contra hsome
    rcases List.exists_mem_of_ne_nil tr hsome with ⟨e, he⟩
    rcases huploads e he with ⟨item, -, recordId, record, -, -, hcall⟩
    have hnone := hquiet.noUpload e he
    rw [hcall] at hnone
    exact hnone trivial
  cases input with
  | timer =>
      have hrun := quiet_transitionAndRun_iff hstep.2
      refine Iff.trans ?_ hrun
      exact ⟨fun h => ⟨h.noPipeline rfl, h.noUpload⟩, fun h => ⟨fun _ => h.1, h.2⟩⟩
  | command c =>
      cases c with
      | TriggerSync data =>
          have hnil := hdrop (u := { t with vaultData := data }) hpaused hstep
          exact ⟨fun _ => trivial, fun _ => quiet_of_nil hnil⟩
      | PullOnly =>
          have hnil := hdrop hpaused hstep
          exact ⟨fun _ => trivial, fun _ => quiet_of_nil hnil⟩
      | ResolveConflict recordId strategy =>
          refine (hsilent rfl (uploadsResolved_handleResolveConflict hstep).1).trans
            ((handleResolveConflict_silent_iff hstep).trans ?_)
          cases strategy with
          | KeepLocal => exact ⟨fun h => h rfl, fun h _ => h⟩
          | KeepRemote => exact ⟨fun _ => trivial, fun _ h => by cases h⟩
      | ResolveAllConflicts strategy =>
          refine (hsilent rfl (returns_handleResolveAll hstep).1).trans
            ((handleResolveAll_silent_iff hstep).trans ?_)
          cases strategy with
          | KeepLocal => exact ⟨fun h => h rfl, fun h _ => h⟩
          | KeepRemote => exact ⟨fun _ => trivial, fun _ h => by cases h⟩
      | Pause => exact ⟨fun _ => trivial, fun _ => quiet_of_nil hstep.1⟩
      | Resume => exact ⟨fun _ => trivial, fun _ => quiet_of_nil hstep.1⟩
      | Shutdown => exact ⟨fun _ => trivial, fun _ => quiet_of_nil hstep.1⟩
      | DownloadMetadata =>
          rcases (returns_handleDownloadMetadata _ _ _).mp hstep with ⟨read, htr, -⟩
          refine ⟨fun _ => trivial, fun _ => quiet_of_no_cycle rfl fun e he => ?_⟩
          rw [htr] at he
          rw [List.mem_singleton.mp he]
          exact id
      | PushMetadataAtomic m v =>
          rcases (returns_handlePushMetadataAtomic _ _ _ _ _).mp hstep with ⟨r, hpush, -⟩
          refine ⟨fun _ => trivial, fun _ => quiet_of_no_cycle rfl ?_⟩
          exact CloudStorage.no_upload_pushMetadataAtomic hpush

/-! ## The pause and its events -/

omit [Codec] [Serde] in
theorem paused_notMem_handleError (t : SyncTask) (e : SyncError) :
    SyncEvent.Paused ∉ (t.handleError e).2 := by
  unfold handleError
  split
  · dsimp only
    split <;> simp
  · simp

omit [Codec] [Serde] in
theorem handlePipelineResult_pause (t : SyncTask) (outcome : PipelineExecutionOutcome) :
    (t.handlePipelineResult outcome).1.paused = t.paused ∧
      SyncEvent.Paused ∉ (t.handlePipelineResult outcome).2 := by
  unfold handlePipelineResult
  cases outcome.result with
  | Error e => exact ⟨paused_handleError t e, paused_notMem_handleError t e⟩
  | Completed => simp [complete]
  | NoChanges => simp [complete]
  | ConflictsDetected ids => simp [complete]

/-- A cycle does not touch the pause. -/
theorem transitionAndRun_pause {t t' : SyncTask} {trigger : SyncTrigger} {tr : StorageTrace}
    {events : List SyncEvent} (hrun : (t.transitionAndRun trigger).Returns tr (t', events)) :
    t'.paused = t.paused ∧ SyncEvent.Paused ∉ events := by
  rcases (t.returns_transitionAndRun _ tr _).mp hrun with
    ⟨e, -, -, hout⟩ | ⟨machine, u, evs, -, hcycle, hout⟩
  · cases hout
    exact ⟨rfl, by simp⟩
  · cases hout
    rcases (returns_runCycle _ tr _).mp hcycle with ⟨e, -, hcycleOut⟩ | ⟨rest, ctx, result, -, -, hcycleOut⟩
    · have htask : t' = _ := congrArg Prod.fst hcycleOut
      have hu : t'.paused = t.paused := by
        rw [htask, paused_handleError]
      have hevents : evs = _ := congrArg Prod.snd hcycleOut
      refine ⟨hu, ?_⟩
      rw [hevents, List.mem_cons, not_or]
      exact ⟨by simp, paused_notMem_handleError _ e⟩
    · have hpause := handlePipelineResult_pause
        (storeConflicts { t with stateMachine := machine } ctx) (executionOutcome ctx result)
      have htask : t' = _ := congrArg Prod.fst hcycleOut
      have hu : t'.paused = t.paused := by
        rw [htask, hpause.1, paused_storeConflicts]
      have hevents : evs = _ := congrArg Prod.snd hcycleOut
      refine ⟨hu, ?_⟩
      rw [hevents, List.mem_cons, not_or]
      exact ⟨by simp, hpause.2⟩

theorem startCycle_pause {t t' : SyncTask} {trigger : SyncTrigger} {tr : StorageTrace}
    {events : List SyncEvent} (hrun : (t.startCycle trigger).Returns tr (t', events)) :
    t'.paused = t.paused ∧ SyncEvent.Paused ∉ events := by
  rcases (t.returns_startCycle trigger tr _).mp hrun with ⟨-, -, hout⟩ | ⟨-, -, hcycle⟩
  · cases hout
    exact ⟨rfl, by simp⟩
  · exact transitionAndRun_pause hcycle

/-- The commands besides `Pause` and `Resume` do not touch the pause. -/
theorem handleCommand_pause {t t' : SyncTask} {c : SyncCommand} {tr : StorageTrace}
    {events : List SyncEvent} (hrun : (t.handleCommand c).Returns tr (t', events))
    (hpause : c ≠ .Pause) (hresume : c ≠ .Resume) :
    t'.paused = t.paused ∧ SyncEvent.Paused ∉ events := by
  cases c with
  | TriggerSync data => exact startCycle_pause (t := { t with vaultData := data }) hrun
  | PullOnly => exact startCycle_pause hrun
  | ResolveConflict recordId strategy =>
      rcases (returns_handleResolveConflict _ _ _ _ _).mp hrun with
        ⟨message, -, hout, -⟩ | ⟨id, item, r, -, -, -, hout⟩
      · cases hout
        exact ⟨rfl, by simp⟩
      · cases r <;> cases hout <;> exact ⟨rfl, by simp⟩
  | ResolveAllConflicts strategy =>
      rcases returns_handleResolveAll hrun with ⟨-, ⟨pending, ht', -⟩, count, hcount⟩
      rw [ht', hcount]
      exact ⟨rfl, by simp⟩
  | Pause => exact absurd rfl hpause
  | Resume => exact absurd rfl hresume
  | PushMetadataAtomic m v =>
      rcases (returns_handlePushMetadataAtomic _ _ _ _ _).mp hrun with ⟨r, -, hout⟩
      cases r <;> cases hout <;> exact ⟨rfl, by simp⟩
  | DownloadMetadata =>
      rcases (returns_handleDownloadMetadata _ _ _).mp hrun with ⟨read, -, hout⟩
      cases hread : CloudStorage.metadataOfRead read <;> rw [hread] at hout <;> cases hout <;>
        exact ⟨rfl, by simp⟩
  | Shutdown =>
      rcases hrun with ⟨-, hout⟩
      cases hout
      refine ⟨?_, by simp⟩
      cases hshut : t.stateMachine.transition .Shutdown <;> rfl

/-- Step lemma: the flag says whether the pause holds. -/
theorem paused_step {t t' : SyncTask} {l : TaskLabel} (hstep : loopStep t l t') :
    t'.paused = l.pausedAfter t.paused := by
  rcases l with ⟨input, tr, events⟩
  rcases hstep with ⟨-, hstep⟩
  -- whatever neither pauses nor resumes keeps the flag
  have hkept : (∀ b, ({ input := input, trace := tr, events := events } : TaskLabel).pausedAfter b =
      (b || events.contains .Paused)) → t'.paused = t.paused ∧ SyncEvent.Paused ∉ events →
      t'.paused =
        ({ input := input, trace := tr, events := events } : TaskLabel).pausedAfter t.paused := by
    intro hafter hpause
    have hnone : events.contains SyncEvent.Paused = false := by
      simpa using hpause.2
    rw [hafter, hnone, Bool.or_false]
    exact hpause.1
  cases input with
  | timer =>
      have hrun : (transitionAndRun { t with nextRetry := false } .BackoffExpired).Returns tr
          (t', events) := hstep.2
      have hpause := transitionAndRun_pause hrun
      exact hkept (fun _ => rfl) hpause
  | command c =>
      by_cases hpause : c = .Pause
      · rw [hpause] at hstep
        rcases hstep with ⟨-, hout⟩
        cases hout
        rw [hpause]
        simp [TaskLabel.pausedAfter]
      · by_cases hresume : c = .Resume
        · rw [hresume] at hstep
          rcases hstep with ⟨-, hout⟩
          cases hout
          rw [hresume]
          rfl
        · refine hkept (fun b => ?_) (handleCommand_pause hstep hpause hresume)
          cases c <;> first | rfl | exact absurd rfl hresume

/-- Run lemma. -/
theorem paused_eq_pausedBy {maxRetries : Nat} {es : List (Step SyncTask TaskLabel)}
    {t : SyncTask} (hrun : Run loopStep (new (SyncStateMachine.new maxRetries)) es t) :
    t.paused = pausedBy es := by
  refine hrun.history (P := fun done t => t.paused = pausedBy done) rfl ?_
  intro done e hstep hpaused
  rw [paused_step hstep, hpaused]
  simp [pausedBy]

/-- While the pause holds, the turns of a run are quiet exactly when they are calm. -/
theorem paused_quiet_iff {maxRetries : Nat} {es : List (Step SyncTask TaskLabel)}
    {t : SyncTask} (hrun : Run loopStep (new (SyncStateMachine.new maxRetries)) es t)
    {done rest : List (Step SyncTask TaskLabel)} {e : Step SyncTask TaskLabel}
    (hes : es = done ++ e :: rest) (hpaused : pausedBy done = true) :
    e.label.Quiet ↔ e.source.Calm e.label := by
  rw [hes] at hrun
  have hcut := hrun.of_append
  refine quiet_iff_calm hcut.2 ?_
  rw [paused_eq_pausedBy hcut.1]
  exact hpaused

end

end SyncTask

end OakKeyring
