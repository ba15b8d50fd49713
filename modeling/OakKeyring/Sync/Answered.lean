import OakKeyring.Sync.TaskSpec
import OakKeyring.Services.Sync
import OakKeyring.Samples.Crates

/-!
# When a command is answered

The event a call waits for and the events its handler emits are fixed in two places. Here is
what they agree on.
-/

namespace OakKeyring

open Effect Transition

namespace SyncRequest

/-- The calls whose handlers report with a send that waits for room in the queue. -/
def AwaitsReport : SyncRequest → Prop
  | pause => False
  | resume => False
  | shutdown => False
  | _ => True

/-- Some emitted event is one the call accepts. -/
def AnsweredBy (r : SyncRequest) (events : List SyncEvent) : Prop :=
  ∃ event ∈ events, r.accepts event = true

end SyncRequest

/-- The event is an upload that was refused. -/
def uploadFailed : Event StorageI → Bool
  | ⟨.writeRecord _ _, .error _⟩ => true
  | _ => false

/-- Every upload of the run succeeded. -/
def UploadsSucceed (tr : StorageTrace) : Prop :=
  ∀ e ∈ tr, uploadFailed e = false

namespace SyncTask

variable [Codec] [Serde]

/-- A resolution succeeds when its upload does, or when the stored payload can be read. -/
def ResolutionSucceeds (item : ConflictItem) (tr : StorageTrace) : ResolutionStrategy → Prop
  | .KeepLocal => UploadsSucceed tr
  | .KeepRemote => (resolveKeepRemote item.conflictData).isOk = true

/-- When a task answers a call: a sync while it is neither paused nor busy, a single
resolution that meets a pending item and succeeds, and every other call always. -/
def Answers (t : SyncTask) (tr : StorageTrace) : SyncRequest → Prop
  | .sync _ => t.paused = false ∧ t.stateMachine.canAcceptCommands = true
  | .resolveConflict recordId strategy =>
      ∃ id item, Uuid.parseStr recordId = some id ∧
        (t.pendingConflicts.find? fun c => c.recordId == id) = some item ∧
        ResolutionSucceeds item tr strategy
  | _ => True

omit [Codec] [Serde] in
/-- An error met in `Pulling` is always reported. -/
theorem failed_mem_handleError {t : SyncTask} (h : t.state = .Pulling) (e : SyncError) :
    ∃ message s, SyncEvent.Failed message s ∈ (t.handleError e).2 := by
  have hstate : t.stateMachine.state = .Pulling := h
  rcases t.errorTrigger_cases e with htrigger | htrigger <;>
    simp [handleError, htrigger, SyncStateMachine.transition,
      SyncStateMachine.computeNextState, SyncStateMachine.nextState, hstate]

/-- A cycle begun in `Pulling` reports its completion or its failure. -/
theorem runCycle_answers {t t' : SyncTask} {tr : StorageTrace} {events : List SyncEvent}
    (data : Option SyncVaultData) (hpulling : t.state = .Pulling)
    (h : (t.runCycle).Returns tr (t', events)) :
    (SyncRequest.sync data).AnsweredBy events := by
  rcases (t.returns_runCycle tr _).mp h with ⟨e, -, hout⟩ | ⟨rest, ctx, result, -, -, hout⟩
  · rcases failed_mem_handleError hpulling e with ⟨message, s, hmem⟩
    rw [← hout] at hmem
    exact ⟨_, hmem, rfl⟩
  · have hstored : (t.storeConflicts ctx).state = .Pulling := by
      rw [state, stateMachine_storeConflicts]
      exact hpulling
    cases result with
    | Error e =>
        rw [handlePipelineResult_error _ _ rfl] at hout
        rcases failed_mem_handleError hstored e with ⟨message, s, hmem⟩
        rw [← hout] at hmem
        exact ⟨_, hmem, rfl⟩
    | Completed =>
        cases hout
        exact ⟨_, List.mem_cons_of_mem _ (List.mem_singleton_self _), rfl⟩
    | NoChanges =>
        cases hout
        exact ⟨_, List.mem_cons_of_mem _ (List.mem_singleton_self _), rfl⟩
    | ConflictsDetected ids =>
        cases hout
        exact ⟨_, List.mem_cons_of_mem _ (List.mem_singleton_self _), rfl⟩

/-- A trigger is answered unless it is dropped. -/
theorem handleTriggerSync_answers_iff {t t' : SyncTask} {tr : StorageTrace}
    {events : List SyncEvent} {data : Option SyncVaultData}
    (h : (t.handleTriggerSync).Returns tr (t', events)) :
    (SyncRequest.sync data).AnsweredBy events ↔
      t.paused = false ∧ t.stateMachine.canAcceptCommands = true := by
  rcases (t.returns_startCycle _ tr _).mp h with ⟨hdrop, -, hout⟩ | ⟨hpaused, haccept, h⟩
  · cases hout
    constructor
    · rintro ⟨event, hmem, -⟩
      cases hmem
    · rintro ⟨hpaused, haccept⟩
      rw [hpaused, haccept] at hdrop
      simp at hdrop
  · refine ⟨fun _ => ⟨hpaused, haccept⟩, fun _ => ?_⟩
    rcases (t.returns_transitionAndRun _ tr _).mp h with ⟨e, -, -, hout⟩ | ⟨m, u, evs, hm, hrun, hout⟩
    · cases hout
      exact ⟨_, List.mem_singleton_self _, rfl⟩
    · cases hout
      have hpulling : m.state = .Pulling := by
        rw [SyncStateMachine.transition_ok_iff] at hm
        rcases hm with ⟨target, htarget, rfl⟩
        rw [SyncStateMachine.nextState_triggerSync] at htarget
        split at htarget
        · exact (Option.some.inj htarget).symm
        · cases htarget
      rcases runCycle_answers (t := { t with stateMachine := m }) data hpulling hrun with
        ⟨event, hmem, hacc⟩
      exact ⟨event, List.mem_cons_of_mem _ hmem, hacc⟩

theorem resolveItem_ok_iff {t : SyncTask} {recordId : String} {item : ConflictItem}
    {strategy : ResolutionStrategy} {tr : StorageTrace} {r : Except String Unit}
    (h : (t.resolveItem recordId item strategy).Returns tr r) :
    r = .ok () ↔ ResolutionSucceeds item tr strategy := by
  rcases (t.returns_resolveItem _ _ _ _ _).mp h with ⟨rfl, u, hu, rfl⟩ | ⟨rfl, rfl, rfl⟩
  · rcases (t.returns_uploadResolved _ _ _ _).mp hu with ⟨-, rfl, rfl⟩ | ⟨record, -, rfl⟩
    · simp [ResolutionSucceeds, UploadsSucceed, Except.mapError]
    · cases u <;> simp [ResolutionSucceeds, UploadsSucceed, Except.mapError,
        StorageOp.answered, uploadFailed]
  · unfold ResolutionSucceeds
    cases resolveKeepRemote item.conflictData <;>
      simp [Except.mapError, Except.map, Except.isOk, Except.toBool]

/-- Whether the event a call accepts is emitted, for every task, call and storage answer. -/
theorem handleCommand_answers_iff {t t' : SyncTask} {r : SyncRequest} {tr : StorageTrace}
    {events : List SyncEvent} (hr : r.AwaitsReport)
    (h : (t.handleCommand r.command).Returns tr (t', events)) :
    r.AnsweredBy events ↔ t.Answers tr r := by
  cases r with
  | sync data => exact handleTriggerSync_answers_iff (t := { t with vaultData := data }) h
  | resolveConflict recordId strategy =>
      rcases (returns_handleResolveConflict _ _ _ _ _).mp h with
        ⟨message, -, hout, hwhy⟩ | ⟨id, item, r, hid, hitem, hrun, hout⟩
      · cases hout
        constructor
        · rintro ⟨event, hmem, hacc⟩
          rw [List.mem_singleton] at hmem
          subst hmem
          cases hacc
        · rintro ⟨id, item, hid, hitem, -⟩
          -- no conflict of that id is pending
          rcases hwhy with ⟨hnone, -⟩ | ⟨id', hid', hnone, -⟩
          · rw [hid] at hnone
            cases hnone
          · rw [hid] at hid'
            cases hid'
            rw [hitem] at hnone
            cases hnone
      · have hok := resolveItem_ok_iff hrun
        constructor
        · rintro ⟨event, hmem, hacc⟩
          refine ⟨id, item, hid, hitem, hok.mp ?_⟩
          -- the report follows the upload that went through
          cases r with
          | ok u => rfl
          | error e =>
              cases hout
              rw [List.mem_singleton] at hmem
              subst hmem
              cases hacc
        · rintro ⟨id', item', hid', hitem', hsucceeds⟩
          rw [hid] at hid'
          cases hid'
          rw [hitem] at hitem'
          cases hitem'
          rw [hok.mpr hsucceeds] at hout
          cases hout
          exact ⟨_, List.mem_singleton_self _, rfl⟩
  | resolveAllConflicts strategy =>
      rcases returns_handleResolveAll h with ⟨-, -, count, rfl⟩
      exact ⟨fun _ => trivial, fun _ => ⟨_, List.mem_singleton_self _, rfl⟩⟩
  | downloadMetadata =>
      rcases (returns_handleDownloadMetadata _ _ _).mp h with ⟨read, -, hout⟩
      refine ⟨fun _ => trivial, fun _ => ?_⟩
      cases hread : CloudStorage.metadataOfRead read <;> rw [hread] at hout <;> cases hout <;>
        exact ⟨_, List.mem_singleton_self _, rfl⟩
  | pushMetadataAtomic m v =>
      rcases (returns_handlePushMetadataAtomic _ _ _ _ _).mp h with ⟨r, -, hout⟩
      refine ⟨fun _ => trivial, fun _ => ?_⟩
      cases r <;> cases hout <;> exact ⟨_, List.mem_singleton_self _, rfl⟩
  | pause => exact absurd hr id
  | resume => exact absurd hr id
  | shutdown => exact absurd hr id

omit [Codec] [Serde]

/-! ### A paused task -/

/-- A fresh task after a pause. -/
def pausedTask : SyncTask :=
  { new (SyncStateMachine.new 5) with paused := true }

/-- The turn of the loop that pauses it. -/
def pauseRun : List (Step SyncTask TaskLabel) :=
  [{ source := new (SyncStateMachine.new 5)
     label := { input := .command .Pause, trace := [], events := [.Paused] }
     target := pausedTask }]

theorem pauseRun_run [Codec] [Serde] :
    Run loopStep (new (SyncStateMachine.new 5)) pauseRun pausedTask :=
  Run.cons ⟨by decide, rfl, rfl⟩ (Run.nil _)

theorem pausedTask_drops_sync [Codec] [Serde] :
    (pausedTask.handleCommand (SyncRequest.sync none).command).Returns [] (pausedTask, []) :=
  (returns_startCycle pausedTask .TriggerSync _ _).mpr (Or.inl ⟨Or.inl rfl, rfl, rfl⟩)

/-- The rule at a sync call on the paused task. -/
theorem handleCommand_answers_iff_paused :
    letI : Codec := referenceCodec []
    letI : Serde := referenceSerde [] [] []
    (SyncRequest.sync none).AnsweredBy [] ↔ pausedTask.Answers [] (SyncRequest.sync none) :=
  let : Codec := referenceCodec []
  let : Serde := referenceSerde [] [] []
  handleCommand_answers_iff trivial pausedTask_drops_sync

/-- A sync call on a paused task gets no event at all. -/
theorem paused_sync_unanswered :
    letI : Codec := referenceCodec []
    letI : Serde := referenceSerde [] [] []
    ¬ ∀ maxRetries es t, Run loopStep (new (SyncStateMachine.new maxRetries)) es t →
      ∀ (r : SyncRequest) tr t' events, r.AwaitsReport →
        (t.handleCommand r.command).Returns tr (t', events) → r.AnsweredBy events := by
  let : Codec := referenceCodec []
  let : Serde := referenceSerde [] [] []
  intro hall
  rcases hall 5 pauseRun pausedTask pauseRun_run (.sync none) [] pausedTask [] trivial
    pausedTask_drops_sync with ⟨event, hmem, -⟩
  cases hmem

end SyncTask

end OakKeyring
