import OakKeyring.Sync.TaskSpec
import OakKeyring.Samples.Crates

/-!
# When the sync task can wedge

A run of the task is any sequence of commands and timer expiries with any storage answers.
The task stays able to sync for as long as no cycle of the run ends in an error, and not a
step longer.
-/

namespace OakKeyring

open Effect Transition

namespace SyncTask

/-- States in which the task waits for its next command. -/
def Settled (t : SyncTask) : Prop :=
  t.state = .Idle ∨ t.state = .Error ∨ t.state = .Offline ∨ t.state = .ShuttingDown

/-- The operations of a cycle: the connectivity check and, if it is passed, the metadata read
with which the pipeline begins. -/
def StartsRun (tr : StorageTrace) : Prop :=
  ∃ answer rest, tr = StorageOp.listRecords.answered answer :: rest ∧
    (answer = .ok () → ∃ read rest', rest = StorageOp.readMetadata.answered read :: rest')

section

variable [Codec] [Serde]

/-- A trigger that arrives while the task is neither paused nor shut down starts a cycle. -/
def StartsOnTrigger (t : SyncTask) : Prop :=
  t.state ≠ .ShuttingDown → t.paused = false → ∀ data tr out,
    (t.handleCommand (.TriggerSync data)).Returns tr out → StartsRun tr

/-- The connectivity check was refused, or the pipeline run ended in an error. -/
def CycleError (ctx : PipelineContext) (tr : StorageTrace) (e : SyncError) : Prop :=
  tr = [StorageOp.listRecords.answered (.error e)] ∨
    ∃ rest ctx', tr = StorageOp.listRecords.answered (.ok ()) :: rest ∧
      (SyncPipeline.execute ctx).Returns rest (ctx', .Error e)

/-- The turn ran a cycle and the cycle ended in an error. -/
def CycleFails (e : Step SyncTask TaskLabel) : Prop :=
  e.label.input.runsCycle = true ∧ ∃ err, CycleError (e.source.receive e.label.input).pipelineContext e.label.trace err

/-! ## A pipeline run begins with the metadata -/

theorem returns_execute_readMetadata {ctx : PipelineContext} {tr : StorageTrace}
    {out : PipelineContext × PipelineResult} (h : (SyncPipeline.execute ctx).Returns tr out) :
    ∃ read rest, tr = StorageOp.readMetadata.answered read :: rest := by
  unfold SyncPipeline.execute SyncPipeline.stages SyncPipeline.runStages Stage.execute
    PullMetadataStage.execute at h
  rw [Prog.returns_bind] at h
  rcases h with ⟨t₁, t₂, a, rfl, h₁, -⟩
  rw [CloudStorage.returns_downloadMetadata] at h₁
  rcases h₁ with ⟨read, rest, rfl, -⟩
  exact ⟨read, rest ++ t₂, rfl⟩

theorem startsRun_of_runCycle {t : SyncTask} {tr : StorageTrace}
    {out : SyncTask × List SyncEvent} (h : (t.runCycle).Returns tr out) : StartsRun tr := by
  rcases (t.returns_runCycle tr out).mp h with ⟨e, rfl, -⟩ | ⟨rest, ctx, result, rfl, hrun, -⟩
  · exact ⟨.error e, [], rfl, by simp⟩
  · exact ⟨.ok (), rest, rfl, fun _ => returns_execute_readMetadata hrun⟩

/-! ## Cycles that end well and cycles that do not -/

/-- A cycle without an error leaves the task idle, with no retry it did not have. -/
theorem runCycle_idle {t t' : SyncTask} {tr : StorageTrace} {events : List SyncEvent}
    (h : (t.runCycle).Returns tr (t', events))
    (hok : ∀ e, ¬ CycleError t.pipelineContext tr e) :
    t'.state = .Idle ∧ t'.nextRetry = t.nextRetry := by
  rcases (t.returns_runCycle tr _).mp h with ⟨e, rfl, -⟩ | ⟨rest, ctx, result, rfl, hrun, hout⟩
  · exact absurd (Or.inl rfl) (hok e)
  · have hresult : ∀ e, (executionOutcome ctx result).result ≠ .Error e := by
      rintro e rfl
      exact hok e (Or.inr ⟨rest, ctx, rfl, hrun⟩)
    have hidle := (t.storeConflicts ctx).handlePipelineResult_of_not_error _ hresult
    rw [← hout] at hidle
    simpa using hidle

/-- A cycle with an error is one call of `handleError`, on a task that differs in its pending
conflicts at most. -/
theorem runCycle_error {t t' : SyncTask} {tr : StorageTrace} {events : List SyncEvent}
    {e : SyncError} (h : (t.runCycle).Returns tr (t', events))
    (herr : CycleError t.pipelineContext tr e) :
    ∃ u : SyncTask, u.stateMachine = t.stateMachine ∧ u.paused = t.paused ∧
      t' = (u.handleError e).1 := by
  rcases (t.returns_runCycle tr _).mp h with ⟨e', rfl, hout⟩ | ⟨rest, ctx, result, rfl, hrun, hout⟩
  · rcases herr with htr | ⟨rest, ctx, htr, -⟩
    · cases htr
      exact ⟨t, rfl, rfl, by rw [← hout]⟩
    · cases htr
  · rcases herr with htr | ⟨rest', ctx', htr, hrun'⟩
    · cases htr
    · cases htr
      have hctx := Prog.Returns.value_eq hrun hrun'
      cases hctx
      refine ⟨t.storeConflicts ctx, by simp, by simp, ?_⟩
      rw [handlePipelineResult_error _ _ rfl] at hout
      rw [← hout]

/-! ## What a turn does to an idle task -/

/-- From `Idle`, a trigger that is not dropped starts a cycle in `Pulling`. -/
theorem returns_startCycle_of_idle {t : SyncTask} {trigger : SyncTrigger}
    (htrigger : trigger = .TriggerSync ∨ trigger = .PullOnly) (hidle : t.state = .Idle)
    (hpaused : t.paused = false) {tr : StorageTrace} {out : SyncTask × List SyncEvent}
    (h : (t.startCycle trigger).Returns tr out) :
    ∃ m t' events, m.state = .Pulling ∧
      (runCycle { t with stateMachine := m }).Returns tr (t', events) ∧
      out = (t', .StateChanged t.state m.state :: events) := by
  have hstate : t.stateMachine.state = .Idle := hidle
  have hnext : t.stateMachine.nextState trigger = some .Pulling := by
    rcases htrigger with rfl | rfl <;> simp [SyncStateMachine.nextState, hstate]
  rcases (t.returns_startCycle trigger tr out).mp h with ⟨hdrop, -⟩ | ⟨-, -, h⟩
  · simp [hpaused, SyncStateMachine.canAcceptCommands, hstate] at hdrop
  · rcases (t.returns_transitionAndRun trigger tr out).mp h with ⟨e, he, -⟩ | ⟨m, t', events, hm, hrun, rfl⟩
    · rw [SyncStateMachine.transition_error_iff, hnext] at he
      simp at he
    · rw [SyncStateMachine.transition_ok_iff] at hm
      rcases hm with ⟨target, htarget, rfl⟩
      rw [hnext] at htarget
      cases htarget
      exact ⟨_, t', events, rfl, hrun, rfl⟩

/-- An idle task starts a run on a trigger. -/
theorem startsOnTrigger_of_idle {t : SyncTask} (hidle : t.state = .Idle) :
    t.StartsOnTrigger := by
  intro _ hpaused data tr out h
  rcases returns_startCycle_of_idle (t := { t with vaultData := data }) (Or.inl rfl) hidle
    hpaused h with ⟨m, t', events, -, hrun, -⟩
  exact startsRun_of_runCycle hrun

/-- In `Error` no command gets a run started: the table takes a trigger from `Idle` only. -/
theorem not_startsOnTrigger_of_error {t : SyncTask} (herror : t.state = .Error)
    (hpaused : t.paused = false) : ¬ t.StartsOnTrigger := by
  intro h
  have hstate : t.stateMachine.state = .Error := herror
  have hrefused : (t.handleCommand (.TriggerSync none)).Returns []
      ({ t with vaultData := none },
        [.Failed (SyncError.InvalidStateTransition t.state.toText "unknown").toText t.state]) := by
    refine (returns_startCycle _ _ _ _).mpr (Or.inr ⟨hpaused, ?_, ?_⟩)
    · simp [SyncStateMachine.canAcceptCommands, hstate]
    · refine (returns_transitionAndRun _ _ _ _).mpr (Or.inl ⟨_, ?_, rfl, rfl⟩)
      rw [SyncStateMachine.transition_error_iff]
      exact ⟨by simp [SyncStateMachine.nextState, hstate], rfl⟩
  rcases h (by simp [herror]) hpaused none [] _ hrefused with ⟨answer, rest, htr, -⟩
  cases htr

/-- The commands that neither run a cycle nor shut down leave state and timers alone. -/
theorem handleCommand_quiet {t t' : SyncTask} {c : SyncCommand} {tr : StorageTrace}
    {events : List SyncEvent} (h : (t.handleCommand c).Returns tr (t', events))
    (htrigger : ∀ data, c ≠ .TriggerSync data) (hpull : c ≠ .PullOnly)
    (hshut : c ≠ .Shutdown) :
    t'.stateMachine = t.stateMachine ∧ t'.nextRetry = t.nextRetry ∧
      t'.backoffTimer = t.backoffTimer := by
  cases c with
  | TriggerSync data => exact absurd rfl (htrigger data)
  | PullOnly => exact absurd rfl hpull
  | ResolveConflict recordId strategy =>
      rcases (returns_handleResolveConflict _ _ _ _ _).mp h with
        ⟨message, -, hout, -⟩ | ⟨id, item, r, -, -, -, hout⟩
      · cases hout
        exact ⟨rfl, rfl, rfl⟩
      · cases r <;> cases hout <;> exact ⟨rfl, rfl, rfl⟩
  | ResolveAllConflicts strategy =>
      rcases returns_handleResolveAll h with ⟨-, ⟨pending, rfl, -⟩, -⟩
      exact ⟨rfl, rfl, rfl⟩
  | Pause =>
      rcases h with ⟨-, hout⟩
      cases hout
      exact ⟨rfl, rfl, rfl⟩
  | Resume =>
      rcases h with ⟨-, hout⟩
      cases hout
      exact ⟨rfl, rfl, rfl⟩
  | PushMetadataAtomic m v =>
      rcases (returns_handlePushMetadataAtomic _ _ _ _ _).mp h with ⟨r, -, hout⟩
      cases hout
      exact ⟨rfl, rfl, rfl⟩
  | DownloadMetadata =>
      rcases (returns_handleDownloadMetadata _ _ _).mp h with ⟨read, -, hout⟩
      cases hout
      exact ⟨rfl, rfl, rfl⟩
  | Shutdown => exact absurd rfl hshut

/-! ## Runs -/

/-- Between cycles that end well the task is idle with no retry scheduled, until it is shut
down. -/
def Ready (t : SyncTask) : Prop :=
  t.state = .Idle ∧ t.nextRetry = false ∨ t.state = .ShuttingDown

theorem ready_settled {t : SyncTask} (h : t.Ready) : t.Settled ∧ t.StartsOnTrigger := by
  rcases h with ⟨hidle, -⟩ | hshut
  · exact ⟨Or.inl hidle, startsOnTrigger_of_idle hidle⟩
  · exact ⟨Or.inr (Or.inr (Or.inr hshut)), fun h => absurd hshut h⟩

/-- What a trigger does to a ready task that is not shut down. -/
theorem startCycle_ready {t t' : SyncTask} {trigger : SyncTrigger} {tr : StorageTrace}
    {events : List SyncEvent} (htrigger : trigger = .TriggerSync ∨ trigger = .PullOnly)
    (hidle : t.state = .Idle) (hretry : t.nextRetry = false)
    (h : (t.startCycle trigger).Returns tr (t', events)) :
    ((∀ e, ¬ CycleError t.pipelineContext tr e) → t'.Ready) ∧
      (∀ e, CycleError t.pipelineContext tr e →
        t'.paused = false ∧ (t'.state = .Error ∨ t'.state = .Pulling)) := by
  cases hpaused : t.paused with
  -- paused: the command is dropped
  | true =>
      rcases (t.returns_startCycle trigger tr _).mp h with ⟨-, rfl, hout⟩ | ⟨hcontra, -⟩
      · cases hout
        refine ⟨fun _ => Or.inl ⟨hidle, hretry⟩, ?_⟩
        rintro e (htr | ⟨rest, ctx, htr, -⟩) <;> cases htr
      · rw [hpaused] at hcontra
        cases hcontra
  | false =>
      -- from `Idle` the cycle runs
      rcases returns_startCycle_of_idle htrigger hidle hpaused h with
        ⟨m, u, evs, hm, hrun, hout⟩
      cases hout
      constructor
      · intro hok
        have hdone := runCycle_idle hrun hok
        exact Or.inl ⟨hdone.1, hdone.2.trans hretry⟩
      · intro e herr
        rcases runCycle_error hrun herr with ⟨v, hmachine, hv, rfl⟩
        have hpulling : v.state = .Pulling := by
          rw [state, hmachine]
          exact hm
        refine ⟨by rw [paused_handleError, hv]; exact hpaused, ?_⟩
        rcases v.handleError_of_pulling e hpulling with ⟨-, hstate⟩ | ⟨-, hsame⟩
        · exact Or.inl hstate
        · exact Or.inr (by rw [hsame]; exact hpulling)

theorem loopStep_ready {e : Step SyncTask TaskLabel}
    (hstep : loopStep e.source e.label e.target) (hready : e.source.Ready) :
    (¬ CycleFails e → e.target.Ready) ∧
      (CycleFails e → e.target.paused = false ∧
        (e.target.state = .Error ∨ e.target.state = .Pulling)) := by
  rcases e with ⟨t, ⟨input, tr, events⟩, t'⟩
  rcases hstep with ⟨hlive, hstep⟩
  rcases hready with ⟨hidle, hretry⟩ | hshut
  · cases input with
    -- no retry is armed, so the timer is silent
    | timer =>
        rw [hretry] at hstep
        exact absurd hstep.1 (by simp)
    | command c =>
        by_cases htrigger : ∃ data, c = .TriggerSync data
        · rcases htrigger with ⟨data, rfl⟩
          have hcycle := startCycle_ready (t := { t with vaultData := data }) (Or.inl rfl)
            hidle hretry hstep
          refine ⟨fun hok => hcycle.1 fun e he => hok ⟨rfl, e, he⟩, ?_⟩
          rintro ⟨-, e, he⟩
          exact hcycle.2 e he
        · by_cases hpull : c = .PullOnly
          · subst hpull
            have hcycle := startCycle_ready (Or.inr rfl) hidle hretry hstep
            refine ⟨fun hok => hcycle.1 fun e he => hok ⟨rfl, e, he⟩, ?_⟩
            rintro ⟨-, e, he⟩
            exact hcycle.2 e he
          · have hnone : TaskInput.runsCycle (.command c) = false := by
              cases c <;> simp_all [TaskInput.runsCycle]
            refine ⟨fun _ => ?_, fun hfails => absurd hfails.1 (by simp [hnone])⟩
            by_cases hshut : c = .Shutdown
            · subst hshut
              rcases hstep with ⟨-, hout⟩
              have htarget : t' = t.handleShutdown.1 := congrArg Prod.fst hout
              exact Or.inr (by rw [htarget]; exact state_handleShutdown t)
            · have hquiet := handleCommand_quiet hstep (by simpa using htrigger) hpull hshut
              refine Or.inl ⟨?_, hquiet.2.1.trans hretry⟩
              show t'.state = .Idle
              rw [state, hquiet.1]
              exact hidle
  -- nothing moves a task that is shut down
  · exact absurd hshut hlive

/-- The task never wedges in a run exactly when no cycle of the run ends in an error: every
state reached is settled, and in every one of them a trigger starts a run. -/
theorem run_never_wedges_iff {maxRetries : Nat} {es : List (Step SyncTask TaskLabel)}
    {t : SyncTask} (hrun : Run loopStep (new (SyncStateMachine.new maxRetries)) es t) :
    (∀ u ∈ visited (new (SyncStateMachine.new maxRetries)) es,
        u.Settled ∧ u.StartsOnTrigger) ↔
      ∀ e ∈ es, ¬ CycleFails e := by
  have hready : Ready (new (SyncStateMachine.new maxRetries)) := Or.inl ⟨rfl, rfl⟩
  refine hrun.forall_visited_iff hready (fun u => ready_settled)
    (fun e hstep hok hready => (loopStep_ready hstep hready).1 hok) ?_
  intro e hstep hready hfails hgood
  rw [not_not] at hfails
  rcases (loopStep_ready hstep hready).2 hfails with ⟨hpaused, herror | hpulling⟩
  · exact not_startsOnTrigger_of_error herror hpaused hgood.2
  · simp [Settled, hpulling] at hgood

end

/-! ### A refused connection -/

section

/-- A fresh task whose first trigger meets a storage that denies access. -/
def refusedRun : List (Step SyncTask TaskLabel) :=
  let t := new (SyncStateMachine.new 5)
  let m : SyncStateMachine := { t.stateMachine with state := .Pulling }
  let out := handleError { t with stateMachine := m } (.PermissionDenied "connectivity check")
  [{ source := t
     label :=
       { input := .command (.TriggerSync none)
         trace := [StorageOp.listRecords.answered (.error (.PermissionDenied "connectivity check"))]
         events := .StateChanged .Idle .Pulling :: out.2 }
     target := out.1 }]

/-- The task the refused trigger leaves. -/
def refusedTask : SyncTask where
  stateMachine :=
    { state := .Error
      attempt := 1
      maxRetries := 5
      lastError := some "Sync failed due to error" }
  backoffTimer := BackoffTimer.new RetryPolicy.default
  paused := false
  nextRetry := false
  vaultData := none
  pendingConflicts := []

theorem refusedRun_run [Codec] [Serde] :
    Run loopStep (new (SyncStateMachine.new 5)) refusedRun refusedTask := by
  refine Run.cons ⟨by decide, ?_⟩ (Run.nil _)
  refine (returns_startCycle (new (SyncStateMachine.new 5)) .TriggerSync _ _).mpr
    (Or.inr ⟨rfl, rfl, ?_⟩)
  refine (returns_transitionAndRun _ _ _ _).mpr (Or.inr ⟨_, _, _, rfl, ?_, rfl⟩)
  exact (returns_runCycle _ _ _).mpr (Or.inl ⟨_, rfl, rfl⟩)

/-- The rule at the refused run. -/
theorem run_never_wedges_iff_refused :
    letI : Codec := referenceCodec []
    letI : Serde := referenceSerde [] [] []
    (∀ u ∈ visited (new (SyncStateMachine.new 5)) refusedRun, u.Settled ∧ u.StartsOnTrigger) ↔
      ∀ e ∈ refusedRun, ¬ CycleFails e :=
  let : Codec := referenceCodec []
  let : Serde := referenceSerde [] [] []
  run_never_wedges_iff refusedRun_run

/-- One denied access and no later trigger starts a run. -/
theorem refused_connection_wedges :
    letI : Codec := referenceCodec []
    letI : Serde := referenceSerde [] [] []
    ¬ ∀ maxRetries es t, Run loopStep (new (SyncStateMachine.new maxRetries)) es t →
      ∀ u ∈ visited (new (SyncStateMachine.new maxRetries)) es,
        u.Settled ∧ u.StartsOnTrigger := by
  let : Codec := referenceCodec []
  let : Serde := referenceSerde [] [] []
  intro hall
  have hgood := hall 5 refusedRun refusedTask refusedRun_run refusedTask
    refusedRun_run.last_mem
  exact not_startsOnTrigger_of_error rfl rfl hgood.2

end

end SyncTask

end OakKeyring
