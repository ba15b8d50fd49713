import OakKeyring.Samples.Store
import OakKeyring.Sync.CycleErrors
import OakKeyring.Sync.IdentityGate

/-!
# The retries of the sync task

Two counters go along with the errors of a run: the one of the backoff timer bounds the retries
that are scheduled, the one of the state machine lets a scheduled retry go ahead. They agree
whenever a retry is scheduled. The first would not be bounded for an unreachable network, but no
cycle ends in that error.
-/

namespace OakKeyring

open Effect Transition

/-- Any other error is retried while attempts are left. -/
theorem RetryPolicy.lt_of_shouldRetry {p : RetryPolicy} {error : SyncError} {attempt : Nat}
    (h : p.shouldRetry error attempt = true) (hbounded : ¬ error.IsUnreachable) :
    attempt < p.maxRetries := by
  cases error <;>
    simp_all [RetryPolicy.shouldRetry, SyncError.IsUnreachable]

namespace SyncTask

section

variable [Codec] [Serde]

/-! ## What is counted in a run -/

/-- The error in which the cycle of a turn ended. -/
def FailsWith (e : Step SyncTask TaskLabel) (err : SyncError) : Prop :=
  e.label.input.runsCycle = true ∧
    CycleError (e.source.receive e.label.input).pipelineContext e.label.trace err

/-- The turn reports a finished sync. -/
def Completes (e : Step SyncTask TaskLabel) : Prop :=
  ∃ event ∈ e.label.events, event.IsCompletion

/-- The turn is a retry that the state machine let go ahead. -/
def Retries (e : Step SyncTask TaskLabel) : Prop :=
  e.label.input = .timer ∧ e.label.trace ≠ []

/-- The last turn that failed, and its error. -/
def LastFailure (done : List (Step SyncTask TaskLabel)) (e : Step SyncTask TaskLabel)
    (err : SyncError) : Prop :=
  ∃ before after, done = before ++ e :: after ∧ FailsWith e err ∧
    ∀ e' ∈ after, ∀ err', ¬ FailsWith e' err'

/-- A retry after an error whose retries are bounded. -/
def RetriesBounded (done : List (Step SyncTask TaskLabel)) (e : Step SyncTask TaskLabel) : Prop :=
  Retries e ∧ ∃ failed err, LastFailure done failed err ∧ ¬ err.IsUnreachable

open Classical in
/-- How many of the turns are retries after an error whose retries are bounded. -/
noncomputable def boundedRetries (before : List (Step SyncTask TaskLabel)) :
    List (Step SyncTask TaskLabel) → Nat
  | [] => 0
  | e :: since => (if RetriesBounded before e then 1 else 0) + boundedRetries (before ++ [e]) since

open Classical in
theorem boundedRetries_concat (before since : List (Step SyncTask TaskLabel))
    (e : Step SyncTask TaskLabel) :
    boundedRetries before (since ++ [e]) =
      boundedRetries before since + if RetriesBounded (before ++ since) e then 1 else 0 := by
  induction since generalizing before with
  | nil => simp [boundedRetries]
  | cons d since ih =>
      calc boundedRetries before (d :: since ++ [e])
          = (if RetriesBounded before d then 1 else 0) +
              boundedRetries (before ++ [d]) (since ++ [e]) := rfl
        _ = (if RetriesBounded before d then 1 else 0) +
              (boundedRetries (before ++ [d]) since +
                if RetriesBounded (before ++ (d :: since)) e then 1 else 0) := by
            rw [ih, List.append_assoc]
            rfl
        _ = boundedRetries before (d :: since) +
              if RetriesBounded (before ++ (d :: since)) e then 1 else 0 := by
            simp only [boundedRetries]
            omega

/-- A turn ends in one error at most. -/
theorem FailsWith.unique {e : Step SyncTask TaskLabel} {err err' : SyncError}
    (h : FailsWith e err) (h' : FailsWith e err') : err = err' := by
  rcases h.2 with htr | ⟨rest, ctx, htr, hrun⟩ <;> rcases h'.2 with htr' | ⟨rest', ctx', htr', hrun'⟩
  · rw [htr] at htr'
    injection htr' with hevent
    injection hevent with _ hanswer
    exact Except.error.inj hanswer
  · rw [htr] at htr'
    cases htr'
  · rw [htr] at htr'
    cases htr'
  · rw [htr] at htr'
    injection htr' with _ hrest
    rw [← hrest] at hrun'
    have hvalue := Prog.Returns.value_eq hrun hrun'
    injection hvalue with _ hresult
    injection hresult

omit [Codec] [Serde] in
theorem append_singleton_inj {α : Type} {xs ys : List α} {x y : α} (h : xs ++ [x] = ys ++ [y]) :
    xs = ys ∧ x = y := by
  have hlast := List.append_inj_right' h rfl
  exact ⟨List.append_inj_left' h rfl, List.singleton_inj.mp hlast⟩

/-- After a turn that failed, it is the last one. -/
theorem lastFailure_of_fails {done : List (Step SyncTask TaskLabel)}
    {e failed : Step SyncTask TaskLabel} {err err' : SyncError} (hfails : FailsWith e err)
    (hlast : LastFailure (done ++ [e]) failed err') : failed = e ∧ err' = err := by
  rcases hlast with ⟨before, after, hdone, hd, hafter⟩
  rcases List.eq_nil_or_concat after with hnil | ⟨after', d', hconcat⟩
  · rw [hnil] at hdone
    have hsame := (append_singleton_inj hdone).2
    rw [hsame] at hfails
    exact ⟨hsame.symm, hd.unique hfails⟩
  · rw [hconcat, List.concat_eq_append, ← List.cons_append, ← List.append_assoc] at hdone
    have hsame := (append_singleton_inj hdone).2
    refine absurd hfails (hafter e ?_ err)
    rw [hconcat, hsame]
    simp

/-- After any other turn, it is still the one it was. -/
theorem lastFailure_of_not_fails {done : List (Step SyncTask TaskLabel)}
    {e failed : Step SyncTask TaskLabel} {err : SyncError} (hnone : ∀ err', ¬ FailsWith e err')
    (hlast : LastFailure (done ++ [e]) failed err) : LastFailure done failed err := by
  rcases hlast with ⟨before, after, hdone, hd, hafter⟩
  rcases List.eq_nil_or_concat after with hnil | ⟨after', d', hconcat⟩
  · rw [hnil] at hdone
    rw [← (append_singleton_inj hdone).2] at hd
    exact absurd hd (hnone err)
  · rw [hconcat, List.concat_eq_append, ← List.cons_append, ← List.append_assoc] at hdone
    refine ⟨before, after', (append_singleton_inj hdone).1, hd, ?_⟩
    intro e' he'
    refine hafter e' ?_
    rw [hconcat]
    simp [he']

/-! ## What a turn does to the counters -/

/-- A turn without a cycle. -/
structure Rests (e : Step SyncTask TaskLabel) : Prop where
  backoffTimer : e.target.backoffTimer = e.source.backoffTimer
  machine : e.target.stateMachine = e.source.stateMachine ∨ e.target.state = .ShuttingDown
  armed : e.target.nextRetry = true → e.source.nextRetry = true
  maxRetries : e.target.stateMachine.maxRetries = e.source.stateMachine.maxRetries
  not_fails : ∀ err, ¬ FailsWith e err
  not_completes : ¬ Completes e
  not_retries : ¬ Retries e

/-- What starts the cycle of a turn. -/
def Begins (e : Step SyncTask TaskLabel) (trigger : SyncTrigger) : Prop :=
  (e.label.input = .timer ∧ trigger = .BackoffExpired) ∨
    (e.label.input ≠ .timer ∧ (trigger = .TriggerSync ∨ trigger = .PullOnly))

/-- The cycle of a turn ended well: both counters start again. -/
structure Finishes (e : Step SyncTask TaskLabel) (m : SyncStateMachine) : Prop where
  completes : Completes e
  not_fails : ∀ err, ¬ FailsWith e err
  backoffTimer : e.target.backoffTimer = e.source.backoffTimer.reset
  machine : e.target.stateMachine = m.reset
  nextRetry : e.target.nextRetry = true → e.source.nextRetry = true ∧ e.label.input ≠ .timer

/-- The cycle of a turn ended in an error, which was handled. -/
structure Fails (e : Step SyncTask TaskLabel) (m : SyncStateMachine) (err : SyncError) : Prop where
  fails : FailsWith e err
  not_completes : ¬ Completes e
  handled : ∃ v : SyncTask, v.stateMachine = m ∧ v.backoffTimer = e.source.backoffTimer ∧
    (v.nextRetry = true → e.source.nextRetry = true ∧ e.label.input ≠ .timer) ∧
    e.target = (v.handleError err).1

omit [Codec] [Serde] in
/-- The events of a run that did not fail hold its report. -/
theorem completion_mem_handlePipelineResult {t : SyncTask} {outcome : PipelineExecutionOutcome}
    (h : ∀ e, outcome.result ≠ .Error e) :
    (∃ event ∈ (t.handlePipelineResult outcome).2, event.IsCompletion) ∧
      (t.handlePipelineResult outcome).1.backoffTimer = t.backoffTimer.reset ∧
      (t.handlePipelineResult outcome).1.stateMachine = t.stateMachine.reset ∧
      (t.handlePipelineResult outcome).1.nextRetry = t.nextRetry := by
  unfold handlePipelineResult
  cases hresult : outcome.result with
  | Error e => exact absurd hresult (h e)
  | _ => exact ⟨⟨_, List.mem_cons_of_mem _ List.mem_cons_self, trivial⟩, rfl, rfl, rfl⟩

omit [Codec] [Serde] in
@[simp] theorem backoffTimer_storeConflicts (t : SyncTask) (ctx : PipelineContext) :
    (t.storeConflicts ctx).backoffTimer = t.backoffTimer := by
  unfold storeConflicts
  split <;> rfl

/-- A cycle, from the task in which it starts. -/
theorem runCycle_cases {u t' : SyncTask} {tr : StorageTrace} {events : List SyncEvent}
    (h : (u.runCycle).Returns tr (t', events)) :
    tr ≠ [] ∧
      (((∃ event ∈ events, event.IsCompletion) ∧ (∀ err, ¬ CycleError u.pipelineContext tr err) ∧
          t'.backoffTimer = u.backoffTimer.reset ∧ t'.stateMachine = u.stateMachine.reset ∧
          t'.nextRetry = u.nextRetry) ∨
        ((¬ ∃ event ∈ events, event.IsCompletion) ∧ ∃ err, CycleError u.pipelineContext tr err ∧
          ∃ v : SyncTask, v.stateMachine = u.stateMachine ∧ v.backoffTimer = u.backoffTimer ∧
            v.nextRetry = u.nextRetry ∧ t' = (v.handleError err).1)) := by
  -- an error is never reported together with a completion
  have hnone : ∀ (v : SyncTask) (err : SyncError),
      ¬ ∃ event ∈ (v.handleError err).2, event.IsCompletion := by
    rintro v err ⟨event, hevent, hcompletion⟩
    exact v.not_isCompletion_handleError err event hevent hcompletion
  rcases (u.returns_runCycle tr _).mp h with ⟨err, htr, hout⟩ | ⟨rest, ctx, result, htr, hrun, hout⟩
  · refine ⟨by rw [htr]; simp, Or.inr ⟨?_, err, Or.inl htr, u, rfl, rfl, rfl, ?_⟩⟩
    · rw [show events = (u.handleError err).2 from congrArg Prod.snd hout]
      exact hnone u err
    · exact congrArg Prod.fst hout
  · refine ⟨by rw [htr]; simp, ?_⟩
    -- the pipeline ran, and its result is handled
    have htask : t' = ((u.storeConflicts ctx).handlePipelineResult
        (executionOutcome ctx result)).1 := congrArg Prod.fst hout
    have hevents : events = ((u.storeConflicts ctx).handlePipelineResult
        (executionOutcome ctx result)).2 := congrArg Prod.snd hout
    by_cases herror : ∃ err, result = .Error err
    · rcases herror with ⟨err, hresult⟩
      rw [handlePipelineResult_error _ _ hresult] at htask hevents
      rw [hresult] at hrun
      refine Or.inr ⟨?_, err, Or.inr ⟨rest, ctx, htr, hrun⟩, u.storeConflicts ctx, by simp,
        by simp, by simp, htask⟩
      rw [hevents]
      exact hnone _ err
    -- a result that is no error completes the sync
    · have hresult : ∀ err, (executionOutcome ctx result).result ≠ .Error err := by
        intro err heq
        exact herror ⟨err, heq⟩
      have hdone := completion_mem_handlePipelineResult (t := u.storeConflicts ctx) hresult
      rw [← htask, ← hevents] at hdone
      refine Or.inl ⟨hdone.1, ?_, by simpa using hdone.2.1, by simpa using hdone.2.2.1,
        by simpa using hdone.2.2.2⟩
      intro err hfails
      rcases hfails with htr' | ⟨rest', ctx', htr', hrun'⟩
      · rw [htr] at htr'
        cases htr'
      · rw [htr] at htr'
        injection htr' with _ hrest
        rw [← hrest] at hrun'
        have hvalue := Prog.Returns.value_eq hrun hrun'
        injection hvalue with _ hresult'
        exact herror ⟨err, hresult'⟩

/-- A turn that takes a transition for a cycle: it is refused, or the cycle runs. -/
theorem transitionAndRun_cases {e : Step SyncTask TaskLabel} {u : SyncTask}
    {trigger : SyncTrigger} (hruns : e.label.input.runsCycle = true)
    (hcontext : u.pipelineContext = (e.source.receive e.label.input).pipelineContext)
    (hmachine : u.stateMachine = e.source.stateMachine)
    (htimer : u.backoffTimer = e.source.backoffTimer)
    (hretry : u.nextRetry = true → e.source.nextRetry = true ∧ e.label.input ≠ .timer)
    (hrun : (u.transitionAndRun trigger).Returns e.label.trace (e.target, e.label.events)) :
    Rests e ∨ ∃ m, e.source.stateMachine.transition trigger = .ok m ∧
      (Finishes e m ∨ ∃ err, Fails e m err) := by
  rcases (u.returns_transitionAndRun _ _ _).mp hrun with
    ⟨err, -, hnil, hout⟩ | ⟨m, t', events, hm, hcycle, hout⟩
  -- the trigger is refused, and nothing ran
  · left
    have htarget : e.target = u := congrArg Prod.fst hout
    have hevents : e.label.events = [.Failed err.toText u.state] := congrArg Prod.snd hout
    refine ⟨?_, Or.inl ?_, ?_, ?_, ?_, ?_, ?_⟩
    · rw [htarget]
      exact htimer
    · rw [htarget]
      exact hmachine
    · rw [htarget]
      exact fun h => (hretry h).1
    · rw [htarget, hmachine]
    · rintro err' ⟨-, htr | ⟨rest, ctx, htr, -⟩⟩
      · rw [hnil] at htr
        cases htr
      · rw [hnil] at htr
        cases htr
    · unfold Completes
      rw [hevents]
      simp [SyncEvent.IsCompletion]
    · exact fun h => h.2 hnil
  · right
    refine ⟨m, by rw [← hmachine]; exact hm, ?_⟩
    have htarget : e.target = t' := congrArg Prod.fst hout
    have hevents : e.label.events = .StateChanged u.state m.state :: events :=
      congrArg Prod.snd hout
    -- the transition that is reported first completes nothing
    have hcompletes : Completes e ↔ ∃ event ∈ events, event.IsCompletion := by
      unfold Completes
      rw [hevents]
      simp [SyncEvent.IsCompletion]
    have hfails : ∀ err, FailsWith e err ↔ CycleError
        (pipelineContext { u with stateMachine := m }) e.label.trace err := by
      intro err
      unfold FailsWith
      rw [← hcontext]
      exact ⟨And.right, fun h => ⟨hruns, h⟩⟩
    rcases (runCycle_cases hcycle).2 with ⟨hdone, hnone, hreset, hidle, hkept⟩ |
      ⟨hnot, err, herr, v, hv, hvtimer, hvretry, hhandled⟩
    · refine Or.inl ⟨hcompletes.mpr hdone, fun err h => hnone err ((hfails err).mp h), ?_, ?_, ?_⟩
      · rw [htarget, hreset]
        exact congrArg BackoffTimer.reset htimer
      · rw [htarget, hidle]
      · rw [htarget, hkept]
        exact hretry
    · refine Or.inr ⟨err, (hfails err).mpr herr, fun h => hnot (hcompletes.mp h), v, hv, ?_, ?_, ?_⟩
      · exact hvtimer.trans htimer
      · rw [hvretry]
        exact hretry
      · exact htarget.trans hhandled

/-- A turn that the handler leaves alone. -/
theorem rests_of_unchanged {e : Step SyncTask TaskLabel} {c : SyncCommand}
    (hinput : e.label.input = .command c) (htimer : e.target.backoffTimer = e.source.backoffTimer)
    (hmachine : e.target.stateMachine = e.source.stateMachine)
    (hretry : e.target.nextRetry = e.source.nextRetry)
    (hfails : ∀ err, ¬ FailsWith e err) (hcompletes : ¬ Completes e) : Rests e where
  backoffTimer := htimer
  machine := Or.inl hmachine
  armed := fun h => hretry ▸ h
  maxRetries := by rw [hmachine]
  not_fails := hfails
  not_completes := hcompletes
  not_retries := by
    rintro ⟨htimer, -⟩
    rw [hinput] at htimer
    cases htimer

/-- A trigger is dropped or takes a transition. -/
theorem startCycle_cases {e : Step SyncTask TaskLabel} {u : SyncTask} {trigger : SyncTrigger}
    {c : SyncCommand} (hinput : e.label.input = .command c)
    (hruns : e.label.input.runsCycle = true)
    (hcontext : u.pipelineContext = (e.source.receive e.label.input).pipelineContext)
    (hmachine : u.stateMachine = e.source.stateMachine)
    (htimer : u.backoffTimer = e.source.backoffTimer)
    (hretry : u.nextRetry = e.source.nextRetry)
    (hrun : (u.startCycle trigger).Returns e.label.trace (e.target, e.label.events)) :
    Rests e ∨ ∃ m, e.source.stateMachine.transition trigger = .ok m ∧
      (Finishes e m ∨ ∃ err, Fails e m err) := by
  rcases (u.returns_startCycle _ _ _).mp hrun with ⟨-, hnil, hout⟩ | ⟨-, -, hcycle⟩
  -- the command is not accepted, and nothing ran
  · left
    have htarget : e.target = u := congrArg Prod.fst hout
    have hevents : e.label.events = [] := congrArg Prod.snd hout
    refine rests_of_unchanged hinput ?_ ?_ ?_ ?_ ?_
    · rw [htarget]
      exact htimer
    · rw [htarget]
      exact hmachine
    · rw [htarget]
      exact hretry
    · rintro err ⟨-, htr | ⟨rest, ctx, htr, -⟩⟩
      · rw [hnil] at htr
        cases htr
      · rw [hnil] at htr
        cases htr
    · rintro ⟨event, hevent, -⟩
      rw [hevents] at hevent
      cases hevent
  · refine transitionAndRun_cases hruns hcontext hmachine htimer ?_ hcycle
    intro h
    refine ⟨hretry ▸ h, ?_⟩
    rw [hinput]
    simp

omit [Codec] [Serde] in
/-- A cycle that does not begin by the timer has a trigger of its own. -/
theorem begins_command {e : Step SyncTask TaskLabel} {c : SyncCommand} {trigger : SyncTrigger}
    (hinput : e.label.input = .command c)
    (htrigger : trigger = .TriggerSync ∨ trigger = .PullOnly) : Begins e trigger := by
  refine Or.inr ⟨?_, htrigger⟩
  rw [hinput]
  simp

/-- The commands without a cycle report no finished sync. -/
theorem handleCommand_quiet_events {t t' : SyncTask} {c : SyncCommand} {tr : StorageTrace}
    {events : List SyncEvent} (h : (t.handleCommand c).Returns tr (t', events))
    (htrigger : ∀ data, c ≠ .TriggerSync data) (hpull : c ≠ .PullOnly)
    (hshut : c ≠ .Shutdown) : ∀ event ∈ events, ¬ event.IsCompletion := by
  cases c with
  | TriggerSync data => exact absurd rfl (htrigger data)
  | PullOnly => exact absurd rfl hpull
  | ResolveConflict recordId strategy =>
      rcases (returns_handleResolveConflict _ _ _ _ _).mp h with
        ⟨message, -, hout, -⟩ | ⟨id, item, r, -, -, -, hout⟩
      · cases hout
        simp [SyncEvent.IsCompletion]
      · cases r <;> cases hout <;> simp [SyncEvent.IsCompletion]
  | ResolveAllConflicts strategy =>
      rcases returns_handleResolveAll h with ⟨-, -, count, hcount⟩
      rw [hcount]
      simp [SyncEvent.IsCompletion]
  | Pause =>
      rcases h with ⟨-, hout⟩
      cases hout
      simp [SyncEvent.IsCompletion]
  | Resume =>
      rcases h with ⟨-, hout⟩
      cases hout
      simp [SyncEvent.IsCompletion]
  | PushMetadataAtomic m v =>
      rcases (returns_handlePushMetadataAtomic _ _ _ _ _).mp h with ⟨r, -, hout⟩
      cases r <;> cases hout <;> simp [SyncEvent.IsCompletion]
  | DownloadMetadata =>
      rcases (returns_handleDownloadMetadata _ _ _).mp h with ⟨read, -, hout⟩
      cases hread : CloudStorage.metadataOfRead read <;> rw [hread] at hout <;> cases hout <;>
        simp [SyncEvent.IsCompletion]
  | Shutdown => exact absurd rfl hshut

theorem rests_shutdown {e : Step SyncTask TaskLabel} (hinput : e.label.input = .command .Shutdown)
    (hnone : ∀ err, ¬ FailsWith e err)
    (hrun : (e.source.handleCommand .Shutdown).Returns e.label.trace
      (e.target, e.label.events)) : Rests e := by
  have htarget : e.target = e.source.handleShutdown.1 := congrArg Prod.fst hrun.2
  have hevents : e.label.events = e.source.handleShutdown.2 := congrArg Prod.snd hrun.2
  refine ⟨?_, Or.inr ?_, ?_, ?_, hnone, ?_, ?_⟩
  · rw [htarget]
    unfold handleShutdown
    dsimp only
    split <;> rfl
  · rw [htarget]
    exact state_handleShutdown e.source
  · rw [htarget]
    unfold handleShutdown
    dsimp only
    split <;> exact id
  · rw [htarget]
    unfold handleShutdown
    dsimp only
    split
    · rename_i m hm
      exact SyncStateMachine.maxRetries_transition hm
    · rfl
  · unfold Completes
    rw [hevents]
    simp [handleShutdown, SyncEvent.IsCompletion]
  · rintro ⟨htimer, -⟩
    rw [hinput] at htimer
    cases htimer

/-- What a turn can do: nothing to the counters, or a cycle that ends well or in an error. -/
theorem turn_cases {e : Step SyncTask TaskLabel}
    (hstep : loopStep e.source e.label e.target) :
    Rests e ∨ ∃ trigger m, Begins e trigger ∧
      (e.label.input = .timer → e.source.nextRetry = true) ∧
      e.source.stateMachine.transition trigger = .ok m ∧
      (Finishes e m ∨ ∃ err, Fails e m err) := by
  rcases hstep with ⟨-, hstep⟩
  cases hinput : e.label.input with
  | timer =>
      rw [hinput] at hstep
      -- the timer starts a cycle
      have hcases := transitionAndRun_cases (u := { e.source with nextRetry := false })
        (by rw [hinput]; rfl) (by rw [hinput]; rfl) rfl rfl (by simp) hstep.2
      refine hcases.imp id ?_
      rintro ⟨m, hm, hends⟩
      exact ⟨.BackoffExpired, m, Or.inl ⟨hinput, rfl⟩, fun _ => hstep.1, hm, hends⟩
  | command c =>
      rw [hinput] at hstep
      have hcommand : (e.label.input = .timer → e.source.nextRetry = true) := by
        intro htimer
        rw [hinput] at htimer
        cases htimer
      by_cases htrigger : ∃ data, c = .TriggerSync data
      · rcases htrigger with ⟨data, hc⟩
        rw [hc] at hstep hinput
        have hcases := startCycle_cases (u := { e.source with vaultData := data }) hinput
          (by rw [hinput]; rfl) (by rw [hinput]; rfl) rfl rfl rfl hstep
        refine hcases.imp id ?_
        rintro ⟨m, hm, hends⟩
        exact ⟨.TriggerSync, m, begins_command hinput (Or.inl rfl), by simp, hm, hends⟩
      · by_cases hpull : c = .PullOnly
        · rw [hpull] at hstep hinput
          have hcases := startCycle_cases (u := e.source) hinput
            (by rw [hinput]; rfl) (by rw [hinput]; rfl) rfl rfl rfl hstep
          refine hcases.imp id ?_
          rintro ⟨m, hm, hends⟩
          exact ⟨.PullOnly, m, begins_command hinput (Or.inr rfl), by simp, hm, hends⟩
        · left
          have hquiet : e.label.input.runsCycle = false := by
            rw [hinput]
            cases c <;> simp_all [TaskInput.runsCycle]
          -- no cycle runs, so none fails
          have hnone : ∀ err, ¬ FailsWith e err := by
            rintro err ⟨hruns, -⟩
            rw [hquiet] at hruns
            cases hruns
          by_cases hshut : c = .Shutdown
          · rw [hshut] at hstep hinput
            exact rests_shutdown hinput hnone hstep
          · have hkept := handleCommand_quiet hstep (by simpa using htrigger) hpull hshut
            have hevents := handleCommand_quiet_events hstep (by simpa using htrigger) hpull hshut
            refine rests_of_unchanged hinput hkept.2.2 hkept.1 hkept.2.1 hnone ?_
            rintro ⟨event, hevent, hcompletion⟩
            exact hevents event hevent hcompletion

/-! ## The two counters -/

omit [Codec] [Serde] in
/-- Handling an error in `Pulling`: a retry is scheduled and both counters go up, or none is and
the timer stays as it is. -/
theorem handleError_counters {v : SyncTask} (hpulling : v.stateMachine.state = .Pulling)
    (hretry : v.nextRetry = false) (err : SyncError) :
    (v.handleError err).1.stateMachine.maxRetries = v.stateMachine.maxRetries ∧
      ((v.backoffTimer.shouldRetry err = true ∧ (v.handleError err).1.state = .Error ∧
          (v.handleError err).1.stateMachine.attempt = v.stateMachine.attempt + 1 ∧
          (v.handleError err).1.backoffTimer = v.backoffTimer.nextDelay ∧
          (v.handleError err).1.nextRetry = true) ∨
        (v.backoffTimer.shouldRetry err = false ∧
          ((v.handleError err).1.state = .Error ∨ (v.handleError err).1.state = .Pulling) ∧
          (v.handleError err).1.backoffTimer = v.backoffTimer ∧
          (v.handleError err).1.nextRetry = false)) := by
  rcases v.handleError_of_pulling err hpulling with ⟨htrigger, -⟩ | ⟨htrigger, hsame⟩
  -- the error is counted, and a retry is scheduled while the budget lasts
  · have hmoved : v.stateMachine.transition .OtherError =
        .ok { v.stateMachine with
              state := .Error
              attempt := v.stateMachine.attempt + 1
              lastError := some "Sync failed due to error" } := by
      simp [SyncStateMachine.transition, SyncStateMachine.computeNextState,
        SyncStateMachine.nextState, SyncStateMachine.applySideEffects, hpulling]
    have hhandled : (v.handleError err).1 = scheduleRetry
        { v with
          stateMachine :=
            { v.stateMachine with
              state := .Error
              attempt := v.stateMachine.attempt + 1
              lastError := some "Sync failed due to error" } } err := by
      simp [handleError, htrigger, hmoved]
    rw [hhandled]
    cases hshould : v.backoffTimer.shouldRetry err with
    | true => simp [scheduleRetry, hshould, state]
    | false => simp [scheduleRetry, hshould, state, hretry]
  · rw [hsame]
    refine ⟨rfl, Or.inr ⟨?_, Or.inr hpulling, rfl, hretry⟩⟩
    by_contra hshould
    rw [Bool.not_eq_false] at hshould
    -- an error that should be retried is handled as any other error
    have hother : v.errorTrigger err = .OtherError := by
      unfold errorTrigger
      rw [hshould]
      cases err <;> rfl
    rw [hother] at htrigger
    cases htrigger

/-- The two counters of a task between its turns. -/
structure Counted (maxRetries : Nat) (t : SyncTask) : Prop where
  policy : t.backoffTimer.policy = RetryPolicy.default
  limit : t.stateMachine.maxRetries = maxRetries
  idle : t.state = .Idle →
    t.nextRetry = false ∧ t.backoffTimer.attempt = 0 ∧ t.stateMachine.attempt = 0
  armed : t.nextRetry = true → t.state = .ShuttingDown ∨
    (t.state = .Error ∧ t.stateMachine.attempt = t.backoffTimer.attempt ∧
      0 < t.backoffTimer.attempt)

omit [Codec] [Serde] in
theorem counted_new (maxRetries : Nat) :
    Counted maxRetries (new (SyncStateMachine.new maxRetries)) where
  policy := rfl
  limit := rfl
  idle := fun _ => ⟨rfl, rfl, rfl⟩
  armed := by
    intro h
    cases h

omit [Codec] [Serde] in
/-- Where a cycle starts, the counters agree and no retry is left over. -/
theorem begins_counted {maxRetries : Nat} {e : Step SyncTask TaskLabel} {trigger : SyncTrigger}
    {m : SyncStateMachine} (hlive : e.source.state ≠ .ShuttingDown)
    (hcounted : Counted maxRetries e.source) (hbegins : Begins e trigger)
    (harmed : e.label.input = .timer → e.source.nextRetry = true)
    (hm : e.source.stateMachine.transition trigger = .ok m) :
    m.state = .Pulling ∧ m.maxRetries = maxRetries ∧
      m.attempt = e.source.stateMachine.attempt ∧
      e.source.stateMachine.attempt = e.source.backoffTimer.attempt ∧
      (e.source.nextRetry = true → e.label.input = .timer) := by
  have hlimit : m.maxRetries = maxRetries :=
    (SyncStateMachine.maxRetries_transition hm).trans hcounted.limit
  rcases hbegins with ⟨hinput, htrigger⟩ | ⟨hinput, htrigger⟩
  -- the retry that was armed: both counters agree, and the timer was the input
  · have hpulling := pulling_of_transition (Or.inr (Or.inr htrigger)) hm
    rcases hcounted.armed (harmed hinput) with hshut | ⟨herror, hagree, -⟩
    · exact absurd hshut hlive
    · refine ⟨hpulling, hlimit, ?_, hagree, fun _ => hinput⟩
      rcases (SyncStateMachine.transition_ok_iff _ _ _).mp hm with ⟨target, -, hmachine⟩
      have hstate : e.source.stateMachine.state = .Error := herror
      rw [hmachine, htrigger]
      simp [SyncStateMachine.applySideEffects, hstate]
  · have hpulling := pulling_of_transition (htrigger.imp id Or.inl) hm
    rcases (SyncStateMachine.transition_ok_iff _ _ _).mp hm with ⟨target, htarget, hmachine⟩
    -- a command starts from `Idle`, where both counters are zero
    have hidle : e.source.stateMachine.state = .Idle := by
      unfold SyncStateMachine.nextState at htarget
      rcases htrigger with rfl | rfl <;> cases hstate : e.source.stateMachine.state <;>
        simp [hstate] at htarget ⊢
    rcases hcounted.idle hidle with ⟨hnone, htimer, hattempt⟩
    refine ⟨hpulling, hlimit, ?_, hattempt.trans htimer.symm, ?_⟩
    · have htargetPulling : target = .Pulling := by
        rw [hmachine] at hpulling
        exact hpulling
      rw [hmachine, htargetPulling, hattempt]
      simp [SyncStateMachine.applySideEffects, hidle]
    · intro h
      rw [hnone] at h
      cases h

/-- What a turn leaves of the counters: nothing changed, they start again, a retry is scheduled
and both went up, or the error is not retried. -/
theorem counters_cases {maxRetries : Nat} {e : Step SyncTask TaskLabel}
    (hstep : loopStep e.source e.label e.target) (hcounted : Counted maxRetries e.source) :
    Rests e ∨
      (e.label.input = .timer → e.source.nextRetry = true) ∧
      e.source.stateMachine.attempt = e.source.backoffTimer.attempt ∧
      ((Completes e ∧ (∀ err, ¬ FailsWith e err) ∧ e.target.state = .Idle ∧
          e.target.backoffTimer = e.source.backoffTimer.reset ∧
          e.target.stateMachine.attempt = 0 ∧ e.target.stateMachine.maxRetries = maxRetries ∧
          e.target.nextRetry = false) ∨
        (∃ err, FailsWith e err ∧ ¬ Completes e ∧
          e.target.stateMachine.maxRetries = maxRetries ∧
          ((e.source.backoffTimer.shouldRetry err = true ∧ e.target.state = .Error ∧
              e.target.stateMachine.attempt = e.source.stateMachine.attempt + 1 ∧
              e.target.backoffTimer = e.source.backoffTimer.nextDelay ∧
              e.target.nextRetry = true) ∨
            (e.source.backoffTimer.shouldRetry err = false ∧
              (e.target.state = .Error ∨ e.target.state = .Pulling) ∧
              e.target.backoffTimer = e.source.backoffTimer ∧ e.target.nextRetry = false)))) := by
  refine (turn_cases hstep).imp id ?_
  rintro ⟨trigger, m, hbegins, harmed, hm, hends⟩
  have hstart := begins_counted hstep.1 hcounted hbegins harmed hm
  have hunarmed : ∀ {b : Bool},
      (b = true → e.source.nextRetry = true ∧ e.label.input ≠ .timer) → b = false := by
    intro b hb
    by_contra htrue
    rw [Bool.not_eq_false] at htrue
    exact (hb htrue).2 (hstart.2.2.2.2 (hb htrue).1)
  refine ⟨harmed, hstart.2.2.2.1, ?_⟩
  rcases hends with hfinish | ⟨err, hfail⟩
  -- the cycle finishes and resets the counters
  · left
    refine ⟨hfinish.completes, hfinish.not_fails, ?_, hfinish.backoffTimer, ?_, ?_,
      hunarmed hfinish.nextRetry⟩
    · unfold state
      rw [hfinish.machine]
      rfl
    · rw [hfinish.machine]
      rfl
    · rw [hfinish.machine]
      exact hstart.2.1
  · right
    rcases hfail.handled with ⟨v, hv, hvtimer, hvretry, htarget⟩
    -- the cycle fails, and the error is handled
    have hpulling : v.stateMachine.state = .Pulling := by
      rw [hv]
      exact hstart.1
    have hcounters := handleError_counters hpulling (hunarmed hvretry) err
    rw [← htarget, hvtimer, hv] at hcounters
    refine ⟨err, hfail.fails, hfail.not_completes, hcounters.1.trans hstart.2.1, ?_⟩
    rw [← hstart.2.2.1]
    exact hcounters.2

theorem counted_step {maxRetries : Nat} {e : Step SyncTask TaskLabel}
    (hstep : loopStep e.source e.label e.target) (hcounted : Counted maxRetries e.source) :
    Counted maxRetries e.target := by
  rcases counters_cases hstep hcounted with
    hrests | ⟨-, hagree, ⟨-, -, hidle, htimer, hattempt, hlimit, hnone⟩ |
      ⟨err, -, -, hlimit, ⟨-, herror, hattempt, htimer, -⟩ | ⟨-, hstate, htimer, hnone⟩⟩⟩
  -- nothing ran
  · refine ⟨?_, hrests.maxRetries.trans hcounted.limit, ?_, ?_⟩
    · rw [hrests.backoffTimer]
      exact hcounted.policy
    · intro hidle
      rcases hrests.machine with hsame | hshut
      · have hbefore := hcounted.idle (by rw [state, ← hsame]; exact hidle)
        rw [hrests.backoffTimer, hsame]
        refine ⟨?_, hbefore.2⟩
        by_contra harmed
        rw [Bool.not_eq_false] at harmed
        rw [hrests.armed harmed] at hbefore
        cases hbefore.1
      · rw [hshut] at hidle
        cases hidle
    · intro harmed
      rcases hrests.machine with hsame | hshut
      · unfold state
        rw [hrests.backoffTimer, hsame]
        exact hcounted.armed (hrests.armed harmed)
      · exact Or.inl hshut
  -- a cycle finished
  · refine ⟨?_, hlimit, fun _ => ⟨hnone, ?_, hattempt⟩, ?_⟩
    · rw [htimer]
      exact hcounted.policy
    · rw [htimer]
      rfl
    · rw [hnone]
      intro h
      cases h
  -- a cycle failed within the budget
  · refine ⟨?_, hlimit, ?_, fun _ => Or.inr ⟨herror, ?_, ?_⟩⟩
    · rw [htimer]
      exact hcounted.policy
    · rw [herror]
      intro h
      cases h
    · rw [hattempt, htimer, hagree]
      rfl
    · rw [htimer]
      exact Nat.succ_pos _
  -- a cycle failed, and no retry is armed
  · refine ⟨?_, hlimit, ?_, ?_⟩
    · rw [htimer]
      exact hcounted.policy
    · intro hidle
      rcases hstate with herror | hpulling
      · rw [herror] at hidle
        cases hidle
      · rw [hpulling] at hidle
        cases hidle
    · rw [hnone]
      intro h
      cases h

/-! ## The retries of a run -/

/-- What the two counters say about the steps that led to a state. -/
structure Ledger (done : List (Step SyncTask TaskLabel)) (t : SyncTask) : Prop where
  budget : ∀ before since, done = before ++ since → (∀ e ∈ since.dropLast, ¬ Completes e) →
    boundedRetries before since ≤ RetryPolicy.default.maxRetries
  level : ∀ before since, done = before ++ since → (∀ e ∈ since, ¬ Completes e) →
    boundedRetries before since + t.nextRetry.toNat ≤ t.backoffTimer.attempt
  armed : t.nextRetry = true → ∀ failed err, LastFailure done failed err →
    ¬ err.IsUnreachable → t.backoffTimer.attempt ≤ RetryPolicy.default.maxRetries
  rejected : ∀ failed err, LastFailure done failed err →
    failed.source.backoffTimer.shouldRetry err = false → t.nextRetry = false

theorem ledger_nil (maxRetries : Nat) :
    Ledger [] (new (SyncStateMachine.new maxRetries)) := by
  have hsplit : ∀ {before since : List (Step SyncTask TaskLabel)},
      [] = before ++ since → since = [] := fun h => (List.append_eq_nil_iff.mp h.symm).2
  have hnone : ∀ {failed : Step SyncTask TaskLabel} {err : SyncError},
      ¬ LastFailure [] failed err := by
    rintro failed err ⟨before, after, hdone, -⟩
    simp at hdone
  refine ⟨?_, ?_, ?_, ?_⟩
  · intro before since hdone _
    rw [hsplit hdone]
    exact Nat.zero_le _
  · intro before since hdone _
    rw [hsplit hdone]
    exact Nat.le_refl 0
  · intro _ failed err hlast
    exact absurd hlast hnone
  · intro failed err hlast
    exact absurd hlast hnone

/-- The retry that starts is one of those that were scheduled. -/
theorem Ledger.started {done before since : List (Step SyncTask TaskLabel)}
    {e : Step SyncTask TaskLabel} (hledger : Ledger done e.source) (hdone : done = before ++ since)
    (harmed : e.label.input = .timer → e.source.nextRetry = true)
    (hsince : ∀ d ∈ since, ¬ Completes d) :
    boundedRetries before (since ++ [e]) ≤ RetryPolicy.default.maxRetries ∧
      boundedRetries before (since ++ [e]) ≤ e.source.backoffTimer.attempt := by
  have hbudget := hledger.budget before since hdone fun d hd =>
    hsince d (List.dropLast_subset _ hd)
  have hlevel := hledger.level before since hdone hsince
  rw [boundedRetries_concat, ← hdone]
  by_cases hretries : RetriesBounded done e
  · rw [if_pos hretries]
    rcases hretries with ⟨⟨hinput, -⟩, failed, err, hlast, hbounded⟩
    have hset := harmed hinput
    have hattempt := hledger.armed hset failed err hlast hbounded
    rw [hset, Bool.toNat_true] at hlevel
    exact ⟨Nat.le_trans hlevel hattempt, hlevel⟩
  · rw [if_neg hretries]
    exact ⟨hbudget, Nat.le_trans (Nat.le_add_right _ _) hlevel⟩

omit [Codec] [Serde] in
/-- The parts of a list that is one longer. -/
theorem split_concat {α : Type} {done before since : List α} {e : α} (h : done ++ [e] = before ++ since) :
    since = [] ∨ ∃ since', since = since' ++ [e] ∧ done = before ++ since' := by
  rcases List.eq_nil_or_concat since with hnil | ⟨since', d, hconcat⟩
  · exact Or.inl hnil
  · right
    rw [hconcat, List.concat_eq_append, ← List.append_assoc] at h
    rcases append_singleton_inj h with ⟨hdone, hsame⟩
    exact ⟨since', by rw [hconcat, List.concat_eq_append, hsame], hdone⟩

omit [Codec] [Serde] in
theorem toNat_le_of_imp {b c : Bool} (h : b = true → c = true) : b.toNat ≤ c.toNat := by
  cases b with
  | false => exact Nat.zero_le _
  | true =>
      rw [h rfl]

/-- A turn without a cycle starts no retry. -/
theorem boundedRetries_rests {before since : List (Step SyncTask TaskLabel)}
    {e : Step SyncTask TaskLabel} (hrests : Rests e) :
    boundedRetries before (since ++ [e]) = boundedRetries before since := by
  rw [boundedRetries_concat, if_neg fun h => hrests.not_retries h.1, Nat.add_zero]

theorem ledger_step {maxRetries : Nat} {done : List (Step SyncTask TaskLabel)}
    {e : Step SyncTask TaskLabel} (hstep : loopStep e.source e.label e.target)
    (hcounted : Counted maxRetries e.source) (hledger : Ledger done e.source) :
    Ledger (done ++ [e]) e.target := by
  have harmed : e.label.input = .timer → e.source.nextRetry = true := by
    intro hinput
    have hturn := hstep.2
    rw [hinput] at hturn
    exact hturn.1
  have hbudget : ∀ before since, done ++ [e] = before ++ since →
      (∀ d ∈ since.dropLast, ¬ Completes d) →
      boundedRetries before since ≤ RetryPolicy.default.maxRetries := by
    intro before since hdone hsince
    rcases split_concat hdone with hnil | ⟨since', hconcat, hdone'⟩
    · rw [hnil]
      exact Nat.zero_le _
    · rw [hconcat, List.dropLast_concat] at hsince
      rw [hconcat]
      exact (hledger.started hdone' harmed hsince).1
  have hfirst : e.source.nextRetry.toNat ≤ e.source.backoffTimer.attempt := by
    have hlevel := hledger.level done [] (by simp) (by simp)
    simpa [boundedRetries] using hlevel
  -- the parts that end with this turn, up to which the retries are counted
  have hlevel : ∀ limit : Nat, e.target.nextRetry.toNat ≤ limit →
      (∀ before since, done = before ++ since → (∀ d ∈ since, ¬ Completes d) →
        ¬ Completes e → boundedRetries before (since ++ [e]) + e.target.nextRetry.toNat ≤ limit) →
      ∀ before since, done ++ [e] = before ++ since → (∀ d ∈ since, ¬ Completes d) →
        boundedRetries before since + e.target.nextRetry.toNat ≤ limit := by
    intro limit hnow hlast before since hdone hsince
    rcases split_concat hdone with hnil | ⟨since', hconcat, hdone'⟩
    · rw [hnil]
      simpa [boundedRetries] using hnow
    · rw [hconcat] at hsince ⊢
      exact hlast before since' hdone' (fun d hd => hsince d (by simp [hd])) (hsince e (by simp))
  rcases counters_cases hstep hcounted with
    hrests | ⟨-, -, ⟨hcompletes, hnone, -, -, -, -, hunarmed⟩ |
      ⟨err, hfails, -, -, ⟨hshould, -, -, htimer, hset⟩ | ⟨-, -, htimer, hunarmed⟩⟩⟩
  -- nothing ran
  · have hset := toNat_le_of_imp hrests.armed
    refine ⟨hbudget, ?_, ?_, ?_⟩
    · rw [hrests.backoffTimer]
      refine hlevel _ (Nat.le_trans hset hfirst) ?_
      intro before since hdone hsince _
      have hbefore := hledger.level before since hdone hsince
      rw [boundedRetries_rests hrests]
      omega
    · intro harmed' failed err hlast hbounded
      rw [hrests.backoffTimer]
      exact hledger.armed (hrests.armed harmed') failed err
        (lastFailure_of_not_fails hrests.not_fails hlast) hbounded
    · intro failed err hlast hrejected
      have hbefore := hledger.rejected failed err
        (lastFailure_of_not_fails hrests.not_fails hlast) hrejected
      by_contra harmed'
      rw [Bool.not_eq_false] at harmed'
      rw [hrests.armed harmed'] at hbefore
      cases hbefore
  -- a cycle finished, so the count starts again
  · refine ⟨hbudget, hlevel _ ?_ ?_, ?_, fun _ _ _ _ => hunarmed⟩
    · rw [hunarmed]
      exact Nat.zero_le _
    · intro before since _ _ hnot
      exact absurd hcompletes hnot
    · intro harmed'
      rw [hunarmed] at harmed'
      cases harmed'
  -- a cycle failed, and a retry is armed
  · refine ⟨hbudget, ?_, ?_, ?_⟩
    · rw [htimer, hset]
      refine hset ▸ hlevel (e.source.backoffTimer.attempt + 1) ?_ ?_
      · rw [hset]
        exact Nat.succ_le_succ (Nat.zero_le _)
      · intro before since hdone hsince _
        rw [hset]
        exact Nat.succ_le_succ (hledger.started hdone harmed hsince).2
    · intro _ failed err' hlast hbounded
      rw [(lastFailure_of_fails hfails hlast).2] at hbounded
      have hlimit := RetryPolicy.lt_of_shouldRetry hshould hbounded
      rw [hcounted.policy] at hlimit
      rw [htimer]
      exact hlimit
    · intro failed err' hlast hrejected
      rcases lastFailure_of_fails hfails hlast with ⟨hfailed, herr⟩
      rw [hfailed, herr, hshould] at hrejected
      cases hrejected
  -- a cycle failed for the last time
  · refine ⟨hbudget, ?_, ?_, fun _ _ _ _ => hunarmed⟩
    · rw [htimer]
      refine hlevel _ ?_ ?_
      · rw [hunarmed]
        exact Nat.zero_le _
      · intro before since hdone hsince _
        rw [hunarmed]
        exact (hledger.started hdone harmed hsince).2
    · intro harmed'
      rw [hunarmed] at harmed'
      cases harmed'

/-- The state machine takes the retry that is scheduled. -/
def TakesRetry (t : SyncTask) : Prop :=
  t.state ≠ .ShuttingDown → t.nextRetry = true →
    ∃ m, t.stateMachine.transition .BackoffExpired = .ok m

/-- The retries up to a state of a run: those that are bounded stay within the policy, none is
scheduled after an error that is not to be retried, and the one that is scheduled is taken. -/
structure RetriesWithinBudget (done : List (Step SyncTask TaskLabel)) (t : SyncTask) : Prop where
  budget : ∀ before since, done = before ++ since → (∀ e ∈ since.dropLast, ¬ Completes e) →
    boundedRetries before since ≤ RetryPolicy.default.maxRetries
  rejected : ∀ failed err, LastFailure done failed err →
    failed.source.backoffTimer.shouldRetry err = false → t.nextRetry = false
  taken : t.TakesRetry

/-- An error that is to be retried finds attempts left in the state machine. -/
def WithinAttempts (e : Step SyncTask TaskLabel) : Prop :=
  ∀ err, FailsWith e err → e.source.backoffTimer.shouldRetry err = true →
    e.source.stateMachine.attempt < e.source.stateMachine.maxRetries

omit [Codec] [Serde] in
/-- A task in `Error` takes the retry exactly when its attempts are not used up. -/
theorem takesRetry_error_iff {t : SyncTask} (herror : t.state = .Error)
    (hset : t.nextRetry = true) :
    t.TakesRetry ↔ t.stateMachine.attempt ≤ t.stateMachine.maxRetries := by
  have hstate : t.stateMachine.state = .Error := herror
  have htransition : (∃ m, t.stateMachine.transition .BackoffExpired = .ok m) ↔
      t.stateMachine.attempt ≤ t.stateMachine.maxRetries := by
    simp [SyncStateMachine.transition_ok_iff, SyncStateMachine.nextState, hstate]
  refine Iff.trans ?_ htransition
  unfold TakesRetry
  rw [herror]
  simp [hset]

theorem takesRetry_step {maxRetries : Nat} {e : Step SyncTask TaskLabel}
    (hstep : loopStep e.source e.label e.target) (hcounted : Counted maxRetries e.source)
    (htaken : e.source.TakesRetry) : e.target.TakesRetry ↔ WithinAttempts e := by
  rcases counters_cases hstep hcounted with
    hrests | ⟨-, -, ⟨-, hnone, -, -, -, -, hunarmed⟩ |
      ⟨err, hfails, -, hlimit, ⟨hshould, herror, hattempt, -, hset⟩ | ⟨hnot, -, -, hunarmed⟩⟩⟩
  · refine iff_of_true ?_ fun err hfails => absurd hfails (hrests.not_fails err)
    intro hlive hset
    rcases hrests.machine with hsame | hshut
    · rw [hsame]
      exact htaken hstep.1 (hrests.armed hset)
    · exact absurd hshut hlive
  · refine iff_of_true ?_ fun err hfails => absurd hfails (hnone err)
    intro _ hset
    rw [hunarmed] at hset
    cases hset
  · rw [takesRetry_error_iff herror hset, hattempt, hlimit, ← hcounted.limit]
    constructor
    · intro hle _ _ _
      exact hle
    · intro hwithin
      exact hwithin err hfails hshould
  · refine iff_of_true ?_ ?_
    · intro _ hset
      rw [hunarmed] at hset
      cases hset
    · intro err' hfails' hshould
      rw [← hfails.unique hfails', hnot] at hshould
      cases hshould

/-- With the attempts of the policy, only an unreachable network can use them up. -/
theorem withinAttempts_of_bounded {maxRetries : Nat} {es : List (Step SyncTask TaskLabel)}
    {t : SyncTask} (hlimit : RetryPolicy.default.maxRetries ≤ maxRetries)
    (hrun : Run loopStep (new (SyncStateMachine.new maxRetries)) es t)
    {e : Step SyncTask TaskLabel} (he : e ∈ es)
    (hbounded : ∀ err, FailsWith e err → ¬ err.IsUnreachable) : WithinAttempts e := by
  intro err hfails hshould
  have hcounted : Counted maxRetries e.source :=
    hrun.invariant_source (C := fun _ => True) (counted_new maxRetries) (fun _ _ => trivial)
      (fun _ hstep _ => counted_step hstep) e he
  have hagree : e.source.stateMachine.attempt = e.source.backoffTimer.attempt := by
    rcases counters_cases (hrun.step_of_mem he) hcounted with hrests | ⟨-, hagree, -⟩
    · exact absurd hfails (hrests.not_fails err)
    · exact hagree
  have hleft := RetryPolicy.lt_of_shouldRetry hshould (hbounded err hfails)
  rw [hcounted.policy] at hleft
  rw [hagree, hcounted.limit]
  exact Nat.lt_of_lt_of_le hleft hlimit

/-- Every failure of storage in the turn is one that cloud storage reports. -/
def Reported [Regex] (e : Step SyncTask TaskLabel) : Prop :=
  ∀ ev ∈ e.label.trace, CloudStorage.Reported ev

/-- In every run of the task as it is started, on whatever cloud storage answers, the retries keep
to their budget after every part of the run. -/
theorem retries_within_budget [Regex] {es : List (Step SyncTask TaskLabel)} {t : SyncTask}
    (hrun : Run loopStep (new (SyncStateMachine.new 5)) es t)
    (hreports : ∀ e ∈ es, Reported e) :
    ∀ done rest u, es = done ++ rest →
      Run loopStep (new (SyncStateMachine.new 5)) done u → RetriesWithinBudget done u := by
  -- no error uses up the attempts of the state machine before those of the timer
  have hwithin : ∀ e ∈ es, WithinAttempts e := by
    intro e he
    refine withinAttempts_of_bounded (Nat.le_refl 5) hrun he ?_
    intro err hfails
    exact CycleError.reachable hfails.2 (hreports e he)
  have hbudget : ∀ done u, Run loopStep (new (SyncStateMachine.new 5)) done u →
      (∀ e ∈ done, WithinAttempts e) → Counted 5 u ∧ Ledger done u ∧ u.TakesRetry := by
    intro done u hdone
    refine hdone.history (P := fun done u => (∀ e ∈ done, WithinAttempts e) →
      Counted 5 u ∧ Ledger done u ∧ u.TakesRetry) ?_ ?_
    · intro _
      refine ⟨counted_new 5, ledger_nil 5, ?_⟩
      intro _ hset
      cases hset
    · intro done e hstep ih hall
      rcases ih fun d hd => hall d (List.mem_append_left _ hd) with ⟨hcounted, hledger, htaken⟩
      have hlast := hall e (List.mem_append_right _ (List.mem_singleton_self e))
      exact ⟨counted_step hstep hcounted, ledger_step hstep hcounted hledger,
        (takesRetry_step hstep hcounted htaken).mpr hlast⟩
  intro done rest u hes hdone
  rw [hes] at hwithin
  rcases hbudget done u hdone fun e he => hwithin e (List.mem_append_left _ he) with
    ⟨-, hledger, htaken⟩
  exact ⟨hledger.budget, hledger.rejected, htaken⟩

end

/-! ### A provider that limits the rate -/

namespace RateLimited

attribute [local instance] referenceRegex

def error : SyncError :=
  mapOpendalError { kind := .RateLimited, text := "rate limited" } "s3" "connectivity check"

/-- A fresh task after a number of failures. -/
def after (failures : Nat) : SyncTask where
  stateMachine :=
    { state := .Error
      attempt := failures
      maxRetries := 5
      lastError := some "Sync failed due to error" }
  backoffTimer :=
    { policy := .default
      attempt := failures }
  paused := false
  nextRetry := true
  vaultData := none
  pendingConflicts := []

/-- A cycle that begins in a state and whose connectivity check is refused. -/
def label (input : TaskInput) (events : List SyncEvent) : TaskLabel where
  input := input
  trace := [StorageOp.listRecords.answered (.error error)]
  events := events

def first : Step SyncTask TaskLabel where
  source := new (SyncStateMachine.new 5)
  label := label (.command (.TriggerSync none))
    [.StateChanged .Idle .Pulling, .StateChanged .Pulling .Error, .Failed error.toText .Error]
  target := after 1

def retry (failures : Nat) : Step SyncTask TaskLabel where
  source := after failures
  label := label .timer
    [.StateChanged .Error .Pulling, .StateChanged .Pulling .Error, .Failed error.toText .Error]
  target := after (failures + 1)

/-- The task after the last retry: no other is scheduled, and there is no transition for that. -/
def givenUp : SyncTask :=
  { after 5 with
    stateMachine := { (after 5).stateMachine with state := .Pulling }
    nextRetry := false }

def noTransition : SyncError :=
  .InvalidStateTransition "Pulling" "unknown"

def last : Step SyncTask TaskLabel where
  source := after 5
  label := label .timer
    [.StateChanged .Error .Pulling,
      .Failed s!"{error.toText}; transition error: {noTransition.toText}" .Pulling]
  target := givenUp

section

variable [Codec] [Serde]

theorem loopStep_first : loopStep first.source first.label first.target := by
  refine ⟨by decide, ?_⟩
  refine (returns_startCycle (new (SyncStateMachine.new 5)) .TriggerSync _ _).mpr
    (Or.inr ⟨rfl, rfl, ?_⟩)
  refine (returns_transitionAndRun _ _ _ _).mpr (Or.inr ⟨_, _, _, rfl, ?_, rfl⟩)
  exact (returns_runCycle _ _ _).mpr (Or.inl ⟨error, rfl, rfl⟩)

omit [Codec] [Serde] in
theorem transition_after {failures : Nat} (h : failures ≤ 5) :
    (after failures).stateMachine.transition .BackoffExpired =
      .ok { (after failures).stateMachine with state := .Pulling } := by
  simp [after, SyncStateMachine.transition, SyncStateMachine.computeNextState,
    SyncStateMachine.nextState, SyncStateMachine.applySideEffects, h]

/-- The task while a retry runs. -/
def retrying (failures : Nat) : SyncTask :=
  { after failures with
    nextRetry := false
    stateMachine := { (after failures).stateMachine with state := .Pulling } }

omit [Codec] [Serde] in
/-- Up to the limit of the policy, an error schedules the next retry. -/
theorem handleError_retrying {failures : Nat} (h : failures < 5) :
    (retrying failures).handleError error =
      (after (failures + 1), [.StateChanged .Pulling .Error, .Failed error.toText .Error]) := by
  have hshould : (retrying failures).backoffTimer.shouldRetry error = true := decide_eq_true h
  have htrigger : (retrying failures).errorTrigger error = .OtherError := by
    unfold errorTrigger
    rw [hshould]
    rfl
  simp only [handleError, htrigger]
  simp [SyncStateMachine.transition, SyncStateMachine.computeNextState,
    SyncStateMachine.nextState, SyncStateMachine.applySideEffects, scheduleRetry,
    BackoffTimer.nextDelay, retrying, after, state, BackoffTimer.shouldRetry,
    RetryPolicy.shouldRetry, error, mapOpendalError, RetryPolicy.default, h]

theorem loopStep_retry {failures : Nat} (h : failures < 5) :
    loopStep (retry failures).source (retry failures).label (retry failures).target := by
  refine ⟨?_, rfl, ?_⟩
  · intro hshut
    cases hshut
  refine (returns_transitionAndRun { after failures with nextRetry := false } _ _ _).mpr
    (Or.inr ⟨_, _, _, transition_after (Nat.le_of_lt h), ?_, rfl⟩)
  refine (returns_runCycle _ _ _).mpr (Or.inl ⟨error, rfl, ?_⟩)
  exact (handleError_retrying h).symm

theorem loopStep_last : loopStep last.source last.label last.target := by
  refine ⟨?_, rfl, ?_⟩
  · intro hshut
    cases hshut
  refine (returns_transitionAndRun { after 5 with nextRetry := false } _ _ _).mpr
    (Or.inr ⟨_, _, _, transition_after (Nat.le_refl 5), ?_, rfl⟩)
  exact (returns_runCycle _ _ _).mpr (Or.inl ⟨error, rfl, rfl⟩)

def turns : List (Step SyncTask TaskLabel) :=
  [first, retry 1, retry 2, retry 3, retry 4, last]

theorem run_turns : Run loopStep (new (SyncStateMachine.new 5)) turns givenUp :=
  Run.cons loopStep_first (Run.cons (loopStep_retry (by decide))
    (Run.cons (loopStep_retry (by decide)) (Run.cons (loopStep_retry (by decide))
      (Run.cons (loopStep_retry (by decide)) (Run.cons loopStep_last (Run.nil _))))))

omit [Codec] [Serde] in
theorem turns_reported : ∀ e ∈ turns, Reported e := by
  have hlimited : CloudStorage.Reported (StorageOp.listRecords.answered (.error error)) := by
    intro e he
    cases he
    exact .operator _ _ _
  have htrace : ∀ e ∈ turns, e.label.trace = [StorageOp.listRecords.answered (.error error)] := by
    simp [turns, first, retry, last, label]
  intro e he ev hev
  rw [htrace e he, List.mem_singleton] at hev
  rw [hev]
  exact hlimited

end

section

attribute [local instance] Sample.codec Sample.serde

/-- The rule at a run that fails six times, with five retries in between. -/
theorem retries_within_budget_rateLimited : RetriesWithinBudget turns givenUp :=
  retries_within_budget run_turns turns_reported turns [] givenUp (List.append_nil turns).symm
    run_turns

end

end RateLimited

end SyncTask

end OakKeyring
