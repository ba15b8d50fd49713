import OakKeyring.Errors

/-! # The sync state machine and the retry policy -/

namespace OakKeyring

inductive SyncTrigger
  | TriggerSync
  | PullOnly
  | PullCompleted
  | DetectCompleted (hasConflicts hasChanges : Bool)
  | PushCompleted (hasConflicts : Bool)
  | AllConflictsResolved
  | ConflictResolutionFailed
  | NetworkError
  | OtherError
  | BackoffExpired
  | MaxRetriesExceeded
  | Shutdown
  | ReportCompleted
deriving DecidableEq, Repr

inductive SyncState
  | Idle
  | Pulling
  | Detecting
  | Pushing
  | Resolving
  | Synced
  | Error
  | Offline
  | ShuttingDown
deriving DecidableEq, Repr

def SyncState.toText : SyncState → String
  | Idle => "Idle"
  | Pulling => "Pulling"
  | Detecting => "Detecting"
  | Pushing => "Pushing"
  | Resolving => "Resolving"
  | Synced => "Synced"
  | Error => "Error"
  | Offline => "Offline"
  | ShuttingDown => "ShuttingDown"

structure SyncStateMachine where
  state : SyncState
  attempt : Nat
  maxRetries : Nat
  lastError : Option String
deriving DecidableEq, Repr

namespace SyncStateMachine

def new (maxRetries : Nat) : SyncStateMachine where
  state := .Idle
  attempt := 0
  maxRetries := maxRetries
  lastError := none

def reset (m : SyncStateMachine) : SyncStateMachine :=
  { m with
    state := .Idle
    attempt := 0
    lastError := none }

def canAcceptCommands (m : SyncStateMachine) : Bool :=
  m.state == .Idle || m.state == .Error || m.state == .Offline

/-- The transition table; `none` is an invalid transition. -/
def nextState (m : SyncStateMachine) (trigger : SyncTrigger) : Option SyncState :=
  match m.state, trigger with
  | _, .Shutdown => some .ShuttingDown
  | .Idle, .TriggerSync => some .Pulling
  | .Idle, .PullOnly => some .Pulling
  | .Pulling, .PullCompleted => some .Detecting
  | .Pulling, .NetworkError => some .Offline
  | .Pulling, .OtherError => some .Error
  | .Detecting, .DetectCompleted false false => some .Synced
  | .Detecting, .DetectCompleted _ true => some .Pushing
  | .Detecting, .DetectCompleted true _ => some .Pushing
  | .Pushing, .PushCompleted false => some .Synced
  | .Pushing, .PushCompleted true => some .Resolving
  | .Pushing, .NetworkError => some .Offline
  | .Pushing, .OtherError => some .Error
  | .Resolving, .AllConflictsResolved => some .Synced
  | .Resolving, .ConflictResolutionFailed => some .Resolving
  | .Resolving, .NetworkError => some .Offline
  | .Synced, .ReportCompleted => some .Idle
  | .Error, .BackoffExpired => if m.attempt ≤ m.maxRetries then some .Pulling else none
  | .Error, .MaxRetriesExceeded => some .Idle
  | .Offline, .BackoffExpired => some .Pulling
  | _, _ => none

def computeNextState (m : SyncStateMachine) (trigger : SyncTrigger) :
    Except SyncError SyncState :=
  match m.nextState trigger with
  | some target => .ok target
  | none => .error (.InvalidStateTransition m.state.toText "unknown")

def applySideEffects (m : SyncStateMachine) (trigger : SyncTrigger) (target : SyncState) :
    SyncStateMachine :=
  match m.state, trigger, target with
  | .Idle, _, .Pulling => { m with attempt := 0 }
  | .Pulling, .OtherError, .Error =>
      { m with
        attempt := m.attempt + 1
        lastError := some "Sync failed due to error" }
  | .Pushing, .OtherError, .Error =>
      { m with
        attempt := m.attempt + 1
        lastError := some "Sync failed due to error" }
  | .Error, .MaxRetriesExceeded, .Idle => { m with lastError := none }
  | _, _, _ => m

/-- Takes the transition, or reports that there is none and leaves the machine as it is. -/
def transition (m : SyncStateMachine) (trigger : SyncTrigger) :
    Except SyncError SyncStateMachine :=
  match m.computeNextState trigger with
  | .ok target => .ok { m.applySideEffects trigger target with state := target }
  | .error e => .error e

@[simp] theorem state_new (maxRetries : Nat) : (new maxRetries).state = .Idle := rfl

@[simp] theorem state_reset (m : SyncStateMachine) : m.reset.state = .Idle := rfl

@[simp] theorem canAcceptCommands_iff (m : SyncStateMachine) :
    m.canAcceptCommands = true ↔
      m.state = .Idle ∨ m.state = .Error ∨ m.state = .Offline := by
  simp [canAcceptCommands, or_assoc]

/-- A transition succeeds exactly when the table has it. -/
theorem transition_ok_iff (m m' : SyncStateMachine) (trigger : SyncTrigger) :
    m.transition trigger = .ok m' ↔
      ∃ target, m.nextState trigger = some target ∧
        m' = { m.applySideEffects trigger target with state := target } := by
  unfold transition computeNextState
  cases h : m.nextState trigger with
  | none => simp
  | some target => simp [eq_comm]

theorem transition_error_iff (m : SyncStateMachine) (trigger : SyncTrigger) (e : SyncError) :
    m.transition trigger = .error e ↔
      m.nextState trigger = none ∧ e = .InvalidStateTransition m.state.toText "unknown" := by
  unfold transition computeNextState
  cases h : m.nextState trigger with
  | none => simp [eq_comm]
  | some target => simp

theorem nextState_triggerSync (m : SyncStateMachine) :
    m.nextState .TriggerSync = if m.state = .Idle then some .Pulling else none := by
  unfold nextState
  cases m.state <;> rfl

/-- The retry counter is reset, raised or kept; nothing else about a machine but its state
and last message changes. -/
theorem maxRetries_transition {m m' : SyncStateMachine} {trigger : SyncTrigger}
    (h : m.transition trigger = .ok m') : m'.maxRetries = m.maxRetries := by
  rcases (transition_ok_iff m m' trigger).mp h with ⟨target, -, rfl⟩
  unfold applySideEffects
  split <;> rfl

end SyncStateMachine

/-! ## Retry -/

structure RetryPolicy where
  maxRetries : Nat
deriving DecidableEq, Repr

def RetryPolicy.default : RetryPolicy where
  maxRetries := 5

/-- `NetworkUnreachable` is retried for ever, four other errors up to the limit. -/
def RetryPolicy.shouldRetry (p : RetryPolicy) (error : SyncError) (attempt : Nat) : Bool :=
  match error with
  | .NetworkUnreachable _ => true
  | .NetworkTimeout _ => decide (attempt < p.maxRetries)
  | .ConnectionRefused _ => decide (attempt < p.maxRetries)
  | .LockAcquireFailed _ => decide (attempt < p.maxRetries)
  | .ProviderError _ _ => decide (attempt < p.maxRetries)
  | _ => false

structure BackoffTimer where
  policy : RetryPolicy
  attempt : Nat
deriving DecidableEq, Repr

namespace BackoffTimer

def new (policy : RetryPolicy) : BackoffTimer where
  policy := policy
  attempt := 0

/-- The delay itself is left out; taking it counts an attempt. -/
def nextDelay (b : BackoffTimer) : BackoffTimer :=
  { b with attempt := b.attempt + 1 }

def shouldRetry (b : BackoffTimer) (error : SyncError) : Bool :=
  b.policy.shouldRetry error b.attempt

def reset (b : BackoffTimer) : BackoffTimer :=
  { b with attempt := 0 }

end BackoffTimer

end OakKeyring
