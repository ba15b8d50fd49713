import OakKeyring.Sync.Pipeline
import OakKeyring.Sync.StateMachine

/-!
# The sync task

One handler for each command and one for the retry timer. A handler is a program over cloud
storage that returns the next task and the events it emitted, in order.
-/

namespace OakKeyring

open Effect

/-- The vault snapshot a caller hands over with `TriggerSync`. -/
structure SyncVaultData where
  localRecords : List LocalRecordInfo
  uploads : List CloudRecord
  localMetadataVersion : Nat
  lastRemoteMetadata : Option CloudMetadata
  localVaultToken : String

inductive SyncCommand
  | TriggerSync (data : Option SyncVaultData)
  | PullOnly
  | ResolveConflict (recordId : String) (strategy : ResolutionStrategy)
  | ResolveAllConflicts (strategy : ResolutionStrategy)
  | Pause
  | Resume
  | PushMetadataAtomic (metadata : CloudMetadata) (expectedVersion : Nat)
  | DownloadMetadata
  | Shutdown

structure SyncReport where
  uploaded : Nat
  downloaded : Nat
  conflicts : Nat
  failed : Nat
deriving DecidableEq, Repr

inductive SyncEvent
  | Completed (report : SyncReport) (healthStates : List RecordHealthState)
      (healthDeleted : List Uuid) (downloadedRecords : List CloudRecord)
      (uploadedIds : List String) (conflictData : AList fun _ : String => Bytes)
      (finalMetadata : Option CloudMetadata)
  | Failed (error : String) (state : SyncState)
  | ConflictResolved (recordId : String)
  | AllConflictsResolved (count : Nat)
  | StateChanged (source target : SyncState)
  | MetadataPushed
  | MetadataDownloaded (metadata : Option CloudMetadata)
  | ShutdownComplete
  | Paused
  | Resumed
deriving DecidableEq

structure PipelineExecutionOutcome where
  result : PipelineResult
  downloadedHealthStates : List RecordHealthState
  downloadedHealthDeleted : List Uuid
  downloadedRecords : List CloudRecord
  uploadedIds : List String
  failedCount : Nat
  conflictData : AList fun _ : String => Bytes
  finalMetadata : Option CloudMetadata

/-- The task between two commands. `nextRetry` says whether a retry is scheduled; when it is
due is left to the environment. -/
structure SyncTask where
  stateMachine : SyncStateMachine
  backoffTimer : BackoffTimer
  paused : Bool
  nextRetry : Bool
  vaultData : Option SyncVaultData
  pendingConflicts : List ConflictItem

namespace SyncTask

def new (stateMachine : SyncStateMachine) : SyncTask where
  stateMachine := stateMachine
  backoffTimer := BackoffTimer.new RetryPolicy.default
  paused := false
  nextRetry := false
  vaultData := none
  pendingConflicts := []

def state (t : SyncTask) : SyncState :=
  t.stateMachine.state

/-! ## The pipeline run of a task -/

/-- The context built from the vault data, or placeholders when there is none. -/
def pipelineContext (t : SyncTask) : PipelineContext :=
  match t.vaultData with
  | some data =>
      { PipelineContext.new data.localMetadataVersion data.localVaultToken with
        lastRemoteMetadata := data.lastRemoteMetadata
        localRecords := data.localRecords
        uploads := data.uploads }
  | none => PipelineContext.new 0 ""

/-- The item to resolve later, when the conflict's data was obtained. -/
def conflictItem (ctx : PipelineContext) (id : String) : Option ConflictItem := do
  let conflictData ← ctx.conflictDataMap.lookup id
  let localRecord ← ctx.localRecords.find? fun r => r.recordId == id
  let recordUuid ← Uuid.parseStr id
  return {
    recordId := recordUuid
    conflictData := conflictData
    currentVersion := localRecord.version }

/-- What the executor is told about a finished pipeline. The metadata is passed on only when
nothing was counted as failed. -/
def executionOutcome (ctx : PipelineContext) (result : PipelineResult) :
    PipelineExecutionOutcome where
  result := result
  downloadedHealthStates := ctx.downloadedHealthStates
  downloadedHealthDeleted := ctx.downloadedHealthDeleted
  downloadedRecords := ctx.downloads.entries.map Sigma.snd
  uploadedIds := ctx.uploadedIds
  failedCount := ctx.failedIds.length
  conflictData := ctx.conflictDataMap
  finalMetadata := if ctx.failedIds.length = 0 then ctx.finalMetadata else none

/-- The pending conflicts are replaced only by a run that found some. -/
def storeConflicts (t : SyncTask) (ctx : PipelineContext) : SyncTask :=
  if ctx.conflicts = [] then t
  else { t with pendingConflicts := ctx.conflicts.filterMap (conflictItem ctx) }

variable [Codec] [Serde]

def executePipeline (t : SyncTask) : Cloud (SyncTask × PipelineExecutionOutcome) := do
  let (ctx, result) ← SyncPipeline.execute t.pipelineContext
  return (t.storeConflicts ctx, executionOutcome ctx result)

/-! ## Results and errors -/

/-- The errors whose retries are bounded; every other error is a plain `OtherError`. -/
def errorTrigger (t : SyncTask) (error : SyncError) : SyncTrigger :=
  let bounded := if t.backoffTimer.shouldRetry error then .OtherError else .MaxRetriesExceeded
  match error with
  | .NetworkTimeout _ => bounded
  | .NetworkUnreachable _ => bounded
  | .ConnectionRefused _ => bounded
  | .LockAcquireFailed _ => bounded
  | .ProviderError _ _ => bounded
  | _ => .OtherError

/-- Schedules the retry of an error that is still to be retried. -/
def scheduleRetry (t : SyncTask) (error : SyncError) : SyncTask :=
  if t.backoffTimer.shouldRetry error then
    { t with
      backoffTimer := t.backoffTimer.nextDelay
      nextRetry := true }
  else t

def handleError (t : SyncTask) (error : SyncError) : SyncTask × List SyncEvent :=
  match t.stateMachine.transition (t.errorTrigger error) with
  | .ok m =>
      let moved := { t with stateMachine := m }
      let changed := SyncEvent.StateChanged t.state m.state
      if m.state = .Error ∨ m.state = .Offline then
        (moved.scheduleRetry error, [changed, .Failed error.toText m.state])
      else (moved, [changed])
  | .error e => (t, [.Failed s!"{error.toText}; transition error: {e.toText}" t.state])

/-- Back to `Idle`, with the report of the run. -/
def complete (t : SyncTask) (outcome : PipelineExecutionOutcome)
    (uploaded downloaded conflicts : Nat) : SyncTask × List SyncEvent :=
  ({ t with
      backoffTimer := t.backoffTimer.reset
      stateMachine := t.stateMachine.reset },
    [.StateChanged t.state t.stateMachine.reset.state,
      .Completed
        { uploaded := uploaded
          downloaded := downloaded
          conflicts := conflicts
          failed := outcome.failedCount }
        outcome.downloadedHealthStates outcome.downloadedHealthDeleted
        outcome.downloadedRecords outcome.uploadedIds outcome.conflictData
        outcome.finalMetadata])

def handlePipelineResult (t : SyncTask) (outcome : PipelineExecutionOutcome) :
    SyncTask × List SyncEvent :=
  let uploadedCount := outcome.uploadedIds.length
  let downloadedCount := outcome.downloadedRecords.length
  match outcome.result with
  | .Completed => t.complete outcome uploadedCount downloadedCount 0
  | .NoChanges => t.complete outcome 0 0 0
  | .ConflictsDetected conflictIds =>
      t.complete outcome uploadedCount downloadedCount conflictIds.length
  | .Error e => t.handleError e

/-! ## Commands that run the pipeline -/

/-- The connectivity check and the pipeline run that follow a transition to `Pulling`. -/
def runCycle (t : SyncTask) : Cloud (SyncTask × List SyncEvent) := do
  match ← CloudStorage.checkConnectivity with
  | .error e => return t.handleError e
  | .ok () =>
      let (t, outcome) ← t.executePipeline
      return t.handlePipelineResult outcome

/-- Takes the trigger's transition and runs a cycle, or reports the missing transition. -/
def transitionAndRun (t : SyncTask) (trigger : SyncTrigger) :
    Cloud (SyncTask × List SyncEvent) := do
  match t.stateMachine.transition trigger with
  | .error e => return (t, [.Failed e.toText t.state])
  | .ok m =>
      let (t', events) ← runCycle { t with stateMachine := m }
      return (t', .StateChanged t.state m.state :: events)

/-- A trigger is dropped without a word while the task is paused or busy. -/
def startCycle (t : SyncTask) (trigger : SyncTrigger) : Cloud (SyncTask × List SyncEvent) :=
  if t.paused = true then return (t, [])
  else if t.stateMachine.canAcceptCommands = false then return (t, [])
  else t.transitionAndRun trigger

def handleTriggerSync (t : SyncTask) : Cloud (SyncTask × List SyncEvent) :=
  t.startCycle .TriggerSync

def handlePullOnly (t : SyncTask) : Cloud (SyncTask × List SyncEvent) :=
  t.startCycle .PullOnly

/-- The retry does not look at `paused`; from both states that have the transition it goes
to `Pulling`. -/
def handleRetryAfterBackoff (t : SyncTask) : Cloud (SyncTask × List SyncEvent) :=
  t.transitionAndRun .BackoffExpired

/-! ## Conflict resolution -/

/-- The upload in the current vault data for a record id. -/
def uploadFor (t : SyncTask) (recordId : String) : Option CloudRecord :=
  t.vaultData.bind fun data => data.uploads.find? fun r => r.id == recordId

/-- Uploads the local record with the version after the one the conflict item holds; with no
upload at hand there is nothing to do and nothing to report. -/
def uploadResolved (t : SyncTask) (recordId : String) (currentVersion : Nat) :
    Cloud (Except SyncError Unit) :=
  match t.uploadFor recordId with
  | some cloudRecord =>
      CloudStorage.uploadRecord recordId { cloudRecord with version := currentVersion + 1 }
  | none => return .ok ()

def resolveItem (t : SyncTask) (recordId : String) (item : ConflictItem) :
    ResolutionStrategy → Cloud (Except String Unit)
  | .KeepLocal => do
      match ← t.uploadResolved recordId item.currentVersion with
      | .ok () => return .ok ()
      | .error e =>
          return .error s!"upload failed for resolved record {recordId}: {e.toText}"
  | .KeepRemote =>
      return match resolveKeepRemote item.conflictData with
        | .ok _ => .ok ()
        | .error e => .error e.toText

def handleResolveConflict (t : SyncTask) (recordId : String) (strategy : ResolutionStrategy) :
    Cloud (SyncTask × List SyncEvent) :=
  match Uuid.parseStr recordId with
  | none => return (t, [.Failed s!"invalid record_id: {recordId}" t.state])
  | some recordUuid =>
      match t.pendingConflicts.find? fun c => c.recordId == recordUuid with
      | none => return (t, [.Failed s!"no pending conflict for record {recordId}" t.state])
      | some item => do
          match ← t.resolveItem recordId item strategy with
          | .ok () =>
              return ({ t with
                  pendingConflicts :=
                    t.pendingConflicts.filter fun c => c.recordId != recordUuid },
                [.ConflictResolved recordId])
          | .error e => return (t, [.Failed e t.state])

/-- One item of a batch: kept in the pending list unless it is resolved and uploaded. -/
def resolveBatchItem (strategy : ResolutionStrategy) (acc : SyncTask × Nat)
    (x : ResolveOutcome × ConflictItem) : Cloud (SyncTask × Nat) := do
  let keepPending := { acc.1 with pendingConflicts := acc.1.pendingConflicts ++ [x.2] }
  match x.1.result with
  | .error _ => return (keepPending, acc.2)
  | .ok _ =>
      match strategy with
      | .KeepLocal =>
          match ← acc.1.uploadResolved x.2.recordId.toText x.2.currentVersion with
          | .ok () => return (acc.1, acc.2 + 1)
          | .error _ => return (keepPending, acc.2)
      | .KeepRemote => return (acc.1, acc.2 + 1)

def handleResolveAll (t : SyncTask) (strategy : ResolutionStrategy) :
    Cloud (SyncTask × List SyncEvent) := do
  let items := t.pendingConflicts
  if items = [] then return (t, [.AllConflictsResolved 0])
  else
    let outcomes := resolveAllBatch items strategy
    let (t', succeeded) ← (outcomes.zip items).foldlM (resolveBatchItem strategy)
      ({ t with pendingConflicts := [] }, 0)
    return (t', [.AllConflictsResolved succeeded])

/-! ## The other commands -/

def handlePause (t : SyncTask) : SyncTask × List SyncEvent :=
  ({ t with paused := true }, [.Paused])

def handleResume (t : SyncTask) : SyncTask × List SyncEvent :=
  ({ t with paused := false }, [.Resumed])

def handleDownloadMetadata (t : SyncTask) : Cloud (SyncTask × List SyncEvent) := do
  match ← CloudStorage.downloadMetadata with
  | .ok m => return (t, [.MetadataDownloaded m])
  | .error e => return (t, [.Failed e.toText t.state])

def handlePushMetadataAtomic (t : SyncTask) (metadata : CloudMetadata)
    (expectedVersion : Nat) : Cloud (SyncTask × List SyncEvent) := do
  match ← CloudStorage.pushMetadataAtomic metadata expectedVersion with
  | .ok () => return (t, [.MetadataPushed])
  | .error e => return (t, [.Failed e.toText t.state])

def handleShutdown (t : SyncTask) : SyncTask × List SyncEvent :=
  let t' :=
    match t.stateMachine.transition .Shutdown with
    | .ok m => { t with stateMachine := m }
    | .error _ => t
  (t', [.StateChanged t.state t'.state, .ShutdownComplete])

/-! ## The loop body -/

def handleCommand (t : SyncTask) : SyncCommand → Cloud (SyncTask × List SyncEvent)
  | .TriggerSync data => handleTriggerSync { t with vaultData := data }
  | .PullOnly => t.handlePullOnly
  | .ResolveConflict recordId strategy => t.handleResolveConflict recordId strategy
  | .ResolveAllConflicts strategy => t.handleResolveAll strategy
  | .Pause => return t.handlePause
  | .Resume => return t.handleResume
  | .PushMetadataAtomic metadata expectedVersion =>
      t.handlePushMetadataAtomic metadata expectedVersion
  | .DownloadMetadata => t.handleDownloadMetadata
  | .Shutdown => return t.handleShutdown

/-- The retry branch of the loop, taken when the scheduled instant has passed. -/
def handleTimer (t : SyncTask) : Cloud (SyncTask × List SyncEvent) :=
  handleRetryAfterBackoff { t with nextRetry := false }

end SyncTask

end OakKeyring
