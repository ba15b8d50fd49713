import OakKeyring.Sync.Task

/-!
# The sync service

Each method sends one command and then takes events from the one event queue, dropping those
its predicate does not accept. Timeouts and cancellation end the wait and leave the queue as
it is.
-/

namespace OakKeyring

/-- What a completed sync call returns. -/
structure SyncResult where
  report : SyncReport
  downloadedHealthStates : List RecordHealthState
  downloadedHealthDeleted : List Uuid
  downloadedRecords : List CloudRecord
  uploadedIds : List String
  conflictData : AList fun _ : String => Bytes
  remoteMetadata : Option CloudMetadata

/-- The calls of the service that go through the task. -/
inductive SyncRequest
  | sync (vaultData : Option SyncVaultData)
  | resolveConflict (recordId : String) (strategy : ResolutionStrategy)
  | resolveAllConflicts (strategy : ResolutionStrategy)
  | downloadMetadata
  | pushMetadataAtomic (metadata : CloudMetadata) (expectedVersion : Nat)
  | pause
  | resume
  | shutdown

namespace SyncRequest

/-- The command a call sends. -/
def command : SyncRequest → SyncCommand
  | sync vaultData => .TriggerSync vaultData
  | resolveConflict recordId strategy => .ResolveConflict recordId strategy
  | resolveAllConflicts strategy => .ResolveAllConflicts strategy
  | downloadMetadata => .DownloadMetadata
  | pushMetadataAtomic metadata expectedVersion => .PushMetadataAtomic metadata expectedVersion
  | pause => .Pause
  | resume => .Resume
  | shutdown => .Shutdown

/-- The events a call takes as its reply. -/
def accepts : SyncRequest → SyncEvent → Bool
  | sync _, .Completed .. => true
  | sync _, .Failed .. => true
  | resolveConflict _ _, .ConflictResolved _ => true
  | resolveAllConflicts _, .AllConflictsResolved _ => true
  | downloadMetadata, .MetadataDownloaded _ => true
  | downloadMetadata, .Failed .. => true
  | pushMetadataAtomic _ _, .MetadataPushed => true
  | pushMetadataAtomic _ _, .Failed .. => true
  | pause, .Paused => true
  | resume, .Resumed => true
  | shutdown, .ShutdownComplete => true
  | _, _ => false

end SyncRequest

/-- The result a sync call makes of the event it accepted. -/
def syncReply : SyncEvent → Option (Except SyncError SyncResult)
  | .Completed report healthStates healthDeleted records uploadedIds conflictData metadata =>
      some (.ok {
        report := report
        downloadedHealthStates := healthStates
        downloadedHealthDeleted := healthDeleted
        downloadedRecords := records
        uploadedIds := uploadedIds
        conflictData := conflictData
        remoteMetadata := metadata })
  | .Failed error _ => some (.error (.ProviderError "sync" error))
  | _ => none

/-- The result of a single resolution; an event about another record is an error. -/
def resolveConflictReply (recordId : String) : SyncEvent → Option (Except SyncError Unit)
  | .ConflictResolved actualId =>
      if actualId = recordId then some (.ok ())
      else some (.error (.ProviderError "sync"
        s!"record_id mismatch: expected {recordId}, got {actualId}"))
  | _ => none

def resolveAllReply : SyncEvent → Option Nat
  | .AllConflictsResolved count => some count
  | _ => none

end OakKeyring
