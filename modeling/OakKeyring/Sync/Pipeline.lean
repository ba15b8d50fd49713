import OakKeyring.Sync.Conflict
import OakKeyring.Cloud.Storage

/-!
# The sync pipeline

Four stages over one context: pull the metadata, classify the local records, push and
download, and report conflicts.
-/

namespace OakKeyring

open Effect

structure LocalRecordInfo where
  recordId : String
  syncStatus : SyncStatus
  version : Nat
deriving DecidableEq, Repr

inductive StageOutcome
  | Continue
  | ConflictDetected (conflictIds : List String)
  | Error (error : SyncError)
  | NoChanges
deriving DecidableEq

/-- What the stages share. -/
structure PipelineContext where
  remoteMetadata : Option CloudMetadata
  lastRemoteMetadata : Option CloudMetadata
  localMetadataVersion : Nat
  localVaultToken : String
  toUpload : List String
  toDownload : List String
  conflicts : List String
  failedIds : List String
  uploads : List CloudRecord
  downloads : AList fun _ : String => CloudRecord
  uploadedIds : List String
  finalMetadata : Option CloudMetadata
  conflictDataMap : AList fun _ : String => Bytes
  localRecords : List LocalRecordInfo
  downloadedHealthStates : List RecordHealthState
  downloadedHealthDeleted : List Uuid

namespace PipelineContext

def new (localMetadataVersion : Nat) (localVaultToken : String) : PipelineContext where
  remoteMetadata := none
  lastRemoteMetadata := none
  localMetadataVersion := localMetadataVersion
  localVaultToken := localVaultToken
  toUpload := []
  toDownload := []
  conflicts := []
  failedIds := []
  uploads := []
  downloads := ∅
  uploadedIds := []
  finalMetadata := none
  conflictDataMap := ∅
  localRecords := []
  downloadedHealthStates := []
  downloadedHealthDeleted := []

/-- The metadata entry of a record, once the metadata is pulled. -/
def remoteInfo (ctx : PipelineContext) (recordId : String) : Option RecordVersionInfo :=
  ctx.remoteMetadata.bind fun m => m.records.lookup recordId

def fail (ctx : PipelineContext) (recordId : String) : PipelineContext :=
  { ctx with failedIds := ctx.failedIds ++ [recordId] }

/-- The private checksum differs from the last snapshot, or there is none to compare with
and the metadata as a whole is newer. -/
def privateMetadataChangedSinceLastSnapshot (ctx : PipelineContext) (recordId : String)
    (remote : RecordVersionInfo) : Bool :=
  match remote.privateMetadataChecksum with
  | none => false
  | some remoteChecksum =>
      match ((ctx.lastRemoteMetadata.bind fun m => m.records.lookup recordId).bind
          fun info => info.privateMetadataChecksum) with
      | some previous => previous != remoteChecksum
      | none =>
          match ctx.remoteMetadata with
          | some m => decide (ctx.localMetadataVersion < m.metadataVersion)
          | none => false

def hasPendingUploads (ctx : PipelineContext) : Bool :=
  ctx.localRecords.any fun record => record.syncStatus == .Pending

def hasLocalRecord (ctx : PipelineContext) (recordId : String) : Bool :=
  ctx.localRecords.any fun record => record.recordId == recordId

/-- Ids of remote records that are not deleted and not known locally. -/
def missingRemoteIds (ctx : PipelineContext) (m : CloudMetadata) : List String :=
  (m.records.entries.filter fun e => !e.2.deleted && !ctx.hasLocalRecord e.1).map Sigma.fst

end PipelineContext

/-! ## Stage 1: pull -/

namespace PullMetadataStage

/-- What the pulled metadata means for this device. -/
def receiveMetadata (ctx : PipelineContext) (m : CloudMetadata) :
    PipelineContext × StageOutcome :=
  if m.metadataVersion = ctx.localMetadataVersion ∧ ctx.hasPendingUploads = false ∧
      ctx.missingRemoteIds m = [] then
    (ctx, .NoChanges)
  else if m.vaultIdentityToken ≠ ctx.localVaultToken then
    (ctx, .Error (.VaultIdentityMismatch ctx.localVaultToken m.vaultIdentityToken))
  else
    ({ ctx with
        finalMetadata := some m
        remoteMetadata := some m }, .Continue)

def receive (ctx : PipelineContext) :
    Except SyncError (Option CloudMetadata) → PipelineContext × StageOutcome
  | .ok (some m) => receiveMetadata ctx m
  | .ok none => ({ ctx with remoteMetadata := none }, .Continue)
  | .error e => (ctx, .Error e)

variable [Codec]

def execute (ctx : PipelineContext) : Cloud (PipelineContext × StageOutcome) := do
  let read ← CloudStorage.downloadMetadata
  return receive ctx read

end PullMetadataStage

/-! ## Stage 2: detect -/

namespace DetectStage

/-- The action for one local record, given its metadata entry. -/
def classify (ctx : PipelineContext) (record : LocalRecordInfo) : ConflictAction :=
  match ctx.remoteInfo record.recordId with
  | some remote =>
      if record.syncStatus = .Synced ∧ remote.version = record.version ∧
          ctx.privateMetadataChangedSinceLastSnapshot record.recordId remote = true then
        .DownloadOnly
      else detectConflicts record.syncStatus record.version remote.version
  | none => if record.syncStatus = .Pending then .UploadOnly else .NoAction

/-- Appends the record's id to the list its action selects. -/
def assign (ctx : PipelineContext) (record : LocalRecordInfo) : PipelineContext :=
  match classify ctx record with
  | .UploadOnly => { ctx with toUpload := ctx.toUpload ++ [record.recordId] }
  | .DownloadOnly => { ctx with toDownload := ctx.toDownload ++ [record.recordId] }
  | .Conflict _ _ => { ctx with conflicts := ctx.conflicts ++ [record.recordId] }
  | .NoAction => ctx

def execute (ctx : PipelineContext) : PipelineContext × StageOutcome :=
  match ctx.remoteMetadata with
  | none =>
      let pending := ctx.localRecords.filter fun record => record.syncStatus == .Pending
      ({ ctx with toUpload := ctx.toUpload ++ pending.map LocalRecordInfo.recordId }, .Continue)
  | some m =>
      let assigned := ctx.localRecords.foldl assign ctx
      let ctx' := { assigned with
        toDownload := assigned.toDownload ++ ctx.missingRemoteIds m }
      if ctx'.toUpload = [] ∧ ctx'.toDownload = [] ∧ ctx'.conflicts = [] then
        (ctx', .NoChanges)
      else (ctx', .Continue)

end DetectStage

/-! ## Stage 3: push -/

namespace PushStage

variable [Codec] [Serde]

/-- The answer to one upload; a failure is noted and the loop goes on. -/
def receiveUpload (ctx : PipelineContext) (record : CloudRecord) :
    Except SyncError Unit → PipelineContext
  | .ok () => { ctx with uploadedIds := ctx.uploadedIds ++ [record.id] }
  | .error _ => ctx.fail record.id

def uploadOne (ctx : PipelineContext) (record : CloudRecord) : Cloud PipelineContext := do
  let answer ← CloudStorage.uploadRecord record.id record
  return receiveUpload ctx record answer

def uploadRecords (ctx : PipelineContext) : Cloud PipelineContext :=
  (ctx.uploads.filter fun record => ctx.toUpload.contains record.id).foldlM uploadOne ctx

/-- The checksums of a downloaded record against its metadata entry. -/
def matchesInfo (info : RecordVersionInfo) (record : CloudRecord) : Bool :=
  match computeChecksum record.encryptedData with
  | .error _ => false
  | .ok computed =>
      if computed = info.checksum then
        match info.privateMetadataChecksum with
        | none => true
        | some expected =>
            match record.computePrivateMetadataChecksum with
            | .ok (some computedPrivate) => computedPrivate == expected
            | .ok none => false
            | .error _ => false
      else false

/-- Keeps a downloaded record, with its health state or the deletion of a stale one. -/
def acceptDownload (ctx : PipelineContext) (recordId : String) (record : CloudRecord) :
    PipelineContext :=
  let ctx :=
    match record.toHealthState with
    | some healthState =>
        { ctx with downloadedHealthStates := ctx.downloadedHealthStates ++ [healthState] }
    | none =>
        if record.hasEncryptedPrivateMetadata then ctx
        else
          match Uuid.parseStr recordId with
          | some id => { ctx with downloadedHealthDeleted := ctx.downloadedHealthDeleted ++ [id] }
          | none => ctx
  { ctx with downloads := ctx.downloads.insert recordId record }

/-- The result of one download; a missing file is neither kept nor counted as failed. -/
def receiveDownload (ctx : PipelineContext)
    (result : String × Except SyncError (Option CloudRecord)) : PipelineContext :=
  match result.2 with
  | .ok (some record) =>
      match record.validate with
      | .error _ => ctx.fail result.1
      | .ok () =>
          match ctx.remoteInfo result.1 with
          | none => acceptDownload ctx result.1 record
          | some info =>
              if matchesInfo info record then acceptDownload ctx result.1 record
              else ctx.fail result.1
  | .ok none => ctx
  | .error _ => ctx.fail result.1

def downloadRecords (ctx : PipelineContext) : Cloud PipelineContext := do
  let results ← CloudStorage.batchDownloadRecords ctx.toDownload
  return results.foldl receiveDownload ctx

/-- The remote side of one conflict; as for downloads, a missing file is not counted. -/
def receiveConflict (ctx : PipelineContext) (conflictId : String)
    (result : Except SyncError (Option CloudRecord)) : PipelineContext :=
  match ctx.remoteInfo conflictId with
  | none => ctx
  | some info =>
      match result with
      | .ok (some cloudRecord) =>
          match storeConflict cloudRecord info.checksum with
          | .ok conflictData =>
              { ctx with
                conflictDataMap := ctx.conflictDataMap.insert conflictId conflictData }
          | .error _ => ctx.fail conflictId
      | .ok none => ctx
      | .error _ => ctx.fail conflictId

def fetchConflict (ctx : PipelineContext) (conflictId : String) : Cloud PipelineContext := do
  match ctx.remoteInfo conflictId with
  | none => return ctx
  | some _ =>
      let result ← CloudStorage.downloadRecord conflictId
      return receiveConflict ctx conflictId result

def fetchConflicts (ctx : PipelineContext) : Cloud PipelineContext :=
  ctx.conflicts.foldlM fetchConflict ctx

/-- The checks on a record file that was just uploaded and read back. -/
def checkUploaded (expected downloaded : CloudRecord) : Except SyncError Unit := do
  downloaded.validate
  if downloaded.id ≠ expected.id then
    throw (.AadInconsistent "record_id" expected.id downloaded.id)
  if downloaded.version ≠ expected.version then
    throw (.MetadataVersionConflict expected.version downloaded.version)
  let expectedChecksum ← expected.computeChecksum
  let actualChecksum ← downloaded.computeChecksum
  if actualChecksum ≠ expectedChecksum then
    throw (.ChecksumMismatch expectedChecksum actualChecksum expected.id)
  let expectedPrivateChecksum ← expected.computePrivateMetadataChecksum
  let actualPrivateChecksum ← downloaded.computePrivateMetadataChecksum
  if actualPrivateChecksum ≠ expectedPrivateChecksum then
    throw (.ChecksumMismatch (expectedPrivateChecksum.getD "missing")
      (actualPrivateChecksum.getD "missing") expected.id)

def verifyUploadedRecord (expected : CloudRecord) : Cloud (Except SyncError Unit) := do
  match ← CloudStorage.downloadRecord expected.id with
  | .error e => return .error e
  | .ok none => return .error (.RecordNotFound expected.id)
  | .ok (some downloaded) => return checkUploaded expected downloaded

/-- The metadata entry that describes an uploaded record. -/
def uploadedInfo (now : DateTime) (record : CloudRecord) :
    Except SyncError RecordVersionInfo := do
  let checksum ← computeChecksum record.encryptedData
  let privateMetadataChecksum ← record.computePrivateMetadataChecksum
  return {
    version := record.version
    updatedAt := toRfc3339 now
    updatedBy := "local-device"
    checksum := checksum
    privateMetadataChecksum := privateMetadataChecksum
    deleted := record.deleted.getD false }

/-- Verifies each uploaded record and enters it into the metadata. -/
def enterUploads (now : DateTime) :
    List CloudRecord → CloudMetadata → Cloud (Except SyncError CloudMetadata)
  | [], m => return .ok m
  | record :: rest, m => do
      match ← verifyUploadedRecord record with
      | .error e => return .error e
      | .ok () =>
          match uploadedInfo now record with
          | .error e => return .error e
          | .ok info => enterUploads now rest (m.upsertRecord record.id info)

/-- The metadata to extend and the version the push expects to find. -/
def baseMetadata (ctx : PipelineContext) : Cloud (CloudMetadata × Nat) := do
  match ctx.remoteMetadata with
  | some remote => return (remote, remote.metadataVersion)
  | none =>
      let now ← CloudStorage.perform .now
      return (CloudMetadata.new ctx.localVaultToken now, 0)

def pushUpdatedMetadata (ctx : PipelineContext) : Cloud (Except SyncError CloudMetadata) := do
  let now ← CloudStorage.perform .now
  let base ← baseMetadata ctx
  let uploaded := ctx.uploads.filter fun record => ctx.uploadedIds.contains record.id
  match ← enterUploads now uploaded base.1 with
  | .error e => return .error e
  | .ok entered =>
      let incrementedAt ← CloudStorage.perform .now
      let updated := entered.incrementVersion incrementedAt
      match ← CloudStorage.pushMetadataAtomic updated base.2 with
      | .error e => return .error e
      | .ok () => return .ok updated

/-- The outcome of the stage once the metadata is settled. -/
def outcome (ctx : PipelineContext) : StageOutcome :=
  if ctx.conflicts = [] then .Continue else .ConflictDetected ctx.conflicts

def finish (ctx : PipelineContext) : Cloud (PipelineContext × StageOutcome) := do
  if ctx.uploadedIds = [] then return (ctx, outcome ctx)
  else
    match ← pushUpdatedMetadata ctx with
    | .ok updated => return ({ ctx with finalMetadata := some updated }, outcome ctx)
    | .error e => return (ctx, .Error e)

def execute (ctx : PipelineContext) : Cloud (PipelineContext × StageOutcome) := do
  let uploaded ← uploadRecords ctx
  let downloaded ← downloadRecords uploaded
  let fetched ← fetchConflicts downloaded
  finish fetched

end PushStage

/-! ## Stage 4 and the pipeline -/

namespace ResolveStage

def execute (ctx : PipelineContext) : PipelineContext × StageOutcome :=
  (ctx, if ctx.conflicts = [] then .Continue else .ConflictDetected ctx.conflicts)

end ResolveStage

inductive PipelineResult
  | Completed
  | NoChanges
  | ConflictsDetected (conflictIds : List String)
  | Error (error : SyncError)
deriving DecidableEq

inductive Stage
  | PullMetadata
  | Detect
  | Push
  | Resolve
deriving DecidableEq, Repr

variable [Codec] [Serde]

def Stage.execute : Stage → PipelineContext → Cloud (PipelineContext × StageOutcome)
  | .PullMetadata, ctx => PullMetadataStage.execute ctx
  | .Detect, ctx => return DetectStage.execute ctx
  | .Push, ctx => PushStage.execute ctx
  | .Resolve, ctx => return ResolveStage.execute ctx

namespace SyncPipeline

def stages : List Stage :=
  [.PullMetadata, .Detect, .Push, .Resolve]

/-- Runs the stages in order until one of them does not say `Continue`. -/
def runStages : List Stage → PipelineContext → Cloud (PipelineContext × PipelineResult)
  | [], ctx => return (ctx, .Completed)
  | stage :: rest, ctx => do
      let (ctx, outcome) ← stage.execute ctx
      match outcome with
      | .Continue => runStages rest ctx
      | .NoChanges => return (ctx, .NoChanges)
      | .ConflictDetected conflictIds => return (ctx, .ConflictsDetected conflictIds)
      | .Error e => return (ctx, .Error e)

def execute (ctx : PipelineContext) : Cloud (PipelineContext × PipelineResult) :=
  runStages stages ctx

end SyncPipeline

end OakKeyring
