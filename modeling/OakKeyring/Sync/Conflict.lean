import OakKeyring.Cloud.Record

/-! # Conflict detection, storage and resolution -/

namespace OakKeyring

/-- What to do with a local record that also exists in the cloud. -/
inductive ConflictAction
  | Conflict (localVersion remoteVersion : Nat)
  | DownloadOnly
  | UploadOnly
  | NoAction
deriving DecidableEq, Repr

/-- Detection looks at the local status and the two version numbers only. -/
def detectConflicts (localSyncStatus : SyncStatus) (localVersion remoteVersion : Nat) :
    ConflictAction :=
  match localSyncStatus, compare remoteVersion localVersion with
  | .Pending, .gt => .Conflict localVersion remoteVersion
  | .Synced, .gt => .DownloadOnly
  | .Pending, .eq => .UploadOnly
  | .Pending, .lt => .UploadOnly
  | _, _ => .NoAction

/-- A record in status `Conflict` is never acted on again. -/
@[simp] theorem detectConflicts_conflict (localVersion remoteVersion : Nat) :
    detectConflicts .Conflict localVersion remoteVersion = .NoAction := by
  unfold detectConflicts
  cases compare remoteVersion localVersion <;> rfl

@[simp] theorem detectConflicts_pending_eq_conflict {l r a b : Nat} :
    detectConflicts .Pending l r = .Conflict a b ↔ l < r ∧ a = l ∧ b = r := by
  unfold detectConflicts
  cases h : compare r l with
  | lt =>
      have := Nat.compare_eq_lt.mp h
      simp
      omega
  | eq =>
      have := Nat.compare_eq_eq.mp h
      simp
      omega
  | gt =>
      have := Nat.compare_eq_gt.mp h
      simp [this, eq_comm]

@[simp] theorem detectConflicts_pending_eq_upload {l r : Nat} :
    detectConflicts .Pending l r = .UploadOnly ↔ r ≤ l := by
  unfold detectConflicts
  cases h : compare r l with
  | lt =>
      have := Nat.compare_eq_lt.mp h
      simp
      omega
  | eq =>
      have := Nat.compare_eq_eq.mp h
      simp
      omega
  | gt =>
      have := Nat.compare_eq_gt.mp h
      simp
      omega

@[simp] theorem detectConflicts_synced_eq_download {l r : Nat} :
    detectConflicts .Synced l r = .DownloadOnly ↔ l < r := by
  unfold detectConflicts
  cases h : compare r l with
  | lt =>
      have := Nat.compare_eq_lt.mp h
      simp
      omega
  | eq =>
      have := Nat.compare_eq_eq.mp h
      simp
      omega
  | gt =>
      have := Nat.compare_eq_gt.mp h
      simp [this]

inductive ResolutionAction
  | KeepLocal
  | KeepRemote
deriving DecidableEq, Repr

structure ResolvedConflict where
  newVersion : Nat
  action : ResolutionAction
deriving DecidableEq, Repr

/-- The fields of a kept remote record that overwrite the local row. -/
structure KeepRemoteData where
  cloudRecord : CloudRecord
  encryptedDataBase64 : String
  nonceBase64 : String
  dekVersion : Nat
  aadJson : String
  version : Nat
  updatedAt : String
deriving DecidableEq, Repr

structure ConflictItem where
  recordId : Uuid
  conflictData : Bytes
  currentVersion : Nat
deriving DecidableEq, Repr

inductive ResolutionStrategy
  | KeepLocal
  | KeepRemote
deriving DecidableEq, Repr

structure ResolveOutcome where
  recordId : Uuid
  result : Except SyncError ResolvedConflict

variable [Codec] [Serde]

/-- The bytes kept for a conflict: the remote record and its checksum, once validated. -/
def storeConflict (cloudRecord : CloudRecord) (checksum : String) : Except SyncError Bytes := do
  let payload : ConflictPayload := { cloudRecord := cloudRecord, checksum := checksum }
  payload.validate
  payload.serialize

def resolveKeepLocal (currentVersion : Nat) : ResolvedConflict where
  newVersion := currentVersion + 1
  action := .KeepLocal

def resolveKeepRemote (conflictData : Bytes) : Except SyncError KeepRemoteData := do
  let payload ← ConflictPayload.deserialize conflictData
  payload.validate
  let cloudRecord := payload.cloudRecord
  let aadJson ← (aadToJson cloudRecord.aad).mapError fun e =>
    SyncError.SerializationFailed s!"failed to serialize AAD: {e}"
  return {
    cloudRecord := cloudRecord
    encryptedDataBase64 := cloudRecord.encryptedData
    nonceBase64 := cloudRecord.nonce
    dekVersion := cloudRecord.dekVersion
    aadJson := aadJson
    version := cloudRecord.version
    updatedAt := cloudRecord.metadata.updatedAt }

/-- One strategy for every item; a failure of one item does not stop the others. -/
def resolveAllBatch (items : List ConflictItem) (strategy : ResolutionStrategy) :
    List ResolveOutcome :=
  items.map fun item =>
    { recordId := item.recordId
      result :=
        match strategy with
        | .KeepLocal => .ok (resolveKeepLocal item.currentVersion)
        | .KeepRemote =>
            (resolveKeepRemote item.conflictData).map fun keepRemote =>
              { newVersion := keepRemote.version
                action := .KeepRemote } }

end OakKeyring
