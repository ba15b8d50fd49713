import OakKeyring.Cloud.MetadataSwap
import OakKeyring.Services.Replies
import OakKeyring.Types.Rotation

/-!
# The rotation protocol

The executor pauses the sync service, rotates, publishes the new key version with a
compare-and-swap, and resumes. The protocol is a program whose calls are calls of the service
and local operations of the executor; the service runs on between them.
-/

namespace OakKeyring

open Effect

inductive CommandResult
  | Cancelled (operation : String)
  | Error (code : ErrorCode) (context : ErrorContext) (messageKey fallback : String)
  | RotationCompleted (oldVersion newVersion recordsMigrated : Nat)
deriving DecidableEq, Repr

/-- The calls of the protocol. `rotate` is the closure that the protocol is given. -/
inductive RotationOp
  | isCancelled
  | pause
  | resume
  | downloadMetadata
  | pushMetadataAtomic (metadata : CloudMetadata) (expectedVersion : Nat)
  | vaultMut
  | rotate (expectedVersion : Nat)

def RotationOp.Answer : RotationOp → Type
  | isCancelled => Bool
  | pause => Except SyncError Unit
  | resume => Except SyncError Unit
  | downloadMetadata => Except SyncError (Option CloudMetadata)
  | pushMetadataAtomic _ _ => Except SyncError Unit
  | vaultMut => Bool
  | rotate _ => Except RotationError RotationResult

def RotationI : Interface where
  Call := RotationOp
  Answer := RotationOp.Answer

abbrev Rotation := Prog RotationI

namespace Rotation

def perform (op : RotationOp) : Rotation op.Answer :=
  Prog.perform (I := RotationI) op

def syncFailure (e : SyncError) (messageKey fallback : String) : CommandResult :=
  .Error e.toErrorCode e.toErrorContext messageKey fallback

/-- The metadata is pulled once more, and its key version compared with the local one. -/
def resolveCasConflict (localNewVersion : Nat) : Rotation (Except String Nat) := do
  match ← perform .downloadMetadata with
  | .ok (some cloudMeta) =>
      if cloudMeta.currentDekVersion < localNewVersion then
        return .error
          s!"CAS conflict anomaly: cloud dek_version {cloudMeta.currentDekVersion} < local {localNewVersion}"
      else return .ok cloudMeta.currentDekVersion
  | .ok none =>
      return .error "CAS conflict but cloud metadata vanished — transient inconsistency"
  | .error e =>
      return .error
        s!"CAS conflict and failed to download cloud metadata for alignment: {e.toText}"

/-- The report of a push that lost the compare-and-swap. -/
def casConflict (label : String) (res : RotationResult) (casError : SyncError) :
    Except String Nat → CommandResult
  | .ok cloudDek =>
      .Error .RotationConflictDetected {} "error.rotation_cas_conflict"
        s!"DEK {label} v{res.oldDekVersion} -> v{res.newDekVersion} completed locally but another device updated cloud simultaneously. Local data is safe (cloud DEK v{cloudDek}). Records will sync on next cycle. CAS error: {casError.toText}"
  | .error alignError =>
      .Error .RotationConflictDetected {} "error.rotation_cas_conflict"
        s!"DEK {label} v{res.oldDekVersion} -> v{res.newDekVersion} completed locally but cloud push failed: {casError.toText}. Alignment check also failed. Local data is safe. Manual sync recommended. Alignment error: {alignError}"

/-- Every exit behind a successful pause resumes, whatever the call then answers. -/
def resumeAndReturn (result : CommandResult) : Rotation CommandResult := do
  let _ ← perform .resume
  return result

def leave (hasSync : Bool) (result : CommandResult) : Rotation CommandResult :=
  if hasSync then resumeAndReturn result else pure result

/-- The compare-and-swap push of the new key version. -/
def publish (label : String) (expectedVersion : Nat) (res : RotationResult) :
    Rotation CommandResult := do
  let completed : CommandResult :=
    .RotationCompleted res.oldDekVersion res.newDekVersion res.recordsMigrated
  match ← perform .downloadMetadata with
  | .ok (some metadata) =>
      let updated :=
        { metadata with
          currentDekVersion := res.newDekVersion
          metadataVersion := metadata.metadataVersion + 1 }
      match ← perform (.pushMetadataAtomic updated expectedVersion) with
      | .ok () => resumeAndReturn completed
      | .error casError =>
          let alignment ← resolveCasConflict res.newDekVersion
          resumeAndReturn (casConflict label res casError alignment)
  | _ => resumeAndReturn completed

/-- The rotation of an executor whose sync service, if it has one, is paused. -/
def rotateAndPublish (hasSync : Bool) (label rotationErrorKey : String)
    (expectedVersion : Nat) : Rotation CommandResult := do
  let available : Bool ← perform .vaultMut
  if available then
    match ← perform (.rotate expectedVersion) with
    | .ok res =>
        if hasSync then publish label expectedVersion res
        else
          return .RotationCompleted res.oldDekVersion res.newDekVersion res.recordsMigrated
    | .error e =>
        leave hasSync (.Error e.toErrorCode e.toErrorContext rotationErrorKey
          s!"DEK {label} failed: {e.toText}")
  else
    leave hasSync (.Error .VaultNotUnlocked {} "error.vault_not_available"
      "Vault is not available for rotation: vault is not unlocked")

/-- `execute_rotation_protocol`. -/
def executeRotationProtocol (hasSync : Bool) (label rotationErrorKey : String) :
    Rotation CommandResult := do
  let cancelled : Bool ← perform .isCancelled
  if cancelled then return .Cancelled "rotation"
  else if hasSync then
    match ← perform .pause with
    | .error e =>
        -- the one exit that does not resume
        return syncFailure e "error.sync_pause_failed"
          s!"Failed to pause sync for {label}: {e.toText}"
    | .ok () =>
        match ← perform .downloadMetadata with
        | .ok metadata => rotateAndPublish true label rotationErrorKey (metadataVersionOf metadata)
        | .error e =>
            resumeAndReturn (syncFailure e "error.download_metadata_failed"
              s!"Failed to download cloud metadata for {label}: {e.toText}")
  else rotateAndPublish false label rotationErrorKey 0

def handleTriggerRotation (hasSync : Bool) : Rotation CommandResult :=
  executeRotationProtocol hasSync "rotation" "error.rotation_failed"

/-- `handle_resume_rotation` once it has seen a pending checkpoint. -/
def handleResumeRotation (hasSync : Bool) : Rotation CommandResult :=
  executeRotationProtocol hasSync "rotation resume" "error.rotation_resume_failed"

end Rotation

end OakKeyring
