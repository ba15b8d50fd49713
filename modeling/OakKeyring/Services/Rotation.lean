import OakKeyring.Errors
import OakKeyring.Types.Rotation
import OakKeyring.Vault.Record

/-!
# The rotation service

A rotation lists the records of older key versions and re-encrypts them one by one; after each it
saves a checkpoint, from which a rotation that was cut off is resumed.
-/

namespace OakKeyring

open Effect

/-- Operations of the rotation service on its vault. -/
abbrev RotationM := Fallible RotationError VaultI

def CHECKPOINT_KEY : String := "rotation_checkpoint"

def ROTATION_CONFIG_KEY : String := "rotation_config"

namespace RotationService

/-- `map_err(|e| RotationError::Internal(e.to_string()))?`. -/
def internal {α : Type} (p : VaultM α) : RotationM α :=
  Fallible.mapError (fun e => .Internal e.toText) p

/-- A JSON conversion with the error it is given. -/
def json {α : Type} (result : Except String α) (error : String → RotationError) : RotationM α :=
  match result with
  | .ok a => pure a
  | .error e => throw (error e)

section Checkpoint

variable [RotationJson]

def saveCheckpoint (checkpoint : RotationCheckpoint) : RotationM Unit := do
  let text ← json (checkpointToJson checkpoint) .CheckpointCorrupted
  internal (Vault.query (.setMetadata CHECKPOINT_KEY text))

/-- An empty text counts as no checkpoint. -/
def readCheckpoint (stored : Option String) : RotationM (Option RotationCheckpoint) :=
  match stored with
  | none => pure none
  | some text =>
      if text = "" then pure none
      else do
        let checkpoint ← json (checkpointFromJson text) .CheckpointCorrupted
        return some checkpoint

def loadCheckpoint : RotationM (Option RotationCheckpoint) := do
  let stored : Option String ← internal (Vault.query (.getMetadata CHECKPOINT_KEY))
  readCheckpoint stored

omit [RotationJson] in
def deleteCheckpoint : RotationM Unit := do
  let _ ← internal (Vault.query (.deleteMetadata CHECKPOINT_KEY))

/-- The stored text of a configuration; none counts as the default. -/
def readConfig (stored : Option String) : Except String RotationConfig :=
  match stored with
  | none => .ok .default
  | some text => if text = "" then .ok .default else configFromJson text

def getConfig : RotationM RotationConfig := do
  let stored : Option String ← internal (Vault.query (.getMetadata ROTATION_CONFIG_KEY))
  json (readConfig stored) .Internal

end Checkpoint

variable [Crypto] [RotationJson] (v : VaultService)

omit [RotationJson] in
def migrateRecord (id : Uuid) (oldDekVersion : Nat) : RotationM Unit :=
  Fallible.mapError (fun e => .RecordMigrationFailed id.toText e.toText)
    (Vault.reEncryptRecord v id oldDekVersion)

/-- One record of the loop. Only the record that the checkpoint names at that moment is skipped. -/
def migrateStep (acc : Nat × RotationCheckpoint) (record : StoredRecord) :
    RotationM (Nat × RotationCheckpoint) := do
  let (migrated, checkpoint) := acc
  if 0 < migrated ∧ checkpoint.lastMigratedRecordId = some record.id.toText then
    return (migrated, checkpoint)
  else
    migrateRecord v record.id record.dekVersion
    let checkpoint :=
      { checkpoint with
        migratedRecords := migrated + 1
        lastMigratedRecordId := some record.id.toText }
    saveCheckpoint checkpoint
    return (migrated + 1, checkpoint)

/-- Besides the count the checkpoint, which the code updates in place. -/
def migrateAllRecords (checkpoint : RotationCheckpoint) : RotationM (Nat × RotationCheckpoint) := do
  let records : List StoredRecord ←
    internal (Vault.listRecordsForMigration checkpoint.newDekVersion)
  records.foldlM (migrateStep v) (checkpoint.migratedRecords, checkpoint)

def resultOf (checkpoint : RotationCheckpoint) (recordsMigrated : Nat) : RotationResult where
  oldDekVersion := checkpoint.oldDekVersion
  newDekVersion := checkpoint.newDekVersion
  recordsMigrated := recordsMigrated

def resumeRotation : RotationM RotationResult := do
  let stored : Option RotationCheckpoint ← loadCheckpoint
  match stored with
  | none => throw (.Internal "no checkpoint to resume")
  | some checkpoint =>
      let (recordsMigrated, checkpoint) ← migrateAllRecords v checkpoint
      deleteCheckpoint
      return resultOf checkpoint recordsMigrated

/-- The checkpoint that a rotation starts with. -/
def firstCheckpoint (trigger : RotationTrigger) (expectedMetadataVersion : Nat)
    (startedAt : DateTime) : RotationCheckpoint where
  trigger := trigger
  oldDekVersion := v.crypto.currentDekVersion
  newDekVersion := v.crypto.currentDekVersion + 1
  totalRecords := 0
  migratedRecords := 0
  lastMigratedRecordId := none
  startedAt := startedAt
  cloudMetadataRevision := s!"cas-{expectedMetadataVersion}"

/-- The configuration after a rotation. -/
def RotationConfig.rotatedAt (config : RotationConfig) (time : DateTime) : RotationConfig :=
  { config with
    lastRotationAt := some time
    currentDekRecordCount := 0 }

/-- What a rotation does once its records are migrated. -/
def recordRotation (result : RotationResult) (trigger : RotationTrigger) : RotationM Unit := do
  let config ← getConfig
  let time : DateTime ← internal Vault.now
  let text ← json (configToJson (RotationConfig.rotatedAt config time)) .Internal
  internal (Vault.query (.setMetadata ROTATION_CONFIG_KEY text))
  internal (Vault.query (.insertAuditEntry .DekRotated none none
    (some s!"DEK v{result.oldDekVersion} -> v{result.newDekVersion} ({trigger.toDebug})")))

def rotate (trigger : RotationTrigger) (expectedMetadataVersion : Nat) :
    RotationM RotationResult := do
  if MAX_DEK_VERSION ≤ v.crypto.currentDekVersion then
    throw (.MaxVersionExceeded v.crypto.currentDekVersion MAX_DEK_VERSION)
  let startedAt : DateTime ← internal Vault.now
  let checkpoint := firstCheckpoint v trigger expectedMetadataVersion startedAt
  saveCheckpoint checkpoint
  let (recordsMigrated, checkpoint) ← migrateAllRecords v checkpoint
  deleteCheckpoint
  let result := resultOf checkpoint recordsMigrated
  recordRotation result trigger
  return result

/-- `trigger_rotation`. -/
def triggerRotation (expectedMetadataVersion : Nat) : RotationM RotationResult :=
  rotate v .Manual expectedMetadataVersion

end RotationService

end OakKeyring
