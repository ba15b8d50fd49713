import OakKeyring.Types.Record

/-!
# Key rotation

The checkpoint and the configuration of a rotation are kept as JSON in the metadata table;
serde_json is the parameter `RotationJson`.
-/

namespace OakKeyring

inductive RotationTrigger
  | AutoTime (daysSinceLast : Nat)
  | AutoCount (recordCount : Nat)
  | PostRecovery
  | Manual
deriving DecidableEq, Repr

/-- The `Debug` form. -/
def RotationTrigger.toDebug : RotationTrigger → String
  | AutoTime daysSinceLast => s!"AutoTime \x7b days_since_last: {daysSinceLast} \x7d"
  | AutoCount recordCount => s!"AutoCount \x7b record_count: {recordCount} \x7d"
  | PostRecovery => "PostRecovery"
  | Manual => "Manual"

/-- What a rotation that was cut off is resumed from. -/
structure RotationCheckpoint where
  trigger : RotationTrigger
  oldDekVersion : Nat
  newDekVersion : Nat
  totalRecords : Nat
  migratedRecords : Nat
  lastMigratedRecordId : Option String
  startedAt : DateTime
  cloudMetadataRevision : String
deriving DecidableEq, Repr

structure RotationConfig where
  autoRotate : Bool
  rotateAfterDays : Option Nat
  rotateAfterRecords : Option Nat
  lastRotationAt : Option DateTime
  currentDekRecordCount : Nat
deriving DecidableEq, Repr

/-- `RotationConfig::default`. -/
def RotationConfig.default : RotationConfig where
  autoRotate := true
  rotateAfterDays := some 90
  rotateAfterRecords := some 1000
  lastRotationAt := none
  currentDekRecordCount := 0

def MAX_DEK_VERSION : Nat := 10000

/-- What the rotation itself reports. -/
structure RotationResult where
  oldDekVersion : Nat
  newDekVersion : Nat
  recordsMigrated : Nat
deriving DecidableEq, Repr

class RotationJson where
  checkpointToJson : RotationCheckpoint → Except String String
  checkpointFromJson : String → Except String RotationCheckpoint
  configToJson : RotationConfig → Except String String
  configFromJson : String → Except String RotationConfig

export RotationJson (checkpointToJson checkpointFromJson configToJson configFromJson)

/-- A document that was written is not empty, and is read back. -/
class LawfulRotationJson [RotationJson] : Prop where
  checkpoint_fromJson_toJson : ∀ {checkpoint : RotationCheckpoint} {json : String},
    checkpointToJson checkpoint = .ok json → json ≠ "" ∧ checkpointFromJson json = .ok checkpoint
  config_fromJson_toJson : ∀ {config : RotationConfig} {json : String},
    configToJson config = .ok json → json ≠ "" ∧ configFromJson json = .ok config

end OakKeyring
