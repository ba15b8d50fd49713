import OakKeyring.Samples.Vault
import OakKeyring.Services.Rotation

/-!
# Rotations on a bench

JSON of checkpoints and configurations as serde_json prints it, and rotations against the
database that answers in order.
-/

namespace OakKeyring

open Effect

namespace Json

def nullableNumber (value : Option Nat) : Option String :=
  some ((value.map toString).getD "null")

/-- An instant as chrono serialises it. -/
def instant (t : DateTime) : String :=
  let text := (Rfc3339.print t).toList
  quote (String.ofList (text.take (text.length - 6)) ++ "Z")

def rotationTrigger : RotationTrigger → String
  | .AutoTime daysSinceLast =>
      object [("AutoTime", some (object [("days_since_last", some (toString daysSinceLast))]))]
  | .AutoCount recordCount =>
      object [("AutoCount", some (object [("record_count", some (toString recordCount))]))]
  | .PostRecovery => quote "PostRecovery"
  | .Manual => quote "Manual"

def rotationCheckpoint (c : RotationCheckpoint) : String :=
  object [("trigger", some (rotationTrigger c.trigger)),
    ("old_dek_version", some (toString c.oldDekVersion)),
    ("new_dek_version", some (toString c.newDekVersion)),
    ("total_records", some (toString c.totalRecords)),
    ("migrated_records", some (toString c.migratedRecords)),
    ("last_migrated_record_id", nullable c.lastMigratedRecordId),
    ("started_at", some (instant c.startedAt)),
    ("cloud_metadata_revision", some (quote c.cloudMetadataRevision))]

def rotationConfig (c : RotationConfig) : String :=
  object [("auto_rotate", some (bool c.autoRotate)),
    ("rotate_after_days", nullableNumber c.rotateAfterDays),
    ("rotate_after_records", nullableNumber c.rotateAfterRecords),
    ("last_rotation_at", some ((c.lastRotationAt.map instant).getD "null")),
    ("current_dek_record_count", some (toString c.currentDekRecordCount))]

end Json

/-- JSON that is read among the given checkpoints and configurations. -/
@[reducible] def referenceRotationJson (checkpoints : List RotationCheckpoint)
    (configs : List RotationConfig) : RotationJson where
  checkpointToJson c := .ok (Json.rotationCheckpoint c)
  checkpointFromJson := Json.read Json.rotationCheckpoint checkpoints
  configToJson c := .ok (Json.rotationConfig c)
  configFromJson := Json.read Json.rotationConfig configs

namespace Bench

/-- A rotation to its end. -/
def complete {α : Type} (now : DateTime) (p : RotationM α) (b : Bench) :
    Except RotationError α × Bench :=
  run (serve now) p.run b

def completeTrace {α : Type} (now : DateTime) (p : RotationM α) (b : Bench) :
    List (Event VaultI) :=
  runTrace (serve now) p.run b

theorem returns_complete {α : Type} (now : DateTime) (p : RotationM α) (b : Bench) :
    p.run.Returns (completeTrace now p b) (complete now p b).1 :=
  returns_runTrace (serve now) p.run b

theorem path_complete {α : Type} (now : DateTime) (p : RotationM α) (b : Bench) :
    Path vaultEnv b.tables (completeTrace now p b) (complete now p b).2.tables :=
  (path_runTrace (serve now) p.run b).map Bench.tables fun _ _ _ _ hstep => serve_env hstep

end Bench

/-! ## A vault with one record -/

namespace OneRecord

abbrev crypto : Crypto :=
  referenceCrypto [.SecureNote "note" none]

/-- The service of a vault whose current key version is `version`. -/
def service (version : Nat) : VaultService where
  crypto := .fromUnlockedKeystore
    { kek := some (List.replicate 32 7)
      currentDekVersion := version }
  deviceId := "device"

def recordId : Uuid :=
  Uuid.filled 1

def create : VaultCommand :=
  .createRecord
    { credentialType := .SecureNote
      payload := .SecureNote "note" none
      isFavorite := false
      expiresAt := none
      tags := [] }

/-- The checkpoint of a rotation that was cut off before its first record. -/
def checkpoint : RotationCheckpoint where
  trigger := .Manual
  oldDekVersion := 1
  newDekVersion := 2
  totalRecords := 0
  migratedRecords := 0
  lastMigratedRecordId := none
  startedAt := Sample.instant
  cloudMetadataRevision := "cas-0"

/-- A configuration that shows a rotation. -/
def rotatedConfig : RotationConfig :=
  RotationService.RotationConfig.rotatedAt .default Sample.instant

abbrev rotationJson : RotationJson :=
  referenceRotationJson [checkpoint] [.default, rotatedConfig]

section

attribute [local instance] Sample.codec Sample.serde crypto

theorem lawful : LawfulCrypto :=
  referenceCrypto_lawful fun _ hp => Json.read_of_nodup (List.nodup_singleton _) hp

end

end OneRecord

/-! ## A vault with three records -/

namespace ThreeNotes

/-- The checkpoint of a rotation that was cut off before its first record, or after it. -/
def checkpoint (migrated : Option Uuid) : RotationCheckpoint where
  trigger := .Manual
  oldDekVersion := 1
  newDekVersion := 2
  totalRecords := 0
  migratedRecords := if migrated.isSome then 1 else 0
  lastMigratedRecordId := migrated.map Uuid.toText
  startedAt := Sample.instant
  cloudMetadataRevision := "cas-0"

abbrev rotationJson : RotationJson :=
  referenceRotationJson
    [checkpoint none, checkpoint (some firstId), checkpoint (some secondId),
      checkpoint (some thirdId)]
    [.default, OneRecord.rotatedConfig]

end ThreeNotes

end OakKeyring
