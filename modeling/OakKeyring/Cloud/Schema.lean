import OakKeyring.Types.Record
import Mathlib.Data.List.AList

/-!
# Cloud documents

`metadata.json`, the record files, and the payload kept for a conflict. JSON itself is the
parameter `Serde`: each document has a writer and a reader that may fail with a message.
-/

namespace OakKeyring

structure AadFields where
  recordId : String
  dekVersion : Nat
deriving DecidableEq, Repr

/-- Health fields shared between devices inside a record's metadata. -/
structure RecordHealthMetadata where
  evaluatedAt : Option String
  weakPassword : Option Bool
  duplicateGroupSize : Option Nat
  compromised : Option Bool
  expired : Option Bool
deriving DecidableEq, Repr

structure EncryptedRecordMetadata where
  encryptedData : String
  nonce : String
  dekVersion : Nat
deriving DecidableEq, Repr

/-- What `EncryptedRecordMetadata` holds once decrypted. -/
structure CloudPrivateMetadata where
  name : String
  tags : List String
  credentialType : Option CredentialType
  isFavorite : Option Bool
  expiresAt : Option String
  updatedBy : Option String
  health : Option RecordHealthMetadata
deriving DecidableEq, Repr

structure RecordMetadata where
  name : String
  tags : List String
  updatedAt : String
  credentialType : Option CredentialType
  isFavorite : Option Bool
  expiresAt : Option String
  updatedBy : Option String
  health : Option RecordHealthMetadata
  encryptedMetadata : Option EncryptedRecordMetadata
deriving DecidableEq, Repr

structure CloudRecord where
  id : String
  version : Nat
  encryptedData : String
  nonce : String
  dekVersion : Nat
  aad : AadFields
  metadata : RecordMetadata
  deleted : Option Bool
  deletedAt : Option String
deriving DecidableEq, Repr

/-- A remote record and its checksum, as stored in `sync_state.conflict_data`. -/
structure ConflictPayload where
  cloudRecord : CloudRecord
  checksum : String
deriving DecidableEq, Repr

/-- What `metadata.json` says about one record file. -/
structure RecordVersionInfo where
  version : Nat
  updatedAt : String
  updatedBy : String
  checksum : String
  privateMetadataChecksum : Option String
  deleted : Bool
deriving DecidableEq, Repr

/-- The document `metadata.json`. -/
structure CloudMetadata where
  version : Nat
  schemaVersion : String
  currentDekVersion : Nat
  minSupportedDekVersion : Nat
  vaultIdentityToken : String
  metadataVersion : Nat
  createdAt : String
  updatedAt : String
  records : AList fun _ : String => RecordVersionInfo

/-- Metadata with the same entries and the same other fields is the same. -/
theorem CloudMetadata.eq_iff (a b : CloudMetadata) :
    a = b ↔ a.records.entries = b.records.entries ∧
      [a.version, a.currentDekVersion, a.minSupportedDekVersion, a.metadataVersion] =
        [b.version, b.currentDekVersion, b.minSupportedDekVersion, b.metadataVersion] ∧
      [a.schemaVersion, a.vaultIdentityToken, a.createdAt, a.updatedAt] =
        [b.schemaVersion, b.vaultIdentityToken, b.createdAt, b.updatedAt] := by
  rcases a with ⟨_, _, _, _, _, _, _, _, records⟩
  rcases b with ⟨_, _, _, _, _, _, _, _, records'⟩
  constructor
  · intro h
    cases h
    exact ⟨rfl, rfl, rfl⟩
  · rintro ⟨hrecords, hnumbers, htexts⟩
    simp only [List.cons.injEq, and_true] at hnumbers htexts
    rcases hnumbers with ⟨rfl, rfl, rfl, rfl⟩
    rcases htexts with ⟨rfl, rfl, rfl, rfl⟩
    have hsame : records = records' := AList.ext hrecords
    rw [hsame]

/-- Unlike the equality of the map of entries, this evaluates. -/
instance : DecidableEq CloudMetadata := fun a b => decidable_of_iff _ (a.eq_iff b).symm

/-- The JSON forms the code reads and writes. -/
class Serde where
  encryptedMetadataToJson : EncryptedRecordMetadata → Except String Bytes
  privateMetadataToJson : CloudPrivateMetadata → Except String Bytes
  privateMetadataFromJson : Bytes → Except String CloudPrivateMetadata
  conflictPayloadToJson : ConflictPayload → Except String Bytes
  conflictPayloadFromJson : Bytes → Except String ConflictPayload
  metadataToJson : CloudMetadata → Except String String
  metadataFromJson : String → Except String CloudMetadata
  aadToJson : AadFields → Except String String

export Serde (encryptedMetadataToJson privateMetadataToJson privateMetadataFromJson
  conflictPayloadToJson conflictPayloadFromJson metadataToJson metadataFromJson aadToJson)

/-- Format version of the cloud documents. -/
def FORMAT_VERSION : Nat := 1

def SCHEMA_VERSION : String := "open-keyring-v1"

def METADATA_FILENAME : String := ".metadata.json"

def RECORDS_DIR : String := "records"

end OakKeyring
