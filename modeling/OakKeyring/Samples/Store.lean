import OakKeyring.Cloud.Storage
import OakKeyring.Samples.Crates

/-!
# A store that answers without faults

The storage environment is a relation; this is the function in it that never reports a fault,
and the record and instant with which concrete runs are made.
-/

namespace OakKeyring

open Effect

namespace CloudStore

/-- The fault-free answers of a store, at a fixed time. -/
def serve (now : DateTime) : Handler StorageI CloudStore
  | s, .listRecords => (.ok (), s)
  | s, .readMetadata =>
      match s.metadata with
      | some m => (.ok m, s)
      | none => (.error (.RecordNotFound METADATA_FILENAME), s)
  | s, .writeMetadata m => (.ok (), s.putMetadata m)
  | s, .readRecord id =>
      match s.records id with
      | some r => (.ok r, s)
      | none => (.error (.RecordNotFound s!"{RECORDS_DIR}/{id}.json"), s)
  | s, .writeRecord id r => (.ok (), s.putRecord id r)
  | s, .now => (now, s)

theorem serve_storageStep (now : DateTime) (s : CloudStore) (op : StorageOp) :
    StorageStep s op (serve now s op).1 (serve now s op).2 := by
  cases op with
  | listRecords => exact .list s
  | readMetadata =>
      rcases s with ⟨_ | m, records⟩
      · exact .noMetadata _ rfl
      · exact .readMetadata _ m rfl
  | writeMetadata m => exact .writeMetadata s m
  | readRecord id =>
      cases h : s.records id with
      | some r =>
          have hserve : serve now s (.readRecord id) = (.ok r, s) := by simp [serve, h]
          rw [hserve]
          exact .readRecord s id r h
      | none =>
          have hserve : serve now s (.readRecord id) =
              (.error (.RecordNotFound s!"{RECORDS_DIR}/{id}.json"), s) := by simp [serve, h]
          rw [hserve]
          exact .noRecord s id h
  | writeRecord id r => exact .writeRecord s id r
  | now => exact .now s now

/-- A fault-free run is a path of the store. -/
theorem path_serve {α : Type} (now : DateTime) (p : Cloud α) (s : CloudStore) :
    Path storageEnv s (runTrace (serve now) p s) (run (serve now) p s).2 := by
  refine (path_runTrace (serve now) p s).mono ?_
  intro u op answer v hstep
  have hserve : serve now u op = (answer, v) := hstep
  have hmodel := serve_storageStep now u op
  rw [hserve] at hmodel
  exact hmodel

end CloudStore

namespace Sample

/-- 2026-01-01T00:00:00Z. -/
def instant : DateTime where
  seconds := 1767225600
  nanos := 0

/-- The libraries as they treat the documents of a sample without conflict payloads. -/
abbrev codec : Codec :=
  referenceCodec [instant]

abbrev serde : Serde :=
  referenceSerde [] [] []

def recordId : String := "550e8400-e29b-41d4-a716-446655440120"

/-- A valid cloud record of a given version and ciphertext. -/
def record (version : Nat) (encryptedData : String) : CloudRecord where
  id := recordId
  version := version
  encryptedData := encryptedData
  nonce := "AAAAAAAAAAAAAAAAAAAAAAAAAAAAAAAA"
  dekVersion := 1
  aad :=
    { recordId := recordId
      dekVersion := 1 }
  metadata :=
    { name := "encrypted"
      tags := []
      updatedAt := "2026-01-01T00:00:00+00:00"
      credentialType := none
      isFavorite := none
      expiresAt := none
      updatedBy := none
      health := none
      encryptedMetadata := none }
  deleted := none
  deletedAt := none

/-- The entry that describes `record version encryptedData`. -/
def info (version : Nat) (checksum : String) : RecordVersionInfo where
  version := version
  updatedAt := "2026-01-01T00:00:00+00:00"
  updatedBy := "local-device"
  checksum := checksum
  privateMetadataChecksum := none
  deleted := false

/-- Metadata with one entry. -/
def metadata (metadataVersion : Nat) (entry : RecordVersionInfo) : CloudMetadata where
  version := FORMAT_VERSION
  schemaVersion := SCHEMA_VERSION
  currentDekVersion := 1
  minSupportedDekVersion := 1
  vaultIdentityToken := "token"
  metadataVersion := metadataVersion
  createdAt := "2026-01-01T00:00:00+00:00"
  updatedAt := "2026-01-01T00:00:00+00:00"
  records := AList.insert recordId entry ∅

end Sample

end OakKeyring
