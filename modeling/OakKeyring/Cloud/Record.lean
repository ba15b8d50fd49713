import OakKeyring.Cloud.Schema
import OakKeyring.Errors

/-! # Validation, checksums and health of cloud records -/

namespace OakKeyring

variable [Codec] [Serde]

def XCHACHA20_POLY1305_NONCE_LEN : Nat := 24

/-- SHA-256 of the decoded ciphertext, in hexadecimal. -/
def computeChecksum (encryptedDataBase64 : String) : Except SyncError String :=
  match base64Decode encryptedDataBase64 with
  | .error e => .error (.DeserializationFailed s!"failed to decode encrypted_data as base64: {e}")
  | .ok decoded => .ok (sha256Hex decoded)

def validateUuid (id : String) : Bool :=
  (Uuid.parseStr id).isSome

/-- The nonce check of `CloudRecord::validate`. -/
def CloudRecord.validateNonce (r : CloudRecord) : Except SyncError Unit :=
  if r.nonce = "" then .error (.DeserializationFailed "nonce must be non-empty")
  else
    match base64Decode r.nonce with
    | .error e => .error (.DeserializationFailed s!"nonce must be valid base64: {e}")
    | .ok nonce =>
        if nonce.length ≠ XCHACHA20_POLY1305_NONCE_LEN then
          .error (.DeserializationFailed
            s!"nonce must decode to {XCHACHA20_POLY1305_NONCE_LEN} bytes, got {nonce.length}")
        else .ok ()

/-- The structural checks a cloud record passes before it is stored or applied. -/
def CloudRecord.validate (r : CloudRecord) : Except SyncError Unit := do
  if r.id = "" then throw (.DeserializationFailed "id must be non-empty")
  if validateUuid r.id = false then
    throw (.DeserializationFailed s!"id must be a valid UUID: {r.id}")
  if r.version < 1 then
    throw (.DeserializationFailed s!"version must be >= 1, got {r.version}")
  if r.encryptedData = "" then
    throw (.DeserializationFailed "encrypted_data must be non-empty")
  r.validateNonce
  if r.dekVersion < 1 then
    throw (.DeserializationFailed s!"dek_version must be >= 1, got {r.dekVersion}")
  if r.aad.recordId ≠ r.id then
    throw (.AadInconsistent "record_id" r.id r.aad.recordId)
  if r.aad.dekVersion ≠ r.dekVersion then
    throw (.AadInconsistent "dek_version" (toString r.dekVersion) (toString r.aad.dekVersion))
  if r.metadata.name = "" then
    throw (.DeserializationFailed "metadata.name must be non-empty")
  if r.metadata.updatedAt = "" then
    throw (.DeserializationFailed "metadata.updated_at must be non-empty")

def CloudRecord.computeChecksum (r : CloudRecord) : Except SyncError String :=
  OakKeyring.computeChecksum r.encryptedData

/-- Checksum over the encrypted private metadata, when there is any. -/
def CloudRecord.computePrivateMetadataChecksum (r : CloudRecord) :
    Except SyncError (Option String) :=
  match r.metadata.encryptedMetadata with
  | none => .ok none
  | some encryptedMetadata =>
      match encryptedMetadataToJson encryptedMetadata with
      | .error e =>
          .error (.SerializationFailed s!"failed to serialize encrypted private metadata: {e}")
      | .ok bytes => .ok (some (sha256Hex bytes))

/-- The cloud form of a local health state. -/
def RecordHealthMetadata.fromState (state : RecordHealthState) : RecordHealthMetadata where
  evaluatedAt := state.evaluatedAt.map toRfc3339
  weakPassword := state.weakPassword
  duplicateGroupSize := state.duplicateGroupSize
  compromised := state.compromised
  expired := state.expired

/-- The local form; an unreadable evaluation time is dropped. -/
def RecordHealthMetadata.toState (h : RecordHealthMetadata) (recordId : Uuid)
    (recordVersion : Nat) : RecordHealthState where
  recordId := recordId
  recordVersion := recordVersion
  evaluatedAt := h.evaluatedAt.bind fun s => (parseRfc3339 s).toOption
  weakPassword := h.weakPassword
  duplicateGroupSize := h.duplicateGroupSize
  compromised := h.compromised
  expired := h.expired

def CloudRecord.toHealthState (r : CloudRecord) : Option RecordHealthState :=
  r.metadata.health.map fun h => h.toState ((Uuid.parseStr r.id).getD Uuid.nil) r.version

def CloudRecord.hasEncryptedPrivateMetadata (r : CloudRecord) : Bool :=
  r.metadata.encryptedMetadata.isSome

/-- The upload form of a stored record. -/
def buildCloudRecord (record : StoredRecord) (name encryptedDataBase64 nonceBase64 : String)
    (aad : AadFields) (health : Option RecordHealthState) : CloudRecord where
  id := record.id.toText
  version := record.version
  encryptedData := encryptedDataBase64
  nonce := nonceBase64
  dekVersion := record.dekVersion
  aad := aad
  metadata :=
    { name := name
      tags := record.tags
      updatedAt := toRfc3339 record.updatedAt
      credentialType := some record.credentialType
      isFavorite := some record.isFavorite
      expiresAt := record.expiresAt.map toRfc3339
      updatedBy := some record.updatedBy
      health := health.map RecordHealthMetadata.fromState
      encryptedMetadata := none }
  deleted := if record.deleted then some true else none
  deletedAt := record.deletedAt.map toRfc3339

namespace ConflictPayload

def serialize (p : ConflictPayload) : Except SyncError Bytes :=
  (conflictPayloadToJson p).mapError .SerializationFailed

def deserialize (data : Bytes) : Except SyncError ConflictPayload :=
  (conflictPayloadFromJson data).mapError .DeserializationFailed

/-- The record is valid and its ciphertext has the stored checksum. -/
def validate (p : ConflictPayload) : Except SyncError Unit := do
  p.cloudRecord.validate
  let computed ← p.cloudRecord.computeChecksum
  if computed ≠ p.checksum then
    throw (.ChecksumMismatch p.checksum computed p.cloudRecord.id)

end ConflictPayload

end OakKeyring
