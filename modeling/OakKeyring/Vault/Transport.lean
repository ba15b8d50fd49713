import OakKeyring.Vault.Record

/-!
# Records on their way to the cloud and back

The private fields of a record travel encrypted inside its metadata. A record that comes back
is checked, written over the local one and indexed; fields that an older client left out of the
private metadata are taken from the plain ones.
-/

namespace OakKeyring

open Effect

/-- The additional data of the private metadata. -/
def metadataAad (recordId : String) : Bytes :=
  utf8 s!"cloud-metadata:{recordId}"

namespace Vault

variable [Codec] [Serde] [Crypto] (v : VaultService)

/-- The private metadata that travels with a record. -/
def privateMetadataOf (record : StoredRecord) (name : String)
    (health : Option RecordHealthState) : CloudPrivateMetadata where
  name := name
  tags := record.tags
  credentialType := some record.credentialType
  isFavorite := some record.isFavorite
  expiresAt := record.expiresAt.map toRfc3339
  updatedBy := some record.updatedBy
  health := health.map RecordHealthMetadata.fromState

/-- The upload form, given the encrypted private metadata. -/
def cloudRecordOf (record : StoredRecord) (encryptedMetadata : EncryptedRecordMetadata) :
    CloudRecord where
  id := record.id.toText
  version := record.version
  encryptedData := base64Encode record.encryptedData
  nonce := base64Encode record.nonce.bytes
  dekVersion := record.dekVersion
  aad :=
    { recordId := record.id.toText
      dekVersion := record.dekVersion }
  metadata :=
    { name := "encrypted"
      tags := []
      updatedAt := toRfc3339 record.updatedAt
      credentialType := none
      isFavorite := none
      expiresAt := none
      updatedBy := none
      health := none
      encryptedMetadata := some encryptedMetadata }
  deleted := if record.deleted then some true else none
  deletedAt := record.deletedAt.map toRfc3339

/-- `build_cloud_record_for_sync`. -/
def buildCloudRecordForSync (record : StoredRecord) (health : Option RecordHealthState) :
    VaultM CloudRecord := do
  let name ← crypto (v.crypto.decryptNameOnly record.encryptedData record.nonce
    (recordAad record.id) record.dekVersion)
  let privateJson ← crypto (privateMetadataToJson (privateMetadataOf record name health))
  let nonce ← newNonce
  let privateEncrypted ← crypto (v.crypto.encrypt privateJson (metadataAad record.id.toText) nonce)
  return cloudRecordOf record
    { encryptedData := base64Encode privateEncrypted
      nonce := base64Encode nonce.bytes
      dekVersion := v.crypto.currentDekVersion }

/-- Base64 with the field's name in the message. -/
def decodeBase64 (field text : String) : Except String Bytes :=
  (base64Decode text).mapError fun e => s!"invalid {field} base64: {e}"

def decodeNonce (field label text : String) : Except String Nonce := do
  let bytes ← decodeBase64 field text
  match Nonce.ofBytes? bytes with
  | some nonce => .ok nonce
  | none => .error s!"{label} must be 24 bytes"

/-- `decrypt_cloud_private_metadata`. -/
def decryptCloudPrivateMetadata (r : CloudRecord) : Except String (Option CloudPrivateMetadata) :=
  match r.metadata.encryptedMetadata with
  | none => .ok none
  | some m => do
      let encryptedData ← decodeBase64 "encrypted_metadata" m.encryptedData
      let nonce ← decodeNonce "encrypted_metadata nonce" "encrypted_metadata nonce" m.nonce
      let plaintext ← v.crypto.decrypt encryptedData nonce (metadataAad r.id) m.dekVersion
      let metadata ← (privateMetadataFromJson plaintext).mapError fun e =>
        s!"invalid encrypted_metadata json: {e}"
      return some metadata

/-- An instant that is dropped when it cannot be read. -/
def readInstant (text : Option String) : Option DateTime :=
  text.bind fun s => (parseRfc3339 s).toOption

def deletedOf (r : CloudRecord) : Bool :=
  r.deleted.getD false

/-- The tags of a downloaded record. -/
def tagsOf (r : CloudRecord) (m : Option CloudPrivateMetadata) : List String :=
  match m with
  | some m => m.tags
  | none => r.metadata.tags

def credentialTypeOf (r : CloudRecord) (m : Option CloudPrivateMetadata) : CredentialType :=
  ((m.bind CloudPrivateMetadata.credentialType).or r.metadata.credentialType).getD .Login

/-- The local form of a downloaded record. -/
def downloadedRecord (id : Uuid) (r : CloudRecord) (encryptedData : Bytes) (nonce : Nonce)
    (m : Option CloudPrivateMetadata) (existing : Option StoredRecord) (time : DateTime) :
    StoredRecord where
  id := id
  credentialType := credentialTypeOf r m
  encryptedData := encryptedData
  nonce := nonce
  dekVersion := r.dekVersion
  aad := recordAad id
  isFavorite := ((m.bind CloudPrivateMetadata.isFavorite).or r.metadata.isFavorite).getD false
  expiresAt := readInstant ((m.bind CloudPrivateMetadata.expiresAt).or r.metadata.expiresAt)
  createdAt := (existing.map StoredRecord.createdAt).getD time
  updatedAt := ((parseRfc3339 r.metadata.updatedAt).toOption).getD time
  updatedBy := ((m.bind CloudPrivateMetadata.updatedBy).or r.metadata.updatedBy).getD "sync"
  version := r.version
  deleted := deletedOf r
  deletedAt := if deletedOf r then readInstant r.deletedAt else none
  tags := tagsOf r m

/-- The row of a downloaded record is inserted, or written over the local one. The answer of
the optimistic update is not looked at. -/
def writeDownloaded (stored : StoredRecord) (existing : Option StoredRecord) : VaultM Unit :=
  match existing with
  | none => do
      markRecordListIndexDirty
      query (.insertRecord stored)
  | some old => do
      markRecordListIndexDirty
      let _ ← query (.updateRecord stored old.version)
      query (.updateRecordDeletedState stored.id stored.deleted stored.deletedAt)
      replaceTags stored.id stored.tags

/-- The health state that came with the private metadata, or none. -/
def writeDownloadedHealth (id : Uuid) (r : CloudRecord) (m : Option CloudPrivateMetadata) :
    VaultM Unit :=
  match m with
  | none => pure ()
  | some m =>
      match m.health with
      | some health => query (.upsertRecordHealthState (health.toState id r.version))
      | none => do
          let _ ← query (.deleteRecordHealthState id)

/-- A ciphertext that cannot be indexed gets a row with the name of the private metadata, or
the plain one. -/
def fallbackName (r : CloudRecord) (m : Option CloudPrivateMetadata) : String :=
  match m with
  | some m => if m.name = "" then r.metadata.name else m.name
  | none => r.metadata.name

def indexDownloaded (stored : StoredRecord) (r : CloudRecord) (m : Option CloudPrivateMetadata) :
    VaultM Unit := do
  match ← Fallible.attempt (upsertRecordListIndexForStored v stored) with
  | .ok _ => pure ()
  | .error (.CryptoError _) => query (.upsertRecordListIndex stored.id (fallbackName r m) "")
  | .error e => throw e

/-- `apply_downloaded_cloud_record`; the answer says whether the record is new. -/
def applyDownloadedCloudRecord (r : CloudRecord) : VaultM Bool := do
  let id ← required (Uuid.parseStr r.id) (.CryptoError s!"invalid record id: {r.id}")
  let encryptedData ← crypto (decodeBase64 "encrypted_data" r.encryptedData)
  let nonce ← crypto (decodeNonce "nonce" "nonce" r.nonce)
  let existing : Option StoredRecord ← query (.getRecord id)
  let time ← now
  let m ← crypto (decryptCloudPrivateMetadata v r)
  let stored := downloadedRecord id r encryptedData nonce m existing time
  checked (validateTags stored.tags)
  if stored.deleted = false then
    let payload ← crypto (v.crypto.decryptPayload encryptedData nonce (recordAad id) r.dekVersion)
    checked (validatePayload payload)
  writeDownloaded stored existing
  writeDownloadedHealth id r m
  indexDownloaded v stored r m
  markRecordListIndexClean
  return existing.isNone

end Vault

end OakKeyring
