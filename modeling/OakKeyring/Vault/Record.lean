import OakKeyring.Cloud.Record
import OakKeyring.Vault.Service

/-!
# Record operations

Creating, editing, deleting and migrating records, the list index kept beside them, and the two
directions of sync: the upload form of a record and the application of a downloaded one.
-/

namespace OakKeyring

open Effect

structure CreateRecordParams where
  credentialType : CredentialType
  payload : EncryptedPayload
  isFavorite : Bool
  expiresAt : Option DateTime
  tags : List String
deriving DecidableEq, Repr

structure UpdateRecordParams where
  id : Uuid
  payload : EncryptedPayload
  isFavorite : Bool
  expiresAt : Option DateTime
  tags : List String
  expectedVersion : Nat
deriving DecidableEq, Repr

/-- Whether the password changed between two Login payloads. -/
def passwordChanged : EncryptedPayload → EncryptedPayload → Bool
  | .Login _ _ oldPassword _ _, .Login _ _ newPassword _ _ => decide (oldPassword ≠ newPassword)
  | _, _ => false

def expiresAtChanged (old new : Option DateTime) : Bool :=
  decide (old ≠ new)

def RECORD_LIST_INDEX_VERSION_KEY : String := "record_list_index_version"
def RECORD_LIST_INDEX_DIRTY_KEY : String := "record_list_index_dirty"
def RECORD_LIST_INDEX_VERSION : String := "1"

/-- The additional data of a record's ciphertext. -/
def recordAad (id : Uuid) : Bytes :=
  utf8 s!"record:{id.toText}"

namespace Vault

variable [Crypto] (v : VaultService)

def getStoredRecord (id : Uuid) : VaultM StoredRecord := do
  let found ← query (.getRecord id)
  required found (.RecordNotFound id)

/-! ## The list index -/

def markRecordListIndexDirty : VaultM Unit :=
  query (.setMetadata RECORD_LIST_INDEX_DIRTY_KEY "1")

def markRecordListIndexClean : VaultM Unit :=
  query (.setMetadata RECORD_LIST_INDEX_DIRTY_KEY "0")

def upsertRecordListIndexForPayload (id : Uuid) (payload : EncryptedPayload) : VaultM Unit :=
  query (.upsertRecordListIndex id payload.indexFields.1 payload.indexFields.2)

def upsertRecordListIndexForStored (record : StoredRecord) : VaultM Unit := do
  let name ← crypto (v.crypto.decryptNameOnly record.encryptedData record.nonce record.aad
    record.dekVersion)
  let subtitle ← crypto (v.crypto.decryptSubtitle record.encryptedData record.nonce record.aad
    record.credentialType record.dekVersion)
  query (.upsertRecordListIndex record.id name subtitle)

/-- Rebuilds the index unless it is marked as current and clean and has as many rows as there
are records. -/
def ensureRecordListIndex : VaultM Unit := do
  requireUnlocked v
  let version : Option String ← query (.getMetadata RECORD_LIST_INDEX_VERSION_KEY)
  let dirty : Option String ← query (.getMetadata RECORD_LIST_INDEX_DIRTY_KEY)
  let indexRows : Nat ← query .countRecordListIndex
  let recordRows : Nat ← query .countAllRecords
  if version = some RECORD_LIST_INDEX_VERSION ∧ dirty ≠ some "1" ∧ indexRows = recordRows then
    return ()
  else
    query .clearRecordListIndex
    let records ← query (.listRecords .all)
    List.forM records (upsertRecordListIndexForStored v)
    query (.setMetadata RECORD_LIST_INDEX_VERSION_KEY RECORD_LIST_INDEX_VERSION)
    markRecordListIndexClean

/-! ## Sync states -/

/-- Stops at the first record that cannot be marked. -/
def markRecordsPendingSync (ids : List Uuid) : VaultM Unit :=
  ids.forM fun id => do
    let time ← now
    query (.upsertSyncStatePending id (datetimeToTimestamp time))

def markRecordSynced (id : Uuid) : VaultM Unit := do
  let time ← now
  query (.markSyncStateSynced id (datetimeToTimestamp time))

def markRecordConflict (id : Uuid) (conflictData : Bytes) : VaultM Unit := do
  let time ← now
  query (.markSyncStateConflict id conflictData (datetimeToTimestamp time))

/-! ## Creating and editing -/

def createRecord (params : CreateRecordParams) : VaultM Uuid := do
  requireUnlocked v
  checked (validatePayload params.payload)
  checked (validateTags params.tags)
  let id ← newUuid
  let nonce ← newNonce
  let encryptedData ← crypto (v.crypto.encryptPayload params.payload (recordAad id) nonce)
  let time ← now
  let record : StoredRecord :=
    { id := id
      credentialType := params.credentialType
      encryptedData := encryptedData
      nonce := nonce
      dekVersion := v.crypto.currentDekVersion
      aad := recordAad id
      isFavorite := params.isFavorite
      expiresAt := params.expiresAt
      createdAt := time
      updatedAt := time
      updatedBy := v.deviceId
      version := 1
      deleted := false
      deletedAt := none
      tags := params.tags }
  markRecordListIndexDirty
  query (.insertRecord record)
  upsertRecordListIndexForPayload id params.payload
  markRecordListIndexClean
  query (.insertAuditEntry .RecordCreate (some id) (some params.payload.name) none)
  return id

/-- The entry that the inner `SELECT` gives first is deleted. -/
def deleteOldestPasswordHistory (id : Uuid) : VaultM Unit := do
  let oldest : List Nat ← query (.oldestPasswordHistory id)
  match oldest.head? with
  | some number => query (.deletePasswordHistoryEntry number)
  | none => return ()

/-- `_save_password_history`: at most ten entries are kept. -/
def savePasswordHistory (id : Uuid) (oldEncryptedData : Bytes) (oldNonce : Nonce)
    (oldDekVersion : Nat) : VaultM Unit := do
  let count : Nat ← query (.countPasswordHistory id)
  if 10 ≤ count then deleteOldestPasswordHistory id
  let time ← now
  query (.insertPasswordHistory
    { recordId := id
      encryptedPassword := oldEncryptedData
      nonce := oldNonce
      dekVersion := oldDekVersion
      changedAt := datetimeToTimestamp time })

/-- The tags of a record are replaced one by one. -/
def attachTags (id : Uuid) (tags : List String) : VaultM Unit :=
  tags.forM fun name => do
    let tag : Tag ← query (.getOrCreateTag name)
    query (.attachTag id tag.id)

def replaceTags (id : Uuid) (tags : List String) : VaultM Unit := do
  query (.detachAllTagsForRecord id)
  attachTags id tags

/-- The record that `update_record` writes. -/
def editedRecord (stored : StoredRecord) (params : UpdateRecordParams) (encryptedData : Bytes)
    (nonce : Nonce) (time : DateTime) : StoredRecord :=
  { stored with
    encryptedData := encryptedData
    nonce := nonce
    dekVersion := v.crypto.currentDekVersion
    aad := recordAad params.id
    isFavorite := params.isFavorite
    expiresAt := params.expiresAt
    updatedAt := time
    updatedBy := v.deviceId
    version := stored.version + 1
    tags := params.tags }

/-- The health state is dropped when the password or the expiry changed, and carried over to
the new version otherwise. -/
def carryHealthState (id : Uuid) (version : Nat) (stale : Bool) : VaultM Unit := do
  if stale then
    let _ ← query (.deleteRecordHealthState id)
  else
    let _ ← query (.copyRecordHealthStateVersion id version)

def updateRecord (params : UpdateRecordParams) : VaultM Unit := do
  requireUnlocked v
  let stored ← getStoredRecord params.id
  if stored.version ≠ params.expectedVersion then
    throw (.VersionConflict params.expectedVersion stored.version)
  checked (validatePayload params.payload)
  checked (validateTags params.tags)
  let oldPayload ← crypto (v.crypto.decryptPayload stored.encryptedData stored.nonce stored.aad
    stored.dekVersion)
  let pwChanged := passwordChanged oldPayload params.payload
  let expChanged := expiresAtChanged stored.expiresAt params.expiresAt
  if stored.credentialType = .Login ∧ pwChanged then
    savePasswordHistory params.id stored.encryptedData stored.nonce stored.dekVersion
  let nonce ← newNonce
  let encryptedData ← crypto (v.crypto.encryptPayload params.payload (recordAad params.id) nonce)
  let time ← now
  markRecordListIndexDirty
  let updated : Bool ← query
    (.updateRecord (editedRecord v stored params encryptedData nonce time) params.expectedVersion)
  if updated = false then
    throw (.VersionConflict params.expectedVersion stored.version)
  replaceTags params.id params.tags
  upsertRecordListIndexForPayload params.id params.payload
  markRecordListIndexClean
  carryHealthState params.id (stored.version + 1) (pwChanged || expChanged)
  query (.insertAuditEntry .RecordUpdate (some params.id) (some params.payload.name) none)
  markRecordsPendingSync [params.id]

/-! ## Deleting and restoring -/

/-- The name for the audit log. -/
def decryptRecordName (record : StoredRecord) : VaultM String := do
  let payload ← crypto (v.crypto.decryptPayload record.encryptedData record.nonce record.aad
    record.dekVersion)
  return payload.name

def softDeleteRecord (id : Uuid) : VaultM Unit := do
  requireUnlocked v
  let stored ← getStoredRecord id
  let recordName ← decryptRecordName v stored
  let time ← now
  query (.softDeleteRecord id (datetimeToTimestamp time))
  let _ ← query (.deleteRecordHealthState id)
  query (.insertAuditEntry .RecordDelete (some id) (some recordName) none)
  markRecordsPendingSync [id]

def restoreRecord (id : Uuid) : VaultM Unit := do
  requireUnlocked v
  let stored ← getStoredRecord id
  let recordName ← decryptRecordName v stored
  query (.restoreRecord id)
  query (.insertAuditEntry .RecordRestore (some id) (some recordName) none)
  markRecordsPendingSync [id]

def hardDeleteRecord (id : Uuid) : VaultM Unit := do
  requireUnlocked v
  let stored ← getStoredRecord id
  let recordName ← decryptRecordName v stored
  query (.hardDeleteRecord id)
  let _ ← query (.deleteRecordHealthState id)
  query (.insertAuditEntry .RecordDestroy (some id) (some recordName) none)

def toggleFavorite (id : Uuid) (isFavorite : Bool) : VaultM Unit := do
  requireUnlocked v
  let _ ← getStoredRecord id
  query (.setFavorite id isFavorite)
  markRecordsPendingSync [id]

/-! ## Key migration -/

def listRecordsForMigration (targetDekVersion : Nat) : VaultM (List StoredRecord) :=
  query (.listRecords (.dekVersionBelow targetDekVersion))

/-- The record under the key that is current for the crypto manager. -/
def reEncrypted (record : StoredRecord) (encryptedData : Bytes) (nonce : Nonce)
    (time : DateTime) : StoredRecord :=
  { record with
    encryptedData := encryptedData
    nonce := nonce
    dekVersion := v.crypto.currentDekVersion
    updatedAt := time
    version := record.version + 1 }

def reEncryptRecord (id : Uuid) (oldDekVersion : Nat) : VaultM Unit := do
  let record ← getStoredRecord id
  let plaintext ← crypto (v.crypto.decrypt record.encryptedData record.nonce record.aad
    oldDekVersion)
  let nonce ← newNonce
  let encryptedData ← crypto (v.crypto.encrypt plaintext record.aad nonce)
  let time ← now
  let updated : Bool ← query
    (.updateRecord (reEncrypted v record encryptedData nonce time) record.version)
  if updated = false then
    throw (.VersionConflict record.version record.version)

end Vault

end OakKeyring
