import OakKeyring.Types.Record
import Mathlib.Data.List.AList

/-!
# The tables of the vault database

Every table is keyed as its primary key says. Instants are stored as whole seconds. A row that
refers to a record is refused while the record does not exist, and goes with it (`ON DELETE
CASCADE`). No statement on these tables reads the audit log, which is a table apart (`Db.Audit`).
-/

namespace OakKeyring

def datetimeToTimestamp (t : DateTime) : Int :=
  t.seconds

def timestampToDatetime (ts : Int) : DateTime where
  seconds := ts
  nanos := 0

/-- A row of `records`. -/
structure RecordRow where
  credentialType : CredentialType
  encryptedData : Bytes
  nonce : Nonce
  dekVersion : Nat
  aad : Bytes
  isFavorite : Bool
  expiresAt : Option Int
  createdAt : Int
  updatedAt : Int
  updatedBy : String
  version : Nat
  deleted : Bool
  deletedAt : Option Int
deriving DecidableEq, Repr

/-- A row of `sync_state`. -/
structure SyncRow where
  cloudUpdatedAt : Option Int
  localUpdatedAt : Int
  syncStatus : SyncStatus
  conflictData : Option Bytes
deriving DecidableEq, Repr

/-- A row of `record_health_state`. -/
structure HealthRow where
  recordVersion : Nat
  evaluatedAt : Option Int
  weakPassword : Option Bool
  duplicateGroupSize : Option Nat
  compromised : Option Bool
  expired : Option Bool
deriving DecidableEq, Repr

/-- A row of `record_list_index`; the search text and the sort key are made from the two. -/
structure IndexRow where
  name : String
  subtitle : String
deriving DecidableEq, Repr

/-- A row of `password_history`, apart from its number. -/
structure HistoryRow where
  recordId : Uuid
  encryptedPassword : Bytes
  nonce : Nonce
  dekVersion : Nat
  changedAt : Int
deriving DecidableEq, Repr

structure Tag where
  id : Nat
  name : String
deriving DecidableEq, Repr

structure Tables where
  records : AList fun _ : Uuid => RecordRow
  tags : AList fun _ : Nat => String
  lastTagId : Nat
  recordTags : List (Uuid × Nat)
  /-- by their numbers -/
  passwordHistory : List (Nat × HistoryRow)
  lastHistoryId : Nat
  syncState : AList fun _ : Uuid => SyncRow
  metadata : AList fun _ : String => String
  healthState : AList fun _ : Uuid => HealthRow
  listIndex : AList fun _ : Uuid => IndexRow
deriving DecidableEq

/-- What is chosen when a vault is created. -/
structure VaultSeed where
  vaultId : String
  deviceId : String
  createdAt : Nat
deriving DecidableEq, Repr

/-- The metadata after the migrations: what `seed` writes, under the latest schema version. -/
def VaultSeed.metadata (seed : VaultSeed) : AList fun _ : String => String :=
  [("schema_version", "2"), ("vault_id", seed.vaultId), ("device_id", seed.deviceId),
    ("created_at", toString seed.createdAt), ("current_dek_version", "1")].foldl
    (fun metadata entry => metadata.insert entry.1 entry.2) ∅

/-- The tables of a new vault. -/
def Tables.fresh (seed : VaultSeed) : Tables where
  records := ∅
  tags := ∅
  lastTagId := 0
  recordTags := []
  passwordHistory := []
  lastHistoryId := 0
  syncState := ∅
  metadata := seed.metadata
  healthState := ∅
  listIndex := ∅

/-- `RecordRow` as the `INSERT` and `UPDATE` statements write it. -/
def StoredRecord.toRow (record : StoredRecord) : RecordRow where
  credentialType := record.credentialType
  encryptedData := record.encryptedData
  nonce := record.nonce
  dekVersion := record.dekVersion
  aad := record.aad
  isFavorite := record.isFavorite
  expiresAt := record.expiresAt.map datetimeToTimestamp
  createdAt := datetimeToTimestamp record.createdAt
  updatedAt := datetimeToTimestamp record.updatedAt
  updatedBy := record.updatedBy
  version := record.version
  deleted := record.deleted
  deletedAt := record.deletedAt.map datetimeToTimestamp

/-- `RecordRow::to_stored_record`. -/
def RecordRow.toStoredRecord (row : RecordRow) (id : Uuid) (tags : List String) :
    StoredRecord where
  id := id
  credentialType := row.credentialType
  encryptedData := row.encryptedData
  nonce := row.nonce
  dekVersion := row.dekVersion
  aad := row.aad
  isFavorite := row.isFavorite
  expiresAt := row.expiresAt.map timestampToDatetime
  createdAt := timestampToDatetime row.createdAt
  updatedAt := timestampToDatetime row.updatedAt
  updatedBy := row.updatedBy
  version := row.version
  deleted := row.deleted
  deletedAt := row.deletedAt.map timestampToDatetime
  tags := tags

def RecordHealthState.toRow (state : RecordHealthState) : HealthRow where
  recordVersion := state.recordVersion
  evaluatedAt := state.evaluatedAt.map datetimeToTimestamp
  weakPassword := state.weakPassword
  duplicateGroupSize := state.duplicateGroupSize
  compromised := state.compromised
  expired := state.expired

/-- `RecordHealthStateRow::to_health_state`. -/
def HealthRow.toHealthState (row : HealthRow) (id : Uuid) : RecordHealthState where
  recordId := id
  recordVersion := row.recordVersion
  evaluatedAt := row.evaluatedAt.map timestampToDatetime
  weakPassword := row.weakPassword
  duplicateGroupSize := row.duplicateGroupSize
  compromised := row.compromised
  expired := row.expired

def SyncRow.toSyncState (row : SyncRow) (id : Uuid) : SyncStateRow where
  recordId := id
  cloudUpdatedAt := row.cloudUpdatedAt.map timestampToDatetime
  localUpdatedAt := timestampToDatetime row.localUpdatedAt
  syncStatus := row.syncStatus
  conflictData := row.conflictData

namespace Tables

/-- The names of a record's tags. -/
def tagsOf (t : Tables) (id : Uuid) : List String :=
  t.recordTags.filterMap fun link => if link.1 = id then t.tags.lookup link.2 else none

def storedRecord (t : Tables) (id : Uuid) : Option StoredRecord :=
  (t.records.lookup id).map fun row => row.toStoredRecord id (t.tagsOf id)

/-- All rows of `records`, as a full scan meets them. -/
def storedRecords (t : Tables) : List StoredRecord :=
  t.records.entries.map fun e => e.2.toStoredRecord e.1 (t.tagsOf e.1)

def tagByName (t : Tables) (name : String) : Option Tag :=
  (t.tags.entries.find? fun e => e.2 == name).map fun e => { id := e.1, name := e.2 }

/-- `UPDATE records SET .. WHERE id = ?`. -/
def updateRow (t : Tables) (id : Uuid) (f : RecordRow → RecordRow) : Tables :=
  match t.records.lookup id with
  | some row => { t with records := t.records.insert id (f row) }
  | none => t

/-- `DELETE FROM records WHERE id = ?`, with everything that refers to the record. -/
def deleteRow (t : Tables) (id : Uuid) : Tables :=
  { t with
    records := t.records.erase id
    recordTags := t.recordTags.filter fun link => link.1 ≠ id
    passwordHistory := t.passwordHistory.filter fun entry => entry.2.recordId ≠ id
    syncState := t.syncState.erase id
    healthState := t.healthState.erase id
    listIndex := t.listIndex.erase id }

instance lawfulLink : LawfulBEq (Uuid × Nat) :=
  inferInstance

/-- `INSERT OR IGNORE INTO record_tags`. -/
def link (t : Tables) (id : Uuid) (tagId : Nat) : Tables :=
  if (id, tagId) ∈ t.recordTags then t
  else { t with recordTags := t.recordTags ++ [(id, tagId)] }

/-- A new row of `password_history`. -/
def addHistory (t : Tables) (entry : HistoryRow) : Tables :=
  { t with
    passwordHistory := t.passwordHistory ++ [(t.lastHistoryId + 1, entry)]
    lastHistoryId := t.lastHistoryId + 1 }

/-- A new row of `tags`. -/
def addTag (t : Tables) (name : String) : Tables :=
  { t with
    tags := t.tags.insert (t.lastTagId + 1) name
    lastTagId := t.lastTagId + 1 }

end Tables

end OakKeyring
