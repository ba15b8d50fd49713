import OakKeyring.Db.Tables
import OakKeyring.Lib.Wp
import Mathlib.Data.List.MinMax
import Mathlib.Data.List.Dedup

/-!
# Queries and statements

One operation for each query function of the database layer, with what it returns and what it
does to the tables. A function that runs in a transaction of its own is one operation. Every
operation can also fail, and then leaves the tables as they were.
-/

namespace OakKeyring

open Effect

structure SqliteError where
  message : String
deriving DecidableEq, Repr

/-- SQLite takes a text up to the first NUL where it measures or matches it. -/
def untilNul (s : String) : List Char :=
  s.toList.takeWhile fun c => c ≠ '\x00'

/-- `length(text)` -/
def sqlLength (s : String) : Nat :=
  (untilNul s).length

inductive AuditOperation
  | RecordCreate
  | RecordUpdate
  | RecordDelete
  | RecordRestore
  | RecordDestroy
  | RecordViewPassword
  | RecordCopyPassword
  | RecordCopyField
  | VaultUnlock
  | VaultLock
  | VaultExport
  | VaultImport
  | MasterPasswordChange
  | TrashEmpty
  | SyncConflictResolved
  | SyncBatchConflictsResolved
  | DekRotated
  | DekRotationFailed
  | SshSign
deriving DecidableEq, Repr

/-- Which rows of `records` a listing is about. -/
inductive RecordQuery
  | all
  | active
  | deleted
  | dekVersionBelow (target : Nat)
deriving DecidableEq, Repr

def RecordQuery.selects : RecordQuery → StoredRecord → Bool
  | all, _ => true
  | active, record => !record.deleted
  | deleted, record => record.deleted
  | dekVersionBelow target, record => decide (record.dekVersion < target)

inductive DbOp
  | getRecord (id : Uuid)
  | insertRecord (record : StoredRecord)
  | updateRecord (record : StoredRecord) (expectedVersion : Nat)
  | updateRecordVersion (id : Uuid) (version : Nat)
  | updateRecordDeletedState (id : Uuid) (deleted : Bool) (deletedAt : Option DateTime)
  | setFavorite (id : Uuid) (isFavorite : Bool)
  | softDeleteRecord (id : Uuid) (now : Int)
  | restoreRecord (id : Uuid)
  | hardDeleteRecord (id : Uuid)
  | batchSoftDeleteRecords (ids : List Uuid) (deletedBy : String) (now : Int)
  | batchRestoreRecords (ids : List Uuid)
  | batchHardDeleteRecords (ids : List Uuid)
  | listRecords (query : RecordQuery)
  | countAllRecords
  | upsertRecordListIndex (id : Uuid) (name subtitle : String)
  | clearRecordListIndex
  | countRecordListIndex
  | getOrCreateTag (name : String)
  | getTagByName (name : String)
  | attachTag (id : Uuid) (tagId : Nat)
  | detachAllTagsForRecord (id : Uuid)
  | renameTag (oldName newName : String)
  | deleteTagByName (name : String)
  | recordIdsForTag (name : String)
  | batchAddTag (ids : List Uuid) (name : String)
  | batchRemoveTag (ids : List Uuid) (name : String)
  | upsertSyncStatePending (id : Uuid) (now : Int)
  | markSyncStateSynced (id : Uuid) (now : Int)
  | markSyncStateConflict (id : Uuid) (conflictData : Bytes) (now : Int)
  | loadSyncStates
  | getMetadata (key : String)
  | setMetadata (key value : String)
  | deleteMetadata (key : String)
  | getRecordHealthState (id : Uuid)
  | listRecordHealthStates
  | upsertRecordHealthState (state : RecordHealthState)
  | replaceRecordHealthStates (states : List RecordHealthState)
  | deleteRecordHealthState (id : Uuid)
  | deleteRecordHealthStates (ids : List Uuid)
  | copyRecordHealthStateVersion (id : Uuid) (version : Nat)
  | countPasswordHistory (id : Uuid)
  | oldestPasswordHistory (id : Uuid)
  | deletePasswordHistoryEntry (number : Nat)
  | insertPasswordHistory (entry : HistoryRow)
  | insertAuditEntry (operation : AuditOperation) (recordId : Option Uuid)
      (recordName detail : Option String)

def DbOp.Result : DbOp → Type
  | getRecord _ => Option StoredRecord
  | updateRecord _ _ => Bool
  | batchSoftDeleteRecords _ _ _ => Nat
  | batchRestoreRecords _ => Nat
  | batchHardDeleteRecords _ => Nat
  | listRecords _ => List StoredRecord
  | countAllRecords => Nat
  | countRecordListIndex => Nat
  | getOrCreateTag _ => Tag
  | getTagByName _ => Option Tag
  | renameTag _ _ => Bool
  | deleteTagByName _ => Bool
  | recordIdsForTag _ => List Uuid
  | batchAddTag _ _ => Nat
  | batchRemoveTag _ _ => Option Nat
  | loadSyncStates => List SyncStateRow
  | getMetadata _ => Option String
  | deleteMetadata _ => Bool
  | getRecordHealthState _ => Option RecordHealthState
  | listRecordHealthStates => List RecordHealthState
  | deleteRecordHealthState _ => Bool
  | deleteRecordHealthStates _ => Nat
  | copyRecordHealthStateVersion _ _ => Bool
  | countPasswordHistory _ => Nat
  | oldestPasswordHistory _ => List Nat
  | _ => Unit

namespace Tables

def foreignKeyFailed : SqliteError where
  message := "FOREIGN KEY constraint failed"

def uniqueFailed (column : String) : SqliteError where
  message := s!"UNIQUE constraint failed: {column}"

def checkFailed (constraint : String) : SqliteError where
  message := s!"CHECK constraint failed: {constraint}"

def noRows : SqliteError where
  message := "Query returned no rows"

/-- The `CHECK` on the name of a tag. -/
def checkName (name : String) : Bool :=
  sqlLength name ≤ 50

/-- A row that refers to a record that exists. -/
def referring {α : Type} (t : Tables) (id : Uuid) (a : α) : Except SqliteError α :=
  if id ∈ t.records then .ok a else .error foreignKeyFailed

def attachTag (t : Tables) (id : Uuid) (tagId : Nat) : Except SqliteError Tables :=
  if (id, tagId) ∈ t.recordTags then .ok t
  else if id ∈ t.records ∧ tagId ∈ t.tags then .ok (t.link id tagId)
  else .error foreignKeyFailed

def getOrCreateTag (t : Tables) (name : String) : Except SqliteError (Tag × Tables) :=
  match t.tagByName name with
  | some tag => .ok (tag, t)
  | none =>
      if checkName name then .ok ({ id := t.lastTagId + 1, name := name }, t.addTag name)
      else .error (checkFailed "length(name) <= 50")

/-- `INSERT OR IGNORE INTO tags`, then the tag's id, then the link. -/
def insertRecordTag (id : Uuid) (t : Tables) (name : String) : Except SqliteError Tables :=
  match t.tagByName name with
  | some tag => .ok (t.link id tag.id)
  | none =>
      if checkName name then .ok ((t.addTag name).link id (t.lastTagId + 1))
      else .error noRows

def insertRecord (t : Tables) (record : StoredRecord) : Except SqliteError Tables :=
  if record.id ∈ t.records then .error (uniqueFailed "records.id")
  else
    record.tags.foldlM (insertRecordTag record.id)
      { t with records := t.records.insert record.id record.toRow }

/-- The columns that `update_record` writes. -/
def updatedRow (record : StoredRecord) (row : RecordRow) : RecordRow :=
  { record.toRow with
    credentialType := row.credentialType
    createdAt := row.createdAt
    deleted := row.deleted
    deletedAt := row.deletedAt }

def updateRecord (t : Tables) (record : StoredRecord) (expectedVersion : Nat) : Bool × Tables :=
  match t.records.lookup record.id with
  | some row =>
      if row.version = expectedVersion then (true, t.updateRow record.id (updatedRow record))
      else (false, t)
  | none => (false, t)

/-- `UPDATE records SET .. WHERE id IN (..) AND ..`, with the number of rows it changes. -/
def updateRows (t : Tables) (ids : List Uuid) (selects : RecordRow → Bool)
    (f : RecordRow → RecordRow) : Nat × Tables :=
  let hit := ids.dedup.filter fun id => (t.records.lookup id).any selects
  (hit.length, hit.foldl (fun t id => t.updateRow id f) t)

def deleteRows (t : Tables) (ids : List Uuid) (selects : RecordRow → Bool) : Nat × Tables :=
  let hit := ids.dedup.filter fun id => (t.records.lookup id).any selects
  (hit.length, hit.foldl deleteRow t)

def renameTag (t : Tables) (oldName newName : String) : Except SqliteError (Bool × Tables) :=
  match t.tagByName oldName with
  | none => .ok (false, t)
  | some tag =>
      if !checkName newName then .error (checkFailed "length(name) <= 50")
      else if (t.tagByName newName).any fun other => decide (other.id ≠ tag.id) then
        .error (uniqueFailed "tags.name")
      else .ok (true, { t with tags := t.tags.insert tag.id newName })

/-- `DELETE FROM tags WHERE id = ?`, with the links to the tag. -/
def deleteTag (t : Tables) (tagId : Nat) : Tables :=
  { t with
    tags := t.tags.erase tagId
    recordTags := t.recordTags.filter fun link => link.2 ≠ tagId }

def deleteTagByName (t : Tables) (name : String) : Bool × Tables :=
  match t.tagByName name with
  | none => (false, t)
  | some tag => (true, t.deleteTag tag.id)

def recordIdsForTag (t : Tables) (name : String) : List Uuid :=
  match t.tagByName name with
  | none => []
  | some tag => (t.recordTags.filter fun link => link.2 = tag.id).map Prod.fst

def countRecordTags (t : Tables) (id : Uuid) : Nat :=
  (t.recordTags.filter fun link => link.1 = id).length

/-- The transaction of `batch_add_tag`. -/
def batchAddTag (t : Tables) (ids : List Uuid) (name : String) :
    Except SqliteError (Nat × Tables) := do
  let (tag, t) ← t.getOrCreateTag name
  ids.foldlM
    (fun (added, t) id => do
      let after ← t.attachTag id tag.id
      let more := if t.countRecordTags id < after.countRecordTags id then 1 else 0
      return (added + more, after))
    (0, t)

/-- The transaction of `batch_remove_tag`; there is no result when the tag does not exist. -/
def batchRemoveTag (t : Tables) (ids : List Uuid) (name : String) : Option Nat × Tables :=
  match t.tagByName name with
  | none => (none, t)
  | some tag =>
      let (removed, t) := ids.foldl
        (fun (removed, t) id =>
          let after := { t with recordTags := t.recordTags.filter fun l => l ≠ (id, tag.id) }
          let less := if after.countRecordTags id < t.countRecordTags id then 1 else 0
          (removed + less, after))
        (0, t)
      let remaining := t.recordTags.filter fun link => link.2 = tag.id
      (some removed, if remaining = [] then t.deleteTag tag.id else t)

def upsertSyncState (t : Tables) (id : Uuid) (f : Option SyncRow → SyncRow) :
    Except SqliteError Tables :=
  t.referring id { t with syncState := t.syncState.insert id (f (t.syncState.lookup id)) }

def upsertHealth (t : Tables) (state : RecordHealthState) : Except SqliteError Tables :=
  t.referring state.recordId
    { t with healthState := t.healthState.insert state.recordId state.toRow }

def insertHealth (t : Tables) (state : RecordHealthState) : Except SqliteError Tables :=
  if state.recordId ∈ t.healthState then
    .error (uniqueFailed "record_health_state.record_id")
  else t.upsertHealth state

/-- The history of a record. -/
def historyOf (t : Tables) (id : Uuid) : List (Nat × HistoryRow) :=
  t.passwordHistory.filter fun entry => entry.2.recordId = id

/-- The entries of the least second, of which `ORDER BY changed_at ASC` may give any one first. -/
def oldestHistory (t : Tables) (id : Uuid) : List (Nat × HistoryRow) :=
  (t.historyOf id).filter fun entry =>
    (t.historyOf id).all fun other => decide (entry.2.changedAt ≤ other.2.changedAt)

end Tables

/-- What an operation returns and leaves behind when no fault prevents it. -/
def DbOp.run : (op : DbOp) → Tables → Except SqliteError (op.Result × Tables)
  | getRecord id, t => .ok (t.storedRecord id, t)
  | insertRecord record, t => do
      let t ← t.insertRecord record
      return ((), t)
  | updateRecord record expectedVersion, t => .ok (t.updateRecord record expectedVersion)
  | updateRecordVersion id version, t =>
      .ok ((), t.updateRow id fun row => { row with version := version })
  | updateRecordDeletedState id deleted deletedAt, t =>
      .ok ((), t.updateRow id fun row =>
        { row with
          deleted := deleted
          deletedAt := deletedAt.map datetimeToTimestamp })
  | setFavorite id isFavorite, t =>
      .ok ((), t.updateRow id fun row => { row with isFavorite := isFavorite })
  | softDeleteRecord id now, t =>
      .ok ((), t.updateRow id fun row =>
        { row with
          deleted := true
          deletedAt := some now })
  | restoreRecord id, t =>
      .ok ((), t.updateRow id fun row =>
        { row with
          deleted := false
          deletedAt := none })
  | hardDeleteRecord id, t => .ok ((), t.deleteRow id)
  | batchSoftDeleteRecords ids deletedBy now, t =>
      .ok (t.updateRows ids (fun _ => true) fun row =>
        { row with
          deleted := true
          deletedAt := some now
          updatedBy := deletedBy })
  | batchRestoreRecords ids, t =>
      .ok (t.updateRows ids RecordRow.deleted fun row =>
        { row with
          deleted := false
          deletedAt := none })
  | batchHardDeleteRecords ids, t => .ok (t.deleteRows ids RecordRow.deleted)
  | listRecords query, t => .ok (t.storedRecords.filter query.selects, t)
  | countAllRecords, t => .ok (t.records.entries.length, t)
  | upsertRecordListIndex id name subtitle, t => do
      let t ← t.referring id
        { t with
          listIndex := t.listIndex.insert id { name := name, subtitle := subtitle } }
      return ((), t)
  | clearRecordListIndex, t => .ok ((), { t with listIndex := ∅ })
  | countRecordListIndex, t => .ok (t.listIndex.entries.length, t)
  | getOrCreateTag name, t => t.getOrCreateTag name
  | getTagByName name, t => .ok (t.tagByName name, t)
  | attachTag id tagId, t => do
      let t ← t.attachTag id tagId
      return ((), t)
  | detachAllTagsForRecord id, t =>
      .ok ((), { t with recordTags := t.recordTags.filter fun link => link.1 ≠ id })
  | renameTag oldName newName, t => t.renameTag oldName newName
  | deleteTagByName name, t => .ok (t.deleteTagByName name)
  | recordIdsForTag name, t => .ok (t.recordIdsForTag name, t)
  | batchAddTag ids name, t => t.batchAddTag ids name
  | batchRemoveTag ids name, t => .ok (t.batchRemoveTag ids name)
  | upsertSyncStatePending id now, t => do
      let t ← t.upsertSyncState id fun row =>
        { cloudUpdatedAt := row.bind SyncRow.cloudUpdatedAt
          localUpdatedAt := now
          syncStatus := .Pending
          conflictData := row.bind SyncRow.conflictData }
      return ((), t)
  | markSyncStateSynced id now, t => do
      let t ← t.upsertSyncState id fun _ =>
        { cloudUpdatedAt := some now
          localUpdatedAt := now
          syncStatus := .Synced
          conflictData := none }
      return ((), t)
  | markSyncStateConflict id conflictData now, t => do
      let t ← t.upsertSyncState id fun row =>
        { cloudUpdatedAt := row.bind SyncRow.cloudUpdatedAt
          localUpdatedAt := now
          syncStatus := .Conflict
          conflictData := some conflictData }
      return ((), t)
  | loadSyncStates, t => .ok (t.syncState.entries.map fun e => e.2.toSyncState e.1, t)
  | getMetadata key, t => .ok (t.metadata.lookup key, t)
  | setMetadata key value, t => .ok ((), { t with metadata := t.metadata.insert key value })
  | deleteMetadata key, t =>
      .ok (decide (key ∈ t.metadata), { t with metadata := t.metadata.erase key })
  | getRecordHealthState id, t =>
      .ok ((t.healthState.lookup id).map fun row => row.toHealthState id, t)
  | listRecordHealthStates, t =>
      .ok (t.healthState.entries.map fun e => e.2.toHealthState e.1, t)
  | upsertRecordHealthState state, t => do
      let t ← t.upsertHealth state
      return ((), t)
  | replaceRecordHealthStates states, t => do
      let t ← states.foldlM Tables.insertHealth { t with healthState := ∅ }
      return ((), t)
  | deleteRecordHealthState id, t =>
      .ok (decide (id ∈ t.healthState), { t with healthState := t.healthState.erase id })
  | deleteRecordHealthStates ids, t =>
      let hit := ids.dedup.filter fun id => decide (id ∈ t.healthState)
      .ok (hit.length, { t with healthState := hit.foldl (fun h id => h.erase id) t.healthState })
  | copyRecordHealthStateVersion id version, t =>
      match t.healthState.lookup id with
      | none => .ok (false, t)
      | some row =>
          .ok (true,
            { t with healthState := t.healthState.insert id { row with recordVersion := version } })
  | countPasswordHistory id, t =>
      .ok ((t.historyOf id).length, t)
  | oldestPasswordHistory id, t =>
      .ok ((t.oldestHistory id).map Prod.fst, t)
  | deletePasswordHistoryEntry number, t =>
      .ok ((), { t with
        passwordHistory := t.passwordHistory.filter fun entry => entry.1 ≠ number })
  | insertPasswordHistory entry, t => do
      let t ← t.referring entry.recordId (t.addHistory entry)
      return ((), t)
  | insertAuditEntry _ _ _ _, t => .ok ((), t)

/-- The answers that stand for one another: SQL leaves the order of the rows open, and
`load_sync_states` passes over rows that it cannot read. -/
def DbOp.Same : (op : DbOp) → op.Result → op.Result → Prop
  | listRecords _, expected, rows => rows.Perm expected
  | loadSyncStates, expected, rows => rows.Subperm expected
  | listRecordHealthStates, expected, rows => rows.Perm expected
  | recordIdsForTag _, expected, ids => ids.Perm expected
  | oldestPasswordHistory _, expected, numbers => numbers.Perm expected
  | _, expected, answer => answer = expected

theorem DbOp.Same.refl (op : DbOp) (result : op.Result) : op.Same result result := by
  cases op with
  | listRecords query => exact List.Perm.refl _
  | loadSyncStates => exact List.Subperm.refl _
  | listRecordHealthStates => exact List.Perm.refl _
  | recordIdsForTag name => exact List.Perm.refl _
  | oldestPasswordHistory id => exact List.Perm.refl _
  | _ => rfl

end OakKeyring
