import OakKeyring.Db.Pages

/-!
# The audit log

A row of the log has a number and the second it was written in. A page of it is one `SELECT` in
descending order of the seconds; rows of one second are in no order.
-/

namespace OakKeyring

open Paging

namespace AuditOperation

def toDbStr : AuditOperation → String
  | RecordCreate => "record.create"
  | RecordUpdate => "record.update"
  | RecordDelete => "record.delete"
  | RecordRestore => "record.restore"
  | RecordDestroy => "record.destroy"
  | RecordViewPassword => "record.view_password"
  | RecordCopyPassword => "record.copy_password"
  | RecordCopyField => "record.copy_field"
  | VaultUnlock => "vault.unlock"
  | VaultLock => "vault.lock"
  | VaultExport => "vault.export"
  | VaultImport => "vault.import"
  | MasterPasswordChange => "master_password.change"
  | TrashEmpty => "trash.empty"
  | SyncConflictResolved => "sync.conflict_resolved"
  | SyncBatchConflictsResolved => "sync.batch_conflicts_resolved"
  | DekRotated => "dek.rotated"
  | DekRotationFailed => "dek.rotation_failed"
  | SshSign => "ssh.sign"

def fromDbStr (s : String) : Except DataError AuditOperation :=
  match s with
  | "record.create" => .ok RecordCreate
  | "record.update" => .ok RecordUpdate
  | "record.delete" => .ok RecordDelete
  | "record.restore" => .ok RecordRestore
  | "record.destroy" => .ok RecordDestroy
  | "record.view_password" => .ok RecordViewPassword
  | "record.copy_password" => .ok RecordCopyPassword
  | "record.copy_field" => .ok RecordCopyField
  | "vault.unlock" => .ok VaultUnlock
  | "vault.lock" => .ok VaultLock
  | "vault.export" => .ok VaultExport
  | "vault.import" => .ok VaultImport
  | "master_password.change" => .ok MasterPasswordChange
  | "trash.empty" => .ok TrashEmpty
  | "sync.conflict_resolved" => .ok SyncConflictResolved
  | "sync.batch_conflicts_resolved" => .ok SyncBatchConflictsResolved
  | "dek.rotated" => .ok DekRotated
  | "dek.rotation_failed" => .ok DekRotationFailed
  | "ssh.sign" => .ok SshSign
  | _ => .error (.InvalidAuditOperation s)

@[simp] theorem fromDbStr_toDbStr (operation : AuditOperation) :
    fromDbStr operation.toDbStr = .ok operation := by
  cases operation <;> rfl

@[simp] theorem toDbStr_inj {a b : AuditOperation} : a.toDbStr = b.toDbStr ↔ a = b := by
  constructor
  · intro h
    have hread : fromDbStr a.toDbStr = fromDbStr b.toDbStr := congrArg fromDbStr h
    simpa using hread
  · exact congrArg toDbStr

end AuditOperation

/-! ## Rows and entries -/

structure AuditEntry where
  id : Nat
  operation : AuditOperation
  recordId : Option Uuid
  recordName : Option String
  detail : Option String
  occurredAt : DateTime
deriving DecidableEq, Repr

structure AuditLogRow where
  id : Nat
  operation : String
  recordId : Option String
  recordName : Option String
  detail : Option String
  occurredAt : Int
deriving DecidableEq, Repr

def AuditLogRow.toAuditEntry (row : AuditLogRow) : Except DataError AuditEntry := do
  let operation ← AuditOperation.fromDbStr row.operation
  let recordId ←
    match row.recordId with
    | none => .ok none
    | some s =>
        match Uuid.parseStr s with
        | some id => .ok (some id)
        | none => .error (.InvalidUuid s)
  return {
    id := row.id
    operation := operation
    recordId := recordId
    recordName := row.recordName
    detail := row.detail
    occurredAt := timestampToDatetime row.occurredAt }

/-- The row of an entry. -/
def AuditEntry.toRow (entry : AuditEntry) : AuditLogRow where
  id := entry.id
  operation := entry.operation.toDbStr
  recordId := entry.recordId.map Uuid.toText
  recordName := entry.recordName
  detail := entry.detail
  occurredAt := datetimeToTimestamp entry.occurredAt

/-- An entry of whole seconds is read back from its row. -/
theorem AuditEntry.toAuditEntry_toRow {entry : AuditEntry} (h : entry.occurredAt.nanos = 0) :
    entry.toRow.toAuditEntry = .ok entry := by
  rcases entry with ⟨id, operation, recordId, recordName, detail, seconds, nanos⟩
  cases h
  unfold AuditLogRow.toAuditEntry
  cases recordId with
  | none =>
      simp only [toRow, AuditOperation.fromDbStr_toDbStr, Option.map_none]
      rfl
  | some recordId =>
      simp only [toRow, AuditOperation.fromDbStr_toDbStr, Option.map_some, Uuid.parseStr_toText]
      rfl

/-- The table `audit_log` with the last number it gave. -/
structure AuditLog where
  rows : List AuditLogRow
  lastId : Nat
deriving DecidableEq, Repr

/-- A call of `insert_audit_entry` and the time it reads. -/
structure Insertion where
  now : DateTime
  operation : AuditOperation
  recordId : Option Uuid
  recordName : Option String
  detail : Option String
deriving DecidableEq, Repr

def AuditLog.insertAuditEntry (log : AuditLog) (insertion : Insertion) : AuditLog where
  rows := log.rows ++ [{
    id := log.lastId + 1
    operation := insertion.operation.toDbStr
    recordId := insertion.recordId.map Uuid.toText
    recordName := insertion.recordName
    detail := insertion.detail
    occurredAt := datetimeToTimestamp insertion.now }]
  lastId := log.lastId + 1

/-- The log after some insertions. -/
def AuditLog.after (insertions : List Insertion) : AuditLog :=
  insertions.foldl AuditLog.insertAuditEntry { rows := [], lastId := 0 }

/-- What an insertion records, under the number it gets. -/
def Insertion.entry (id : Nat) (insertion : Insertion) : AuditEntry where
  id := id
  operation := insertion.operation
  recordId := insertion.recordId
  recordName := insertion.recordName
  detail := insertion.detail
  occurredAt := timestampToDatetime (datetimeToTimestamp insertion.now)

/-- The entries of some insertions, the earliest first. -/
def insertedEntries (insertions : List Insertion) : List AuditEntry :=
  insertions.mapIdx fun i insertion => insertion.entry (i + 1)

/-- The clock never goes back. -/
def ClockForward (insertions : List Insertion) : Prop :=
  insertions.Pairwise fun a b => a.now.seconds ≤ b.now.seconds

section Inserted

variable {insertions : List Insertion}

theorem AuditLog.after_append (insertions : List Insertion) (insertion : Insertion) :
    after (insertions ++ [insertion]) = (after insertions).insertAuditEntry insertion := by
  simp [after]

/-- The rows of a log are those of its entries. -/
theorem AuditLog.after_eq (insertions : List Insertion) :
    after insertions =
      { rows := (insertedEntries insertions).map AuditEntry.toRow
        lastId := insertions.length } := by
  induction insertions using List.reverseRecOn with
  | nil => rfl
  | append_singleton insertions insertion ih =>
      rw [after_append, ih]
      simp [insertAuditEntry, insertedEntries, Insertion.entry, AuditEntry.toRow,
        List.mapIdx_append, timestampToDatetime, datetimeToTimestamp]

theorem nanos_of_mem_insertedEntries {entry : AuditEntry}
    (h : entry ∈ insertedEntries insertions) : entry.occurredAt.nanos = 0 := by
  rcases List.mem_mapIdx.mp h with ⟨i, hi, rfl⟩
  rfl

/-- Later insertions have higher numbers. -/
theorem insertedEntries_ids :
    (insertedEntries insertions).Pairwise fun a b => a.id < b.id := by
  rw [List.pairwise_iff_getElem]
  intro i j hi hj hij
  simp only [insertedEntries, List.getElem_mapIdx, Insertion.entry]
  omega

/-- Later insertions are not in earlier seconds. -/
theorem insertedEntries_seconds (hclock : ClockForward insertions) :
    (insertedEntries insertions).Pairwise fun a b =>
      a.occurredAt.seconds ≤ b.occurredAt.seconds := by
  rw [ClockForward, List.pairwise_iff_getElem] at hclock
  rw [List.pairwise_iff_getElem]
  intro i j hi hj hij
  simp only [insertedEntries, List.length_mapIdx] at hi hj
  simpa [insertedEntries, Insertion.entry, timestampToDatetime, datetimeToTimestamp] using
    hclock i j hi hj hij

end Inserted

/-! ## The statements -/

/-- The parameters that both statements share; those that are given are joined by `AND`. -/
structure AuditConditions where
  operation : Option String
  timeStart : Option Int
  timeEnd : Option Int
  search : Option String
deriving DecidableEq, Repr

/-- `record_name LIKE ? OR detail LIKE ?`; a missing text fits no pattern. -/
def fitsSearch (text : String) (recordName detail : Option String) : Bool :=
  let pattern := "%" ++ text ++ "%"
  recordName.any (like pattern) || detail.any (like pattern)

/-- Comparing a row raises an error. -/
def searchTextRaises (text : String) : Bool :=
  likeRaises ("%" ++ text ++ "%")

namespace AuditConditions

variable (conditions : AuditConditions) (row : AuditLogRow)

/-- The conditions before the search. -/
def inScope : Bool :=
  conditions.operation.all (fun operation => decide (row.operation = operation)) &&
    conditions.timeStart.all (fun start => decide (start ≤ row.occurredAt)) &&
    conditions.timeEnd.all (fun stop => decide (row.occurredAt ≤ stop))

def selects : Bool :=
  conditions.inScope row &&
    conditions.search.all fun text => fitsSearch text row.recordName row.detail

/-- The search is compared with the rows that meet the conditions before it. -/
def raises : Bool :=
  conditions.inScope row && conditions.search.any searchTextRaises

end AuditConditions

/-- `ORDER BY occurred_at DESC` -/
def latestFirst (a b : AuditLogRow) : Ordering :=
  compare b.occurredAt a.occurredAt

instance : Std.TransCmp latestFirst :=
  inferInstanceAs (Std.TransCmp fun a b : AuditLogRow =>
    compareOn (fun row : AuditLogRow => row.occurredAt) b a)

namespace AuditLog

variable (log : AuditLog)

/-- The rows of all pages. -/
def selected (conditions : AuditConditions) : List AuditLogRow :=
  log.rows.filter conditions.selects

/-- The statements raise an error on some row. -/
def raises (conditions : AuditConditions) : Bool :=
  log.rows.any conditions.raises

def countAuditEntries (conditions : AuditConditions) : Nat :=
  (log.selected conditions).length

/-- What `list_audit_entries_filtered` may select. `limit` and `offset` are cut to `i64::MAX`,
which is more rows than a table can have. -/
def IsAuditPage (conditions : AuditConditions) (limit offset : Nat) (page : List AuditLogRow) :
    Prop :=
  ∃ rows, rows.Perm (log.selected conditions) ∧ InOrder latestFirst rows ∧
    page = (rows.drop offset).take limit

end AuditLog

end OakKeyring
