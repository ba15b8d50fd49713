import OakKeyring.Vault.Record

/-!
# Trash, tags and health states

The operations that work on many records at once, and the wrappers around single statements.
-/

namespace OakKeyring

open Effect

/-- The length of a day. -/
def secondsPerDay : Int := 86400

namespace Vault

variable [Crypto] (v : VaultService)

/-- The name of a record for the audit log, if the record is there and can be read. -/
def auditName (found : Except VaultError StoredRecord) : String :=
  match found with
  | .error _ => "<unknown>"
  | .ok stored =>
      match v.crypto.decryptNameOnly stored.encryptedData stored.nonce (recordAad stored.id)
          stored.dekVersion with
      | .ok name => name
      | .error _ => "<unknown>"

/-! ## Trash -/

def emptyTrash : VaultM Nat := do
  requireUnlocked v
  let deletedRecords : List StoredRecord ← query (.listRecords .deleted)
  List.forM deletedRecords fun record => query (.hardDeleteRecord record.id)
  let count := deletedRecords.length
  if 0 < count then
    query (.insertAuditEntry .TrashEmpty none none
      (some s!"permanently deleted {count} record(s)"))
  return count

/-- The order of instants. -/
def isBefore (a b : DateTime) : Bool :=
  decide (a.seconds < b.seconds ∨ a.seconds = b.seconds ∧ a.nanos < b.nanos)

/-- Whether a record was deleted longer ago than the retention. -/
def trashExpired (cutoff : DateTime) (record : StoredRecord) : Bool :=
  record.deletedAt.any fun deletedAt => isBefore deletedAt cutoff

def cleanupExpiredTrash (retentionDays : Nat) : VaultM Nat := do
  requireUnlocked v
  let deletedRecords : List StoredRecord ← query (.listRecords .deleted)
  let time ← now
  let cutoff := { time with seconds := time.seconds - retentionDays * secondsPerDay }
  let expired := deletedRecords.filter (trashExpired cutoff)
  List.forM expired fun record => query (.hardDeleteRecord record.id)
  return expired.length

def batchSoftDelete (ids : List Uuid) : VaultM Nat := do
  requireUnlocked v
  if ids = [] then return 0
  let time ← now
  let affected : Nat ← query
    (.batchSoftDeleteRecords ids v.deviceId (datetimeToTimestamp time))
  ids.forM fun id => do
    let found ← Fallible.attempt (getStoredRecord id)
    query (.insertAuditEntry .RecordDelete (some id) (some (auditName v found)) none)
  if 0 < affected then markRecordsPendingSync ids
  return affected

/-- The records of the list that are in the trash, with their names. -/
def deletedWithNames (ids : List Uuid) : VaultM (List (Uuid × String)) := do
  let found ← ids.mapM fun id => do
    let record ← Fallible.attempt (getStoredRecord id)
    return (id, record)
  return found.filterMap fun (id, record) =>
    match record with
    | .error _ => none
    | .ok stored => if stored.deleted then some (id, auditName v record) else none

def auditEach (operation : AuditOperation) (names : List (Uuid × String)) : VaultM Unit :=
  names.forM fun (id, name) =>
    query (.insertAuditEntry operation (some id) (some name) none)

def batchRestore (ids : List Uuid) : VaultM Nat := do
  requireUnlocked v
  if ids = [] then return 0
  let names ← deletedWithNames v ids
  let affected : Nat ← query (.batchRestoreRecords ids)
  auditEach .RecordRestore names
  if 0 < affected then markRecordsPendingSync (names.map Prod.fst)
  return affected

def batchHardDelete (ids : List Uuid) : VaultM Nat := do
  requireUnlocked v
  if ids = [] then return 0
  let names ← deletedWithNames v ids
  let affected : Nat ← query (.batchHardDeleteRecords ids)
  auditEach .RecordDestroy names
  return affected

/-! ## Tags -/

omit [Crypto] in
def renameTag (oldName newName : String) : VaultM Unit := do
  let affectedRecordIds : List Uuid ← query (.recordIdsForTag oldName)
  let taken : Option Tag ← query (.getTagByName newName)
  if taken.isSome then throw (.TagAlreadyExists newName)
  let updated : Bool ← query (.renameTag oldName newName)
  if updated = false then throw (.TagNotFound oldName)
  if affectedRecordIds ≠ [] then markRecordsPendingSync affectedRecordIds

omit [Crypto] in
def deleteTag (name : String) : VaultM Unit := do
  let affectedRecordIds : List Uuid ← query (.recordIdsForTag name)
  let deleted : Bool ← query (.deleteTagByName name)
  if deleted = false then throw (.TagNotFound name)
  if affectedRecordIds ≠ [] then markRecordsPendingSync affectedRecordIds

omit [Crypto] in
def batchAddTag (ids : List Uuid) (tagName : String) : VaultM Nat := do
  let added : Nat ← query (.batchAddTag ids tagName)
  if 0 < added then markRecordsPendingSync ids
  return added

omit [Crypto] in
def batchRemoveTag (ids : List Uuid) (tagName : String) : VaultM Nat := do
  let found : Option Nat ← query (.batchRemoveTag ids tagName)
  let removed ← required found (.TagNotFound tagName)
  if 0 < removed then markRecordsPendingSync ids
  return removed

/-! ## Health states -/

omit [Crypto] in
def upsertRecordHealthState (state : RecordHealthState) : VaultM Unit :=
  query (.upsertRecordHealthState state)

omit [Crypto] in
def replaceRecordHealthStates (states : List RecordHealthState) : VaultM Unit :=
  query (.replaceRecordHealthStates states)

omit [Crypto] in
def deleteRecordHealthStates (ids : List Uuid) : VaultM Unit := do
  let _ ← query (.deleteRecordHealthStates ids)

end Vault

end OakKeyring
