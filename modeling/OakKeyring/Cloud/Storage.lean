import OakKeyring.Cloud.Metadata
import OakKeyring.Lib.Wp

/-!
# Cloud storage

The storage operator is third-party code, so its operations are the calls of an interface.
An answer is whatever the operator reports, and `StorageStep` says which answers a store
can give: what it holds, or a fault that changes nothing.
-/

namespace OakKeyring

open Effect

/-- The operations of the storage operator, and the clock. -/
inductive StorageOp
  | listRecords
  | readMetadata
  | writeMetadata (metadata : CloudMetadata)
  | readRecord (recordId : String)
  | writeRecord (recordId : String) (record : CloudRecord)
  | now
deriving DecidableEq

/-- Reads report a missing file as `RecordNotFound`. -/
def StorageOp.Answer : StorageOp → Type
  | listRecords => Except SyncError Unit
  | readMetadata => Except SyncError CloudMetadata
  | writeMetadata _ => Except SyncError Unit
  | readRecord _ => Except SyncError CloudRecord
  | writeRecord _ _ => Except SyncError Unit
  | now => DateTime

def StorageI : Interface where
  Call := StorageOp
  Answer := StorageOp.Answer

/-- Programs that use cloud storage. -/
abbrev Cloud := Prog StorageI

/-- The operations and answers of a run. -/
abbrev StorageTrace := List (Event StorageI)

/-- One storage operation with its answer. -/
def StorageOp.answered (op : StorageOp) (answer : op.Answer) : Event StorageI :=
  ⟨op, answer⟩

namespace CloudStorage

variable [Codec]

def perform (op : StorageOp) : Cloud (op.Answer) :=
  Prog.perform (I := StorageI) op

/-- Lists the records directory and drops the listing. -/
def checkConnectivity : Cloud (Except SyncError Unit) :=
  perform .listRecords

def uploadMetadata (metadata : CloudMetadata) : Cloud (Except SyncError Unit) :=
  perform (.writeMetadata metadata)

/-- What a read of the metadata file means; a missing file is no metadata. -/
def metadataOfRead : Except SyncError CloudMetadata → Except SyncError (Option CloudMetadata)
  | .ok metadata =>
      match metadata.validate with
      | .ok () => .ok (some metadata)
      | .error e => .error e
  | .error (.RecordNotFound _) => .ok none
  | .error e => .error e

def downloadMetadata : Cloud (Except SyncError (Option CloudMetadata)) := do
  let read ← perform .readMetadata
  return metadataOfRead read

def uploadRecord (recordId : String) (record : CloudRecord) : Cloud (Except SyncError Unit) :=
  perform (.writeRecord recordId record)

/-- What a read of a record file means; a missing file is no record. -/
def recordOfRead : Except SyncError CloudRecord → Except SyncError (Option CloudRecord)
  | .ok record => .ok (some record)
  | .error (.RecordNotFound _) => .ok none
  | .error e => .error e

def downloadRecord (recordId : String) : Cloud (Except SyncError (Option CloudRecord)) := do
  let read ← perform (.readRecord recordId)
  return recordOfRead read

/-- One read for each id; the results keep the order of the ids. -/
def batchDownloadRecords (recordIds : List String) :
    Cloud (List (String × Except SyncError (Option CloudRecord))) :=
  recordIds.mapM fun recordId => do
    let result ← downloadRecord recordId
    return (recordId, result)

/-- The version check that precedes a metadata push. -/
def checkExpectedVersion (expectedVersion : Nat) :
    Option CloudMetadata → Except SyncError Unit
  | some remote =>
      if remote.metadataVersion ≠ expectedVersion then
        .error (.LockAcquireFailed
          s!"metadata version mismatch: expected {expectedVersion}, found {remote.metadataVersion}")
      else .ok ()
  | none =>
      if expectedVersion ≠ 0 then .error (.RecordNotFound METADATA_FILENAME) else .ok ()

/-- Read, compare, write: two operations, so another device can write between them. -/
def pushMetadataAtomic (metadata : CloudMetadata) (expectedVersion : Nat) :
    Cloud (Except SyncError Unit) := do
  match ← downloadMetadata with
  | .error e => return .error e
  | .ok current =>
      match checkExpectedVersion expectedVersion current with
      | .error e => return .error e
      | .ok () => uploadMetadata metadata

theorem metadataOfRead_eq_some_iff (read : Except SyncError CloudMetadata)
    (m : CloudMetadata) :
    metadataOfRead read = .ok (some m) ↔ read = .ok m ∧ m.validate = .ok () := by
  cases read with
  | error e => cases e <;> simp [metadataOfRead]
  | ok m' =>
      cases hvalid : m'.validate with
      | ok u =>
          simp only [metadataOfRead, hvalid, Except.ok.injEq, Option.some.injEq]
          constructor
          · rintro rfl
            exact ⟨rfl, hvalid⟩
          · exact And.left
      | error e =>
          simp only [metadataOfRead, hvalid, reduceCtorEq, Except.ok.injEq, false_iff]
          rintro ⟨rfl, hok⟩
          rw [hvalid] at hok
          cases hok

/-! ### Runs

A program that starts with one of these functions starts with its operation. -/

variable {α : Type} {tr : StorageTrace} {a : α}

omit [Codec] in
theorem returns_perform (op : StorageOp) (f : op.Answer → Cloud α) :
    (perform op >>= f).Returns tr a ↔
      ∃ answer rest, tr = op.answered answer :: rest ∧ (f answer).Returns rest a := Iff.rfl

omit [Codec] in
theorem returns_checkConnectivity (f : Except SyncError Unit → Cloud α) :
    (checkConnectivity >>= f).Returns tr a ↔
      ∃ answer rest, tr = StorageOp.listRecords.answered answer :: rest ∧
        (f answer).Returns rest a := Iff.rfl

theorem returns_downloadMetadata (f : Except SyncError (Option CloudMetadata) → Cloud α) :
    (downloadMetadata >>= f).Returns tr a ↔
      ∃ read rest, tr = StorageOp.readMetadata.answered read :: rest ∧
        (f (metadataOfRead read)).Returns rest a := Iff.rfl

omit [Codec] in
theorem returns_downloadRecord (id : String)
    (f : Except SyncError (Option CloudRecord) → Cloud α) :
    (downloadRecord id >>= f).Returns tr a ↔
      ∃ read rest, tr = (StorageOp.readRecord id).answered read :: rest ∧
        (f (recordOfRead read)).Returns rest a := Iff.rfl

end CloudStorage

/-! ## The store -/

/-- The files of the shared cloud directory. -/
structure CloudStore where
  metadata : Option CloudMetadata
  records : String → Option CloudRecord

namespace CloudStore

def empty : CloudStore where
  metadata := none
  records := fun _ => none

/-- The metadata entry of a record. -/
def entry (s : CloudStore) (id : String) : Option RecordVersionInfo :=
  s.metadata.bind fun m => m.records.lookup id

def putRecord (s : CloudStore) (id : String) (r : CloudRecord) : CloudStore :=
  { s with records := Function.update s.records id (some r) }

def putMetadata (s : CloudStore) (m : CloudMetadata) : CloudStore :=
  { s with metadata := some m }

@[simp] theorem metadata_putRecord (s : CloudStore) (id : String) (r : CloudRecord) :
    (s.putRecord id r).metadata = s.metadata := rfl

@[simp] theorem records_putMetadata (s : CloudStore) (m : CloudMetadata) :
    (s.putMetadata m).records = s.records := rfl

@[simp] theorem metadata_putMetadata (s : CloudStore) (m : CloudMetadata) :
    (s.putMetadata m).metadata = some m := rfl

@[simp] theorem records_putRecord_self (s : CloudStore) (id : String) (r : CloudRecord) :
    (s.putRecord id r).records id = some r := by
  simp [putRecord]

@[simp] theorem records_putRecord_of_ne (s : CloudStore) {id id' : String} (r : CloudRecord)
    (h : id' ≠ id) : (s.putRecord id r).records id' = s.records id' := by
  simp [putRecord, h]

end CloudStore

/-- An error a store reports without having looked: anything but "not found". -/
def SyncError.IsFault : SyncError → Prop
  | .RecordNotFound _ => False
  | _ => True

/-- One operation on the store. It is atomic: it takes effect and succeeds, or it reports an
error and changes nothing. -/
inductive StorageStep : CloudStore → (op : StorageOp) → op.Answer → CloudStore → Prop
  | list (s : CloudStore) : StorageStep s .listRecords (.ok ()) s
  | listFault (s : CloudStore) (e : SyncError) : StorageStep s .listRecords (.error e) s
  | readMetadata (s : CloudStore) (m : CloudMetadata) (h : s.metadata = some m) :
      StorageStep s .readMetadata (.ok m) s
  | noMetadata (s : CloudStore) (h : s.metadata = none) :
      StorageStep s .readMetadata (.error (.RecordNotFound METADATA_FILENAME)) s
  | readMetadataFault (s : CloudStore) (e : SyncError) (h : e.IsFault) :
      StorageStep s .readMetadata (.error e) s
  | writeMetadata (s : CloudStore) (m : CloudMetadata) :
      StorageStep s (.writeMetadata m) (.ok ()) (s.putMetadata m)
  | writeMetadataFault (s : CloudStore) (m : CloudMetadata) (e : SyncError) :
      StorageStep s (.writeMetadata m) (.error e) s
  | readRecord (s : CloudStore) (id : String) (r : CloudRecord) (h : s.records id = some r) :
      StorageStep s (.readRecord id) (.ok r) s
  | noRecord (s : CloudStore) (id : String) (h : s.records id = none) :
      StorageStep s (.readRecord id) (.error (.RecordNotFound s!"{RECORDS_DIR}/{id}.json")) s
  | readRecordFault (s : CloudStore) (id : String) (e : SyncError) (h : e.IsFault) :
      StorageStep s (.readRecord id) (.error e) s
  | writeRecord (s : CloudStore) (id : String) (r : CloudRecord) :
      StorageStep s (.writeRecord id r) (.ok ()) (s.putRecord id r)
  | writeRecordFault (s : CloudStore) (id : String) (r : CloudRecord) (e : SyncError) :
      StorageStep s (.writeRecord id r) (.error e) s
  | now (s : CloudStore) (t : DateTime) : StorageStep s .now t s

/-- The store as an environment for programs that use cloud storage. -/
def storageEnv : Env StorageI CloudStore := StorageStep

end OakKeyring
