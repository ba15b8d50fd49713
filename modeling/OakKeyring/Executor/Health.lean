import OakKeyring.Lib.Answers
import OakKeyring.Lib.Collect
import OakKeyring.Vault.Batch
import OakKeyring.Vault.Field
import OakKeyring.Types.Listing

/-!
# The health report and its stored form

A health check leaves a report of lists and groups. It is stored as one row of flags for each
active record, and the next start of the program makes a report of the rows again.
-/

namespace OakKeyring

open Effect

/-- The issues that a health check found. -/
structure HealthReport where
  weakPasswords : List Uuid
  /-- each group shares one password -/
  duplicatePasswords : List (List Uuid)
  compromised : List Uuid
  expired : List Uuid
  totalChecked : Nat
deriving DecidableEq, Repr

inductive HealthIssue
  | Compromised
  | Weak
  | Duplicate (groupSize : Nat)
  | Expired
deriving DecidableEq, Repr

namespace HealthReport

/-- The size of the first group that has the record. -/
def groupSize (report : HealthReport) (id : Uuid) : Option Nat :=
  (report.duplicatePasswords.find? fun group => decide (id ∈ group)).map List.length

/-- The issue of the highest priority. -/
def getIssueFor (report : HealthReport) (id : Uuid) : Option HealthIssue :=
  if id ∈ report.compromised then some .Compromised
  else if id ∈ report.weakPasswords then some .Weak
  else
    match report.groupSize id with
    | some size => some (.Duplicate size)
    | none => if id ∈ report.expired then some .Expired else none

/-- The four health fields of one row. -/
def populate (report : HealthReport) (record : TuiRecord) : TuiRecord :=
  { record with
    hasWeakPassword := decide (record.id ∈ report.weakPasswords)
    isCompromised := decide (record.id ∈ report.compromised)
    duplicateGroupSize := report.groupSize record.id
    isExpired := decide (record.id ∈ report.expired) }

end HealthReport

def populateHealthFields (records : List TuiRecord) (report : Option HealthReport) :
    List TuiRecord :=
  match report with
  | some report => records.map report.populate
  | none => records

/-! ## Storing a report -/

/-- `dup_size_map`: a later group overwrites the size of an earlier one. -/
def dupSizeMap (groups : List (List Uuid)) : AList fun _ : Uuid => Nat :=
  groups.foldl (fun sizes group =>
    group.foldl (fun sizes id => sizes.insert id group.length) sizes) ∅

/-- The row that a report gives a record. -/
def projectedState (report : HealthReport) (evaluatedAt : DateTime) (record : StoredRecord) :
    RecordHealthState where
  recordId := record.id
  recordVersion := record.version
  evaluatedAt := some evaluatedAt
  weakPassword := some (decide (record.id ∈ report.weakPasswords))
  duplicateGroupSize := (dupSizeMap report.duplicatePasswords).lookup record.id
  compromised := some (decide (record.id ∈ report.compromised))
  expired := some (decide (record.id ∈ report.expired))

def projectHealthReportToStates (records : List StoredRecord) (report : HealthReport)
    (evaluatedAt : DateTime) : List RecordHealthState :=
  records.map (projectedState report evaluatedAt)

def healthStateChanged (before after : RecordHealthState) : Bool :=
  before.weakPassword ≠ after.weakPassword ||
    before.duplicateGroupSize ≠ after.duplicateGroupSize ||
    before.compromised ≠ after.compromised ||
    before.expired ≠ after.expired

structure HealthStateDelta where
  recordId : Uuid
  before : Option RecordHealthState
  after : Option RecordHealthState
deriving DecidableEq, Repr

/-- The change of one record, if its issues changed or it had no row. -/
def healthDelta (oldMap : AList fun _ : Uuid => RecordHealthState) (after : RecordHealthState) :
    Option HealthStateDelta :=
  let before := oldMap.lookup after.recordId
  let changed :=
    match before with
    | some before => healthStateChanged before after
    | none => true
  if changed then
    some { recordId := after.recordId, before := before, after := some after }
  else none

namespace Vault

def listRecordHealthStates : VaultM (List RecordHealthState) :=
  query .listRecordHealthStates

end Vault

open Vault

def persistHealthReport (report : HealthReport) (evaluatedAt : DateTime) :
    VaultM (List HealthStateDelta) := do
  let records ← listAllStoredRecords
  let oldStates ← listRecordHealthStates
  let oldMap := AList.collect (fun state => some state.2)
    (oldStates.map fun state => (state.recordId, state)) ∅
  let newStates := projectHealthReportToStates records report evaluatedAt
  let deltas := newStates.filterMap (healthDelta oldMap)
  replaceRecordHealthStates newStates
  return deltas

/-! ## Loading it again -/

/-- The records whose row has a flag. -/
def flaggedIds (flag : RecordHealthState → Bool) (states : List RecordHealthState) : List Uuid :=
  (states.filter flag).map RecordHealthState.recordId

/-- `duplicate_group_size.is_some_and(|sz| sz >= 2)`. -/
def isDuplicate (state : RecordHealthState) : Bool :=
  state.duplicateGroupSize.any fun size => decide (2 ≤ size)

/-- The report that rows stand for, its duplicates in a single group. -/
def cachedReport (states : List RecordHealthState) : HealthReport :=
  let duplicateIds := flaggedIds isDuplicate states
  { weakPasswords := flaggedIds (fun state => state.weakPassword = some true) states
    duplicatePasswords := if duplicateIds = [] then [] else [duplicateIds]
    compromised := flaggedIds (fun state => state.compromised = some true) states
    expired := flaggedIds (fun state => state.expired = some true) states
    totalChecked := states.length }

def loadCachedHealthReport : VaultM (Option HealthReport) := do
  let states ← listRecordHealthStates
  if states = [] then return none
  else return some (cachedReport states)

end OakKeyring
