import OakKeyring.Db.Audit
import OakKeyring.Vault.Service

/-!
# Querying the audit log

A query counts the entries that meet a filter and selects one page of them. A time range begins
some time before the query.
-/

namespace OakKeyring

open Effect Paging

inductive AuditTimeRange
  | Today
  | LastWeek
  | LastMonth
  | LastYear
  | All
deriving DecidableEq, Repr

/-- How far a time range goes back, in seconds. -/
def AuditTimeRange.duration : AuditTimeRange → Option Int
  | Today => some (24 * 60 * 60)
  | LastWeek => some (7 * 24 * 60 * 60)
  | LastMonth => some (30 * 24 * 60 * 60)
  | LastYear => some (365 * 24 * 60 * 60)
  | All => none

structure AuditFilter where
  operation : Option AuditOperation
  timeRange : Option AuditTimeRange
  search : Option String
  limit : Option Nat
  offset : Nat
deriving DecidableEq, Repr

def DEFAULT_AUDIT_PAGE_SIZE : Nat := 50

inductive AuditCall
  | now
  | countAuditEntries (conditions : AuditConditions)
  | listAuditEntriesFiltered (conditions : AuditConditions) (limit offset : Nat)

def AuditCall.Answer : AuditCall → Type
  | now => DateTime
  | countAuditEntries _ => Except SqliteError Nat
  | listAuditEntriesFiltered .. => Except SqliteError (List AuditLogRow)

def AuditI : Interface where
  Call := AuditCall
  Answer := AuditCall.Answer

abbrev AuditM := Fallible VaultError AuditI

/-- The clock shows one of `times`; the database may fail at any statement, and does where the
statement raises an error. -/
def auditEnv (times : DateTime → Prop) : Env AuditI AuditLog
  | log, .now, time, log' => log' = log ∧ times time
  | log, .countAuditEntries conditions, answer, log' =>
      log' = log ∧
        (log.raises conditions = false ∧ answer = .ok (log.countAuditEntries conditions) ∨
          ∃ e, answer = .error e)
  | log, .listAuditEntriesFiltered conditions limit offset, answer, log' =>
      log' = log ∧
        ((∃ page, log.raises conditions = false ∧ log.IsAuditPage conditions limit offset page ∧
          answer = .ok page) ∨ ∃ e, answer = .error e)

namespace Audit

def now : AuditM DateTime :=
  Fallible.ask (I := AuditI) AuditCall.now

def countAuditEntries (conditions : AuditConditions) : AuditM Nat :=
  Fallible.call (I := AuditI) (AuditCall.countAuditEntries conditions) (fun answer => answer)
    VaultError.DatabaseError

def listRows (conditions : AuditConditions) (limit offset : Nat) : AuditM (List AuditLogRow) :=
  Fallible.call (I := AuditI) (AuditCall.listAuditEntriesFiltered conditions limit offset)
    (fun answer => answer) VaultError.DatabaseError

/-- `to_audit_entry` with the error as `db_error_to_vault` has it. -/
def readRows (rows : List AuditLogRow) : AuditM (List AuditEntry) :=
  match rows.mapM AuditLogRow.toAuditEntry with
  | .ok entries => pure entries
  | .error e => throw (VaultError.CryptoError s!"data conversion error: {e.toText}")

def computeTimeBounds (timeRange : Option AuditTimeRange) : AuditM (Option Int × Option Int) :=
  match timeRange.bind AuditTimeRange.duration with
  | none => pure (none, none)
  | some duration => do
      let time ← now
      return (some (datetimeToTimestamp time - duration), none)

end Audit

open Audit

def AuditFilter.pageSize (filter : AuditFilter) : Nat :=
  filter.limit.getD DEFAULT_AUDIT_PAGE_SIZE

def queryAuditLog (filter : AuditFilter) : AuditM (List AuditEntry × Nat) := do
  let (timeStart, timeEnd) ← computeTimeBounds filter.timeRange
  let conditions : AuditConditions :=
    { operation := filter.operation.map AuditOperation.toDbStr
      timeStart := timeStart
      timeEnd := timeEnd
      search := filter.search }
  let total ← countAuditEntries conditions
  let rows ← listRows conditions filter.pageSize filter.offset
  let entries ← readRows rows
  return (entries, total)

/-- The first `count` pages, one after another. -/
def queryPages (filter : AuditFilter) (count : Nat) : AuditM (List (List AuditEntry × Nat)) :=
  (List.range count).mapM fun k =>
    queryAuditLog { filter with offset := k * filter.pageSize }

/-! ## What a filter asks for -/

/-- Literally, whatever the case of the letters. -/
def containsFolded [Unicode] (text s : String) : Bool :=
  containsText (toLowercase s) (toLowercase text)

namespace AuditEntry

/-- The entry contains the text in its record name or its detail. -/
def mentions [Unicode] (text : String) (entry : AuditEntry) : Bool :=
  entry.recordName.any (containsFolded text) || entry.detail.any (containsFolded text)

/-- The statements find the entry by the text. -/
def fits (text : String) (entry : AuditEntry) : Bool :=
  fitsSearch text entry.recordName entry.detail

end AuditEntry

namespace AuditFilter

variable (filter : AuditFilter) (time : DateTime)

def windowStart : Option Int :=
  (filter.timeRange.bind AuditTimeRange.duration).map fun duration => time.seconds - duration

/-- The entry has the operation and is in the time range. -/
def inScope (entry : AuditEntry) : Bool :=
  filter.operation.all (fun operation => decide (entry.operation = operation)) &&
    (filter.windowStart time).all fun start => decide (start ≤ entry.occurredAt.seconds)

/-- The entry meets the filter at a time. -/
def meets [Unicode] (entry : AuditEntry) : Bool :=
  filter.inScope time entry && filter.search.all fun text => entry.mentions text

/-- The statements select the entry at a time. -/
def selects (entry : AuditEntry) : Bool :=
  filter.inScope time entry && filter.search.all fun text => entry.fits text

/-- The conditions of the statements at a time. -/
def conditions : AuditConditions where
  operation := filter.operation.map AuditOperation.toDbStr
  timeStart := filter.windowStart time
  timeEnd := none
  search := filter.search

theorem inScope_conditions (entry : AuditEntry) :
    (filter.conditions time).inScope entry.toRow = filter.inScope time entry := by
  have hoperation : ((filter.operation.map AuditOperation.toDbStr).all fun operation =>
        decide (entry.operation.toDbStr = operation)) =
      filter.operation.all fun operation => decide (entry.operation = operation) := by
    cases filter.operation <;> simp
  unfold conditions AuditConditions.inScope inScope AuditEntry.toRow
  rw [hoperation, Option.all_none, Bool.and_true]
  rfl

theorem selects_conditions (entry : AuditEntry) :
    (filter.conditions time).selects entry.toRow = filter.selects time entry := by
  unfold AuditConditions.selects selects
  rw [inScope_conditions]
  rfl

end AuditFilter

/-- The same entries are in the time range as at `now`. -/
def SameWindow (entries : List AuditEntry) (filter : AuditFilter) (now time : DateTime) : Prop :=
  ∀ entry ∈ entries, filter.inScope time entry = filter.inScope now entry

/-- The pages are answered unless a statement fails by itself. All pages of a log together are the
entries that meet the filter, each once and the later insertions first, and every page has their
number as its total: of enough pages, whatever rows the database answers, while no entry leaves the
time range. -/
def PagesComplete [Unicode] (insertions : List Insertion) (filter : AuditFilter) (now : DateTime) :
    Prop :=
  let env := auditEnv (SameWindow (insertedEntries insertions) filter now)
  let log := AuditLog.after insertions
  let met := (insertedEntries insertions).filter (filter.meets now)
  (∀ count, ∃ pages, Answers env log (queryPages filter count) pages log) ∧
    ∃ enough, ∀ count, enough ≤ count → ∀ pages log',
      Answers env log (queryPages filter count) pages log' →
      (pages.map Prod.fst).flatten = met.reverse ∧ ∀ page ∈ pages, page.2 = met.length

end OakKeyring
