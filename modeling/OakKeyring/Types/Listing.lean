import OakKeyring.Types.Credential
import Mathlib.Data.List.Infix

/-! # What lists of records are made of -/

namespace OakKeyring

/-- The functions of `str` that rest on the Unicode tables. -/
class Unicode where
  /-- `str::to_lowercase` -/
  toLowercase : String → String
  /-- The text that `Debug` prints, quotation marks included. -/
  debug : String → String

export Unicode (toLowercase)

inductive RecordFilter
  | All
  | Favorites
  | Expired
  | HealthIssues
  | Trash
  | Tag (name : String)
  | Search (query : String)
deriving DecidableEq, Repr

def RecordFilter.debug [Unicode] : RecordFilter → String
  | All => "All"
  | Favorites => "Favorites"
  | Expired => "Expired"
  | HealthIssues => "HealthIssues"
  | Trash => "Trash"
  | Tag name => s!"Tag({Unicode.debug name})"
  | Search query => s!"Search({Unicode.debug query})"

inductive SortField
  | Name
  | CreatedAt
  | UpdatedAt
  | UsageFrequency
deriving DecidableEq, Repr

inductive SortDirection
  | Asc
  | Desc
deriving DecidableEq, Repr

structure RecordSort where
  field : SortField
  direction : SortDirection
deriving DecidableEq, Repr

/-- A record as a list shows it. -/
structure TuiRecord where
  id : Uuid
  credentialType : CredentialType
  name : String
  subtitle : String
  isFavorite : Bool
  isExpired : Bool
  expiresAt : Option DateTime
  hasWeakPassword : Bool
  isCompromised : Bool
  duplicateGroupSize : Option Nat
  createdAt : DateTime
  updatedAt : DateTime
  deleted : Bool
  deletedAt : Option DateTime
  tags : List String
  syncStatus : Option SyncStatus
deriving DecidableEq, Repr

/-- A record with its payload; the variants of the source share all other fields. -/
structure DecryptedRecord where
  id : Uuid
  isFavorite : Bool
  expiresAt : Option DateTime
  createdAt : DateTime
  updatedAt : DateTime
  version : Nat
  deleted : Bool
  deletedAt : Option DateTime
  tags : List String
  payload : EncryptedPayload
deriving DecidableEq, Repr

namespace DecryptedRecord

def name (record : DecryptedRecord) : String :=
  record.payload.name

def credentialType (record : DecryptedRecord) : CredentialType :=
  record.payload.credentialType

end DecryptedRecord

/-! ## Searching -/

/-- `str::split_whitespace`. -/
def splitWhitespace (s : String) : List String :=
  ((s.toList.splitOnP isWhitespace).filter fun word => !word.isEmpty).map String.ofList

/-- `str::contains` with a text. -/
def containsText (s pattern : String) : Bool :=
  decide (pattern.toList <:+: s.toList)

section Searching

variable [Unicode]

/-- Every term is in the name or in the subtitle. -/
def matchesTerms (terms : List String) (name subtitle : String) : Bool :=
  terms.all fun term =>
    containsText (toLowercase name) (toLowercase term) ||
      containsText (toLowercase subtitle) (toLowercase term)

def searchRecords (records : List TuiRecord) (query : String) : List TuiRecord :=
  if trim query = "" then records
  else
    records.filter fun record =>
      matchesTerms (splitWhitespace query) record.name record.subtitle

end Searching

/-! ## Sorting -/

def compareInstants (a b : DateTime) : Ordering :=
  (compare a.seconds b.seconds).then (compare a.nanos b.nanos)

/-- `frequency` counts the audit entries of a record. -/
def SortField.compare (field : SortField) (frequency : Uuid → Nat) (a b : TuiRecord) : Ordering :=
  match field with
  | Name => Ord.compare a.name b.name
  | CreatedAt => compareInstants a.createdAt b.createdAt
  | UpdatedAt => compareInstants a.updatedAt b.updatedAt
  | UsageFrequency => Ord.compare (frequency a.id) (frequency b.id)

def RecordSort.compare (sort : RecordSort) (frequency : Uuid → Nat) (a b : TuiRecord) :
    Ordering :=
  match sort.direction with
  | .Asc => sort.field.compare frequency a b
  | .Desc => (sort.field.compare frequency a b).swap

/-- The sort is stable. -/
def applySort (frequency : Uuid → Nat) (sort : RecordSort) (records : List TuiRecord) :
    List TuiRecord :=
  records.mergeSort fun a b => sort.compare frequency a b != .gt

theorem applySort_perm (frequency : Uuid → Nat) (sort : RecordSort) (records : List TuiRecord) :
    (applySort frequency sort records).Perm records :=
  List.mergeSort_perm records _

end OakKeyring
