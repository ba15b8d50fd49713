import OakKeyring.ImportExport.Parsers

/-!
# Reading plain rows

The user names the columns. The rows come from the crate `csv`; what is made of a row is here.
-/

namespace OakKeyring

/-- The reader of the crate `csv`. -/
class CsvReader where
  /-- `from_path`: the records from the first line on; one that is malformed is an error. -/
  fromPath : (PathBuf → Option Bytes) → PathBuf → Except String (List (Except String (List String)))

namespace CsvParser

/-- `Reader::headers`: the first record, whether or not it is also data. -/
def headers : List (Except String (List String)) → Except String (List String)
  | [] => .ok []
  | record :: _ => record

def findColumn (headers : List String) (columnName : String) : Option Nat :=
  headers.findIdx? fun header => header == columnName

def resolveColumn (headers : List String) (columnName fieldLabel : String) :
    Except ImportExportError Nat :=
  match findColumn headers columnName with
  | some idx => .ok idx
  | none =>
      .error (.ParseError "CSV"
        s!"column '{columnName}' for field '{fieldLabel}' not found in CSV headers")

/-- Where the columns of a mapping stand. -/
structure Columns where
  nameIdx : Nat
  usernameIdx : Nat
  passwordIdx : Nat
  urlIdx : Nat
  notesIdx : Nat
  tagsIdx : Option Nat
deriving DecidableEq, Repr

def resolveColumns (headers : List String) (mapping : CsvColumnMapping) :
    Except ImportExportError Columns := do
  let nameIdx ← resolveColumn headers mapping.nameColumn "name"
  let usernameIdx ← resolveColumn headers mapping.usernameColumn "username"
  let passwordIdx ← resolveColumn headers mapping.passwordColumn "password"
  let urlIdx ← resolveColumn headers mapping.urlColumn "url"
  let notesIdx ← resolveColumn headers mapping.notesColumn "notes"
  -- a tags column that is not there is no error
  return {
    nameIdx := nameIdx
    usernameIdx := usernameIdx
    passwordIdx := passwordIdx
    urlIdx := urlIdx
    notesIdx := notesIdx
    tagsIdx := mapping.tagsColumn.bind (findColumn headers) }

def getOrEmpty (record : List String) (idx : Nat) : String :=
  record[idx]?.getD ""

def buildFields (record : List String) (columns : Columns) : FieldMap :=
  FieldMap.of
    [("name", getOrEmpty record columns.nameIdx),
      ("username", getOrEmpty record columns.usernameIdx),
      ("password", getOrEmpty record columns.passwordIdx),
      ("url", getOrEmpty record columns.urlIdx),
      ("notes", getOrEmpty record columns.notesIdx)]

/-- The tags of a column: split at commas, trimmed, the empty ones left out. -/
def splitTags (raw : String) : List String :=
  ((raw.toList.splitOn ',').map fun tag => trim (String.ofList tag)).filter fun tag => tag ≠ ""

def extractTags (record : List String) (tagsIdx : Option Nat) : List String :=
  match tagsIdx with
  | none => []
  | some idx =>
      match record[idx]? with
      | none => []
      | some raw => if raw = "" then [] else splitTags raw

def item (columns : Columns) (rowNumber : Nat) (record : List String) : ParsedItem where
  sourceId := s!"row-{rowNumber}"
  fields := buildFields record columns
  tags := extractTags record columns.tagsIdx

/-- The loop over `read_record`, after `rowNumber` records. -/
def readItems (path : PathBuf) (columns : Columns) (rowNumber : Nat) :
    List (Except String (List String)) → Except ImportExportError (List ParsedItem)
  | [] => .ok []
  | record :: rest => do
      let record ← record.mapError (.FileReadError path)
      let items ← readItems path columns (rowNumber + 1) rest
      return item columns (rowNumber + 1) record :: items

def parse [CsvReader] (files : PathBuf → Option Bytes) (path : PathBuf)
    (csvMapping : Option CsvColumnMapping) : Except ImportExportError (List ParsedItem) := do
  match csvMapping with
  | none => throw (.InvalidFormat "CSV column mapping required")
  | some mapping =>
      let records ← (CsvReader.fromPath files path).mapError (.FileReadError path)
      let header ← (headers records).mapError fun e =>
        .ParseError "CSV" s!"failed to read headers: {e}"
      let columns ← resolveColumns header mapping
      -- without a header row the first record is data as well
      readItems path columns 0 (if mapping.skipHeader then records.tail else records)

/-! ## Runs -/

/-- The items of records that can all be read, numbered from one. -/
def items (columns : Columns) (rowNumber : Nat) : List (List String) → List ParsedItem
  | [] => []
  | record :: rest => item columns (rowNumber + 1) record :: items columns (rowNumber + 1) rest

theorem readItems_ok (path : PathBuf) (columns : Columns) (rowNumber : Nat)
    (records : List (List String)) :
    readItems path columns rowNumber (records.map .ok) = .ok (items columns rowNumber records) := by
  induction records generalizing rowNumber with
  | nil => rfl
  | cons record rest ih =>
      simp only [List.map_cons, readItems, ih, items]
      rfl

/-- A property of each item of a row is one of the items of all rows. -/
theorem forall₂_items_iff {A : Type} {R : A → ParsedItem → Prop} {row : A → List String}
    {kept : A → Prop} {columns : Columns} {as : List A}
    (hitem : ∀ a ∈ as, ∀ rowNumber, R a (item columns rowNumber (row a)) ↔ kept a)
    (rowNumber : Nat) :
    List.Forall₂ R as (items columns rowNumber (as.map row)) ↔ ∀ a ∈ as, kept a := by
  induction as generalizing rowNumber with
  | nil => simp [items]
  | cons a as ih =>
      have hfirst := hitem a List.mem_cons_self (rowNumber + 1)
      have hrest := ih (fun b hb => hitem b (List.mem_cons_of_mem a hb)) (rowNumber + 1)
      simp [items, hfirst, hrest]

end CsvParser

end OakKeyring
