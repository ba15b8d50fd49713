import OakKeyring.ImportExport.Okb
import OakKeyring.ImportExport.Validation

/-!
# The import service

A session is created for a file, the file is parsed, validated and mapped, and the records that
pass are handed to the executor. Sessions are kept by their ids.
-/

namespace OakKeyring

open Effect Transfer

def CredentialType.fromDbStr : String → Option CredentialType
  | "login" => some Login
  | "api" => some Api
  | "ssh" => some Ssh
  | "secure_note" => some SecureNote
  | _ => none

/-- The type that an item names, or the one its fields look like. -/
def inferCredentialType (fields : FieldMap) : CredentialType :=
  match (fields.lookup "credential_type").bind CredentialType.fromDbStr with
  | some credentialType => credentialType
  | none =>
      let has (key : String) : Bool := (fields.lookup key).isSome
      if has "username" && has "password" then .Login
      else if has "app_id" && has "secret_key" then .Api
      else if has "public_key" && has "private_key" then .Ssh
      else .Login

/-- What of a mapped record is imported: the fields of the item as they are. -/
structure MappedRecord where
  credentialType : CredentialType
  fields : FieldMap
  tags : List String
  sourceItemId : String
deriving DecidableEq

def mapParsedItem (item : ParsedItem) : MappedRecord where
  credentialType := inferCredentialType item.fields
  fields := item.fields
  tags := item.tags
  sourceItemId := item.sourceId

/-! ## Duplicates -/

/-- Two records with the same key are duplicates. -/
structure ExistingRecordKey where
  name : String
  credentialType : String
  coreField : String
deriving DecidableEq, Repr

section Duplicates

variable [Unicode]

def coreFieldForType (credentialType : String) (fields : FieldMap) : String :=
  let field :=
    match credentialType with
    | "api" => fields.lookup "app_id"
    | "ssh" => fields.lookup "public_key"
    | _ => fields.lookup "username"
  (field.map toLowercase).getD ""

def itemToKey (item : ParsedItem) : ExistingRecordKey :=
  let credentialType := ((item.fields.lookup "credential_type").map toLowercase).getD ""
  { name := ((item.fields.lookup "name").map toLowercase).getD ""
    credentialType := credentialType
    coreField := coreFieldForType credentialType item.fields }

def detectDuplicates (items : List ParsedItem) (existingKeys : List ExistingRecordKey) :
    List Bool :=
  items.map fun item => existingKeys.contains (itemToKey item)

end Duplicates

/-! ## Sessions -/

inductive ImportSessionStatus
  | Created
  | Validating
  | Validated
  | Importing
  | Completed
  | Cancelled
  | Failed
deriving DecidableEq, Repr

def ImportSessionStatus.debug : ImportSessionStatus → String
  | Created => "Created"
  | Validating => "Validating"
  | Validated => "Validated"
  | Importing => "Importing"
  | Completed => "Completed"
  | Cancelled => "Cancelled"
  | Failed => "Failed"

structure ImportSession where
  id : Uuid
  source : ImportSource
  filePath : PathBuf
  decryptPassword : Option String
  csvMapping : Option CsvColumnMapping
  importAsNotes : Bool
  status : ImportSessionStatus
  validationResult : Option ImportValidationSummary
  mappedRecords : List MappedRecord
  createdAt : DateTime

abbrev ImportSessions := AList fun _ : Uuid => ImportSession

def createImportSession (sessions : ImportSessions) (source : ImportSource) (filePath : PathBuf)
    (decryptPassword : Option String) (csvMapping : Option CsvColumnMapping)
    (importAsNotes : Bool) : Prog TransferI (Uuid × ImportSessions) := do
  let id : Uuid ← perform (.vault .newUuid)
  let createdAt : DateTime ← perform (.vault .now)
  let session : ImportSession :=
    { id := id
      source := source
      filePath := filePath
      decryptPassword := decryptPassword
      csvMapping := csvMapping
      importAsNotes := importAsNotes
      status := .Created
      validationResult := none
      mappedRecords := []
      createdAt := createdAt }
  return (id, sessions.insert id session)

structure ImportPreview where
  importable : Nat
  needsReview : Nat
  failed : Nat
  reviewItems : List ReviewItem
  failedItems : List FailedItem
  csvHeaders : List String
deriving DecidableEq, Repr

section Validating

variable [Crypto] [Argon2] [ExportFormats] [TextPatterns]

/-- The parser that is registered for the source. -/
def parseFile (session : ImportSession) : TransferM (List ParsedItem) :=
  match session.source with
  | .OpenKeyringBackup => OkbParser.parse session.filePath session.decryptPassword
  | source =>
      Fallible.call (I := TransferI)
        (.parse source session.filePath session.decryptPassword session.csvMapping)
        (fun (answer : Except ImportExportError (List ParsedItem)) => answer) id

/-- `read_csv_headers(..).unwrap_or_default()`, for CSV sources. -/
def headersOf (session : ImportSession) : Prog TransferI (List String) :=
  match session.source with
  | .Csv => perform (.readCsvHeaders session.filePath)
  | _ => pure []

def previewOf (summary : ImportValidationSummary) (csvHeaders : List String) : ImportPreview where
  importable := summary.importable
  needsReview := summary.needsReview
  failed := summary.failed
  reviewItems := summary.reviewItems
  failedItems := summary.failedItems
  csvHeaders := csvHeaders

/-- Parses, validates and maps the file of a session that was just created. -/
def validateImportFile (sessions : ImportSessions) (id : Uuid) :
    Prog TransferI (Except ImportExportError ImportPreview × ImportSessions) := do
  match sessions.lookup id with
  | none => return (.error (.SessionNotFound id), sessions)
  | some session =>
      if session.status ≠ .Created then
        return (.error (.InvalidSessionStatus "Created" session.status.debug), sessions)
      else
        match ← (parseFile session).run with
        | .error e => return (.error e, sessions.insert id { session with status := .Failed })
        | .ok items =>
            let summary := validateItems items (getRulesForFormat session.source)
            let csvHeaders ← headersOf session
            return (.ok (previewOf summary csvHeaders),
              sessions.insert id
                { session with
                  status := .Validated
                  validationResult := some summary
                  mappedRecords := items.map mapParsedItem })

end Validating

/-! ## The import -/

structure ImportableRecord where
  credentialType : CredentialType
  fields : FieldMap
  tags : List String
  isReview : Bool
deriving DecidableEq

structure ImportParams where
  sessionId : Uuid
  existingKeys : List ExistingRecordKey
  importAsNotes : Bool

structure ImportResult where
  imported : Nat
  reviewed : Nat
  skipped : Nat
  failed : Nat
  validationFailed : Nat
deriving DecidableEq, Repr

/-- The record that stands for a review item. -/
def reviewRecord (item : ReviewItem) : ImportableRecord where
  credentialType := .Login
  fields := .of [("name", item.name)]
  tags := []
  isReview := true

/-- The item of a mapped record for the search of duplicates. -/
def parsedForDup (record : MappedRecord) : ParsedItem where
  sourceId := record.sourceItemId
  fields := record.fields.insert "credential_type" record.credentialType.toDbStr
  tags := record.tags

def importable (record : MappedRecord) : ImportableRecord where
  credentialType := record.credentialType
  fields := record.fields
  tags := record.tags
  isReview := false

/-- What the loop over the mapped records has found so far. -/
structure Sorted where
  importable : List ImportableRecord
  skipped : Nat
  validationFailed : Nat

/-- The loop body: a record that failed the validation, a duplicate, or one to import. -/
def sortRecord (itemPassed dupFlags : List Bool) (found : Sorted) (e : MappedRecord × Nat) :
    Sorted :=
  if itemPassed[e.2]? = some false then
    { found with validationFailed := found.validationFailed + 1 }
  else if dupFlags[e.2]? = some true then { found with skipped := found.skipped + 1 }
  else { found with importable := found.importable ++ [importable e.1] }

def sortRecords (itemPassed dupFlags : List Bool) (records : List MappedRecord) : Sorted :=
  records.zipIdx.foldl (sortRecord itemPassed dupFlags)
    { importable := []
      skipped := 0
      validationFailed := 0 }

section Executing

variable [Unicode]

/-- The records to create; the mapped records are taken out of the session. -/
def executeImport (sessions : ImportSessions) (params : ImportParams) :
    Except ImportExportError (ImportResult × List ImportableRecord) × ImportSessions :=
  match sessions.lookup params.sessionId with
  | none => (.error (.SessionNotFound params.sessionId), sessions)
  | some session =>
      if session.status ≠ .Validated then
        (.error (.InvalidSessionStatus "Validated" session.status.debug), sessions)
      else
        let itemPassed :=
          (session.validationResult.map ImportValidationSummary.itemPassed).getD []
        let reviewed :=
          if params.importAsNotes then
            ((session.validationResult.map ImportValidationSummary.reviewItems).getD []).map
              reviewRecord
          else []
        let dupFlags := detectDuplicates (session.mappedRecords.map parsedForDup)
          params.existingKeys
        let found := sortRecords itemPassed dupFlags session.mappedRecords
        let result : ImportResult :=
          { imported := found.importable.length
            reviewed := reviewed.length
            skipped := found.skipped
            failed := 0
            validationFailed := found.validationFailed }
        (.ok (result, found.importable ++ reviewed),
          sessions.insert params.sessionId
            { session with
              status := .Completed
              mappedRecords := [] })

end Executing

/-! ## What is imported -/

/-- With no keys to compare with, the records whose items passed are imported, in their order. -/
theorem sortRecords_unmatched {α : Type} (mapped : α → MappedRecord) (passed : α → Bool)
    (items : List α) :
    sortRecords (items.map passed) ((items.map mapped).map fun _ => false) (items.map mapped) =
      { importable := (items.filter passed).map fun item => importable (mapped item)
        skipped := 0
        validationFailed := (items.filter fun item => !passed item).length } := by
  -- the position of an item is the number of those before it
  have hgen : ∀ (rest done : List α), items = done ++ rest →
      ((rest.map mapped).zipIdx done.length).foldl
          (sortRecord (items.map passed) ((items.map mapped).map fun _ => false))
          { importable := (done.filter passed).map fun item => importable (mapped item)
            skipped := 0
            validationFailed := (done.filter fun item => !passed item).length } =
        { importable := (items.filter passed).map fun item => importable (mapped item)
          skipped := 0
          validationFailed := (items.filter fun item => !passed item).length } := by
    intro rest
    induction rest with
    | nil =>
        intro done hitems
        rw [List.append_nil] at hitems
        rw [hitems]
        rfl
    | cons item rest ih =>
        intro done hitems
        have hnext := ih (done ++ [item]) (by simpa using hitems)
        have hpassed : (items.map passed)[done.length]? = some (passed item) := by
          rw [hitems]
          simp
        have hdup : ((items.map mapped).map fun _ => false)[done.length]? = some false := by
          rw [hitems]
          simp
        rw [List.map_cons, List.zipIdx_cons, List.foldl_cons]
        -- without duplicates an item is imported or skipped by its own result
        have hstep : sortRecord (items.map passed) ((items.map mapped).map fun _ => false)
            { importable := (done.filter passed).map fun item => importable (mapped item)
              skipped := 0
              validationFailed := (done.filter fun item => !passed item).length }
            (mapped item, done.length) =
              { importable := ((done ++ [item]).filter passed).map fun item =>
                  importable (mapped item)
                skipped := 0
                validationFailed := ((done ++ [item]).filter fun item => !passed item).length } := by
          unfold sortRecord
          dsimp only
          rw [hpassed, hdup]
          cases hp : passed item with
          | true => simp [hp]
          | false => simp [hp]
        rw [hstep]
        have hlength : (done ++ [item]).length = done.length + 1 := by simp
        rw [hlength] at hnext
        exact hnext
  exact hgen items [] rfl

end OakKeyring
