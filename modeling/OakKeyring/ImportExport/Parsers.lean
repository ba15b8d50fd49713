import OakKeyring.Types.JsonValue
import OakKeyring.Types.Transfer
import Mathlib.Data.List.AList

/-!
# What foreign exports are made of

Every parser brings its items into one form, a map of text fields. The documents themselves are
read by crates; what is made of an item is here.
-/

namespace OakKeyring

/-- The fields of an item, `HashMap<String, String>`. -/
abbrev FieldMap := AList fun _ : String => String

namespace FieldMap

/-- Insertions one after the other. -/
def of (entries : List (String × String)) : FieldMap :=
  entries.foldl (fun fields e => fields.insert e.1 e.2) ∅

/-- `fields.get(key)`, and the empty text if there is none. -/
def text (fields : FieldMap) (key : String) : String :=
  (fields.lookup key).getD ""

def insertNonEmpty (fields : FieldMap) (key value : String) : FieldMap :=
  if value = "" then fields else fields.insert key value

def insertOptional (fields : FieldMap) (key : String) (value : Option String) : FieldMap :=
  match value with
  | some v => fields.insert key v
  | none => fields

end FieldMap

/-- What every parser makes of an item. -/
structure ParsedItem where
  sourceId : String
  fields : FieldMap
  tags : List String
deriving DecidableEq

/-- The lines of notes, each on its own. -/
def joinLines (parts : List String) : String :=
  "\n".intercalate parts

/-! ## Bitwarden -/

structure BitwardenField where
  name : Option String
  value : Option String
deriving DecidableEq, Repr

structure BitwardenLogin where
  username : Option String
  password : Option String
  /-- the `uri` of each entry -/
  uris : Option (List (Option String))
deriving DecidableEq, Repr

structure BitwardenItem where
  itemType : Nat
  name : Option String
  login : Option BitwardenLogin
  notes : Option String
  fields : Option (List BitwardenField)
deriving DecidableEq, Repr

structure BitwardenExport where
  encrypted : Option Bool
  items : List BitwardenItem
deriving DecidableEq, Repr

namespace Bitwarden

def TYPE_LOGIN : Nat := 1
def TYPE_SECURE_NOTE : Nat := 2

/-- The line of a custom field. -/
def fieldLine (field : BitwardenField) : String :=
  let name := field.name.getD "unnamed"
  let value := field.value.getD ""
  s!"Field: {name} = {value}"

/-- `build_notes`: the custom fields are appended as lines. -/
def buildNotes (baseNotes : Option String) (fields : Option (List BitwardenField)) : String :=
  (fields.getD []).foldl
    (fun result field =>
      (if result = "" then result else result ++ "\n") ++
        fieldLine field)
    (baseNotes.getD "")

def parseLoginItem (index : Nat) (item : BitwardenItem) : ParsedItem where
  sourceId := s!"bw-{index}"
  fields :=
    .of [("name", item.name.getD ""),
      ("username", (item.login.bind BitwardenLogin.username).getD ""),
      ("password", (item.login.bind BitwardenLogin.password).getD ""),
      ("url", (((item.login.bind BitwardenLogin.uris).bind List.head?).bind id).getD ""),
      ("notes", buildNotes item.notes item.fields)]
  tags := []

def parseSecureNoteItem (index : Nat) (item : BitwardenItem) : ParsedItem where
  sourceId := s!"bw-{index}"
  fields :=
    .of [("name", item.name.getD ""), ("username", ""), ("password", ""), ("url", ""),
      ("notes", buildNotes item.notes item.fields)]
  tags := []

/-- Cards, identities and unknown types are skipped. -/
def parseItem (index : Nat) (item : BitwardenItem) : Option ParsedItem :=
  if item.itemType = TYPE_LOGIN then some (parseLoginItem index item)
  else if item.itemType = TYPE_SECURE_NOTE then some (parseSecureNoteItem index item)
  else none

def parse (contents : BitwardenExport) : Except ImportExportError (List ParsedItem) :=
  if contents.encrypted = some true then .error .PasswordRequired
  else .ok (contents.items.zipIdx.filterMap fun e => parseItem e.2 e.1)

end Bitwarden

/-! ## 1Password -/

structure OnePuxLoginField where
  designation : Option String
  value : Option String
deriving DecidableEq, Repr

structure OnePuxSectionField where
  id : Option String
  title : Option String
  value : Option JsonValue

structure OnePuxDetails where
  loginFields : List OnePuxLoginField
  notesPlain : Option String
  /-- the fields of each section -/
  sections : List (Option (List OnePuxSectionField))
  password : Option String

structure OnePuxOverview where
  title : Option String
  tags : Option (List String)
  url : Option String
  /-- the `url` of each entry -/
  urls : Option (List (Option String))
deriving DecidableEq, Repr

structure OnePuxItem where
  uuid : Option String
  categoryUuid : String
  state : Option String
  details : Option OnePuxDetails
  overview : Option OnePuxOverview

namespace OnePux

def CATEGORY_LOGIN : String := "001"
def CATEGORY_PASSWORD : String := "005"
def CATEGORY_SECURE_NOTE : String := "003"

/-- The first text among the values of an object, or among those of an object in it. -/
def firstText (fields : List (String × JsonValue)) : Option String :=
  fields.findSome? fun f =>
    match f.2 with
    | .string s => some s
    | .object inner => inner.findSome? fun g => g.2.asStr
    | _ => none

/-- A text, or what the first of the known keys that holds one has, or the first text. -/
def extractSectionValue : Option JsonValue → Option String
  | some (.string s) => some s
  | some (.object fields) =>
      match ["totp", "string", "concealed", "phone"].findSome? fun key =>
          ((JsonValue.object fields).field key).asStr with
      | some s => some s
      | none => firstText fields
  | _ => none

def sectionLine (field : OnePuxSectionField) : Option String :=
  match extractSectionValue field.value with
  | none => none
  | some value =>
      if value = "" then none
      else if (field.id.getD "").startsWith "TOTP_" then some s!"TOTP: {value}"
      else field.title.map fun title => s!"{title}: {value}"

def buildNotes (details : Option OnePuxDetails) : String :=
  match details with
  | none => ""
  | some details =>
      joinLines
        ((details.notesPlain.filter fun notes => notes ≠ "").toList ++
          details.sections.flatMap fun fields => (fields.getD []).filterMap sectionLine)

def extractUrl (overview : Option OnePuxOverview) : String :=
  (overview.bind fun o =>
    match o.url.filter fun url => url ≠ "" with
    | some url => some url
    | none => (o.urls.bind List.head?).bind id).getD ""

/-- The value of the last field with the designation. -/
def designated (fields : List OnePuxLoginField) (designation : String) : String :=
  fields.foldl
    (fun value field =>
      if field.designation = some designation then field.value.getD "" else value) ""

def passwordOf (details : OnePuxDetails) : String :=
  if designated details.loginFields "password" = "" then details.password.getD ""
  else designated details.loginFields "password"

def titleOf (item : OnePuxItem) : String :=
  (item.overview.bind OnePuxOverview.title).getD ""

def parsedWith (index : Nat) (item : OnePuxItem) (fields : FieldMap) : ParsedItem where
  sourceId := item.uuid.getD s!"1p-{index}"
  fields := fields
  tags := (item.overview.bind OnePuxOverview.tags).getD []

def parseLoginItem (index : Nat) (item : OnePuxItem) : ParsedItem :=
  parsedWith index item <|
    ((FieldMap.of
      [("name", titleOf item),
        ("username", (item.details.map fun d => designated d.loginFields "username").getD ""),
        ("password", (item.details.map passwordOf).getD "")]).insertNonEmpty
          "url" (extractUrl item.overview)).insertNonEmpty "notes" (buildNotes item.details)

def parseSecureNoteItem (index : Nat) (item : OnePuxItem) : ParsedItem :=
  parsedWith index item <|
    (FieldMap.of [("name", titleOf item)]).insertNonEmpty "notes" (buildNotes item.details)

/-- Archived items and other categories are skipped. -/
def parseItem (index : Nat) (item : OnePuxItem) : Option ParsedItem :=
  if item.state = some "archived" then none
  else if item.categoryUuid = CATEGORY_LOGIN ∨ item.categoryUuid = CATEGORY_PASSWORD then
    some (parseLoginItem index item)
  else if item.categoryUuid = CATEGORY_SECURE_NOTE then some (parseSecureNoteItem index item)
  else none

/-- The items of all vaults of all accounts. -/
def parse (items : List OnePuxItem) : List ParsedItem :=
  items.zipIdx.filterMap fun e => parseItem e.2 e.1

end OnePux

structure OpVaultField where
  designation : Option String
  value : Option String
deriving DecidableEq, Repr

structure OpVaultSectionField where
  n : Option String
  t : Option String
  v : Option JsonValue

structure OpVaultDetails where
  fields : List OpVaultField
  /-- the fields of each section -/
  sections : List (List OpVaultSectionField)
  notesPlain : Option String
  password : Option String

structure OpVaultOverview where
  title : String
  /-- the `u` of each entry -/
  urls : List String
  url : Option String
  tags : List String
deriving DecidableEq, Repr

/-- An entry that is not trashed, decrypted. -/
structure OpVaultEntry where
  uuid : String
  category : String
  overview : OpVaultOverview
  details : OpVaultDetails

namespace OpVault

/-- The value of the last field with the designation. -/
def designated (fields : List OpVaultField) (designation : String) : String :=
  fields.foldl
    (fun value field =>
      if field.designation = some designation then field.value.getD "" else value) ""

def passwordOf (details : OpVaultDetails) : String :=
  if designated details.fields "password" = "" then details.password.getD ""
  else designated details.fields "password"

/-- What the sections add to the fields and to the notes. -/
structure Sections where
  username : String
  password : String
  url : String
  notes : List String

/-- `printValue` prints a value that is not a text. -/
def readSection (printValue : JsonValue → String) (fields : FieldMap) (found : Sections)
    (field : OpVaultSectionField) : Sections :=
  match field.n, field.v with
  | some n, some v =>
      let value := (v.asStr).getD (printValue v)
      if value = "" then found
      else if n = "username" ∧ (fields.lookup "username").isNone then
        { found with username := value }
      else if n = "password" ∧ (fields.lookup "password").isNone then
        { found with password := value }
      else if n = "url" ∧ (fields.lookup "url").isNone then { found with url := value }
      else if n.startsWith "TOTP_" then
        { found with notes := found.notes ++ [s!"TOTP: {value}"] }
      else
        match field.t with
        | some title => { found with notes := found.notes ++ [s!"{title}: {value}"] }
        | none => found
  | _, _ => found

def parseEntry (printValue : JsonValue → String) (entry : OpVaultEntry) : Option ParsedItem :=
  let url := (entry.overview.urls.head?.orElse fun _ => entry.overview.url).getD ""
  let fields :=
    (((FieldMap.of [("name", entry.overview.title)]).insertNonEmpty "url" url).insertNonEmpty
      "username" (designated entry.details.fields "username")).insertNonEmpty
        "password" (passwordOf entry.details)
  let found := entry.details.sections.flatten.foldl (readSection printValue fields)
    { username := ""
      password := ""
      url := ""
      notes := (entry.details.notesPlain.filter fun notes => notes ≠ "").toList }
  let item : ParsedItem :=
    { sourceId := entry.uuid
      fields :=
        (((fields.insertNonEmpty "username" found.username).insertNonEmpty
          "password" found.password).insertNonEmpty "url" found.url).insertNonEmpty
            "notes" (joinLines found.notes)
      tags := entry.overview.tags }
  if entry.category ∈ ["001", "003", "005", "110"] then some item else none

end OpVault

/-! ## KeePass -/

/-- An entry of a KeePass database; protected values are read as the others are. -/
structure KeePassEntry where
  uuid : String
  fields : FieldMap
  tags : List String
deriving DecidableEq

inductive KeePassGroup
  | mk (name : String) (entries : List KeePassEntry) (groups : List KeePassGroup)

namespace KeePass

def KP_TITLE : String := "Title"
def KP_USERNAME : String := "UserName"
def KP_PASSWORD : String := "Password"
def KP_URL : String := "URL"
def KP_NOTES : String := "Notes"

def customLine (key value : String) : String :=
  s!"Custom: {key} = {value}"

/-- The fields that are not standard, in the order of the map. -/
def buildCustomNotes (entry : KeePassEntry) (standardKeys : List String) : String :=
  joinLines
    ((entry.fields.entries.filter fun field => field.1 ∉ standardKeys).map fun field =>
      customLine field.1 field.2)

def notesOf (entry : KeePassEntry) : String :=
  let baseNotes := entry.fields.text KP_NOTES
  let customNotes :=
    buildCustomNotes entry [KP_TITLE, KP_USERNAME, KP_PASSWORD, KP_URL, KP_NOTES]
  if customNotes = "" then baseNotes
  else if baseNotes = "" then customNotes
  else baseNotes ++ "\n" ++ customNotes

/-- The names in the path of the group, and the tags of the entry that are not among them. -/
def tagsOf (entry : KeePassEntry) (groupPath : String) : List String :=
  entry.tags.foldl (fun tags tag => if tag ∈ tags then tags else tags ++ [tag])
    (((groupPath.toList.splitOn '/').map String.ofList).filter fun name => name ≠ "")

def entryToParsedItem (entry : KeePassEntry) (groupPath : String) : ParsedItem where
  sourceId := entry.uuid
  fields :=
    .of [("name", entry.fields.text KP_TITLE), ("username", entry.fields.text KP_USERNAME),
      ("password", entry.fields.text KP_PASSWORD), ("url", entry.fields.text KP_URL),
      ("notes", notesOf entry)]
  tags := tagsOf entry groupPath

def childPath (groupPath name : String) : String :=
  if groupPath = "" then name else s!"{groupPath}/{name}"

mutual

/-- The entries of a group, then those of the groups in it. -/
def walkGroup (groupPath : String) : KeePassGroup → List ParsedItem
  | .mk _ entries groups =>
      (entries.map fun entry => entryToParsedItem entry groupPath) ++ walkGroups groupPath groups

def walkGroups (groupPath : String) : List KeePassGroup → List ParsedItem
  | [] => []
  | .mk name entries groups :: rest =>
      walkGroup (childPath groupPath name) (.mk name entries groups) ++ walkGroups groupPath rest

end

def parse (root : KeePassGroup) : List ParsedItem :=
  walkGroup "" root

end KeePass

/-! ## The parsers -/

/-- What crates make of files: the documents of the formats with items of their own, and the items
of the others. -/
class Parsers where
  bitwarden : (PathBuf → Option Bytes) → PathBuf → Except ImportExportError BitwardenExport
  onePux : (PathBuf → Option Bytes) → PathBuf → Except ImportExportError (List OnePuxItem)
  opVault : (PathBuf → Option Bytes) → PathBuf → Option String →
    Except ImportExportError (List OpVaultEntry)
  /-- the root group of the database -/
  keePass : (PathBuf → Option Bytes) → PathBuf → Option String →
    Except ImportExportError KeePassGroup
  csv : (PathBuf → Option Bytes) → PathBuf → Option CsvColumnMapping →
    Except ImportExportError (List ParsedItem)
  /-- `serde_json::Value::to_string` -/
  printValue : JsonValue → String

/-- `FormatParser::parse` of the foreign formats; a backup is read by the program itself. -/
def Parsers.parse [Parsers] (files : PathBuf → Option Bytes) (source : ImportSource)
    (path : PathBuf) (password : Option String) (mapping : Option CsvColumnMapping) :
    Except ImportExportError (List ParsedItem) :=
  match source with
  | .Bitwarden => Parsers.bitwarden files path >>= Bitwarden.parse
  | .OnePassword1pux => (Parsers.onePux files path).map OnePux.parse
  | .OnePasswordOpvault =>
      (Parsers.opVault files path password).map fun entries =>
        entries.filterMap (OpVault.parseEntry Parsers.printValue)
  | .KeePass => (Parsers.keePass files path password).map KeePass.parse
  | .Csv => Parsers.csv files path mapping
  | .OpenKeyringBackup => .error (.UnsupportedFormat source.debug)

end OakKeyring
