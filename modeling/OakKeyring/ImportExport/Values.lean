import OakKeyring.ImportExport.Import
import OakKeyring.Types.Contains

/-!
# What the items of an export carry

The values of an item, those that its parser drops unless they are somewhere else, and the texts
that it carries over.
-/

namespace OakKeyring

/-! ## Items -/

/-- An item of an export of Bitwarden. The secret is in the file, and is not read. -/
structure BitwardenEntry where
  item : BitwardenItem
  /-- `login.totp` -/
  totp : Option String
deriving DecidableEq, Repr

/-- An item of one of the formats with items of their own. -/
inductive ForeignItem
  | bitwarden (entry : BitwardenEntry)
  | onePux (item : OnePuxItem)
  | opVault (entry : OpVaultEntry)
  | keePass (entry : KeePassEntry)

def ForeignItem.source : ForeignItem → ImportSource
  | bitwarden _ => .Bitwarden
  | onePux _ => .OnePassword1pux
  | opVault _ => .OnePasswordOpvault
  | keePass _ => .KeePass

/-- The parser of the format makes an item of it, wherever it is in the file. -/
def ForeignItem.ParsesTo [Parsers] : ForeignItem → ParsedItem → Prop
  | bitwarden entry, parsed => ∃ index, Bitwarden.parseItem index entry.item = some parsed
  | onePux item, parsed => ∃ index, OnePux.parseItem index item = some parsed
  | opVault entry, parsed => OpVault.parseEntry Parsers.printValue entry = some parsed
  | keePass entry, parsed => ∃ groupPath, KeePass.entryToParsedItem entry groupPath = parsed

/-! ## Values -/

namespace JsonValue

mutual

/-- The texts in a document. -/
def texts : JsonValue → List String
  | null => []
  | bool _ => []
  | number _ => []
  | otherNumber _ => []
  | string s => [s]
  | array items => textsOfItems items
  | object fields => textsOfFields fields

def textsOfItems : List JsonValue → List String
  | [] => []
  | v :: rest => texts v ++ textsOfItems rest

def textsOfFields : List (String × JsonValue) → List String
  | [] => []
  | (_, v) :: rest => texts v ++ textsOfFields rest

end

end JsonValue

def firstNonEmpty (values : List String) : Option String :=
  values.find? fun value => value ≠ ""

namespace Bitwarden

variable (entry : BitwardenEntry)

def usernameOf : Option String :=
  entry.item.login.bind BitwardenLogin.username

def passwordOf : Option String :=
  entry.item.login.bind BitwardenLogin.password

def urisOf : List (Option String) :=
  (entry.item.login.bind BitwardenLogin.uris).getD []

/-- The first entry, whether it is empty or not. -/
def urlOf : String :=
  ((urisOf entry).head?.bind id).getD ""

def customValues : List String :=
  (entry.item.fields.getD []).filterMap BitwardenField.value

def values : List String :=
  entry.item.name.toList ++ (usernameOf entry).toList ++ (passwordOf entry).toList ++
    (firstNonEmpty ((urisOf entry).filterMap id)).toList ++ entry.totp.toList ++
      entry.item.notes.toList ++ customValues entry

/-- The secret, and the first address if there is an empty entry before it. -/
def dropped : List String :=
  entry.totp.toList ++ (firstNonEmpty ((urisOf entry).filterMap id)).toList.filter
    fun url => url ≠ urlOf entry

def texts : List String :=
  [entry.item.name.getD "", (usernameOf entry).getD "", (passwordOf entry).getD "", urlOf entry,
    buildNotes entry.item.notes entry.item.fields]

end Bitwarden

namespace OnePux

def loginValues (details : OnePuxDetails) : List String :=
  details.loginFields.filterMap OnePuxLoginField.value ++ details.password.toList

def urlsOf (overview : OnePuxOverview) : List String :=
  overview.url.toList ++ (overview.urls.getD []).filterMap id

def sectionFields (details : OnePuxDetails) : List OnePuxSectionField :=
  details.sections.flatMap fun fields => fields.getD []

def sectionTexts (field : OnePuxSectionField) : List String :=
  (field.value.map JsonValue.texts).getD []

/-- All texts of a field without a title, and of others those that are not extracted. -/
def sectionDropped (field : OnePuxSectionField) : List String :=
  (sectionTexts field).filter fun value =>
    (sectionLine field).isNone ∨ extractSectionValue field.value ≠ some value

variable (item : OnePuxItem)

def usernameOf : String :=
  (item.details.map fun details => designated details.loginFields "username").getD ""

def urlValue : Option String :=
  firstNonEmpty ((item.overview.map urlsOf).getD [])

def values : List String :=
  (item.overview.bind OnePuxOverview.title).toList ++
    (item.details.map loginValues).getD [] ++ (urlValue item).toList ++
      (item.details.bind OnePuxDetails.notesPlain).toList ++
        ((item.details.map sectionFields).getD []).flatMap sectionTexts

/-- What is neither the user name nor the password, an address after an empty one, and what the
sections lose. -/
def dropped : List String :=
  ((item.details.map loginValues).getD []).filter
      (fun value => value ≠ usernameOf item ∧ value ≠ (item.details.map passwordOf).getD "") ++
    (urlValue item).toList.filter (fun url => url ≠ extractUrl item.overview) ++
      ((item.details.map sectionFields).getD []).flatMap sectionDropped

def texts : List String :=
  [titleOf item, usernameOf item, (item.details.map passwordOf).getD "",
    extractUrl item.overview, buildNotes item.details]

end OnePux

namespace OpVault

/-- What a field of a section is used for. -/
inductive SectionUse
  | username (value : String)
  | password (value : String)
  | url (value : String)
  | line (text : String)
  | nothing

section

variable (printValue : JsonValue → String)

def useOf (fields : FieldMap) (field : OpVaultSectionField) : SectionUse :=
  match field.n, field.v with
  | some n, some v =>
      let value := (v.asStr).getD (printValue v)
      if value = "" then .nothing
      else if n = "username" ∧ (fields.lookup "username").isNone then .username value
      else if n = "password" ∧ (fields.lookup "password").isNone then .password value
      else if n = "url" ∧ (fields.lookup "url").isNone then .url value
      else if n.startsWith "TOTP_" then .line s!"TOTP: {value}"
      else
        match field.t with
        | some title => .line s!"{title}: {value}"
        | none => .nothing
  | _, _ => .nothing

variable (entry : OpVaultEntry)

def urlOf : String :=
  (entry.overview.urls.head?.orElse fun _ => entry.overview.url).getD ""

/-- The fields before the sections are read. -/
def ownFields : FieldMap :=
  (((FieldMap.of [("name", entry.overview.title)]).insertNonEmpty "url"
    (urlOf entry)).insertNonEmpty "username"
      (designated entry.details.fields "username")).insertNonEmpty "password"
        (passwordOf entry.details)

def found : Sections :=
  entry.details.sections.flatten.foldl (readSection printValue (ownFields entry))
    { username := ""
      password := ""
      url := ""
      notes := (entry.details.notesPlain.filter fun notes => notes ≠ "").toList }

def loginValues (details : OpVaultDetails) : List String :=
  details.fields.filterMap OpVaultField.value ++ details.password.toList

def urlValue : Option String :=
  firstNonEmpty (entry.overview.urls ++ entry.overview.url.toList)

def sectionTexts (field : OpVaultSectionField) : List String :=
  (field.v.map JsonValue.texts).getD []

/-- A field that stands for one of the login is replaced by a later one; one without a title is
dropped; a document is printed, so that its texts may be escaped. -/
def sectionDropped (field : OpVaultSectionField) : List String :=
  match useOf printValue (ownFields entry) field with
  | .username _ =>
      (sectionTexts field).filter fun value => value ≠ (found printValue entry).username
  | .password _ =>
      (sectionTexts field).filter fun value => value ≠ (found printValue entry).password
  | .url _ => (sectionTexts field).filter fun value => value ≠ (found printValue entry).url
  | .line _ => if (field.v.bind JsonValue.asStr).isSome then [] else sectionTexts field
  | .nothing => sectionTexts field

def values : List String :=
  entry.overview.title :: (loginValues entry.details ++ (urlValue entry).toList ++
    entry.details.notesPlain.toList ++ entry.details.sections.flatten.flatMap sectionTexts)

def dropped : List String :=
  (loginValues entry.details).filter
      (fun value => value ≠ designated entry.details.fields "username" ∧
        value ≠ passwordOf entry.details) ++
    (urlValue entry).toList.filter (fun url => url ≠ urlOf entry) ++
      entry.details.sections.flatten.flatMap (sectionDropped printValue entry)

/-- A value of the overview or the fields, or else one of the sections. -/
def orSection (value other : String) : String :=
  if value = "" then other else value

def texts : List String :=
  [entry.overview.title,
    orSection (designated entry.details.fields "username") (found printValue entry).username,
    orSection (passwordOf entry.details) (found printValue entry).password,
    orSection (urlOf entry) (found printValue entry).url,
    joinLines (found printValue entry).notes]

end

end OpVault

namespace KeePass

variable (entry : KeePassEntry)

def values : List String :=
  entry.fields.entries.map fun field => field.2

def texts : List String :=
  [entry.fields.text KP_TITLE, entry.fields.text KP_USERNAME, entry.fields.text KP_PASSWORD,
    entry.fields.text KP_URL, notesOf entry]

end KeePass

namespace ForeignItem

variable [Parsers]

/-- The values of an item: its title, user name, password, first address, notes, secret, and the
values of the fields it has beyond them. -/
def values : ForeignItem → List String
  | bitwarden entry => Bitwarden.values entry
  | onePux item => OnePux.values item
  | opVault entry => OpVault.values entry
  | keePass entry => KeePass.values entry

/-- The values that the parser does not carry over by themselves. -/
def dropped : ForeignItem → List String
  | bitwarden entry => Bitwarden.dropped entry
  | onePux item => OnePux.dropped item
  | opVault entry => OpVault.dropped Parsers.printValue entry
  | keePass _ => []

/-- The texts that are carried over: title, user name, password, address and notes. -/
def texts : ForeignItem → List String
  | bitwarden entry => Bitwarden.texts entry
  | onePux item => OnePux.texts item
  | opVault entry => OpVault.texts Parsers.printValue entry
  | keePass entry => KeePass.texts entry

/-- What is dropped of an item occurs in its texts all the same. -/
def Covered (item : ForeignItem) : Prop :=
  ∀ value ∈ item.dropped, value ≠ "" → Appears item.texts value

end ForeignItem

end OakKeyring
