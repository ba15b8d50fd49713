import OakKeyring.Executor.ImportRuns
import OakKeyring.Samples.Transfer

/-!
# Imports on a bench

Exports of Bitwarden as they are written, a vault without records, and a file to import into it.
-/

namespace OakKeyring

open Effect

namespace Json

def nullableText (value : Option String) : Option String :=
  some ((value.map quote).getD "null")

def bitwardenField (f : BitwardenField) : String :=
  object [("name", nullableText f.name), ("value", nullableText f.value)]

def bitwardenLogin (l : BitwardenLogin) : String :=
  object [("uris", l.uris.map fun uris => array (uris.map fun uri =>
      object [("uri", nullableText uri)])),
    ("username", nullableText l.username), ("password", nullableText l.password)]

def bitwardenItem (i : BitwardenItem) : String :=
  object [("type", some (toString i.itemType)), ("name", nullableText i.name),
    ("notes", nullableText i.notes), ("fields", i.fields.map fun fields =>
      array (fields.map bitwardenField)),
    ("login", i.login.map bitwardenLogin)]

def bitwardenExport (e : BitwardenExport) : String :=
  object [("encrypted", e.encrypted.map bool), ("items", some (array (e.items.map bitwardenItem)))]

end Json

/-- Files that hold one of the given exports of Bitwarden; nothing else is read. -/
@[reducible] def referenceParsers (exports : List BitwardenExport) : Parsers where
  bitwarden files path :=
    match files path with
    | some bytes =>
        (Json.read (fun e => Json.bytes (Json.bitwardenExport e)) exports bytes).mapError
          (.ParseError "bitwarden")
    | none => .error (.FileNotFound path)
  onePux _ path := .error (.FileNotFound path)
  opVault _ path _ := .error (.FileNotFound path)
  keePass _ path _ := .error (.FileNotFound path)
  csv _ path _ := .error (.FileNotFound path)
  printValue := Json.pretty 0

namespace FileImport

def path : PathBuf :=
  ⟨true, ["home", "user", "bitwarden.json"]⟩

def login : BitwardenItem where
  itemType := Bitwarden.TYPE_LOGIN
  name := some "mail"
  login := some { username := some "user", password := some "secret", uris := none }
  notes := none
  fields := none

def note : BitwardenItem where
  itemType := Bitwarden.TYPE_SECURE_NOTE
  name := some "note"
  login := none
  notes := some "text"
  fields := none

/-- An export with one item. -/
def document (item : BitwardenItem) : BitwardenExport where
  encrypted := some false
  items := [item]

/-- The payload of the login. -/
def payload : EncryptedPayload :=
  .Login "mail" "user" "secret" (some "") (some "")

abbrev crypto : Crypto :=
  referenceCrypto [payload]

theorem lawful : @LawfulCrypto crypto :=
  referenceCrypto_lawful fun _ hp => Json.read_of_nodup (List.nodup_singleton _) hp

abbrev parsers : Parsers :=
  referenceParsers [document login, document note]

abbrev unicode : Unicode where
  toLowercase text := String.ofList (text.toList.map Char.toLower)
  debug := Json.quote

/-- No rule of a format has a pattern or a date. -/
abbrev patterns : TextPatterns where
  regex _ := none
  isDateTime _ _ := false

abbrev exportFormats : ExportFormats :=
  referenceExportFormats [] []

def command : ImportCommand where
  sessionId := none
  source := .Bitwarden
  path := path
  password := none
  columnMapping := none
  importAsNotes := false

/-- A vault without records, and the file. -/
def bench (item : BitwardenItem) : TransferBench where
  vault :=
    { tables := .fresh Sample.seed
      uuids := [Uuid.filled 1, Uuid.filled 2, Uuid.filled 3, Uuid.filled 4]
      nonces := [Nonce.filled 1, Nonce.filled 2]
      fault := none }
  keystore := KeyStore.Changed.bench false
  files := fun other =>
    if other = path then some (Json.bytes (Json.bitwardenExport (document item))) else none
  patience := none

section

attribute [local instance] Sample.codec crypto lawful KeyStore.Changed.argon2 unicode parsers
  exportFormats patterns

def handler (sessions : ImportSessions) : Prog TransferI (ImportOutcome × ImportSessions) :=
  importFile .Direct (some OneVault.service) sessions command

/-- The import from a bench. -/
def complete (sessions : ImportSessions) (b : TransferBench) :
    (ImportOutcome × ImportSessions) × TransferBench :=
  b.complete KeyStore.Changed.newSalt KeyStore.Changed.newNonce Sample.instant (handler sessions)

def trace (sessions : ImportSessions) (b : TransferBench) : List (Event TransferI) :=
  b.completeTrace KeyStore.Changed.newSalt KeyStore.Changed.newNonce Sample.instant
    (handler sessions)

theorem returns_trace (sessions : ImportSessions) (b : TransferBench) {outcome : ImportOutcome}
    (h : (complete sessions b).1.1 = outcome) :
    (handler sessions).Returns (trace sessions b) (outcome, (complete sessions b).1.2) := by
  have hpair : (complete sessions b).1 = (outcome, (complete sessions b).1.2) := Prod.ext h rfl
  have hreturns : (handler sessions).Returns (trace sessions b) (complete sessions b).1 := by
    unfold trace complete
    exact TransferBench.returns_complete _ _ _ _ _
  rw [hpair] at hreturns
  exact hreturns

theorem path_trace (sessions : ImportSessions) (b : TransferBench) :
    Path transferEnv b.world (trace sessions b) (complete sessions b).2.world := by
  unfold trace complete
  exact TransferBench.path_complete _ _ _ _ _

end

end FileImport

end OakKeyring
