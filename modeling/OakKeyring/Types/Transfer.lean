import OakKeyring.Errors
import OakKeyring.Types.Listing

/-! # Files that records come from and go to -/

namespace OakKeyring

/-- A path is its components, without separators that repeat and without `.`. -/
structure PathBuf where
  absolute : Bool
  components : List String
deriving DecidableEq, Repr

namespace PathBuf

/-- `Path::display`. -/
def display (path : PathBuf) : String :=
  (if path.absolute then "/" else "") ++ "/".intercalate path.components

/-- `Path::file_name`. -/
def fileName (path : PathBuf) : Option String :=
  path.components.getLast?.filter fun name => name ≠ ".."

/-- `rsplit_file_at_dot`: the stem and the extension. -/
def splitAtDot (name : String) : String × Option String :=
  let parts := name.toList.splitOn '.'
  match parts.dropLast, parts.getLast? with
  | [], _ => (name, none)
  | [[]], _ => (name, none)
  | before, extension =>
      (String.ofList (['.'].intercalate before), extension.map String.ofList)

def extension (path : PathBuf) : Option String :=
  path.fileName.bind fun name => (splitAtDot name).2

def parent (path : PathBuf) : Option PathBuf :=
  if path.components.isEmpty then none
  else some { path with components := path.components.dropLast }

/-- `Path::with_extension`. -/
def withExtension (path : PathBuf) (extension : String) : PathBuf :=
  match path.fileName with
  | none => path
  | some name =>
      { path with
        components := path.components.dropLast ++ [(splitAtDot name).1 ++ "." ++ extension] }

end PathBuf

inductive ImportSource
  | KeePass
  | OnePassword1pux
  | OnePasswordOpvault
  | Bitwarden
  | Csv
  | OpenKeyringBackup
deriving DecidableEq, Repr

def ImportSource.debug : ImportSource → String
  | KeePass => "KeePass"
  | OnePassword1pux => "OnePassword1pux"
  | OnePasswordOpvault => "OnePasswordOpvault"
  | Bitwarden => "Bitwarden"
  | Csv => "Csv"
  | OpenKeyringBackup => "OpenKeyringBackup"

inductive ExportScope
  | All
  | CurrentFilter (filter : RecordFilter)
  | ByTag (name : String)
deriving DecidableEq, Repr

def ExportScope.debug [Unicode] : ExportScope → String
  | All => "All"
  | CurrentFilter filter => s!"CurrentFilter({filter.debug})"
  | ByTag name => s!"ByTag({Unicode.debug name})"

inductive ExportFormat
  | Okb
  | Csv
deriving DecidableEq, Repr

structure CsvColumnMapping where
  nameColumn : String
  usernameColumn : String
  passwordColumn : String
  urlColumn : String
  notesColumn : String
  tagsColumn : Option String
  skipHeader : Bool
deriving DecidableEq, Repr

/-! ## Errors -/

inductive ImportExportError
  | FileNotFound (path : PathBuf)
  | FileReadError (path : PathBuf) (reason : String)
  | FileWriteError (path : PathBuf) (reason : String)
  | DecryptionFailed (reason : String)
  | InvalidPassword
  | PasswordRequired
  | ParseError (format reason : String)
  | InvalidFormat (reason : String)
  | UnsupportedFormat (format : String)
  | EncryptionFailed (reason : String)
  | KeyDerivationFailed (reason : String)
  | SessionNotFound (id : Uuid)
  | InvalidSessionStatus (expected actual : String)
  | VaultError (reason : String)
  | InternalError (reason : String)
deriving DecidableEq, Repr

def ImportExportError.toText : ImportExportError → String
  | FileNotFound path => s!"file not found: {path.display}"
  | FileReadError path reason => s!"failed to read file {path.display}: {reason}"
  | FileWriteError path reason => s!"failed to write file {path.display}: {reason}"
  | DecryptionFailed reason => s!"decryption failed: {reason}"
  | InvalidPassword => "invalid password"
  | PasswordRequired => "password required to decrypt this file"
  | ParseError format reason => s!"failed to parse {format}: {reason}"
  | InvalidFormat reason => s!"invalid format: {reason}"
  | UnsupportedFormat format => s!"unsupported format: {format}"
  | EncryptionFailed reason => s!"encryption failed: {reason}"
  | KeyDerivationFailed reason => s!"key derivation failed: {reason}"
  | SessionNotFound id => s!"session not found: {id.toText}"
  | InvalidSessionStatus expected actual =>
      s!"invalid session status: expected {expected}, got {actual}"
  | VaultError reason => s!"vault error: {reason}"
  | InternalError reason => s!"internal error: {reason}"

end OakKeyring
