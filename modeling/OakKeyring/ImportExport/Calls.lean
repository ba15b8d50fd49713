import OakKeyring.Crypto.Keystore
import OakKeyring.ImportExport.Parsers
import OakKeyring.Lib.Embed
import OakKeyring.Vault.List

/-!
# What imports and exports call

A transfer works on the vault, on the key store, on files and on the cancel token. The parsers of
foreign formats are a call: what they make of a file is a property of the file.
-/

namespace OakKeyring

open Effect

inductive TransferCall
  | vault (c : VaultCall)
  | keystore (c : KeystoreCall)
  | isCancelled
  | pathExists (path : PathBuf)
  | readFile (path : PathBuf)
  | writeFile (path : PathBuf) (bytes : Bytes)
  | renameFile (source target : PathBuf)
  | parse (source : ImportSource) (path : PathBuf) (password : Option String)
      (mapping : Option CsvColumnMapping)
  | readCsvHeaders (path : PathBuf)
  | scheduleHealthCheck

def TransferCall.Answer : TransferCall → Type
  | vault c => c.Answer
  | keystore c => c.Answer
  | isCancelled => Bool
  | pathExists _ => Bool
  | readFile _ => Except String Bytes
  | writeFile _ _ => Except String Unit
  | renameFile _ _ => Except String Unit
  | parse .. => Except ImportExportError (List ParsedItem)
  | readCsvHeaders _ => List String
  | scheduleHealthCheck => Unit

def TransferI : Interface where
  Call := TransferCall
  Answer := TransferCall.Answer

/-- Where a transfer happens: the vault, the key store and the files of the user. -/
structure World where
  tables : Tables
  keystore : KeystoreDir
  files : PathBuf → Option Bytes

namespace World

def tablesPart : Part World Tables where
  get := World.tables
  set := fun w t => { w with tables := t }
  get_set := fun _ _ => rfl
  set_set := fun _ _ _ => rfl
  set_get := fun _ => rfl

def keystorePart : Part World KeystoreDir where
  get := World.keystore
  set := fun w d => { w with keystore := d }
  get_set := fun _ _ => rfl
  set_set := fun _ _ _ => rfl
  set_get := fun _ => rfl

def writeFile (w : World) (path : PathBuf) (content : Option Bytes) : World :=
  { w with files := fun other => if other = path then content else w.files other }

end World

/-- What a transfer may meet. A write that fails leaves anything in the file. -/
def transferEnv [Parsers] : Env TransferI World
  | w, .vault c, answer, w' =>
      ∃ t, vaultEnv w.tables c answer t ∧ w' = { w with tables := t }
  | w, .keystore c, answer, w' =>
      ∃ d, keystoreEnv w.keystore c answer d ∧ w' = { w with keystore := d }
  | w, .readFile path, answer, w' =>
      w' = w ∧ ((∃ bytes, w.files path = some bytes ∧ answer = .ok bytes) ∨
        ∃ e, answer = .error e)
  | w, .writeFile path bytes, answer, w' =>
      (w' = w.writeFile path (some bytes) ∧ answer = .ok ()) ∨
        ∃ content e, w' = w.writeFile path content ∧ answer = .error e
  | w, .renameFile source target, answer, w' =>
      (∃ bytes, w.files source = some bytes ∧
        w' = (w.writeFile source none).writeFile target (some bytes) ∧ answer = .ok ()) ∨
        w' = w ∧ ∃ e, answer = .error e
  | w, .parse source path password mapping, answer, w' =>
      w' = w ∧ (answer = Parsers.parse w.files source path password mapping ∨ ∃ e, answer = .error e)
  | w, .isCancelled, _, w' => w' = w
  | w, .pathExists _, _, w' => w' = w
  | w, .readCsvHeaders _, _, w' => w' = w
  | w, .scheduleHealthCheck, _, w' => w' = w

section Still

variable [Parsers] {w : World}

/-- Identifiers and the time are drawn without a change. -/
theorem vault_fresh_still (x : Uuid) (w' : World) (h : transferEnv w (.vault .newUuid) x w') :
    w' = w := by
  rcases h with ⟨t, ht, hw⟩
  have ht : t = w.tables := ht
  rw [hw, ht]

theorem vault_now_still (x : DateTime) (w' : World) (h : transferEnv w (.vault .now) x w') :
    w' = w := by
  rcases h with ⟨t, ht, hw⟩
  have ht : t = w.tables := ht
  rw [hw, ht]

end Still

namespace Transfer

def vaultCalls : Embedding VaultI TransferI where
  call := TransferCall.vault
  answer := fun _ x => x

def keystoreCalls : Embedding KeystoreI TransferI where
  call := TransferCall.keystore
  answer := fun _ x => x

theorem vault_serves [Parsers] : vaultCalls.Serves World.tablesPart vaultEnv transferEnv :=
  fun _ _ _ _ hstep => hstep

theorem keystore_serves [Parsers] : keystoreCalls.Serves World.keystorePart keystoreEnv transferEnv :=
  fun _ _ _ _ hstep => hstep

/-- An operation of the vault, if the executor has one open. -/
def onVault {α : Type} (vault : Option VaultService) (op : VaultService → VaultM α) :
    Fallible VaultError TransferI α :=
  match vault with
  | some v => vaultCalls.fallible (op v)
  | none => throw .NotUnlocked

def perform (c : TransferCall) : Prog TransferI c.Answer :=
  Prog.perform (I := TransferI) c

/-- Rule for a program that is left when the cancel token is found cancelled. -/
theorem wp_unlessCancelled [Parsers] {α : Type} {Q : α → World → Prop} {w : World}
    {p q : Prog TransferI α} (hp : wp transferEnv Q p w) (hq : wp transferEnv Q q w) :
    wp transferEnv Q
      (do
        let cancelled : Bool ← perform .isCancelled
        if cancelled then p else q) w := by
  intro (cancelled : Bool) w' hstep
  have hw : w' = w := hstep
  rw [hw]
  cases cancelled with
  | true => exact hp
  | false => exact hq

/-- Operations of the import and export service. -/
abbrev TransferM := Fallible ImportExportError TransferI

def io (c : TransferCall) {α : Type} (view : c.Answer → Except String α)
    (convert : String → ImportExportError) : TransferM α :=
  Fallible.call (I := TransferI) c view convert

def ask (c : TransferCall) : TransferM c.Answer :=
  Fallible.ask (I := TransferI) c

def value {α : Type} (result : Except ImportExportError α) : TransferM α :=
  match result with
  | .ok a => pure a
  | .error e => throw e

/-- Rule for a value that may be an error. -/
theorem wpe_value {S α : Type} {step : Env TransferI S} {s : S}
    {result : Except ImportExportError α} {Q : α → S → Prop} {E : ImportExportError → S → Prop}
    (hok : ∀ a, result = .ok a → Q a s) (herror : ∀ e, result = .error e → E e s) :
    wpe step Q E (value result) s := by
  cases result with
  | ok a => exact hok a rfl
  | error e => exact herror e rfl

/-- A value whose error was converted on the way. -/
theorem mapError_eq_ok {α ε δ : Type} {f : ε → δ} {result : Except ε α} {a : α}
    (h : result.mapError f = .ok a) : result = .ok a := by
  cases result with
  | error e => cases h
  | ok b => exact congrArg Except.ok (Except.ok.inj h)

/-- A call of the key store, with its error converted. -/
def onKeystore {α : Type} (convert : String → ImportExportError) (p : KeystoreM α) :
    TransferM α :=
  Fallible.mapError convert (keystoreCalls.fallible p)

def fresh : TransferM Uuid :=
  Fallible.ask (I := TransferI) (.vault .newUuid)

def now : TransferM DateTime :=
  Fallible.ask (I := TransferI) (.vault .now)

end Transfer

/-- Where the error of a result comes from; its code and context are those of the error. -/
inductive ErrorSource
  | service (e : ImportExportError)
  | vault (e : VaultError)
  | keystore (code : String)
deriving DecidableEq, Repr

end OakKeyring
