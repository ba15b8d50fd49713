import OakKeyring.Crypto.PasswordChange
import OakKeyring.ImportExport.Export
import OakKeyring.Samples.Rotation

/-!
# Transfers on a bench

A vault, a key store and files that answer in order; plain rows as the crate `csv` writes them.
-/

namespace OakKeyring

open Effect

/-- The world of a transfer with the answers that are still to come. -/
structure TransferBench where
  vault : Bench
  keystore : KeystoreBench
  files : PathBuf → Option Bytes
  /-- how often the cancel token is still found clear, if it is to be cancelled -/
  patience : Option Nat

namespace TransferBench

def world (b : TransferBench) : World where
  tables := b.vault.tables
  keystore := b.keystore.files
  files := b.files

def writeFile (b : TransferBench) (path : PathBuf) (content : Option Bytes) : TransferBench :=
  { b with files := fun other => if other = path then content else b.files other }

variable [Parsers]

/-- The answers, with fixed draws and at a fixed time. -/
def serve (salt : Salt) (nonce : Nonce) (now : DateTime) : Handler TransferI TransferBench
  | b, .vault c =>
      let (answer, vault) := Bench.serve now b.vault c
      (answer, { b with vault := vault })
  | b, .keystore c =>
      let (answer, keystore) := KeystoreBench.serve salt nonce now b.keystore c
      (answer, { b with keystore := keystore })
  | b, .isCancelled => (decide (b.patience = some 0), { b with patience := b.patience.map (· - 1) })
  | b, .pathExists _ => (true, b)
  | b, .readFile path =>
      match b.files path with
      | some bytes => (.ok bytes, b)
      | none => (.error "No such file or directory (os error 2)", b)
  | b, .writeFile path bytes => (.ok (), b.writeFile path (some bytes))
  | b, .renameFile source target =>
      match b.files source with
      | some bytes => (.ok (), (b.writeFile source none).writeFile target (some bytes))
      | none => (.error "No such file or directory (os error 2)", b)
  | b, .parse source path password mapping =>
      (Parsers.parse b.files source path password mapping, b)
  | b, .readCsvHeaders _ => ([], b)
  | b, .scheduleHealthCheck => ((), b)

theorem serve_env {salt : Salt} {nonce : Nonce} {now : DateTime} {b b' : TransferBench}
    {c : TransferCall} {answer : c.Answer} (h : (serve salt nonce now).env b c answer b') :
    transferEnv b.world c answer b'.world := by
  have hserve : serve salt nonce now b c = (answer, b') := h
  cases c with
  | vault c =>
      cases hserve
      exact ⟨_, Bench.serve_env rfl, rfl⟩
  | keystore c =>
      cases hserve
      exact ⟨_, KeystoreBench.serve_env rfl, rfl⟩
  | readFile path =>
      simp only [serve] at hserve
      split at hserve
      · rename_i bytes hbytes
        cases hserve
        exact ⟨rfl, Or.inl ⟨bytes, hbytes, rfl⟩⟩
      · cases hserve
        exact ⟨rfl, Or.inr ⟨_, rfl⟩⟩
  | writeFile path bytes =>
      cases hserve
      exact Or.inl ⟨rfl, rfl⟩
  | renameFile source target =>
      simp only [serve] at hserve
      split at hserve
      · rename_i bytes hbytes
        cases hserve
        exact Or.inl ⟨bytes, hbytes, rfl, rfl⟩
      · cases hserve
        exact Or.inr ⟨rfl, _, rfl⟩
  | parse source path password mapping =>
      cases hserve
      exact ⟨rfl, Or.inl rfl⟩
  | isCancelled =>
      cases hserve
      rfl
  | pathExists path =>
      cases hserve
      rfl
  | readCsvHeaders path =>
      cases hserve
      rfl
  | scheduleHealthCheck =>
      cases hserve
      rfl

/-- A transfer to its end. -/
def complete {α : Type} (salt : Salt) (nonce : Nonce) (now : DateTime) (p : Prog TransferI α)
    (b : TransferBench) : α × TransferBench :=
  run (serve salt nonce now) p b

def completeTrace {α : Type} (salt : Salt) (nonce : Nonce) (now : DateTime)
    (p : Prog TransferI α) (b : TransferBench) : List (Event TransferI) :=
  runTrace (serve salt nonce now) p b

theorem returns_complete {α : Type} (salt : Salt) (nonce : Nonce) (now : DateTime)
    (p : Prog TransferI α) (b : TransferBench) :
    p.Returns (completeTrace salt nonce now p b) (complete salt nonce now p b).1 :=
  returns_runTrace (serve salt nonce now) p b

theorem path_complete {α : Type} (salt : Salt) (nonce : Nonce) (now : DateTime)
    (p : Prog TransferI α) (b : TransferBench) :
    Path transferEnv b.world (completeTrace salt nonce now p b)
      (complete salt nonce now p b).2.world :=
  (path_runTrace (serve salt nonce now) p b).map TransferBench.world
    fun _ _ _ _ hstep => serve_env hstep

end TransferBench

/-! ## Rows -/

namespace CsvText

/-- Whether a field is quoted. -/
def quoted (field : String) : Bool :=
  field.toList.any fun c => c == ',' || c == '"' || c == '\n' || c == '\r'

def field (text : String) : String :=
  if quoted text then
    "\"" ++ String.ofList (text.toList.flatMap fun c => if c = '"' then ['"', '"'] else [c]) ++ "\""
  else text

def row (fields : List String) : String :=
  ",".intercalate (fields.map field) ++ "\n"

def rows (table : List (List String)) : String :=
  String.join (table.map row)

end CsvText

/-! ## Backups -/

namespace Json

/-- Fields without a value are left out. -/
def exportRecord (r : ExportRecord) : String :=
  object [("id", some (quote r.id)), ("credential_type", some (quote r.credentialType)),
    ("name", some (quote r.name)), ("username", r.username.map quote),
    ("password", r.password.map quote), ("url", r.url.map quote), ("notes", r.notes.map quote),
    ("tags", r.tags.map fun tags => array (tags.map quote)),
    ("is_favorite", r.isFavorite.map bool), ("expires_at", r.expiresAt.map quote),
    ("public_key", r.publicKey.map quote), ("private_key", r.privateKey.map quote),
    ("passphrase", r.passphrase.map quote), ("app_id", r.appId.map quote),
    ("secret_key", r.secretKey.map quote)]

def exportPayload (p : ExportPayload) : String :=
  object [("version", some (quote p.version)), ("vault_id", some (quote p.vaultId)),
    ("exported_at", some (quote p.exportedAt)),
    ("records", some (array (p.records.map exportRecord)))]

end Json

/-- Rows of the given tables, and JSON of the given payloads. -/
@[reducible] def referenceExportFormats (tables : List (List (List String)))
    (payloads : List ExportPayload) : ExportFormats where
  payloadToVec payload :=
    if payload ∈ payloads then .ok (Json.bytes (Json.exportPayload payload))
    else .error "not a sample payload"
  payloadFromSlice := Json.read (fun payload => Json.bytes (Json.exportPayload payload)) payloads
  writeRows table :=
    if table ∈ tables then .ok (Json.bytes (CsvText.rows table)) else .error "not a sample table"
  readRows := Json.read (fun table => Json.bytes (CsvText.rows table)) tables

theorem referenceExportFormats_lawful {tables : List (List (List String))}
    {payloads : List ExportPayload}
    (htables : (tables.map fun table => Json.bytes (CsvText.rows table)).Nodup)
    (hpayloads : (payloads.map fun payload => Json.bytes (Json.exportPayload payload)).Nodup) :
    @LawfulExportFormats (referenceExportFormats tables payloads) :=
  letI : ExportFormats := referenceExportFormats tables payloads
  { payloadFromSlice_payloadToVec := by
      intro payload bytes h
      have hfound : (if payload ∈ payloads then
            Except.ok (Json.bytes (Json.exportPayload payload))
          else .error "not a sample payload") = (.ok bytes : Except String Bytes) := h
      split at hfound
      · rename_i hmem
        rw [← Except.ok.inj hfound]
        exact Json.read_of_nodup hpayloads hmem
      · cases hfound
    readRows_writeRows := by
      intro table bytes h
      have hfound : (if table ∈ tables then Except.ok (Json.bytes (CsvText.rows table))
          else .error "not a sample table") = (.ok bytes : Except String Bytes) := h
      split at hfound
      · rename_i hmem
        rw [← Except.ok.inj hfound]
        exact Json.read_of_nodup htables hmem
      · cases hfound }

/-! ## A vault and its key store -/

namespace OneVault

abbrev crypto : Crypto :=
  referenceCrypto [.SecureNote "note" none]

theorem lawful : @LawfulCrypto crypto :=
  referenceCrypto_lawful fun _ hp => Json.read_of_nodup (List.nodup_singleton _) hp

section

attribute [local instance] Sample.codec Sample.serde crypto

/-- The vault that `KeyStore.Changed.directory` opens. -/
def service : VaultService where
  crypto := .fromUnlockedKeystore
    { kek := some (KeyStore.deriveKek KeyStore.Changed.sk)
      currentDekVersion := 1 }
  deviceId := "device"

def create : VaultCommand :=
  .createRecord
    { credentialType := .SecureNote
      payload := .SecureNote "note" none
      isFavorite := false
      expiresAt := none
      tags := [] }

/-- A vault with one record, without tags. -/
def vault : Bench :=
  (Bench.perform Sample.instant service create none
    { tables := .fresh Sample.seed
      uuids := [Uuid.filled 1]
      nonces := [Nonce.filled 1]
      fault := none }).2

def bench : TransferBench where
  vault := vault
  keystore := KeyStore.Changed.bench false
  files := fun _ => none
  patience := none

end

end OneVault

end OakKeyring
