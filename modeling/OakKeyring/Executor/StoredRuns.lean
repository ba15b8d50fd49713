import OakKeyring.Executor.ImportRuns
import OakKeyring.Samples.Import
import OakKeyring.Vault.Readable

/-!
# Operations and imports on one vault

The records of a vault come from its own operations and from imports. An import creates one record
after the other, of any session, so it keeps what the creation of a record keeps.
-/

namespace OakKeyring

open Effect Transfer Transition

/-! ## What an import keeps -/

section Keeping

variable [Crypto] [Argon2] [ExportFormats] [TextPatterns] [Unicode] [Parsers]
  {Inv : Tables → Prop} {v : VaultService} {w : World}

/-- The creation of an imported record keeps the invariant. -/
def KeptByCreating (Inv : Tables → Prop) (v : VaultService) : Prop :=
  ∀ (record : ImportableRecord) t, Inv t →
    Vault.Ensures Inv (Vault.createRecord v record.params) t

omit [Argon2] [ExportFormats] [TextPatterns] [Unicode] in
theorem wp_createRecords_keep (hcreate : KeptByCreating Inv v) (h : Inv w.tables)
    (records : List ImportableRecord) (counts : ImportCounts) :
    wp transferEnv (fun _ u => Inv u.tables) (createRecords (some v) records counts) w := by
  induction records generalizing counts w with
  | nil => exact h
  | cons record rest ih =>
      refine wp_unlessCancelled h ?_
      have hone : wp transferEnv (fun _ u => Inv u.tables)
          (onVault (some v) fun v => Vault.createRecord v record.params).run w := by
        refine wp_of_wpe (wpe_embed vault_serves (wpe_mono ?_ ?_ (hcreate record w.tables h)))
        · exact fun _ _ hu => hu
        · exact fun _ _ hu => hu
      refine (wp_bind _ _ _ _ _).mpr (wp_mono ?_ hone)
      intro created u hu
      exact ih hu (counts.count record created)

/-- The statement that notes an import changes no row. -/
def KeptByAudit (Inv : Tables → Prop) : Prop :=
  ∀ t t' : Tables, t.SameRecords t' → Inv t → Inv t'

omit [Argon2] [ExportFormats] [TextPatterns] in
theorem wp_importSession_keep (hcreate : KeptByCreating Inv v) (haudit : KeptByAudit Inv)
    (h : Inv w.tables) (sessions : ImportSessions) (command : ImportCommand) (id : Uuid) :
    wp transferEnv (fun _ u => Inv u.tables) (importSession (some v) sessions command id) w := by
  unfold importSession
  cases hrun : executeImport sessions
      { sessionId := id
        existingKeys := []
        importAsNotes := command.importAsNotes } with
  | mk executed sessions' =>
      refine wp_unlessCancelled h ?_
      cases executed with
      | error e => exact h
      | ok handed =>
          rcases handed with ⟨result, records⟩
          refine (wp_bind _ _ _ _ _).mpr (wp_mono ?_ (wp_createRecords_keep hcreate h _ _))
          intro counts u hu
          cases counts with
          | none => exact hu
          | some counts =>
              refine (wp_bind _ _ _ _ _).mpr (wp_mono ?_ wp_reportImport)
              rintro outcome u' ⟨-, hsame, -⟩
              exact haudit _ _ hsame hu

/-- An import keeps what the creation of a record keeps. -/
theorem wp_handleExecuteImport_keep (hcreate : KeptByCreating Inv v) (haudit : KeptByAudit Inv)
    (h : Inv w.tables) (sessions : ImportSessions) (command : ImportCommand) :
    wp transferEnv (fun _ u => Inv u.tables)
      (handleExecuteImport (some v) sessions command) w := by
  refine wp_unlessCancelled h ?_
  have hopened : wp transferEnv (fun _ u => u = w) (openImportSession sessions command) w := by
    unfold openImportSession
    cases command.sessionId with
    | some id => exact rfl
    | none =>
        refine (wp_bind _ _ _ _ _).mpr (wp_mono ?_ wp_createImportSession)
        rintro ⟨id, sessions'⟩ u ⟨hu, hnew⟩
        rw [hu]
        refine (wp_bind _ _ _ _ _).mpr (wp_mono ?_ (wp_validateNewSession hnew))
        rintro ⟨validated, sessions''⟩ u' ⟨hu', -⟩
        cases validated with
        | ok preview => exact hu'
        | error e => exact hu'
  refine (wp_bind _ _ _ _ _).mpr (wp_mono ?_ hopened)
  rintro ⟨opened, sessions'⟩ u hu
  rw [hu]
  cases opened with
  | error outcome => exact h
  | ok id => exact wp_importSession_keep hcreate haudit h sessions' command id

end Keeping

/-! ## Steps -/

/-- One import of a run: what the executor had, what it was asked for and met, and what came
back. -/
structure ImportLabel where
  service : VaultService
  sessions : ImportSessions
  command : ImportCommand
  world : World
  trace : List (Event TransferI)
  result : ImportOutcome × ImportSessions

/-- An operation of the vault or an import. -/
inductive StoreLabel
  | vault (l : VaultLabel)
  | imports (l : ImportLabel)

section Steps

variable [Codec] [Serde] [Crypto] [Argon2] [ExportFormats] [TextPatterns] [Unicode] [Parsers]

def importStep (t : Tables) (l : ImportLabel) (t' : Tables) : Prop :=
  l.world.tables = t ∧
    (handleExecuteImport (some l.service) l.sessions l.command).Returns l.trace l.result ∧
      ∃ w', Path transferEnv l.world l.trace w' ∧ w'.tables = t'

/-- A step of a vault with one key. -/
def storeStep (kek : Bytes) (t : Tables) (l : StoreLabel) (t' : Tables) : Prop :=
  match l with
  | .vault l => keyedStep kek t l t'
  | .imports l => l.service.crypto.Opens kek ∧ importStep t l t'

variable {Inv : Tables → Prop} {t t' : Tables}

omit [Codec] [Serde] in
theorem importStep.keep {l : ImportLabel} (hstep : importStep t l t')
    (hcreate : KeptByCreating Inv l.service) (haudit : KeptByAudit Inv) (h : Inv t) :
    Inv t' := by
  rcases hstep with ⟨ht, hreturns, w', hpath, ht'⟩
  rw [← ht] at h
  rw [← ht']
  have hkept := wp_handleExecuteImport_keep hcreate haudit h l.sessions l.command
  exact (wp_iff _ _ _ _).mp hkept _ _ _ hreturns hpath

end Steps

/-! ## Readable rows -/

/-- An imported record has the type that its payload is built for. -/
theorem credentialType_params (record : ImportableRecord) :
    record.params.payload.credentialType = record.params.credentialType := by
  unfold ImportableRecord.params importParams fieldsToPayload
  cases record.credentialType <;> rfl

section Served

variable [Crypto] {kek : Bytes} {t : Tables}

/-- Whoever holds the key of the vault gets every record, unless the database fails. -/
def AllServed (kek : Bytes) (t : Tables) : Prop :=
  ∀ (v : VaultService) id trace outcome t', v.HoldsKey kek → id ∈ t.records →
    (Vault.getDecryptedRecord v id).run.Returns trace outcome → Path vaultEnv t trace t' →
      (∃ decrypted : DecryptedRecord, outcome = .ok decrypted ∧ decrypted.id = id) ∨
        ∃ fault, outcome = .error (.DatabaseError fault)

theorem AllReadable.served (h : AllReadable kek t) : AllServed kek t := by
  intro v id trace outcome t' hkey hid hreturns hpath
  have hends := (wpe_iff _).mp (h.wpe_getDecryptedRecord hkey hid)
  cases outcome with
  | ok decrypted => exact Or.inl ⟨decrypted, rfl, hends.1 _ _ _ hreturns hpath⟩
  | error e =>
      rcases hends.2 _ _ _ hreturns hpath with ⟨fault, hfault⟩
      exact Or.inr ⟨fault, congrArg Except.error hfault⟩

theorem allReadable_fresh (seed : VaultSeed) : AllReadable kek (Tables.fresh seed) := by
  intro id row hrow
  have hlookup : (∅ : AList fun _ : Uuid => RecordRow).lookup id = some row := hrow
  rw [AList.lookup_empty] at hlookup
  cases hlookup

end Served

section Readable

variable [Codec] [Serde] [Crypto] [Argon2] [ExportFormats] [TextPatterns] [Unicode] [Parsers]
  {kek : Bytes} {t : Tables}

/-- The steps that leave every row readable. -/
def StoreSafe (kek : Bytes) (e : Step Tables StoreLabel) : Prop :=
  match e.label with
  | .vault l => ReadableSafe kek e.source l
  | .imports _ => True

/-- An operation that would break a row returns an error and leaves the vault as it was. The records
of an import have the types of their payloads, so it never would. -/
def Refuses (kek : Bytes) (e : Step Tables StoreLabel) : Prop :=
  match e.label with
  | .vault l => Breaks kek e.source l → (∃ error, l.outcome = .error error) ∧ e.target = e.source
  | .imports _ => True

/-- What holds along a run whose rows stay readable. -/
structure StaysReadable (kek : Bytes) (start : Tables) (es : List (Step Tables StoreLabel)) :
    Prop where
  readable : ∀ u ∈ visited start es, AllReadable kek u
  served : ∀ u ∈ visited start es, AllServed kek u
  refused : ∀ e ∈ es, Refuses kek e

variable [LawfulCrypto] [IdealAead]

theorem AllReadable.storeStep {e : Step Tables StoreLabel}
    (hstep : storeStep kek e.source e.label e.target) (hsafe : StoreSafe kek e)
    (h : AllReadable kek e.source) : AllReadable kek e.target := by
  rcases e with ⟨t, label, t'⟩
  cases label with
  | vault l => exact h.step hstep hsafe
  | imports l =>
      refine hstep.2.keep ?_ ?_ h
      · intro record u hu
        exact Vault.readable_createRecord hstep.1 hu fun _ => credentialType_params record
      · intro u u' hsame hu
        exact hu.of_rowsFrom (rowsFrom_outside hsame (by decide))

omit [LawfulCrypto] in
/-- A safe step refuses what would break a row. -/
theorem refuses_of_readable {e : Step Tables StoreLabel}
    (hstep : OakKeyring.storeStep kek e.source e.label e.target) (hsafe : StoreSafe kek e)
    (h : AllReadable kek e.source) : Refuses kek e := by
  rcases e with ⟨t, label, t'⟩
  cases label with
  | vault l => exact fun hbreaks => h.refused hstep hsafe hbreaks
  | imports l => trivial

/-- In a run whose steps are safe every row can be read, every record is served, and what would
break a row is refused. -/
theorem stored_records_readable {seed : VaultSeed} {es : List (Step Tables StoreLabel)}
    (hrun : Run (storeStep kek) (Tables.fresh seed) es t) (hsafe : ∀ e ∈ es, StoreSafe kek e) :
    StaysReadable kek (Tables.fresh seed) es := by
  have hall : ∀ u ∈ visited (Tables.fresh seed) es, AllReadable kek u :=
    hrun.invariant (allReadable_fresh seed) hsafe fun e hstep he hsource => hsource.storeStep hstep he
  have hsources : ∀ e ∈ es, AllReadable kek e.source :=
    hrun.invariant_source (allReadable_fresh seed) hsafe fun e hstep he hsource =>
      hsource.storeStep hstep he
  constructor
  · exact hall
  · exact fun u hu => (hall u hu).served
  · exact fun e he => refuses_of_readable (hrun.step_of_mem he) (hsafe e he) (hsources e he)

end Readable

/-! ## A note of an older client -/

namespace Mistyped

def note : EncryptedPayload :=
  .SecureNote "note" (some "text")

def kek : Bytes :=
  List.replicate 32 7

def nonce : Nonce :=
  Nonce.filled 1

def noteId : Uuid :=
  Uuid.filled 1

def service : VaultService where
  crypto := .fromUnlockedKeystore
    { kek := some kek
      currentDekVersion := 1 }
  deviceId := "device"

/-- The cipher with the key of the first version. -/
abbrev crypto : Crypto :=
  idealCrypto [(@deriveDek (referenceCrypto []) kek 1, nonce)] [note]

def start : Bench where
  tables := .fresh Sample.seed
  uuids := [noteId]
  nonces := [nonce]
  fault := none

section

attribute [local instance] Sample.codec Sample.serde crypto KeyStore.Changed.argon2
  FileImport.exportFormats FileImport.patterns FileImport.unicode FileImport.parsers

theorem lawful : LawfulCrypto :=
  idealCrypto_lawful (referenceCrypto_lawful fun _ hp => Json.read_of_nodup (List.nodup_singleton _) hp)

theorem ideal : IdealAead := by
  refine idealCrypto_ideal ?_
  intro e he e' he' _
  rw [List.mem_singleton.mp he, List.mem_singleton.mp he']

theorem opens : service.crypto.Opens kek := by
  intro ks k hks hk
  cases hks
  cases hk
  rfl

/-- One operation of the service. -/
def after (command : VaultCommand) (b : Bench) : Bench :=
  (b.perform Sample.instant service command none).2

def step (command : VaultCommand) (b : Bench) : Step Tables StoreLabel where
  source := b.tables
  label := .vault (b.label Sample.instant service command none)
  target := (after command b).tables

theorem storeStep_after (command : VaultCommand) (b : Bench) :
    storeStep kek b.tables (step command b).label (after command b).tables :=
  ⟨opens, b.vaultStep_perform Sample.instant service command none⟩

def ciphertext : Bytes :=
  match service.crypto.encryptPayload note (recordAad noteId) nonce with
  | .ok data => data
  | .error _ => []

/-- A record as it was uploaded before the private metadata, and before the type was part of it. -/
def legacy : CloudRecord where
  id := noteId.toText
  version := 1
  encryptedData := base64Encode ciphertext
  nonce := base64Encode nonce.bytes
  dekVersion := 1
  aad :=
    { recordId := noteId.toText
      dekVersion := 1 }
  metadata :=
    { name := "note"
      tags := []
      updatedAt := ""
      credentialType := none
      isFavorite := none
      expiresAt := none
      updatedBy := none
      health := none
      encryptedMetadata := none }
  deleted := none
  deletedAt := none

def download : VaultCommand :=
  .applyDownloadedCloudRecord legacy

/-- The download goes through, and the row is a login that keeps a note. -/
theorem download_mistyped :
    (start.perform Sample.instant service download none).1 = .ok () ∧
      ((after download start).tables.records.lookup noteId).map
        (fun row => (row.credentialType, row.payload kek)) = some (.Login, some note) := by
  decide +kernel

/-- Not every run leaves every row readable. -/
theorem stored_record_unreadable :
    ¬ ∀ (seed : VaultSeed) (es : List (Step Tables StoreLabel)) (t : Tables),
      Run (storeStep kek) (Tables.fresh seed) es t →
        StaysReadable kek (Tables.fresh seed) es := by
  intro hall
  have hrun : Run (storeStep kek) (Tables.fresh Sample.seed) [step download start]
      (after download start).tables :=
    Run.cons (storeStep_after download start) (Run.nil _)
  have hreadable := (hall _ _ _ hrun).readable _ hrun.last_mem
  rcases Option.map_eq_some_iff.mp download_mistyped.2 with ⟨row, hrow, hvalue⟩
  rcases hreadable noteId row hrow with ⟨payload, hpayload, htype⟩
  have hkept : row.payload kek = some note := congrArg Prod.snd hvalue
  have hlogin : row.credentialType = .Login := congrArg Prod.fst hvalue
  rw [← Option.some.inj (hkept.symm.trans hpayload), hlogin] at htype
  cases htype

/-- A note that another device has put into the trash, with its type. -/
def binned : CloudRecord :=
  { legacy with
    metadata := { legacy.metadata with credentialType := some .SecureNote }
    deleted := some true }

def received : Bench :=
  after (.applyDownloadedCloudRecord binned) start

def restored : Bench :=
  after (.restoreRecord noteId) received

/-- The row of the note is there after the download and the restoration, and does not open under
another version. -/
theorem binned_received :
    Uuid.parseStr binned.id = some noteId ∧
      Vault.decodeBase64 "encrypted_data" binned.encryptedData = .ok ciphertext ∧
      Vault.decodeNonce "nonce" "nonce" binned.nonce = .ok nonce ∧
      payloadUnder kek ciphertext nonce (recordAad noteId) binned.dekVersion = some note ∧
      (restored.tables.records.lookup noteId).map (fun row =>
        (row.deleted, payloadUnder kek row.encryptedData row.nonce row.aad 2)) =
          some (false, none) := by
  decide +kernel

/-- A note is downloaded as deleted, restored, and asked to be re-encrypted from a version that it
was not encrypted with. -/
theorem stored_records_readable_restored :
    StaysReadable kek (Tables.fresh Sample.seed)
        [step (.applyDownloadedCloudRecord binned) start, step (.restoreRecord noteId) received,
          step (.reEncryptRecord noteId 2) restored] ∧
      Breaks kek restored.tables
        (restored.label Sample.instant service (.reEncryptRecord noteId 2) none) := by
  have hlawful := lawful
  have hideal := ideal
  rcases binned_received with ⟨hid, hdata, hnonce, hpayload, hrestored⟩
  rcases Option.map_eq_some_iff.mp hrestored with ⟨row, hrow, hvalue⟩
  have hbreaks : Breaks kek restored.tables
      (restored.label Sample.instant service (.reEncryptRecord noteId 2) none) :=
    ⟨row, hrow, (Prod.mk.inj hvalue).2⟩
  refine ⟨?_, hbreaks⟩
  have hrun : Run (storeStep kek) (Tables.fresh Sample.seed)
      [step (.applyDownloadedCloudRecord binned) start, step (.restoreRecord noteId) received,
        step (.reEncryptRecord noteId 2) restored] (after (.reEncryptRecord noteId 2) restored).tables :=
    Run.cons (storeStep_after (.applyDownloadedCloudRecord binned) start)
      (Run.cons (storeStep_after (.restoreRecord noteId) received)
        (Run.cons (storeStep_after (.reEncryptRecord noteId 2) restored) (Run.nil _)))
  refine stored_records_readable hrun ?_
  intro e he
  rcases List.mem_cons.mp he with heq | he
  · rw [heq]
    -- the one way to decode the download leads to the note
    intro id data nonce' m hid' hdata' hnonce' hm htags
    have hsameId : id = noteId := Option.some.inj (hid'.symm.trans hid)
    have hsameData : data = ciphertext := Except.ok.inj (hdata'.symm.trans hdata)
    have hsameNonce : nonce' = nonce := Except.ok.inj (hnonce'.symm.trans hnonce)
    have hplain : none = m := Except.ok.inj hm
    rw [hsameId, hsameData, hsameNonce, ← hplain]
    exact ⟨fun hlive => (nomatch hlive), fun _ => ⟨note, hpayload, rfl⟩⟩
  rcases List.mem_cons.mp he with heq | he
  · rw [heq]
    trivial
  · rw [List.mem_singleton.mp he]
    trivial

end

end Mistyped

end OakKeyring
