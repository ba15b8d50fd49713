import OakKeyring.Executor.StoredRuns
import OakKeyring.Vault.LimitedWrites

/-!
# Runs within the limits

What is within the limits is accepted again: by an edit that changes nothing of it, and by another
device that downloads what this one uploads.
-/

namespace OakKeyring

open Effect Transfer Transition

/-! ## Operations that no check refuses -/

section Accepting

variable {α β : Type} {p : VaultM α}

/-- Not a failed check of a payload or of tags. -/
def VaultError.Unrefused (e : VaultError) : Prop :=
  ∀ refused, e ≠ .DataError refused

/-- No check refuses what the operation is given, when it starts from these tables. -/
def AcceptsIn (t : Tables) (p : VaultM α) : Prop :=
  wpe vaultEnv (fun _ _ => True) (fun e _ => e.Unrefused) p t

/-- No check refuses what the operation is given, whatever the tables are. -/
def Accepts (p : VaultM α) : Prop :=
  ∀ t, AcceptsIn t p

/-- However the operation ends, no check has refused what it was given. -/
def NeverRefused (p : VaultM α) (t : Tables) : Prop :=
  ∀ trace outcome t', p.run.Returns trace outcome → Path vaultEnv t trace t' →
    ∀ refused, outcome ≠ .error (.DataError refused)

theorem acceptsIn_iff {t : Tables} : AcceptsIn t p ↔ NeverRefused p t := by
  constructor
  · intro h trace outcome t' hreturns hpath refused heq
    rw [heq] at hreturns
    exact ((wpe_iff p).mp h).2 _ _ _ hreturns hpath refused rfl
  · intro h
    refine (wpe_iff p).mpr ⟨fun _ _ _ _ _ => trivial, ?_⟩
    intro trace e t' hreturns hpath refused heq
    rw [heq] at hreturns
    exact h _ _ _ hreturns hpath refused rfl

theorem accepts_pure (a : α) : Accepts (pure a : VaultM α) :=
  fun _ => trivial

theorem accepts_throw {e : VaultError} (h : e.Unrefused) : Accepts (throw e : VaultM α) :=
  fun _ => h

theorem accepts_bind {f : α → VaultM β} (hp : Accepts p) (hf : ∀ a, Accepts (f a)) :
    Accepts (p >>= f) := by
  intro t
  refine (wpe_bind p f).mpr (wpe_mono ?_ (fun _ _ h => h) (hp t))
  exact fun a u _ => hf a u

theorem accepts_ite {c : Prop} [Decidable c] {q : VaultM α} (hp : Accepts p) (hq : Accepts q) :
    Accepts (if c then p else q) :=
  fun t => wpe_ite (fun _ => hp t) fun _ => hq t

theorem accepts_optional {c : Prop} [Decidable c] {p : VaultM Unit} {rest : VaultM α}
    (hp : Accepts p) (hrest : Accepts rest) :
    Accepts (if c then p >>= fun _ => rest else rest) :=
  accepts_ite (accepts_bind hp fun _ => hrest) hrest

theorem accepts_query (op : DbOp) : Accepts (Vault.query op) :=
  fun _ => Vault.wpe_query (fun _ _ _ _ _ => trivial) fun _ _ => (nomatch ·)

theorem accepts_now : Accepts Vault.now :=
  fun _ => Vault.wpe_now fun _ => trivial

theorem accepts_newNonce : Accepts Vault.newNonce :=
  fun _ => Vault.wpe_newNonce fun _ => trivial

theorem accepts_crypto (result : Except String α) : Accepts (Vault.crypto result) :=
  fun _ => Vault.wpe_crypto (fun _ _ => trivial) fun _ _ _ => (nomatch ·)

theorem accepts_crypto_bind {result : Except String α} {f : α → VaultM β}
    (hf : ∀ a, result = .ok a → Accepts (f a)) : Accepts (Vault.crypto result >>= f) := by
  cases result with
  | ok a => exact hf a rfl
  | error e => exact accepts_throw fun _ => (nomatch ·)

/-- A check that goes through. -/
theorem accepts_checked_bind {result : Except OakKeyring.DataError α} {a : α} {f : α → VaultM β}
    (h : result = .ok a) (hf : Accepts (f a)) : Accepts (Vault.checked result >>= f) := by
  rw [h]
  exact hf

theorem accepts_forM {xs : List β} {f : β → VaultM PUnit} (hf : ∀ x, Accepts (f x)) :
    Accepts (xs.forM f) :=
  fun _ => wpe_forM (P := fun _ _ => True) trivial fun _ x _ u _ _ => hf x u

theorem accepts_requireUnlocked [Crypto] (v : VaultService) : Accepts (Vault.requireUnlocked v) :=
  accepts_ite (accepts_pure ()) (accepts_throw fun _ => (nomatch ·))

theorem accepts_markRecordsPendingSync (ids : List Uuid) :
    Accepts (Vault.markRecordsPendingSync ids) :=
  accepts_forM fun _ => accepts_bind accepts_now fun _ => accepts_query _

theorem accepts_replaceTags (id : Uuid) (tags : List String) :
    Accepts (Vault.replaceTags id tags) :=
  accepts_bind (accepts_query _) fun _ =>
    accepts_forM fun _ => accepts_bind (accepts_query _) fun _ => accepts_query _

end Accepting

/-! ## Edits -/

section Edits

variable [Crypto] {kek : Bytes} {t : Tables}

/-- An edit that gives a live record the payload and the tags that it has is not refused. -/
def EditsAccepted (kek : Bytes) (t : Tables) : Prop :=
  ∀ (v : VaultService) (params : UpdateRecordParams) row,
    t.records.lookup params.id = some row → row.deleted = false →
    row.payload kek = some params.payload → params.tags = t.tagsOf params.id →
      NeverRefused (Vault.updateRecord v params) t

omit [Crypto] in
theorem accepts_getStoredRecord (id : Uuid) : Accepts (Vault.getStoredRecord id) := by
  refine accepts_bind (accepts_query _) fun found => ?_
  cases found with
  | none => exact accepts_throw fun _ => (nomatch ·)
  | some record => exact accepts_pure record

omit [Crypto] in
theorem accepts_deleteOldestPasswordHistory (id : Uuid) :
    Accepts (Vault.deleteOldestPasswordHistory id) := by
  refine accepts_bind (accepts_query _) fun (oldest : List Nat) => ?_
  cases oldest.head? with
  | none => exact accepts_pure ()
  | some number => exact accepts_query _

theorem accepts_updateRecord (v : VaultService) {params : UpdateRecordParams}
    (hpayload : validatePayload params.payload = .ok ())
    (htags : validateTags params.tags = .ok ()) : Accepts (Vault.updateRecord v params) := by
  refine accepts_bind (accepts_requireUnlocked v) fun _ => ?_
  refine accepts_bind (accepts_getStoredRecord _) fun stored => ?_
  refine accepts_ite (accepts_throw fun _ => (nomatch ·)) ?_
  refine accepts_checked_bind hpayload (accepts_checked_bind htags ?_)
  refine accepts_bind (accepts_crypto _) fun oldPayload => ?_
  refine accepts_optional ?_ ?_
  · refine accepts_bind (accepts_query _) fun count => ?_
    refine accepts_optional (accepts_deleteOldestPasswordHistory _) ?_
    exact accepts_bind accepts_now fun _ => accepts_query _
  refine accepts_bind accepts_newNonce fun nonce => ?_
  refine accepts_bind (accepts_crypto _) fun encryptedData => ?_
  refine accepts_bind accepts_now fun time => ?_
  refine accepts_bind (accepts_query _) fun _ => accepts_bind (accepts_query _) fun updated => ?_
  refine accepts_ite (accepts_throw fun _ => (nomatch ·)) ?_
  refine accepts_bind (accepts_replaceTags _ _) fun _ => ?_
  refine accepts_bind (accepts_query _) fun _ => accepts_bind (accepts_query _) fun _ => ?_
  refine accepts_bind ?_ fun _ => accepts_bind (accepts_query _) fun _ =>
    accepts_markRecordsPendingSync _
  exact accepts_ite (accepts_bind (accepts_query _) fun _ => accepts_pure _)
    (accepts_bind (accepts_query _) fun _ => accepts_pure _)

/-- What is within the limits passes the checks of an edit. -/
theorem LimitsInv.editsAccepted (h : LimitsInv kek t) : EditsAccepted kek t := by
  intro v params row hrow hlive hpayload htags
  have hwithin := h.within params.id row hrow hlive
  have hpayload := hwithin.payload params.payload hpayload
  have htags : validateTags params.tags = .ok () := by
    rw [htags]
    exact hwithin.tags
  exact acceptsIn_iff.mp (accepts_updateRecord v hpayload htags t)

end Edits

/-! ## Downloads -/

/-- The private metadata is read back as it was written. -/
class LawfulSerde [Serde] : Prop where
  privateMetadata_fromJson_toJson : ∀ {m : CloudPrivateMetadata} {json : Bytes},
    privateMetadataToJson m = .ok json → privateMetadataFromJson json = .ok m

section Downloads

variable [Codec] [Serde] [Crypto] {kek : Bytes} {t : Tables} {v : VaultService}

open Vault

/-- What the checks of a download need of a cloud record. -/
structure Receivable (kek : Bytes) (r : CloudRecord) : Prop where
  payload : ∀ id data nonce payload, Uuid.parseStr r.id = some id →
    decodeBase64 "encrypted_data" r.encryptedData = .ok data →
    decodeNonce "nonce" "nonce" r.nonce = .ok nonce →
    payloadUnder kek data nonce (recordAad id) r.dekVersion = some payload →
      validatePayload payload = .ok ()
  tags : ∀ (v : VaultService) m, v.crypto.Opens kek → decryptCloudPrivateMetadata v r = .ok m →
    validateTags (tagsOf r m) = .ok ()

/-- What one device uploads of a live record, another device does not refuse. -/
def UploadsAccepted (kek : Bytes) (t : Tables) : Prop :=
  ∀ (v v' : VaultService) id row health trace r t', v.crypto.Opens kek → v'.crypto.Opens kek →
    t.records.lookup id = some row → row.deleted = false →
    (buildCloudRecordForSync v (row.toStoredRecord id (t.tagsOf id)) health).run.Returns trace
      (.ok r) → Path vaultEnv t trace t' →
      ∀ u, NeverRefused (applyDownloadedCloudRecord v' r) u

omit [Codec] [Serde] [Crypto] in
theorem accepts_writeDownloaded (stored : StoredRecord) (existing : Option StoredRecord) :
    Accepts (writeDownloaded stored existing) := by
  cases existing with
  | none => exact accepts_bind (accepts_query _) fun _ => accepts_query _
  | some old =>
      refine accepts_bind (accepts_query _) fun _ => accepts_bind (accepts_query _) fun _ => ?_
      exact accepts_bind (accepts_query _) fun _ => accepts_replaceTags _ _

omit [Serde] [Crypto] in
theorem accepts_writeDownloadedHealth (id : Uuid) (r : CloudRecord)
    (m : Option CloudPrivateMetadata) : Accepts (writeDownloadedHealth id r m) := by
  cases m with
  | none => exact accepts_pure ()
  | some m =>
      cases hhealth : m.health with
      | none =>
          unfold writeDownloadedHealth
          simp only [hhealth]
          exact accepts_bind (accepts_query _) fun _ => accepts_pure _
      | some health =>
          unfold writeDownloadedHealth
          simp only [hhealth]
          exact accepts_query _

omit [Codec] [Serde] in
theorem accepts_indexDownloaded (stored : StoredRecord) (r : CloudRecord)
    (m : Option CloudPrivateMetadata) : Accepts (indexDownloaded v stored r m) := by
  have hindex : Accepts (upsertRecordListIndexForStored v stored) := by
    refine accepts_bind (accepts_crypto _) fun name => ?_
    exact accepts_bind (accepts_crypto _) fun subtitle => accepts_query _
  intro t
  refine (wpe_bind _ _).mpr (wpe_attempt (wpe_mono ?_ ?_ (hindex t)))
  · exact fun _ u _ => accepts_pure () u
  · intro e u he
    cases e with
    | CryptoError message => exact accepts_query _ u
    | _ => exact he

/-- A record that the checks have nothing against is not refused. -/
theorem Receivable.accepts {r : CloudRecord} (h : Receivable kek r) (hopen : v.crypto.Opens kek) :
    Accepts (applyDownloadedCloudRecord v r) := by
  have hrest : ∀ (stored : StoredRecord) existing m, Accepts (do
      writeDownloaded stored existing
      writeDownloadedHealth stored.id r m
      indexDownloaded v stored r m
      markRecordListIndexClean
      return existing.isNone) := by
    intro stored existing m
    refine accepts_bind (accepts_writeDownloaded _ _) fun _ => ?_
    refine accepts_bind (accepts_writeDownloadedHealth _ _ _) fun _ => ?_
    refine accepts_bind (accepts_indexDownloaded _ _ _) fun _ => ?_
    exact accepts_bind (accepts_query _) fun _ => accepts_pure _
  unfold applyDownloadedCloudRecord
  cases hid : Uuid.parseStr r.id with
  | none => exact accepts_throw fun _ => (nomatch ·)
  | some id =>
      refine accepts_crypto_bind fun data hdata => ?_
      refine accepts_crypto_bind fun nonce hnonce => ?_
      refine accepts_bind (accepts_query _) fun existing => ?_
      refine accepts_bind accepts_now fun time => ?_
      refine accepts_crypto_bind fun m hm => ?_
      refine accepts_checked_bind (h.tags v m hopen hm) ?_
      refine accepts_ite ?_ (hrest _ _ _)
      refine accepts_crypto_bind fun payload hpayload => ?_
      have hown := hopen.payload hpayload
      exact accepts_checked_bind (h.payload id data nonce payload hid hdata hnonce hown)
        (hrest _ _ _)

variable [LawfulBase64] [LawfulSerde] [LawfulCrypto]

omit [Serde] [Crypto] [LawfulSerde] [LawfulCrypto] in
theorem decodeBase64_encoded (field : String) (bytes : Bytes) :
    decodeBase64 field (base64Encode bytes) = .ok bytes := by
  unfold decodeBase64
  rw [LawfulBase64.base64Decode_base64Encode]
  rfl

omit [Serde] [Crypto] [LawfulSerde] [LawfulCrypto] in
theorem decodeNonce_encoded (field label : String) (nonce : Nonce) :
    decodeNonce field label (base64Encode nonce.bytes) = .ok nonce := by
  have hnonce : Nonce.ofBytes? nonce.bytes = some nonce := by
    unfold Nonce.ofBytes?
    rw [dif_pos nonce.length_bytes]
  unfold decodeNonce
  rw [decodeBase64_encoded]
  simp only [bind, Except.bind]
  rw [hnonce]

/-- The private metadata of an upload is what it was made from. -/
theorem privateMetadata_uploaded {v' : VaultService} {record : StoredRecord}
    {metadata : CloudPrivateMetadata} {json encrypted : Bytes} {nonce : Nonce}
    {m : Option CloudPrivateMetadata} (hopen : v.crypto.Opens kek) (hopen' : v'.crypto.Opens kek)
    (hjson : privateMetadataToJson metadata = .ok json)
    (hencrypted : v.crypto.encrypt json (metadataAad record.id.toText) nonce = .ok encrypted)
    (hread : decryptCloudPrivateMetadata v' (cloudRecordOf record
      { encryptedData := base64Encode encrypted
        nonce := base64Encode nonce.bytes
        dekVersion := v.crypto.currentDekVersion }) = .ok m) : m = some metadata := by
  have hown := hopen.decrypt (CryptoManager.decrypt_encrypt hencrypted)
  unfold decryptCloudPrivateMetadata cloudRecordOf at hread
  simp only [decodeBase64_encoded, decodeNonce_encoded, bind, Except.bind] at hread
  cases hplain : v'.crypto.decrypt encrypted nonce (metadataAad record.id.toText)
      v.crypto.currentDekVersion with
  | error e =>
      rw [hplain] at hread
      cases hread
  | ok plaintext =>
      have hsame : plaintext = json :=
        Except.ok.inj ((hopen'.decrypt hplain).symm.trans hown)
      rw [hplain, hsame] at hread
      simp only [LawfulSerde.privateMetadata_fromJson_toJson hjson, Except.mapError] at hread
      exact (Except.ok.inj hread).symm

/-- An upload of a record within the limits is received. -/
theorem wpe_buildCloudRecordForSync {id : Uuid} {row : RecordRow}
    (health : Option RecordHealthState) (hopen : v.crypto.Opens kek)
    (haad : row.aad = recordAad id) (hwithin : Within kek t id row) :
    wpe vaultEnv (fun r _ => Receivable kek r) (fun _ _ => True)
      (buildCloudRecordForSync v (row.toStoredRecord id (t.tagsOf id)) health) t := by
  refine (wpe_bind _ _).mpr (wpe_crypto (fun name _ => ?_) fun _ _ => trivial)
  refine (wpe_bind _ _).mpr (wpe_crypto (fun json hjson => ?_) fun _ _ => trivial)
  refine (wpe_bind _ _).mpr (wpe_newNonce fun nonce => ?_)
  refine (wpe_bind _ _).mpr (wpe_crypto (fun encrypted hencrypted => ?_) fun _ _ => trivial)
  refine ⟨?_, ?_⟩
  · intro id' data nonce' payload hid hdata hnonce hpayload
    have hid : id' = id := Option.some.inj (hid.symm.trans (Uuid.parseStr_toText id))
    have hdata : data = row.encryptedData :=
      Except.ok.inj (hdata.symm.trans (decodeBase64_encoded _ _))
    have hnonce : nonce' = row.nonce :=
      Except.ok.inj (hnonce.symm.trans (decodeNonce_encoded _ _ _))
    rw [hid, hdata, hnonce, ← haad] at hpayload
    exact hwithin.payload payload hpayload
  · intro v' m hopen' hm
    rw [privateMetadata_uploaded hopen hopen' hjson hencrypted hm]
    exact hwithin.tags

theorem LimitsInv.uploadsAccepted (h : LimitsInv kek t) : UploadsAccepted kek t := by
  intro v v' id row health trace r t' hopen hopen' hrow hlive hreturns hpath u
  have hbuilt := wpe_buildCloudRecordForSync health hopen (h.own id row hrow)
    (h.within id row hrow hlive)
  have hreceivable : Receivable kek r := ((wpe_iff _).mp hbuilt).1 _ _ _ hreturns hpath
  exact acceptsIn_iff.mp (hreceivable.accepts hopen' u)

end Downloads

/-! ## Runs -/

section Runs

variable [Codec] [Serde] [Crypto] [Argon2] [ExportFormats] [TextPatterns] [Unicode] [Parsers]
  {kek : Bytes} {t : Tables} {es : List (Step Tables StoreLabel)}

/-- Every live record is within the limits. -/
def LiveWithin (kek : Bytes) (t : Tables) : Prop :=
  ∀ id row, t.records.lookup id = some row → row.deleted = false → Within kek t id row

/-- Live records are within the limits and are accepted wherever they are checked again. -/
structure LimitsRespected (kek : Bytes) (t : Tables) : Prop where
  within : LiveWithin kek t
  edits : EditsAccepted kek t
  uploads : UploadsAccepted kek t

/-- The steps that keep the live records within the limits. -/
def StoreLimitSafe (kek : Bytes) (e : Step Tables StoreLabel) : Prop :=
  match e.label with
  | .vault l => LimitSafe kek e.source l
  | .imports _ => True

variable [LawfulBase64] [LawfulSerde] [LawfulCrypto]

omit [Argon2] [ExportFormats] [TextPatterns] [Unicode] [Parsers] in
theorem LimitsInv.respected (h : LimitsInv kek t) : LimitsRespected kek t where
  within := h.within
  edits := h.editsAccepted
  uploads := h.uploadsAccepted

omit [LawfulBase64] [LawfulSerde] in
theorem LimitsInv.storeStep {e : Step Tables StoreLabel}
    (hstep : storeStep kek e.source e.label e.target) (hsafe : StoreLimitSafe kek e)
    (h : LimitsInv kek e.source) : LimitsInv kek e.target := by
  rcases e with ⟨t, label, t'⟩
  cases label with
  | vault l => exact h.step hstep hsafe
  | imports l =>
      refine hstep.2.keep ?_ ?_ h
      · exact fun record u hu => Vault.limited_createRecord hstep.1 hu
      · intro u u' hsame hu
        refine hu.of_narrows (narrows_of_tags hsame.records fun id => ?_) (hsame.keyed hu.keyed)
        rw [hsame.tagsOf id]

omit [Codec] [Serde] [Argon2] [ExportFormats] [TextPatterns] [Unicode] [Parsers] [LawfulBase64]
  [LawfulSerde] [LawfulCrypto] in
theorem limitsInv_fresh (seed : VaultSeed) : LimitsInv kek (Tables.fresh seed) := by
  have hnone : ∀ id row, (Tables.fresh seed).records.lookup id ≠ some row := by
    intro id row hrow
    have hlookup : (∅ : AList fun _ : Uuid => RecordRow).lookup id = some row := hrow
    rw [AList.lookup_empty] at hlookup
    cases hlookup
  exact ⟨Tables.keyed_fresh seed, fun id row hrow => absurd hrow (hnone id row),
    fun id row hrow => absurd hrow (hnone id row)⟩

/-- In a run whose steps are safe the limits are respected in every state. -/
theorem stored_records_within_limits {seed : VaultSeed}
    (hrun : Run (storeStep kek) (Tables.fresh seed) es t)
    (hsafe : ∀ e ∈ es, StoreLimitSafe kek e) :
    ∀ u ∈ visited (Tables.fresh seed) es, LimitsRespected kek u := by
  intro u hu
  have hinv : LimitsInv kek u :=
    hrun.invariant (limitsInv_fresh seed) hsafe (fun e hstep he hsource => hsource.storeStep hstep he) u hu
  exact hinv.respected

end Runs

/-! ## A note with a tag -/

namespace Tagged

open Mistyped (note kek noteId service)

/-- The private metadata of the note after its tag is renamed. -/
def metadata : CloudPrivateMetadata where
  name := "note"
  tags := ["home"]
  credentialType := some .SecureNote
  isFavorite := some false
  expiresAt := none
  updatedBy := some "device"
  health := none

abbrev crypto : Crypto :=
  referenceCrypto [note]

/-- JSON of the private metadata of the note. -/
abbrev serde : Serde :=
  { Sample.serde with
    privateMetadataToJson := fun m =>
      if m = metadata then .ok (Json.bytes (Json.privateMetadata m))
      else .error "not a sample document"
    privateMetadataFromJson := Json.read (fun m => Json.bytes (Json.privateMetadata m)) [metadata] }

def create : VaultCommand :=
  .createRecord
    { credentialType := .SecureNote
      payload := note
      isFavorite := false
      expiresAt := none
      tags := ["work"] }

section

attribute [local instance] Sample.codec serde crypto KeyStore.Changed.argon2
  FileImport.exportFormats FileImport.patterns FileImport.unicode FileImport.parsers

theorem lawful : LawfulCrypto :=
  referenceCrypto_lawful fun _ hp => Json.read_of_nodup (List.nodup_singleton _) hp

theorem lawfulBase64 : LawfulBase64 where
  base64Decode_base64Encode := Base64.decode_encode

theorem lawfulSerde : LawfulSerde where
  privateMetadata_fromJson_toJson := by
    intro m json hjson
    have hprinted : (if m = metadata then Except.ok (Json.bytes (Json.privateMetadata m))
        else .error "not a sample document") = (.ok json : Except String Bytes) := hjson
    by_cases hsame : m = metadata
    · rw [if_pos hsame] at hprinted
      cases hprinted
      rw [hsame]
      exact Json.read_of_nodup (List.nodup_singleton _) (List.mem_singleton_self metadata)
    · rw [if_neg hsame] at hprinted
      cases hprinted

theorem opens : service.crypto.Opens kek := by
  intro ks k hks hk
  cases hks
  cases hk
  rfl

def start : Bench where
  tables := .fresh Sample.seed
  uuids := [noteId]
  nonces := [Mistyped.nonce]
  fault := none

def after (command : VaultCommand) (b : Bench) : Bench :=
  (b.perform Sample.instant service command none).2

def step (command : VaultCommand) (b : Bench) : Step Tables StoreLabel where
  source := b.tables
  label := .vault (b.label Sample.instant service command none)
  target := (after command b).tables

theorem storeStep_after (command : VaultCommand) (b : Bench) :
    storeStep kek b.tables (step command b).label (after command b).tables :=
  ⟨opens, b.vaultStep_perform Sample.instant service command none⟩

def renamed (name : String) : Bench :=
  after (.renameTag "work" name) (after create start)

theorem run_renamed (name : String) :
    Run (storeStep kek) (Tables.fresh Sample.seed)
      [step create start, step (.renameTag "work" name) (after create start)]
      (renamed name).tables :=
  Run.cons (storeStep_after create start)
    (Run.cons (storeStep_after (.renameTag "work" name) (after create start)) (Run.nil _))

/-- A tag gets a valid name. -/
theorem stored_records_within_limits_renamed : LimitsRespected kek (renamed "home").tables := by
  have hlawful := lawful
  have hbase64 := lawfulBase64
  have hserde := lawfulSerde
  refine stored_records_within_limits (run_renamed "home") ?_ _ (run_renamed "home").last_mem
  intro e he
  rcases List.mem_cons.mp he with heq | he
  · rw [heq]
    trivial
  · rw [List.mem_singleton.mp he]
    exact fun _ _ => Or.inl (by decide)

/-- The name of a tag is not checked when it is changed. -/
theorem renamed_empty :
    ((renamed "").tables.records.lookup noteId).map RecordRow.deleted = some false ∧
      (renamed "").tables.tagsOf noteId = [""] := by
  decide +kernel

/-- Not every run leaves every live record within the limits. -/
theorem stored_records_not_within_limits :
    ¬ ∀ (seed : VaultSeed) (es : List (Step Tables StoreLabel)) (t : Tables),
      Run (storeStep kek) (Tables.fresh seed) es t →
        ∀ u ∈ visited (Tables.fresh seed) es, LimitsRespected kek u := by
  intro hall
  have hwithin := (hall _ _ _ (run_renamed "") _ (run_renamed "").last_mem).within
  rcases Option.map_eq_some_iff.mp renamed_empty.1 with ⟨row, hrow, hlive⟩
  have htags := (hwithin noteId row hrow hlive).tags
  rw [renamed_empty.2] at htags
  revert htags
  decide

end

end Tagged

end OakKeyring
