import OakKeyring.Crypto.Keystore
import OakKeyring.Vault.IndexedWrites
import OakKeyring.Vault.List

/-!
# Rows that can be read

A row can be read when it decrypts to a payload of its own type. The statements that write a
payload leave the type of the row as it is, and nothing compares the two.
-/

namespace OakKeyring

open Effect Transition

/-! ## Readable rows -/

section Rows

variable [Crypto] (kek : Bytes)

def RecordRow.Readable (row : RecordRow) : Prop :=
  ∃ payload, row.payload kek = some payload ∧ payload.credentialType = row.credentialType

/-- Every row decrypts to a payload of its type. -/
def AllReadable (t : Tables) : Prop :=
  ∀ id row, t.records.lookup id = some row → row.Readable kek

/-- All rows can be read, and that of `id`, when there is one, has the type. -/
structure ReadableAs (id : Uuid) (type : CredentialType) (t : Tables) : Prop where
  rows : AllReadable kek t
  typed : ∀ row, t.records.lookup id = some row → row.credentialType = type

/-- Every row is there before, with the same payload and type. -/
def RowsFrom (t t' : Tables) : Prop :=
  ∀ id row', t'.records.lookup id = some row' → ∃ row, t.records.lookup id = some row ∧
    row'.payload kek = row.payload kek ∧ row'.credentialType = row.credentialType

variable {kek} {t t' : Tables} {id : Uuid} {type : CredentialType}

theorem AllReadable.of_rowsFrom (h : AllReadable kek t) (hrows : RowsFrom kek t t') :
    AllReadable kek t' := by
  intro id row' hrow'
  rcases hrows id row' hrow' with ⟨row, hrow, hpayload, htype⟩
  rcases h id row hrow with ⟨payload, hread, hsame⟩
  exact ⟨payload, hpayload.trans hread, hsame.trans htype.symm⟩

theorem ReadableAs.of_rowsFrom (h : ReadableAs kek id type t) (hrows : RowsFrom kek t t') :
    ReadableAs kek id type t' where
  rows := h.rows.of_rowsFrom hrows
  typed := by
    intro row' hrow'
    rcases hrows id row' hrow' with ⟨row, hrow, -, htype⟩
    exact htype.trans (h.typed row hrow)

theorem rowsFrom_outside {written : List Table} (h : Tables.Outside written t t')
    (hrecords : Table.records ∉ written) : RowsFrom kek t t' := by
  intro id row' hrow'
  have hsame : t'.records = t.records := h .records hrecords
  rw [hsame] at hrow'
  exact ⟨row', hrow', rfl, rfl⟩

/-- A new row that can be read. -/
theorem AllReadable.insertRecord (h : AllReadable kek t) {record : StoredRecord}
    (hrecord : record.toRow.Readable kek) (hrun : t.insertRecord record = .ok t') :
    AllReadable kek t' := by
  have hrecords : t'.records = t.records.insert record.id record.toRow :=
    (Tables.insertRecord_ok hrun).2 .records (by decide)
  intro id row hrow
  rw [hrecords] at hrow
  by_cases heq : id = record.id
  · rw [heq, AList.lookup_insert] at hrow
    rw [← Option.some.inj hrow]
    exact hrecord
  · rw [AList.lookup_insert_ne heq] at hrow
    exact h id row hrow

/-- A payload of the row's type is written over the row. -/
theorem ReadableAs.updateRecord {record : StoredRecord} {version : Nat} {updated : Bool}
    {payload : EncryptedPayload} (h : ReadableAs kek record.id payload.credentialType t)
    (hpayload : payloadUnder kek record.encryptedData record.nonce record.aad record.dekVersion =
      some payload)
    (hrun : t.updateRecord record version = (updated, t')) :
    ReadableAs kek record.id payload.credentialType t' := by
  -- the update hits the row, or the version had moved on
  rcases Tables.updateRecord_cases t record version with ⟨row, hrow, -, hend⟩ | ⟨-, hend⟩
  · rw [hrun] at hend
    cases hend
    have hlookup : ∀ other row', (t.updateRow record.id (Tables.updatedRow record)).records.lookup
        other = some row' → other ≠ record.id ∧ t.records.lookup other = some row' ∨
          other = record.id ∧ row' = Tables.updatedRow record row := by
      intro other row' hrow'
      rw [Tables.lookup_updateRow] at hrow'
      by_cases heq : other = record.id
      · rw [if_pos heq, heq, hrow] at hrow'
        exact Or.inr ⟨heq, (Option.some.inj hrow').symm⟩
      · rw [if_neg heq] at hrow'
        exact Or.inl ⟨heq, hrow'⟩
    -- the type of a row is never written, so that of the payload has to fit
    have htype : (Tables.updatedRow record row).credentialType = payload.credentialType :=
      h.typed row hrow
    constructor
    · intro other row' hrow'
      rcases hlookup other row' hrow' with ⟨-, hold⟩ | ⟨-, hnew⟩
      · exact h.rows other row' hold
      · rw [hnew]
        exact ⟨payload, hpayload, htype.symm⟩
    · intro row' hrow'
      rcases hlookup record.id row' hrow' with ⟨hne, -⟩ | ⟨-, hnew⟩
      · exact absurd rfl hne
      · rw [hnew]
        exact htype
  · rw [hrun] at hend
    cases hend
    exact h

end Rows

/-! ## Statements -/

section Statements

/-- Statements that write no payload. -/
def DbOp.SparesPayloads : DbOp → Prop
  | insertRecord _ => False
  | updateRecord _ _ => False
  | _ => True

/-- Statements that write a payload of this type over the row of a record. -/
def DbOp.Overwrites [Crypto] (kek : Bytes) (id : Uuid) (type : CredentialType) : DbOp → Prop
  | insertRecord _ => False
  | updateRecord record _ => record.id = id ∧ ∃ payload, payload.credentialType = type ∧
      payloadUnder kek record.encryptedData record.nonce record.aad record.dekVersion =
        some payload
  | _ => True

/-- Statements that write new rows that can be read. -/
def DbOp.Inserts [Crypto] (kek : Bytes) : DbOp → Prop
  | insertRecord record => record.toRow.Readable kek
  | updateRecord _ _ => False
  | _ => True

theorem DbOp.sparesPayloads_books : Vault.Bookkeeping DbOp.SparesPayloads where
  getRecord := fun _ => trivial
  listRecords := fun _ => trivial
  insertAuditEntry := fun _ _ _ _ => trivial
  upsertSyncStatePending := fun _ _ => trivial
  getTagByName := fun _ => trivial
  recordIdsForTag := fun _ => trivial
  getOrCreateTag := fun _ => trivial
  deleteRecordHealthState := fun _ => trivial
  copyRecordHealthStateVersion := fun _ _ => trivial
  countPasswordHistory := fun _ => trivial
  oldestPasswordHistory := fun _ => trivial
  deletePasswordHistoryEntry := fun _ => trivial
  insertPasswordHistory := fun _ => trivial
  upsertRecordListIndex := fun _ _ _ => trivial
  clearRecordListIndex := trivial
  countRecordListIndex := trivial
  countAllRecords := trivial
  getMetadata := fun _ => trivial
  setMetadata := fun _ _ => trivial
  upsertRecordHealthState := fun _ => trivial

variable [Crypto] {kek : Bytes} {id : Uuid} {type : CredentialType} {op : DbOp} {t t' : Tables}
  {result : op.Result}

theorem DbOp.SparesPayloads.rowsFrom (hop : op.SparesPayloads)
    (hrun : op.run t = .ok (result, t')) : RowsFrom kek t t' := by
  cases op with
  | insertRecord record => exact hop.elim
  | updateRecord record version => exact hop.elim
  | upsertRecordListIndex id name subtitle =>
      exact rowsFrom_outside (DbOp.outside_run hrun) (by simp [DbOp.writes])
  | clearRecordListIndex =>
      exact rowsFrom_outside (DbOp.outside_run hrun) (by simp [DbOp.writes])
  | setMetadata key value =>
      exact rowsFrom_outside (DbOp.outside_run hrun) (by simp [DbOp.writes])
  | deleteMetadata key =>
      exact rowsFrom_outside (DbOp.outside_run hrun) (by simp [DbOp.writes])
  | _ =>
      refine (DbOp.SparesIndex.same ?_ hrun).rows
      trivial

theorem DbOp.SparesPayloads.overwrites (hop : op.SparesPayloads) : op.Overwrites kek id type := by
  cases op with
  | insertRecord record => exact hop.elim
  | updateRecord record version => exact hop.elim
  | _ => trivial

theorem DbOp.SparesPayloads.inserts (hop : op.SparesPayloads) : op.Inserts kek := by
  cases op with
  | insertRecord record => exact hop.elim
  | updateRecord record version => exact hop.elim
  | _ => trivial

/-- The other statements write no payload, so they are allowed with either. -/
theorem DbOp.overwrites_books : Vault.Bookkeeping (DbOp.Overwrites kek id type) :=
  DbOp.sparesPayloads_books.mono fun _ hop => hop.overwrites

theorem DbOp.inserts_books : Vault.Bookkeeping (DbOp.Inserts kek) :=
  DbOp.sparesPayloads_books.mono fun _ hop => hop.inserts

theorem DbOp.Overwrites.keep (hop : op.Overwrites kek id type)
    (hrun : op.run t = .ok (result, t')) (h : ReadableAs kek id type t) :
    ReadableAs kek id type t' := by
  cases op with
  | insertRecord record => exact hop.elim
  | updateRecord record version =>
      rcases hop with ⟨hid, payload, htype, hpayload⟩
      rw [← hid, ← htype] at h ⊢
      exact h.updateRecord hpayload (Except.ok.inj hrun)
  | _ =>
      refine h.of_rowsFrom (DbOp.SparesPayloads.rowsFrom ?_ hrun)
      trivial

theorem DbOp.Inserts.keep (hop : op.Inserts kek) (hrun : op.run t = .ok (result, t'))
    (h : AllReadable kek t) : AllReadable kek t' := by
  cases op with
  | insertRecord record =>
      rcases Tables.ok_of_bind hrun with ⟨u, hu, hvalue⟩
      cases hvalue
      exact h.insertRecord hop hu
  | updateRecord record version => exact hop.elim
  | _ =>
      refine h.of_rowsFrom (DbOp.SparesPayloads.rowsFrom ?_ hrun)
      trivial

end Statements

/-! ## Operations -/

namespace Vault

section Operations

variable [Crypto] {kek : Bytes} {v : VaultService} {t : Tables} {id : Uuid}
  {type : CredentialType} {α : Type} {p : VaultM α}

/-- An operation that writes no payload. -/
theorem readable_spared (hp : MakesOnly DbOp.SparesPayloads p) (h : AllReadable kek t) :
    Ensures (AllReadable kek) p t :=
  ensures_keep hp (fun _ _ _ _ hop hrun hu => hu.of_rowsFrom (hop.rowsFrom hrun)) h

theorem readable_inserted (hp : MakesOnly (DbOp.Inserts kek) p) (h : AllReadable kek t) :
    Ensures (AllReadable kek) p t :=
  ensures_keep hp (fun _ _ _ _ hop hrun hu => hop.keep hrun hu) h

/-- A payload of the row's type is written over the row. -/
theorem readable_overwritten (id : Uuid) (type : CredentialType)
    (hp : MakesOnly (DbOp.Overwrites kek id type) p)
    (h : AllReadable kek t)
    (htype : ∀ row, t.records.lookup id = some row → row.credentialType = type) :
    Ensures (AllReadable kek) p t := by
  have hstart : ReadableAs kek id type t := ⟨h, htype⟩
  refine ensures_mono (ensures_keep hp ?_ hstart) fun u hu => hu.rows
  intro op result u u' hop hrun hu
  exact hop.keep hrun hu

variable [LawfulCrypto]

/-- A payload that is encrypted can be read. -/
theorem payload_encrypted {payload : EncryptedPayload} {aad data : Bytes} {nonce : Nonce}
    (hopen : v.crypto.Opens kek)
    (hencrypted : v.crypto.encryptPayload payload aad nonce = .ok data) :
    payloadUnder kek data nonce aad v.crypto.currentDekVersion = some payload :=
  hopen.payload (CryptoManager.decryptPayload_encryptPayload hencrypted)

omit [LawfulCrypto] in
/-- A ciphertext that opens under two versions is the same payload under both. -/
theorem payloadUnder_of_opens [IdealAead] {data aad plaintext : Bytes} {nonce : Nonce}
    {version version' : Nat} {payload : EncryptedPayload}
    (hpayload : payloadUnder kek data nonce aad version = some payload)
    (hplain : Crypto.aeadDecrypt data nonce aad (deriveDek kek version') = .ok plaintext) :
    payloadUnder kek data nonce aad version' = payloadUnder kek data nonce aad version := by
  unfold payloadUnder at hpayload ⊢
  cases hopened : Crypto.aeadDecrypt data nonce aad (deriveDek kek version) with
  | error e =>
      rw [hopened] at hpayload
      cases hpayload
  | ok plaintext' =>
      have hkey : deriveDek kek version' = deriveDek kek version :=
        IdealAead.one_key hopened hplain
      rw [hkey, hopened]

/-- What `create_record` and `update_record` check of a payload and its tags. -/
def Admitted (v : VaultService) (payload : EncryptedPayload) (tags : List String) : Prop :=
  v.crypto.isUnlocked = true ∧ validatePayload payload = .ok () ∧ validateTags tags = .ok ()

theorem readable_createRecord {params : CreateRecordParams} (hopen : v.crypto.Opens kek)
    (h : AllReadable kek t)
    (htype : Admitted v params.payload params.tags →
      params.payload.credentialType = params.credentialType) :
    Ensures (AllReadable kek) (createRecord v params) t := by
  refine ensures_bind (wpe_requireUnlocked (fun hunlocked => ?_) h)
  refine ensures_bind (wpe_checked (fun _ hpayload => ?_) fun _ _ => h)
  refine ensures_bind (wpe_checked (fun _ htags => ?_) fun _ _ => h)
  have hsame := htype ⟨hunlocked, hpayload, htags⟩
  refine readable_inserted ?_ h
  refine makesOnly_bind makesOnly_newUuid fun id => ?_
  refine makesOnly_bind makesOnly_newNonce fun nonce => ?_
  refine makesOnly_crypto_bind fun encryptedData hencrypted => ?_
  refine makesOnly_bind makesOnly_now fun time => ?_
  refine makesOnly_bind (makesOnly_query trivial) fun _ => ?_
  refine makesOnly_bind (makesOnly_query ?_) fun _ => ?_
  · exact ⟨params.payload, payload_encrypted hopen hencrypted, hsame⟩
  refine makesOnly_bind (makesOnly_query trivial) fun _ => ?_
  refine makesOnly_bind (makesOnly_query trivial) fun _ => ?_
  exact makesOnly_bind (makesOnly_query trivial) fun _ => makesOnly_pure _

theorem readable_updateRecord {params : UpdateRecordParams} (hopen : v.crypto.Opens kek)
    (h : AllReadable kek t)
    (htype : Admitted v params.payload params.tags → ∀ row,
      t.records.lookup params.id = some row → row.version = params.expectedVersion →
        row.credentialType = params.payload.credentialType) :
    Ensures (AllReadable kek) (updateRecord v params) t := by
  refine ensures_bind (wpe_requireUnlocked (fun hunlocked => ?_) h)
  refine ensures_bind (wpe_getStoredRecord (fun row hrow => ?_) fun _ => h)
  refine ensures_ite (fun _ => ensures_throw h) fun hversion => ?_
  refine ensures_bind (wpe_checked (fun _ hpayload => ?_) fun _ _ => h)
  refine ensures_bind (wpe_checked (fun _ htags => ?_) fun _ _ => h)
  -- by the condition the new payload is of the type of the row
  have hsame : row.credentialType = params.payload.credentialType :=
    htype ⟨hunlocked, hpayload, htags⟩ row hrow (not_not.mp hversion)
  refine readable_overwritten params.id params.payload.credentialType ?_ h ?_
  · refine makesOnly_bind (makesOnly_crypto _) fun oldPayload => ?_
    refine makesOnly_optional (makesOnly_savePasswordHistory DbOp.overwrites_books.toRoutine _ _ _ _) ?_
    refine makesOnly_bind makesOnly_newNonce fun nonce => ?_
    refine makesOnly_crypto_bind fun encryptedData hencrypted => ?_
    refine makesOnly_bind makesOnly_now fun time => ?_
    refine makesOnly_bind (makesOnly_query trivial) fun _ => ?_
    refine makesOnly_bind (makesOnly_query ?_) fun updated => ?_
    · exact ⟨rfl, params.payload, rfl, payload_encrypted hopen hencrypted⟩
    refine makesOnly_ite (makesOnly_throw _) ?_
    refine makesOnly_bind (makesOnly_replaceTags DbOp.overwrites_books.toRoutine _ _ trivial
      fun _ => trivial) fun _ => ?_
    refine makesOnly_bind (makesOnly_query trivial) fun _ => ?_
    refine makesOnly_bind (makesOnly_query trivial) fun _ => ?_
    refine makesOnly_bind (makesOnly_carryHealthState DbOp.overwrites_books.toRoutine _ _ _) fun _ => ?_
    refine makesOnly_bind (makesOnly_query trivial) fun _ => ?_
    exact makesOnly_markRecordsPendingSync DbOp.overwrites_books.toRoutine _
  · intro row' hrow'
    rw [Option.some.inj (hrow'.symm.trans hrow)]
    exact hsame

/-- A ciphertext is opened under the key it was made with, whatever version is asked for. -/
theorem readable_reEncryptRecord [IdealAead] {oldDekVersion : Nat} (hopen : v.crypto.Opens kek)
    (h : AllReadable kek t) : Ensures (AllReadable kek) (reEncryptRecord v id oldDekVersion) t := by
  refine ensures_bind (wpe_getStoredRecord (fun row hrow => ?_) fun _ => h)
  rcases h id row hrow with ⟨payload, hpayload, hsame⟩
  refine ensures_bind (wpe_crypto (fun plaintext hplain => ?_) fun _ _ => h)
  refine readable_overwritten id payload.credentialType ?_ h ?_
  · refine makesOnly_bind makesOnly_newNonce fun nonce => ?_
    refine makesOnly_crypto_bind fun encryptedData hencrypted => ?_
    refine makesOnly_bind makesOnly_now fun time => ?_
    refine makesOnly_bind (makesOnly_query ⟨rfl, payload, rfl, ?_⟩) fun updated => ?_
    · calc payloadUnder kek encryptedData nonce row.aad v.crypto.currentDekVersion
          = payloadUnder kek row.encryptedData row.nonce row.aad oldDekVersion :=
            payload_reEncrypted hopen hplain hencrypted
        _ = payloadUnder kek row.encryptedData row.nonce row.aad row.dekVersion :=
            payloadUnder_of_opens hpayload (hopen.decrypt hplain)
        _ = some payload := hpayload
    · exact makesOnly_ite (makesOnly_throw _) (makesOnly_pure _)
  · intro row' hrow'
    rw [Option.some.inj (hrow'.symm.trans hrow)]
    exact hsame.symm

/-! ## Downloads -/

section Downloads

variable [Codec]

/-- The type a downloaded record has in the vault: its own if it is new, and that of the row it
is written over. -/
def keptType (t : Tables) (id : Uuid) (r : CloudRecord) (m : Option CloudPrivateMetadata) :
    CredentialType :=
  match t.records.lookup id with
  | some row => row.credentialType
  | none => credentialTypeOf r m

/-- A downloaded record that is accepted can be read, with the type it gets; a live one was
decrypted by then. -/
def DownloadReadable [Serde] (kek : Bytes) (v : VaultService) (t : Tables) (r : CloudRecord) :
    Prop :=
  ∀ id data nonce m, Uuid.parseStr r.id = some id →
    decodeBase64 "encrypted_data" r.encryptedData = .ok data →
    decodeNonce "nonce" "nonce" r.nonce = .ok nonce →
    decryptCloudPrivateMetadata v r = .ok m → validateTags (tagsOf r m) = .ok () →
    (deletedOf r = false → ∀ payload,
      v.crypto.decryptPayload data nonce (recordAad id) r.dekVersion = .ok payload →
      validatePayload payload = .ok () → payload.credentialType = keptType t id r m) ∧
    (deletedOf r = true → ∃ payload,
      payloadUnder kek data nonce (recordAad id) r.dekVersion = some payload ∧
      payload.credentialType = keptType t id r m)

omit [LawfulCrypto] in
theorem readable_writes {stored : StoredRecord} {r : CloudRecord}
    {m : Option CloudPrivateMetadata} {payload : EncryptedPayload} (h : AllReadable kek t)
    (hstored : stored.credentialType = credentialTypeOf r m)
    (hpayload : payloadUnder kek stored.encryptedData stored.nonce stored.aad stored.dekVersion =
      some payload)
    (htype : payload.credentialType = keptType t stored.id r m) :
    Ensures (AllReadable kek) (do
      writeDownloaded stored (t.storedRecord stored.id)
      writeDownloadedHealth stored.id r m
      indexDownloaded v stored r m
      markRecordListIndexClean
      return (t.storedRecord stored.id).isNone) t := by
  unfold keptType at htype
  unfold Tables.storedRecord
  -- a downloaded record is new or replaces the row of its id
  cases hrow : t.records.lookup stored.id with
  | none =>
      rw [hrow] at htype
      refine readable_inserted ?_ h
      refine makesOnly_bind (makesOnly_bind (makesOnly_query trivial) fun _ =>
        makesOnly_query ?_) fun _ => ?_
      · exact ⟨payload, hpayload, htype.trans hstored.symm⟩
      refine makesOnly_bind (DbOp.inserts_books.writeDownloadedHealth _ _ _) fun _ => ?_
      refine makesOnly_bind (DbOp.inserts_books.indexDownloaded v _ _ _) fun _ => ?_
      exact makesOnly_bind (makesOnly_query trivial) fun _ => makesOnly_pure _
  | some row =>
      rw [hrow] at htype
      refine readable_overwritten stored.id payload.credentialType ?_ h ?_
      · refine makesOnly_bind ?_ fun _ => ?_
        · refine makesOnly_bind (makesOnly_query trivial) fun _ => ?_
          refine makesOnly_bind (makesOnly_query ⟨rfl, payload, rfl, hpayload⟩) fun _ => ?_
          refine makesOnly_bind (makesOnly_query trivial) fun _ => ?_
          exact makesOnly_replaceTags DbOp.overwrites_books.toRoutine _ _ trivial fun _ => trivial
        refine makesOnly_bind (DbOp.overwrites_books.writeDownloadedHealth _ _ _) fun _ => ?_
        refine makesOnly_bind (DbOp.overwrites_books.indexDownloaded v _ _ _) fun _ => ?_
        exact makesOnly_bind (makesOnly_query trivial) fun _ => makesOnly_pure _
      · intro row' hrow'
        rw [Option.some.inj (hrow'.symm.trans hrow)]
        exact htype.symm

omit [LawfulCrypto] in
theorem readable_applyDownloadedCloudRecord [Serde] {r : CloudRecord}
    (hopen : v.crypto.Opens kek) (h : AllReadable kek t) (hfits : DownloadReadable kek v t r) :
    Ensures (AllReadable kek) (applyDownloadedCloudRecord v r) t := by
  refine ensures_bind (wpe_required (fun id hid => ?_) fun _ => h)
  refine ensures_bind (wpe_crypto (fun data hdata => ?_) fun _ _ => h)
  refine ensures_bind (wpe_crypto (fun nonce hnonce => ?_) fun _ _ => h)
  refine ensures_bind (wpe_query_of_run rfl (fun existing hexisting => ?_) fun _ => h)
  have hread : existing = t.storedRecord id := hexisting
  rw [hread]
  refine ensures_bind (wpe_now fun time => ?_)
  refine ensures_bind (wpe_crypto (fun m hm => ?_) fun _ _ => h)
  refine ensures_bind (wpe_checked (fun _ htags => ?_) fun _ _ => h)
  rcases hfits id data nonce m hid hdata hnonce hm htags with ⟨hlive, hdeleted⟩
  refine ensures_ite (fun hcase => ?_) fun hcase => ?_
  · refine ensures_bind (wpe_crypto (fun payload hdecrypted => ?_) fun _ _ => h)
    refine ensures_bind (wpe_checked (fun _ hvalid => ?_) fun _ _ => h)
    exact readable_writes h rfl (hopen.payload hdecrypted) (hlive hcase payload hdecrypted hvalid)
  · rcases hdeleted (eq_true_of_ne_false hcase) with ⟨payload, hpayload, htype⟩
    exact readable_writes h rfl hpayload htype

/-- The download brings a payload of the type that it gets in the vault. -/
def DownloadOpens [Serde] (kek : Bytes) (v : VaultService) (t : Tables) (r : CloudRecord) : Prop :=
  ∃ id data nonce m payload, Uuid.parseStr r.id = some id ∧
    decodeBase64 "encrypted_data" r.encryptedData = .ok data ∧
    decodeNonce "nonce" "nonce" r.nonce = .ok nonce ∧
    decryptCloudPrivateMetadata v r = .ok m ∧
    payloadUnder kek data nonce (recordAad id) r.dekVersion = some payload ∧
    payload.credentialType = keptType t id r m

end Downloads

end Operations

/-! ## Refusals -/

section Refusals

variable [Crypto] {kek : Bytes} {v : VaultService} {t : Tables} {id : Uuid} {α β : Type}

/-- The program returns an error and leaves the vault as it was. -/
def Refused (p : VaultM α) (t : Tables) : Prop :=
  wpe vaultEnv (fun _ _ => False) (fun _ u => u = t) p t

omit [Crypto] in
theorem refused_bind {p : VaultM α} {f : α → VaultM β}
    (h : wpe vaultEnv (fun a u => wpe vaultEnv (fun _ _ => False) (fun _ u => u = t) (f a) u)
      (fun _ u => u = t) p t) : Refused (p >>= f) t :=
  (wpe_bind p f).mpr h

/-- A new record that is not admitted. -/
theorem refused_createRecord {params : CreateRecordParams}
    (h : ¬ Admitted v params.payload params.tags) : Refused (createRecord v params) t := by
  refine refused_bind (wpe_requireUnlocked (fun hunlocked => ?_) rfl)
  refine refused_bind (wpe_checked (fun _ hpayload => ?_) fun _ _ => rfl)
  refine refused_bind (wpe_checked (fun _ htags => ?_) fun _ _ => rfl)
  exact absurd ⟨hunlocked, hpayload, htags⟩ h

/-- An edit that is not admitted, or not of the version that the row has. -/
theorem refused_updateRecord {params : UpdateRecordParams}
    (h : Admitted v params.payload params.tags → ∀ row, t.records.lookup params.id = some row →
      row.version ≠ params.expectedVersion) : Refused (updateRecord v params) t := by
  refine refused_bind (wpe_requireUnlocked (fun hunlocked => ?_) rfl)
  refine refused_bind (wpe_getStoredRecord (fun row hrow => ?_) fun _ => rfl)
  refine wpe_ite (fun _ => rfl) fun hversion => ?_
  refine refused_bind (wpe_checked (fun _ hpayload => ?_) fun _ _ => rfl)
  refine refused_bind (wpe_checked (fun _ htags => ?_) fun _ _ => rfl)
  exact absurd (not_not.mp hversion) (h ⟨hunlocked, hpayload, htags⟩ row hrow)

/-- A version under which the row, which can be read, does not open. -/
theorem refused_reEncryptRecord [IdealAead] {oldDekVersion : Nat} (hopen : v.crypto.Opens kek)
    (hreadable : AllReadable kek t)
    (h : ∀ row, t.records.lookup id = some row →
      payloadUnder kek row.encryptedData row.nonce row.aad oldDekVersion = none) :
    Refused (reEncryptRecord v id oldDekVersion) t := by
  refine refused_bind (wpe_getStoredRecord (fun row hrow => ?_) fun _ => rfl)
  refine refused_bind (wpe_crypto (fun plaintext hplain => ?_) fun _ _ => rfl)
  rcases hreadable id row hrow with ⟨payload, hpayload, -⟩
  have hsame : payloadUnder kek row.encryptedData row.nonce row.aad oldDekVersion = some payload :=
    (payloadUnder_of_opens hpayload (hopen.decrypt hplain)).trans hpayload
  rw [h row hrow] at hsame
  cases hsame

variable [Codec] [Serde]

/-- A download of another payload than the vault would have, when accepted ones can be read. -/
theorem refused_applyDownloadedCloudRecord {r : CloudRecord} (hopen : v.crypto.Opens kek)
    (hfits : DownloadReadable kek v t r) (h : ¬ DownloadOpens kek v t r) :
    Refused (applyDownloadedCloudRecord v r) t := by
  refine refused_bind (wpe_required (fun id hid => ?_) fun _ => rfl)
  refine refused_bind (wpe_crypto (fun data hdata => ?_) fun _ _ => rfl)
  refine refused_bind (wpe_crypto (fun nonce hnonce => ?_) fun _ _ => rfl)
  refine refused_bind (wpe_query_of_run rfl (fun existing _ => ?_) fun _ => rfl)
  refine refused_bind (wpe_now fun time => ?_)
  refine refused_bind (wpe_crypto (fun m hm => ?_) fun _ _ => rfl)
  refine refused_bind (wpe_checked (fun _ htags => ?_) fun _ _ => rfl)
  -- from here on the download would be written, so its payload is the one to find
  have hother : ∀ payload, payloadUnder kek data nonce (recordAad id) r.dekVersion = some payload →
      payload.credentialType ≠ keptType t id r m :=
    fun payload hpayload htype =>
      h ⟨id, data, nonce, m, payload, hid, hdata, hnonce, hm, hpayload, htype⟩
  rcases hfits id data nonce m hid hdata hnonce hm htags with ⟨hlive, hdeleted⟩
  refine wpe_ite (fun hcase => ?_) fun hcase => ?_
  · refine refused_bind (wpe_crypto (fun payload hdecrypted => ?_) fun _ _ => rfl)
    refine refused_bind (wpe_checked (fun _ hvalid => ?_) fun _ _ => rfl)
    exact absurd (hlive hcase payload hdecrypted hvalid)
      (hother payload (hopen.payload hdecrypted))
  · rcases hdeleted (eq_true_of_ne_false hcase) with ⟨payload, hpayload, htype⟩
    exact absurd htype (hother payload hpayload)

end Refusals

end Vault

/-! ## Steps -/

section Steps

variable [Codec] [Serde] [Crypto] (kek : Bytes)

/-- A step that gives no row a payload of another type than the row has, or none that can be
read. -/
def ReadableSafe (t : Tables) (l : VaultLabel) : Prop :=
  match l.command with
  | .createRecord params =>
      Vault.Admitted l.service params.payload params.tags →
        params.payload.credentialType = params.credentialType
  | .updateRecord params =>
      Vault.Admitted l.service params.payload params.tags → ∀ row,
        t.records.lookup params.id = some row → row.version = params.expectedVersion →
          row.credentialType = params.payload.credentialType
  | .applyDownloadedCloudRecord r => Vault.DownloadReadable kek l.service t r
  | _ => True

/-- The operation is asked for a row that could not be read: a payload of another type than the
row's, or a ciphertext that does not open. -/
def Breaks (t : Tables) (l : VaultLabel) : Prop :=
  match l.command with
  | .createRecord params => params.payload.credentialType ≠ params.credentialType
  | .updateRecord params => ∃ row, t.records.lookup params.id = some row ∧
      row.credentialType ≠ params.payload.credentialType
  | .reEncryptRecord id oldDekVersion => ∃ row, t.records.lookup id = some row ∧
      payloadUnder kek row.encryptedData row.nonce row.aad oldDekVersion = none
  | .applyDownloadedCloudRecord r => ¬ Vault.DownloadOpens kek l.service t r
  | _ => False

variable {kek} [LawfulCrypto] [IdealAead] {t t' : Tables} {l : VaultLabel}

theorem readable_program (hopen : l.service.crypto.Opens kek) (h : AllReadable kek t)
    (hsafe : ReadableSafe kek t l) :
    Vault.Ensures (AllReadable kek) (l.command.program l.service) t := by
  have hspared : ∀ {command : VaultCommand}, command.Permitted DbOp.SparesPayloads →
      Vault.Ensures (AllReadable kek) (command.program l.service) t := by
    intro command hpermitted
    exact Vault.readable_spared
      (VaultCommand.makesOnly_program DbOp.sparesPayloads_books l.service hpermitted) h
  have hvalue : ∀ {α : Type} {p : VaultM α}, Vault.Ensures (AllReadable kek) p t →
      Vault.Ensures (AllReadable kek) (p >>= fun _ => pure ()) t :=
    fun hp => Vault.ensures_seq hp (fun _ _ hu => Vault.ensures_pure hu) fun _ hu => hu
  unfold ReadableSafe at hsafe
  -- each command writes payloads that open or writes none
  cases hcommand : l.command with
  | createRecord params =>
      rw [hcommand] at hsafe
      exact hvalue (Vault.readable_createRecord hopen h hsafe)
  | updateRecord params =>
      rw [hcommand] at hsafe
      exact Vault.readable_updateRecord hopen h hsafe
  | reEncryptRecord id oldDekVersion => exact Vault.readable_reEncryptRecord hopen h
  | applyDownloadedCloudRecord r =>
      rw [hcommand] at hsafe
      exact hvalue (Vault.readable_applyDownloadedCloudRecord hopen h hsafe)
  | emptyTrash => exact hspared fun _ => trivial
  | cleanupExpiredTrash retentionDays => exact hspared fun _ => trivial
  | softDeleteRecord id => exact hspared fun _ => trivial
  | batchSoftDelete ids => exact hspared fun _ _ => trivial
  | markRecordSynced id => exact hspared fun _ => trivial
  | markRecordConflict id conflictData => exact hspared fun _ => trivial
  | _ => exact hspared trivial

/-- A safe step leaves every row readable. -/
theorem AllReadable.step (h : AllReadable kek t) (hstep : keyedStep kek t l t')
    (hsafe : ReadableSafe kek t l) : AllReadable kek t' :=
  hstep.2.of_ensures (readable_program hstep.1 h hsafe)

omit [LawfulCrypto] in
theorem refused_program (hopen : l.service.crypto.Opens kek) (h : AllReadable kek t)
    (hsafe : ReadableSafe kek t l) (hbreaks : Breaks kek t l) :
    Vault.Refused (l.command.program l.service) t := by
  have hvalue : ∀ {α : Type} {p : VaultM α}, Vault.Refused p t →
      Vault.Refused (p >>= fun _ => pure ()) t :=
    fun hp => Vault.refused_bind (wpe_mono (fun _ _ hnever => hnever.elim) (fun _ _ hu => hu) hp)
  unfold ReadableSafe at hsafe
  unfold Breaks at hbreaks
  -- the commands that could break the rows, each with the condition it is refused under
  cases hcommand : l.command with
  | createRecord params =>
      rw [hcommand] at hsafe hbreaks
      exact hvalue (Vault.refused_createRecord fun hadmitted => hbreaks (hsafe hadmitted))
  | updateRecord params =>
      rw [hcommand] at hsafe hbreaks
      rcases hbreaks with ⟨row, hrow, htype⟩
      refine Vault.refused_updateRecord fun hadmitted row' hrow' hversion => ?_
      rw [Option.some.inj (hrow'.symm.trans hrow)] at hversion
      exact htype (hsafe hadmitted row hrow hversion)
  | reEncryptRecord id oldDekVersion =>
      rw [hcommand] at hbreaks
      rcases hbreaks with ⟨row, hrow, hclosed⟩
      refine Vault.refused_reEncryptRecord hopen h fun row' hrow' => ?_
      rw [Option.some.inj (hrow'.symm.trans hrow)]
      exact hclosed
  | applyDownloadedCloudRecord r =>
      rw [hcommand] at hsafe hbreaks
      exact hvalue (Vault.refused_applyDownloadedCloudRecord hopen hsafe hbreaks)
  | _ =>
      rw [hcommand] at hbreaks
      exact hbreaks.elim

omit [LawfulCrypto] in
/-- A safe step that would break a row returns an error and leaves the vault as it was. -/
theorem AllReadable.refused (h : AllReadable kek t) (hstep : keyedStep kek t l t')
    (hsafe : ReadableSafe kek t l) (hbreaks : Breaks kek t l) :
    (∃ e, l.outcome = .error e) ∧ t' = t := by
  have hend := hstep.2.of_wpe (refused_program hstep.1 h hsafe hbreaks)
  cases houtcome : l.outcome with
  | ok a =>
      rw [houtcome] at hend
      exact hend.elim
  | error e =>
      rw [houtcome] at hend
      exact ⟨⟨e, rfl⟩, hend⟩

end Steps

/-! ## Reading -/

section Reading

variable {kek : Bytes} {v : VaultService}

/-- The service was unlocked with the key of the vault. -/
def VaultService.HoldsKey (kek : Bytes) (v : VaultService) : Prop :=
  ∃ ks, v.crypto.keystore = some ks ∧ ks.kek = some kek

theorem VaultService.HoldsKey.opens (h : v.HoldsKey kek) : v.crypto.Opens kek := by
  rcases h with ⟨ks, hks, hkek⟩
  intro ks' k hks' hk
  rw [← Option.some.inj (hks.symm.trans hks')] at hk
  exact Option.some.inj (hk.symm.trans hkek)

theorem VaultService.HoldsKey.unlocked (h : v.HoldsKey kek) : v.crypto.isUnlocked = true := by
  rcases h with ⟨ks, hks, -⟩
  unfold CryptoManager.isUnlocked
  rw [hks]
  rfl

theorem VaultService.HoldsKey.getDek [Crypto] (h : v.HoldsKey kek) (version : Nat) :
    v.crypto.getDek version = .ok (deriveDek kek version) := by
  rcases h with ⟨ks, hks, hkek⟩
  unfold CryptoManager.getDek
  rw [hks]
  simp only
  rw [hkek]

variable [Crypto] {t : Tables} {id : Uuid}

open Vault in
/-- A row that can be read is read, unless the database fails. -/
theorem AllReadable.wpe_getDecryptedRecord (hkey : v.HoldsKey kek) (h : AllReadable kek t)
    (hid : id ∈ t.records) :
    wpe vaultEnv (fun decrypted _ => decrypted.id = id)
      (fun e _ => ∃ fault, e = .DatabaseError fault) (getDecryptedRecord v id) t := by
  have hopened : requireUnlocked v = pure () := if_pos hkey.unlocked
  refine (wpe_bind _ _).mpr ?_
  rw [hopened]
  refine (wpe_bind _ _).mpr ((wpe_bind _ _).mpr (wpe_query_of_run rfl ?_ fun fault => ⟨fault, rfl⟩))
  intro found hfound
  have hfound : found = t.storedRecord id := hfound
  -- the row of the id opens, so the record is returned
  rcases Option.isSome_iff_exists.mp (AList.lookup_isSome.mpr hid) with ⟨row, hrow⟩
  have hstored : t.storedRecord id = some (row.toStoredRecord id (t.tagsOf id)) := by
    unfold Tables.storedRecord
    rw [hrow]
    rfl
  rw [hfound, hstored]
  refine wpe_required ?_ fun hnone => (nomatch hnone)
  intro stored heq
  rw [← Option.some.inj heq]
  rcases h id row hrow with ⟨payload, hpayload, htype⟩
  have hsame : (row.toStoredRecord id (t.tagsOf id)).credentialType = payload.credentialType :=
    htype.symm
  have hread : payloadOf v (row.toStoredRecord id (t.tagsOf id)) = .ok payload :=
    hkey.opens.decryptPayload hpayload (hkey.getDek _)
  refine (wpe_bind _ _).mpr ?_
  rw [hread]
  refine (wpe_bind _ _).mpr ?_
  unfold decryptedRecord
  rw [if_pos hsame]
  exact (wpe_bind _ _).mpr (wpe_query_of_run rfl (fun _ _ => rfl) fun fault => ⟨fault, rfl⟩)

end Reading

end OakKeyring
