import OakKeyring.Vault.ListIndex

/-!
# Operations that write payloads and their index rows

Each of them marks the index, writes one record, writes its index row and clears the mark. Wherever
it stops, the index rows of the other records are as they were.
-/

namespace OakKeyring

open Effect Transition

namespace Vault

section Writes

variable [Crypto] {kek : Bytes} {v : VaultService} {t : Tables}

theorem ensures_same (kek : Bytes) {α : Type} {Inv : Tables → Prop} {p : VaultM α}
    (hp : MakesOnly DbOp.SparesIndex p)
    (hInv : ∀ {u u' : Tables}, SamePayloads kek u u' → Inv u → Inv u') (h : Inv t) :
    Ensures Inv p t :=
  ensures_keep hp (fun _ _ _ _ hop hrun => hInv (hop.same hrun)) h

variable {base : Tables} {own : Option Uuid}

/-- However the program ends, the index is left as an operation on `own` may leave it. -/
def Indexes (kek : Bytes) (base : Tables) (own : Option Uuid) {α : Type} (p : VaultM α)
    (t : Tables) : Prop :=
  wpe vaultEnv (fun _ u => IndexAfter kek base own False u)
    (fun _ u => IndexAfter kek base own True u) p t

theorem indexes_bind {α β : Type} {p : VaultM α} {f : α → VaultM β}
    (h : wpe vaultEnv (fun a u => Indexes kek base own (f a) u)
      (fun _ u => IndexAfter kek base own True u) p t) :
    Indexes kek base own (p >>= f) t :=
  (wpe_bind p f).mpr h

/-- A first part that keeps `P`. -/
theorem indexes_seq {α β : Type} {P : Tables → Prop} {p : VaultM α} {f : α → VaultM β}
    (hp : Ensures P p t) (hf : ∀ a u, P u → Indexes kek base own (f a) u)
    (hfail : ∀ u, P u → IndexAfter kek base own True u) : Indexes kek base own (p >>= f) t :=
  indexes_bind (wpe_mono hf (fun _ => hfail) hp)

/-- A part that is made or left out. -/
theorem indexes_optional {α : Type} {P : Tables → Prop} {c : Prop} [Decidable c] {p : VaultM Unit}
    {rest : VaultM α} (h : P t) (hp : Ensures P p t)
    (hrest : ∀ u, P u → Indexes kek base own rest u)
    (hfail : ∀ u, P u → IndexAfter kek base own True u) :
    Indexes kek base own (if c then p >>= fun _ => rest else rest) t :=
  wpe_ite (fun _ => indexes_seq hp (fun _ => hrest) hfail) fun _ => hrest t h

/-- After the index row is written it stays written, whatever comes next. -/
theorem indexes_written {α : Type} {id : Uuid} {p : VaultM α} (hp : MakesOnly DbOp.SparesIndex p)
    (h : Written kek base id t) (hown : ∀ other, own = some other → other = id) :
    Indexes kek base own p t := by
  have hwritten : Ensures (Written kek base id) p t :=
    ensures_same kek hp (fun hsame hu => hu.of_same hsame) h
  exact wpe_mono (fun _ _ hu => hu.after hown) (fun _ _ hu => hu.after hown) hwritten

/-- The parts of the operations that write neither payloads nor marks. -/
theorem ensures_writing {α : Type} {id : Uuid} {type : CredentialType}
    {payload : Option EncryptedPayload} {p : VaultM α} (hp : MakesOnly DbOp.SparesIndex p)
    (hwriting : Writing kek base id type payload t) (hmarked : markedDirty t) :
    Ensures (fun u => Writing kek base id type payload u ∧ markedDirty u) p t := by
  refine ensures_same kek hp ?_ ⟨hwriting, hmarked⟩
  intro u u' hsame hu
  exact ⟨hu.1.of_same hsame, hsame.marked_iff.mpr hu.2⟩

omit [Crypto] in
theorem marked_dirty (t : Tables) :
    markedDirty { t with metadata := t.metadata.insert RECORD_LIST_INDEX_DIRTY_KEY "1" } :=
  AList.lookup_insert _

omit [Crypto] in
theorem marked_of_outside {written : List Table} {t' : Tables} (hmarked : markedDirty t)
    (h : Tables.Outside written t t') (hmetadata : Table.metadata ∉ written) :
    markedDirty t' := by
  have hsame : t'.metadata = t.metadata := h .metadata hmetadata
  unfold markedDirty
  rw [hsame]
  exact hmarked

/-- The index is marked, and every payload is as before. -/
theorem untouched_dirty (h : Untouched kek base t) :
    Untouched kek base
      { t with metadata := t.metadata.insert RECORD_LIST_INDEX_DIRTY_KEY "1" } where
  toWellListed := h.toWellListed.set_metadata _
  stale := h.stale
  shown := h.shown
  marked := fun _ => marked_dirty t

section Rules

variable {E : VaultError → Tables → Prop}

omit [Crypto] in
theorem wpe_dirty {Q : Unit → Tables → Prop}
    (hok : Q () { t with metadata := t.metadata.insert RECORD_LIST_INDEX_DIRTY_KEY "1" })
    (hfault : ∀ e, E (.DatabaseError e) t) : wpe vaultEnv Q E markRecordListIndexDirty t :=
  wpe_query_of_run rfl (fun _ _ => hok) fun _ => hfault _

theorem wpe_clean {id : Uuid} {Q : Unit → Tables → Prop} (hwritten : Written kek base id t)
    (hok : ∀ u, Written kek base id u → Q () u) (hfault : ∀ e, E (.DatabaseError e) t) :
    wpe vaultEnv Q E markRecordListIndexClean t :=
  wpe_query_of_run rfl (fun _ _ => hok _ (hwritten.set_metadata _)) fun _ => hfault _

/-- The index row of the record that was written. -/
theorem wpe_index {id : Uuid} {type : CredentialType} {payload : Option EncryptedPayload}
    {name subtitle : String} {Q : Unit → Tables → Prop}
    (hwriting : Writing kek base id type payload t)
    (hentry : ∀ p, payload = some p → (name, subtitle) = p.indexFields)
    (hok : ∀ u, Written kek base id u → Q () u) (hfault : ∀ e, E (.DatabaseError e) t) :
    wpe vaultEnv Q E (query (.upsertRecordListIndex id name subtitle)) t := by
  refine wpe_query ?_ fun _ => hfault _
  intro expected result t' hrun _
  rcases Tables.ok_of_bind hrun with ⟨u, hu, hvalue⟩
  cases hvalue
  have hrefers := Tables.referring_ok hu
  rw [hrefers.2]
  exact hok _ (hwriting.indexed hrefers.1 hentry)

/-- A new record, inserted while the index is marked. -/
theorem wpe_insertRecord {record : StoredRecord} {payload : Option EncryptedPayload}
    {Q : Unit → Tables → Prop} (huntouched : Untouched kek base t) (hmarked : markedDirty t)
    (hpayload : payloadUnder kek record.encryptedData record.nonce record.aad record.dekVersion =
      payload)
    (hfits : ∀ p, payload = some p → p.credentialType = record.credentialType)
    (hok : ∀ u, Writing kek base record.id record.credentialType payload u → markedDirty u →
      u.listIndex.lookup record.id = none → Q () u)
    (hfault : ∀ e, E (.DatabaseError e) t) : wpe vaultEnv Q E (query (.insertRecord record)) t := by
  refine wpe_query ?_ fun _ => hfault _
  intro expected result t' hrun _
  rcases Tables.ok_of_bind hrun with ⟨u, hu, hvalue⟩
  cases hvalue
  have hafter : markedDirty t' :=
    marked_of_outside hmarked (Tables.outside_insertRecord hu) (by decide)
  rcases huntouched.insertRecord hu hpayload hfits with ⟨hwriting, hnone⟩
  exact hok t' hwriting hafter hnone

/-- The optimistic update of a record that is being written. -/
theorem wpe_updateRecord {record : StoredRecord} {version : Nat} {type : CredentialType}
    {before payload : Option EncryptedPayload} {Q : Bool → Tables → Prop}
    (hwriting : Writing kek base record.id type before t) (hmarked : markedDirty t)
    (hpayload : payloadUnder kek record.encryptedData record.nonce record.aad record.dekVersion =
      payload)
    (hfits : ∀ p, payload = some p → p.credentialType = type)
    (hok : ∀ u, Writing kek base record.id type payload u → markedDirty u → Q true u)
    (hmissed : (∀ row, t.records.lookup record.id = some row → row.version ≠ version) →
      Q false t)
    (hfault : ∀ e, E (.DatabaseError e) t) : wpe vaultEnv Q E (query (.updateRecord record version)) t := by
  refine wpe_query ?_ fun _ => hfault _
  intro expected updated t' hrun hupdated
  have hresult : t.updateRecord record version = (expected, t') := Except.ok.inj hrun
  have hsame : updated = expected := hupdated
  rw [hsame]
  rcases Tables.updateRecord_cases t record version with ⟨row, -, -, hend⟩ | ⟨hversion, hend⟩
  · rw [hresult] at hend
    cases hend
    refine hok _ (hwriting.update (fun row => ⟨hpayload, rfl⟩) hfits) ?_
    exact marked_of_outside hmarked (Tables.outside_updateRow t _ _) (by decide)
  · rw [hresult] at hend
    cases hend
    exact hmissed hversion

end Rules

section Operations

variable [LawfulCrypto]

theorem index_createRecord {params : CreateRecordParams} (hopen : v.crypto.Opens kek)
    (hwell : WellListed kek t) (htype : params.payload.credentialType = params.credentialType) :
    Indexes kek t none (createRecord v params) t := by
  have hstart : Untouched kek t t := hwell.untouched
  refine indexes_bind (wpe_requireUnlocked (fun _ => ?_) hstart.after)
  refine indexes_bind (wpe_checked (fun _ _ => ?_) fun _ _ => hstart.after)
  refine indexes_bind (wpe_checked (fun _ _ => ?_) fun _ _ => hstart.after)
  refine indexes_bind (wpe_newUuid fun id => ?_)
  refine indexes_bind (wpe_newNonce fun nonce => ?_)
  refine indexes_bind (wpe_crypto (fun encryptedData hencrypted => ?_) fun _ _ => hstart.after)
  refine indexes_bind (wpe_now fun time => ?_)
  refine indexes_bind (wpe_dirty ?_ fun _ => hstart.after)
  have hdirty := untouched_dirty hstart
  have hpayload : payloadUnder kek encryptedData nonce (recordAad id) v.crypto.currentDekVersion
      = some params.payload :=
    hopen.payload (CryptoManager.decryptPayload_encryptPayload hencrypted)
  have hfits : ∀ p, some params.payload = some p → p.credentialType = params.credentialType := by
    intro p hp
    rw [← Option.some.inj hp]
    exact htype
  refine indexes_bind (wpe_insertRecord hdirty (marked_dirty t) hpayload hfits ?_
    fun _ => hdirty.after)
  intro u hwriting hmarked hnone
  -- until it has an index row, the new record is missed by the count of rows
  refine indexes_bind (wpe_index hwriting ?_ (fun u hwritten => ?_)
    fun _ => hwriting.after hmarked (Or.inr hnone))
  · intro p hp
    rw [← Option.some.inj hp]
  have hown : ∀ other, none = some other → other = id := fun _ h => (nomatch h)
  refine indexes_bind (wpe_clean hwritten (fun u hwritten' => ?_) fun _ => hwritten.after hown)
  exact indexes_written (makesOnly_bind (makesOnly_query trivial) fun _ => makesOnly_pure id)
    hwritten' hown

theorem index_updateRecord {params : UpdateRecordParams} (hopen : v.crypto.Opens kek)
    (hwell : WellListed kek t)
    (htype : ∀ row, t.records.lookup params.id = some row →
      row.credentialType = params.payload.credentialType) :
    Indexes kek t (some params.id) (updateRecord v params) t := by
  have hstart : Untouched kek t t := hwell.untouched
  -- the write is about one record alone
  have hown : ∀ other, some params.id = some other → other = params.id :=
    fun _ h => (Option.some.inj h).symm
  obtain ⟨before, hbefore⟩ : ∃ before,
      Writing kek t params.id params.payload.credentialType before t :=
    ⟨_, hstart.writing htype⟩
  refine indexes_bind (wpe_requireUnlocked (fun _ => ?_) hstart.after)
  refine indexes_bind (wpe_getStoredRecord (fun row hrow => ?_) fun _ => hstart.after)
  refine wpe_ite (fun _ => hstart.after) fun _ => ?_
  refine indexes_bind (wpe_checked (fun _ _ => ?_) fun _ _ => hstart.after)
  refine indexes_bind (wpe_checked (fun _ _ => ?_) fun _ _ => hstart.after)
  refine indexes_bind (wpe_crypto (fun oldPayload _ => ?_) fun _ _ => hstart.after)
  -- the history is outside the index
  have hhistory : Ensures
      (fun u => Untouched kek t u ∧ Writing kek t params.id params.payload.credentialType before u)
      (savePasswordHistory params.id row.encryptedData row.nonce row.dekVersion) t := by
    refine ensures_same kek (makesOnly_savePasswordHistory DbOp.sparesIndex_routine _ _ _ _) ?_
      ⟨hstart, hbefore⟩
    intro u u' hsame hu
    exact ⟨hu.1.of_same hsame, hu.2.of_same hsame⟩
  refine indexes_optional ⟨hstart, hbefore⟩ hhistory ?_ fun u hu => hu.1.after
  rintro u ⟨huntouched, huwriting⟩
  refine indexes_bind (wpe_newNonce fun nonce => ?_)
  refine indexes_bind (wpe_crypto (fun encryptedData hencrypted => ?_) fun _ _ => huntouched.after)
  refine indexes_bind (wpe_now fun time => ?_)
  refine indexes_bind (wpe_dirty ?_ fun _ => huntouched.after)
  -- the flag was set before the row is written
  have hdirty := untouched_dirty huntouched
  have hpayload : payloadUnder kek encryptedData nonce (recordAad params.id)
      v.crypto.currentDekVersion = some params.payload :=
    hopen.payload (CryptoManager.decryptPayload_encryptPayload hencrypted)
  have hfits : ∀ p, some params.payload = some p →
      p.credentialType = params.payload.credentialType := by
    intro p hp
    rw [Option.some.inj hp]
  refine indexes_bind (wpe_updateRecord (huwriting.set_metadata _) (marked_dirty u) hpayload hfits
    ?_ (fun _ => hdirty.after) fun _ => hdirty.after)
  intro u' hwriting hmarked
  refine indexes_seq (ensures_writing (makesOnly_replaceTags DbOp.sparesIndex_routine _ _ trivial
    fun _ => trivial) hwriting hmarked) ?_ fun w hw => hw.1.after hw.2 (Or.inl rfl)
  rintro - w ⟨hwriting', hmarked'⟩
  refine indexes_bind (wpe_index hwriting' ?_ (fun u hwritten => ?_)
    fun _ => hwriting'.after hmarked' (Or.inl rfl))
  · intro p hp
    rw [← Option.some.inj hp]
  refine indexes_bind (wpe_clean hwritten (fun u' hwritten' => ?_) fun _ => hwritten.after hown)
  refine indexes_written ?_ hwritten' hown
  refine makesOnly_bind (makesOnly_carryHealthState DbOp.sparesIndex_routine _ _ _) fun _ => ?_
  exact makesOnly_bind (makesOnly_query trivial) fun _ => makesOnly_markRecordsPendingSync DbOp.sparesIndex_routine _

/-- A ciphertext that is decrypted and encrypted again keeps its payload. -/
theorem payload_reEncrypted {plaintext aad data data' : Bytes} {nonce nonce' : Nonce}
    {version : Nat} (hopen : v.crypto.Opens kek)
    (hplain : v.crypto.decrypt data nonce aad version = .ok plaintext)
    (hencrypted : v.crypto.encrypt plaintext aad nonce' = .ok data') :
    payloadUnder kek data' nonce' aad v.crypto.currentDekVersion =
      payloadUnder kek data nonce aad version := by
  have hold := hopen.decrypt hplain
  have hnew := hopen.decrypt (CryptoManager.decrypt_encrypt hencrypted)
  unfold payloadUnder
  rw [hold, hnew]

theorem index_reEncryptRecord {id : Uuid} {oldDekVersion : Nat} (hopen : v.crypto.Opens kek)
    (hwell : WellListed kek t)
    (hversion : ∀ row, t.records.lookup id = some row → row.dekVersion = oldDekVersion) :
    Ensures (Untouched kek t) (reEncryptRecord v id oldDekVersion) t := by
  have hstart : Untouched kek t t := hwell.untouched
  refine ensures_bind (wpe_getStoredRecord (fun row hrow => ?_) fun _ => hstart)
  refine ensures_bind (wpe_crypto (fun plaintext hplain => ?_) fun _ _ => hstart)
  refine ensures_bind (wpe_newNonce fun nonce => ?_)
  refine ensures_bind (wpe_crypto (fun encryptedData hencrypted => ?_) fun _ _ => hstart)
  refine ensures_bind (wpe_now fun time => ?_)
  refine ensures_bind (wpe_query (fun expected (updated : Bool) t' hrun _ => ?_) fun _ => hstart)
  have hresult := Except.ok.inj hrun
  have hkept : Untouched kek t t' := by
    -- the row is replaced by one that opens to the same payload
    rcases Tables.updateRecord_cases t
        (reEncrypted v (row.toStoredRecord id (t.tagsOf id)) encryptedData nonce time)
        row.version with ⟨row', -, -, hend⟩ | ⟨-, hend⟩
    · have hsame : t' = t.updateRow id (Tables.updatedRow
          (reEncrypted v (row.toStoredRecord id (t.tagsOf id)) encryptedData nonce time)) :=
        congrArg Prod.snd (hresult.symm.trans hend)
      rw [hsame]
      refine hstart.of_same (.updateRow t id fun row' hrow' => ⟨?_, rfl⟩)
      have heq : row = row' := Option.some.inj (hrow.symm.trans hrow')
      rw [← heq]
      have hsamePayload := payload_reEncrypted hopen hplain hencrypted
      rw [← hversion row hrow] at hsamePayload
      exact hsamePayload
    -- the version had moved on, and nothing is written
    · have hsame : t' = t := congrArg Prod.snd (hresult.symm.trans hend)
      rw [hsame]
      exact hstart
  exact ensures_ite (fun _ => ensures_throw hkept) fun _ => ensures_pure hkept

end Operations

end Writes

section Downloads

variable [Codec] [Serde] [Crypto] {kek : Bytes} {v : VaultService} {t : Tables}

omit [Codec] [Serde] in
/-- The row of a downloaded record, written or inserted. -/
theorem wpe_writeDownloaded {stored : StoredRecord} {payload : Option EncryptedPayload}
    (hwell : WellListed kek t)
    (hpayload : payloadUnder kek stored.encryptedData stored.nonce stored.aad stored.dekVersion =
      payload)
    (hfits : ∀ p, payload = some p → p.credentialType = stored.credentialType ∧
      ∀ row, t.records.lookup stored.id = some row → row.credentialType = p.credentialType) :
    wpe vaultEnv
      (fun _ u => ∃ type, Writing kek t stored.id type payload u ∧ markedDirty u)
      (fun _ u => IndexAfter kek t (some stored.id) True u)
      (writeDownloaded stored (t.storedRecord stored.id)) t := by
  have hstart : Untouched kek t t := hwell.untouched
  have hdirty := untouched_dirty hstart
  cases hrow : t.records.lookup stored.id with
  | none =>
      have hnone : t.storedRecord stored.id = none := by
        unfold Tables.storedRecord
        rw [hrow]
        rfl
      rw [hnone]
      refine (wpe_bind _ _).mpr (wpe_dirty ?_ fun _ => hstart.after)
      refine wpe_insertRecord hdirty (marked_dirty t) hpayload (fun p hp => (hfits p hp).1) ?_
        fun _ => hdirty.after
      intro u hwriting hmarked _
      exact ⟨_, hwriting, hmarked⟩
  | some row =>
      have hsome : t.storedRecord stored.id =
          some (row.toStoredRecord stored.id (t.tagsOf stored.id)) := by
        unfold Tables.storedRecord
        rw [hrow]
        rfl
      rw [hsome]
      have htype : ∀ row', t.records.lookup stored.id = some row' →
          row'.credentialType = row.credentialType := by
        intro row' hrow'
        rw [Option.some.inj (hrow.symm.trans hrow')]
      have hbefore := hstart.writing htype
      refine (wpe_bind _ _).mpr (wpe_dirty ?_ fun _ => hstart.after)
      refine (wpe_bind _ _).mpr (wpe_updateRecord (hbefore.set_metadata _) (marked_dirty t)
        hpayload (fun p hp => ((hfits p hp).2 row hrow).symm) ?_ ?_ fun _ => hdirty.after)
      · intro u hwriting hmarked
        have hrest : MakesOnly DbOp.SparesIndex (do
            query (.updateRecordDeletedState stored.id stored.deleted stored.deletedAt)
            replaceTags stored.id stored.tags) :=
          makesOnly_bind (makesOnly_query trivial) fun _ => makesOnly_replaceTags DbOp.sparesIndex_routine _ _ trivial fun _ => trivial
        refine wpe_mono ?_ ?_ (ensures_writing hrest hwriting hmarked)
        · intro _ w hw
          exact ⟨_, hw⟩
        · intro _ w hw
          exact hw.1.after hw.2 (Or.inl rfl)
      · intro hmissed
        -- the row still has the version it was read with
        exact absurd rfl (hmissed row hrow)

omit [Serde] [Crypto] in
theorem spares_writeDownloadedHealth (id : Uuid) (r : CloudRecord)
    (m : Option CloudPrivateMetadata) :
    MakesOnly DbOp.SparesIndex (writeDownloadedHealth id r m) := by
  cases m with
  | none => exact makesOnly_pure ()
  | some m =>
      cases hhealth : m.health with
      | some health =>
          simp only [writeDownloadedHealth, hhealth]
          exact makesOnly_query trivial
      | none =>
          simp only [writeDownloadedHealth, hhealth]
          exact makesOnly_bind (makesOnly_query trivial) fun _ => makesOnly_pure _

variable [LawfulCrypto]

omit [Codec] [Serde] in
/-- The index row of a downloaded record is made from its payload, when that can be read. -/
theorem wpe_indexDownloaded {stored : StoredRecord} {r : CloudRecord}
    {m : Option CloudPrivateMetadata} {type : CredentialType} {payload : Option EncryptedPayload}
    {base : Tables} (hopen : v.crypto.Opens kek)
    (hwriting : Writing kek base stored.id type payload t) (hmarked : markedDirty t)
    (hpayload : payloadUnder kek stored.encryptedData stored.nonce stored.aad stored.dekVersion =
      payload)
    (hfits : ∀ p, payload = some p → p.credentialType = stored.credentialType ∧
      ∃ dek, v.crypto.getDek stored.dekVersion = .ok dek) :
    wpe vaultEnv (fun _ u => Written kek base stored.id u)
      (fun _ u => IndexAfter kek base (some stored.id) True u) (indexDownloaded v stored r m) t := by
  have hstopped : IndexAfter kek base (some stored.id) True t :=
    hwriting.after hmarked (Or.inl rfl)
  have hshown : ∀ p, payload = some p →
      v.crypto.decryptNameOnly stored.encryptedData stored.nonce stored.aad stored.dekVersion =
          .ok p.indexFields.1 ∧
        v.crypto.decryptSubtitle stored.encryptedData stored.nonce stored.aad
          stored.credentialType stored.dekVersion = .ok p.indexFields.2 := by
    intro p hp
    rcases hfits p hp with ⟨htype, dek, hdek⟩
    have hread := hopen.decryptPayload (hpayload.trans hp) hdek
    rw [← htype]
    exact CryptoManager.shown_of_decryptPayload hread
  refine (wpe_bind _ _).mpr (wpe_attempt ?_)
  -- a row that cannot be made belongs to a payload that cannot be read
  have hfallback : payload = none →
      wpe vaultEnv (fun _ u => Written kek base stored.id u)
        (fun _ u => IndexAfter kek base (some stored.id) True u)
        (query (.upsertRecordListIndex stored.id (fallbackName r m) "")) t := by
    intro hnone
    refine wpe_index hwriting ?_ (fun u hwritten => hwritten) fun _ => hstopped
    intro p hp
    rw [hnone] at hp
    cases hp
  refine (wpe_bind _ _).mpr (wpe_crypto ?_ ?_)
  · intro name hname
    refine (wpe_bind _ _).mpr (wpe_crypto ?_ ?_)
    · intro subtitle hsubtitle
      refine wpe_index hwriting ?_ (fun u hwritten => hwritten) fun _ => ?_
      · intro p hp
        have hnameOk := Except.ok.inj (hname.symm.trans (hshown p hp).1)
        have hsubtitleOk := Except.ok.inj (hsubtitle.symm.trans (hshown p hp).2)
        rw [hnameOk, hsubtitleOk]
      · exact hstopped
    · intro e he
      refine hfallback ?_
      cases hcase : payload with
      | none => rfl
      | some p =>
          have hgood := (hshown p hcase).2
          rw [he] at hgood
          cases hgood
  · intro e he
    refine hfallback ?_
    cases hcase : payload with
    | none => rfl
    | some p =>
        have hgood := (hshown p hcase).1
        rw [he] at hgood
        cases hgood

/-- The payload of a download, when it can be read, has the type it is indexed under and can be
read by the service. -/
def DownloadFits (kek : Bytes) (v : VaultService) (t : Tables) (id : Uuid) (r : CloudRecord)
    (data : Bytes) (nonce : Nonce) (m : Option CloudPrivateMetadata) : Prop :=
  ∀ p, payloadUnder kek data nonce (recordAad id) r.dekVersion = some p →
    p.credentialType = credentialTypeOf r m ∧
    (∀ row, t.records.lookup id = some row → row.credentialType = p.credentialType) ∧
    (deletedOf r = true → ∃ dek, v.crypto.getDek r.dekVersion = .ok dek)

omit [Serde] in
/-- The writes of a download, once its record is checked. -/
theorem index_writes (stored : StoredRecord) {r : CloudRecord} {m : Option CloudPrivateMetadata}
    {payload : Option EncryptedPayload} (hopen : v.crypto.Opens kek) (hwell : WellListed kek t)
    (hpayload : payloadUnder kek stored.encryptedData stored.nonce stored.aad stored.dekVersion =
      payload)
    (hfits : ∀ p, payload = some p → p.credentialType = stored.credentialType ∧
      (∀ row, t.records.lookup stored.id = some row → row.credentialType = p.credentialType) ∧
      ∃ dek, v.crypto.getDek stored.dekVersion = .ok dek) :
    Indexes kek t (some stored.id) (do
      writeDownloaded stored (t.storedRecord stored.id)
      writeDownloadedHealth stored.id r m
      indexDownloaded v stored r m
      markRecordListIndexClean
      return (t.storedRecord stored.id).isNone) t := by
  have hown : ∀ other, some stored.id = some other → other = stored.id :=
    fun _ h => (Option.some.inj h).symm
  refine indexes_bind (wpe_mono ?_ (fun _ _ h => h) (wpe_writeDownloaded hwell hpayload
    fun p hp => ⟨(hfits p hp).1, (hfits p hp).2.1⟩))
  rintro - u ⟨type, hwriting, hmarked⟩
  refine indexes_seq (ensures_writing (spares_writeDownloadedHealth _ _ _) hwriting hmarked) ?_
    fun w hw => hw.1.after hw.2 (Or.inl rfl)
  rintro - w ⟨hwriting', hmarked'⟩
  refine indexes_bind (wpe_mono ?_ (fun _ _ h => h) (wpe_indexDownloaded hopen hwriting' hmarked'
    hpayload fun p hp => ⟨(hfits p hp).1, (hfits p hp).2.2⟩))
  intro _ x hwritten
  exact indexes_bind (wpe_clean hwritten (fun y hwritten' => hwritten'.after hown)
    fun _ => hwritten.after hown)

theorem index_applyDownloadedCloudRecord {r : CloudRecord} (hopen : v.crypto.Opens kek)
    (hwell : WellListed kek t)
    (hfits : ∀ id data nonce m, Uuid.parseStr r.id = some id →
      decodeBase64 "encrypted_data" r.encryptedData = .ok data →
      decodeNonce "nonce" "nonce" r.nonce = .ok nonce →
      decryptCloudPrivateMetadata v r = .ok m → DownloadFits kek v t id r data nonce m) :
    Indexes kek t (Uuid.parseStr r.id) (applyDownloadedCloudRecord v r) t := by
  have hstart : Untouched kek t t := hwell.untouched
  refine indexes_bind (wpe_required (fun id hid => ?_) fun _ => hstart.after)
  rw [hid]
  refine indexes_bind (wpe_crypto (fun data hdata => ?_) fun _ _ => hstart.after)
  refine indexes_bind (wpe_crypto (fun nonce hnonce => ?_) fun _ _ => hstart.after)
  refine indexes_bind (wpe_query_of_run rfl (fun existing hexisting => ?_) fun _ => hstart.after)
  have hread : existing = t.storedRecord id := hexisting
  rw [hread]
  refine indexes_bind (wpe_now fun time => ?_)
  refine indexes_bind (wpe_crypto (fun m hm => ?_) fun _ _ => hstart.after)
  refine indexes_bind (wpe_checked (fun _ _ => ?_) fun _ _ => hstart.after)
  -- what the cloud holds opens to the payload that is entered
  have hpayload := hfits id data nonce m hid hdata hnonce hm
  refine wpe_ite (fun hlive => ?_) fun hdeleted => ?_
  · refine indexes_bind (wpe_crypto (fun payload hdecrypted => ?_) fun _ _ => hstart.after)
    refine indexes_bind (wpe_checked (fun _ _ => ?_) fun _ _ => hstart.after)
    refine index_writes (downloadedRecord id r data nonce m (t.storedRecord id) time) hopen hwell
      rfl fun p hp => ?_
    rcases hpayload p hp with ⟨htype, hrows, -⟩
    exact ⟨htype, hrows, CryptoManager.getDek_of_decryptPayload hdecrypted⟩
  -- a deleted record is taken over without its payload being opened
  · refine index_writes (downloadedRecord id r data nonce m (t.storedRecord id) time) hopen hwell
      rfl fun p hp => ?_
    rcases hpayload p hp with ⟨htype, hrows, hdek⟩
    -- the live case was the one before
    have hgone : deletedOf r = true := by
      cases hcase : deletedOf r with
      | true => rfl
      | false => exact absurd hcase hdeleted
    exact ⟨htype, hrows, hdek hgone⟩

end Downloads

end Vault

end OakKeyring
