import OakKeyring.Vault.Limits

/-!
# Operations and the limits

What each operation has to find in the vault for the limits to hold wherever it stops.
-/

namespace OakKeyring

open Effect Tables Transition

/-! ## Statements of one operation -/

section Statements

variable [Crypto] (kek : Bytes)

/-- A new record within the limits. -/
structure RecordFits (record : StoredRecord) : Prop where
  aad : record.aad = recordAad record.id
  tags : validateTags record.tags = .ok ()
  payload : record.deleted = false → ∀ payload,
    payloadUnder kek record.encryptedData record.nonce record.aad record.dekVersion =
      some payload → validatePayload payload = .ok ()

/-- Statements that insert a record within the limits, or add nothing. -/
def DbOp.InsertsWithin (op : DbOp) : Prop :=
  op.Narrowing ∨ ∃ record, op = .insertRecord record ∧ RecordFits kek record

/-- Statements that restore some of these records, or add nothing. -/
def DbOp.Restores (ids : List Uuid) (op : DbOp) : Prop :=
  op.Narrowing ∨ (∃ id ∈ ids, op = .restoreRecord id) ∨ op = .batchRestoreRecords ids

variable {kek} {op : DbOp} {t t' : Tables} {result : op.Result}

theorem DbOp.InsertsWithin.keep (hop : op.InsertsWithin kek)
    (hrun : op.run t = .ok (result, t')) (h : LimitsInv kek t) : LimitsInv kek t' := by
  rcases hop with hnarrowing | ⟨record, heq, hfits⟩
  · exact hnarrowing.keep hrun h
  · cases heq
    rcases ok_of_bind hrun with ⟨u, hu, hvalue⟩
    cases hvalue
    exact h.insertRecord hfits.aad hfits.tags hfits.payload hu

/-- The invariant, and that these records may come back. -/
structure MayReturn (kek : Bytes) (ids : List Uuid) (t : Tables) : Prop where
  inv : LimitsInv kek t
  back : ∀ id ∈ ids, Restorable kek t id

theorem MayReturn.restore {ids : List Uuid} {id : Uuid} (h : MayReturn kek ids t) (hid : id ∈ ids)
    {f : RecordRow → RecordRow}
    (hf : ∀ row, (f row).payload kek = row.payload kek ∧ (f row).aad = row.aad) :
    MayReturn kek ids (t.updateRow id f) where
  inv := h.inv.restore (h.back id hid) hf
  back := fun other hother => (h.back other hother).updateRow fun row => (hf row).1

theorem MayReturn.foldl {ids hit : List Uuid} (h : MayReturn kek ids t)
    (hhit : ∀ id ∈ hit, id ∈ ids) {f : RecordRow → RecordRow}
    (hf : ∀ row, (f row).payload kek = row.payload kek ∧ (f row).aad = row.aad) :
    MayReturn kek ids (hit.foldl (fun t id => t.updateRow id f) t) := by
  induction hit generalizing t with
  | nil => exact h
  | cons id rest ih =>
      exact ih (h.restore (hhit id List.mem_cons_self) hf)
        fun other hother => hhit other (List.mem_cons_of_mem _ hother)

theorem DbOp.Restores.keep {ids : List Uuid} (hop : op.Restores ids)
    (hrun : op.run t = .ok (result, t')) (h : MayReturn kek ids t) : MayReturn kek ids t' := by
  rcases hop with hnarrowing | ⟨id, hid, heq⟩ | heq
  · exact ⟨hnarrowing.keep hrun h.inv,
      fun id hid => (h.back id hid).of_narrows (hnarrowing.narrows h.inv.keyed hrun)⟩
  · cases heq
    cases hrun
    exact h.restore hid fun row => ⟨rfl, rfl⟩
  · cases heq
    cases hrun
    refine h.foldl ?_ fun row => ⟨rfl, rfl⟩
    intro id hid
    exact List.mem_dedup.mp (List.mem_of_mem_filter hid)

end Statements

/-! ## Refused batches -/

section Refused

variable {t t' : Tables}

/-- A batch that goes through: the tag is there or can be, and so are the records. -/
def BatchAccepted (t : Tables) (ids : List Uuid) (name : String) : Prop :=
  ((t.tagByName name).isSome ∨ checkName name) ∧ ∀ id ∈ ids, id ∈ t.records

theorem records_attachTag {id : Uuid} {tagId : Nat} (hkeyed : t.Keyed)
    (h : t.attachTag id tagId = .ok t') : id ∈ t.records ∧ t'.records = t.records := by
  constructor
  · unfold Tables.attachTag at h
    split at h
    · rename_i hlinked
      exact hkeyed.linksOwned _ hlinked
    · split at h
      · rename_i hthere
        exact hthere.1
      · cases h
  · rw [attachTag_eq h]
    unfold Tables.link
    split <;> rfl

theorem batchAccepted_of_ok {ids : List Uuid} {name : String} {n : Nat} (hkeyed : t.Keyed)
    (h : t.batchAddTag ids name = .ok (n, t')) : BatchAccepted t ids name := by
  rcases ok_of_bind h with ⟨⟨tag, u⟩, htag, hloop⟩
  have hnamed := named_getOrCreateTag hkeyed htag
  -- one id after the other, each linked to the tag that was found or made
  have hgen : ∀ (rest : List Uuid) (acc : Nat × Tables), acc.2.Keyed →
      acc.2.records = t.records →
      rest.foldlM
        (fun (acc : Nat × Tables) id => do
          let after ← acc.2.attachTag id tag.id
          let more := if acc.2.countRecordTags id < after.countRecordTags id then 1 else 0
          return (acc.1 + more, after)) acc = .ok (n, t') → ∀ id ∈ rest, id ∈ t.records := by
    intro rest
    induction rest with
    | nil => exact fun _ _ _ _ _ hmem => nomatch hmem
    | cons id rest ih =>
        intro acc hacc hrecords hend
        rw [List.foldlM_cons] at hend
        rcases ok_of_bind hend with ⟨next, hnext, hrest⟩
        rcases ok_of_bind hnext with ⟨after, hattach, hvalue⟩
        cases hvalue
        rcases records_attachTag hacc hattach with ⟨hmem, hsame⟩
        rw [hrecords] at hmem hsame
        exact List.forall_mem_cons.mpr ⟨hmem, ih _ (hacc.attachTag hattach) hsame hrest⟩
  refine ⟨?_, hgen ids (0, u) hnamed.keyed hnamed.records hloop⟩
  unfold getOrCreateTag at htag
  split at htag
  -- the tag is there, whatever its name
  · rename_i found hfound
    exact Or.inl (by rw [hfound]; rfl)
  -- a new tag keeps within the check of the table
  · split at htag
    · rename_i hshort
      exact Or.inr hshort
    · cases htag

end Refused

/-! ## Operations -/

namespace Vault

section Operations

variable [Crypto] {kek : Bytes} {v : VaultService} {t : Tables} {id : Uuid} {α : Type}
  {p : VaultM α}

/-- An operation that adds nothing. -/
theorem limited_spared (hp : MakesOnly DbOp.Narrowing p) (h : LimitsInv kek t) :
    Ensures (LimitsInv kek) p t :=
  ensures_keep hp (fun _ _ _ _ hop hrun hu => hop.keep hrun hu) h

theorem limited_restores (ids : List Uuid) (hp : MakesOnly (DbOp.Restores ids) p)
    (h : LimitsInv kek t) (hback : ∀ id ∈ ids, Restorable kek t id) :
    Ensures (LimitsInv kek) p t := by
  have hstart : MayReturn kek ids t := ⟨h, hback⟩
  refine ensures_mono (ensures_keep hp ?_ hstart) fun u hu => hu.inv
  exact fun _ _ _ _ hop hrun hu => hop.keep hrun hu

theorem limited_restoreRecord (h : LimitsInv kek t) (hback : Restorable kek t id) :
    Ensures (LimitsInv kek) (restoreRecord v id) t := by
  have hbooks : Bookkeeping (DbOp.Restores [id]) :=
    DbOp.narrowing_books.mono fun _ hop => Or.inl hop
  refine limited_restores [id] (makesOnly_restoreRecord hbooks.toRoutine v id ?_) h ?_
  · exact Or.inr (Or.inl ⟨id, List.mem_singleton_self id, rfl⟩)
  · intro other hother
    rw [List.mem_singleton.mp hother]
    exact hback

theorem limited_batchRestore {ids : List Uuid} (h : LimitsInv kek t)
    (hback : ∀ id ∈ ids, Restorable kek t id) : Ensures (LimitsInv kek) (batchRestore v ids) t := by
  have hbooks : Bookkeeping (DbOp.Restores ids) :=
    DbOp.narrowing_books.mono fun _ hop => Or.inl hop
  exact limited_restores ids (makesOnly_batchRestore hbooks.toRoutine v ids (Or.inr (Or.inr rfl))) h
    hback

omit [Crypto] in
theorem spared_markRecordsPendingSync (ids : List Uuid) :
    MakesOnly DbOp.Narrowing (markRecordsPendingSync ids) :=
  makesOnly_markRecordsPendingSync DbOp.narrowing_books.toRoutine ids

/-- A tag is renamed after it is found that the new name is not taken. -/
theorem limited_renameTag {oldName newName : String} (h : LimitsInv kek t)
    (hfits : t.tagByName newName = none → checkName newName → NameFits t oldName newName) :
    Ensures (LimitsInv kek) (renameTag oldName newName) t := by
  refine ensures_bind (wpe_query_of_run rfl (fun (ids : List Uuid) _ => ?_) fun _ => h)
  refine ensures_bind (wpe_query_of_run rfl (fun (taken : Option Tag) htaken => ?_) fun _ => h)
  refine ensures_ite (fun _ => ensures_throw h) fun hfree => ?_
  refine ensures_bind (wpe_query (fun expected (renamed : Bool) u hrun _ => ?_) fun _ => h)
  have hread : taken = t.tagByName newName := htaken
  rw [hread, Bool.not_eq_true, Option.isSome_eq_false_iff, Option.isNone_iff_eq_none] at hfree
  refine limited_spared ?_ (h.renameTag (hfits hfree) hrun)
  refine makesOnly_ite (makesOnly_throw _) ?_
  exact makesOnly_ite (spared_markRecordsPendingSync ids) (makesOnly_pure _)

theorem limited_batchAddTag {ids : List Uuid} {name : String} (h : LimitsInv kek t)
    (hfits : BatchAccepted t ids name → BatchFits t ids name) : Ensures (LimitsInv kek) (batchAddTag ids name) t := by
  refine ensures_bind (wpe_query (fun expected (added : Nat) u hrun _ => ?_) fun _ => h)
  have hrun : t.batchAddTag ids name = .ok (expected, u) := hrun
  have haccepted := batchAccepted_of_ok h.keyed hrun
  refine limited_spared ?_ (h.batchAddTag (hfits haccepted) hrun)
  refine makesOnly_ite ?_ (makesOnly_pure _)
  exact makesOnly_bind (spared_markRecordsPendingSync ids) fun _ => makesOnly_pure _

/-- The tags of a record are replaced by tags within the limits. -/
theorem limited_replaceTags {tags : List String} (h : LimitsInv kek t)
    (htags : validateTags tags = .ok ()) : Ensures (LimitsInv kek) (replaceTags id tags) t := by
  refine ensures_bind (wpe_query (fun _ _ u hrun _ => ?_) fun _ => h)
  have hdetach : (DbOp.detachAllTagsForRecord id).Narrowing := trivial
  have hu : LimitsInv kek u := hdetach.keep hrun h
  rcases detached h.keyed hrun with ⟨-, -, hnone⟩
  refine wpe_mono (fun _ _ hw => hw.1) (fun _ _ hw => hw) (wpe_forM
    (P := fun (done : List String) w => LimitsInv kek w ∧ (w.tagsOf id).length ≤ done.length ∧
      ∀ name ∈ w.tagsOf id, name ∈ done) ⟨hu, ?_, ?_⟩ ?_)
  -- the old links are gone before the first new one
  · rw [hnone]
  · rw [hnone]
    exact fun _ hmem => nomatch hmem
  · rintro done name rest w hsplit ⟨hw, hlength, hdone⟩
    refine (wpe_bind _ _).mpr (wpe_query (fun (expected tag : Tag) x hrun hsame => ?_) fun _ => hw)
    have htag : tag = expected := hsame
    have hcreate : (DbOp.getOrCreateTag name).Narrowing := trivial
    have hx : LimitsInv kek x := hcreate.keep hrun hw
    have hnamed := named_getOrCreateTag hw.keyed hrun
    refine wpe_query (fun _ _ y hrun' _ => ?_) fun _ => hx
    rcases ok_of_bind hrun' with ⟨linked, hlinked, hvalue⟩
    have hlast : y = linked := (congrArg Prod.snd (Except.ok.inj hvalue)).symm
    rw [htag, ← hlast] at hlinked
    rw [← hnamed.tagsOf id] at hlength hdone
    rcases validateTags_iff.mp htags with ⟨hmax, hall⟩
    -- the names still to come leave room for this one
    have hroom : (x.tagsOf id).length < MAX_TAGS_PER_RECORD := by
      have hcount : tags.length = done.length + (rest.length + 1) := by
        rw [hsplit, List.length_append, List.length_cons]
      omega
    have hvalid : validateTag name = .ok () := hall name (by rw [hsplit]; simp)
    refine ⟨hx.attachTag hnamed.lookup (fun _ _ _ => Or.inr ⟨hvalid, hroom⟩) hlinked, ?_, ?_⟩
    · rw [attachTag_eq hlinked, List.length_append, List.length_singleton]
      exact (length_tagsOf_link _).trans (Nat.add_le_add_right hlength 1)
    -- a linked name is the new one or one of those before
    · intro other hmem
      rw [attachTag_eq hlinked] at hmem
      rcases (mem_tagsOf_link hnamed.lookup).mp hmem with hnew | hold
      · rw [hnew]
        simp
      · exact List.mem_append_left _ (hdone other hold)

variable [LawfulCrypto]

theorem limited_createRecord {params : CreateRecordParams} (hopen : v.crypto.Opens kek)
    (h : LimitsInv kek t) : Ensures (LimitsInv kek) (createRecord v params) t := by
  have hbooks : Bookkeeping (DbOp.InsertsWithin kek) :=
    DbOp.narrowing_books.mono fun _ hop => Or.inl hop
  refine ensures_bind (wpe_requireUnlocked (fun _ => ?_) h)
  refine ensures_bind (wpe_checked (fun _ hvalid => ?_) fun _ _ => h)
  refine ensures_bind (wpe_checked (fun _ htags => ?_) fun _ _ => h)
  refine ensures_keep (P := DbOp.InsertsWithin kek) ?_
    (fun _ _ _ _ hop hrun hu => hop.keep hrun hu) h
  refine makesOnly_bind makesOnly_newUuid fun id => ?_
  refine makesOnly_bind makesOnly_newNonce fun nonce => ?_
  refine makesOnly_crypto_bind fun encryptedData hencrypted => ?_
  refine makesOnly_bind makesOnly_now fun time => ?_
  refine makesOnly_bind (makesOnly_query (hbooks.setMetadata _ _)) fun _ => ?_
  refine makesOnly_bind (makesOnly_query (Or.inr ⟨_, rfl, rfl, htags, ?_⟩)) fun _ => ?_
  · intro _ payload hpayload
    have hown := payload_encrypted hopen hencrypted
    rw [← Option.some.inj (hown.symm.trans hpayload)]
    exact hvalid
  refine makesOnly_bind (makesOnly_query (hbooks.upsertRecordListIndex _ _ _)) fun _ => ?_
  refine makesOnly_bind (makesOnly_query (hbooks.setMetadata _ _)) fun _ => ?_
  exact makesOnly_bind (makesOnly_query (hbooks.insertAuditEntry _ _ _ _)) fun _ =>
    makesOnly_pure _

theorem limited_updateRecord {params : UpdateRecordParams} (hopen : v.crypto.Opens kek)
    (h : LimitsInv kek t) : Ensures (LimitsInv kek) (updateRecord v params) t := by
  have hbooks := DbOp.narrowing_books
  refine ensures_bind (wpe_requireUnlocked (fun _ => ?_) h)
  refine ensures_bind (wpe_getStoredRecord (fun row hrow => ?_) fun _ => h)
  refine ensures_ite (fun _ => ensures_throw h) fun _ => ?_
  refine ensures_bind (wpe_checked (fun _ hvalid => ?_) fun _ _ => h)
  refine ensures_bind (wpe_checked (fun _ htags => ?_) fun _ _ => h)
  refine ensures_bind (wpe_crypto (fun oldPayload _ => ?_) fun _ _ => h)
  refine ensures_optional h (limited_spared
    (makesOnly_savePasswordHistory hbooks.toRoutine _ _ _ _) h) ?_ fun _ hu => hu
  intro u hu
  refine ensures_bind (wpe_newNonce fun nonce => ?_)
  refine ensures_bind (wpe_crypto (fun encryptedData hencrypted => ?_) fun _ _ => hu)
  refine ensures_bind (wpe_now fun time => ?_)
  refine ensures_seq (limited_spared (makesOnly_query (hbooks.setMetadata _ _)) hu) ?_
    fun _ hw => hw
  intro _ w hw
  refine ensures_bind (wpe_query (fun expected (updated : Bool) x hrun _ => ?_) fun _ => hw)
  -- the row is written under the key of the device
  have hx : LimitsInv kek x := by
    refine hw.updateRecord rfl ?_ (Except.ok.inj hrun)
    intro _ _ _ payload hpayload
    have hown := payload_encrypted hopen hencrypted
    rw [← Option.some.inj (hown.symm.trans hpayload)]
    exact hvalid
  refine ensures_ite (fun _ => ensures_throw hx) fun _ => ?_
  refine ensures_seq (limited_replaceTags hx htags) ?_ fun _ hy => hy
  intro _ y hy
  refine limited_spared ?_ hy
  refine makesOnly_bind (makesOnly_query (hbooks.upsertRecordListIndex _ _ _)) fun _ => ?_
  refine makesOnly_bind (makesOnly_query (hbooks.setMetadata _ _)) fun _ => ?_
  refine makesOnly_bind (makesOnly_carryHealthState hbooks.toRoutine _ _ _) fun _ => ?_
  refine makesOnly_bind (makesOnly_query (hbooks.insertAuditEntry _ _ _ _)) fun _ => ?_
  exact spared_markRecordsPendingSync _

/-- What a live record keeps under the version that is asked for. -/
def ReEncryptFits (kek : Bytes) (t : Tables) (id : Uuid) (oldDekVersion : Nat) : Prop :=
  ∀ row, t.records.lookup id = some row → row.deleted = false → ∀ payload,
    payloadUnder kek row.encryptedData row.nonce row.aad oldDekVersion = some payload →
      validatePayload payload = .ok ()

theorem limited_reEncryptRecord {oldDekVersion : Nat} (hopen : v.crypto.Opens kek)
    (h : LimitsInv kek t) (hfits : ReEncryptFits kek t id oldDekVersion) :
    Ensures (LimitsInv kek) (reEncryptRecord v id oldDekVersion) t := by
  refine ensures_bind (wpe_getStoredRecord (fun row hrow => ?_) fun _ => h)
  refine ensures_bind (wpe_crypto (fun plaintext hplain => ?_) fun _ _ => h)
  refine ensures_bind (wpe_newNonce fun nonce => ?_)
  refine ensures_bind (wpe_crypto (fun encryptedData hencrypted => ?_) fun _ _ => h)
  refine ensures_bind (wpe_now fun time => ?_)
  refine ensures_bind (wpe_query (fun expected (updated : Bool) u hrun _ => ?_) fun _ => h)
  have hu : LimitsInv kek u := by
    refine h.updateRecord (h.own id row hrow) ?_ (Except.ok.inj hrun)
    intro row' hrow' hlive payload hpayload
    have hsame : row' = row := Option.some.inj (hrow'.symm.trans hrow)
    rw [hsame] at hlive
    have hkept := payload_reEncrypted hopen hplain hencrypted
    exact hfits row hrow hlive payload (hkept.symm.trans hpayload)
  exact ensures_ite (fun _ => ensures_throw hu) fun _ => ensures_pure hu

/-! ## Downloads -/

section Downloads

variable [Codec]

/-- A live download over a record in the trash finds its tags within the limits, and a deleted
one over a live record has a payload within them. -/
def DownloadWithin [Serde] (kek : Bytes) (v : VaultService) (t : Tables) (r : CloudRecord) :
    Prop :=
  ∀ id data nonce m row, Uuid.parseStr r.id = some id →
    decodeBase64 "encrypted_data" r.encryptedData = .ok data →
    decodeNonce "nonce" "nonce" r.nonce = .ok nonce →
    decryptCloudPrivateMetadata v r = .ok m → validateTags (tagsOf r m) = .ok () →
    t.records.lookup id = some row →
    (deletedOf r = false → row.deleted = true → validateTags (t.tagsOf id) = .ok ()) ∧
    (deletedOf r = true → row.deleted = false → ∀ payload,
      payloadUnder kek data nonce (recordAad id) r.dekVersion = some payload →
        validatePayload payload = .ok ())

/-- What the writes of a download need of the record. -/
structure DownloadLimits (kek : Bytes) (t : Tables) (stored : StoredRecord) : Prop where
  fits : RecordFits kek stored
  trashed : ∀ row, t.records.lookup stored.id = some row → stored.deleted = false →
    row.deleted = true → validateTags (t.tagsOf stored.id) = .ok ()
  live : ∀ row, t.records.lookup stored.id = some row → stored.deleted = true →
    row.deleted = false → ∀ payload,
      payloadUnder kek stored.encryptedData stored.nonce stored.aad stored.dekVersion =
        some payload → validatePayload payload = .ok ()

omit [LawfulCrypto] [Codec] in
theorem limited_writeDownloaded {stored : StoredRecord} (h : LimitsInv kek t)
    (hstored : DownloadLimits kek t stored) :
    Ensures (LimitsInv kek) (writeDownloaded stored (t.storedRecord stored.id)) t := by
  unfold Tables.storedRecord
  cases hrow : t.records.lookup stored.id with
  | none =>
      refine ensures_keep (P := DbOp.InsertsWithin kek) ?_
        (fun _ _ _ _ hop hrun hu => hop.keep hrun hu) h
      exact makesOnly_bind (makesOnly_query (Or.inl trivial)) fun _ =>
        makesOnly_query (Or.inr ⟨stored, rfl, hstored.fits⟩)
  | some row =>
      have hpayload : row.deleted = false → ∀ payload,
          payloadUnder kek stored.encryptedData stored.nonce stored.aad stored.dekVersion =
            some payload → validatePayload payload = .ok () := by
        intro hlive payload hread
        cases hdeleted : stored.deleted with
        | false => exact hstored.fits.payload hdeleted payload hread
        | true => exact hstored.live row hrow hdeleted hlive payload hread
      have hmark : (DbOp.setMetadata RECORD_LIST_INDEX_DIRTY_KEY "1").Narrowing := trivial
      have hdirty : LimitsInv kek
          { t with metadata := t.metadata.insert RECORD_LIST_INDEX_DIRTY_KEY "1" } :=
        hmark.keep rfl h
      refine ensures_bind (wpe_dirty ?_ fun _ => h)
      refine ensures_bind (wpe_query (fun expected (updated : Bool) u hrun _ => ?_) fun _ => hdirty)
      have hu : LimitsInv kek u := by
        refine hdirty.updateRecord hstored.fits.aad ?_ (Except.ok.inj hrun)
        intro row' hrow' hlive
        rw [Option.some.inj (hrow'.symm.trans hrow)] at hlive
        exact hpayload hlive
      have hkept := updated_row (t := { t with
        metadata := t.metadata.insert RECORD_LIST_INDEX_DIRTY_KEY "1" }) hrow (Except.ok.inj hrun)
      -- the row comes back, or goes to the trash
      refine ensures_bind (wpe_query_of_run rfl (fun _ _ => ?_) fun _ => hu)
      refine limited_replaceTags ?_ hstored.fits.tags
      refine hu.updateRow fun row' hrow' => ?_
      have hsame : row' = updatedRow stored row := Option.some.inj (hrow'.symm.trans hkept.1)
      rw [hsame]
      refine ⟨hstored.fits.aad, fun hlive => ⟨hstored.fits.payload hlive, ?_⟩⟩
      rw [hkept.2.trans (tagsOf_same rfl rfl stored.id)]
      cases hdeleted : row.deleted with
      | false => exact (h.within stored.id row hrow hdeleted).tags
      | true => exact hstored.trashed row hrow hlive hdeleted

omit [LawfulCrypto] in
theorem limited_applyDownloadedCloudRecord [Serde] {r : CloudRecord}
    (hopen : v.crypto.Opens kek) (h : LimitsInv kek t) (hfits : DownloadWithin kek v t r) :
    Ensures (LimitsInv kek) (applyDownloadedCloudRecord v r) t := by
  refine ensures_bind (wpe_required (fun id hid => ?_) fun _ => h)
  refine ensures_bind (wpe_crypto (fun data hdata => ?_) fun _ _ => h)
  refine ensures_bind (wpe_crypto (fun nonce hnonce => ?_) fun _ _ => h)
  refine ensures_bind (wpe_query_of_run rfl (fun existing hexisting => ?_) fun _ => h)
  have hread : existing = t.storedRecord id := hexisting
  rw [hread]
  refine ensures_bind (wpe_now fun time => ?_)
  refine ensures_bind (wpe_crypto (fun m hm => ?_) fun _ _ => h)
  refine ensures_bind (wpe_checked (fun _ htags => ?_) fun _ _ => h)
  -- what the record and its tags must satisfy, once its parts are read
  have hfits := fun row => hfits id data nonce m row hid hdata hnonce hm htags
  have hrest : RecordFits kek (downloadedRecord id r data nonce m (t.storedRecord id) time) →
      Ensures (LimitsInv kek) (do
        writeDownloaded (downloadedRecord id r data nonce m (t.storedRecord id) time)
          (t.storedRecord id)
        writeDownloadedHealth id r m
        indexDownloaded v (downloadedRecord id r data nonce m (t.storedRecord id) time) r m
        markRecordListIndexClean
        return (t.storedRecord id).isNone) t := by
    intro hrecord
    refine ensures_seq (limited_writeDownloaded h ⟨hrecord, ?_, ?_⟩) ?_ fun _ hu => hu
    · exact fun row hrow => (hfits row hrow).1
    · exact fun row hrow => (hfits row hrow).2
    · intro _ u hu
      refine limited_spared ?_ hu
      refine makesOnly_bind (DbOp.narrowing_books.writeDownloadedHealth _ _ _) fun _ => ?_
      refine makesOnly_bind (DbOp.narrowing_books.indexDownloaded v _ _ _) fun _ => ?_
      exact makesOnly_bind (makesOnly_query trivial) fun _ => makesOnly_pure _
  refine ensures_ite (fun hlive => ?_) fun hgone => ?_
  · refine ensures_bind (wpe_crypto (fun payload hdecrypted => ?_) fun _ _ => h)
    refine ensures_bind (wpe_checked (fun _ hvalid => ?_) fun _ _ => h)
    refine hrest ⟨rfl, htags, ?_⟩
    intro _ payload' hpayload'
    have hown := hopen.payload hdecrypted
    rw [← Option.some.inj (hown.symm.trans hpayload')]
    exact hvalid
  · exact hrest ⟨rfl, htags, fun hlive => absurd hlive hgone⟩

end Downloads

end Operations

end Vault

/-! ## Steps -/

section Steps

variable [Codec] [Serde] [Crypto] (kek : Bytes)

/-- A step after which every live record is still within the limits: no tag is given to a live
record unchecked, and nothing comes back that is not within them. -/
def LimitSafe (t : Tables) (l : VaultLabel) : Prop :=
  match l.command with
  | .renameTag oldName newName =>
      t.tagByName newName = none → checkName newName → NameFits t oldName newName
  | .batchAddTag ids name => BatchAccepted t ids name → BatchFits t ids name
  | .applyDownloadedCloudRecord r => Vault.DownloadWithin kek l.service t r
  | .restoreRecord id => Restorable kek t id
  | .batchRestore ids => ∀ id ∈ ids, Restorable kek t id
  | .reEncryptRecord id oldDekVersion => Vault.ReEncryptFits kek t id oldDekVersion
  | _ => True

variable {kek} [LawfulCrypto] {t t' : Tables} {l : VaultLabel}

theorem limited_program (hopen : l.service.crypto.Opens kek) (h : LimitsInv kek t)
    (hsafe : LimitSafe kek t l) :
    Vault.Ensures (LimitsInv kek) (l.command.program l.service) t := by
  have hspared : ∀ {command : VaultCommand}, command.Permitted DbOp.Narrowing →
      Vault.Ensures (LimitsInv kek) (command.program l.service) t := by
    intro command hpermitted
    exact Vault.limited_spared
      (VaultCommand.makesOnly_program DbOp.narrowing_books l.service hpermitted) h
  have hvalue : ∀ {α : Type} {p : VaultM α}, Vault.Ensures (LimitsInv kek) p t →
      Vault.Ensures (LimitsInv kek) (p >>= fun _ => pure ()) t :=
    fun hp => Vault.ensures_seq hp (fun _ _ hu => Vault.ensures_pure hu) fun _ hu => hu
  unfold LimitSafe at hsafe
  -- each command keeps the limits by its own statements or writes no limited field
  cases hcommand : l.command with
  | createRecord params => exact hvalue (Vault.limited_createRecord hopen h)
  | updateRecord params => exact Vault.limited_updateRecord hopen h
  | renameTag oldName newName =>
      rw [hcommand] at hsafe
      exact Vault.limited_renameTag h hsafe
  | batchAddTag ids name =>
      rw [hcommand] at hsafe
      exact hvalue (Vault.limited_batchAddTag h hsafe)
  | applyDownloadedCloudRecord r =>
      rw [hcommand] at hsafe
      exact hvalue (Vault.limited_applyDownloadedCloudRecord hopen h hsafe)
  | restoreRecord id =>
      rw [hcommand] at hsafe
      exact Vault.limited_restoreRecord h hsafe
  | batchRestore ids =>
      rw [hcommand] at hsafe
      exact hvalue (Vault.limited_batchRestore h hsafe)
  | reEncryptRecord id oldDekVersion =>
      rw [hcommand] at hsafe
      exact Vault.limited_reEncryptRecord hopen h hsafe
  | emptyTrash => exact hspared fun _ => trivial
  | cleanupExpiredTrash retentionDays => exact hspared fun _ => trivial
  | softDeleteRecord id => exact hspared fun _ => trivial
  | batchSoftDelete ids => exact hspared fun _ _ => trivial
  | markRecordSynced id => exact hspared fun _ => trivial
  | markRecordConflict id conflictData => exact hspared fun _ => trivial
  | _ => exact hspared trivial

/-- A safe step keeps every live record within the limits. -/
theorem LimitsInv.step (h : LimitsInv kek t) (hstep : keyedStep kek t l t')
    (hsafe : LimitSafe kek t l) : LimitsInv kek t' :=
  hstep.2.of_ensures (limited_program hstep.1 h hsafe)

end Steps

end OakKeyring
