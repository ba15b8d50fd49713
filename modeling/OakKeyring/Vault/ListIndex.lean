import OakKeyring.Vault.Commands

/-!
# The record list index over runs of the vault

The index is trusted when it is marked clean and has as many rows as there are records. A missing
row shows in the count, so what matters is that no row is stale: made from another payload than
the record now keeps. The mark is one for all rows, and an operation that finishes clears it, also
when an earlier operation on another record stopped between the record and its row.
-/

namespace OakKeyring

open Effect Transition

/-- The payload that a row keeps under the key of the vault, if it can be read. -/
def RecordRow.payload [Crypto] (kek : Bytes) (row : RecordRow) : Option EncryptedPayload :=
  payloadUnder kek row.encryptedData row.nonce row.aad row.dekVersion

/-! ## Stale rows -/

section Invariant

variable [Crypto] (kek : Bytes)

/-- The index row of a record shows something else than the payload the record keeps. -/
def Stale (t : Tables) (id : Uuid) : Prop :=
  ∃ row payload shown, t.records.lookup id = some row ∧ row.payload kek = some payload ∧
    t.listIndex.lookup id = some shown ∧ (shown.name, shown.subtitle) ≠ payload.indexFields

/-- One index row for each record, and none of them stale. -/
def IndexMatches (t : Tables) : Prop :=
  ∀ id, (id ∈ t.listIndex ↔ id ∈ t.records) ∧ ¬ Stale kek t id

def markedDirty (t : Tables) : Prop :=
  t.metadata.lookup RECORD_LIST_INDEX_DIRTY_KEY = some "1"

/-- The rows of the index belong to records, and a payload has the type its record is listed
under. -/
structure WellListed (t : Tables) : Prop where
  /-- the foreign key -/
  owned : ∀ id, id ∈ t.listIndex → id ∈ t.records
  typed : ∀ id row payload, t.records.lookup id = some row → row.payload kek = some payload →
    payload.credentialType = row.credentialType

/-- What holds in every state of the runs below. -/
structure IndexInv (t : Tables) : Prop extends WellListed kek t where
  clean : ¬ markedDirty t → ∀ id, ¬ Stale kek t id

/-- No index row is stale. -/
structure IndexFresh (t : Tables) : Prop extends WellListed kek t where
  fresh : ∀ id, ¬ Stale kek t id

/-- The index row of the record, when it has one, is the one it had in `base`. -/
def SameRow (base t : Tables) (id : Uuid) : Prop :=
  ∀ entry, t.listIndex.lookup id = some entry → base.listIndex.lookup id = some entry

/-- An operation that began in `base` has neither written a payload nor a row of the index. -/
structure Untouched (base t : Tables) : Prop extends WellListed kek t where
  stale : ∀ id, Stale kek t id → Stale kek base id
  shown : ∀ id, SameRow base t id
  marked : markedDirty base → markedDirty t

/-- One record is being written: it keeps `payload`, when it has a row, and the index is as it was
in `base`. -/
structure Writing (base : Tables) (id : Uuid) (type : CredentialType)
    (payload : Option EncryptedPayload) (t : Tables) : Prop extends WellListed kek t where
  others : ∀ other, other ≠ id → Stale kek t other → Stale kek base other
  shown : ∀ other, SameRow base t other
  kept : ∀ row, t.records.lookup id = some row →
    row.payload kek = payload ∧ row.credentialType = type

/-- The record is written, and its index row with it. -/
structure Written (base : Tables) (id : Uuid) (t : Tables) : Prop extends WellListed kek t where
  stale : ∀ other, Stale kek t other → other ≠ id ∧ Stale kek base other
  shown : ∀ other, other ≠ id → SameRow base t other

/-- How the index is left by an operation that began in `base` and writes the row of `own`: it may
be stopped, with the index marked, before it has written that row. -/
structure IndexAfter (base : Tables) (own : Option Uuid) (stopped : Prop) (t : Tables) : Prop
    extends WellListed kek t where
  stale : ∀ id, Stale kek t id → Stale kek base id ∨ own = some id ∧ stopped ∧ markedDirty t
  shown : ∀ id, Stale kek t id → SameRow base t id
  clean : ¬ markedDirty t → ∀ id, Stale kek t id → markedDirty base → own ≠ some id

/-- Two states with the same payloads and marks, where index rows may go with their records. -/
structure SamePayloads (t t' : Tables) : Prop where
  rows : ∀ id row', t'.records.lookup id = some row' → ∃ row, t.records.lookup id = some row ∧
    row'.payload kek = row.payload kek ∧ row'.credentialType = row.credentialType
  shown : ∀ id entry, t'.listIndex.lookup id = some entry → t.listIndex.lookup id = some entry ∧
    (id ∈ t.records → id ∈ t'.records)
  metadata : t'.metadata = t.metadata

end Invariant

section Same

variable [Crypto] {kek : Bytes} {t t' u : Tables}

theorem SamePayloads.refl (t : Tables) : SamePayloads kek t t where
  rows := fun _ row hrow => ⟨row, hrow, rfl, rfl⟩
  shown := fun _ _ hshown => ⟨hshown, fun hmem => hmem⟩
  metadata := rfl

theorem SamePayloads.trans (h : SamePayloads kek t u) (h' : SamePayloads kek u t') :
    SamePayloads kek t t' where
  rows := by
    intro id row'' hrow''
    rcases h'.rows id row'' hrow'' with ⟨row', hrow', hpayload', htype'⟩
    rcases h.rows id row' hrow' with ⟨row, hrow, hpayload, htype⟩
    exact ⟨row, hrow, hpayload'.trans hpayload, htype'.trans htype⟩
  shown := by
    intro id entry hentry
    have hlast := h'.shown id entry hentry
    have hfirst := h.shown id entry hlast.1
    exact ⟨hfirst.1, fun hmem => hlast.2 (hfirst.2 hmem)⟩
  metadata := h'.metadata.trans h.metadata

theorem SamePayloads.foldl {α : Type} {f : Tables → α → Tables}
    (hf : ∀ t a, SamePayloads kek t (f t a)) (as : List α) (t : Tables) :
    SamePayloads kek t (as.foldl f t) := by
  induction as generalizing t with
  | nil => exact .refl t
  | cons a as ih => exact (hf t a).trans (ih (f t a))

/-- Operations on other tables. -/
theorem SamePayloads.of_outside {written : List Table} (h : Tables.Outside written t t')
    (hrecords : Table.records ∉ written) (hindex : Table.listIndex ∉ written)
    (hmetadata : Table.metadata ∉ written) : SamePayloads kek t t' where
  rows := by
    intro id row' hrow'
    have hsame : t'.records = t.records := h .records hrecords
    rw [hsame] at hrow'
    exact ⟨row', hrow', rfl, rfl⟩
  shown := by
    intro id entry hentry
    have hindexSame : t'.listIndex = t.listIndex := h .listIndex hindex
    have hsame : t'.records = t.records := h .records hrecords
    rw [hindexSame] at hentry
    rw [hsame]
    exact ⟨hentry, fun hmem => hmem⟩
  metadata := h .metadata hmetadata

/-- An `UPDATE` that leaves the payload of the row and its type. -/
theorem SamePayloads.updateRow (t : Tables) (id : Uuid) {f : RecordRow → RecordRow}
    (hf : ∀ row, t.records.lookup id = some row →
      (f row).payload kek = row.payload kek ∧ (f row).credentialType = row.credentialType) :
    SamePayloads kek t (t.updateRow id f) where
  rows := by
    intro other row' hrow'
    rw [Tables.lookup_updateRow] at hrow'
    by_cases heq : other = id
    · rw [if_pos heq, heq] at hrow'
      cases hrow : t.records.lookup id with
      | none =>
          rw [hrow] at hrow'
          cases hrow'
      | some row =>
          rw [hrow] at hrow'
          cases hrow'
          rw [heq]
          exact ⟨row, hrow, hf row hrow⟩
    · rw [if_neg heq] at hrow'
      exact ⟨row', hrow', rfl, rfl⟩
  shown := by
    intro other entry hentry
    have hindex : (t.updateRow id f).listIndex = t.listIndex :=
      Tables.outside_updateRow t id f .listIndex (by decide)
    rw [hindex] at hentry
    exact ⟨hentry, (Tables.mem_updateRow t id other f).mpr⟩
  metadata := Tables.outside_updateRow t id f .metadata (by decide)

/-- A deletion takes the index row with the record. -/
theorem SamePayloads.deleteRow (t : Tables) (id : Uuid) :
    SamePayloads kek t (t.deleteRow id) where
  rows := by
    intro other row' hrow'
    rw [Tables.lookup_deleteRow] at hrow'
    by_cases heq : other = id
    · rw [if_pos heq] at hrow'
      cases hrow'
    · rw [if_neg heq] at hrow'
      exact ⟨row', hrow', rfl, rfl⟩
  shown := by
    intro other entry hentry
    have hne : other ≠ id := by
      intro heq
      rw [heq] at hentry
      have hgone : (t.listIndex.erase id).lookup id = none := AList.lookup_erase id _
      exact absurd (hgone.symm.trans hentry) (by simp)
    have hsame : (t.listIndex.erase id).lookup other = t.listIndex.lookup other :=
      AList.lookup_erase_ne hne
    exact ⟨hsame.symm.trans hentry, fun hmem => AList.mem_erase.mpr ⟨hne, hmem⟩⟩
  metadata := rfl

theorem Stale.of_same {id : Uuid} (h : SamePayloads kek t t') (hstale : Stale kek t' id) :
    Stale kek t id := by
  rcases hstale with ⟨row', payload, entry, hrow', hpayload, hentry, hne⟩
  rcases h.rows id row' hrow' with ⟨row, hrow, hsame, htype⟩
  exact ⟨row, payload, entry, hrow, hsame.symm.trans hpayload, (h.shown id entry hentry).1, hne⟩

theorem SamePayloads.marked_iff (h : SamePayloads kek t t') : markedDirty t' ↔ markedDirty t := by
  unfold markedDirty
  rw [h.metadata]

theorem SamePayloads.sameRow (h : SamePayloads kek t t') (id : Uuid) : SameRow t t' id :=
  fun entry hentry => (h.shown id entry hentry).1

omit [Crypto] in
theorem SameRow.trans {id : Uuid} (h : SameRow t u id) (h' : SameRow u t' id) :
    SameRow t t' id :=
  fun entry hentry => h entry (h' entry hentry)

theorem WellListed.of_same (hwell : WellListed kek t) (h : SamePayloads kek t t') :
    WellListed kek t' where
  owned := by
    intro id hmem
    rw [← AList.lookup_isSome, Option.isSome_iff_exists] at hmem
    rcases hmem with ⟨entry, hentry⟩
    have hshown := h.shown id entry hentry
    have hindexed : id ∈ t.listIndex := by
      rw [← AList.lookup_isSome, hshown.1]
      rfl
    exact hshown.2 (hwell.owned id hindexed)
  typed := by
    intro id row' payload hrow' hpayload
    rcases h.rows id row' hrow' with ⟨row, hrow, hsame, htype⟩
    rw [htype]
    exact hwell.typed id row payload hrow (hsame.symm.trans hpayload)

/-- The marks are not part of the payloads. -/
theorem WellListed.set_metadata (hwell : WellListed kek t)
    (metadata : AList fun _ : String => String) : WellListed kek { t with metadata := metadata } where
  owned := hwell.owned
  typed := hwell.typed

variable {base : Tables}

theorem WellListed.untouched (h : WellListed kek t) : Untouched kek t t where
  toWellListed := h
  stale := fun _ hstale => hstale
  shown := fun _ _ hentry => hentry
  marked := fun hmarked => hmarked

theorem Untouched.of_same (huntouched : Untouched kek base t) (h : SamePayloads kek t t') :
    Untouched kek base t' where
  toWellListed := huntouched.toWellListed.of_same h
  stale := fun id hstale => huntouched.stale id (hstale.of_same h)
  shown := fun id => (huntouched.shown id).trans (h.sameRow id)
  marked := fun hmarked => h.marked_iff.mpr (huntouched.marked hmarked)

theorem Writing.of_same {id : Uuid} {type : CredentialType} {payload : Option EncryptedPayload}
    (hwriting : Writing kek base id type payload t) (h : SamePayloads kek t t') :
    Writing kek base id type payload t' where
  toWellListed := hwriting.toWellListed.of_same h
  others := fun other hne hstale => hwriting.others other hne (hstale.of_same h)
  shown := fun other => (hwriting.shown other).trans (h.sameRow other)
  kept := by
    intro row' hrow'
    rcases h.rows id row' hrow' with ⟨row, hrow, hsame, htype⟩
    have hkept := hwriting.kept row hrow
    exact ⟨hsame.trans hkept.1, htype.trans hkept.2⟩

theorem Written.of_same {id : Uuid} (hwritten : Written kek base id t)
    (h : SamePayloads kek t t') : Written kek base id t' where
  toWellListed := hwritten.toWellListed.of_same h
  stale := fun other hstale => hwritten.stale other (hstale.of_same h)
  shown := fun other hne => (hwritten.shown other hne).trans (h.sameRow other)

/-! ## How an operation ends -/

section Ends

variable {own : Option Uuid} {stopped : Prop}

theorem IndexAfter.mono {stopped' : Prop} (h : IndexAfter kek base own stopped t)
    (hstopped : stopped → stopped') : IndexAfter kek base own stopped' t where
  toWellListed := h.toWellListed
  stale := fun id hstale => (h.stale id hstale).imp_right fun hown =>
    ⟨hown.1, hstopped hown.2.1, hown.2.2⟩
  shown := h.shown
  clean := h.clean

theorem Untouched.after (h : Untouched kek base t) : IndexAfter kek base own stopped t where
  toWellListed := h.toWellListed
  stale := fun id hstale => Or.inl (h.stale id hstale)
  shown := fun id _ => h.shown id
  clean := fun hclean _ _ hmarked => absurd (h.marked hmarked) hclean

theorem IndexFresh.after (h : IndexFresh kek t) : IndexAfter kek base own stopped t where
  toWellListed := h.toWellListed
  stale := fun id hstale => absurd hstale (h.fresh id)
  shown := fun id hstale => absurd hstale (h.fresh id)
  clean := fun _ id hstale => absurd hstale (h.fresh id)

theorem Written.after {id : Uuid} (h : Written kek base id t)
    (hown : ∀ other, own = some other → other = id) : IndexAfter kek base own stopped t where
  toWellListed := h.toWellListed
  stale := fun other hstale => Or.inl (h.stale other hstale).2
  shown := fun other hstale => h.shown other (h.stale other hstale).1
  clean := fun _ other hstale _ heq => (h.stale other hstale).1 (hown other heq)

/-- An operation that is stopped before it has written the index row of its record. -/
theorem Writing.after {id : Uuid} {type : CredentialType} {payload : Option EncryptedPayload}
    (h : Writing kek base id type payload t) (hmarked : markedDirty t)
    (hown : own = some id ∨ t.listIndex.lookup id = none) :
    IndexAfter kek base own True t where
  toWellListed := h.toWellListed
  stale := by
    intro other hstale
    by_cases heq : other = id
    · rcases hown with hown | hnone
      · rw [heq]
        exact Or.inr ⟨hown, trivial, hmarked⟩
      -- a record without an index row is not stale
      · rcases hstale with ⟨row, p, entry, -, -, hentry, -⟩
        rw [heq, hnone] at hentry
        cases hentry
    · exact Or.inl (h.others other heq hstale)
  shown := fun other _ => h.shown other
  clean := fun hclean => absurd hmarked hclean

end Ends

/-! ## Writing a record and its index row -/

theorem IndexFresh.set_metadata (hfresh : IndexFresh kek t)
    (metadata : AList fun _ : String => String) : IndexFresh kek { t with metadata := metadata } where
  toWellListed := hfresh.toWellListed.set_metadata metadata
  fresh := hfresh.fresh

theorem Writing.set_metadata {id : Uuid} {type : CredentialType}
    {payload : Option EncryptedPayload} (hwriting : Writing kek base id type payload t)
    (metadata : AList fun _ : String => String) :
    Writing kek base id type payload { t with metadata := metadata } where
  toWellListed := hwriting.toWellListed.set_metadata metadata
  others := hwriting.others
  shown := hwriting.shown
  kept := hwriting.kept

theorem Written.set_metadata {id : Uuid} (hwritten : Written kek base id t)
    (metadata : AList fun _ : String => String) :
    Written kek base id { t with metadata := metadata } where
  toWellListed := hwritten.toWellListed.set_metadata metadata
  stale := hwritten.stale
  shown := hwritten.shown

/-- Before a record is written it keeps what it keeps. -/
theorem Untouched.writing {id : Uuid} {type : CredentialType} (h : Untouched kek base t)
    (htype : ∀ row, t.records.lookup id = some row → row.credentialType = type) :
    Writing kek base id type ((t.records.lookup id).bind (RecordRow.payload kek)) t where
  toWellListed := h.toWellListed
  others := fun other _ hstale => h.stale other hstale
  shown := h.shown
  kept := by
    intro row hrow
    rw [hrow]
    exact ⟨rfl, htype row hrow⟩

/-- An `UPDATE` with a new payload of the same type. -/
theorem Writing.update {id : Uuid} {type : CredentialType}
    {payload payload' : Option EncryptedPayload} (hwriting : Writing kek base id type payload t)
    {f : RecordRow → RecordRow}
    (hf : ∀ row, (f row).payload kek = payload' ∧ (f row).credentialType = row.credentialType)
    (htype : ∀ p, payload' = some p → p.credentialType = type) :
    Writing kek base id type payload' (t.updateRow id f) where
  owned := by
    intro other hmem
    have hindex : (t.updateRow id f).listIndex = t.listIndex :=
      Tables.outside_updateRow t id f .listIndex (by decide)
    rw [hindex] at hmem
    exact (Tables.mem_updateRow t id other f).mpr (hwriting.owned other hmem)
  typed := by
    intro other row' p hrow' hpayload
    rw [Tables.lookup_updateRow] at hrow'
    -- the row that is written, and the others
    by_cases heq : other = id
    · rw [if_pos heq, heq] at hrow'
      rcases Option.map_eq_some_iff.mp hrow' with ⟨row, hrow, hvalue⟩
      rw [← hvalue] at hpayload ⊢
      rw [(hf row).2, (hwriting.kept row hrow).2]
      exact htype p ((hf row).1.symm.trans hpayload)
    · rw [if_neg heq] at hrow'
      exact hwriting.typed other row' p hrow' hpayload
  others := by
    intro other hne hstale
    rcases hstale with ⟨row, p, entry, hrow, hpayload, hentry, hwrong⟩
    rw [Tables.lookup_updateRow, if_neg hne] at hrow
    -- an update of a row leaves the index alone
    have hindex : (t.updateRow id f).listIndex = t.listIndex :=
      Tables.outside_updateRow t id f .listIndex (by decide)
    rw [hindex] at hentry
    exact hwriting.others other hne ⟨row, p, entry, hrow, hpayload, hentry, hwrong⟩
  shown := by
    intro other entry hentry
    have hindex : (t.updateRow id f).listIndex = t.listIndex :=
      Tables.outside_updateRow t id f .listIndex (by decide)
    rw [hindex] at hentry
    exact hwriting.shown other entry hentry
  kept := by
    intro row' hrow'
    rw [Tables.lookup_updateRow, if_pos rfl] at hrow'
    rcases Option.map_eq_some_iff.mp hrow' with ⟨row, hrow, hvalue⟩
    rw [← hvalue]
    exact ⟨(hf row).1, (hf row).2.trans (hwriting.kept row hrow).2⟩

/-- A new row. -/
theorem Untouched.insert {id : Uuid} {row : RecordRow} {type : CredentialType}
    {payload : Option EncryptedPayload} (h : Untouched kek base t)
    (hpayload : row.payload kek = payload) (htype : row.credentialType = type)
    (hfits : ∀ p, payload = some p → p.credentialType = type) :
    Writing kek base id type payload { t with records := t.records.insert id row } where
  owned := fun other hmem => (AList.mem_insert _).mpr (Or.inr (h.owned other hmem))
  typed := by
    intro other row' p hrow' hp
    have hlookup : (t.records.insert id row).lookup other = some row' := hrow'
    by_cases heq : other = id
    · rw [heq, AList.lookup_insert] at hlookup
      cases hlookup
      rw [htype]
      exact hfits p (hpayload.symm.trans hp)
    · rw [AList.lookup_insert_ne heq] at hlookup
      exact h.typed other row' p hlookup hp
  others := by
    intro other hne hstale
    rcases hstale with ⟨row', p, entry, hrow', hp, hentry, hwrong⟩
    have hlookup : (t.records.insert id row).lookup other = some row' := hrow'
    rw [AList.lookup_insert_ne hne] at hlookup
    exact h.stale other ⟨row', p, entry, hlookup, hp, hentry, hwrong⟩
  shown := h.shown
  kept := by
    intro row' hrow'
    have hlookup : (t.records.insert id row).lookup id = some row' := hrow'
    rw [AList.lookup_insert] at hlookup
    cases hlookup
    exact ⟨hpayload, htype⟩

/-- A new record with its tags; it has no index row yet. -/
theorem Untouched.insertRecord {record : StoredRecord} {payload : Option EncryptedPayload}
    (h : Untouched kek base t) (hrun : t.insertRecord record = .ok t')
    (hpayload : payloadUnder kek record.encryptedData record.nonce record.aad record.dekVersion =
      payload)
    (hfits : ∀ p, payload = some p → p.credentialType = record.credentialType) :
    Writing kek base record.id record.credentialType payload t' ∧
      t'.listIndex.lookup record.id = none := by
  rcases Tables.insertRecord_ok hrun with ⟨hnew, hrest⟩
  have hinserted : Writing kek base record.id record.credentialType payload
      { t with records := t.records.insert record.id record.toRow } :=
    h.insert hpayload rfl hfits
  refine ⟨hinserted.of_same (.of_outside hrest (by decide) (by decide) (by decide)), ?_⟩
  have hindex : t'.listIndex = t.listIndex := hrest .listIndex (by decide)
  rw [hindex]
  exact AList.lookup_eq_none.mpr fun hmem => hnew (h.owned record.id hmem)

/-- The index row of the record that was written. -/
theorem Writing.indexed {id : Uuid} {type : CredentialType} {payload : Option EncryptedPayload}
    (hwriting : Writing kek base id type payload t) {entry : IndexRow} (hmem : id ∈ t.records)
    (hentry : ∀ p, payload = some p → (entry.name, entry.subtitle) = p.indexFields) :
    Written kek base id { t with listIndex := t.listIndex.insert id entry } where
  owned := by
    intro other hother
    rcases (AList.mem_insert _).mp hother with heq | hbefore
    · rw [heq]
      exact hmem
    · exact hwriting.owned other hbefore
  typed := hwriting.typed
  stale := by
    rintro other ⟨row, p, shown, hrow, hpayload, hshown, hwrong⟩
    have hlookup : (t.listIndex.insert id entry).lookup other = some shown := hshown
    by_cases heq : other = id
    · rw [heq, AList.lookup_insert] at hlookup
      cases hlookup
      rw [heq] at hrow
      have hkept := (hwriting.kept row hrow).1
      exact absurd (hentry p (hkept.symm.trans hpayload)) hwrong
    · rw [AList.lookup_insert_ne heq] at hlookup
      exact ⟨heq, hwriting.others other heq ⟨row, p, shown, hrow, hpayload, hlookup, hwrong⟩⟩
  shown := by
    intro other hne shown hshown
    have hlookup : (t.listIndex.insert id entry).lookup other = some shown := hshown
    rw [AList.lookup_insert_ne hne] at hlookup
    exact hwriting.shown other shown hlookup

end Same

/-! ## Queries that leave the payloads alone -/

/-- The queries that neither write payloads nor the index nor the marks. -/
def DbOp.SparesIndex : DbOp → Prop
  | insertRecord _ => False
  | updateRecord _ _ => False
  | upsertRecordListIndex _ _ _ => False
  | clearRecordListIndex => False
  | setMetadata _ _ => False
  | deleteMetadata _ => False
  | _ => True

theorem DbOp.SparesIndex.same [Crypto] {kek : Bytes} {op : DbOp} {t t' : Tables}
    {result : op.Result} (hop : op.SparesIndex) (h : op.run t = .ok (result, t')) :
    SamePayloads kek t t' := by
  -- the statements that write payloads, the index or its flags are excluded
  cases op with
  | insertRecord record => exact hop.elim
  | updateRecord record expectedVersion => exact hop.elim
  | upsertRecordListIndex id name subtitle => exact hop.elim
  | clearRecordListIndex => exact hop.elim
  | setMetadata key value => exact hop.elim
  | deleteMetadata key => exact hop.elim
  | updateRecordVersion id version =>
      cases h
      exact .updateRow t id fun row hrow => ⟨rfl, rfl⟩
  | updateRecordDeletedState id deleted deletedAt =>
      cases h
      exact .updateRow t id fun row hrow => ⟨rfl, rfl⟩
  | setFavorite id isFavorite =>
      cases h
      exact .updateRow t id fun row hrow => ⟨rfl, rfl⟩
  | softDeleteRecord id now =>
      cases h
      exact .updateRow t id fun row hrow => ⟨rfl, rfl⟩
  | restoreRecord id =>
      cases h
      exact .updateRow t id fun row hrow => ⟨rfl, rfl⟩
  | batchSoftDeleteRecords ids deletedBy now =>
      cases h
      apply SamePayloads.foldl
      intro t id
      exact .updateRow t id fun row hrow => ⟨rfl, rfl⟩
  | batchRestoreRecords ids =>
      cases h
      apply SamePayloads.foldl
      intro t id
      exact .updateRow t id fun row hrow => ⟨rfl, rfl⟩
  | hardDeleteRecord id =>
      cases h
      exact .deleteRow t id
  | batchHardDeleteRecords ids =>
      cases h
      exact .foldl .deleteRow _ t
  | _ =>
      exact .of_outside (DbOp.outside_run h) (by simp [DbOp.writes]) (by simp [DbOp.writes])
        (by simp [DbOp.writes])

/-- The routine queries leave the payloads alone. -/
theorem DbOp.sparesIndex_routine : Vault.Routine DbOp.SparesIndex where
  getRecord := fun _ => trivial
  listRecords := fun _ => trivial
  insertAuditEntry := fun _ _ _ _ => trivial
  upsertSyncStatePending := fun _ _ => trivial
  getTagByName := fun _ => trivial
  recordIdsForTag := fun _ => trivial
  getOrCreateTag := fun _ => trivial
  deleteRecordHealthState := fun _ => trivial
  copyRecordHealthStateVersion := fun _ _ => trivial
  countPasswordHistory := fun _ => trivial
  oldestPasswordHistory := fun _ => trivial
  deletePasswordHistoryEntry := fun _ => trivial
  insertPasswordHistory := fun _ => trivial

end OakKeyring
