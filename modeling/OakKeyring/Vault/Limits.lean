import OakKeyring.Db.Inserted
import OakKeyring.Vault.Readable

/-!
# Records within the limits

The limits are checked where a record is written. The tags of a record are also changed by the
operations on tags, which check nothing, and a record comes back from the trash as it is.
-/

namespace OakKeyring

open Effect Tables Transition

/-! ## Tags within the limits -/

theorem validateTags_sublist {tags tags' : List String} (hsub : tags'.Sublist tags)
    (h : validateTags tags = .ok ()) : validateTags tags' = .ok () := by
  rcases validateTags_iff.mp h with ⟨hlength, hall⟩
  exact validateTags_iff.mpr
    ⟨hsub.length_le.trans hlength, fun tag hmem => hall tag (hsub.subset hmem)⟩

namespace Tables

variable {t t' : Tables} {id : Uuid}

/-- A link adds at most one tag. -/
theorem length_tagsOf_link (tagId : Nat) :
    ((t.link id tagId).tagsOf id).length ≤ (t.tagsOf id).length + 1 := by
  unfold link
  split
  · exact Nat.le_succ _
  · unfold tagsOf
    rw [List.filterMap_append, List.length_append]
    have hone : ([(id, tagId)].filterMap fun link =>
        if link.1 = id then t.tags.lookup link.2 else none).length ≤ 1 :=
      List.length_filterMap_le _ _
    exact Nat.add_le_add_left hone _

theorem length_tagsOf_insertRecordTags (hkeyed : t.Keyed) (hid : id ∈ t.records)
    {names : List String} (h : names.foldlM (insertRecordTag id) t = .ok t') :
    (t'.tagsOf id).length ≤ (t.tagsOf id).length + names.length := by
  induction names generalizing t with
  | nil =>
      cases h
      exact le_rfl
  | cons name names ih =>
      rw [List.foldlM_cons] at h
      rcases ok_of_bind h with ⟨u, hu, hrest⟩
      have hfirst := tagged_insertRecordTag hkeyed hid hu
      have hrest := ih hfirst.keyed (by rw [hfirst.records]; exact hid) hrest
      have hone : (u.tagsOf id).length ≤ (t.tagsOf id).length + 1 := by
        unfold insertRecordTag at hu
        split at hu
        · cases hu
          exact length_tagsOf_link _
        · split at hu
          · cases hu
            rw [← tagsOf_addTag hkeyed name id]
            exact length_tagsOf_link _
          · cases hu
      rw [List.length_cons]
      omega

/-- A record without a row has no tags. -/
theorem tagsOf_eq_nil (hkeyed : t.Keyed) (hid : id ∉ t.records) : t.tagsOf id = [] := by
  apply List.filterMap_eq_nil_iff.mpr
  intro link hmem
  have hne : link.1 ≠ id := by
    intro heq
    have howned := hkeyed.linksOwned link hmem
    rw [heq] at howned
    exact hid howned
  exact if_neg hne

theorem tagsOf_filter (keeps : Uuid × Nat → Bool) (id : Uuid) :
    (({ t with recordTags := t.recordTags.filter keeps } : Tables).tagsOf id).Sublist
      (t.tagsOf id) :=
  List.Sublist.filterMap _ List.filter_sublist

theorem tagsOf_same {u : Tables} (hlinks : u.recordTags = t.recordTags) (htags : u.tags = t.tags)
    (id : Uuid) : u.tagsOf id = t.tagsOf id := by
  unfold tagsOf
  rw [hlinks, htags]

/-- The links of a tag go with it. -/
theorem tagsOf_deleteTag (tagId : Nat) (id : Uuid) :
    ((t.deleteTag tagId).tagsOf id).Sublist (t.tagsOf id) := by
  have hsame : (t.deleteTag tagId).tagsOf id =
      ({ t with recordTags := t.recordTags.filter fun link => link.2 ≠ tagId } :
        Tables).tagsOf id := by
    unfold tagsOf deleteTag
    apply List.filterMap_congr
    intro link hmem
    have hne : link.2 ≠ tagId := by simpa using List.of_mem_filter hmem
    have hlookup : (t.tags.erase tagId).lookup link.2 = t.tags.lookup link.2 :=
      AList.lookup_erase_ne hne
    simp only
    rw [hlookup]
  rw [hsame]
  exact tagsOf_filter _ id

theorem tagsOf_batchRemoveTag (ids : List Uuid) (name : String) (id : Uuid) :
    ((t.batchRemoveTag ids name).2.tagsOf id).Sublist (t.tagsOf id) := by
  unfold batchRemoveTag
  cases t.tagByName name with
  | none => exact List.Sublist.refl _
  | some tag =>
      have hgen : ∀ (rest : List Uuid) (acc : Nat × Tables),
          ((rest.foldl
            (fun (acc : Nat × Tables) other =>
              let after :=
                { acc.2 with recordTags := acc.2.recordTags.filter fun l => l ≠ (other, tag.id) }
              let less :=
                if after.countRecordTags other < acc.2.countRecordTags other then 1 else 0
              (acc.1 + less, after)) acc).2.tagsOf id).Sublist (acc.2.tagsOf id) := by
        intro rest
        induction rest with
        | nil => exact fun _ => List.Sublist.refl _
        | cons other rest ih => exact fun acc => (ih _).trans (tagsOf_filter _ id)
      have hloop := hgen ids (0, t)
      dsimp only
      split
      · exact (tagsOf_deleteTag tag.id id).trans hloop
      · exact hloop

end Tables

/-! ## The invariant -/

section Invariant

variable [Crypto] (kek : Bytes)

/-- The payload and the tags of a record are within the limits. -/
structure Within (t : Tables) (id : Uuid) (row : RecordRow) : Prop where
  payload : ∀ payload, row.payload kek = some payload → validatePayload payload = .ok ()
  tags : validateTags (t.tagsOf id) = .ok ()

/-- A record that may come back from the trash. -/
def Restorable (t : Tables) (id : Uuid) : Prop :=
  ∀ row, t.records.lookup id = some row → Within kek t id row

/-- What holds in every state of the runs below. -/
structure LimitsInv (t : Tables) : Prop where
  keyed : t.Keyed
  own : ∀ id row, t.records.lookup id = some row → row.aad = recordAad id
  within : ∀ id row, t.records.lookup id = some row → row.deleted = false → Within kek t id row

/-- A row that keeps its payload, comes back from no trash and gets no tags. -/
structure Narrowed (t t' : Tables) (id : Uuid) (row row' : RecordRow) : Prop where
  payload : row'.payload kek = row.payload kek
  aad : row'.aad = row.aad
  live : row'.deleted = false → row.deleted = false
  tags : (t'.tagsOf id).Sublist (t.tagsOf id)

def Narrows (t t' : Tables) : Prop :=
  ∀ id row', t'.records.lookup id = some row' →
    ∃ row, t.records.lookup id = some row ∧ Narrowed kek t t' id row row'

variable {kek} {t t' u : Tables} {id : Uuid}

theorem Within.of_narrowed {row row' : RecordRow} (h : Within kek t id row)
    (hrow : Narrowed kek t t' id row row') : Within kek t' id row' where
  payload := fun payload hpayload => h.payload payload (hrow.payload.symm.trans hpayload)
  tags := validateTags_sublist hrow.tags h.tags

theorem Restorable.of_narrows (h : Restorable kek t id) (hnarrows : Narrows kek t t') :
    Restorable kek t' id := by
  intro row' hrow'
  rcases hnarrows id row' hrow' with ⟨row, hrow, hnarrowed⟩
  exact (h row hrow).of_narrowed hnarrowed

theorem LimitsInv.of_narrows (h : LimitsInv kek t) (hnarrows : Narrows kek t t')
    (hkeyed : t'.Keyed) : LimitsInv kek t' where
  keyed := hkeyed
  own := by
    intro id row' hrow'
    rcases hnarrows id row' hrow' with ⟨row, hrow, hnarrowed⟩
    exact hnarrowed.aad.trans (h.own id row hrow)
  within := by
    intro id row' hrow' hlive
    rcases hnarrows id row' hrow' with ⟨row, hrow, hnarrowed⟩
    exact (h.within id row hrow (hnarrowed.live hlive)).of_narrowed hnarrowed

theorem Narrows.refl (t : Tables) : Narrows kek t t :=
  fun _ row hrow => ⟨row, hrow, rfl, rfl, fun h => h, List.Sublist.refl _⟩

theorem Narrows.trans (h : Narrows kek t u) (h' : Narrows kek u t') : Narrows kek t t' := by
  intro id row'' hrow''
  rcases h' id row'' hrow'' with ⟨row', hrow', hlast⟩
  rcases h id row' hrow' with ⟨row, hrow, hfirst⟩
  exact ⟨row, hrow, hlast.payload.trans hfirst.payload, hlast.aad.trans hfirst.aad,
    fun hlive => hfirst.live (hlast.live hlive), hlast.tags.trans hfirst.tags⟩

theorem Narrows.foldl {α : Type} {f : Tables → α → Tables} (hf : ∀ t a, Narrows kek t (f t a))
    (as : List α) (t : Tables) : Narrows kek t (as.foldl f t) := by
  induction as generalizing t with
  | nil => exact .refl t
  | cons a as ih => exact (hf t a).trans (ih (f t a))

/-- The rows are as they were, with no more tags. -/
theorem narrows_of_tags (hrecords : t'.records = t.records)
    (htags : ∀ id, (t'.tagsOf id).Sublist (t.tagsOf id)) : Narrows kek t t' := by
  intro id row hrow
  rw [hrecords] at hrow
  exact ⟨row, hrow, rfl, rfl, fun h => h, htags id⟩

theorem narrows_of_outside {written : List Table} (h : Outside written t t')
    (hout : ∀ table ∈ [Table.records, .tags, .recordTags], table ∉ written) :
    Narrows kek t t' := by
  have hnames : t'.tags = t.tags := congrArg Prod.fst (h .tags (hout _ (by simp)))
  refine narrows_of_tags (h .records (hout _ (by simp))) fun id => ?_
  rw [tagsOf_same (h .recordTags (hout _ (by simp))) hnames id]

theorem narrows_updateRow (t : Tables) (id : Uuid) {f : RecordRow → RecordRow}
    (hf : ∀ row, (f row).payload kek = row.payload kek ∧ (f row).aad = row.aad ∧
      ((f row).deleted = false → row.deleted = false)) : Narrows kek t (t.updateRow id f) := by
  have hsame : ∀ other, (t.updateRow id f).tagsOf other = t.tagsOf other := by
    intro other
    have htags : (t.updateRow id f).tags = t.tags :=
      congrArg Prod.fst (outside_updateRow t id f .tags (by decide))
    exact tagsOf_same (outside_updateRow t id f .recordTags (by decide)) htags other
  intro other row' hrow'
  have hsub : ((t.updateRow id f).tagsOf other).Sublist (t.tagsOf other) := by rw [hsame other]
  rw [lookup_updateRow] at hrow'
  by_cases heq : other = id
  · rw [if_pos heq] at hrow'
    rcases Option.map_eq_some_iff.mp hrow' with ⟨row, hrow, hvalue⟩
    rcases hf row with ⟨hpayload, haad, hlive⟩
    rw [hvalue] at hpayload haad hlive
    exact ⟨row, hrow, hpayload, haad, hlive, hsub⟩
  · rw [if_neg heq] at hrow'
    exact ⟨row', hrow', rfl, rfl, fun h => h, hsub⟩

theorem narrows_deleteRow (t : Tables) (id : Uuid) : Narrows kek t (t.deleteRow id) := by
  intro other row' hrow'
  rw [lookup_deleteRow] at hrow'
  by_cases heq : other = id
  · rw [if_pos heq] at hrow'
    cases hrow'
  · rw [if_neg heq] at hrow'
    exact ⟨row', hrow', rfl, rfl, fun h => h, tagsOf_filter _ other⟩

end Invariant

/-! ## Statements that add nothing -/

section Statements

/-- Statements that write no payload, restore no record and give no record a tag. -/
def DbOp.Narrowing : DbOp → Prop
  | insertRecord _ => False
  | updateRecord _ _ => False
  | updateRecordDeletedState _ _ _ => False
  | restoreRecord _ => False
  | batchRestoreRecords _ => False
  | attachTag _ _ => False
  | renameTag _ _ => False
  | batchAddTag _ _ => False
  | _ => True

theorem DbOp.narrowing_books : Vault.Bookkeeping DbOp.Narrowing where
  getRecord := fun _ => trivial
  listRecords := fun _ => trivial
  insertAuditEntry := fun _ _ _ _ => trivial
  upsertSyncStatePending := fun _ _ => trivial
  getTagByName := fun _ => trivial
  recordIdsForTag := fun _ => trivial
  getOrCreateTag := fun _ => trivial
  deleteRecordHealthState := fun _ => trivial
  copyRecordHealthStateVersion := fun _ _ => trivial
  countPasswordHistory := fun _ => trivial
  oldestPasswordHistory := fun _ => trivial
  deletePasswordHistoryEntry := fun _ => trivial
  insertPasswordHistory := fun _ => trivial
  upsertRecordListIndex := fun _ _ _ => trivial
  clearRecordListIndex := trivial
  countRecordListIndex := trivial
  countAllRecords := trivial
  getMetadata := fun _ => trivial
  setMetadata := fun _ _ => trivial
  upsertRecordHealthState := fun _ => trivial

variable [Crypto] {kek : Bytes} {op : DbOp} {t t' : Tables} {result : op.Result}

theorem DbOp.Narrowing.narrows (hop : op.Narrowing) (hkeyed : t.Keyed)
    (hrun : op.run t = .ok (result, t')) : Narrows kek t t' := by
  -- the statements that write a limited field are not narrowing
  cases op with
  | insertRecord record => exact hop.elim
  | updateRecord record version => exact hop.elim
  | updateRecordDeletedState id deleted deletedAt => exact hop.elim
  | restoreRecord id => exact hop.elim
  | batchRestoreRecords ids => exact hop.elim
  | attachTag id tagId => exact hop.elim
  | renameTag oldName newName => exact hop.elim
  | batchAddTag ids name => exact hop.elim
  | updateRecordVersion id version =>
      cases hrun
      exact narrows_updateRow t id fun row => ⟨rfl, rfl, fun h => h⟩
  | setFavorite id isFavorite =>
      cases hrun
      exact narrows_updateRow t id fun row => ⟨rfl, rfl, fun h => h⟩
  | softDeleteRecord id now =>
      cases hrun
      exact narrows_updateRow t id fun row => ⟨rfl, rfl, fun h => (nomatch h)⟩
  | batchSoftDeleteRecords ids deletedBy now =>
      cases hrun
      apply Narrows.foldl
      intro t id
      exact narrows_updateRow t id fun row => ⟨rfl, rfl, fun h => (nomatch h)⟩
  | hardDeleteRecord id =>
      cases hrun
      exact narrows_deleteRow t id
  | batchHardDeleteRecords ids =>
      cases hrun
      exact .foldl narrows_deleteRow _ t
  | getOrCreateTag name =>
      have hnamed := named_getOrCreateTag hkeyed hrun
      refine narrows_of_tags hnamed.records fun id => ?_
      rw [hnamed.tagsOf id]
  | detachAllTagsForRecord id =>
      cases hrun
      exact narrows_of_tags rfl fun other => tagsOf_filter _ other
  | deleteTagByName name =>
      have hend : t.deleteTagByName name = (result, t') := Except.ok.inj hrun
      -- a deleted tag leaves fewer links
      have hafter : Narrows kek t (t.deleteTagByName name).2 := by
        unfold Tables.deleteTagByName
        split
        · exact .refl t
        · exact narrows_of_tags rfl fun id => tagsOf_deleteTag _ id
      rw [hend] at hafter
      exact hafter
  | batchRemoveTag ids name =>
      have hend : t.batchRemoveTag ids name = (result, t') := Except.ok.inj hrun
      have hout := DbOp.outside_run hrun
      -- links are dropped, and no row is touched
      have hrecords : t'.records = t.records := hout .records (by simp [DbOp.writes])
      refine narrows_of_tags hrecords fun id => ?_
      have hafter := tagsOf_batchRemoveTag (t := t) ids name id
      rw [hend] at hafter
      exact hafter
  | _ => exact narrows_of_outside (DbOp.outside_run hrun) (by simp [DbOp.writes])

theorem DbOp.Narrowing.keep (hop : op.Narrowing) (hrun : op.run t = .ok (result, t'))
    (h : LimitsInv kek t) : LimitsInv kek t' :=
  h.of_narrows (hop.narrows h.keyed hrun) (DbOp.keyed_run h.keyed hrun)

end Statements

/-! ## Statements that add something -/

namespace Tables

variable {t t' : Tables}

/-- The tags after an insertion. -/
theorem tagsOf_insertRecord (hkeyed : t.Keyed) {record : StoredRecord}
    (h : t.insertRecord record = .ok t') :
    (∀ other, other ≠ record.id → t'.tagsOf other = t.tagsOf other) ∧
      (t'.tagsOf record.id).length ≤ record.tags.length ∧
        ∀ name, name ∈ t'.tagsOf record.id → name ∈ record.tags := by
  have hnew : record.id ∉ t.records := (insertRecord_ok h).1
  have hadded := (insertRecord_added hkeyed h).2.2
  unfold insertRecord at h
  rw [if_neg hnew] at h
  have hstart : ({ t with records := t.records.insert record.id record.toRow } : Tables).Keyed :=
    ⟨fun link hmem => (AList.mem_insert _).mpr (Or.inr (hkeyed.linksOwned link hmem)),
      hkeyed.linksNumbered, hkeyed.tagsNumbered⟩
  have hown : record.id ∈ t.records.insert record.id record.toRow :=
    (AList.mem_insert _).mpr (Or.inl rfl)
  refine ⟨(tagged_insertRecordTags hstart hown h).others, ?_, fun name => (hadded name).mp⟩
  calc (t'.tagsOf record.id).length
      ≤ (t.tagsOf record.id).length + record.tags.length :=
        length_tagsOf_insertRecordTags hstart hown h
    _ = record.tags.length := by rw [tagsOf_eq_nil hkeyed hnew, List.length_nil, Nat.zero_add]

/-- The row after its own `UPDATE`. -/
theorem updated_row {record : StoredRecord} {row : RecordRow} {updated : Bool}
    (hrow : t.records.lookup record.id = some row)
    (hrun : t.updateRecord record row.version = (updated, t')) :
    t'.records.lookup record.id = some (updatedRow record row) ∧
      t'.tagsOf record.id = t.tagsOf record.id := by
  rcases updateRecord_cases t record row.version with ⟨row', -, -, hend⟩ | ⟨hversion, -⟩
  · have hlast : t' = t.updateRow record.id (updatedRow record) :=
      congrArg Prod.snd (hrun.symm.trans hend)
    have hout := outside_updateRow t record.id (updatedRow record)
    rw [hlast]
    constructor
    · rw [lookup_updateRow, if_pos rfl]
      exact congrArg (Option.map (updatedRow record)) hrow
    · exact tagsOf_same (hout .recordTags (by decide))
        (congrArg Prod.fst (hout .tags (by decide))) record.id
  · exact absurd rfl (hversion row hrow)

/-- A tag with another name. -/
theorem tagsOf_renamed (tagId : Nat) (name : String) (id : Uuid) (hmem : tagId ∈ t.tags) :
    let after : Tables := { t with tags := t.tags.insert tagId name }
    (after.tagsOf id).length = (t.tagsOf id).length ∧
      (∀ other ∈ after.tagsOf id, other = name ∨ other ∈ t.tagsOf id) ∧
        ((id, tagId) ∉ t.recordTags → after.tagsOf id = t.tagsOf id) := by
  intro after
  -- the rename changes the name of one tag
  have hlookup : ∀ other, after.tags.lookup other =
      if other = tagId then some name else t.tags.lookup other := by
    intro other
    by_cases heq : other = tagId
    · rw [if_pos heq, heq]
      exact AList.lookup_insert _
    · rw [if_neg heq]
      exact AList.lookup_insert_ne heq
  refine ⟨?_, ?_, ?_⟩
  · have hsome : ∀ link : Uuid × Nat,
        (if link.1 = id then after.tags.lookup link.2 else none).isSome =
          (if link.1 = id then t.tags.lookup link.2 else none).isSome := by
      intro link
      -- so each link keeps its tag and gets at most another name
      by_cases howner : link.1 = id
      · rw [if_pos howner, if_pos howner, hlookup]
        by_cases heq : link.2 = tagId
        · rw [if_pos heq, heq, AList.lookup_isSome.mpr hmem]
          rfl
        · rw [if_neg heq]
      · rw [if_neg howner, if_neg howner]
    unfold tagsOf
    rw [List.length_filterMap_eq_countP, List.length_filterMap_eq_countP]
    exact List.countP_congr fun link _ => by rw [hsome link]
  -- a name after the rename is the new one or was there before
  · intro other hother
    rcases List.mem_filterMap.mp hother with ⟨link, hlink, hvalue⟩
    by_cases howner : link.1 = id
    · rw [if_pos howner, hlookup] at hvalue
      by_cases heq : link.2 = tagId
      · rw [if_pos heq] at hvalue
        exact Or.inl (Option.some.inj hvalue).symm
      · rw [if_neg heq] at hvalue
        refine Or.inr (List.mem_filterMap.mpr ⟨link, hlink, ?_⟩)
        rw [if_pos howner]
        exact hvalue
    · rw [if_neg howner] at hvalue
      cases hvalue
  -- a record without the tag has the names it had
  · intro hunlinked
    apply List.filterMap_congr
    intro link hlink
    by_cases howner : link.1 = id
    · have hne : link.2 ≠ tagId := by
        intro heq
        rw [← howner, ← heq] at hunlinked
        exact hunlinked hlink
      rw [if_pos howner, if_pos howner, hlookup, if_neg hne]
    · rw [if_neg howner, if_neg howner]

end Tables

section Adding

variable [Crypto] {kek : Bytes} {t t' : Tables} {id : Uuid}

theorem LimitsInv.insertRecord (h : LimitsInv kek t) {record : StoredRecord}
    (haad : record.aad = recordAad record.id) (htags : validateTags record.tags = .ok ())
    (hpayload : record.deleted = false → ∀ payload,
      payloadUnder kek record.encryptedData record.nonce record.aad record.dekVersion =
        some payload → validatePayload payload = .ok ())
    (hrun : t.insertRecord record = .ok t') : LimitsInv kek t' := by
  have hrecords : t'.records = t.records.insert record.id record.toRow :=
    (insertRecord_ok hrun).2 .records (by decide)
  rcases tagsOf_insertRecord h.keyed hrun with ⟨hothers, hlength, hnames⟩
  -- a row is the new one or was there before
  have hrow : ∀ other row, t'.records.lookup other = some row →
      other = record.id ∧ row = record.toRow ∨ other ≠ record.id ∧
        t.records.lookup other = some row := by
    intro other row hlookup
    rw [hrecords] at hlookup
    by_cases heq : other = record.id
    · rw [heq, AList.lookup_insert] at hlookup
      exact Or.inl ⟨heq, (Option.some.inj hlookup).symm⟩
    · rw [AList.lookup_insert_ne heq] at hlookup
      exact Or.inr ⟨heq, hlookup⟩
  refine ⟨(insertRecord_added h.keyed hrun).1, ?_, ?_⟩
  · intro other row hlookup
    rcases hrow other row hlookup with ⟨heq, hnew⟩ | ⟨-, hold⟩
    · rw [heq, hnew]
      exact haad
    · exact h.own other row hold
  · intro other row hlookup hlive
    rcases hrow other row hlookup with ⟨heq, hnew⟩ | ⟨hne, hold⟩
    · rw [hnew] at hlive ⊢
      refine ⟨hpayload hlive, ?_⟩
      rcases validateTags_iff.mp htags with ⟨hmax, hall⟩
      rw [heq]
      exact validateTags_iff.mpr ⟨hlength.trans hmax, fun name hmem => hall name (hnames name hmem)⟩
    · have hwithin := h.within other row hold hlive
      refine ⟨hwithin.payload, ?_⟩
      rw [hothers other hne]
      exact hwithin.tags

/-- An `UPDATE` of one row, when what becomes of it is within the limits. -/
theorem LimitsInv.updateRow (h : LimitsInv kek t) {f : RecordRow → RecordRow}
    (hf : ∀ row, t.records.lookup id = some row → (f row).aad = recordAad id ∧
      ((f row).deleted = false → Within kek t id (f row))) : LimitsInv kek (t.updateRow id f) := by
  have hsame : ∀ other, (t.updateRow id f).tagsOf other = t.tagsOf other := by
    intro other
    have htags : (t.updateRow id f).tags = t.tags :=
      congrArg Prod.fst (outside_updateRow t id f .tags (by decide))
    exact tagsOf_same (outside_updateRow t id f .recordTags (by decide)) htags other
  have hrow : ∀ other row', (t.updateRow id f).records.lookup other = some row' →
      row'.aad = recordAad other ∧ (row'.deleted = false → Within kek t other row') := by
    intro other row' hlookup
    rw [lookup_updateRow] at hlookup
    by_cases heq : other = id
    · rw [if_pos heq, heq] at hlookup
      rcases Option.map_eq_some_iff.mp hlookup with ⟨row, hold, hvalue⟩
      rw [← hvalue, heq]
      exact hf row hold
    · rw [if_neg heq] at hlookup
      exact ⟨h.own other row' hlookup, h.within other row' hlookup⟩
  refine ⟨h.keyed.updateRow id f, fun other row' hlookup => (hrow other row' hlookup).1, ?_⟩
  intro other row' hlookup hlive
  have hwithin := (hrow other row' hlookup).2 hlive
  refine ⟨hwithin.payload, ?_⟩
  rw [hsame other]
  exact hwithin.tags

/-- The `UPDATE` of a record with a payload within the limits. -/
theorem LimitsInv.updateRecord {record : StoredRecord} {version : Nat} {updated : Bool}
    (h : LimitsInv kek t) (haad : record.aad = recordAad record.id)
    (hpayload : ∀ row, t.records.lookup record.id = some row → row.deleted = false →
      ∀ payload, payloadUnder kek record.encryptedData record.nonce record.aad record.dekVersion =
        some payload → validatePayload payload = .ok ())
    (hrun : t.updateRecord record version = (updated, t')) : LimitsInv kek t' := by
  rcases updateRecord_cases t record version with ⟨row, hrow, -, hend⟩ | ⟨-, hend⟩
  · rw [hrun] at hend
    cases hend
    refine h.updateRow fun row' hrow' => ⟨haad, fun hlive => ?_⟩
    have hwithin := h.within record.id row' hrow' hlive
    exact ⟨hpayload row' hrow' hlive, hwithin.tags⟩
  · rw [hrun] at hend
    cases hend
    exact h

/-- A record that may come back comes back. -/
theorem LimitsInv.restore (h : LimitsInv kek t) (hback : Restorable kek t id)
    {f : RecordRow → RecordRow}
    (hf : ∀ row, (f row).payload kek = row.payload kek ∧ (f row).aad = row.aad) :
    LimitsInv kek (t.updateRow id f) := by
  refine h.updateRow fun row hrow => ?_
  rcases hf row with ⟨hpayload, haad⟩
  refine ⟨haad.trans (h.own id row hrow), fun _ => ?_⟩
  have hwithin := hback row hrow
  exact ⟨fun payload hread => hwithin.payload payload (hpayload.symm.trans hread), hwithin.tags⟩

theorem Restorable.updateRow {other : Uuid} (hback : Restorable kek t other)
    {f : RecordRow → RecordRow} (hf : ∀ row, (f row).payload kek = row.payload kek) :
    Restorable kek (t.updateRow id f) other := by
  have htags : (t.updateRow id f).tagsOf other = t.tagsOf other := by
    have hnames : (t.updateRow id f).tags = t.tags :=
      congrArg Prod.fst (outside_updateRow t id f .tags (by decide))
    exact tagsOf_same (outside_updateRow t id f .recordTags (by decide)) hnames other
  intro row' hlookup
  rw [lookup_updateRow] at hlookup
  have hkept : ∃ row, t.records.lookup other = some row ∧
      row'.payload kek = row.payload kek := by
    by_cases heq : other = id
    · rw [if_pos heq] at hlookup
      rcases Option.map_eq_some_iff.mp hlookup with ⟨row, hold, hvalue⟩
      rw [← hvalue]
      exact ⟨row, hold, hf row⟩
    · rw [if_neg heq] at hlookup
      exact ⟨row', hlookup, rfl⟩
  rcases hkept with ⟨row, hold, hpayload⟩
  refine ⟨fun payload hread => (hback row hold).payload payload (hpayload.symm.trans hread), ?_⟩
  rw [htags]
  exact (hback row hold).tags

/-- A tag that a live record has already, or that it has room for. -/
def TagFits (t : Tables) (id : Uuid) (tagId : Nat) (name : String) : Prop :=
  ∀ row, t.records.lookup id = some row → row.deleted = false →
    (id, tagId) ∈ t.recordTags ∨
      validateTag name = .ok () ∧ (t.tagsOf id).length < MAX_TAGS_PER_RECORD

theorem LimitsInv.attachTag (h : LimitsInv kek t) {tagId : Nat} {name : String}
    (hname : t.tags.lookup tagId = some name) (hfits : TagFits t id tagId name)
    (hrun : t.attachTag id tagId = .ok t') : LimitsInv kek t' := by
  have hkeyed := h.keyed.attachTag hrun
  -- linking a tag twice changes nothing
  by_cases hlinked : (id, tagId) ∈ t.recordTags
  · unfold Tables.attachTag at hrun
    rw [if_pos hlinked] at hrun
    rw [← Except.ok.inj hrun]
    exact h
  · have hlink := attachTag_eq hrun
    have hrecords : t'.records = t.records := by
      rw [hlink]
      unfold Tables.link
      split <;> rfl
    refine ⟨hkeyed, ?_, ?_⟩
    · rw [hrecords]
      exact h.own
    · intro other row hrow hlive
      rw [hrecords] at hrow
      have hwithin := h.within other row hrow hlive
      refine ⟨hwithin.payload, ?_⟩
      rw [hlink]
      by_cases heq : other = id
      -- the record that is linked has the room for one more
      · rw [heq] at hrow hwithin ⊢
        rcases hfits row hrow hlive with hold | ⟨hvalid, hroom⟩
        · exact absurd hold hlinked
        · refine validateTags_iff.mpr ⟨(length_tagsOf_link tagId).trans hroom, ?_⟩
          intro tag hmem
          rcases (mem_tagsOf_link hname).mp hmem with hnew | hold
          · rw [hnew]
            exact hvalid
          · exact (validateTags_iff.mp hwithin.tags).2 tag hold
      · rw [tagsOf_link_other heq]
        exact hwithin.tags

/-- A name that may be given to a tag: it is valid, or no live record has the tag. -/
def NameFits (t : Tables) (oldName newName : String) : Prop :=
  validateTag newName = .ok () ∨ ∀ tag, t.tagByName oldName = some tag → ∀ id row,
    t.records.lookup id = some row → row.deleted = false → (id, tag.id) ∉ t.recordTags

theorem LimitsInv.renameTag (h : LimitsInv kek t) {oldName newName : String} {renamed : Bool}
    (hfits : checkName newName → NameFits t oldName newName)
    (hrun : t.renameTag oldName newName = .ok (renamed, t')) : LimitsInv kek t' := by
  have hkeyed := h.keyed.renameTag hrun
  unfold Tables.renameTag at hrun
  split at hrun
  · cases hrun
    exact h
  · rename_i tag htag
    split at hrun
    · cases hrun
    rename_i hshort
    rw [Bool.not_eq_true, Bool.not_eq_false'] at hshort
    split at hrun
    · cases hrun
    · cases hrun
      -- the tag that is renamed keeps its links
      have hmem : tag.id ∈ t.tags := AList.lookup_isSome.mp (by rw [tagByName_lookup htag]; rfl)
      refine ⟨hkeyed, h.own, ?_⟩
      intro id row hrow hlive
      have hwithin := h.within id row hrow hlive
      refine ⟨hwithin.payload, ?_⟩
      rcases tagsOf_renamed tag.id newName id hmem with ⟨hlength, hnames, hunlinked⟩
      rcases hfits hshort with hvalid | hnone
      · rcases validateTags_iff.mp hwithin.tags with ⟨hmax, hall⟩
        refine validateTags_iff.mpr ⟨hlength.le.trans hmax, ?_⟩
        -- a record with the tag has a valid name for it, old or new
        intro name hname
        rcases hnames name hname with hnew | hold
        · rw [hnew]
          exact hvalid
        · exact hall name hold
      · rw [hunlinked (hnone tag htag id row hrow hlive)]
        exact hwithin.tags

/-- What may be added to many records: every live one has it already or has room for it. -/
def BatchFits (t : Tables) (ids : List Uuid) (name : String) : Prop :=
  ∀ id ∈ ids, ∀ row, t.records.lookup id = some row → row.deleted = false →
    (∃ tag, t.tagByName name = some tag ∧ (id, tag.id) ∈ t.recordTags) ∨
      validateTag name = .ok () ∧ (t.tagsOf id).length < MAX_TAGS_PER_RECORD

theorem LimitsInv.batchAddTag (h : LimitsInv kek t) {ids : List Uuid} {name : String} {n : Nat}
    (hfits : BatchFits t ids name) (hrun : t.batchAddTag ids name = .ok (n, t')) :
    LimitsInv kek t' := by
  rcases ok_of_bind hrun with ⟨⟨tag, u⟩, htag, hloop⟩
  have hnamed := named_getOrCreateTag h.keyed htag
  have hstart : LimitsInv kek u := by
    refine h.of_narrows (narrows_of_tags hnamed.records fun id => ?_) hnamed.keyed
    rw [hnamed.tagsOf id]
  -- a tag that was there is found, and no other is made
  have hlinks : ∀ found, t.tagByName name = some found → found = tag ∧ u = t := by
    intro found hfound
    unfold getOrCreateTag at htag
    rw [hfound] at htag
    cases htag
    exact ⟨rfl, rfl⟩
  have hroom : ∀ id ∈ ids, TagFits u id tag.id name := by
    intro id hmem row hrow hlive
    rw [hnamed.records] at hrow
    rcases hfits id hmem row hrow hlive with ⟨found, hfound, hlinked⟩ | ⟨hvalid, hroom⟩
    · rcases hlinks found hfound with ⟨hsame, hu⟩
      rw [hu, ← hsame]
      exact Or.inl hlinked
    · rw [hnamed.tagsOf id]
      exact Or.inr ⟨hvalid, hroom⟩
  -- one id after the other, each with room for the tag
  have hgen : ∀ (rest : List Uuid) (acc : Nat × Tables), LimitsInv kek acc.2 →
      acc.2.tags.lookup tag.id = some name → (∀ id ∈ rest, TagFits acc.2 id tag.id name) →
      rest.foldlM
        (fun (acc : Nat × Tables) id => do
          let after ← acc.2.attachTag id tag.id
          let more := if acc.2.countRecordTags id < after.countRecordTags id then 1 else 0
          return (acc.1 + more, after)) acc = .ok (n, t') → LimitsInv kek t' := by
    intro rest
    induction rest with
    | nil =>
        intro acc hacc _ _ hend
        cases hend
        exact hacc
    | cons id rest ih =>
        intro acc hacc hname hfine hend
        rw [List.foldlM_cons] at hend
        rcases ok_of_bind hend with ⟨next, hnext, hrest⟩
        rcases ok_of_bind hnext with ⟨after, hattach, hvalue⟩
        cases hvalue
        have hlink := attachTag_eq hattach
        have hafter : after.tags = acc.2.tags ∧ after.records = acc.2.records := by
          rw [hlink]
          unfold Tables.link
          split <;> exact ⟨rfl, rfl⟩
        refine ih _ (hacc.attachTag hname (hfine id List.mem_cons_self) hattach) ?_ ?_ hrest
        · rw [hafter.1]
          exact hname
        · intro other hmem row hrow hlive
          have hrow : after.records.lookup other = some row := hrow
          rw [hafter.2] at hrow
          by_cases heq : other = id
          -- the record has just got the tag
          · refine Or.inl ?_
            rw [heq]
            dsimp only
            rw [hlink]
            unfold Tables.link
            split
            · assumption
            · simp
          · rcases hfine other (List.mem_cons_of_mem _ hmem) row hrow hlive with hold | hnew
            · refine Or.inl ?_
              dsimp only
              rw [hlink]
              unfold Tables.link
              split
              · exact hold
              · exact List.mem_append_left _ hold
            · refine Or.inr ?_
              dsimp only
              rw [hlink, tagsOf_link_other heq]
              exact hnew
  exact hgen ids (0, u) hstart hnamed.lookup hroom hloop

end Adding

end OakKeyring
