import Mathlib.Data.Finset.Dedup
import OakKeyring.Db.Frames

/-!
# What an insertion adds

A new record is the only one that an insertion adds, with the tags it is given; the others keep
their rows and their tags.
-/

namespace OakKeyring

namespace Tables

/-- The foreign key of the links, and tag numbers that are not given twice. -/
structure Keyed (t : Tables) : Prop where
  linksOwned : ∀ link ∈ t.recordTags, link.1 ∈ t.records
  linksNumbered : ∀ link ∈ t.recordTags, link.2 ≤ t.lastTagId
  tagsNumbered : ∀ tagId, tagId ∈ t.tags → tagId ≤ t.lastTagId

/-- Two states with the same rows, links and tags. -/
def SameRecords (t t' : Tables) : Prop :=
  Outside [.passwordHistory, .syncState, .metadata, .healthState, .listIndex] t t'

variable {t t' u : Tables} {id : Uuid}

theorem keyed_fresh (seed : VaultSeed) : (Tables.fresh seed).Keyed where
  linksOwned := fun _ hmem => nomatch hmem
  linksNumbered := fun _ hmem => nomatch hmem
  tagsNumbered := fun tagId hmem => absurd hmem (AList.notMem_empty tagId)

theorem SameRecords.records (h : SameRecords t t') : t'.records = t.records :=
  h .records (by decide)

theorem SameRecords.links (h : SameRecords t t') : t'.recordTags = t.recordTags :=
  h .recordTags (by decide)

theorem SameRecords.tags (h : SameRecords t t') :
    (t'.tags, t'.lastTagId) = (t.tags, t.lastTagId) :=
  h .tags (by decide)

/-- The links, the tags and the records they belong to are as they were. -/
theorem Keyed.of_rows (hkeyed : t.Keyed) (hlinks : t'.recordTags = t.recordTags)
    (htags : (t'.tags, t'.lastTagId) = (t.tags, t.lastTagId))
    (hrecords : ∀ id, id ∈ t.records → id ∈ t'.records) : t'.Keyed := by
  have hnames : t'.tags = t.tags := congrArg Prod.fst htags
  have hlast : t'.lastTagId = t.lastTagId := congrArg Prod.snd htags
  constructor
  · intro link hmem
    rw [hlinks] at hmem
    exact hrecords _ (hkeyed.linksOwned link hmem)
  · rw [hlinks, hlast]
    exact hkeyed.linksNumbered
  · rw [hnames, hlast]
    exact hkeyed.tagsNumbered

theorem SameRecords.keyed (h : SameRecords t t') (hkeyed : t.Keyed) : t'.Keyed :=
  hkeyed.of_rows h.links h.tags fun _ hmem => h.records ▸ hmem

theorem SameRecords.tagsOf (h : SameRecords t t') (id : Uuid) : t'.tagsOf id = t.tagsOf id := by
  have htags : t'.tags = t.tags := congrArg Prod.fst h.tags
  unfold Tables.tagsOf
  rw [h.links, htags]

theorem SameRecords.storedRecords (h : SameRecords t t') : t'.storedRecords = t.storedRecords := by
  unfold Tables.storedRecords
  rw [h.records]
  apply List.map_congr_left
  intro e _
  rw [h.tagsOf]

/-! ## Tags -/

theorem tagsOf_link_other {other : Uuid} (hne : other ≠ id) (tagId : Nat) :
    (t.link id tagId).tagsOf other = t.tagsOf other := by
  unfold link
  split
  · rfl
  · have hnone : (if id = other then t.tags.lookup tagId else none) = none := if_neg hne.symm
    simp [tagsOf, List.filterMap_append, hnone]

theorem mem_tagsOf_link {tagId : Nat} {name other : String}
    (hname : t.tags.lookup tagId = some name) :
    other ∈ (t.link id tagId).tagsOf id ↔ other = name ∨ other ∈ t.tagsOf id := by
  unfold link
  split
  · rename_i hmem
    constructor
    · exact Or.inr
    · intro h
      rcases h with heq | hold
      · rw [heq]
        exact List.mem_filterMap.mpr ⟨(id, tagId), hmem, by simpa using hname⟩
      · exact hold
  · have hsome : (if id = id then t.tags.lookup tagId else none) = some name := by
      rw [if_pos rfl]
      exact hname
    simp only [tagsOf, List.filterMap_append, List.mem_append]
    have hlast : other ∈ ([(id, tagId)].filterMap fun link =>
        if link.1 = id then t.tags.lookup link.2 else none) ↔ other = name := by
      simp [hname]
    rw [hlast, or_comm]

theorem keyed_link (hkeyed : t.Keyed) {tagId : Nat} (hid : id ∈ t.records)
    (htag : tagId ≤ t.lastTagId) : (t.link id tagId).Keyed := by
  unfold link
  split
  · exact hkeyed
  · have hall : ∀ {P : Uuid × Nat → Prop}, (∀ link ∈ t.recordTags, P link) → P (id, tagId) →
        ∀ link ∈ t.recordTags ++ [(id, tagId)], P link := by
      intro P hold hnew link hmem
      rcases List.mem_append.mp hmem with hmem | hmem
      · exact hold link hmem
      · rw [List.mem_singleton.mp hmem]
        exact hnew
    exact ⟨hall hkeyed.linksOwned hid, hall hkeyed.linksNumbered htag, hkeyed.tagsNumbered⟩

theorem keyed_addTag (hkeyed : t.Keyed) (name : String) : (t.addTag name).Keyed where
  linksOwned := hkeyed.linksOwned
  linksNumbered := fun link hmem => Nat.le_succ_of_le (hkeyed.linksNumbered link hmem)
  tagsNumbered := by
    intro tagId hmem
    rcases (AList.mem_insert _).mp hmem with hnew | hold
    · exact Nat.le_of_eq hnew
    · exact Nat.le_succ_of_le (hkeyed.tagsNumbered tagId hold)

/-- A tag without links is nobody's. -/
theorem tagsOf_addTag (hkeyed : t.Keyed) (name : String) (id : Uuid) :
    (t.addTag name).tagsOf id = t.tagsOf id := by
  unfold tagsOf
  apply List.filterMap_congr
  intro link hmem
  have hne : link.2 ≠ t.lastTagId + 1 := by
    have hle := hkeyed.linksNumbered link hmem
    omega
  have hlookup : (t.addTag name).tags.lookup link.2 = t.tags.lookup link.2 :=
    AList.lookup_insert_ne hne
  rw [hlookup]

/-- One tag of a record is added, and no other record is concerned. -/
structure Tagged (id : Uuid) (names : List String) (t t' : Tables) : Prop where
  keyed : t'.Keyed
  records : t'.records = t.records
  own : ∀ name, name ∈ t'.tagsOf id ↔ name ∈ names ∨ name ∈ t.tagsOf id
  others : ∀ other, other ≠ id → t'.tagsOf other = t.tagsOf other

theorem tagByName_lookup {name : String} {tag : Tag} (h : t.tagByName name = some tag) :
    t.tags.lookup tag.id = some name := by
  unfold tagByName at h
  rcases Option.map_eq_some_iff.mp h with ⟨e, he, hvalue⟩
  have hmem : e ∈ t.tags.entries := List.mem_of_find?_eq_some he
  have hname : e.2 = name := by simpa using List.find?_some he
  rw [← hvalue, ← hname]
  exact AList.mem_lookup_iff.mpr hmem

theorem tagged_insertRecordTag (hkeyed : t.Keyed) (hid : id ∈ t.records) {name : String}
    (h : insertRecordTag id t name = .ok t') : Tagged id [name] t t' := by
  unfold insertRecordTag at h
  split at h
  · rename_i tag htag
    cases h
    have hlookup := tagByName_lookup htag
    have hnumber : tag.id ≤ t.lastTagId :=
      hkeyed.tagsNumbered tag.id (AList.lookup_isSome.mp (by rw [hlookup]; rfl))
    refine ⟨keyed_link hkeyed hid hnumber, ?_, ?_, ?_⟩
    · unfold link
      split <;> rfl
    · intro other
      rw [mem_tagsOf_link hlookup, List.mem_singleton]
    · intro other hne
      exact tagsOf_link_other hne _
  · split at h
    · cases h
      have hadded := keyed_addTag hkeyed name
      have hlookup : (t.addTag name).tags.lookup (t.lastTagId + 1) = some name :=
        AList.lookup_insert _
      refine ⟨keyed_link hadded hid le_rfl, ?_, ?_, ?_⟩
      · unfold link
        split <;> rfl
      · intro other
        rw [mem_tagsOf_link hlookup, List.mem_singleton, tagsOf_addTag hkeyed]
      · intro other hne
        rw [tagsOf_link_other hne, tagsOf_addTag hkeyed]
    · cases h

theorem tagged_insertRecordTags (hkeyed : t.Keyed) (hid : id ∈ t.records) {names : List String}
    (h : names.foldlM (insertRecordTag id) t = .ok t') : Tagged id names t t' := by
  induction names generalizing t with
  | nil =>
      cases h
      exact ⟨hkeyed, rfl, fun _ => by simp, fun _ _ => rfl⟩
  | cons name names ih =>
      rw [List.foldlM_cons] at h
      rcases ok_of_bind h with ⟨u, hu, hrest⟩
      have hfirst := tagged_insertRecordTag hkeyed hid hu
      have hrest := ih hfirst.keyed (by rw [hfirst.records]; exact hid) hrest
      refine ⟨hrest.keyed, hrest.records.trans hfirst.records, ?_, ?_⟩
      · intro other
        rw [hrest.own, hfirst.own, List.mem_singleton, List.mem_cons]
        tauto
      · intro other hne
        rw [hrest.others other hne, hfirst.others other hne]

/-! ### One by one -/

/-- A tag with a name, and no other change to the tags of records. -/
structure Named (name : String) (tag : Tag) (t t' : Tables) : Prop where
  keyed : t'.Keyed
  records : t'.records = t.records
  lookup : t'.tags.lookup tag.id = some name
  tagsOf : ∀ id, t'.tagsOf id = t.tagsOf id

theorem named_getOrCreateTag (hkeyed : t.Keyed) {name : String} {tag : Tag}
    (h : t.getOrCreateTag name = .ok (tag, t')) : Named name tag t t' := by
  unfold getOrCreateTag at h
  split at h
  · rename_i found hfound
    cases h
    exact ⟨hkeyed, rfl, tagByName_lookup hfound, fun _ => rfl⟩
  · split at h
    · cases h
      exact ⟨keyed_addTag hkeyed name, rfl, AList.lookup_insert _, tagsOf_addTag hkeyed name⟩
    · cases h

/-- Attaching a tag is linking it, when it is there at all. -/
theorem attachTag_eq {tagId : Nat} (h : t.attachTag id tagId = .ok t') : t' = t.link id tagId := by
  unfold attachTag at h
  split at h
  · rename_i hmem
    cases h
    exact (if_pos hmem).symm
  · split at h
    · cases h
      rfl
    · cases h

theorem tagged_attachTag (hkeyed : t.Keyed) (hid : id ∈ t.records) {tagId : Nat} {name : String}
    (hname : t.tags.lookup tagId = some name) (h : t.attachTag id tagId = .ok t') :
    Tagged id [name] t t' := by
  rw [attachTag_eq h]
  have hnumber : tagId ≤ t.lastTagId :=
    hkeyed.tagsNumbered tagId (AList.lookup_isSome.mp (by rw [hname]; rfl))
  refine ⟨keyed_link hkeyed hid hnumber, ?_, ?_, ?_⟩
  · unfold link
    split <;> rfl
  · intro other
    rw [mem_tagsOf_link hname, List.mem_singleton]
  · intro other hne
    exact tagsOf_link_other hne _

/-- A record without its tags. -/
theorem detached (hkeyed : t.Keyed)
    (hrun : DbOp.run (.detachAllTagsForRecord id) t = .ok ((), u)) :
    u.Keyed ∧ u.records = t.records ∧ u.tagsOf id = [] := by
  have hu : u = { t with recordTags := t.recordTags.filter fun link => link.1 ≠ id } :=
    (congrArg Prod.snd (Except.ok.inj hrun)).symm
  have hsub : ∀ link ∈ u.recordTags, link ∈ t.recordTags := by
    intro link hmem
    rw [hu] at hmem
    exact List.mem_of_mem_filter hmem
  have hrecords : u.records = t.records := by rw [hu]
  have htags : u.tags = t.tags := by rw [hu]
  have hlast : u.lastTagId = t.lastTagId := by rw [hu]
  refine ⟨⟨?_, ?_, ?_⟩, hrecords, ?_⟩
  · intro link hmem
    rw [hrecords]
    exact hkeyed.linksOwned link (hsub link hmem)
  · intro link hmem
    rw [hlast]
    exact hkeyed.linksNumbered link (hsub link hmem)
  · rw [htags, hlast]
    exact hkeyed.tagsNumbered
  · apply List.filterMap_eq_nil_iff.mpr
    intro link hmem
    have hne : link.1 ≠ id := by
      rw [hu] at hmem
      simpa using List.of_mem_filter hmem
    exact if_neg hne

/-! ## Records -/

/-- The rows after an insertion, and the tags of the new record. -/
theorem insertRecord_added (hkeyed : t.Keyed) {record : StoredRecord}
    (h : t.insertRecord record = .ok t') :
    t'.Keyed ∧
      t'.storedRecords =
        record.toRow.toStoredRecord record.id (t'.tagsOf record.id) :: t.storedRecords ∧
      ∀ name, name ∈ t'.tagsOf record.id ↔ name ∈ record.tags := by
  have hnew : record.id ∉ t.records := (insertRecord_ok h).1
  unfold insertRecord at h
  rw [if_neg hnew] at h
  -- the row is there before its tags are linked
  have hstart : ({ t with records := t.records.insert record.id record.toRow } : Tables).Keyed :=
    ⟨fun link hmem => (AList.mem_insert _).mpr (Or.inr (hkeyed.linksOwned link hmem)),
      hkeyed.linksNumbered, hkeyed.tagsNumbered⟩
  have htagged := tagged_insertRecordTags hstart ((AList.mem_insert _).mpr (Or.inl rfl)) h
  have hentries : t'.records.entries = ⟨record.id, record.toRow⟩ :: t.records.entries := by
    rw [htagged.records]
    exact AList.entries_insert_of_notMem hnew
  refine ⟨htagged.keyed, ?_, ?_⟩
  · unfold storedRecords
    rw [hentries, List.map_cons]
    congr 1
    apply List.map_congr_left
    intro e he
    have hne : e.1 ≠ record.id := by
      intro heq
      rw [← heq] at hnew
      exact hnew (AList.mem_keys.mpr (List.mem_map_of_mem he))
    rw [htagged.others e.1 hne]
    rfl
  · intro name
    rw [htagged.own]
    -- a record that was not there has no links yet
    have hnone : name ∉ t.tagsOf record.id := by
      intro hmem
      rcases List.mem_filterMap.mp hmem with ⟨link, hlink, hname⟩
      by_cases howner : link.1 = record.id
      · have howned := hkeyed.linksOwned link hlink
        rw [howner] at howned
        exact hnew howned
      · rw [if_neg howner] at hname
        cases hname
    exact or_iff_left hnone

/-! ## Every statement keeps the keys -/

theorem Keyed.filter (hkeyed : t.Keyed) (keeps : Uuid × Nat → Bool) :
    ({ t with recordTags := t.recordTags.filter keeps } : Tables).Keyed where
  linksOwned := fun link hmem => hkeyed.linksOwned link (List.mem_of_mem_filter hmem)
  linksNumbered := fun link hmem => hkeyed.linksNumbered link (List.mem_of_mem_filter hmem)
  tagsNumbered := hkeyed.tagsNumbered

theorem Keyed.updateRow (hkeyed : t.Keyed) (id : Uuid) (f : RecordRow → RecordRow) :
    (t.updateRow id f).Keyed :=
  hkeyed.of_rows (outside_updateRow t id f .recordTags (by decide))
    (outside_updateRow t id f .tags (by decide)) fun other hmem =>
      (mem_updateRow t id other f).mpr hmem

theorem Keyed.deleteRow (hkeyed : t.Keyed) (id : Uuid) : (t.deleteRow id).Keyed where
  linksOwned := by
    intro link hmem
    have hne : link.1 ≠ id := by simpa using List.of_mem_filter hmem
    exact AList.mem_erase.mpr ⟨hne, hkeyed.linksOwned link (List.mem_of_mem_filter hmem)⟩
  linksNumbered := fun link hmem => hkeyed.linksNumbered link (List.mem_of_mem_filter hmem)
  tagsNumbered := hkeyed.tagsNumbered

theorem Keyed.deleteTag (hkeyed : t.Keyed) (tagId : Nat) : (t.deleteTag tagId).Keyed where
  linksOwned := fun link hmem => hkeyed.linksOwned link (List.mem_of_mem_filter hmem)
  linksNumbered := fun link hmem => hkeyed.linksNumbered link (List.mem_of_mem_filter hmem)
  tagsNumbered := fun other hmem => hkeyed.tagsNumbered other (AList.mem_erase.mp hmem).2

theorem Keyed.foldl {α : Type} {f : Tables → α → Tables} (hf : ∀ t a, t.Keyed → (f t a).Keyed)
    (hkeyed : t.Keyed) (as : List α) : (as.foldl f t).Keyed := by
  induction as generalizing t with
  | nil => exact hkeyed
  | cons a as ih => exact ih (hf t a hkeyed)

theorem Keyed.attachTag (hkeyed : t.Keyed) {tagId : Nat} (h : t.attachTag id tagId = .ok t') :
    t'.Keyed := by
  unfold Tables.attachTag at h
  split at h
  · cases h
    exact hkeyed
  · split at h
    · rename_i hboth
      cases h
      exact keyed_link hkeyed hboth.1 (hkeyed.tagsNumbered tagId hboth.2)
    · cases h

theorem Keyed.renameTag (hkeyed : t.Keyed) {oldName newName : String} {b : Bool}
    (h : t.renameTag oldName newName = .ok (b, t')) : t'.Keyed := by
  unfold Tables.renameTag at h
  split at h
  · cases h
    exact hkeyed
  · rename_i tag htag
    split at h
    · cases h
    · split at h
      · cases h
      · cases h
        have hnumber : tag.id ≤ t.lastTagId :=
          hkeyed.tagsNumbered tag.id (AList.lookup_isSome.mp (by rw [tagByName_lookup htag]; rfl))
        refine ⟨hkeyed.linksOwned, hkeyed.linksNumbered, ?_⟩
        intro other hmem
        rcases (AList.mem_insert _).mp hmem with heq | hold
        · rw [heq]
          exact hnumber
        · exact hkeyed.tagsNumbered other hold

theorem Keyed.batchAddTag (hkeyed : t.Keyed) {ids : List Uuid} {name : String} {n : Nat}
    (h : t.batchAddTag ids name = .ok (n, t')) : t'.Keyed := by
  rcases ok_of_bind h with ⟨⟨tag, u⟩, htag, hloop⟩
  have hgen : ∀ (rest : List Uuid) (acc : Nat × Tables), acc.2.Keyed →
      rest.foldlM
        (fun (acc : Nat × Tables) id => do
          let after ← acc.2.attachTag id tag.id
          let more := if acc.2.countRecordTags id < after.countRecordTags id then 1 else 0
          return (acc.1 + more, after)) acc = .ok (n, t') → t'.Keyed := by
    intro rest
    induction rest with
    | nil =>
        intro acc hacc hend
        cases hend
        exact hacc
    | cons id rest ih =>
        intro acc hacc hend
        rw [List.foldlM_cons] at hend
        rcases ok_of_bind hend with ⟨next, hnext, hrest⟩
        rcases ok_of_bind hnext with ⟨after, hattach, hvalue⟩
        cases hvalue
        exact ih _ (hacc.attachTag hattach) hrest
  exact hgen ids (0, u) (named_getOrCreateTag hkeyed htag).keyed hloop

theorem Keyed.batchRemoveTag (hkeyed : t.Keyed) (ids : List Uuid) (name : String) :
    (t.batchRemoveTag ids name).2.Keyed := by
  unfold Tables.batchRemoveTag
  cases t.tagByName name with
  | none => exact hkeyed
  | some tag =>
      have hgen : ∀ (rest : List Uuid) (acc : Nat × Tables), acc.2.Keyed →
          (rest.foldl
            (fun (acc : Nat × Tables) id =>
              let after :=
                { acc.2 with recordTags := acc.2.recordTags.filter fun l => l ≠ (id, tag.id) }
              let less := if after.countRecordTags id < acc.2.countRecordTags id then 1 else 0
              (acc.1 + less, after)) acc).2.Keyed := by
        intro rest
        induction rest with
        | nil => exact fun _ hacc => hacc
        | cons id rest ih => exact fun acc hacc => ih _ (hacc.filter _)
      have hloop := hgen ids (0, t) hkeyed
      dsimp only
      split
      · exact hloop.deleteTag tag.id
      · exact hloop

end Tables

/-- Every statement keeps the foreign key of the links and the numbers of the tags. -/
theorem DbOp.keyed_run {op : DbOp} {t t' : Tables} {result : op.Result} (hkeyed : t.Keyed)
    (h : op.run t = .ok (result, t')) : t'.Keyed := by
  cases op with
  | insertRecord record =>
      rcases Tables.ok_of_bind h with ⟨u, hu, hvalue⟩
      cases hvalue
      exact (Tables.insertRecord_added hkeyed hu).1
  | updateRecord record expectedVersion =>
      have hend : t.updateRecord record expectedVersion = (result, t') := Except.ok.inj h
      rcases Tables.updateRecord_cases t record expectedVersion with
        ⟨row, -, -, hdone⟩ | ⟨-, hmissed⟩
      · have hsame : t' = _ := congrArg Prod.snd (hend.symm.trans hdone)
        rw [hsame]
        exact hkeyed.updateRow _ _
      · have hsame : t' = t := congrArg Prod.snd (hend.symm.trans hmissed)
        rw [hsame]
        exact hkeyed
  | updateRecordVersion id version =>
      cases h
      exact hkeyed.updateRow _ _
  | updateRecordDeletedState id deleted deletedAt =>
      cases h
      exact hkeyed.updateRow _ _
  | setFavorite id isFavorite =>
      cases h
      exact hkeyed.updateRow _ _
  | softDeleteRecord id now =>
      cases h
      exact hkeyed.updateRow _ _
  | restoreRecord id =>
      cases h
      exact hkeyed.updateRow _ _
  | hardDeleteRecord id =>
      cases h
      exact hkeyed.deleteRow id
  | batchSoftDeleteRecords ids deletedBy now =>
      cases h
      exact hkeyed.foldl (fun _ _ hu => hu.updateRow _ _) _
  | batchRestoreRecords ids =>
      cases h
      exact hkeyed.foldl (fun _ _ hu => hu.updateRow _ _) _
  | batchHardDeleteRecords ids =>
      cases h
      exact hkeyed.foldl (fun _ id hu => hu.deleteRow id) _
  | getOrCreateTag name => exact (Tables.named_getOrCreateTag hkeyed h).keyed
  | attachTag id tagId =>
      rcases Tables.ok_of_bind h with ⟨u, hu, hvalue⟩
      cases hvalue
      exact hkeyed.attachTag hu
  | detachAllTagsForRecord id =>
      cases h
      exact hkeyed.filter _
  | renameTag oldName newName => exact hkeyed.renameTag h
  | deleteTagByName name =>
      have hend : t.deleteTagByName name = (result, t') := Except.ok.inj h
      have hafter : (t.deleteTagByName name).2.Keyed := by
        unfold Tables.deleteTagByName
        split
        · exact hkeyed
        · exact hkeyed.deleteTag _
      rw [hend] at hafter
      exact hafter
  | batchAddTag ids name => exact hkeyed.batchAddTag h
  | batchRemoveTag ids name =>
      have hend : t.batchRemoveTag ids name = (result, t') := Except.ok.inj h
      have hafter := hkeyed.batchRemoveTag ids name
      rw [hend] at hafter
      exact hafter
  | _ =>
      -- the other statements leave the rows, the links and the tags
      have hout := DbOp.outside_run h
      have hrecords : t'.records = t.records := hout .records (by simp [DbOp.writes])
      exact hkeyed.of_rows (hout .recordTags (by simp [DbOp.writes]))
        (hout .tags (by simp [DbOp.writes])) fun _ hmem => hrecords ▸ hmem

end OakKeyring
