import Mathlib.Data.Finset.Dedup
import OakKeyring.Db.Frames

/-!
# What an operation does to the contents of records

The content of a record is spread over its row, the tags and the links between them. Each
operation is given the set of records whose content it may change; the others keep theirs, and no
operation but one makes a record Synced.
-/

namespace OakKeyring

/-- What is uploaded of a record, apart from its health. -/
structure RecordContent where
  encryptedData : Bytes
  nonce : Nonce
  version : Nat
  tags : Finset String
  isFavorite : Bool
  expiresAt : Option DateTime
  deleted : Bool
deriving DecidableEq

def StoredRecord.content (record : StoredRecord) : RecordContent where
  encryptedData := record.encryptedData
  nonce := record.nonce
  version := record.version
  tags := record.tags.toFinset
  isFavorite := record.isFavorite
  expiresAt := record.expiresAt
  deleted := record.deleted

namespace Tables

def content (t : Tables) (id : Uuid) : Option RecordContent :=
  (t.storedRecord id).map StoredRecord.content

def synced (t : Tables) (id : Uuid) : Prop :=
  ∃ row, t.syncState.lookup id = some row ∧ row.syncStatus = .Synced

/-- The foreign key of the sync states, and tag numbers that are not given twice. -/
structure Ruled (t : Tables) : Prop where
  syncOwned : ∀ id, id ∈ t.syncState → id ∈ t.records
  linksNumbered : ∀ link ∈ t.recordTags, link.2 ≤ t.lastTagId
  tagsNumbered : ∀ tagId, tagId ∈ t.tags → tagId ≤ t.lastTagId

/-- Outside `touched` the records that are Synced afterwards were Synced before, with the same
content. -/
structure Moved (touched : Set Uuid) (t t' : Tables) : Prop where
  ruled : t'.Ruled
  kept : ∀ id, t'.synced id → t.synced id ∧ (id ∉ touched → t'.content id = t.content id)

variable {t t' u : Tables} {touched : Set Uuid}

theorem Moved.refl (hruled : t.Ruled) : Moved touched t t where
  ruled := hruled
  kept := fun _ hsynced => ⟨hsynced, fun _ => rfl⟩

theorem Moved.trans (h : Moved touched t u) (h' : Moved touched u t') : Moved touched t t' where
  ruled := h'.ruled
  kept := by
    intro id hsynced
    have hlast := h'.kept id hsynced
    have hfirst := h.kept id hlast.1
    exact ⟨hfirst.1, fun hout => (hlast.2 hout).trans (hfirst.2 hout)⟩

theorem Moved.mono {touched' : Set Uuid} (h : Moved touched t t') (hsub : touched ⊆ touched') :
    Moved touched' t t' where
  ruled := h.ruled
  kept := fun id hsynced =>
    ⟨(h.kept id hsynced).1, fun hout => (h.kept id hsynced).2 fun hmem => hout (hsub hmem)⟩

theorem Moved.foldl {α : Type} {f : Tables → α → Tables} {as : List α}
    (hf : ∀ t, t.Ruled → ∀ a ∈ as, Moved touched t (f t a)) (hruled : t.Ruled) :
    Moved touched t (as.foldl f t) := by
  induction as generalizing t with
  | nil => exact .refl hruled
  | cons a as ih =>
      have hstep : Moved touched t (f t a) := hf t hruled a List.mem_cons_self
      exact hstep.trans
        (ih (fun u hu b hb => hf u hu b (List.mem_cons_of_mem _ hb)) hstep.ruled)

theorem Moved.foldlM {α : Type} {f : Tables → α → Except SqliteError Tables} {as : List α}
    (hf : ∀ t a t', t.Ruled → f t a = .ok t' → Moved touched t t') (hruled : t.Ruled)
    (h : as.foldlM f t = .ok t') : Moved touched t t' := by
  induction as generalizing t with
  | nil =>
      cases h
      exact .refl hruled
  | cons a as ih =>
      rw [List.foldlM_cons] at h
      rcases ok_of_bind h with ⟨u, hu, hrest⟩
      have hstep := hf t a u hruled hu
      exact hstep.trans (ih hstep.ruled hrest)

/-! ## Where the content of a record is -/

theorem tagsOf_congr {id : Uuid}
    (hlinks : (t'.recordTags.filter fun link => link.1 = id) =
      t.recordTags.filter fun link => link.1 = id)
    (hnames : ∀ link ∈ t.recordTags, link.1 = id → t'.tags.lookup link.2 = t.tags.lookup link.2) :
    t'.tagsOf id = t.tagsOf id := by
  have hview : ∀ u : Tables, u.tagsOf id =
      (u.recordTags.filter fun link => link.1 = id).filterMap fun link => u.tags.lookup link.2 := by
    intro u
    unfold tagsOf
    rw [List.filterMap_filter]
    congr 1
    funext link
    by_cases heq : link.1 = id
    · simp [heq]
    · simp [heq]
  rw [hview t', hview t, hlinks]
  apply List.filterMap_congr
  intro link hmem
  rcases List.mem_filter.mp hmem with ⟨hlink, heq⟩
  exact hnames link hlink (of_decide_eq_true heq)

theorem content_congr {id : Uuid} (hrow : t'.records.lookup id = t.records.lookup id)
    (htags : (t'.tagsOf id).toFinset = (t.tagsOf id).toFinset) : t'.content id = t.content id := by
  unfold content storedRecord
  rw [hrow, Option.map_map, Option.map_map]
  cases t.records.lookup id with
  | none => rfl
  | some row =>
      simp only [Option.map_some, Function.comp_apply]
      congr 1
      unfold StoredRecord.content RecordRow.toStoredRecord
      simp only [htags]

/-- The tables that make up contents and sync states. -/
def contentTables : List Table :=
  [.records, .tags, .recordTags, .syncState]

/-- Operations on other tables. -/
theorem Moved.of_outside {written : List Table} (hruled : t.Ruled) (h : Outside written t t')
    (hother : ∀ table ∈ contentTables, table ∉ written) : Moved touched t t' := by
  have hrecords : t'.records = t.records := h .records (hother _ (by decide))
  have htags : (t'.tags, t'.lastTagId) = (t.tags, t.lastTagId) := h .tags (hother _ (by decide))
  have hlinks : t'.recordTags = t.recordTags := h .recordTags (hother _ (by decide))
  have hsync : t'.syncState = t.syncState := h .syncState (hother _ (by decide))
  have hnames : t'.tags = t.tags := congrArg Prod.fst htags
  have hlast : t'.lastTagId = t.lastTagId := congrArg Prod.snd htags
  constructor
  · constructor
    · rw [hsync, hrecords]
      exact hruled.syncOwned
    · rw [hlinks, hlast]
      exact hruled.linksNumbered
    · rw [hnames, hlast]
      exact hruled.tagsNumbered
  · intro id hsynced
    unfold synced at hsynced ⊢
    rw [hsync] at hsynced
    refine ⟨hsynced, fun _ => content_congr ?_ ?_⟩
    · rw [hrecords]
    · rw [tagsOf_congr]
      · rw [hlinks]
      · intro link _ _
        rw [hnames]

/-! ## The statements -/

theorem content_of_links {id : Uuid} (hrecords : t'.records = t.records) (htags : t'.tags = t.tags)
    (hlinks : (t'.recordTags.filter fun link => link.1 = id) =
      t.recordTags.filter fun link => link.1 = id) : t'.content id = t.content id := by
  refine content_congr ?_ ?_
  · rw [hrecords]
  · rw [tagsOf_congr hlinks]
    intro link _ _
    rw [htags]

theorem moved_updateRow (hruled : t.Ruled) (id : Uuid) (f : RecordRow → RecordRow) :
    Moved {id} t (t.updateRow id f) := by
  have hout := outside_updateRow t id f
  have hsync : (t.updateRow id f).syncState = t.syncState := hout .syncState (by decide)
  have hlinks : (t.updateRow id f).recordTags = t.recordTags := hout .recordTags (by decide)
  have htags : ((t.updateRow id f).tags, (t.updateRow id f).lastTagId) = (t.tags, t.lastTagId) :=
    hout .tags (by decide)
  have hnames : (t.updateRow id f).tags = t.tags := congrArg Prod.fst htags
  have hlast : (t.updateRow id f).lastTagId = t.lastTagId := congrArg Prod.snd htags
  constructor
  · constructor
    · intro other hmem
      rw [hsync] at hmem
      exact (mem_updateRow t id other f).mpr (hruled.syncOwned other hmem)
    · rw [hlinks, hlast]
      exact hruled.linksNumbered
    · rw [hnames, hlast]
      exact hruled.tagsNumbered
  · intro other hsynced
    unfold synced at hsynced ⊢
    rw [hsync] at hsynced
    refine ⟨hsynced, fun hne => content_congr ?_ ?_⟩
    · have hother : other ≠ id := fun heq => hne heq
      rw [lookup_updateRow, if_neg hother]
    · rw [tagsOf_congr]
      · rw [hlinks]
      · intro link _ _
        rw [hnames]

/-- The sync state goes with the record. -/
theorem moved_deleteRow (hruled : t.Ruled) (id : Uuid) : Moved touched t (t.deleteRow id) := by
  -- a record that is still synced is not the one that is deleted
  have hkept : ∀ other, (t.deleteRow id).synced other → other ≠ id ∧ t.synced other := by
    rintro other ⟨row, hrow, hstatus⟩
    have hlookup : (t.syncState.erase id).lookup other = some row := hrow
    by_cases heq : other = id
    · rw [heq, AList.lookup_erase] at hlookup
      cases hlookup
    · rw [AList.lookup_erase_ne heq] at hlookup
      exact ⟨heq, row, hlookup, hstatus⟩
  constructor
  · constructor
    · intro other hmem
      have hboth := AList.mem_erase.mp hmem
      exact AList.mem_erase.mpr ⟨hboth.1, hruled.syncOwned other hboth.2⟩
    · intro link hmem
      exact hruled.linksNumbered link (List.mem_of_mem_filter hmem)
    · exact hruled.tagsNumbered
  · intro other hsynced
    have hboth := hkept other hsynced
    refine ⟨hboth.2, fun _ => content_congr ?_ ?_⟩
    · rw [lookup_deleteRow, if_neg hboth.1]
    · rw [tagsOf_congr]
      · have hlinks : (t.deleteRow id).recordTags =
            t.recordTags.filter fun link => link.1 ≠ id := rfl
        rw [hlinks, List.filter_filter]
        apply List.filter_congr
        intro link _
        by_cases heq : link.1 = other
        · simp [heq, hboth.1]
        · simp [heq]
      · intro link _ _
        rfl

theorem moved_link (hruled : t.Ruled) (id : Uuid) {tagId : Nat} (htag : tagId ≤ t.lastTagId) :
    Moved {id} t (t.link id tagId) := by
  unfold link
  by_cases hmem : (id, tagId) ∈ t.recordTags
  · rw [if_pos hmem]
    exact .refl hruled
  · rw [if_neg hmem]
    constructor
    · constructor
      · exact hruled.syncOwned
      · intro l hl
        rcases List.mem_append.mp hl with hbefore | hnew
        · exact hruled.linksNumbered l hbefore
        · rw [List.mem_singleton.mp hnew]
          exact htag
      · exact hruled.tagsNumbered
    · intro other hsynced
      refine ⟨hsynced, fun hne => content_of_links rfl rfl ?_⟩
      have hother : ¬ id = other := fun heq => hne heq.symm
      simp [hother]

theorem moved_addTag (hruled : t.Ruled) (name : String) : Moved touched t (t.addTag name) := by
  constructor
  · constructor
    · exact hruled.syncOwned
    · intro l hl
      exact Nat.le_succ_of_le (hruled.linksNumbered l hl)
    · intro tagId hmem
      rcases (AList.mem_insert _).mp hmem with heq | hbefore
      · exact heq.le
      · exact Nat.le_succ_of_le (hruled.tagsNumbered tagId hbefore)
  · intro other hsynced
    refine ⟨hsynced, fun _ => content_congr rfl (congrArg List.toFinset (tagsOf_congr rfl ?_))⟩
    intro l hl _
    -- no link refers to the new number
    have hne : l.2 ≠ t.lastTagId + 1 := by
      have hle := hruled.linksNumbered l hl
      omega
    exact AList.lookup_insert_ne hne

theorem tagByName_mem {name : String} {tag : Tag} (h : t.tagByName name = some tag) :
    tag.id ∈ t.tags := by
  unfold tagByName at h
  rcases Option.map_eq_some_iff.mp h with ⟨e, he, hvalue⟩
  rw [← hvalue, ← AList.lookup_isSome]
  have hlookup : t.tags.lookup e.1 = some e.2 := AList.mem_lookup_iff.mpr (List.mem_of_find?_eq_some he)
  rw [hlookup]
  rfl

theorem moved_attachTag (hruled : t.Ruled) {id : Uuid} {tagId : Nat}
    (h : t.attachTag id tagId = .ok t') : Moved {id} t t' := by
  unfold attachTag at h
  split at h
  · cases h
    exact .refl hruled
  · split at h
    · rename_i hmem
      cases h
      exact moved_link hruled id (hruled.tagsNumbered tagId hmem.2)
    · cases h

theorem moved_getOrCreateTag (hruled : t.Ruled) {name : String} {tag : Tag}
    (h : t.getOrCreateTag name = .ok (tag, t')) : Moved touched t t' := by
  unfold getOrCreateTag at h
  split at h
  · cases h
    exact .refl hruled
  · split at h
    · cases h
      exact moved_addTag hruled name
    · cases h

theorem moved_insertRecordTag (hruled : t.Ruled) {id : Uuid} {name : String}
    (h : insertRecordTag id t name = .ok t') : Moved {id} t t' := by
  unfold insertRecordTag at h
  split at h
  · rename_i tag htag
    cases h
    exact moved_link hruled id (hruled.tagsNumbered _ (tagByName_mem htag))
  · split at h
    · cases h
      have hadded : Moved {id} t (t.addTag name) := moved_addTag hruled name
      exact hadded.trans (moved_link hadded.ruled id le_rfl)
    · cases h

/-- A new record has no sync state. -/
theorem moved_insertRecord (hruled : t.Ruled) {record : StoredRecord}
    (h : t.insertRecord record = .ok t') : Moved touched t t' := by
  have hnew : record.id ∉ t.records := (insertRecord_ok h).1
  unfold insertRecord at h
  rw [if_neg hnew] at h
  have hrow : Moved {record.id} t
      { t with records := t.records.insert record.id record.toRow } := by
    constructor
    · constructor
      · intro other hmem
        exact (AList.mem_insert _).mpr (Or.inr (hruled.syncOwned other hmem))
      · exact hruled.linksNumbered
      · exact hruled.tagsNumbered
    · intro other hsynced
      refine ⟨hsynced, fun hne => content_congr ?_ rfl⟩
      exact AList.lookup_insert_ne hne
  have hall : Moved {record.id} t t' :=
    hrow.trans (Moved.foldlM (fun _ _ _ hu hstep => moved_insertRecordTag hu hstep) hrow.ruled h)
  constructor
  · exact hall.ruled
  · intro other hsynced
    have hkept := hall.kept other hsynced
    refine ⟨hkept.1, fun _ => hkept.2 ?_⟩
    intro heq
    rcases hkept.1 with ⟨row, hsync, -⟩
    have hmem : record.id ∈ t.syncState := by
      rw [← AList.lookup_isSome, ← Set.mem_singleton_iff.mp heq, hsync]
      rfl
    exact hnew (hruled.syncOwned _ hmem)

theorem moved_deleteTag (hruled : t.Ruled) (tagId : Nat) :
    Moved {id | (id, tagId) ∈ t.recordTags} t (t.deleteTag tagId) := by
  constructor
  · constructor
    · exact hruled.syncOwned
    · intro l hl
      exact hruled.linksNumbered l (List.mem_of_mem_filter hl)
    · intro k hmem
      exact hruled.tagsNumbered k (AList.mem_erase.mp hmem).2
  · intro other hsynced
    refine ⟨hsynced, fun hout => content_congr rfl ?_⟩
    have hfree : ∀ l ∈ t.recordTags, l.1 = other → l.2 ≠ tagId := by
      intro l hl heq htag
      apply hout
      rw [← heq, ← htag]
      exact hl
    rw [tagsOf_congr]
    · have hlinks : (t.deleteTag tagId).recordTags =
          t.recordTags.filter fun link => link.2 ≠ tagId := rfl
      rw [hlinks, List.filter_filter]
      apply List.filter_congr
      intro l hl
      by_cases heq : l.1 = other
      · simp [heq, hfree l hl heq]
      · simp [heq]
    · intro l hl heq
      exact AList.lookup_erase_ne (hfree l hl heq)

theorem mem_recordIdsForTag {name : String} {tag : Tag} (h : t.tagByName name = some tag)
    (id : Uuid) : id ∈ t.recordIdsForTag name ↔ (id, tag.id) ∈ t.recordTags := by
  unfold recordIdsForTag
  rw [h]
  simp only [List.mem_map, List.mem_filter, decide_eq_true_eq]
  constructor
  · rintro ⟨link, ⟨hmem, htag⟩, hid⟩
    rw [← hid, ← htag]
    exact hmem
  · intro hmem
    exact ⟨(id, tag.id), ⟨hmem, rfl⟩, rfl⟩

theorem moved_renameTag (hruled : t.Ruled) {oldName newName : String} {b : Bool}
    (h : t.renameTag oldName newName = .ok (b, t')) :
    Moved {id | id ∈ t.recordIdsForTag oldName} t t' := by
  unfold renameTag at h
  split at h
  · cases h
    exact .refl hruled
  · rename_i tag htag
    split at h
    · cases h
    · split at h
      · cases h
      -- the tag keeps its number, so its links stay, and only its records have another name
      · cases h
        constructor
        · constructor
          · exact hruled.syncOwned
          · exact hruled.linksNumbered
          · intro k hmem
            rcases (AList.mem_insert _).mp hmem with heq | hbefore
            · rw [heq]
              exact hruled.tagsNumbered _ (tagByName_mem htag)
            · exact hruled.tagsNumbered k hbefore
        · intro other hsynced
          refine ⟨hsynced, fun hout =>
            content_congr rfl (congrArg List.toFinset (tagsOf_congr rfl ?_))⟩
          intro l hl heq
          have hne : l.2 ≠ tag.id := by
            intro hsame
            apply hout
            refine (mem_recordIdsForTag htag other).mpr ?_
            rw [← heq, ← hsame]
            exact hl
          exact AList.lookup_insert_ne hne

theorem moved_deleteTagByName (hruled : t.Ruled) (name : String) :
    Moved {id | id ∈ t.recordIdsForTag name} t (t.deleteTagByName name).2 := by
  unfold deleteTagByName
  cases htag : t.tagByName name with
  | none => exact .refl hruled
  | some tag =>
      refine (moved_deleteTag hruled tag.id).mono ?_
      intro id hmem
      exact (mem_recordIdsForTag htag id).mpr hmem

theorem renameTag_missing {oldName newName : String}
    (h : t.renameTag oldName newName = .ok (false, t')) : t' = t := by
  unfold renameTag at h
  split at h
  · cases h
    rfl
  · split at h
    · cases h
    · split at h
      · cases h
      · cases h

theorem deleteTagByName_missing {name : String} (h : t.deleteTagByName name = (false, t')) :
    t' = t := by
  unfold deleteTagByName at h
  split at h
  · cases h
    rfl
  · cases h

/-! ## Tags of many records -/

/-- A link that is added makes the record's count grow. -/
theorem attachTag_cases {id : Uuid} {tagId : Nat} (h : t.attachTag id tagId = .ok t') :
    t' = t ∨ t.countRecordTags id < t'.countRecordTags id := by
  unfold attachTag at h
  split at h
  · cases h
    exact Or.inl rfl
  · rename_i hnew
    split at h
    · cases h
      refine Or.inr ?_
      unfold link countRecordTags
      rw [if_neg hnew]
      simp
    · cases h

theorem moved_batchAddTag (hruled : t.Ruled) {ids : List Uuid} {name : String} {n : Nat}
    (h : t.batchAddTag ids name = .ok (n, t')) :
    Moved {id | id ∈ ids} t t' ∧ (n = 0 → Moved ∅ t t') := by
  rcases ok_of_bind h with ⟨⟨tag, u⟩, htag, hloop⟩
  suffices hgen : ∀ (rest : List Uuid) (acc : Nat × Tables), rest ⊆ ids → acc.2.Ruled →
      rest.foldlM
        (fun (acc : Nat × Tables) id => do
          let after ← acc.2.attachTag id tag.id
          let more := if acc.2.countRecordTags id < after.countRecordTags id then 1 else 0
          return (acc.1 + more, after)) acc = .ok (n, t') →
      Moved {id | id ∈ ids} acc.2 t' ∧ acc.1 ≤ n ∧ (n = acc.1 → Moved ∅ acc.2 t') by
    -- making the tag touches no record
    have hfirst : ∀ touched : Set Uuid, Moved touched t u := fun touched =>
      moved_getOrCreateTag hruled htag
    have hrest := hgen ids (0, u) (fun _ hmem => hmem) (hfirst ∅).ruled hloop
    exact ⟨(hfirst _).trans hrest.1, fun hzero => (hfirst ∅).trans (hrest.2.2 hzero)⟩
  intro rest
  induction rest with
  | nil =>
      intro acc _ hu hend
      cases hend
      exact ⟨.refl hu, le_rfl, fun _ => .refl hu⟩
  | cons id rest ih =>
      intro acc hsub hu hend
      rw [List.foldlM_cons] at hend
      rcases ok_of_bind hend with ⟨next, hnext, hrest⟩
      rcases ok_of_bind hnext with ⟨after, hattach, hvalue⟩
      cases hvalue
      have hstep : Moved {id | id ∈ ids} acc.2 after := by
        refine (moved_attachTag hu hattach).mono ?_
        intro other hother
        rw [Set.mem_singleton_iff.mp hother]
        exact hsub List.mem_cons_self
      have htail := ih _ (fun _ hmem => hsub (List.mem_cons_of_mem _ hmem)) hstep.ruled hrest
      -- the count grows with the links
      have hgrows := htail.2.1
      refine ⟨hstep.trans htail.1, le_trans (Nat.le_add_right _ _) hgrows, ?_⟩
      intro hsame
      rcases attachTag_cases hattach with hstill | hmore
      · rw [hstill] at htail hgrows
        refine htail.2.2 ?_
        simp [hsame]
      -- a link was added, so the count is not what it was
      · simp only [if_pos hmore] at hgrows
        omega

theorem moved_removeLinks (hruled : t.Ruled) (id : Uuid) (keeps : Uuid × Nat → Bool)
    (hother : ∀ link, link.1 ≠ id → keeps link = true) :
    Moved {id} t { t with recordTags := t.recordTags.filter keeps } := by
  constructor
  · constructor
    · exact hruled.syncOwned
    · intro l hl
      exact hruled.linksNumbered l (List.mem_of_mem_filter hl)
    · exact hruled.tagsNumbered
  · intro other hsynced
    refine ⟨hsynced, fun hne => content_of_links rfl rfl ?_⟩
    rw [List.filter_filter]
    apply List.filter_congr
    intro l _
    by_cases heq : l.1 = other
    · have hkept : keeps l = true := hother l fun hid => hne (heq.symm.trans hid)
      simp [heq, hkept]
    · simp [heq]

/-- One round of `batch_remove_tag`. -/
def removeRound (tagId : Nat) (acc : Nat × Tables) (id : Uuid) : Nat × Tables :=
  let after := { acc.2 with recordTags := acc.2.recordTags.filter fun l => l ≠ (id, tagId) }
  let less := if after.countRecordTags id < acc.2.countRecordTags id then 1 else 0
  (acc.1 + less, after)

theorem moved_removeRound {acc : Nat × Tables} (hruled : acc.2.Ruled) (tagId : Nat) (id : Uuid) :
    Moved {id} acc.2 (removeRound tagId acc id).2 := by
  refine moved_removeLinks hruled id _ ?_
  intro l hne
  have hdiff : l ≠ (id, tagId) := fun heq => hne (congrArg Prod.fst heq)
  simp [hdiff]

/-- A link that is removed is counted. -/
theorem removeRound_cases (tagId : Nat) (acc : Nat × Tables) (id : Uuid) :
    (removeRound tagId acc id).1 = acc.1 + 1 ∨ removeRound tagId acc id = acc := by
  by_cases hlinked : (id, tagId) ∈ acc.2.recordTags
  · refine Or.inl ?_
    have hless : ({ acc.2 with
        recordTags := acc.2.recordTags.filter fun l => l ≠ (id, tagId) } :
          Tables).countRecordTags id < acc.2.countRecordTags id := by
      unfold countRecordTags
      rw [List.filter_comm]
      apply List.length_filter_lt_length_iff_exists.mpr
      exact ⟨(id, tagId), List.mem_filter.mpr ⟨hlinked, by simp⟩, by simp⟩
    exact congrArg (acc.1 + ·) (if_pos hless)
  · refine Or.inr ?_
    have hfilter : (acc.2.recordTags.filter fun l => l ≠ (id, tagId)) = acc.2.recordTags := by
      apply List.filter_eq_self.mpr
      intro l hl
      have hdiff : l ≠ (id, tagId) := fun heq => hlinked (heq ▸ hl)
      simp [hdiff]
    unfold removeRound
    rw [hfilter]
    simp

theorem moved_removeRounds {ids : List Uuid} (tagId : Nat) :
    ∀ (rest : List Uuid) (acc : Nat × Tables), rest ⊆ ids → acc.2.Ruled →
      Moved {id | id ∈ ids} acc.2 (rest.foldl (removeRound tagId) acc).2 ∧
        acc.1 ≤ (rest.foldl (removeRound tagId) acc).1 ∧
        ((rest.foldl (removeRound tagId) acc).1 = acc.1 →
          Moved ∅ acc.2 (rest.foldl (removeRound tagId) acc).2) := by
  intro rest
  induction rest with
  | nil => exact fun acc _ hu => ⟨.refl hu, le_rfl, fun _ => .refl hu⟩
  | cons id rest ih =>
      intro acc hsub hu
      have hstep : Moved {id | id ∈ ids} acc.2 (removeRound tagId acc id).2 := by
        refine (moved_removeRound hu tagId id).mono ?_
        intro other hother
        rw [Set.mem_singleton_iff.mp hother]
        exact hsub List.mem_cons_self
      have htail := ih (removeRound tagId acc id)
        (fun _ hmem => hsub (List.mem_cons_of_mem _ hmem)) hstep.ruled
      rw [List.foldl_cons]
      rcases removeRound_cases tagId acc id with hmore | hstill
      · refine ⟨hstep.trans htail.1, by omega, ?_⟩
        intro hsame
        have hgrows := htail.2.1
        omega
      · rw [hstill] at htail ⊢
        exact htail

theorem moved_batchRemoveTag (hruled : t.Ruled) (ids : List Uuid) (name : String) :
    Moved {id | id ∈ ids} t (t.batchRemoveTag ids name).2 ∧
      (∀ n, (t.batchRemoveTag ids name).1 = some n → n = 0 →
        Moved ∅ t (t.batchRemoveTag ids name).2) ∧
      ((t.batchRemoveTag ids name).1 = none → (t.batchRemoveTag ids name).2 = t) := by
  cases htag : t.tagByName name with
  | none =>
      have hbody : t.batchRemoveTag ids name = (none, t) := by
        unfold batchRemoveTag
        rw [htag]
      rw [hbody]
      refine ⟨.refl hruled, ?_, fun _ => rfl⟩
      intro n hn _
      cases hn
  | some tag =>
      have hbody : t.batchRemoveTag ids name =
          (some (ids.foldl (removeRound tag.id) (0, t)).1,
            if ((ids.foldl (removeRound tag.id) (0, t)).2.recordTags.filter
                fun link => link.2 = tag.id) = [] then
              (ids.foldl (removeRound tag.id) (0, t)).2.deleteTag tag.id
            else (ids.foldl (removeRound tag.id) (0, t)).2) := by
        unfold batchRemoveTag
        rw [htag]
        rfl
      rw [hbody]
      have hall := moved_removeRounds tag.id ids (0, t) (fun _ hmem => hmem) hruled
      -- the tag goes when no link to it is left
      have hlast : ∀ u : Tables, u.Ruled → Moved ∅ u
          (if (u.recordTags.filter fun link => link.2 = tag.id) = [] then u.deleteTag tag.id
          else u) := by
        intro u hu
        split
        · rename_i hnone
          refine (moved_deleteTag hu tag.id).mono ?_
          intro id hmem
          have hlink : (id, tag.id) ∈ u.recordTags.filter fun link => link.2 = tag.id :=
            List.mem_filter.mpr ⟨hmem, by simp⟩
          rw [hnone] at hlink
          cases hlink
        · exact .refl hu
      have htail := hlast _ hall.1.ruled
      refine ⟨hall.1.trans (htail.mono (Set.empty_subset _)), ?_, ?_⟩
      · intro n hn hzero
        cases hn
        exact (hall.2.2 hzero).trans htail
      · intro hnone
        cases hnone

/-! ## Sync states -/

/-- A record that is marked anything but Synced. -/
theorem moved_upsertSyncState (hruled : t.Ruled) {id : Uuid} {f : Option SyncRow → SyncRow}
    (hf : ∀ row, (f row).syncStatus ≠ .Synced) (h : t.upsertSyncState id f = .ok t') :
    Moved touched t t' ∧ ¬ t'.synced id := by
  have hrefers := referring_ok h
  have hsplit : ∀ other, t'.synced other → other ≠ id ∧ t.synced other := by
    rintro other ⟨row, hrow, hstatus⟩
    rw [hrefers.2] at hrow
    have hlookup : (t.syncState.insert id (f (t.syncState.lookup id))).lookup other = some row :=
      hrow
    by_cases heq : other = id
    · rw [heq, AList.lookup_insert] at hlookup
      cases hlookup
      exact absurd hstatus (hf _)
    · rw [AList.lookup_insert_ne heq] at hlookup
      exact ⟨heq, row, hlookup, hstatus⟩
  refine ⟨⟨?_, ?_⟩, fun hsynced => (hsplit id hsynced).1 rfl⟩
  · rw [hrefers.2]
    constructor
    · intro other hmem
      rcases (AList.mem_insert _).mp hmem with heq | hbefore
      · rw [heq]
        exact hrefers.1
      · exact hruled.syncOwned other hbefore
    · exact hruled.linksNumbered
    · exact hruled.tagsNumbered
  · intro other hsynced
    refine ⟨(hsplit other hsynced).2, fun _ => ?_⟩
    rw [hrefers.2]
    exact content_of_links rfl rfl rfl

/-- Marking Synced makes one record Synced and changes no content. -/
theorem marked_synced (hruled : t.Ruled) {id : Uuid} {row : SyncRow}
    (h : t.upsertSyncState id (fun _ => row) = .ok t') :
    t'.Ruled ∧ (∀ other, t'.content other = t.content other) ∧
      ∀ other, other ≠ id → t'.synced other → t.synced other := by
  have hrefers := referring_ok h
  rw [hrefers.2]
  refine ⟨?_, fun other => content_of_links rfl rfl rfl, ?_⟩
  · constructor
    · intro other hmem
      rcases (AList.mem_insert _).mp hmem with heq | hbefore
      · rw [heq]
        exact hrefers.1
      · exact hruled.syncOwned other hbefore
    · exact hruled.linksNumbered
    · exact hruled.tagsNumbered
  · rintro other hne ⟨row', hrow', hstatus⟩
    have hlookup : (t.syncState.insert id row).lookup other = some row' := hrow'
    rw [AList.lookup_insert_ne hne] at hlookup
    exact ⟨row', hlookup, hstatus⟩

end Tables

/-! ## Every operation -/

/-- The records whose content an operation may change. -/
def DbOp.touches (t : Tables) : DbOp → Set Uuid
  | updateRecord record _ => {record.id}
  | updateRecordVersion id _ => {id}
  | updateRecordDeletedState id _ _ => {id}
  | setFavorite id _ => {id}
  | softDeleteRecord id _ => {id}
  | restoreRecord id => {id}
  | batchSoftDeleteRecords ids _ _ => {id | id ∈ ids}
  | batchRestoreRecords ids => {id | id ∈ ids ∧ (t.records.lookup id).any RecordRow.deleted}
  | attachTag id _ => {id}
  | detachAllTagsForRecord id => {id}
  | renameTag oldName _ => {id | id ∈ t.recordIdsForTag oldName}
  | deleteTagByName name => {id | id ∈ t.recordIdsForTag name}
  | batchAddTag ids _ => {id | id ∈ ids}
  | batchRemoveTag ids _ => {id | id ∈ ids}
  | _ => ∅

def DbOp.marksSynced : DbOp → Bool
  | markSyncStateSynced _ _ => true
  | _ => false

/-- An `UPDATE` of the rows of a list of records. -/
theorem Tables.moved_updateRows {t : Tables} (hruled : t.Ruled) (ids : List Uuid)
    (selects : RecordRow → Bool) (f : RecordRow → RecordRow) :
    Tables.Moved {id | id ∈ ids ∧ (t.records.lookup id).any selects} t
      (t.updateRows ids selects f).2 := by
  refine Tables.Moved.foldl ?_ hruled
  intro u hu id hid
  refine (Tables.moved_updateRow hu id f).mono ?_
  intro other hother
  rw [Set.mem_singleton_iff.mp hother]
  rcases List.mem_filter.mp hid with ⟨hmem, hselected⟩
  exact ⟨List.mem_dedup.mp hmem, hselected⟩

/-- What an operation that marks nothing Synced does to the contents. -/
theorem DbOp.moved_run {op : DbOp} {t t' : Tables} {result : op.Result} (hruled : t.Ruled)
    (hop : op.marksSynced = false) (h : op.run t = .ok (result, t')) :
    Tables.Moved (op.touches t) t t' := by
  cases op with
  | markSyncStateSynced id now => cases hop
  | insertRecord record =>
      rcases Tables.ok_of_bind h with ⟨u, hu, hvalue⟩
      cases hvalue
      exact Tables.moved_insertRecord hruled hu
  | updateRecord record expectedVersion =>
      have hend : t.updateRecord record expectedVersion = (result, t') := Except.ok.inj h
      rcases Tables.updateRecord_cases t record expectedVersion with
        ⟨row, -, -, hdone⟩ | ⟨-, hmissed⟩
      · have hsame : t' = _ := congrArg Prod.snd (hend.symm.trans hdone)
        rw [hsame]
        exact Tables.moved_updateRow hruled record.id _
      · have hsame : t' = t := congrArg Prod.snd (hend.symm.trans hmissed)
        rw [hsame]
        exact .refl hruled
  | updateRecordVersion id version =>
      cases h
      exact Tables.moved_updateRow hruled id _
  | updateRecordDeletedState id deleted deletedAt =>
      cases h
      exact Tables.moved_updateRow hruled id _
  | setFavorite id isFavorite =>
      cases h
      exact Tables.moved_updateRow hruled id _
  | softDeleteRecord id now =>
      cases h
      exact Tables.moved_updateRow hruled id _
  | restoreRecord id =>
      cases h
      exact Tables.moved_updateRow hruled id _
  | hardDeleteRecord id =>
      cases h
      exact Tables.moved_deleteRow hruled id
  | batchSoftDeleteRecords ids deletedBy now =>
      cases h
      exact (Tables.moved_updateRows hruled ids _ _).mono fun id hid => hid.1
  | batchRestoreRecords ids =>
      cases h
      exact Tables.moved_updateRows hruled ids _ _
  | batchHardDeleteRecords ids =>
      cases h
      exact Tables.Moved.foldl (fun u hu id _ => Tables.moved_deleteRow hu id) hruled
  | getOrCreateTag name => exact Tables.moved_getOrCreateTag hruled h
  | attachTag id tagId =>
      rcases Tables.ok_of_bind h with ⟨u, hu, hvalue⟩
      cases hvalue
      exact Tables.moved_attachTag hruled hu
  | detachAllTagsForRecord id =>
      cases h
      refine Tables.moved_removeLinks hruled id _ ?_
      intro link hne
      simp [hne]
  | renameTag oldName newName => exact Tables.moved_renameTag hruled h
  | deleteTagByName name =>
      have hend : t.deleteTagByName name = (result, t') := Except.ok.inj h
      have hmoved := Tables.moved_deleteTagByName hruled name
      rw [hend] at hmoved
      exact hmoved
  | batchAddTag ids name => exact (Tables.moved_batchAddTag hruled h).1
  | batchRemoveTag ids name =>
      have hend : t.batchRemoveTag ids name = (result, t') := Except.ok.inj h
      have hmoved := (Tables.moved_batchRemoveTag hruled ids name).1
      rw [hend] at hmoved
      exact hmoved
  | upsertSyncStatePending id now =>
      rcases Tables.ok_of_bind h with ⟨u, hu, hvalue⟩
      cases hvalue
      exact (Tables.moved_upsertSyncState hruled (fun _ => by simp) hu).1
  | markSyncStateConflict id conflictData now =>
      rcases Tables.ok_of_bind h with ⟨u, hu, hvalue⟩
      cases hvalue
      exact (Tables.moved_upsertSyncState hruled (fun _ => by simp) hu).1
  | _ =>
      -- the other statements write none of these tables
      exact .of_outside hruled (DbOp.outside_run h)
        (by simp [Tables.contentTables, DbOp.writes])

end OakKeyring
