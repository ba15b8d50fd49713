import OakKeyring.Db.Frames
import OakKeyring.Lib.Pointwise

/-!
# The tables, record by record

Most statements are about one record: they change what the tables have of it and of no other.
-/

namespace OakKeyring

open Pointwise

/-- What the tables have of one record. -/
structure RecordSlice where
  row : Option RecordRow
  links : List (Uuid × Nat)
  history : List (Nat × HistoryRow)
  sync : Option SyncRow
  health : Option HealthRow
  index : Option IndexRow

/-- Nothing is there of a record that was deleted. -/
def RecordSlice.empty : RecordSlice where
  row := none
  links := []
  history := []
  sync := none
  health := none
  index := none

namespace Tables

def slice (t : Tables) (id : Uuid) : RecordSlice where
  row := t.records.lookup id
  links := t.recordTags.filter fun link => link.1 = id
  history := t.historyOf id
  sync := t.syncState.lookup id
  health := t.healthState.lookup id
  index := t.listIndex.lookup id

/-- What does not belong to a record is the same. -/
structure SameCommon (t t' : Tables) : Prop where
  tags : t'.tags = t.tags
  lastTagId : t'.lastTagId = t.lastTagId
  lastHistoryId : t'.lastHistoryId = t.lastHistoryId
  metadata : t'.metadata = t.metadata

theorem SameCommon.refl (t : Tables) : SameCommon t t :=
  ⟨rfl, rfl, rfl, rfl⟩

theorem SameCommon.symm {t t' : Tables} (h : SameCommon t t') : SameCommon t' t :=
  ⟨h.tags.symm, h.lastTagId.symm, h.lastHistoryId.symm, h.metadata.symm⟩

theorem SameCommon.trans {t t' t'' : Tables} (h : SameCommon t t') (h' : SameCommon t' t'') :
    SameCommon t t'' where
  tags := h'.tags.trans h.tags
  lastTagId := h'.lastTagId.trans h.lastTagId
  lastHistoryId := h'.lastHistoryId.trans h.lastHistoryId
  metadata := h'.metadata.trans h.metadata

/-- The tables changed at some records, each by `R`. -/
def Changed (ids : List Uuid) (R : Uuid → RecordSlice → RecordSlice → Prop) (t t' : Tables) :
    Prop :=
  SameCommon t t' ∧ ChangesAt ids R t.slice t'.slice

section Steps

variable {t t' t'' : Tables} {id : Uuid} {ids : List Uuid}
  {R S : Uuid → RecordSlice → RecordSlice → Prop}

theorem Changed.refl (R : Uuid → RecordSlice → RecordSlice → Prop) (t : Tables) :
    Changed [] R t t :=
  ⟨.refl t, .refl R _⟩

theorem Changed.mono (h : Changed ids R t t')
    (hR : ∀ id ∈ ids, R id (t.slice id) (t'.slice id) → S id (t.slice id) (t'.slice id)) :
    Changed ids S t t' :=
  ⟨h.1, h.2.mono hR⟩

theorem Changed.snoc (h : Changed ids R t t') (hid : id ∉ ids) (hstep : Changed [id] R t' t'') :
    Changed (ids ++ [id]) R t t'' :=
  ⟨h.1.trans hstep.1, h.2.snoc hid hstep.2⟩

theorem Changed.trans (h : Changed ids R t t') (h' : Changed ids S t' t'') :
    Changed ids (fun id a c => ∃ b, R id a b ∧ S id b c) t t'' :=
  ⟨h.1.trans h'.1, h.2.trans h'.2⟩

/-- Two changes of the same tables. -/
theorem Changed.compare {T : Uuid → RecordSlice → RecordSlice → Prop} (h : Changed ids R t t')
    (h' : Changed ids S t t'')
    (hT : ∀ id ∈ ids, R id (t.slice id) (t'.slice id) → S id (t.slice id) (t''.slice id) →
      T id (t'.slice id) (t''.slice id)) : Changed ids T t' t'' :=
  ⟨h.1.symm.trans h'.1, h.2.compare h'.2 hT⟩

theorem changed_updateRow (t : Tables) (id : Uuid) (f : RecordRow → RecordRow) :
    Changed [id] (fun _ s s' => s' = { s with row := s.row.map f }) t (t.updateRow id f) := by
  have houtside := outside_updateRow t id f
  have hcommon : SameCommon t (t.updateRow id f) := by
    constructor
    · exact congrArg Prod.fst (houtside .tags (by decide))
    · exact congrArg Prod.snd (houtside .tags (by decide))
    · exact congrArg Prod.snd (houtside .passwordHistory (by decide))
    · exact houtside .metadata (by decide)
  have hlinks : (t.updateRow id f).recordTags = t.recordTags := houtside .recordTags (by decide)
  have hhistory : (t.updateRow id f).passwordHistory = t.passwordHistory :=
    congrArg Prod.fst (houtside .passwordHistory (by decide))
  have hsync : (t.updateRow id f).syncState = t.syncState := houtside .syncState (by decide)
  have hhealth : (t.updateRow id f).healthState = t.healthState :=
    houtside .healthState (by decide)
  have hindex : (t.updateRow id f).listIndex = t.listIndex := houtside .listIndex (by decide)
  refine ⟨hcommon, ?_⟩
  intro other
  simp only [slice, historyOf, lookup_updateRow, hlinks, hhistory, hsync, hhealth, hindex,
    List.mem_singleton]
  constructor
  · intro hother
    rw [if_pos hother]
  · intro hother
    rw [if_neg hother]

theorem changed_deleteRow (t : Tables) (id : Uuid) :
    Changed [id] (fun _ _ s' => s' = .empty) t (t.deleteRow id) := by
  refine ⟨⟨rfl, rfl, rfl, rfl⟩, ?_⟩
  intro other
  rw [List.mem_singleton]
  constructor
  · rintro rfl
    simp [slice, deleteRow, RecordSlice.empty, historyOf, List.filter_filter]
  · intro hother
    have hlinks : ∀ link : Uuid × Nat, (link.1 = other ∧ link.1 ≠ id) ↔ link.1 = other := by
      intro link
      constructor
      · exact And.left
      · rintro rfl
        exact ⟨rfl, hother⟩
    have hhistory : ∀ entry : Nat × HistoryRow,
        (entry.2.recordId = other ∧ entry.2.recordId ≠ id) ↔ entry.2.recordId = other := by
      intro entry
      constructor
      · exact And.left
      · intro h
        exact ⟨h, fun h' => hother (h.symm.trans h')⟩
    simp only [slice, deleteRow, historyOf, List.filter_filter, AList.lookup_erase_ne hother,
      ← Bool.decide_and, hlinks, hhistory]

theorem changed_eraseHealth (t : Tables) (id : Uuid) :
    Changed [id] (fun _ s s' => s' = { s with health := none }) t
      { t with healthState := t.healthState.erase id } := by
  refine ⟨⟨rfl, rfl, rfl, rfl⟩, ?_⟩
  intro other
  rw [List.mem_singleton]
  constructor
  · rintro rfl
    simp [slice, historyOf]
  · intro hother
    simp [slice, historyOf, AList.lookup_erase_ne hother]

/-- The row of a record that waits for its upload. -/
def pendingRow (now : Int) (row : Option SyncRow) : SyncRow where
  cloudUpdatedAt := row.bind SyncRow.cloudUpdatedAt
  localUpdatedAt := now
  syncStatus := .Pending
  conflictData := row.bind SyncRow.conflictData

theorem changed_upsertSyncState {f : Option SyncRow → SyncRow}
    (h : t.upsertSyncState id f = .ok t') :
    Changed [id] (fun _ s s' => s' = { s with sync := some (f s.sync) }) t t' := by
  rw [(referring_ok h).2]
  refine ⟨⟨rfl, rfl, rfl, rfl⟩, ?_⟩
  intro other
  rw [List.mem_singleton]
  constructor
  · rintro rfl
    simp [slice, historyOf]
  · intro hother
    simp [slice, historyOf, AList.lookup_insert_ne hother]

/-- A loop over different records. -/
theorem changed_foldl {f : Tables → Uuid → Tables} (hf : ∀ t id, Changed [id] R t (f t id))
    (hnodup : ids.Nodup) (t : Tables) : Changed ids R t (ids.foldl f t) := by
  suffices hgen : ∀ (rest done : List Uuid) (u : Tables), (done ++ rest).Nodup →
      Changed done R t u → Changed (done ++ rest) R t (rest.foldl f u) by
    exact hgen ids [] t hnodup (.refl R t)
  intro rest
  induction rest with
  | nil =>
      intro done u _ hdone
      rw [List.append_nil]
      exact hdone
  | cons id rest ih =>
      intro done u hnodup hdone
      have hid : id ∉ done := by
        intro hmem
        exact List.disjoint_of_nodup_append hnodup hmem List.mem_cons_self
      have happend : done ++ id :: rest = done ++ [id] ++ rest := by simp
      rw [happend] at hnodup ⊢
      exact ih (done ++ [id]) (f u id) hnodup (hdone.snoc hid (hf u id))

/-- The rows that an `UPDATE` or a `DELETE` of several records finds. -/
def hits (t : Tables) (ids : List Uuid) (selects : RecordRow → Bool) : List Uuid :=
  ids.dedup.filter fun id => (t.records.lookup id).any selects

theorem mem_hits {selects : RecordRow → Bool} :
    id ∈ t.hits ids selects ↔ id ∈ ids ∧ (t.slice id).row.any selects = true := by
  rw [hits, List.mem_filter, List.mem_dedup]
  rfl

theorem hits_nodup {selects : RecordRow → Bool} : (t.hits ids selects).Nodup :=
  (List.nodup_dedup ids).filter _

theorem changed_updateRows (t : Tables) (ids : List Uuid) (selects : RecordRow → Bool)
    (f : RecordRow → RecordRow) :
    Changed (t.hits ids selects) (fun _ s s' => s' = { s with row := s.row.map f }) t
      (t.updateRows ids selects f).2 :=
  changed_foldl (fun t id => changed_updateRow t id f) hits_nodup t

theorem changed_deleteRows (t : Tables) (ids : List Uuid) (selects : RecordRow → Bool) :
    Changed (t.hits ids selects) (fun _ _ s' => s' = .empty) t (t.deleteRows ids selects).2 :=
  changed_foldl changed_deleteRow hits_nodup t

end Steps

end Tables

end OakKeyring
