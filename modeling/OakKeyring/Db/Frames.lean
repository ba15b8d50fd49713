import OakKeyring.Db.Queries

/-!
# What an operation leaves alone

Each operation writes to a few tables, and the others are the same after it. The rows that the
`UPDATE` and `DELETE` statements do not select are the same as well.
-/

namespace OakKeyring

inductive Table
  | records
  | tags
  | recordTags
  | passwordHistory
  | syncState
  | metadata
  | healthState
  | listIndex
deriving DecidableEq, Repr

def Table.Rows : Table → Type
  | records => AList fun _ : Uuid => RecordRow
  | tags => (AList fun _ : Nat => String) × Nat
  | recordTags => List (Uuid × Nat)
  | passwordHistory => List (Nat × HistoryRow) × Nat
  | syncState => AList fun _ : Uuid => SyncRow
  | metadata => AList fun _ : String => String
  | healthState => AList fun _ : Uuid => HealthRow
  | listIndex => AList fun _ : Uuid => IndexRow

def Tables.rows (t : Tables) : (table : Table) → table.Rows
  | .records => t.records
  | .tags => (t.tags, t.lastTagId)
  | .recordTags => t.recordTags
  | .passwordHistory => (t.passwordHistory, t.lastHistoryId)
  | .syncState => t.syncState
  | .metadata => t.metadata
  | .healthState => t.healthState
  | .listIndex => t.listIndex

/-- The tables with rows that go with a record. -/
def Table.cascade : List Table :=
  [.records, .recordTags, .passwordHistory, .syncState, .healthState, .listIndex]

/-- The tables an operation may write to. -/
def DbOp.writes : DbOp → List Table
  | insertRecord _ => [.records, .tags, .recordTags]
  | updateRecord _ _ => [.records]
  | updateRecordVersion _ _ => [.records]
  | updateRecordDeletedState _ _ _ => [.records]
  | setFavorite _ _ => [.records]
  | softDeleteRecord _ _ => [.records]
  | restoreRecord _ => [.records]
  | hardDeleteRecord _ => Table.cascade
  | batchSoftDeleteRecords _ _ _ => [.records]
  | batchRestoreRecords _ => [.records]
  | batchHardDeleteRecords _ => Table.cascade
  | upsertRecordListIndex _ _ _ => [.listIndex]
  | clearRecordListIndex => [.listIndex]
  | getOrCreateTag _ => [.tags]
  | attachTag _ _ => [.recordTags]
  | detachAllTagsForRecord _ => [.recordTags]
  | renameTag _ _ => [.tags]
  | deleteTagByName _ => [.tags, .recordTags]
  | batchAddTag _ _ => [.tags, .recordTags]
  | batchRemoveTag _ _ => [.tags, .recordTags]
  | upsertSyncStatePending _ _ => [.syncState]
  | markSyncStateSynced _ _ => [.syncState]
  | markSyncStateConflict _ _ _ => [.syncState]
  | setMetadata _ _ => [.metadata]
  | deleteMetadata _ => [.metadata]
  | upsertRecordHealthState _ => [.healthState]
  | replaceRecordHealthStates _ => [.healthState]
  | deleteRecordHealthState _ => [.healthState]
  | deleteRecordHealthStates _ => [.healthState]
  | copyRecordHealthStateVersion _ _ => [.healthState]
  | deletePasswordHistoryEntry _ => [.passwordHistory]
  | insertPasswordHistory _ => [.passwordHistory]
  | _ => []

namespace Tables

/-- A sequence that succeeds is two steps that succeed. -/
theorem ok_of_bind {α β : Type} {x : Except SqliteError α} {f : α → Except SqliteError β} {b : β}
    (h : (x >>= f) = .ok b) : ∃ a, x = .ok a ∧ f a = .ok b := by
  cases x with
  | error e => cases h
  | ok a => exact ⟨a, rfl, h⟩

variable {t t' : Tables}

/-- Two states that differ in some tables only. -/
def Outside (written : List Table) (t t' : Tables) : Prop :=
  ∀ table, table ∉ written → t'.rows table = t.rows table

theorem Outside.refl (written : List Table) (t : Tables) : Outside written t t :=
  fun _ _ => rfl

theorem Outside.trans {written : List Table} {u : Tables} (h : Outside written t u)
    (h' : Outside written u t') : Outside written t t' := by
  intro table hout
  rw [h' table hout, h table hout]

theorem Outside.mono {written written' : List Table} (h : Outside written t t')
    (hsub : written ⊆ written') : Outside written' t t' :=
  fun table hout => h table fun hmem => hout (hsub hmem)

theorem Outside.foldl {α : Type} {written : List Table} {f : Tables → α → Tables}
    (hf : ∀ t a, Outside written t (f t a)) (as : List α) (t : Tables) :
    Outside written t (as.foldl f t) := by
  induction as generalizing t with
  | nil => exact .refl written t
  | cons a as ih => exact (hf t a).trans (ih (f t a))

theorem Outside.foldlM {α : Type} {written : List Table}
    {f : Tables → α → Except SqliteError Tables}
    (hf : ∀ t a t', f t a = .ok t' → Outside written t t') {as : List α}
    (h : as.foldlM f t = .ok t') : Outside written t t' := by
  induction as generalizing t with
  | nil =>
      cases h
      exact .refl written t'
  | cons a as ih =>
      rw [List.foldlM_cons] at h
      cases hstep : f t a with
      | error e =>
          rw [hstep] at h
          cases h
      | ok u =>
          rw [hstep] at h
          exact (hf t a u hstep).trans (ih h)

theorem outside_updateRow (t : Tables) (id : Uuid) (f : RecordRow → RecordRow) :
    Outside [.records] t (t.updateRow id f) := by
  intro table hout
  unfold updateRow
  cases t.records.lookup id with
  | none => rfl
  | some row => cases table <;> first | rfl | exact absurd List.mem_cons_self hout

/-- An `UPDATE` of one row changes that row, if it is there, and no other. -/
theorem lookup_updateRow (t : Tables) (id other : Uuid) (f : RecordRow → RecordRow) :
    (t.updateRow id f).records.lookup other =
      if other = id then (t.records.lookup other).map f else t.records.lookup other := by
  unfold updateRow
  by_cases heq : other = id
  · rw [if_pos heq, heq]
    cases hrow : t.records.lookup id with
    | none => exact hrow
    | some row => exact AList.lookup_insert _
  · rw [if_neg heq]
    cases hrow : t.records.lookup id with
    | none => rfl
    | some row => exact AList.lookup_insert_ne heq

theorem mem_updateRow (t : Tables) (id other : Uuid) (f : RecordRow → RecordRow) :
    other ∈ (t.updateRow id f).records ↔ other ∈ t.records := by
  rw [← AList.lookup_isSome, ← AList.lookup_isSome, lookup_updateRow]
  by_cases heq : other = id
  · rw [if_pos heq, Option.isSome_map]
  · rw [if_neg heq]

theorem lookup_deleteRow (t : Tables) (id other : Uuid) :
    (t.deleteRow id).records.lookup other =
      if other = id then none else t.records.lookup other := by
  by_cases heq : other = id
  · rw [if_pos heq, heq]
    exact AList.lookup_erase id _
  · rw [if_neg heq]
    exact AList.lookup_erase_ne heq

/-- A full scan meets every record once. -/
theorem mem_storedRecords {record : StoredRecord} (h : record ∈ t.storedRecords) :
    ∃ row, t.records.lookup record.id = some row ∧
      record = row.toStoredRecord record.id (t.tagsOf record.id) := by
  rcases List.mem_map.mp h with ⟨e, he, hvalue⟩
  have hid : record.id = e.1 := by rw [← hvalue]; rfl
  refine ⟨e.2, ?_, ?_⟩
  · rw [hid]
    exact AList.mem_lookup_iff.mpr he
  · rw [hid]
    exact hvalue.symm

theorem storedRecords_ids : t.storedRecords.map StoredRecord.id = t.records.keys := by
  unfold Tables.storedRecords AList.keys List.keys
  rw [List.map_map]
  rfl

theorem id_mem_storedRecords {id : Uuid} :
    id ∈ t.storedRecords.map StoredRecord.id ↔ id ∈ t.records := by
  rw [storedRecords_ids, AList.mem_keys]

theorem outside_deleteRow (t : Tables) (id : Uuid) :
    Outside Table.cascade t (t.deleteRow id) := by
  intro table hout
  cases table <;> first | rfl | exact absurd (by decide) hout

theorem outside_link (t : Tables) (id : Uuid) (tagId : Nat) :
    Outside [.recordTags] t (t.link id tagId) := by
  intro table hout
  unfold link
  by_cases hmem : (id, tagId) ∈ t.recordTags
  · rw [if_pos hmem]
  · rw [if_neg hmem]
    cases table <;> first | rfl | exact absurd List.mem_cons_self hout

theorem outside_addTag (t : Tables) (name : String) : Outside [.tags] t (t.addTag name) := by
  intro table hout
  cases table <;> first | rfl | exact absurd List.mem_cons_self hout

theorem referring_ok {α : Type} {t : Tables} {id : Uuid} {a b : α}
    (h : t.referring id a = .ok b) : id ∈ t.records ∧ b = a := by
  unfold referring at h
  by_cases hmem : id ∈ t.records
  · rw [if_pos hmem] at h
    cases h
    exact ⟨hmem, rfl⟩
  · rw [if_neg hmem] at h
    cases h

theorem outside_attachTag {id : Uuid} {tagId : Nat} (h : t.attachTag id tagId = .ok t') :
    Outside [.recordTags] t t' := by
  unfold attachTag at h
  split at h
  · cases h
    exact .refl _ t
  · split at h
    · cases h
      exact outside_link t id tagId
    · cases h

theorem outside_getOrCreateTag {name : String} {tag : Tag}
    (h : t.getOrCreateTag name = .ok (tag, t')) : Outside [.tags] t t' := by
  unfold getOrCreateTag at h
  split at h
  · cases h
    exact .refl _ t
  · split at h
    · cases h
      exact outside_addTag t name
    · cases h

theorem outside_insertRecordTag {id : Uuid} {name : String}
    (h : insertRecordTag id t name = .ok t') : Outside [.tags, .recordTags] t t' := by
  unfold insertRecordTag at h
  split at h
  · cases h
    exact (outside_link t id _).mono (by decide)
  · split at h
    · cases h
      exact ((outside_addTag t name).mono (by decide)).trans
        ((outside_link _ id _).mono (by decide))
    · cases h

/-- A new record: its row, and beyond `records` only tags and their links. -/
theorem insertRecord_ok {record : StoredRecord} (h : t.insertRecord record = .ok t') :
    record.id ∉ t.records ∧
      Outside [.tags, .recordTags]
        { t with records := t.records.insert record.id record.toRow } t' := by
  unfold insertRecord at h
  by_cases hmem : record.id ∈ t.records
  · rw [if_pos hmem] at h
    cases h
  · rw [if_neg hmem] at h
    exact ⟨hmem, Outside.foldlM (fun _ _ _ => outside_insertRecordTag) h⟩

theorem outside_insertRecord {record : StoredRecord} (h : t.insertRecord record = .ok t') :
    Outside [.records, .tags, .recordTags] t t' := by
  intro table hout
  have hrest := (insertRecord_ok h).2 table fun hmem => hout (List.mem_cons_of_mem _ hmem)
  rw [hrest]
  cases table <;> first | rfl | exact absurd List.mem_cons_self hout

/-- The optimistic update goes through exactly when the row has the expected version. -/
theorem updateRecord_cases (t : Tables) (record : StoredRecord) (version : Nat) :
    (∃ row, t.records.lookup record.id = some row ∧ row.version = version ∧
      t.updateRecord record version = (true, t.updateRow record.id (updatedRow record))) ∨
    (∀ row, t.records.lookup record.id = some row → row.version ≠ version) ∧
      t.updateRecord record version = (false, t) := by
  unfold updateRecord
  cases hrow : t.records.lookup record.id with
  | none =>
      refine Or.inr ⟨?_, rfl⟩
      intro row hsome
      cases hsome
  | some row =>
      by_cases hversion : row.version = version
      · refine Or.inl ⟨row, rfl, hversion, ?_⟩
        exact if_pos hversion
      · refine Or.inr ⟨?_, if_neg hversion⟩
        intro row' hsome
        cases hsome
        exact hversion

theorem outside_updateRecord {record : StoredRecord} {v : Nat} :
    Outside [.records] t (t.updateRecord record v).2 := by
  rcases updateRecord_cases t record v with ⟨row, -, -, hdone⟩ | ⟨-, hmissed⟩
  · rw [hdone]
    exact outside_updateRow t _ _
  · rw [hmissed]
    exact .refl _ t

theorem outside_renameTag {oldName newName : String} {b : Bool}
    (h : t.renameTag oldName newName = .ok (b, t')) : Outside [.tags] t t' := by
  unfold renameTag at h
  split at h
  · cases h
    exact .refl _ t
  · split at h
    · cases h
    · split at h
      · cases h
      · cases h
        intro table hout
        cases table <;> first | rfl | exact absurd List.mem_cons_self hout

theorem outside_deleteTag (t : Tables) (tagId : Nat) :
    Outside [.tags, .recordTags] t (t.deleteTag tagId) := by
  intro table hout
  cases table <;> first | rfl | exact absurd (by decide) hout

theorem outside_deleteTagByName (t : Tables) (name : String) :
    Outside [.tags, .recordTags] t (t.deleteTagByName name).2 := by
  unfold deleteTagByName
  split
  · exact .refl _ t
  · exact outside_deleteTag t _

theorem outside_batchAddTag {ids : List Uuid} {name : String} {n : Nat}
    (h : t.batchAddTag ids name = .ok (n, t')) : Outside [.tags, .recordTags] t t' := by
  rcases ok_of_bind h with ⟨⟨tag, u⟩, htag, hloop⟩
  have hfirst : Outside [.tags, .recordTags] t u := (outside_getOrCreateTag htag).mono (by decide)
  suffices hgen : ∀ (ids : List Uuid) (acc : Nat × Tables),
      ids.foldlM
        (fun (acc : Nat × Tables) id => do
          let after ← acc.2.attachTag id tag.id
          let more := if acc.2.countRecordTags id < after.countRecordTags id then 1 else 0
          return (acc.1 + more, after)) acc = .ok (n, t') →
      Outside [.tags, .recordTags] acc.2 t' by
    exact hfirst.trans (hgen ids (0, u) hloop)
  intro ids
  induction ids with
  | nil =>
      intro acc hend
      cases hend
      exact .refl _ t'
  | cons id ids ih =>
      intro acc hend
      rw [List.foldlM_cons] at hend
      rcases ok_of_bind hend with ⟨next, hnext, hrest⟩
      rcases ok_of_bind hnext with ⟨after, hattach, hvalue⟩
      cases hvalue
      have hstep : Outside [.tags, .recordTags] acc.2 after :=
        (outside_attachTag hattach).mono (by decide)
      exact hstep.trans (ih _ hrest)

theorem outside_batchRemoveTag (t : Tables) (ids : List Uuid) (name : String) :
    Outside [.tags, .recordTags] t (t.batchRemoveTag ids name).2 := by
  unfold batchRemoveTag
  split
  · exact .refl _ t
  · rename_i tag htag
    have hloop : ∀ (ids : List Uuid) (acc : Nat × Tables),
        Outside [.tags, .recordTags] acc.2
          (ids.foldl
            (fun (acc : Nat × Tables) id =>
              let after := { acc.2 with
                recordTags := acc.2.recordTags.filter fun l => l ≠ (id, tag.id) }
              let less := if after.countRecordTags id < acc.2.countRecordTags id then 1 else 0
              (acc.1 + less, after)) acc).2 := by
      intro ids
      induction ids with
      | nil => exact fun acc => .refl _ acc.2
      | cons id ids ih =>
          intro acc
          have hstep : Outside [.tags, .recordTags] acc.2
              { acc.2 with recordTags := acc.2.recordTags.filter fun l => l ≠ (id, tag.id) } := by
            intro table hout
            cases table <;> first | rfl | exact absurd (by decide) hout
          exact hstep.trans (ih _)
    have hall := hloop ids (0, t)
    -- the tag goes when no link to it is left
    dsimp only
    split
    · exact hall.trans (outside_deleteTag _ tag.id)
    · exact hall

theorem outside_upsertSyncState {id : Uuid} {f : Option SyncRow → SyncRow}
    (h : t.upsertSyncState id f = .ok t') : Outside [.syncState] t t' := by
  rw [(referring_ok h).2]
  intro table hout
  cases table <;> first | rfl | exact absurd List.mem_cons_self hout

theorem outside_upsertHealth {state : RecordHealthState} (h : t.upsertHealth state = .ok t') :
    Outside [.healthState] t t' := by
  rw [(referring_ok h).2]
  intro table hout
  cases table <;> first | rfl | exact absurd List.mem_cons_self hout

theorem outside_insertHealth {state : RecordHealthState} (h : t.insertHealth state = .ok t') :
    Outside [.healthState] t t' := by
  unfold insertHealth at h
  split at h
  · cases h
  · exact outside_upsertHealth h

end Tables

open Tables

/-- What an operation does not write is as before. -/
theorem DbOp.outside_run {op : DbOp} {t t' : Tables} {result : op.Result}
    (h : op.run t = .ok (result, t')) : Tables.Outside op.writes t t' := by
  cases op with
  | insertRecord record =>
      rcases ok_of_bind h with ⟨u, hu, hvalue⟩
      cases hvalue
      exact outside_insertRecord hu
  | updateRecord record expectedVersion =>
      have hend : t.updateRecord record expectedVersion = (result, t') := Except.ok.inj h
      have hafter : Outside [.records] t (t.updateRecord record expectedVersion).2 :=
        outside_updateRecord
      rw [hend] at hafter
      exact hafter
  | updateRecordVersion id version =>
      cases h
      exact outside_updateRow t id _
  | updateRecordDeletedState id deleted deletedAt =>
      cases h
      exact outside_updateRow t id _
  | setFavorite id isFavorite =>
      cases h
      exact outside_updateRow t id _
  | softDeleteRecord id now =>
      cases h
      exact outside_updateRow t id _
  | restoreRecord id =>
      cases h
      exact outside_updateRow t id _
  | hardDeleteRecord id =>
      cases h
      exact outside_deleteRow t id
  | batchSoftDeleteRecords ids deletedBy now =>
      cases h
      exact Outside.foldl (fun t id => outside_updateRow t id _) _ t
  | batchRestoreRecords ids =>
      cases h
      exact Outside.foldl (fun t id => outside_updateRow t id _) _ t
  | batchHardDeleteRecords ids =>
      cases h
      exact Outside.foldl outside_deleteRow _ t
  | upsertRecordListIndex id name subtitle =>
      rcases ok_of_bind h with ⟨u, hu, hvalue⟩
      cases hvalue
      rw [(referring_ok hu).2]
      intro table hout
      cases table <;> first | rfl | exact absurd List.mem_cons_self hout
  | getOrCreateTag name => exact outside_getOrCreateTag h
  | attachTag id tagId =>
      rcases ok_of_bind h with ⟨u, hu, hvalue⟩
      cases hvalue
      exact outside_attachTag hu
  | renameTag oldName newName => exact outside_renameTag h
  | deleteTagByName name =>
      have hend : t.deleteTagByName name = (result, t') := Except.ok.inj h
      have hafter := outside_deleteTagByName t name
      rw [hend] at hafter
      exact hafter
  | batchAddTag ids name => exact outside_batchAddTag h
  | batchRemoveTag ids name =>
      have hend : t.batchRemoveTag ids name = (result, t') := Except.ok.inj h
      have hafter := outside_batchRemoveTag t ids name
      rw [hend] at hafter
      exact hafter
  | upsertSyncStatePending id now =>
      rcases ok_of_bind h with ⟨u, hu, hvalue⟩
      cases hvalue
      exact outside_upsertSyncState hu
  | markSyncStateSynced id now =>
      rcases ok_of_bind h with ⟨u, hu, hvalue⟩
      cases hvalue
      exact outside_upsertSyncState hu
  | markSyncStateConflict id conflictData now =>
      rcases ok_of_bind h with ⟨u, hu, hvalue⟩
      cases hvalue
      exact outside_upsertSyncState hu
  | upsertRecordHealthState state =>
      rcases ok_of_bind h with ⟨u, hu, hvalue⟩
      cases hvalue
      exact outside_upsertHealth hu
  | replaceRecordHealthStates states =>
      rcases ok_of_bind h with ⟨u, hu, hvalue⟩
      cases hvalue
      have hclear : Outside [.healthState] t { t with healthState := ∅ } := by
        intro table hout
        cases table <;> first | rfl | exact absurd List.mem_cons_self hout
      exact hclear.trans (Outside.foldlM (fun _ _ _ => outside_insertHealth) hu)
  | copyRecordHealthStateVersion id version =>
      cases hrow : t.healthState.lookup id with
      | none =>
          simp only [run, hrow] at h
          cases h
          exact .refl _ t
      | some row =>
          simp only [run, hrow] at h
          cases h
          intro table hout
          cases table <;> first | rfl | exact absurd List.mem_cons_self hout
  | insertPasswordHistory entry =>
      rcases ok_of_bind h with ⟨u, hu, hvalue⟩
      cases hvalue
      rw [(referring_ok hu).2]
      intro table hout
      cases table <;> first | rfl | exact absurd List.mem_cons_self hout
  | _ =>
      -- the other statements write one table or none
      cases h
      intro table hout
      cases table <;> first | rfl | exact absurd List.mem_cons_self hout

end OakKeyring
