import OakKeyring.Vault.BatchTrash
import OakKeyring.Vault.HistoryRuns

/-!
# Emptying the trash of old records

The records whose time in the trash is over, by the clock as it is read after the trash is
listed, are destroyed one after the other. A statement that fails ends the work where it is.
-/

namespace OakKeyring

open Effect Pointwise

/-- The instant before which a record must have been deleted. -/
def retentionCutoff (time : DateTime) (retentionDays : Nat) : DateTime :=
  { time with seconds := time.seconds - retentionDays * secondsPerDay }

/-- A record in the trash that was put there before an instant. -/
def Tables.TrashedBefore (t : Tables) (cutoff : DateTime) (id : Uuid) : Prop :=
  ∃ row, t.records.lookup id = some row ∧ row.deleted = true ∧
    ∃ deletedAt, row.deletedAt = some deletedAt ∧
      Vault.isBefore (timestampToDatetime deletedAt) cutoff = true

/-- These records are gone, with their links, history and states, and all others are as they
were. -/
def Tables.Destroyed (ids : List Uuid) (t t' : Tables) : Prop :=
  ids.Nodup ∧ t.Changed ids (fun _ _ s' => s' = .empty) t'

variable {t u : Tables} {cutoff : DateTime} {id : Uuid}

theorem Tables.Destroyed.snoc {ids : List Uuid} (h : t.Destroyed ids u) (hid : id ∉ ids) :
    t.Destroyed (ids ++ [id]) (u.deleteRow id) where
  left := List.nodup_append.mpr ⟨h.1, List.nodup_singleton id, by
    intro a ha b hb
    rw [List.mem_singleton.mp hb]
    intro heq
    exact hid (heq ▸ ha)⟩
  right := h.2.snoc hid (Tables.changed_deleteRow u id)

/-- The records that are chosen of the list are those of the trash whose time is over. -/
theorem mem_expired_iff {records : List StoredRecord}
    (h : records.Perm (t.storedRecords.filter RecordQuery.deleted.selects)) :
    id ∈ (records.filter (Vault.trashExpired cutoff)).map StoredRecord.id ↔
      t.TrashedBefore cutoff id := by
  constructor
  -- what is returned is a stored row in the trash with an instant before the cutoff
  · intro hmem
    rcases List.mem_map.mp hmem with ⟨record, hrecord, hid⟩
    rcases List.mem_filter.mp hrecord with ⟨hlisted, hexpired⟩
    rcases List.mem_filter.mp (h.mem_iff.mp hlisted) with ⟨hstored, hdeleted⟩
    rcases Tables.mem_storedRecords hstored with ⟨row, hrow, heq⟩
    have hdeleted : record.deleted = true := hdeleted
    have hat : (row.deletedAt.map timestampToDatetime).any
        (fun deletedAt => Vault.isBefore deletedAt cutoff) = true := by
      have hexpired : record.deletedAt.any (fun deletedAt => Vault.isBefore deletedAt cutoff) =
        true := hexpired
      rw [heq] at hexpired
      exact hexpired
    rw [Option.any_map, Option.any_eq_true] at hat
    rw [← hid]
    refine ⟨row, hrow, ?_, hat⟩
    rw [heq] at hdeleted
    exact hdeleted
  -- such a row is listed, and its instant is compared
  · rintro ⟨row, hrow, hdeleted, deletedAt, hat, hbefore⟩
    have hentry : (⟨id, row⟩ : Sigma fun _ : Uuid => RecordRow) ∈ t.records.entries :=
      AList.mem_lookup_iff.mp hrow
    apply List.mem_map.mpr
    refine ⟨row.toStoredRecord id (t.tagsOf id), List.mem_filter.mpr ⟨?_, ?_⟩, rfl⟩
    · apply h.mem_iff.mpr
      exact List.mem_filter.mpr ⟨List.mem_map.mpr ⟨_, hentry, rfl⟩, hdeleted⟩
    · have hread : (row.toStoredRecord id (t.tagsOf id)).deletedAt =
          some (timestampToDatetime deletedAt) := congrArg (Option.map timestampToDatetime) hat
      unfold Vault.trashExpired
      rw [hread]
      exact hbefore

namespace Vault

/-- The loop, after the trash was listed and the clock read. -/
theorem wpe_destroyExpired (time : DateTime) (retentionDays : Nat) {t : Tables}
    {records : List StoredRecord}
    (hperm : records.Perm (t.storedRecords.filter RecordQuery.deleted.selects)) :
    wpe vaultEnv
      (fun count u => ∃ ids, count = ids.length ∧ t.Destroyed ids u ∧
        ∀ id, id ∈ ids ↔ t.TrashedBefore (retentionCutoff time retentionDays) id)
      (fun _ u => ∃ ids, t.Destroyed ids u ∧
        ∀ id ∈ ids, t.TrashedBefore (retentionCutoff time retentionDays) id)
      (do
        let expired := records.filter (trashExpired (retentionCutoff time retentionDays))
        List.forM expired fun record => query (.hardDeleteRecord record.id)
        return expired.length) t := by
  have hexpired : ∀ id, id ∈ (records.filter (trashExpired (retentionCutoff time retentionDays))).map
      StoredRecord.id ↔ t.TrashedBefore (retentionCutoff time retentionDays) id :=
    fun id => mem_expired_iff hperm
  have hnodup : ((records.filter (trashExpired (retentionCutoff time retentionDays))).map
      StoredRecord.id).Nodup := by
    have hall : (records.map StoredRecord.id).Nodup :=
      (trash_of_deleted hperm).nodup_iff.mpr Tables.hits_nodup
    exact hall.sublist (List.filter_sublist.map _)
  -- the invariant: exactly the records of the list so far are gone
  refine (wpe_bind _ _).mpr (wpe_mono ?_ (fun _ _ h => h) (wpe_forM
    (P := fun done u => t.Destroyed (done.map StoredRecord.id) u)
    ⟨List.nodup_nil, .refl _ t⟩ ?_))
  · intro _ u hdone
    exact ⟨_, (List.length_map _).symm, hdone, hexpired⟩
  · intro done record rest u hrest hdone
    have hrecords : records.filter (trashExpired (retentionCutoff time retentionDays)) =
      done ++ record :: rest := hrest
    have hid : record.id ∉ done.map StoredRecord.id := by
      rw [hrecords, List.map_append] at hnodup
      intro hmem
      exact List.disjoint_of_nodup_append hnodup hmem List.mem_cons_self
    have hchosen : ∀ id ∈ done.map StoredRecord.id,
        t.TrashedBefore (retentionCutoff time retentionDays) id := by
      intro id hmem
      rw [← hexpired, hrecords, List.map_append]
      exact List.mem_append_left _ hmem
    -- where a statement fails, the records before it are gone already
    refine wpe_query_of_run rfl (fun _ _ => ?_) fun _ => ⟨_, hdone, hchosen⟩
    rw [List.map_append]
    exact hdone.snoc hid

variable [Crypto]

/-- Destroyed are the records whose time in the trash is over by the clock as it was read, and
nothing else changes: all of them if the work ends well, some of them wherever it stops, and
none before the clock is read. -/
theorem wpe_cleanupExpiredTrash (v : VaultService) (retentionDays : Nat) (t : Tables) :
    wpe clockEnv
      (fun count s => ∃ time ids, s.2 = some time ∧ count = ids.length ∧ t.Destroyed ids s.1 ∧
        ∀ id, id ∈ ids ↔ t.TrashedBefore (retentionCutoff time retentionDays) id)
      (fun _ s => ∃ ids, t.Destroyed ids s.1 ∧ ∀ id ∈ ids, ∃ time, s.2 = some time ∧
        t.TrashedBefore (retentionCutoff time retentionDays) id)
      (cleanupExpiredTrash v retentionDays) (t, none) := by
  -- a failure before the clock is read
  have hstopped : ∃ ids, t.Destroyed ids t ∧ ∀ id ∈ ids, ∃ time, (none : Option DateTime) =
      some time ∧ t.TrashedBefore (retentionCutoff time retentionDays) id := by
    refine ⟨[], ⟨List.nodup_nil, .refl _ t⟩, ?_⟩
    intro id hid
    cases hid
  unfold cleanupExpiredTrash
  refine (wpe_bind _ _).mpr (wpe_requireUnlocked (fun _ => ?_) hstopped)
  refine (wpe_bind _ _).mpr (wpe_query_clock ?_ fun _ => hstopped)
  intro (expected : List StoredRecord) (records : List StoredRecord) u hrun hsame
  have hpair := Except.ok.inj hrun
  have hu : u = t := (congrArg Prod.snd hpair).symm
  have hperm : records.Perm (t.storedRecords.filter RecordQuery.deleted.selects) := by
    have hexpected : expected = t.storedRecords.filter RecordQuery.deleted.selects :=
      (congrArg Prod.fst hpair).symm
    have hlisted : records.Perm expected := hsame
    rwa [hexpected] at hlisted
  rw [hu]
  refine (wpe_bind _ _).mpr (wpe_now_clock fun time => ?_)
  refine wpe_mono ?_ ?_ (wpe_after_reading (wpe_destroyExpired time retentionDays hperm))
  · rintro count s ⟨⟨ids, hcount, hdestroyed, hids⟩, hread⟩
    exact ⟨time, ids, hread, hcount, hdestroyed, hids⟩
  · rintro e s ⟨⟨ids, hdestroyed, hids⟩, hread⟩
    exact ⟨ids, hdestroyed, fun id hid => ⟨time, hread, hids id hid⟩⟩

end Vault

end OakKeyring
