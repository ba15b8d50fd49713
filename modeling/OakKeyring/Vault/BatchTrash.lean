import OakKeyring.Vault.BatchSpec

/-!
# Restoring and destroying many records

The ids are reduced to the records of the trash that can be read, with their names. Entries and
marks are for these only; the statement is for all ids.
-/

namespace OakKeyring

open Effect Pointwise

section Names

variable [Crypto] {v : VaultService} {t : Tables} {ids unread : List Uuid} {id : Uuid}

/-- A record in the trash and the name for its entry, unless it was not read. -/
def trashName (v : VaultService) (t : Tables) (unread : List Uuid) (id : Uuid) :
    Option (Uuid × String) :=
  if id ∈ unread then none
  else
    (t.slice id).row.bind fun row =>
      if row.deleted then some (id, rowAuditName v id row) else none

theorem trashName_eq_some {entry : Uuid × String} :
    trashName v t unread id = some entry ↔
      id ∉ unread ∧ ∃ row, (t.slice id).row = some row ∧ row.deleted = true ∧
        entry = (id, rowAuditName v id row) := by
  unfold trashName
  by_cases hread : id ∈ unread
  · simp [hread]
  · rw [if_neg hread, Option.bind_eq_some_iff]
    constructor
    · rintro ⟨row, hrow, hentry⟩
      cases hdeleted : row.deleted with
      | false => simp [hdeleted] at hentry
      | true =>
          simp only [hdeleted, if_true] at hentry
          exact ⟨hread, row, hrow, hdeleted, (Option.some.inj hentry).symm⟩
    · rintro ⟨-, row, hrow, hdeleted, rfl⟩
      exact ⟨row, hrow, by simp [hdeleted]⟩

/-- The records that get an entry. -/
theorem mem_trashNames :
    id ∈ (ids.filterMap (trashName v t unread)).map Prod.fst ↔
      id ∈ ids ∧ id ∉ unread ∧ (t.slice id).row.any RecordRow.deleted = true := by
  rw [List.mem_map]
  constructor
  · rintro ⟨entry, hentry, rfl⟩
    rcases List.mem_filterMap.mp hentry with ⟨other, hother, hname⟩
    rcases trashName_eq_some.mp hname with ⟨hread, row, hrow, hdeleted, rfl⟩
    exact ⟨hother, hread, by simp [hrow, hdeleted]⟩
  · rintro ⟨hid, hread, hdeleted⟩
    rcases (Option.any_eq_true _ _).mp hdeleted with ⟨row, hrow, hgone⟩
    refine ⟨(id, rowAuditName v id row), ?_, rfl⟩
    exact List.mem_filterMap.mpr ⟨id, hid, trashName_eq_some.mpr ⟨hread, row, hrow, hgone, rfl⟩⟩

theorem trashNames_nodup (hnodup : ids.Nodup) :
    ((ids.filterMap (trashName v t unread)).map Prod.fst).Nodup := by
  have hsub : (ids.filterMap (trashName v t unread)).map Prod.fst =
      ids.filter fun id => (trashName v t unread id).isSome := by
    induction ids with
    | nil => rfl
    | cons id ids ih =>
        have ih := ih (List.nodup_cons.mp hnodup).2
        cases hname : trashName v t unread id with
        | none => simp [hname, ih]
        | some entry =>
            rcases trashName_eq_some.mp hname with ⟨-, row, -, -, rfl⟩
            simp [hname, ih]
  rw [hsub]
  exact hnodup.filter _

/-- The entry of a record that was read. -/
def trashEntry (v : VaultService) : Uuid × Except VaultError StoredRecord →
    Option (Uuid × String)
  | (id, .ok stored) =>
      if stored.deleted then some (id, Vault.auditName v (.ok stored)) else none
  | (_, .error _) => none

theorem deletedWithNames_eq :
    Vault.deletedWithNames v ids = (do
      let found ← ids.mapM fun id => do
        let record ← Fallible.attempt (Vault.getStoredRecord id)
        return (id, record)
      return found.filterMap (trashEntry v)) := by
  refine congrArg (fun (f : Uuid × Except VaultError StoredRecord → Option (Uuid × String)) =>
    (do
      let found ← ids.mapM fun id => do
        let record ← Fallible.attempt (Vault.getStoredRecord id)
        return (id, record)
      return found.filterMap f : VaultM (List (Uuid × String)))) ?_
  funext entry
  rcases entry with ⟨id, _ | stored⟩ <;> rfl

/-- The names are those of the records in the trash that were read. -/
theorem wpe_noted_names (hnodup : ids.Nodup) :
    wpe (observing vaultEnv RunNotes.note)
      (fun names s => s.1 = t ∧ s.2.stopped = false ∧ s.2.done = [] ∧
        names = ids.filterMap (trashName v t s.2.unread))
      (fun _ _ => False) (Vault.deletedWithNames v ids) (t, .start) := by
  rw [deletedWithNames_eq]
  refine (wpe_bind _ _).mpr (wpe_mono ?_ (fun _ _ h => h) (wpe_mapM
    (P := fun done found (s : Tables × RunNotes) => s.1 = t ∧ s.2.stopped = false ∧
      s.2.done = [] ∧ s.2.unread ⊆ done ∧
      found.filterMap (trashEntry v) = done.filterMap (trashName v t s.2.unread))
    ⟨rfl, rfl, rfl, List.Subset.refl _, rfl⟩ ?_))
  · rintro found s ⟨ht, hgoing, hdone, -, hnames⟩
    exact ⟨ht, hgoing, hdone, hnames⟩
  -- the names found so far are those of the ids read so far
  · rintro done id rest found ⟨u, m⟩ hids ⟨hu, hgoing, hdone, hunread, hnames⟩
    have hid : id ∉ done := by
      intro hmem
      rw [hids] at hnodup
      exact List.disjoint_of_nodup_append hnodup hmem List.mem_cons_self
    have hnew : id ∉ m.unread := fun hmem => hid (hunread hmem)
    have hu : u = t := hu
    have hnames : found.filterMap (trashEntry v) = done.filterMap (trashName v t m.unread) := hnames
    subst hu
    refine (wpe_bind _ _).mpr (wpe_noted_read ?_ ?_ ?_)
    -- the row is read, and its name is noted
    · intro row hrow
      refine ⟨rfl, hgoing, hdone, ?_, ?_⟩
      · exact List.Subset.trans hunread (List.subset_append_left _ _)
      · have hname : trashEntry v (id, .ok (row.toStoredRecord id (u.tagsOf id))) =
            trashName v u m.unread id := by
          rw [trashName, if_neg hnew, hrow]
          rfl
        rw [List.filterMap_append, List.filterMap_append, hnames]
        simp only [List.filterMap_cons, List.filterMap_nil, hname]
    -- there is no row of that id
    · intro hrow
      refine ⟨rfl, hgoing, hdone, ?_, ?_⟩
      · exact List.Subset.trans hunread (List.subset_append_left _ _)
      · have hname : trashName v u m.unread id = none := by
          rw [trashName, if_neg hnew, hrow]
          rfl
        rw [List.filterMap_append, List.filterMap_append, hnames]
        simp [hname, trashEntry]
    -- the read faults, and the id counts as unread
    · intro e
      refine ⟨rfl, hgoing, hdone, ?_, ?_⟩
      · intro other hother
        rcases List.mem_append.mp hother with hold | hlast
        · exact List.mem_append_left _ (hunread hold)
        · exact List.mem_append_right _ hlast
      · have hname : trashName v u (m.unread ++ [id]) id = none := by simp [trashName]
        have hothers : done.filterMap (trashName v u (m.unread ++ [id])) =
            done.filterMap (trashName v u m.unread) := by
          apply List.filterMap_congr
          intro other hother
          have hne : other ≠ id := fun heq => hid (heq ▸ hother)
          simp [trashName, hne]
        rw [List.filterMap_append, List.filterMap_append, hnames, hothers]
        simp [hname, trashEntry]

omit [Crypto] in
/-- One entry for each name; a failure stops the run after the statement before them. -/
theorem wpe_noted_entries {u : Tables} {m : RunNotes} {op : DbOp} (kind : TrashOp)
    (names : List (Uuid × String)) (hgoing : m.stopped = false) (hdone : m.done = [op])
    (haudit : auditsOf [op] = []) (hmoved : names ≠ [] → ¬ Tables.Same t u) :
    wpe (observing vaultEnv RunNotes.note)
      (fun _ s => s.1 = u ∧ s.2.stopped = false ∧ s.2.unread = m.unread ∧
        auditsOf s.2.done = names.map fun entry => kind.audit entry.1 entry.2)
      (fun _ s => Stopped RunNotes.Unwritten t s.1 s.2) (Vault.auditEach kind.operation names) (u, m) := by
  refine wpe_mono ?_ (fun _ _ h => h) (wpe_forM (P := fun done (s : Tables × RunNotes) =>
    s.1 = u ∧ s.2.stopped = false ∧ s.2.unread = m.unread ∧
      auditsOf s.2.done = (done.map fun entry => kind.audit entry.1 entry.2) ∧
      s.2.done ≠ []) ⟨rfl, hgoing, rfl, ?_, ?_⟩ ?_)
  · rintro _ s ⟨hu, hgoing, hunread, haudits, -⟩
    exact ⟨hu, hgoing, hunread, haudits⟩
  · rw [hdone]
    exact haudit
  · rw [hdone]
    exact List.cons_ne_nil _ _
  · rintro done ⟨id, name⟩ rest ⟨u', m'⟩ rfl ⟨hu, hgoing', hunread, haudits, hwritten⟩
    have hu : u' = u := hu
    have haudits : auditsOf m'.done = done.map fun entry => kind.audit entry.1 entry.2 := haudits
    subst hu
    refine wpe_noted_audit ⟨rfl, hgoing', hunread, ?_, ?_⟩ ?_
    · dsimp only
      rw [auditsOf_append, haudits, List.map_append]
      rfl
    · exact List.append_ne_nil_of_right_ne_nil _ (List.cons_ne_nil _ _)
    · intro _
      -- there is an entry to write, so the statement has changed a record
      have hchanged : ¬ Tables.Same t u' := hmoved (by simp)
      exact stopped_late rfl (fun h => hchanged h.1) hwritten

end Names

/-! ## The operations on a list -/

section Batches

variable [Crypto] {v : VaultService} {t : Tables} {ids : List Uuid}

/-- The row that a restoring leaves. -/
def restoredRow (row : RecordRow) : RecordRow :=
  { row with
    deleted := false
    deletedAt := none }

/-- What the restoring of many records makes of one; a record that was not read is not marked. -/
def BatchRestored (unread : List Uuid) (id : Uuid) (s s' : RecordSlice) : Prop :=
  ∃ markedAt, s' =
    { s with
      row := s.row.map restoredRow
      sync := if id ∈ unread then s.sync else some (Tables.pendingRow markedAt s.sync) }

/-- The entries for the records of the trash. -/
def trashAudits (kind : TrashOp) (v : VaultService) (t : Tables) (ids unread : List Uuid) :
    List AuditNote :=
  (ids.filterMap (trashName v t unread)).map fun entry => kind.audit entry.1 entry.2

/-- A record that gets an entry has been changed, if the statement changes what is in the trash. -/
theorem moved_of_names {u : Tables} {unread : List Uuid} {R : Uuid → RecordSlice → RecordSlice → Prop}
    (hchanged : Tables.Changed (t.hits ids RecordRow.deleted) R t u)
    (hmoves : ∀ id row s', (t.slice id).row = some row → row.deleted = true →
      R id (t.slice id) s' → s' ≠ t.slice id)
    (hnames : ids.filterMap (trashName v t unread) ≠ []) : ¬ Tables.Same t u := by
  rcases List.exists_mem_of_ne_nil _ hnames with ⟨entry, hentry⟩
  rcases List.mem_filterMap.mp hentry with ⟨id, hid, hname⟩
  rcases trashName_eq_some.mp hname with ⟨-, row, hrow, hdeleted, -⟩
  have hhit : id ∈ t.hits ids RecordRow.deleted := by
    apply Tables.mem_hits.mpr
    simp [hid, hrow, hdeleted]
  exact Tables.not_same_of_moved id
    (hmoves id row _ hrow hdeleted (hchanged.2.related hhit))

/-- The marks of the restored records that could be read, as a change of all that were restored. -/
theorem changed_restoredMarks {u w : Tables} {unread : List Uuid}
    (h : Tables.Changed ((ids.filterMap (trashName v t unread)).map Prod.fst)
      (fun _ s s' => ∃ markedAt,
        s' = { s with sync := some (Tables.pendingRow markedAt s.sync) }) u w) :
    Tables.Changed (t.hits ids RecordRow.deleted)
      (fun id s s' => ∃ markedAt,
        s' = { s with sync := if id ∈ unread then s.sync
                              else some (Tables.pendingRow markedAt s.sync) }) u w := by
  have hsub : (ids.filterMap (trashName v t unread)).map Prod.fst ⊆
      t.hits ids RecordRow.deleted := by
    intro id hid
    have hmem := mem_trashNames.mp hid
    exact Tables.mem_hits.mpr ⟨hmem.1, hmem.2.2⟩
  refine ⟨h.1, (h.2.mono ?_).extend hsub ?_⟩
  · rintro id hid ⟨markedAt, hend⟩
    exact ⟨markedAt, by rw [hend, if_neg (mem_trashNames.mp hid).2.1]⟩
  -- a restored record without a mark could not be read
  · intro id hid hout
    have hmem : id ∈ unread := by
      by_contra hread
      have hhit := Tables.mem_hits.mp hid
      exact hout (mem_trashNames.mpr ⟨hhit.1, hread, hhit.2⟩)
    exact ⟨0, by rw [if_pos hmem]⟩

theorem wpe_batchRestore (hopen : v.crypto.isUnlocked = true) (hnodup : ids.Nodup) :
    wpe (observing vaultEnv RunNotes.note)
      (fun n s => s.2.stopped = false ∧ n = (t.hits ids RecordRow.deleted).length ∧
        auditsOf s.2.done = trashAudits .restore v t ids s.2.unread ∧
        Tables.Changed (t.hits ids RecordRow.deleted) (BatchRestored s.2.unread) t s.1)
      (fun _ s => Stopped RunNotes.Unwritten t s.1 s.2) (Vault.batchRestore v ids) (t, .start) := by
  unfold Vault.batchRestore
  refine (wpe_bind _ _).mpr (wpe_open hopen ?_)
  by_cases hnone : ids = []
  · subst hnone
    exact ⟨rfl, rfl, rfl, .refl _ t⟩
  rw [if_neg hnone]
  refine (wpe_bind _ _).mpr (wpe_mono ?_ (fun _ _ h => h.elim) (wpe_noted_names hnodup))
  rintro names ⟨t', m⟩ ⟨ht, hgoing, hdone, hnames⟩
  have ht : t' = t := ht
  have hdone : m.done = [] := hdone
  subst ht
  refine (wpe_bind _ _).mpr (wpe_noted_query ?_ fun e => stopped_at_once rfl hdone hdone)
  intro expected (affected : Nat) u hrun hsame
  have haffected : affected = expected := hsame
  subst haffected
  have hupdate : (affected, u) = t'.updateRows ids RecordRow.deleted restoredRow :=
    (Except.ok.inj hrun).symm
  have hcount : affected = (t'.hits ids RecordRow.deleted).length := congrArg Prod.fst hupdate
  have hchanged := Tables.changed_updateRows t' ids RecordRow.deleted restoredRow
  rw [← hupdate] at hchanged
  -- the update is the first statement of the run
  have hfirst : (m.did (.batchRestoreRecords ids)).done = [.batchRestoreRecords ids] :=
    congrArg (· ++ [DbOp.batchRestoreRecords ids]) hdone
  have hmoved : names ≠ [] → ¬ Tables.Same t' u := by
    rw [show names = _ from hnames]
    refine moved_of_names hchanged ?_
    -- a row that the update hits is live afterwards
    rintro id row _ hrow hdeleted rfl heq
    have hlive := congrArg (fun s : RecordSlice => s.row.map RecordRow.deleted) heq
    simp [hrow, restoredRow, hdeleted] at hlive
  refine (wpe_bind _ _).mpr (wpe_mono ?_ (fun _ _ h => h)
    (wpe_noted_entries .restore names hgoing hfirst rfl hmoved))
  rintro _ ⟨u', m'⟩ ⟨hu, hgoing', hunread, haudits⟩
  have hu : u' = u := hu
  have hunread : m'.unread = m.unread := hunread
  have hnames : names = ids.filterMap (trashName v t' m'.unread) := by
    rw [hunread]
    exact hnames
  subst hu
  -- the sync marks are written only if the update hit a row
  by_cases hfew : 0 < affected
  · rw [if_pos hfew]
    have hwritten : names.map Prod.fst ≠ [] → auditsOf m'.done ≠ [] := by
      intro hsome hnil
      have haudits : auditsOf m'.done = _ := haudits
      rw [haudits, List.map_eq_nil_iff] at hnil
      rw [hnil] at hsome
      exact hsome rfl
    have hdifferent : (names.map Prod.fst).Nodup := by
      rw [hnames]
      exact trashNames_nodup hnodup
    refine (wpe_bind _ _).mpr (wpe_mono ?_
      (fun _ _ h => stopped_audited h.1 h.2 (written_of_audited h.2))
      (wpe_noted_marks hdifferent hgoing' hwritten))
    rintro _ ⟨w, m''⟩ ⟨hgoing'', hunread', haudits', -, hmarked⟩
    have hunread' : m''.unread = m'.unread := hunread'
    have haudits' : auditsOf m''.done = auditsOf m'.done := haudits'
    refine ⟨hgoing'', hcount, ?_, ?_⟩
    · rw [haudits', hunread', trashAudits, ← hnames]
      exact haudits
    · dsimp only
      rw [hunread']
      rw [hnames] at hmarked
      apply (hchanged.trans (changed_restoredMarks hmarked)).mono
      rintro id _ ⟨_, rfl, markedAt, hend⟩
      exact ⟨markedAt, hend⟩
  -- without a hit the rows are as they were
  · rw [if_neg hfew]
    have hzero : t'.hits ids RecordRow.deleted = [] := by
      rw [← List.length_eq_zero_iff, ← hcount]
      omega
    refine ⟨hgoing', hcount, ?_, ?_⟩
    · rw [trashAudits, ← hnames]
      exact haudits
    · rw [hzero] at hchanged ⊢
      exact hchanged.mono fun _ h => absurd h List.not_mem_nil

theorem wpe_batchHardDelete (hopen : v.crypto.isUnlocked = true) (hnodup : ids.Nodup) :
    wpe (observing vaultEnv RunNotes.note)
      (fun n s => s.2.stopped = false ∧ n = (t.hits ids RecordRow.deleted).length ∧
        auditsOf s.2.done = trashAudits .hardDelete v t ids s.2.unread ∧
        Tables.Changed (t.hits ids RecordRow.deleted) (fun _ _ s' => s' = .empty) t s.1)
      (fun _ s => Stopped RunNotes.Unwritten t s.1 s.2) (Vault.batchHardDelete v ids) (t, .start) := by
  unfold Vault.batchHardDelete
  refine (wpe_bind _ _).mpr (wpe_open hopen ?_)
  by_cases hnone : ids = []
  · subst hnone
    exact ⟨rfl, rfl, rfl, .refl _ t⟩
  rw [if_neg hnone]
  refine (wpe_bind _ _).mpr (wpe_mono ?_ (fun _ _ h => h.elim) (wpe_noted_names hnodup))
  rintro names ⟨t', m⟩ ⟨ht, hgoing, hdone, hnames⟩
  have ht : t' = t := ht
  have hdone : m.done = [] := hdone
  subst ht
  refine (wpe_bind _ _).mpr (wpe_noted_query ?_ fun e => stopped_at_once rfl hdone hdone)
  intro expected (affected : Nat) u hrun hsame
  have haffected : affected = expected := hsame
  subst haffected
  have hdelete : (affected, u) = t'.deleteRows ids RecordRow.deleted := (Except.ok.inj hrun).symm
  have hcount : affected = (t'.hits ids RecordRow.deleted).length := congrArg Prod.fst hdelete
  have hchanged := Tables.changed_deleteRows t' ids RecordRow.deleted
  rw [← hdelete] at hchanged
  -- the delete is the first statement of the run
  have hfirst : (m.did (.batchHardDeleteRecords ids)).done = [.batchHardDeleteRecords ids] :=
    congrArg (· ++ [DbOp.batchHardDeleteRecords ids]) hdone
  have hmoved : names ≠ [] → ¬ Tables.Same t' u := by
    rw [show names = _ from hnames]
    refine moved_of_names hchanged ?_
    -- a row that the delete hits is gone afterwards
    rintro id row _ hrow - rfl heq
    rw [← heq] at hrow
    cases hrow
  refine (wpe_bind _ _).mpr (wpe_mono ?_ (fun _ _ h => h)
    (wpe_noted_entries .hardDelete names hgoing hfirst rfl hmoved))
  rintro _ ⟨u', m'⟩ ⟨hu, hgoing', hunread, haudits⟩
  have hu : u' = u := hu
  have hunread : m'.unread = m.unread := hunread
  subst hu
  refine ⟨hgoing', hcount, ?_, hchanged⟩
  dsimp only
  rw [trashAudits, hunread, ← hnames]
  exact haudits

end Batches

/-! ## Emptying the trash -/

section Emptying

variable [Crypto] {v : VaultService} {t u : Tables} {m : RunNotes}

omit [Crypto] in
/-- Records were destroyed one by one, or none was. -/
theorem stopped_destroyed {done : List Uuid} (hstopped : m.stopped = true)
    (hdone : m.done = done.map .hardDeleteRecord)
    (hrows : ∀ id ∈ done, (t.slice id).row.isSome = true)
    (hchanged : Tables.Changed done (fun _ _ s' => s' = .empty) t u) :
    Stopped RunNotes.Unwritten t u m := by
  cases done with
  | nil =>
      refine ⟨hstopped, fun _ => hdone, fun _ => ⟨⟨hchanged.1, hchanged.2.of_nil⟩, ?_⟩⟩
      rw [hdone]
      rfl
  | cons id done =>
      -- the record that was destroyed is missed
      have hmissed : ¬ Tables.Same t u := by
        apply Tables.not_same_of_moved id
        rw [hchanged.2.related List.mem_cons_self]
        intro hsame
        have hrow := hrows id List.mem_cons_self
        rw [← hsame] at hrow
        cases hrow
      refine stopped_late hstopped (fun h => hmissed h.1) ?_
      intro hnone
      have hnone : m.done = [] := hnone
      rw [hnone] at hdone
      cases hdone

/-- The records in the trash. -/
def Tables.trash (t : Tables) : List Uuid :=
  t.hits t.records.keys RecordRow.deleted

/-- The entry of `empty_trash`. -/
def emptiedAudit (count : Nat) : AuditNote where
  operation := .TrashEmpty
  recordId := none
  recordName := none
  detail := some s!"permanently deleted {count} record(s)"

omit [Crypto] in
/-- The list of the deleted records is the trash. -/
theorem trash_of_deleted {records : List StoredRecord}
    (h : records.Perm (t.storedRecords.filter RecordQuery.deleted.selects)) :
    (records.map StoredRecord.id).Perm t.trash := by
  have hids : (t.storedRecords.filter RecordQuery.deleted.selects).map StoredRecord.id =
      t.records.keys.filter fun id => (t.records.lookup id).any RecordRow.deleted := by
    rw [← Tables.storedRecords_ids, List.filter_map]
    congr 1
    apply List.filter_congr
    intro record hrecord
    rcases Tables.mem_storedRecords hrecord with ⟨row, hrow, heq⟩
    rw [Function.comp_apply, hrow, heq]
    rfl
  have htrash : t.trash = t.records.keys.filter fun id =>
      (t.records.lookup id).any RecordRow.deleted := by
    have hkeys : t.records.keys.Nodup := t.records.nodupKeys
    rw [Tables.trash, Tables.hits, hkeys.dedup]
  rw [htrash, ← hids]
  exact h.map _

theorem wpe_emptyTrash (hopen : v.crypto.isUnlocked = true) :
    wpe (observing vaultEnv RunNotes.note)
      (fun n s => s.2.stopped = false ∧ n = t.trash.length ∧
        auditsOf s.2.done = (if 0 < n then [emptiedAudit n] else []) ∧
        Tables.Changed t.trash (fun _ _ s' => s' = .empty) t s.1)
      (fun _ s => Stopped RunNotes.Unwritten t s.1 s.2) (Vault.emptyTrash v) (t, .start) := by
  unfold Vault.emptyTrash
  refine (wpe_bind _ _).mpr (wpe_open hopen ?_)
  refine (wpe_bind _ _).mpr (wpe_noted_query ?_ fun e => stopped_at_once rfl rfl rfl)
  intro expected (records : List StoredRecord) t' hrun hsame
  cases hrun
  have hperm : records.Perm (t.storedRecords.filter RecordQuery.deleted.selects) := hsame
  have htrash := trash_of_deleted hperm
  have hnodup : (records.map StoredRecord.id).Nodup := htrash.nodup_iff.mpr Tables.hits_nodup
  have hthere : ∀ id ∈ records.map StoredRecord.id, (t.slice id).row.isSome = true := by
    intro id hid
    have hhit := Tables.mem_hits.mp (htrash.mem_iff.mp hid)
    exact Option.isSome_of_any hhit.2
  -- the records that were destroyed before
  refine (wpe_bind _ _).mpr (wpe_mono ?_ (fun _ _ h => h) (wpe_forM
    (P := fun done (s : Tables × RunNotes) => s.2.stopped = false ∧
      s.2.done = (done.map StoredRecord.id).map .hardDeleteRecord ∧
      Tables.Changed (done.map StoredRecord.id) (fun _ _ s' => s' = .empty) t s.1)
    ⟨rfl, rfl, .refl _ t⟩ ?_))
  · rintro _ ⟨u, m⟩ ⟨hgoing, hdone, hchanged⟩
    have hcount : records.length = t.trash.length := by
      rw [← htrash.length_eq, List.length_map]
    have hfinal : Tables.Changed t.trash (fun _ _ s' => s' = .empty) t u :=
      ⟨hchanged.1, hchanged.2.congr fun id => htrash.mem_iff.symm⟩
    have haudits : auditsOf m.done = [] := by
      have hdone : m.done = _ := hdone
      rw [hdone, auditsOf, List.filterMap_eq_nil_iff]
      intro op hop
      rcases List.mem_map.mp hop with ⟨id, -, rfl⟩
      rfl
    by_cases hsome : 0 < records.length
    · simp only [if_pos hsome]
      refine (wpe_bind _ _).mpr (wpe_noted_audit ⟨hgoing, hcount, ?_, hfinal⟩ ?_)
      · dsimp only
        rw [auditsOf_append, haudits, if_pos hsome]
        rfl
      · intro _
        exact stopped_destroyed rfl hdone hthere hchanged
    · simp only [if_neg hsome]
      refine ⟨hgoing, hcount, ?_, hfinal⟩
      rw [if_neg hsome]
      exact haudits
  · rintro done record rest ⟨u, m⟩ hrecords ⟨hgoing, hdone, hchanged⟩
    have hid : record.id ∉ done.map StoredRecord.id := by
      rw [hrecords, List.map_append] at hnodup
      intro hmem
      exact List.disjoint_of_nodup_append hnodup hmem List.mem_cons_self
    have hdone : m.done = (done.map StoredRecord.id).map .hardDeleteRecord := hdone
    refine wpe_noted_query ?_ ?_
    · intro _ _ u' hrun _
      cases hrun
      refine ⟨hgoing, ?_, ?_⟩
      · rw [List.map_append, List.map_append, ← hdone]
        rfl
      · rw [List.map_append]
        exact hchanged.snoc hid (Tables.changed_deleteRow u record.id)
    · intro _
      refine stopped_destroyed rfl hdone ?_ hchanged
      intro id hmem
      apply hthere
      rw [hrecords, List.map_append]
      exact List.mem_append_left _ hmem

end Emptying

end OakKeyring
