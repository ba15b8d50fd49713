import OakKeyring.Vault.BatchRuns

/-!
# What the batch operations do

A batch operation is one statement for all records, and then entries and marks one by one. A run
that stops on the way leaves what was written before.
-/

namespace OakKeyring

open Effect Pointwise

/-! ## Runs that stop -/

/-- The same vault, whatever the order of its rows. -/
def Tables.Same (t t' : Tables) : Prop :=
  SameCommon t t' ∧ t'.slice = t.slice

theorem Tables.Same.refl (t : Tables) : Same t t :=
  ⟨.refl t, rfl⟩

/-- A record that has changed. -/
theorem Tables.not_same_of_moved {t t' : Tables} (id : Uuid) (h : t'.slice id ≠ t.slice id) :
    ¬ Same t t' := by
  intro hsame
  exact h (congrFun hsame.2 id)

/-- A statement stopped the run; the vault is as before, and nothing is audited, exactly when the
fault was `early`. -/
def Stopped (early : RunNotes → Prop) (t u : Tables) (m : RunNotes) : Prop :=
  m.stopped = true ∧ ((Tables.Same t u ∧ auditsOf m.done = []) ↔ early m)

/-- The fault came before anything was written. -/
def RunNotes.Unwritten (m : RunNotes) : Prop :=
  m.done = []

section Stops

variable {t u : Tables} {m : RunNotes} {early : RunNotes → Prop}

theorem stopped_at_once (hstopped : m.stopped = true) (hdone : m.done = []) (hearly : early m) :
    Stopped early t t m := by
  refine ⟨hstopped, fun _ => hearly, fun _ => ⟨.refl t, ?_⟩⟩
  rw [hdone]
  rfl

/-- The run has written, and the vault shows it or the audit log does. -/
theorem stopped_late (hstopped : m.stopped = true)
    (hchanged : ¬ (Tables.Same t u ∧ auditsOf m.done = [])) (hlate : ¬ early m) :
    Stopped early t u m :=
  ⟨hstopped, fun h => absurd h hchanged, fun h => absurd h hlate⟩

/-- An entry was written. -/
theorem stopped_audited (hstopped : m.stopped = true) (haudit : auditsOf m.done ≠ [])
    (hlate : ¬ early m) : Stopped early t u m :=
  stopped_late hstopped (fun h => haudit h.2) hlate

theorem written_of_audited (haudit : auditsOf m.done ≠ []) : ¬ m.Unwritten := by
  intro hnone
  have hnone : m.done = [] := hnone
  rw [hnone] at haudit
  exact haudit rfl

end Stops

/-! ## Reads, entries and marks -/

/-- The name that a batch operation finds in a row. -/
def rowAuditName [Crypto] (v : VaultService) (id : Uuid) (row : RecordRow) : String :=
  match v.crypto.decryptNameOnly row.encryptedData row.nonce (recordAad id) row.dekVersion with
  | .ok name => name
  | .error _ => "<unknown>"

section Parts

variable [Crypto] {v : VaultService} {t : Tables} {m : RunNotes} {id : Uuid}
  {E : VaultError → Tables × RunNotes → Prop}

theorem auditName_ok {row : RecordRow} {tags : List String} :
    Vault.auditName v (.ok (row.toStoredRecord id tags)) = rowAuditName v id row := rfl

omit [Crypto] in
/-- A read that is tolerated. -/
theorem wpe_noted_read {Q : Except VaultError StoredRecord → Tables × RunNotes → Prop}
    (hsome : ∀ row, (t.slice id).row = some row →
      Q (.ok (row.toStoredRecord id (t.tagsOf id))) (t, m))
    (hnone : (t.slice id).row = none → Q (.error (.RecordNotFound id)) (t, m))
    (hunread : ∀ e, Q (.error e) (t, { m with unread := m.unread ++ [id] })) :
    wpe (observing vaultEnv RunNotes.note) Q E
      (Fallible.attempt (Vault.getStoredRecord id)) (t, m) := by
  refine wpe_attempt ((wpe_bind _ _).mpr (wpe_noted_query ?_ ?_))
  · intro expected result t' hrun hsame
    cases hrun
    have hresult : result = t.storedRecord id := hsame
    rw [hresult]
    cases hrow : t.records.lookup id with
    | none =>
        have hstored : t.storedRecord id = none := by
          rw [Tables.storedRecord, hrow]
          rfl
        rw [hstored]
        exact hnone hrow
    | some row =>
        have hstored : t.storedRecord id = some (row.toStoredRecord id (t.tagsOf id)) := by
          rw [Tables.storedRecord, hrow]
          rfl
        rw [hstored]
        exact hsome row hrow
  · intro e
    exact hunread _

omit [Crypto] in
/-- One entry; a failure stops the run. -/
theorem wpe_noted_audit {operation : AuditOperation} {recordId : Option Uuid}
    {recordName detail : Option String} {Q : Unit → Tables × RunNotes → Prop}
    (hok : Q () (t, { m with
      done := m.done ++ [.insertAuditEntry operation recordId recordName detail] }))
    (hfault : ∀ e, E e (t, { m with stopped := true })) :
    wpe (observing vaultEnv RunNotes.note) Q E
      (Vault.query (.insertAuditEntry operation recordId recordName detail)) (t, m) := by
  refine wpe_noted_query ?_ ?_
  · intro expected result t' hrun _
    cases hrun
    exact hok
  · intro e
    exact hfault _

omit [Crypto] in
/-- The marks of records; a record that is not there stops the run. -/
theorem wpe_noted_marks {ids : List Uuid} (hnodup : ids.Nodup)
    (hgoing : m.stopped = false) (haudits : ids ≠ [] → auditsOf m.done ≠ []) :
    wpe (observing vaultEnv RunNotes.note)
      (fun _ u => u.2.stopped = false ∧ u.2.unread = m.unread ∧
        auditsOf u.2.done = auditsOf m.done ∧
        (∀ id ∈ ids, (t.slice id).row.isSome = true) ∧
        Tables.Changed ids (fun _ s s' => ∃ markedAt,
          s' = { s with sync := some (Tables.pendingRow markedAt s.sync) }) t u.1)
      (fun _ u => u.2.stopped = true ∧ auditsOf u.2.done ≠ [])
      (Vault.markRecordsPendingSync ids) (t, m) := by
  refine wpe_forM (P := fun done (u : Tables × RunNotes) =>
    u.2.stopped = false ∧ u.2.unread = m.unread ∧ auditsOf u.2.done = auditsOf m.done ∧
      (∀ id ∈ done, (t.slice id).row.isSome = true) ∧
      Tables.Changed done (fun _ s s' => ∃ markedAt,
        s' = { s with sync := some (Tables.pendingRow markedAt s.sync) }) t u.1) ?_ ?_
  -- before the first mark nothing has changed
  · exact ⟨hgoing, rfl, rfl, fun _ h => absurd h List.not_mem_nil, .refl _ t⟩
  · rintro done id rest ⟨u, m'⟩ rfl ⟨hgoing', hunread, haudits', hthere, hchanged⟩
    have hid : id ∉ done := by
      intro hmem
      exact List.disjoint_of_nodup_append hnodup hmem List.mem_cons_self
    -- an id is marked only where an entry was written about it
    have hsome : auditsOf m'.done ≠ [] := by
      have haudits' : auditsOf m'.done = auditsOf m.done := haudits'
      rw [haudits']
      exact haudits (by simp)
    refine (wpe_bind _ _).mpr (wpe_observing_now (fun _ _ _ h => h) ?_)
    intro time
    refine wpe_noted_query ?_ ?_
    -- the mark goes through
    · intro _ _ u' hrun _
      rcases Tables.ok_of_bind hrun with ⟨w, hw, hend⟩
      cases hend
      have hstep := Tables.changed_upsertSyncState hw
      have hmem : id ∈ u.records := (Tables.referring_ok hw).1
      have hrow : (t.slice id).row.isSome = true := by
        rw [← hchanged.2.kept hid]
        exact AList.lookup_isSome.mpr hmem
      refine ⟨hgoing', hunread, ?_, ?_, hchanged.snoc hid (hstep.mono fun _ _ h => ⟨_, h⟩)⟩
      · have haudits' : auditsOf m'.done = auditsOf m.done := haudits'
        rw [← haudits']
        simp [RunNotes.did, DbOp.isWrite, DbOp.writes, auditsOf]
      · intro other hother
        rcases List.mem_append.mp hother with hold | hnew
        · exact hthere other hold
        · rw [List.mem_singleton.mp hnew]
          exact hrow
    -- the mark faults: the run stops, with its audit entries written
    · intro e
      exact ⟨rfl, hsome⟩

end Parts

/-! ## Deleting -/

section Deleting

variable [Crypto] {v : VaultService} {t : Tables} {ids : List Uuid}

/-- The name for an entry, read or not. -/
def foundName (v : VaultService) (t : Tables) (unread : List Uuid) (id : Uuid) : String :=
  if id ∈ unread then "<unknown>"
  else
    match (t.slice id).row with
    | some row => rowAuditName v id row
    | none => "<unknown>"

/-- The row that `batch_soft_delete_records` leaves. -/
def batchDeletedRow (deviceId : String) (deletedAt : Int) (row : RecordRow) : RecordRow :=
  { row with
    deleted := true
    deletedAt := some deletedAt
    updatedBy := deviceId }

/-- What the deletion of many records makes of one. -/
def BatchDeleted (deviceId : String) (s s' : RecordSlice) : Prop :=
  ∃ deletedAt markedAt, s' =
    { s with
      row := s.row.map (batchDeletedRow deviceId deletedAt)
      sync := some (Tables.pendingRow markedAt s.sync) }

/-- The statement of `batch_soft_delete`. -/
def batchDeletion (v : VaultService) (ids : List Uuid) (time : DateTime) : DbOp :=
  .batchSoftDeleteRecords ids v.deviceId (datetimeToTimestamp time)

/-- Every record of the list that is there was deleted here, at this second. -/
def DeletedAlready (v : VaultService) (t : Tables) (ids : List Uuid) (deletedAt : Int) : Prop :=
  ∀ id ∈ ids, ∀ row, (t.slice id).row = some row →
    row.deleted = true ∧ row.deletedAt = some deletedAt ∧ row.updatedBy = v.deviceId

/-- The fault came at the statement of the deletion, or it came at the first entry and the
statement had found nothing to change. -/
def UndeletedStop (v : VaultService) (t : Tables) (ids : List Uuid) (m : RunNotes) : Prop :=
  m.Unwritten ∨ ∃ time, m.done = [batchDeletion v ids time] ∧
    DeletedAlready v t ids (datetimeToTimestamp time)

omit [Crypto] in
/-- The statement of a deletion leaves the vault as it was exactly when all is deleted already. -/
theorem same_batchDeletion_iff {u : Tables} {deletedAt : Int}
    (hchanged : Tables.Changed (t.hits ids fun _ => true) (fun _ s s' =>
      s' = { s with row := s.row.map (batchDeletedRow v.deviceId deletedAt) }) t u) :
    Tables.Same t u ↔ DeletedAlready v t ids deletedAt := by
  constructor
  · intro hsame id hid row hrow
    have hhit : id ∈ t.hits ids fun _ => true :=
      Tables.mem_hits.mpr ⟨hid, by simp [hrow]⟩
    have hrows := congrArg RecordSlice.row (hchanged.2.related hhit)
    rw [congrFun hsame.2 id, hrow] at hrows
    have hfixed : row = batchDeletedRow v.deviceId deletedAt row := Option.some.inj hrows
    exact ⟨congrArg RecordRow.deleted hfixed, congrArg RecordRow.deletedAt hfixed,
      congrArg RecordRow.updatedBy hfixed⟩
  · intro halready
    refine ⟨hchanged.1, funext fun id => ?_⟩
    by_cases hid : id ∈ t.hits ids fun _ => true
    · have hmem := Tables.mem_hits.mp hid
      rcases (Option.any_eq_true _ _).mp hmem.2 with ⟨row, hrow, -⟩
      have hrow : (t.slice id).row = some row := hrow
      rcases halready id hmem.1 row hrow with ⟨hdeleted, hat, hby⟩
      have hfixed : batchDeletedRow v.deviceId deletedAt row = row := by
        rw [batchDeletedRow, ← hdeleted, ← hat, ← hby]
      have hslice : u.slice id = _ := hchanged.2.related hid
      rw [hslice, hrow, Option.map_some, hfixed, ← hrow]
    · exact hchanged.2.kept hid

/-- The entry of `batch_soft_delete` for a record. -/
def deletionEntry (v : VaultService) (t : Tables) (unread : List Uuid) (id : Uuid) : DbOp :=
  .insertAuditEntry .RecordDelete (some id) (some (foundName v t unread id)) none

theorem auditsOf_deletionEntries (unread : List Uuid) :
    auditsOf (ids.map (deletionEntry v t unread)) =
      ids.map fun id => TrashOp.softDelete.audit id (foundName v t unread id) := by
  induction ids with
  | nil => rfl
  | cons id ids ih =>
      rw [List.map_cons, List.map_cons, ← ih]
      rfl

/-- The name in a row does not depend on whether the record is deleted. -/
theorem foundName_batchDeleted {u : Tables} {deletedAt : Int} {unread : List Uuid} {id : Uuid}
    (hrow : (u.slice id).row = (t.slice id).row ∨
      (u.slice id).row = (t.slice id).row.map (batchDeletedRow v.deviceId deletedAt)) :
    foundName v u unread id = foundName v t unread id := by
  unfold foundName
  rcases hrow with hrow | hrow
  · rw [hrow]
  · rw [hrow]
    cases (t.slice id).row <;> rfl

/-- Reads of other records do not change the entries there are. -/
theorem map_deletionEntry_append {unread done : List Uuid} {id : Uuid} (hid : id ∉ done) :
    done.map (deletionEntry v t (unread ++ [id])) = done.map (deletionEntry v t unread) := by
  apply List.map_congr_left
  intro other hother
  have hne : other ≠ id := fun heq => hid (heq ▸ hother)
  simp [deletionEntry, foundName, hne]

omit [Crypto] in
theorem late_of_audited {m : RunNotes} (haudit : auditsOf m.done ≠ []) :
    ¬ UndeletedStop v t ids m := by
  rintro (hnone | ⟨time, hfirst, -⟩)
  · exact written_of_audited haudit hnone
  · rw [hfirst] at haudit
    exact haudit rfl

/-- An entry of a deletion that fails: nothing or some entry was written before. -/
theorem stopped_deletion {u : Tables} {time : DateTime} {m : RunNotes} {done unread : List Uuid}
    (hsame : Tables.Same t u ↔ DeletedAlready v t ids (datetimeToTimestamp time))
    (hdone : m.done = batchDeletion v ids time :: done.map (deletionEntry v t unread)) :
    Stopped (UndeletedStop v t ids) t u { m with stopped := true } := by
  cases done with
  | nil =>
      refine ⟨rfl, ?_⟩
      have hdone : m.done = [batchDeletion v ids time] := hdone
      have haudit : auditsOf m.done = [] := by
        rw [hdone]
        rfl
      constructor
      · intro h
        exact Or.inr ⟨time, hdone, hsame.mp h.1⟩
      · rintro (hnone | ⟨time', hfirst, halready⟩)
        · have hnone : m.done = [] := hnone
          rw [hnone] at hdone
          cases hdone
        · have hfirst : m.done = [batchDeletion v ids time'] := hfirst
          have hstatement := List.head_eq_of_cons_eq (hdone.symm.trans hfirst)
          have htime : datetimeToTimestamp time = datetimeToTimestamp time' := by
            simpa [batchDeletion] using hstatement
          rw [← htime] at halready
          exact ⟨hsame.mpr halready, haudit⟩
  | cons id done =>
      have haudit : auditsOf m.done ≠ [] := by
        rw [hdone]
        exact List.cons_ne_nil _ _
      exact stopped_audited rfl haudit (late_of_audited haudit)

/-- The entries of a deletion, after its statement. -/
theorem wpe_deletionEntries {u : Tables} {time : DateTime} (hnodup : ids.Nodup)
    (hsame : Tables.Same t u ↔ DeletedAlready v t ids (datetimeToTimestamp time))
    (hrows : ∀ id, (u.slice id).row = (t.slice id).row ∨
      (u.slice id).row = (t.slice id).row.map
        (batchDeletedRow v.deviceId (datetimeToTimestamp time))) :
    wpe (observing vaultEnv RunNotes.note)
      (fun _ s => s.1 = u ∧ s.2.stopped = false ∧
        s.2.done = batchDeletion v ids time :: ids.map (deletionEntry v t s.2.unread))
      (fun _ s => Stopped (UndeletedStop v t ids) t s.1 s.2)
      (ids.forM fun id => do
        let found ← Fallible.attempt (Vault.getStoredRecord id)
        Vault.query (.insertAuditEntry .RecordDelete (some id) (some (Vault.auditName v found))
          none))
      (u, { RunNotes.start with done := [batchDeletion v ids time] }) := by
  refine wpe_mono ?_ (fun _ _ h => h) (wpe_forM (P := fun done (s : Tables × RunNotes) =>
    s.1 = u ∧ s.2.stopped = false ∧ s.2.unread ⊆ done ∧
      s.2.done = batchDeletion v ids time :: done.map (deletionEntry v t s.2.unread))
    ⟨rfl, rfl, List.Subset.refl _, rfl⟩ ?_)
  · rintro _ s ⟨hu, hgoing, -, hdone⟩
    exact ⟨hu, hgoing, hdone⟩
  · rintro done id rest ⟨u', m⟩ hids ⟨hu, hgoing, hunread, hdone⟩
    have hid : id ∉ done := by
      intro hmem
      rw [hids] at hnodup
      exact List.disjoint_of_nodup_append hnodup hmem List.mem_cons_self
    have hnew : id ∉ m.unread := fun hmem => hid (hunread hmem)
    have hu : u' = u := hu
    have hdone : m.done = batchDeletion v ids time :: done.map (deletionEntry v t m.unread) := hdone
    subst hu
    -- the entry of a record that was read
    have hentry : ∀ name, name = foundName v t m.unread id →
        wpe (observing vaultEnv RunNotes.note)
          (fun _ s => s.1 = u' ∧ s.2.stopped = false ∧ s.2.unread ⊆ done ++ [id] ∧
            s.2.done = batchDeletion v ids time ::
              (done ++ [id]).map (deletionEntry v t s.2.unread))
          (fun _ s => Stopped (UndeletedStop v t ids) t s.1 s.2)
          (Vault.query (.insertAuditEntry .RecordDelete (some id) (some name) none)) (u', m) := by
      rintro _ rfl
      refine wpe_noted_audit ⟨rfl, hgoing, ?_, ?_⟩ fun _ => stopped_deletion hsame hdone
      · exact List.Subset.trans hunread (List.subset_append_left _ _)
      · dsimp only
        rw [hdone, List.map_append, List.cons_append]
        rfl
    have hfound : foundName v u' m.unread id = foundName v t m.unread id :=
      foundName_batchDeleted (hrows id)
    refine (wpe_bind _ _).mpr (wpe_noted_read ?_ ?_ ?_)
    · intro row hrow
      apply hentry
      rw [auditName_ok, ← hfound, foundName, if_neg hnew, hrow]
    · intro hrow
      apply hentry
      rw [← hfound, foundName, if_neg hnew, hrow]
      rfl
    · intro e
      refine wpe_noted_audit ⟨rfl, hgoing, ?_, ?_⟩ fun _ => stopped_deletion hsame hdone
      · intro other hother
        rcases List.mem_append.mp hother with hold | hlast
        · exact List.mem_append_left _ (hunread hold)
        · exact List.mem_append_right _ hlast
      · dsimp only
        rw [hdone, List.map_append, map_deletionEntry_append hid, List.cons_append]
        simp [deletionEntry, foundName, Vault.auditName]

/-- A batch deletion that ends has marked the records it found, and written an entry for each id. -/
theorem wpe_batchSoftDelete (hopen : v.crypto.isUnlocked = true) (hnodup : ids.Nodup) :
    wpe (observing vaultEnv RunNotes.note)
      (fun n s => s.2.stopped = false ∧ n = (t.hits ids fun _ => true).length ∧
        auditsOf s.2.done =
          ids.map (fun id => TrashOp.softDelete.audit id (foundName v t s.2.unread id)) ∧
        Tables.Changed (t.hits ids fun _ => true) (fun _ => BatchDeleted v.deviceId) t s.1)
      (fun _ s => Stopped (UndeletedStop v t ids) t s.1 s.2) (Vault.batchSoftDelete v ids)
      (t, .start) := by
  unfold Vault.batchSoftDelete
  refine (wpe_bind _ _).mpr (wpe_open hopen ?_)
  by_cases hnone : ids = []
  · subst hnone
    exact ⟨rfl, rfl, rfl, .refl _ t⟩
  rw [if_neg hnone]
  refine (wpe_bind _ _).mpr ((wpe_bind _ _).mpr (wpe_observing_now (fun _ _ _ h => h) ?_))
  intro time
  refine (wpe_bind _ _).mpr (@wpe_noted_query _ _ _ (batchDeletion v ids time) _ ?_ ?_)
  · intro expected (affected : Nat) u hrun hsame
    have haffected : affected = expected := hsame
    subst haffected
    have hupdate : (affected, u) = t.updateRows ids (fun _ => true)
        (batchDeletedRow v.deviceId (datetimeToTimestamp time)) := (Except.ok.inj hrun).symm
    have hcount : affected = (t.hits ids fun _ => true).length := congrArg Prod.fst hupdate
    have hchanged := Tables.changed_updateRows t ids (fun _ => true)
      (batchDeletedRow v.deviceId (datetimeToTimestamp time))
    rw [← hupdate] at hchanged
    have hrows : ∀ id, (u.slice id).row = (t.slice id).row ∨ (u.slice id).row =
        (t.slice id).row.map (batchDeletedRow v.deviceId (datetimeToTimestamp time)) := by
      intro id
      by_cases hid : id ∈ t.hits ids fun _ => true
      · exact Or.inr (congrArg RecordSlice.row (hchanged.2.related hid))
      · exact Or.inl (congrArg RecordSlice.row (hchanged.2.kept hid))
    refine (wpe_bind _ _).mpr (wpe_mono ?_ (fun _ _ h => h)
      (wpe_deletionEntries hnodup (same_batchDeletion_iff hchanged) hrows))
    rintro _ ⟨u', m⟩ ⟨hu, hgoing, hdone⟩
    have hu : u' = u := hu
    subst hu
    have haudits : auditsOf m.done =
        ids.map fun id => TrashOp.softDelete.audit id (foundName v t m.unread id) := by
      rw [hdone]
      exact auditsOf_deletionEntries m.unread
    by_cases hfew : 0 < affected
    · rw [if_pos hfew]
      have hwritten : ids ≠ [] → auditsOf m.done ≠ [] := by
        intro _
        rw [haudits]
        simpa using hnone
      refine (wpe_bind _ _).mpr (wpe_mono ?_
        (fun _ _ h => stopped_audited h.1 h.2 (late_of_audited h.2))
        (wpe_noted_marks hnodup hgoing hwritten))
      rintro _ ⟨w, m'⟩ ⟨hgoing', hunread, haudits', hthere, hmarked⟩
      -- all records are there, or the marks would have stopped
      have hall : ∀ id, id ∈ ids ↔ id ∈ t.hits ids fun _ => true := by
        intro id
        rw [Tables.mem_hits]
        constructor
        · intro hid
          refine ⟨hid, ?_⟩
          have hrow := hthere id hid
          rcases hrows id with hsame | hsame
          · rw [hsame] at hrow
            simpa using hrow
          · rw [hsame, Option.isSome_map] at hrow
            simpa using hrow
        · exact And.left
      have hmarked : Tables.Changed (t.hits ids fun _ => true) _ u' w :=
        ⟨hmarked.1, hmarked.2.congr fun id => (hall id).symm⟩
      refine ⟨hgoing', hcount, ?_, (hchanged.trans hmarked).mono ?_⟩
      · have haudits' : auditsOf m'.done = auditsOf m.done := haudits'
        have hunread : m'.unread = m.unread := hunread
        rw [haudits', haudits, hunread]
      · rintro id _ ⟨_, rfl, markedAt, hend⟩
        exact ⟨_, markedAt, hend⟩
    · rw [if_neg hfew]
      have hzero : (t.hits ids fun _ => true) = [] := by
        rw [← List.length_eq_zero_iff, ← hcount]
        omega
      refine ⟨hgoing, hcount, haudits, ?_⟩
      rw [hzero] at hchanged ⊢
      exact hchanged.mono fun _ h => absurd h List.not_mem_nil
  · intro e
    exact stopped_at_once rfl rfl (Or.inl rfl)

end Deleting

end OakKeyring
