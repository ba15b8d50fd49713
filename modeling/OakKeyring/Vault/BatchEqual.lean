import OakKeyring.Samples.Vault
import OakKeyring.Vault.BatchTrash

/-!
# Batch operations and single operations

A batch operation is compared with the operation on one record, called for each record that the
batch is meant for. The clock is read at other moments, so times that were just set are not
compared.
-/

namespace OakKeyring

open Effect Pointwise

/-- The operations on many records of the trash. -/
inductive BatchOp
  | softDelete (ids : List Uuid)
  | restore (ids : List Uuid)
  | hardDelete (ids : List Uuid)
  | emptyTrash
deriving DecidableEq, Repr

namespace BatchOp

def program [Crypto] (v : VaultService) : BatchOp → VaultM Nat
  | softDelete ids => Vault.batchSoftDelete v ids
  | restore ids => Vault.batchRestore v ids
  | hardDelete ids => Vault.batchHardDelete v ids
  | emptyTrash => Vault.emptyTrash v

/-- The operation on one record. -/
def single : BatchOp → TrashOp
  | softDelete _ => .softDelete
  | restore _ => .restore
  | hardDelete _ => .hardDelete
  | emptyTrash => .hardDelete

/-- The ids of the request; for `empty_trash` all. -/
def ids (t : Tables) : BatchOp → List Uuid
  | softDelete ids => ids
  | restore ids => ids
  | hardDelete ids => ids
  | emptyTrash => t.records.keys

/-- The records that the operation is meant for. -/
def affected (op : BatchOp) (t : Tables) : List Uuid :=
  t.hits (op.ids t) op.single.applies

end BatchOp

/-- A slice without the times that the operations set. -/
def RecordSlice.timeless (s : RecordSlice) : RecordSlice :=
  { s with
    row := s.row.map fun row => { row with deletedAt := row.deletedAt.map fun _ => 0 }
    sync := s.sync.map fun row => { row with localUpdatedAt := 0 } }

/-- The entries for single records that a run wrote. -/
def recordAudits (trace : List (Event VaultI)) : List AuditNote :=
  (auditsOf (RunNotes.of trace).done).filter fun note => note.operation ≠ .TrashEmpty

section Statement

variable [Crypto] (v : VaultService) (t : Tables)

/-- The batch operation ended as the single operations would have, or failed and left all as it
was. -/
def BatchOp.EqualsSingles (op : BatchOp) (trace : List (Event VaultI))
    (outcome : Except VaultError Nat) (t' : Tables) : Prop :=
  match outcome with
  | .ok n =>
      n = (op.affected t).length ∧
      ∀ trace' t'', (eachSingly v op.single (op.affected t)).run.Returns trace' (.ok ()) →
        Path faultlessEnv t trace' t'' →
        Tables.Changed (op.affected t) (fun _ s s' => s'.timeless = s.timeless) t'' t' ∧
        (recordAudits trace).Perm (recordAudits trace')
  | .error _ => Tables.Same t t' ∧ auditsOf (RunNotes.of trace).done = []

/-- Every record is live, was last written here and has no health state, and its name was read:
the statement asks for no state, sets `updated_by` and leaves the health state. -/
def DeletesAlike (unread ids : List Uuid) : Prop :=
  ∀ id ∈ ids, ∃ row, (t.slice id).row = some row ∧ row.deleted = false ∧
    row.updatedBy = v.deviceId ∧ (t.slice id).health = none ∧
    rowName v row = .ok (foundName v t unread id)

/-- Every record of the trash was read, and both ways to its name agree. -/
def NamesAgree (unread ids : List Uuid) : Prop :=
  ∀ id ∈ ids, ∀ row, (t.slice id).row = some row → row.deleted = true →
    id ∉ unread ∧ rowName v row = .ok (rowAuditName v id row)

/-- When a batch operation that was not stopped is right. -/
def BatchOp.Agrees (unread : List Uuid) : BatchOp → Prop
  | softDelete ids => DeletesAlike v t unread ids
  | restore ids => NamesAgree v t unread ids
  | hardDelete ids => NamesAgree v t unread ids
  -- nothing is written for the single records
  | emptyTrash => t.trash = []

/-- A fault that stops a batch operation comes early enough: before its first writing statement, or
for a deletion that has nothing left to change before its first entry. -/
def BatchOp.StopsEarly (m : RunNotes) : BatchOp → Prop
  | softDelete ids => UndeletedStop v t ids m
  | restore _ => m.Unwritten
  | hardDelete _ => m.Unwritten
  | emptyTrash => m.Unwritten

/-- When a batch operation is right, by the vault and by the faults of the run. -/
def BatchOp.Faithful (op : BatchOp) (m : RunNotes) : Prop :=
  if m.stopped = true then op.StopsEarly v t m
  else op.Agrees v t m.unread

end Statement

/-! ## Comparing -/

section Comparing

variable [Crypto] {v : VaultService} {t t' : Tables} {trace : List (Event VaultI)}

omit [Crypto] in
/-- The entries of the operations on single records. -/
theorem recordAudits_of_forall {notes : List AuditNote} (kind : TrashOp)
    (hdone : auditsOf (RunNotes.of trace).done = notes)
    (hkind : ∀ note ∈ notes, note.operation = kind.operation) : recordAudits trace = notes := by
  rw [recordAudits, hdone, List.filter_eq_self]
  intro note hnote
  rw [hkind note hnote]
  cases kind <;> rfl

/-- What all single operations leave. -/
theorem singles_run (op : BatchOp) {trace' : List (Event VaultI)} {t'' : Tables}
    (hopen : v.crypto.isUnlocked = true)
    (hreturns : (eachSingly v op.single (op.affected t)).run.Returns trace' (.ok ()))
    (hpath : Path faultlessEnv t trace' t'') :
    Tables.Changed (op.affected t) (fun _ => op.single.Applied v) t t'' ∧
      recordAudits trace' = (op.affected t).filterMap (op.single.auditOf v t) := by
  have hrows : ∀ id ∈ op.affected t, ∃ row, (t.slice id).row = some row := by
    intro id hid
    exact Option.isSome_iff_exists.mp (Option.isSome_of_any (Tables.mem_hits.mp hid).2)
  have hrun := wpe_observing (wpe_eachSingly op.single hopen Tables.hits_nodup hrows) hreturns
    hpath
  refine ⟨hrun.1, recordAudits_of_forall op.single hrun.2 ?_⟩
  intro note hnote
  rcases List.mem_filterMap.mp hnote with ⟨id, -, hentry⟩
  rcases TrashOp.auditOf_eq_some.mp hentry with ⟨row, name, -, -, rfl⟩
  rfl

/-- The single operations can always be run. -/
theorem exists_singles (op : BatchOp) (hopen : v.crypto.isUnlocked = true) :
    ∃ trace' t'', (eachSingly v op.single (op.affected t)).run.Returns trace' (.ok ()) ∧
      Path faultlessEnv t trace' t'' := by
  apply exists_eachSingly op.single hopen Tables.hits_nodup
  intro id hid
  exact Option.isSome_iff_exists.mp (Option.isSome_of_any (Tables.mem_hits.mp hid).2)

/-- The comparison, by what the single operations leave. -/
theorem equalsSingles_ok_iff {op : BatchOp} {n : Nat} (hopen : v.crypto.isUnlocked = true) :
    op.EqualsSingles v t trace (.ok n) t' ↔
      n = (op.affected t).length ∧
      (∀ trace' t'', (eachSingly v op.single (op.affected t)).run.Returns trace' (.ok ()) →
        Path faultlessEnv t trace' t'' →
        Tables.Changed (op.affected t) (fun _ s s' => s'.timeless = s.timeless) t'' t') ∧
      (recordAudits trace).Perm ((op.affected t).filterMap (op.single.auditOf v t)) := by
  constructor
  · rintro ⟨hcount, hall⟩
    refine ⟨hcount, fun trace' t'' hreturns hpath => (hall trace' t'' hreturns hpath).1, ?_⟩
    rcases exists_singles op hopen with ⟨trace', t'', hreturns, hpath⟩
    have haudits := (hall trace' t'' hreturns hpath).2
    rw [(singles_run op hopen hreturns hpath).2] at haudits
    exact haudits
  · rintro ⟨hcount, hall, haudits⟩
    refine ⟨hcount, fun trace' t'' hreturns hpath => ⟨hall trace' t'' hreturns hpath, ?_⟩⟩
    rw [(singles_run op hopen hreturns hpath).2]
    exact haudits

end Comparing

/-! ## Restoring and destroying -/

section Trash

variable [Crypto] {v : VaultService} {t t' : Tables} {trace : List (Event VaultI)}
  {ids unread : List Uuid}

/-- The entries for the records of the trash are those of the single operations. -/
theorem trashAudits_eq {kind : TrashOp} (hnodup : ids.Nodup) (hagree : NamesAgree v t unread ids) :
    trashAudits kind v t ids unread =
      (t.hits ids RecordRow.deleted).filterMap (kind.auditOf v t) := by
  rw [trashAudits, Tables.hits, hnodup.dedup, List.map_filterMap, List.filterMap_filter]
  apply List.filterMap_congr
  intro id hid
  -- three cases of an id: unknown, live, or in the trash
  cases hrow : t.records.lookup id with
  | none =>
      have hname : trashName v t unread id = none := by
        rw [Option.eq_none_iff_forall_ne_some]
        intro entry hentry
        rcases trashName_eq_some.mp hentry with ⟨-, row, hrow', -, -⟩
        cases hrow.symm.trans hrow'
      simp [hname]
  | some row =>
      cases hdeleted : row.deleted with
      | false =>
          have hname : trashName v t unread id = none := by
            rw [Option.eq_none_iff_forall_ne_some]
            intro entry hentry
            rcases trashName_eq_some.mp hentry with ⟨-, row', hrow', hdeleted', -⟩
            cases hrow.symm.trans hrow'
            rw [hdeleted] at hdeleted'
            cases hdeleted'
          simp [hname, hdeleted]
      | true =>
          rcases hagree id hid row hrow hdeleted with ⟨hread, hsame⟩
          have hname : trashName v t unread id = some (id, rowAuditName v id row) :=
            trashName_eq_some.mpr ⟨hread, row, hrow, hdeleted, rfl⟩
          have hnote : kind.auditOf v t id = some (kind.audit id (rowAuditName v id row)) :=
            TrashOp.auditOf_eq_some.mpr ⟨row, _, hrow, hsame, rfl⟩
          simp [hname, hnote, hdeleted]

/-- A batch operation on the records of the trash is right exactly when their names agree. -/
theorem equalsSingles_trash_iff {op : BatchOp} {n : Nat}
    {R : Uuid → RecordSlice → RecordSlice → Prop} (hopen : v.crypto.isUnlocked = true)
    (hids : op.ids t = ids) (happlies : op.single.applies = RecordRow.deleted)
    (hnodup : ids.Nodup) (hcount : n = (t.hits ids RecordRow.deleted).length)
    (haudits : auditsOf (RunNotes.of trace).done =
      trashAudits op.single v t ids (RunNotes.of trace).unread)
    (hchanged : Tables.Changed (t.hits ids RecordRow.deleted) R t t')
    (hmoved : ∀ id row s', (t.slice id).row = some row → row.deleted = true →
      R id (t.slice id) s' → s'.timeless ≠ (t.slice id).timeless)
    (hsame : ∀ id s s' s'', id ∉ (RunNotes.of trace).unread → R id s s' →
      op.single.Effect s s'' → s'.timeless = s''.timeless) :
    op.EqualsSingles v t trace (.ok n) t' ↔ NamesAgree v t (RunNotes.of trace).unread ids := by
  have haffected : op.affected t = t.hits ids RecordRow.deleted := by
    rw [BatchOp.affected, hids, happlies]
  have hrecords : recordAudits trace =
      trashAudits op.single v t ids (RunNotes.of trace).unread := by
    refine recordAudits_of_forall op.single haudits ?_
    intro note hnote
    rcases List.mem_map.mp hnote with ⟨entry, -, rfl⟩
    rfl
  rw [equalsSingles_ok_iff hopen, haffected, hrecords]
  constructor
  · rintro ⟨-, hall, hperm⟩ id hid row hrow hdeleted
    have hhit : id ∈ t.hits ids RecordRow.deleted :=
      Tables.mem_hits.mpr ⟨hid, by simp [hrow, hdeleted]⟩
    rcases exists_singles op hopen with ⟨trace', t'', hreturns, hpath⟩
    have hrun := (singles_run op hopen hreturns hpath).1
    rw [haffected] at hreturns hrun
    have hend := (hall trace' t'' hreturns hpath).2.related hhit
    -- the batch changed the record, so the single operation did
    rcases TrashOp.applied_cases (hrun.2.related hhit) hrow with ⟨name, hname, -⟩ | ⟨-, hkept⟩
    · have hnote : op.single.auditOf v t id = some (op.single.audit id name) :=
        TrashOp.auditOf_eq_some.mpr ⟨row, name, hrow, hname, rfl⟩
      have hmem := hperm.mem_iff.mpr (List.mem_filterMap.mpr ⟨id, hhit, hnote⟩)
      rcases List.mem_map.mp hmem with ⟨entry, hentry, heq⟩
      rcases List.mem_filterMap.mp hentry with ⟨other, -, hother⟩
      rcases trashName_eq_some.mp hother with ⟨hread, row', hrow'', -, rfl⟩
      simp only [TrashOp.audit, AuditNote.mk.injEq, Option.some.injEq, true_and, and_true] at heq
      rcases heq with ⟨rfl, hnames⟩
      cases hrow.symm.trans hrow''
      exact ⟨hread, by rw [hname, hnames]⟩
    · rw [hkept] at hend
      exact absurd hend (hmoved id row _ hrow hdeleted (hchanged.2.related hhit))
  · intro hagree
    refine ⟨hcount, ?_, ?_⟩
    · intro trace' t'' hreturns hpath
      rw [← haffected] at hreturns
      have hrun := (singles_run op hopen hreturns hpath).1
      rw [haffected] at hrun
      refine hrun.compare hchanged ?_
      intro id hid happlied hbatch
      have hmem := Tables.mem_hits.mp hid
      rcases (Option.any_eq_true _ _).mp hmem.2 with ⟨row, hrow, hdeleted⟩
      rcases hagree id hmem.1 row hrow hdeleted with ⟨hread, hname⟩
      exact hsame id _ _ _ hread hbatch (happlied.effect hrow hname)
    · rw [trashAudits_eq hnodup hagree]

/-- `empty_trash` writes no entries for single records, so it is right only when it finds none. -/
theorem equalsSingles_emptyTrash_iff {n : Nat} (hopen : v.crypto.isUnlocked = true)
    (hcount : n = t.trash.length)
    (haudits : auditsOf (RunNotes.of trace).done = if 0 < n then [emptiedAudit n] else [])
    (hchanged : Tables.Changed t.trash (fun _ _ s' => s' = .empty) t t') :
    BatchOp.emptyTrash.EqualsSingles v t trace (.ok n) t' ↔ t.trash = [] := by
  have haffected : BatchOp.emptyTrash.affected t = t.trash := rfl
  -- a run without an affected row writes no entry about one
  have hrecords : recordAudits trace = [] := by
    rw [recordAudits, haudits]
    split <;> rfl
  rw [equalsSingles_ok_iff hopen, haffected, hrecords]
  constructor
  -- each single delete writes its own entry, the batch one for all of them
  · rintro ⟨-, hall, hperm⟩
    rw [List.eq_nil_iff_forall_not_mem]
    intro id hid
    have hmem := Tables.mem_hits.mp hid
    rcases (Option.any_eq_true _ _).mp hmem.2 with ⟨row, hrow, -⟩
    rcases exists_singles .emptyTrash hopen with ⟨trace', t'', hreturns, hpath⟩
    have hrun := (singles_run .emptyTrash hopen hreturns hpath).1
    have hend := (hall trace' t'' hreturns hpath).2.related hid
    rcases TrashOp.applied_cases (hrun.2.related hid) hrow with ⟨name, hname, -⟩ | ⟨-, hkept⟩
    · have hnote : TrashOp.hardDelete.auditOf v t id = some (TrashOp.hardDelete.audit id name) :=
        TrashOp.auditOf_eq_some.mpr ⟨row, name, hrow, hname, rfl⟩
      have hentry := hperm.mem_iff.mpr (List.mem_filterMap.mpr ⟨id, hid, hnote⟩)
      exact List.not_mem_nil hentry
    -- a row that went was there
    · have hempty : t'.slice id = .empty := hchanged.2.related hid
      rw [hkept, hempty] at hend
      have hgone := congrArg RecordSlice.row hend
      rw [RecordSlice.timeless, RecordSlice.timeless, hrow] at hgone
      cases hgone
  -- nothing is in the trash: both leave the vault as it is
  · intro hnone
    rw [hnone] at hchanged ⊢
    refine ⟨by rw [hcount, hnone], ?_, List.Perm.refl _⟩
    intro trace' t'' hreturns hpath
    have hrun := (singles_run .emptyTrash hopen (by rw [haffected, hnone]; exact hreturns)
      hpath).1
    rw [haffected, hnone] at hrun
    exact hrun.compare hchanged fun _ h => absurd h List.not_mem_nil

end Trash

/-! ## Deleting -/

section Deleting

variable [Crypto] {v : VaultService} {t t' : Tables} {trace : List (Event VaultI)}
  {ids unread : List Uuid}

theorem DeletesAlike.affected (h : DeletesAlike v t unread ids) (hnodup : ids.Nodup) :
    t.hits ids TrashOp.softDelete.applies = ids ∧ t.hits ids (fun _ => true) = ids := by
  have hrow : ∀ id ∈ ids, ∃ row, t.records.lookup id = some row ∧ row.deleted = false := by
    intro id hid
    rcases h id hid with ⟨row, hrow, hlive, -⟩
    exact ⟨row, hrow, hlive⟩
  constructor
  · rw [Tables.hits, hnodup.dedup, List.filter_eq_self]
    intro id hid
    rcases hrow id hid with ⟨row, hrow, hlive⟩
    simp [hrow, TrashOp.applies, hlive]
  · rw [Tables.hits, hnodup.dedup, List.filter_eq_self]
    intro id hid
    rcases hrow id hid with ⟨row, hrow, -⟩
    simp [hrow]

/-- A batch deletion is right exactly when it deletes like the operation on one record. -/
theorem equalsSingles_softDelete_iff {n : Nat} (hopen : v.crypto.isUnlocked = true)
    (hnodup : ids.Nodup) (hcount : n = (t.hits ids fun _ => true).length)
    (haudits : auditsOf (RunNotes.of trace).done = ids.map fun id =>
      TrashOp.softDelete.audit id (foundName v t (RunNotes.of trace).unread id))
    (hchanged : Tables.Changed (t.hits ids fun _ => true) (fun _ => BatchDeleted v.deviceId) t t') :
    (BatchOp.softDelete ids).EqualsSingles v t trace (.ok n) t' ↔
      DeletesAlike v t (RunNotes.of trace).unread ids := by
  have haffected : (BatchOp.softDelete ids).affected t = t.hits ids TrashOp.softDelete.applies :=
    rfl
  have hrecords := recordAudits_of_forall .softDelete haudits (by
    intro note hnote
    rcases List.mem_map.mp hnote with ⟨id, -, rfl⟩
    rfl)
  rw [equalsSingles_ok_iff hopen, haffected, hrecords]
  constructor
  · rintro ⟨-, hall, hperm⟩ id hid
    -- the entry of the batch is one of a single operation
    have hmem := hperm.mem_iff.mp (List.mem_map_of_mem hid)
    rcases List.mem_filterMap.mp hmem with ⟨other, hother, hnote⟩
    rcases TrashOp.auditOf_eq_some.mp hnote with ⟨row, name, hrow, hname, heq⟩
    simp only [TrashOp.audit, AuditNote.mk.injEq, Option.some.injEq, and_true] at heq
    rcases heq with ⟨-, rfl, hfound⟩
    have hlive : row.deleted = false := by
      have happlies := (Tables.mem_hits.mp hother).2
      rw [hrow] at happlies
      simpa [TrashOp.applies] using happlies
    have hhit : id ∈ t.hits ids fun _ => true :=
      Tables.mem_hits.mpr ⟨hid, by simp [hrow]⟩
    rcases exists_singles (.softDelete ids) hopen with ⟨trace', t'', hreturns, hpath⟩
    have hrun := (singles_run (.softDelete ids) hopen hreturns hpath).1
    have hend := (hall trace' t'' hreturns hpath).2.related hother
    have heffect := (hrun.2.related hother).effect hrow hname
    rcases heffect with ⟨deletedAt, markedAt, hsingle⟩
    rcases hchanged.2.related hhit with ⟨deletedAt', markedAt', hbatch⟩
    rw [hsingle, hbatch] at hend
    have hby := congrArg (fun s : RecordSlice => s.row.map RecordRow.updatedBy) hend
    have hhealth := congrArg RecordSlice.health hend
    simp only [RecordSlice.timeless, hrow, Option.map_some, batchDeletedRow,
      Option.some.injEq] at hby
    refine ⟨row, hrow, hlive, hby.symm, hhealth, ?_⟩
    rw [hname, hfound]
  · intro halike
    rcases halike.affected hnodup with ⟨hlive, hall⟩
    rw [hall] at hcount hchanged
    rw [hlive]
    refine ⟨hcount, ?_, ?_⟩
    · intro trace' t'' hreturns hpath
      have hrun := (singles_run (.softDelete ids) hopen
        (by rw [haffected, hlive]; exact hreturns) hpath).1
      rw [haffected, hlive] at hrun
      refine hrun.compare hchanged ?_
      rintro id hid happlied ⟨deletedAt', markedAt', hbatch⟩
      rcases halike id hid with ⟨row, hrow, -, hby, hhealth, hname⟩
      rcases happlied.effect hrow hname with ⟨deletedAt, markedAt, hsingle⟩
      rw [hsingle, hbatch]
      simp [RecordSlice.timeless, hrow, batchDeletedRow, hby, hhealth, Tables.pendingRow]
    · have hentries : ids.filterMap (TrashOp.softDelete.auditOf v t) =
          ids.map fun id =>
            TrashOp.softDelete.audit id (foundName v t (RunNotes.of trace).unread id) := by
        rw [← List.filterMap_eq_map]
        apply List.filterMap_congr
        intro id hid
        rcases halike id hid with ⟨row, hrow, -, -, -, hname⟩
        exact TrashOp.auditOf_eq_some.mpr ⟨row, _, hrow, hname, rfl⟩
      exact List.Perm.of_eq hentries.symm

end Deleting

/-! ## All batch operations -/

section All

variable [Crypto] {v : VaultService} {t t' : Tables} {trace : List (Event VaultI)}
  {outcome : Except VaultError Nat}

/-- No id twice. -/
def BatchOp.Distinct : BatchOp → Prop
  | softDelete ids => ids.Nodup
  | restore ids => ids.Nodup
  | hardDelete ids => ids.Nodup
  | emptyTrash => True

theorem faithful_of_stopped {op : BatchOp} {m : RunNotes} (hstopped : m.stopped = true) :
    op.Faithful v t m ↔ op.StopsEarly v t m := by
  simp [BatchOp.Faithful, hstopped]

/-- A fault before anything is written does no harm. -/
theorem faithful_of_unwritten {op : BatchOp} {m : RunNotes} (hstopped : m.stopped = true)
    (hdone : m.done = []) : op.Faithful v t m := by
  apply (faithful_of_stopped hstopped).mpr
  cases op with
  | softDelete ids => exact Or.inl hdone
  | restore ids => exact hdone
  | hardDelete ids => exact hdone
  | emptyTrash => exact hdone

/-- A run that stopped is right exactly when it stopped early. -/
theorem equalsSingles_error_iff {op : BatchOp} {e : VaultError}
    (h : Stopped (fun m => op.StopsEarly v t m) t t' (RunNotes.of trace)) :
    op.EqualsSingles v t trace (.error e) t' ↔ op.Faithful v t (RunNotes.of trace) := by
  rw [faithful_of_stopped h.1]
  exact h.2

theorem faithful_of_going {op : BatchOp} {m : RunNotes} (hgoing : m.stopped = false) :
    op.Faithful v t m ↔ op.Agrees v t m.unread := by
  simp [BatchOp.Faithful, hgoing]

/-- A batch operation equals the single operations exactly when it is faithful. -/
theorem equalsSingles_iff (op : BatchOp) (hopen : v.crypto.isUnlocked = true)
    (hdistinct : op.Distinct) (hreturns : (op.program v).run.Returns trace outcome)
    (hpath : Path vaultEnv t trace t') :
    op.EqualsSingles v t trace outcome t' ↔ op.Faithful v t (RunNotes.of trace) := by
  cases op with
  | softDelete ids =>
      have hrun := wpe_observing (wpe_batchSoftDelete hopen hdistinct) hreturns hpath
      cases outcome with
      | error e => exact equalsSingles_error_iff hrun
      | ok n =>
          rcases hrun with ⟨hgoing, hcount, haudits, hchanged⟩
          have hgoing : (RunNotes.of trace).stopped = false := hgoing
          rw [faithful_of_going hgoing]
          exact equalsSingles_softDelete_iff hopen hdistinct hcount haudits hchanged
  | restore ids =>
      have hrun := wpe_observing (wpe_batchRestore hopen hdistinct) hreturns hpath
      cases outcome with
      | error e => exact equalsSingles_error_iff hrun
      | ok n =>
          rcases hrun with ⟨hgoing, hcount, haudits, hchanged⟩
          have hgoing : (RunNotes.of trace).stopped = false := hgoing
          rw [faithful_of_going hgoing]
          -- a row that was in the trash is live afterwards, so it has changed
          have hchanged : Tables.Changed (t.hits ids RecordRow.deleted)
              (BatchRestored (RunNotes.of trace).unread) t t' := hchanged
          refine equalsSingles_trash_iff hopen rfl rfl hdistinct hcount haudits hchanged ?_ ?_
          · rintro id row _ hrow hdeleted ⟨markedAt, rfl⟩ heq
            have hlive := congrArg (fun s : RecordSlice => s.row.map RecordRow.deleted) heq
            simp [RecordSlice.timeless, hrow, restoredRow, hdeleted] at hlive
          · rintro id s _ _ hread ⟨markedAt, rfl⟩ ⟨markedAt', rfl⟩
            rw [if_neg hread]
            rfl
  | hardDelete ids =>
      have hrun := wpe_observing (wpe_batchHardDelete hopen hdistinct) hreturns hpath
      cases outcome with
      | error e => exact equalsSingles_error_iff hrun
      | ok n =>
          rcases hrun with ⟨hgoing, hcount, haudits, hchanged⟩
          have hgoing : (RunNotes.of trace).stopped = false := hgoing
          rw [faithful_of_going hgoing]
          refine equalsSingles_trash_iff hopen rfl rfl hdistinct hcount haudits hchanged ?_ ?_
          -- a row that is gone is not what it was
          · rintro id row _ hrow hdeleted rfl heq
            have hgone := congrArg RecordSlice.row heq
            rw [RecordSlice.timeless, RecordSlice.timeless, hrow] at hgone
            cases hgone
          · rintro id s _ _ - rfl rfl
            rfl
  | emptyTrash =>
      have hrun := wpe_observing (wpe_emptyTrash hopen) hreturns hpath
      cases outcome with
      | error e => exact equalsSingles_error_iff hrun
      | ok n =>
          rcases hrun with ⟨hgoing, hcount, haudits, hchanged⟩
          have hgoing : (RunNotes.of trace).stopped = false := hgoing
          rw [faithful_of_going hgoing]
          exact equalsSingles_emptyTrash_iff hopen hcount haudits hchanged

end All

namespace ThreeNotes

section

attribute [local instance] Sample.codec Sample.serde crypto

/-- A batch operation, with a fault or without. -/
def batch (op : BatchOp) (fault : Option Nat) (b : Bench) : Except VaultError Nat × Bench :=
  run (Bench.serve Sample.instant) (op.program (service 1)).run { b with fault := fault }

def batchTrace (op : BatchOp) (fault : Option Nat) (b : Bench) : List (Event VaultI) :=
  runTrace (Bench.serve Sample.instant) (op.program (service 1)).run { b with fault := fault }

theorem returns_batch (op : BatchOp) (fault : Option Nat) (b : Bench) :
    (op.program (service 1)).run.Returns (batchTrace op fault b) (batch op fault b).1 :=
  returns_runTrace (Bench.serve Sample.instant) (op.program (service 1)).run { b with fault := fault }

theorem path_batch (op : BatchOp) (fault : Option Nat) (b : Bench) :
    Path vaultEnv b.tables (batchTrace op fault b) (batch op fault b).2.tables :=
  (path_runTrace (Bench.serve Sample.instant) (op.program (service 1)).run
    { b with fault := fault }).map Bench.tables fun _ _ _ _ hstep => Bench.serve_env hstep

/-- An id that no record has. -/
def unknownId : Uuid :=
  Uuid.filled 9

/-- A live record, one in the trash and one that is not there. -/
def mixed : List Uuid :=
  [firstId, secondId, unknownId]

theorem mixed_distinct : mixed.Nodup := by
  decide +kernel

/-- The record in the trash can be read both ways, and is the only one of the list. -/
theorem mixed_agree : NamesAgree (service 1) vault.tables [] mixed := by
  have hnames : (vault.tables.slice firstId).row.any (fun row => !row.deleted) = true ∧
      (vault.tables.slice secondId).row.any (fun row =>
        decide ((rowName (service 1) row).toOption =
          some (rowAuditName (service 1) secondId row))) = true ∧
      (vault.tables.slice unknownId).row = none := by
    decide +kernel
  rcases hnames with ⟨hlive, hname, hunknown⟩
  intro id hid row hrow hdeleted
  refine ⟨List.not_mem_nil, ?_⟩
  simp only [mixed, List.mem_cons, List.not_mem_nil, or_false] at hid
  rcases hid with rfl | rfl | rfl
  · simp [hrow, hdeleted] at hlive
  · rw [hrow, Option.any_some, decide_eq_true_eq] at hname
    cases hcase : rowName (service 1) row with
    | error e =>
        rw [hcase] at hname
        cases hname
    | ok name =>
        rw [hcase] at hname
        rw [Option.some.inj hname]
  · rw [hunknown] at hrow
    cases hrow

/-- A restoring counts one record; a deletion counts the one in the trash too; a destruction that
fails at its statement has done nothing. -/
theorem mixed_runs :
    (batch (.restore mixed) none vault).1.toOption = some 1 ∧
      (RunNotes.of (batchTrace (.restore mixed) none vault)).stopped = false ∧
      (RunNotes.of (batchTrace (.restore mixed) none vault)).unread = [] ∧
      (RunNotes.of (batchTrace (.hardDelete mixed) (some 3) vault)).stopped = true ∧
      (RunNotes.of (batchTrace (.hardDelete mixed) (some 3) vault)).done = [] ∧
      (batch (.hardDelete mixed) (some 3) vault).1.toOption = none ∧
      (batch (.softDelete [secondId]) none vault).1.toOption = some 1 := by
  decide +kernel

theorem outcome_of_toOption {outcome : Except VaultError Nat} {n : Nat}
    (h : outcome.toOption = some n) : outcome = .ok n := by
  cases outcome with
  | error e => cases h
  | ok m => rw [Option.some.inj h]

/-- A restoring of live, trashed and unknown ids is right, and so is a destruction of them that
fails at once. -/
theorem equalsSingles_mixed :
    (BatchOp.restore mixed).EqualsSingles (service 1) vault.tables
        (batchTrace (.restore mixed) none vault) (.ok 1) (batch (.restore mixed) none vault).2.tables ∧
      (BatchOp.hardDelete mixed).EqualsSingles (service 1) vault.tables
        (batchTrace (.hardDelete mixed) (some 3) vault) (batch (.hardDelete mixed) (some 3) vault).1
        (batch (.hardDelete mixed) (some 3) vault).2.tables ∧
      (batch (.hardDelete mixed) (some 3) vault).1.toOption = none := by
  rcases mixed_runs with ⟨hcount, hgoing, hread, hstopped, hdone, hfailed, -⟩
  have hopen : (service 1).crypto.isUnlocked = true := rfl
  refine ⟨?_, ?_, hfailed⟩
  · have hreturns := returns_batch (.restore mixed) none vault
    rw [outcome_of_toOption hcount] at hreturns
    apply (equalsSingles_iff (.restore mixed) hopen mixed_distinct hreturns
      (path_batch _ _ _)).mpr
    rw [faithful_of_going hgoing, hread]
    exact mixed_agree
  · generalize hb : vault = b at hstopped hdone ⊢
    exact (equalsSingles_iff (.hardDelete mixed) hopen mixed_distinct
      (returns_batch (.hardDelete mixed) (some 3) b)
      (path_batch (.hardDelete mixed) (some 3) b)).mpr (faithful_of_unwritten hstopped hdone)

/-- A record in the trash is deleted once more, and counted. -/
theorem deleted_again :
    ¬ ∀ (v : VaultService) (t : Tables) (op : BatchOp) (trace : List (Event VaultI))
        (outcome : Except VaultError Nat) (t' : Tables), v.crypto.isUnlocked = true →
          op.Distinct → (op.program v).run.Returns trace outcome → Path vaultEnv t trace t' →
            op.EqualsSingles v t trace outcome t' := by
  intro hall
  rcases mixed_runs with ⟨-, -, -, -, -, -, hcount⟩
  have hreturns := returns_batch (.softDelete [secondId]) none vault
  rw [outcome_of_toOption hcount] at hreturns
  have hdistinct : (BatchOp.softDelete [secondId]).Distinct := List.nodup_singleton _
  have hequal := hall (service 1) vault.tables (.softDelete [secondId]) _ (.ok 1) _ rfl hdistinct
    hreturns (path_batch (.softDelete [secondId]) none vault)
  -- the record is not live
  have hnone : (BatchOp.softDelete [secondId]).affected vault.tables = [] := by
    decide +kernel
  have hlength : 1 = ((BatchOp.softDelete [secondId]).affected vault.tables).length := hequal.1
  rw [hnone] at hlength
  cases hlength

end

end ThreeNotes

end OakKeyring
