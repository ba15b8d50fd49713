import OakKeyring.Db.Slices
import OakKeyring.Lib.Logged
import OakKeyring.Vault.Batch
import OakKeyring.Vault.Field

/-!
# What the trash operations do

The runs of the trash operations are observed: which statements wrote something, which records
could not be read, and whether a statement stopped the run.
-/

namespace OakKeyring

open Effect Pointwise

/-- Statements that write a row. -/
def DbOp.isWrite : DbOp → Bool
  | insertAuditEntry .. => true
  | op => decide (op.writes ≠ [])

structure RunNotes where
  /-- the statements that wrote something -/
  done : List DbOp
  /-- some statement failed, other than the read of a record -/
  stopped : Bool
  /-- the records whose read failed -/
  unread : List Uuid

namespace RunNotes

def start : RunNotes where
  done := []
  stopped := false
  unread := []

def did (m : RunNotes) (op : DbOp) : RunNotes :=
  if op.isWrite then { m with done := m.done ++ [op] } else m

def failed (m : RunNotes) : DbOp → RunNotes
  | .getRecord id => { m with unread := m.unread ++ [id] }
  | _ => { m with stopped := true }

def note (m : RunNotes) : Event VaultI → RunNotes
  | ⟨.db op, answer⟩ =>
      match (answer : Except SqliteError op.Result) with
      | .ok _ => m.did op
      | .error _ => m.failed op
  | _ => m

/-- The notes on a run. -/
def of (trace : List (Event VaultI)) : RunNotes :=
  trace.foldl note start

end RunNotes

/-- An entry of the audit log, without its number and its time. -/
structure AuditNote where
  operation : AuditOperation
  recordId : Option Uuid
  recordName : Option String
  detail : Option String
deriving DecidableEq, Repr

/-- The audit entries among some statements. -/
def auditsOf (done : List DbOp) : List AuditNote :=
  done.filterMap fun op =>
    match op with
    | .insertAuditEntry operation recordId recordName detail =>
        some { operation := operation, recordId := recordId, recordName := recordName
               detail := detail }
    | _ => none

@[simp] theorem auditsOf_append (done done' : List DbOp) :
    auditsOf (done ++ done') = auditsOf done ++ auditsOf done' :=
  List.filterMap_append

/-! ## Rules -/

/-- The database as it is when no fault prevents a statement. -/
def faultlessEnv : Env VaultI Tables
  | t, .db op, answer, t' =>
      (∃ expected result, op.run t = .ok (expected, t') ∧ op.Same expected result ∧
        answer = .ok result) ∨
      (∃ e, op.run t = .error e ∧ answer = .error e) ∧ t' = t
  | t, .now, _, t' => t' = t
  | t, .newUuid, _, t' => t' = t
  | t, .newNonce, _, t' => t' = t

section Rules

variable {t : Tables} {m : RunNotes} {E : VaultError → Tables × RunNotes → Prop}

theorem wpe_noted_query {op : DbOp} {Q : op.Result → Tables × RunNotes → Prop}
    (hok : ∀ expected result t', op.run t = .ok (expected, t') → op.Same expected result →
      Q result (t', m.did op))
    (hfault : ∀ e, E (.DatabaseError e) (t, m.failed op)) :
    wpe (observing vaultEnv RunNotes.note) Q E (Vault.query op) (t, m) := by
  refine wpe_call ?_ ?_
  · rintro answer result ⟨t', m'⟩ hanswer ⟨hstep, hnote⟩
    have hvalue : answer = .ok result := hanswer
    rw [hvalue] at hstep hnote
    have hm : m' = m.did op := hnote
    rcases hstep with ⟨expected, result', hrun, hsame, heq⟩ | ⟨⟨e, heq⟩, -⟩
    · cases heq
      rw [hm]
      exact hok expected result t' hrun hsame
    · cases heq
  · rintro answer e ⟨t', m'⟩ hanswer ⟨hstep, hnote⟩
    have hvalue : answer = .error e := hanswer
    rw [hvalue] at hstep hnote
    have hm : m' = m.failed op := hnote
    rcases hstep with ⟨expected, result', hrun, hsame, heq⟩ | ⟨⟨e', heq⟩, hsame⟩
    · cases heq
    · have ht : t' = t := hsame
      rw [hm, ht]
      exact hfault e

theorem wpe_faultless_query {op : DbOp} {Q : op.Result → Tables × RunNotes → Prop}
    {expected : op.Result} {t' : Tables} (hrun : op.run t = .ok (expected, t'))
    (hok : ∀ result, op.Same expected result → Q result (t', m.did op)) :
    wpe (observing faultlessEnv RunNotes.note) Q E (Vault.query op) (t, m) := by
  refine wpe_call ?_ ?_
  · rintro answer result ⟨u, m'⟩ hanswer ⟨hstep, hnote⟩
    have hvalue : answer = .ok result := hanswer
    rw [hvalue] at hstep hnote
    have hm : m' = m.did op := hnote
    rcases hstep with ⟨expected', result', hrun', hsame, heq⟩ | ⟨⟨e, -, heq⟩, -⟩
    · cases heq
      rw [hrun] at hrun'
      cases hrun'
      rw [hm]
      exact hok result hsame
    · cases heq
  · rintro answer e ⟨u, m'⟩ hanswer ⟨hstep, hnote⟩
    have hvalue : answer = .error e := hanswer
    rw [hvalue] at hstep
    rcases hstep with ⟨expected', result', hrun', hsame, heq⟩ | ⟨⟨e', hrun', heq⟩, -⟩
    · cases heq
    · rw [hrun] at hrun'
      cases hrun'

theorem wpe_observing_now {step : Env VaultI Tables} {Q : DateTime → Tables × RunNotes → Prop}
    (hstep : ∀ u time u', step u .now time u' → u' = u) (h : ∀ time, Q time (t, m)) :
    wpe (observing step RunNotes.note) Q E Vault.now (t, m) := by
  refine wpe_ask ?_
  rintro time ⟨u, m'⟩ ⟨hanswer, hnote⟩
  have hu : u = t := hstep t time u hanswer
  have hm : m' = m := hnote
  rw [hu, hm]
  exact h time

end Rules

/-! ## One record -/

/-- The operations on one record that the batch operations repeat. -/
inductive TrashOp
  | softDelete
  | restore
  | hardDelete
deriving DecidableEq, Repr

namespace TrashOp

def single [Crypto] (v : VaultService) : TrashOp → Uuid → VaultM Unit
  | softDelete => Vault.softDeleteRecord v
  | restore => Vault.restoreRecord v
  | hardDelete => Vault.hardDeleteRecord v

/-- Live records are deleted; records in the trash are restored and destroyed. -/
def applies : TrashOp → RecordRow → Bool
  | softDelete, row => !row.deleted
  | _, row => row.deleted

def operation : TrashOp → AuditOperation
  | softDelete => .RecordDelete
  | restore => .RecordRestore
  | hardDelete => .RecordDestroy

/-- The entry that an operation on a record writes. -/
def audit (op : TrashOp) (id : Uuid) (name : String) : AuditNote where
  operation := op.operation
  recordId := some id
  recordName := some name
  detail := none

/-- What an operation makes of a record; the times are those the clock shows. -/
def Effect : TrashOp → RecordSlice → RecordSlice → Prop
  | softDelete, s, s' => ∃ deletedAt markedAt, s' =
      { s with
        row := s.row.map fun row => { row with deleted := true, deletedAt := some deletedAt }
        health := none
        sync := some (Tables.pendingRow markedAt s.sync) }
  | restore, s, s' => ∃ markedAt, s' =
      { s with
        row := s.row.map fun row => { row with deleted := false, deletedAt := none }
        sync := some (Tables.pendingRow markedAt s.sync) }
  | hardDelete, _, s' => s' = .empty

end TrashOp

/-- The name that `decrypt_record_name` finds in a row. -/
def rowName [Crypto] (v : VaultService) (row : RecordRow) : Except String String :=
  (v.crypto.decryptPayload row.encryptedData row.nonce row.aad row.dekVersion).map
    EncryptedPayload.name

section Singles

variable [Crypto] {v : VaultService} {t : Tables} {m : RunNotes} {id : Uuid} {row : RecordRow}
  {E : VaultError → Tables × RunNotes → Prop}

theorem wpe_open {S : Type} {step : Env VaultI S} {Q : Unit → S → Prop} {E : VaultError → S → Prop}
    {s : S} (hopen : v.crypto.isUnlocked = true) (h : Q () s) :
    wpe step Q E (Vault.requireUnlocked v) s := by
  unfold Vault.requireUnlocked
  rw [if_pos hopen]
  exact h

omit [Crypto] in
/-- A mark on a record that is there. -/
theorem wpe_faultless_mark (hrow : (t.slice id).row = some row) :
    wpe (observing faultlessEnv RunNotes.note)
      (fun _ u => Tables.Changed [id] (fun _ s s' => ∃ markedAt,
          s' = { s with sync := some (Tables.pendingRow markedAt s.sync) }) t u.1 ∧
        auditsOf u.2.done = auditsOf m.done) E
      (Vault.markRecordsPendingSync [id]) (t, m) := by
  have hmem : id ∈ t.records := AList.lookup_isSome.mp (Option.isSome_iff_exists.mpr ⟨row, hrow⟩)
  refine (wpe_bind _ _).mpr ((wpe_bind _ _).mpr (wpe_observing_now (fun _ _ _ h => h) ?_))
  intro time
  have hupsert : t.upsertSyncState id (Tables.pendingRow (datetimeToTimestamp time)) =
      .ok { t with
        syncState := t.syncState.insert id
          (Tables.pendingRow (datetimeToTimestamp time) (t.syncState.lookup id)) } := by
    simp [Tables.upsertSyncState, Tables.referring, hmem]
  have hrun : DbOp.run (.upsertSyncStatePending id (datetimeToTimestamp time)) t =
      .ok ((), { t with
        syncState := t.syncState.insert id
          (Tables.pendingRow (datetimeToTimestamp time) (t.syncState.lookup id)) }) := by
    change (t.upsertSyncState id (Tables.pendingRow (datetimeToTimestamp time)) >>= fun t =>
      Except.ok ((), t)) = _
    rw [hupsert]
    rfl
  refine wpe_faultless_query hrun ?_
  intro _ _
  have hchanged := Tables.changed_upsertSyncState hupsert
  refine ⟨hchanged.mono fun _ _ h => ⟨_, h⟩, ?_⟩
  simp [RunNotes.did, DbOp.isWrite, DbOp.writes, auditsOf]

/-- Every operation on a record begins with its name. -/
theorem wpe_faultless_named {f : String → VaultM Unit} {Q : Unit → Tables × RunNotes → Prop}
    (hopen : v.crypto.isUnlocked = true) (hrow : (t.slice id).row = some row)
    (hok : ∀ name, rowName v row = .ok name →
      wpe (observing faultlessEnv RunNotes.note) Q E (f name) (t, m))
    (herror : ∀ e, rowName v row = .error e → E (.CryptoError e) (t, m)) :
    wpe (observing faultlessEnv RunNotes.note) Q E
      (do
        Vault.requireUnlocked v
        let stored ← Vault.getStoredRecord id
        let recordName ← Vault.decryptRecordName v stored
        f recordName) (t, m) := by
  have hlookup : t.records.lookup id = some row := hrow
  have hstored : t.storedRecord id = some (row.toStoredRecord id (t.tagsOf id)) := by
    rw [Tables.storedRecord, hlookup]
    rfl
  refine (wpe_bind _ _).mpr (wpe_open hopen ?_)
  have hread : DbOp.run (.getRecord id) t = .ok (t.storedRecord id, t) := rfl
  refine (wpe_bind _ _).mpr ((wpe_bind _ _).mpr (wpe_faultless_query hread ?_))
  intro found hfound
  have hfound : found = some (row.toStoredRecord id (t.tagsOf id)) := Eq.trans hfound hstored
  rw [hfound]
  refine (wpe_bind _ _).mpr ((wpe_bind _ _).mpr (Vault.wpe_crypto ?_ ?_))
  · intro payload hpayload
    apply hok
    exact congrArg (Except.map EncryptedPayload.name) hpayload
  · intro e hpayload
    apply herror
    exact congrArg (Except.map EncryptedPayload.name) hpayload

omit [Crypto] in
theorem wpe_faultless_audit {operation : AuditOperation} {recordId : Option Uuid}
    {recordName detail : Option String} {Q : Unit → Tables × RunNotes → Prop}
    (h : Q () (t, m.did (.insertAuditEntry operation recordId recordName detail))) :
    wpe (observing faultlessEnv RunNotes.note) Q E
      (Vault.query (.insertAuditEntry operation recordId recordName detail)) (t, m) := by
  have hrun : DbOp.run (.insertAuditEntry operation recordId recordName detail) t = .ok ((), t) :=
    rfl
  exact wpe_faultless_query hrun fun _ _ => h

/-- An operation on a record whose name can be read changes that record and writes one entry; on
another it does nothing. -/
theorem wpe_single (op : TrashOp) (hopen : v.crypto.isUnlocked = true)
    (hrow : (t.slice id).row = some row) :
    wpe (observing faultlessEnv RunNotes.note)
      (fun _ u => ∃ name, rowName v row = .ok name ∧
        Tables.Changed [id] (fun _ => op.Effect) t u.1 ∧
        auditsOf u.2.done = auditsOf m.done ++ [op.audit id name])
      (fun _ u => (∀ name, rowName v row ≠ .ok name) ∧ u.1 = t ∧ u.2 = m)
      (op.single v id) (t, m) := by
  -- each operation writes the row, the audit entry and the mark
  cases op with
  | softDelete =>
      refine wpe_faultless_named hopen hrow ?_ ?_
      · intro name hname
        refine (wpe_bind _ _).mpr (wpe_observing_now (fun _ _ _ h => h) ?_)
        intro time
        have hdelete : DbOp.run (.softDeleteRecord id (datetimeToTimestamp time)) t =
            .ok ((), t.updateRow id fun row =>
              { row with deleted := true, deletedAt := some (datetimeToTimestamp time) }) := rfl
        refine (wpe_bind _ _).mpr (wpe_faultless_query hdelete ?_)
        intro _ _
        refine (wpe_bind _ _).mpr (wpe_faultless_query rfl ?_)
        intro _ _
        refine (wpe_bind _ _).mpr (wpe_faultless_audit ?_)
        have hchanged := (Tables.changed_updateRow t id fun row =>
          { row with
            deleted := true
            deletedAt := some (datetimeToTimestamp time) }).trans
          (Tables.changed_eraseHealth _ id)
        rcases hchanged.2.related List.mem_cons_self with ⟨_, hupdated, herased⟩
        refine wpe_mono ?_ (fun _ _ h => h) (@wpe_faultless_mark _ _ _ { row with
          deleted := true
          deletedAt := some (datetimeToTimestamp time) } _ ?_)
        -- the mark is put on last, after the row was written
        · intro _ u hmark
          refine ⟨name, hname, (hchanged.trans hmark.1).mono ?_, ?_⟩
          · rintro other _ ⟨_, ⟨_, rfl, rfl⟩, markedAt, hend⟩
            exact ⟨_, markedAt, hend⟩
          · rw [hmark.2]
            simp [RunNotes.did, DbOp.isWrite, DbOp.writes, auditsOf, TrashOp.audit,
              TrashOp.operation]
        · rw [herased, hupdated]
          exact congrArg (Option.map _) hrow
      · intro e hname
        exact ⟨by simp [hname], rfl, rfl⟩
  | restore =>
      refine wpe_faultless_named hopen hrow ?_ ?_
      · intro name hname
        have hrestore : DbOp.run (.restoreRecord id) t = .ok ((), t.updateRow id fun row =>
            { row with deleted := false, deletedAt := none }) := rfl
        refine (wpe_bind _ _).mpr (wpe_faultless_query hrestore ?_)
        intro _ _
        refine (wpe_bind _ _).mpr (wpe_faultless_audit ?_)
        have hchanged := Tables.changed_updateRow t id fun row =>
          { row with deleted := false, deletedAt := none }
        have hupdated := hchanged.2.related List.mem_cons_self
        refine wpe_mono ?_ (fun _ _ h => h) (@wpe_faultless_mark _ _ _ { row with
          deleted := false
          deletedAt := none } _ ?_)
        · intro _ u hmark
          refine ⟨name, hname, (hchanged.trans hmark.1).mono ?_, ?_⟩
          · rintro other _ ⟨_, rfl, markedAt, hend⟩
            exact ⟨markedAt, hend⟩
          · rw [hmark.2]
            simp [RunNotes.did, DbOp.isWrite, DbOp.writes, auditsOf, TrashOp.audit,
              TrashOp.operation]
        · rw [hupdated]
          exact congrArg (Option.map _) hrow
      -- a refused operation leaves the vault as it was
      · intro e hname
        exact ⟨by simp [hname], rfl, rfl⟩
  | hardDelete =>
      refine wpe_faultless_named hopen hrow ?_ ?_
      · intro name hname
        have hdelete : DbOp.run (.hardDeleteRecord id) t = .ok ((), t.deleteRow id) := rfl
        refine (wpe_bind _ _).mpr (wpe_faultless_query hdelete ?_)
        intro _ _
        refine (wpe_bind _ _).mpr (wpe_faultless_query rfl ?_)
        intro _ _
        refine wpe_faultless_audit ⟨name, hname, ?_, ?_⟩
        · have hchanged := (Tables.changed_deleteRow t id).trans (Tables.changed_eraseHealth _ id)
          apply hchanged.mono
          rintro other _ ⟨_, rfl, hend⟩
          exact hend
        · simp [RunNotes.did, DbOp.isWrite, DbOp.writes, Table.cascade, auditsOf, TrashOp.audit,
            TrashOp.operation]
      · intro e hname
        exact ⟨by simp [hname], rfl, rfl⟩

end Singles

/-! ## One record after another -/

section OneByOne

variable [Crypto] (v : VaultService) (op : TrashOp)

/-- The operation on each of some records; one that fails does not stop the others. -/
def eachSingly (ids : List Uuid) : VaultM Unit :=
  ids.forM fun id => do
    let _ ← Fallible.attempt (op.single v id)

/-- What an operation without a fault makes of a record, by its name. -/
inductive TrashOp.Applied : RecordSlice → RecordSlice → Prop
  | named {s s' : RecordSlice} {row : RecordRow} {name : String} (hrow : s.row = some row)
      (hname : rowName v row = .ok name) (heffect : op.Effect s s') : Applied s s'
  | unnamed {s : RecordSlice} {row : RecordRow} (hrow : s.row = some row)
      (hname : ∀ name, rowName v row ≠ .ok name) : Applied s s

variable {v op} in
theorem TrashOp.applied_cases {s s' : RecordSlice} {row : RecordRow} (h : op.Applied v s s')
    (hrow : s.row = some row) :
    (∃ name, rowName v row = .ok name ∧ op.Effect s s') ∨
      ((∀ name, rowName v row ≠ .ok name) ∧ s' = s) := by
  cases h with
  | named hrow' hname heffect =>
      cases hrow.symm.trans hrow'
      exact Or.inl ⟨_, hname, heffect⟩
  | unnamed hrow' hname =>
      cases hrow.symm.trans hrow'
      exact Or.inr ⟨hname, rfl⟩

variable {v op} in
theorem TrashOp.Applied.effect {s s' : RecordSlice} {row : RecordRow} {name : String}
    (h : op.Applied v s s') (hrow : s.row = some row) (hname : rowName v row = .ok name) :
    op.Effect s s' := by
  rcases op.applied_cases h hrow with ⟨_, -, heffect⟩ | ⟨hnone, -⟩
  · exact heffect
  · exact absurd hname (hnone name)

/-- The entry for a record, if its name can be read. -/
def TrashOp.auditOf (t : Tables) (id : Uuid) : Option AuditNote :=
  (t.slice id).row.bind fun row => (rowName v row).toOption.map (op.audit id)

variable {v op} {t : Tables} {ids : List Uuid}

theorem TrashOp.auditOf_eq_some {id : Uuid} {note : AuditNote} :
    op.auditOf v t id = some note ↔
      ∃ row name, (t.slice id).row = some row ∧ rowName v row = .ok name ∧
        note = op.audit id name := by
  unfold TrashOp.auditOf
  rw [Option.bind_eq_some_iff]
  constructor
  · rintro ⟨row, hrow, hnote⟩
    rcases Option.map_eq_some_iff.mp hnote with ⟨name, hname, rfl⟩
    cases hcase : rowName v row with
    | ok name' =>
        rw [hcase] at hname
        cases hname
        exact ⟨row, _, hrow, hcase, rfl⟩
    | error e =>
        rw [hcase] at hname
        cases hname
  · rintro ⟨row, name, hrow, hname, rfl⟩
    refine ⟨row, hrow, ?_⟩
    rw [hname]
    rfl

variable (op) in
/-- One operation after another changes the records with a name, and writes an entry for each. -/
theorem wpe_eachSingly (hopen : v.crypto.isUnlocked = true) (hnodup : ids.Nodup)
    (hrows : ∀ id ∈ ids, ∃ row, (t.slice id).row = some row) :
    wpe (observing faultlessEnv RunNotes.note)
      (fun _ u => Tables.Changed ids (fun _ => op.Applied v) t u.1 ∧
        auditsOf u.2.done = ids.filterMap (op.auditOf v t))
      (fun _ _ => False) (eachSingly v op ids) (t, .start) := by
  refine wpe_forM (P := fun done (u : Tables × RunNotes) =>
    Tables.Changed done (fun _ => op.Applied v) t u.1 ∧
      auditsOf u.2.done = done.filterMap (op.auditOf v t)) ⟨.refl _ t, rfl⟩ ?_
  -- what the singles did so far is what their ids ask for
  rintro done id rest ⟨u, m⟩ rfl ⟨hchanged, haudits⟩
  have hid : id ∉ done := by
    intro hmem
    exact List.disjoint_of_nodup_append hnodup hmem List.mem_cons_self
  rcases hrows id (List.mem_append_right _ List.mem_cons_self) with ⟨row, hrow⟩
  have hsame : u.slice id = t.slice id := hchanged.2.kept hid
  have hnow : (u.slice id).row = some row := by rw [hsame, hrow]
  refine (wpe_bind _ _).mpr (wpe_attempt (wpe_mono ?_ ?_ (wpe_single op hopen hnow)))
  -- the operation succeeds, and its entry is the next one
  · rintro _ ⟨u', m'⟩ ⟨name, hname, hstep, hwritten⟩
    have happlied : Tables.Changed [id] (fun _ => op.Applied v) u u' := by
      apply hstep.mono
      intro other hother heffect
      rw [List.mem_singleton.mp hother] at heffect ⊢
      exact .named hnow hname heffect
    refine ⟨hchanged.snoc hid happlied, ?_⟩
    have hnote : op.auditOf v t id = some (op.audit id name) :=
      TrashOp.auditOf_eq_some.mpr ⟨row, name, hrow, hname, rfl⟩
    have hwritten : auditsOf m'.done = auditsOf m.done ++ [op.audit id name] := hwritten
    have haudits : auditsOf m.done = done.filterMap (op.auditOf v t) := haudits
    rw [hwritten, haudits, List.filterMap_append]
    simp [hnote]
  -- the operation is refused, and neither rows nor entries change
  · rintro _ ⟨u', m'⟩ ⟨hname, hu, hm⟩
    cases hu
    cases hm
    have happlied : Tables.Changed [id] (fun _ => op.Applied v) u' u' := by
      refine ⟨.refl u', fun other => ⟨fun hother => ?_, fun _ => rfl⟩⟩
      rw [List.mem_singleton.mp hother]
      exact .unnamed hnow hname
    refine ⟨hchanged.snoc hid happlied, ?_⟩
    have hnote : op.auditOf v t id = none := by
      rw [Option.eq_none_iff_forall_ne_some]
      intro note hsome
      rcases TrashOp.auditOf_eq_some.mp hsome with ⟨row', name, hrow', hname', -⟩
      rw [hrow] at hrow'
      cases hrow'
      exact hname name hname'
    have haudits : auditsOf m'.done = done.filterMap (op.auditOf v t) := haudits
    rw [haudits, List.filterMap_append]
    simp [hnote]

/-- The answers of a database without faults, at a fixed time. -/
def faultlessAnswers (now : DateTime) : Handler VaultI Tables
  | t, .db op =>
      match op.run t with
      | .ok (result, t') => (.ok result, t')
      | .error e => (.error e, t)
  | t, .now => (now, t)
  | t, .newUuid => (.nil, t)
  | t, .newNonce => (Nonce.filled 0, t)

omit [Crypto] in
theorem faultlessAnswers_env {now : DateTime} {c : VaultCall} {answer : c.Answer} {t' : Tables}
    (h : (faultlessAnswers now).env t c answer t') : faultlessEnv t c answer t' := by
  have hanswers : faultlessAnswers now t c = (answer, t') := h
  cases c with
  | db op =>
      simp only [faultlessAnswers] at hanswers
      split at hanswers
      · rename_i result u hrun
        cases hanswers
        exact Or.inl ⟨result, result, hrun, DbOp.Same.refl op result, rfl⟩
      · rename_i e hrun
        cases hanswers
        exact Or.inr ⟨⟨e, hrun, rfl⟩, rfl⟩
  | now =>
      cases hanswers
      rfl
  | newUuid =>
      cases hanswers
      rfl
  | newNonce =>
      cases hanswers
      rfl

variable (op) in
/-- One operation after another always comes to an end. -/
theorem exists_eachSingly (hopen : v.crypto.isUnlocked = true) (hnodup : ids.Nodup)
    (hrows : ∀ id ∈ ids, ∃ row, (t.slice id).row = some row) :
    ∃ trace t', (eachSingly v op ids).run.Returns trace (.ok ()) ∧
      Path faultlessEnv t trace t' := by
  let h := faultlessAnswers ⟨0, 0⟩
  have hreturns := returns_runTrace h (eachSingly v op ids).run t
  have hpath : Path faultlessEnv t (runTrace h (eachSingly v op ids).run t)
      (run h (eachSingly v op ids).run t).2 :=
    (path_runTrace h (eachSingly v op ids).run t).mono fun _ _ _ _ => faultlessAnswers_env
  cases houtcome : (run h (eachSingly v op ids).run t).1 with
  | ok result =>
      rw [houtcome] at hreturns
      exact ⟨_, _, hreturns, hpath⟩
  | error e =>
      rw [houtcome] at hreturns
      exact (wpe_observing (wpe_eachSingly op hopen hnodup hrows) hreturns hpath).elim

end OneByOne

end OakKeyring
