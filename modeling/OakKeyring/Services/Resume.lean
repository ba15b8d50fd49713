import OakKeyring.Services.Migration

/-!
# What a resumed rotation has done

A rotation that is resumed and returns has read its checkpoint, worked through the records that
its query listed, and removed the checkpoint.
-/

namespace OakKeyring

open Effect

section Resumed

variable [RotationJson]

/-- The checkpoint that a rotation is resumed from. -/
def Tables.pendingCheckpoint (t : Tables) : Option RotationCheckpoint :=
  match t.metadata.lookup CHECKPOINT_KEY with
  | none => none
  | some text => if text = "" then none else (checkpointFromJson text).toOption

end Resumed

/-- The records that a call has listed. -/
def VaultCall.listed : (c : VaultCall) → c.Answer → Option (List StoredRecord)
  | .db (.listRecords _), .ok records => some records
  | _, _ => none

/-- The first listing of a trace. -/
def firstListing (trace : List (Event VaultI)) : Option (List StoredRecord) :=
  trace.findSome? fun e => VaultCall.listed e.call e.answer

namespace RotationService

variable [Crypto] [RotationJson] {v : VaultService} {t t' : Tables}

omit [Crypto] in
/-- Loading a checkpoint changes nothing. -/
theorem wpe_loadCheckpoint :
    wpe vaultEnv (fun stored u => stored = t.pendingCheckpoint ∧ u = t) (fun _ _ => True)
      loadCheckpoint t := by
  refine (wpe_bind _ _).mpr (wpe_mapError
    (Vault.wpe_query_of_run rfl (fun (stored : Option String) hstored => ?_) fun _ => trivial))
  have hread : stored = t.metadata.lookup CHECKPOINT_KEY := hstored
  rw [hread]
  unfold Tables.pendingCheckpoint readCheckpoint
  cases t.metadata.lookup CHECKPOINT_KEY with
  | none => exact ⟨rfl, rfl⟩
  | some text =>
      refine wpe_ite (fun hempty => ?_) fun hfull => ?_
      · exact ⟨(if_pos hempty).symm, rfl⟩
      · cases hjson : checkpointFromJson text with
        | error e => trivial
        | ok checkpoint =>
            refine ⟨?_, rfl⟩
            simp only [if_neg hfull, hjson]
            rfl

omit [Crypto] in
theorem listed_loadCheckpoint {trace rest : List (Event VaultI)}
    {stored : Option RotationCheckpoint} (h : loadCheckpoint.run.Returns trace (.ok stored)) :
    firstListing (trace ++ rest) = firstListing rest := by
  have hcalls : Fallible.Only (I := VaultI)
      (fun c => c = VaultCall.db (.getMetadata CHECKPOINT_KEY)) loadCheckpoint := by
    refine only_bind (only_mapError (only_call rfl)) fun stored => ?_
    unfold readCheckpoint
    cases stored with
    | none => exact only_pure _
    | some text =>
        refine only_ite (only_pure _) ?_
        cases hjson : checkpointFromJson text with
        | error e => exact only_throw _
        | ok checkpoint => exact only_pure _
  have hall := Prog.CallsOnly.of_returns hcalls h
  unfold firstListing
  rw [List.findSome?_append]
  have hnone : (trace.findSome? fun e => VaultCall.listed e.call e.answer) = none := by
    rw [List.findSome?_eq_none_iff]
    intro e he
    rcases e with ⟨c, answer⟩
    have hc : c = VaultCall.db (.getMetadata CHECKPOINT_KEY) := hall _ he
    cases hc
    rfl
  rw [hnone, Option.none_or]

/-- What a resumed rotation that returns has done. -/
structure Finished (v : VaultService) (t : Tables) (start : RotationCheckpoint)
    (records : List StoredRecord) (res : RotationResult) (t' : Tables) : Prop where
  listed : records.Perm
    (t.storedRecords.filter (RecordQuery.dekVersionBelow start.newDekVersion).selects)
  versions : res.oldDekVersion = start.oldDekVersion ∧ res.newDekVersion = start.newDekVersion
  count : res.recordsMigrated = start.migratedRecords + (work start records).length
  migrated : Migrated v t ((work start records).map StoredRecord.id) t'
  cleared : t'.metadata.lookup CHECKPOINT_KEY = none

omit [Crypto] [RotationJson] in
theorem wpe_deleteCheckpoint {Q : Unit → Tables → Prop}
    (h : Q () { t with metadata := t.metadata.erase CHECKPOINT_KEY }) :
    wpe vaultEnv Q (fun _ _ => True) deleteCheckpoint t := by
  refine (wpe_bind _ _).mpr (wpe_mapError
    (Vault.wpe_query_of_run rfl (fun (deleted : Bool) _ => ?_) fun _ => trivial))
  exact h

/-- The migration of a run that returns, and where its records come from. -/
theorem migrate_returns [LawfulCrypto] {start : RotationCheckpoint} {trace : List (Event VaultI)}
    {acc : Nat × RotationCheckpoint}
    (hret : (migrateAllRecords v start).run.Returns trace (.ok acc))
    (hpath : Path vaultEnv t trace t') :
    ∃ records, (∀ rest, firstListing (trace ++ rest) = some records) ∧
      records.Perm
        (t.storedRecords.filter (RecordQuery.dekVersionBelow start.newDekVersion).selects) ∧
      Progress v t start records acc t' := by
  rcases returns_ok_bind hret with ⟨t₁, t₂, records, htrace, hlist, hloop⟩
  rcases returns_ok_call (returns_ok_mapError hlist) with ⟨answer, ht₁, hanswer⟩
  rw [htrace, path_append] at hpath
  rcases hpath with ⟨u, hfirst, hrest⟩
  have hrecords : answer = .ok records := hanswer
  rw [ht₁, hrecords] at hfirst
  rcases hfirst with ⟨w, hstep, hend⟩
  -- the records below the version of the checkpoint, in the order of the database
  have hlisted : records.Perm
      (t.storedRecords.filter (RecordQuery.dekVersionBelow start.newDekVersion).selects) ∧
      u = t := by
    have hu : u = w := hend
    rcases hstep with ⟨expected, result, hrun, hsame, heq⟩ | ⟨⟨e, heq⟩, -⟩
    · cases hrun
      cases heq
      exact ⟨hsame, hu⟩
    · cases heq
  rw [hlisted.2] at hrest
  refine ⟨records, ?_, hlisted.1, ?_⟩
  · intro rest
    rw [htrace, ht₁, hrecords]
    rfl
  · exact ((wpe_iff _).mp (wpe_migrate hlisted.1)).1 t₂ acc t' hloop hrest

theorem resume_returns [LawfulCrypto] {trace : List (Event VaultI)} {res : RotationResult}
    (hret : (resumeRotation v).run.Returns trace (.ok res)) (hpath : Path vaultEnv t trace t') :
    ∃ start records, t.pendingCheckpoint = some start ∧ firstListing trace = some records ∧
      Finished v t start records res t' := by
  rcases returns_ok_bind hret with ⟨t₁, t₂, stored, htrace, hload, hrest⟩
  rw [htrace, path_append] at hpath
  rcases hpath with ⟨u, hfirst, hpath⟩
  have hloaded := ((wpe_iff _).mp (wpe_loadCheckpoint (t := t))).1 t₁ stored u hload hfirst
  rw [hloaded.2] at hpath
  -- without a checkpoint there is nothing to resume
  cases hstored : stored with
  | none =>
      rw [hstored] at hrest
      rcases hrest with ⟨-, hvalue⟩
      cases hvalue
  | some start =>
      rw [hstored] at hrest
      rcases returns_ok_bind hrest with ⟨t₃, t₄, acc, htrace', hmigrate, hlast⟩
      rw [htrace', path_append] at hpath
      rcases hpath with ⟨w, hmigrated, hpath⟩
      rcases migrate_returns hmigrate hmigrated with ⟨records, hlisting, hlisted, hprogress⟩
      refine ⟨start, records, ?_, ?_, ?_⟩
      · rw [← hloaded.1, hstored]
      · rw [htrace, listed_loadCheckpoint hload, htrace']
        exact hlisting t₄
      -- the end of the rotation writes the configuration and clears the checkpoint
      · have hend : wpe vaultEnv (fun res w' => Finished v t start records res w')
            (fun _ _ => True) (do
              deleteCheckpoint
              return resultOf acc.2 acc.1) w := by
          refine (wpe_bind _ _).mpr (wpe_deleteCheckpoint ?_)
          constructor
          · exact hlisted
          · exact hprogress.versions
          · exact hprogress.count
          · constructor
            · intro key hkey
              calc
                (w.metadata.erase CHECKPOINT_KEY).lookup key = w.metadata.lookup key :=
                  AList.lookup_erase_ne hkey
                _ = t.metadata.lookup key := hprogress.migrated.metadata key hkey
            · exact hprogress.migrated.kept
            · exact hprogress.migrated.moved
          · exact AList.lookup_erase _ _
        exact ((wpe_iff _).mp hend).1 t₄ res t' hlast hpath

variable {start : RotationCheckpoint} {records : List StoredRecord} {res : RotationResult}

omit [RotationJson] in
/-- A record below the new version is listed. -/
theorem Finished.mem_listed (h : Finished v t start records res t') {id : Uuid} {row : RecordRow}
    (hrow : t.records.lookup id = some row) (hbelow : row.dekVersion < start.newDekVersion) :
    ∃ record ∈ records, record.id = id := by
  have hmem : id ∈ t.storedRecords.map StoredRecord.id := by
    rw [Tables.id_mem_storedRecords, ← AList.lookup_isSome, hrow]
    rfl
  rcases List.mem_map.mp hmem with ⟨record, hrecord, hid⟩
  refine ⟨record, h.listed.mem_iff.mpr (List.mem_filter.mpr ⟨hrecord, ?_⟩), hid⟩
  rcases Tables.mem_storedRecords hrecord with ⟨found, hfound, hvalue⟩
  rw [hid] at hfound
  have hsame : found = row := Option.some.inj (hfound.symm.trans hrow)
  have hversion : record.dekVersion = row.dekVersion := by
    rw [hvalue, hsame]
    rfl
  refine decide_eq_true ?_
  rw [hversion]
  exact hbelow

omit [RotationJson] in
/-- A listed record is there, below the new version. -/
theorem Finished.row_of_listed (h : Finished v t start records res t') {record : StoredRecord}
    (hmem : record ∈ records) :
    ∃ row, t.records.lookup record.id = some row ∧ row.dekVersion < start.newDekVersion := by
  rcases List.mem_filter.mp (h.listed.mem_iff.mp hmem) with ⟨hstored, hselected⟩
  rcases Tables.mem_storedRecords hstored with ⟨row, hrow, hvalue⟩
  have hbelow : record.dekVersion < start.newDekVersion := of_decide_eq_true hselected
  have hversion : record.dekVersion = row.dekVersion := by
    rw [hvalue]
    rfl
  rw [hversion] at hbelow
  exact ⟨row, hrow, hbelow⟩

omit [Crypto] [RotationJson] in
/-- Every listed record is worked on, unless the first is left out. -/
theorem work_eq (h : ∀ record, records.head? = some record → ¬ skips start record) :
    work start records = records := by
  cases records with
  | nil => rfl
  | cons record rest => exact work_of_not_skips (h record rfl)

end RotationService

end OakKeyring
