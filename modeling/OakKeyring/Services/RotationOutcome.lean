import OakKeyring.Executor.Rotation
import OakKeyring.Samples.Rotation
import OakKeyring.Services.Resume

/-!
# When a rotation rotates

A rotation reports the key version that follows the current one, while the records are encrypted
under the current one; nothing changes which one that is.
-/

namespace OakKeyring

open Effect

/-! ## What is published -/

namespace Rotation

/-- A call that publishes no other version. -/
def Publishes (version : Nat) (op : RotationOp) : Prop :=
  ∀ metadata expected, op = .pushMetadataAtomic metadata expected →
    metadata.currentDekVersion = version

theorem publishes_downloadMetadata (version : Nat) :
    Publishes version RotationOp.downloadMetadata := by
  intro metadata expected heq
  cases heq

theorem publishes_resumeAndReturn (version : Nat) (result : CommandResult) :
    (resumeAndReturn result).CallsOnly (I := RotationI) (Publishes version) := by
  refine ⟨?_, fun _ => trivial⟩
  intro metadata expected heq
  cases heq

theorem publishes_resolveCasConflict (version localNewVersion : Nat) :
    (resolveCasConflict localNewVersion).CallsOnly (I := RotationI) (Publishes version) := by
  refine ⟨publishes_downloadMetadata version, fun answer => ?_⟩
  match answer with
  | .error e => trivial
  | .ok none => trivial
  | .ok (some cloudMeta) =>
      have hends : ∀ (c : Prop) [Decidable c] (a b : Except String Nat),
          (if c then pure a else pure b : Rotation _).CallsOnly (I := RotationI)
            (Publishes version) :=
        fun _ _ _ _ => .ite trivial trivial
      exact hends _ _ _

/-- What is pushed carries the version that was reported. -/
theorem publishes_publish (label : String) (expectedVersion : Nat) (res : RotationResult) :
    (publish label expectedVersion res).CallsOnly (I := RotationI)
      (Publishes res.newDekVersion) := by
  refine ⟨publishes_downloadMetadata _, fun answer => ?_⟩
  match answer with
  | .error e => exact publishes_resumeAndReturn _ _
  | .ok none => exact publishes_resumeAndReturn _ _
  | .ok (some metadata) =>
      refine ⟨?_, fun pushed => ?_⟩
      · intro updated expected heq
        cases heq
        rfl
      · match pushed with
        | .ok _ => exact publishes_resumeAndReturn _ _
        | .error casError =>
            exact (publishes_resolveCasConflict _ _).bind fun _ => publishes_resumeAndReturn _ _

end Rotation

/-! ## What a rotation is for -/

inductive RotationCall
  | rotate (trigger : RotationTrigger) (expectedMetadataVersion : Nat)
  | resumeRotation

section Outcome

variable [Crypto] [RotationJson]

def RotationCall.program (v : VaultService) : RotationCall → RotationM RotationResult
  | rotate trigger expectedMetadataVersion =>
      RotationService.rotate v trigger expectedMetadataVersion
  | resumeRotation => RotationService.resumeRotation v

/-- What a rotation to a new key version is for: every record is under it, with the plaintext it
had; it is the one that is used from then on, the next rotation starts from it, and it is the one
that is published. -/
structure ReallyRotated (v : VaultService) (t t' : Tables) (res : RotationResult) : Prop where
  migrated : ∀ id row', t'.records.lookup id = some row' → row'.dekVersion = res.newDekVersion
  present : ∀ id, id ∈ t'.records ↔ id ∈ t.records
  readable : ∀ id row row' plaintext, t.records.lookup id = some row →
    t'.records.lookup id = some row' →
    v.crypto.decrypt row.encryptedData row.nonce row.aad row.dekVersion = .ok plaintext →
    v.crypto.decrypt row'.encryptedData row'.nonce row'.aad res.newDekVersion = .ok plaintext
  encrypts : v.crypto.currentDekVersion = res.newDekVersion
  startsFrom : ∀ trigger expectedMetadataVersion trace next u,
    (RotationService.rotate v trigger expectedMetadataVersion).run.Returns trace (.ok next) →
    Path vaultEnv t' trace u → next.oldDekVersion = res.newDekVersion
  published : ∀ label expectedVersion trace result,
    (Rotation.publish label expectedVersion res).Returns trace result →
    ∀ e ∈ trace, ∀ metadata version, e.call = RotationOp.pushMetadataAtomic metadata version →
      metadata.currentDekVersion = v.crypto.currentDekVersion

/-- A resumed rotation to the version that is current already, whose query does not list first the
record that the checkpoint leaves out. -/
def RotationWorks (v : VaultService) (t : Tables) (trace : List (Event VaultI)) :
    RotationCall → Prop
  | .rotate _ _ => False
  | .resumeRotation =>
      ∀ start, t.pendingCheckpoint = some start →
        v.crypto.currentDekVersion = start.newDekVersion ∧
          ∀ records record, firstListing trace = some records → records.head? = some record →
            ¬ RotationService.skips start record

namespace RotationService

variable {v : VaultService} {t t' : Tables}

/-- A rotation reports the current version as the old one, and its successor as the new one. -/
theorem rotate_versions [LawfulCrypto] (trigger : RotationTrigger)
    (expectedMetadataVersion : Nat) :
    wpe vaultEnv
      (fun res _ => res.oldDekVersion = v.crypto.currentDekVersion ∧
        res.newDekVersion = v.crypto.currentDekVersion + 1)
      (fun _ _ => True) (rotate v trigger expectedMetadataVersion) t := by
  refine wpe_ite (fun _ => trivial) fun _ => ?_
  refine (wpe_bind _ _).mpr (wpe_mapError (Vault.wpe_now fun startedAt => ?_))
  refine (wpe_bind _ _).mpr (wpe_saveCheckpoint _ fun text _ => ?_)
  refine (wpe_bind _ _).mpr ((wpe_bind _ _).mpr (wpe_mapError
    (Vault.wpe_query_of_run rfl (fun (records : List StoredRecord) hlisted => ?_)
      fun _ => trivial)))
  refine wpe_mono ?_ (fun _ _ _ => trivial) (wpe_migrate hlisted)
  intro acc u hprogress
  refine (wpe_bind _ _).mpr (wpe_deleteCheckpoint ?_)
  refine (wpe_bind _ _).mpr (wpe_mono ?_ (fun _ _ _ => trivial) wpe_true)
  intro _ _ _
  exact hprogress.versions

variable {start : RotationCheckpoint} {records : List StoredRecord} {res : RotationResult}

omit [RotationJson] in
/-- The record that is left out keeps its version. -/
theorem Finished.skipped_stays (h : Finished v t start records res t') {record : StoredRecord}
    (hhead : records.head? = some record) (hskip : skips start record)
    (hmigrated : ∀ id row', t'.records.lookup id = some row' →
      row'.dekVersion = res.newDekVersion) : False := by
  rcases List.head?_eq_some_iff.mp hhead with ⟨rest, hrecords⟩
  have hmem : record ∈ records := by
    rw [hrecords]
    exact List.mem_cons_self
  rcases h.row_of_listed hmem with ⟨row, hrow, hbelow⟩
  have hout : record.id ∉ (work start records).map StoredRecord.id := by
    rw [hrecords, work_of_skips hskip]
    have hnodup := listed_nodup h.listed
    rw [hrecords, List.map_cons] at hnodup
    exact (List.nodup_cons.mp hnodup).1
  have hkept := h.migrated.kept record.id hout
  rw [hrow] at hkept
  have hversion := hmigrated record.id row hkept
  have hnew := h.versions.2
  omega

theorem Finished.reallyRotated [LawfulCrypto] (h : Finished v t start records res t')
    (hupto : ∀ id row, t.records.lookup id = some row →
      row.dekVersion ≤ v.crypto.currentDekVersion)
    (hcurrent : v.crypto.currentDekVersion = start.newDekVersion)
    (hfirst : ∀ record, records.head? = some record → ¬ skips start record) :
    ReallyRotated v t t' res := by
  have hnew : res.newDekVersion = v.crypto.currentDekVersion := by
    rw [hcurrent]
    exact h.versions.2
  have hwork := work_eq hfirst
  have hmigrated := h.migrated
  rw [hwork] at hmigrated
  -- a record is re-encrypted, or was under the new version before
  have hcases : ∀ id,
      (∃ row row', t.records.lookup id = some row ∧ t'.records.lookup id = some row' ∧
        Reencrypted v row row') ∨
      (t'.records.lookup id = t.records.lookup id ∧
        ∀ row, t.records.lookup id = some row → row.dekVersion = v.crypto.currentDekVersion) := by
    intro id
    by_cases hmem : id ∈ records.map StoredRecord.id
    · exact Or.inl (hmigrated.moved id hmem)
    · refine Or.inr ⟨hmigrated.kept id hmem, ?_⟩
      intro row hrow
      by_contra hne
      have hbelow : row.dekVersion < start.newDekVersion := by
        have hle := hupto id row hrow
        omega
      rcases h.mem_listed hrow hbelow with ⟨record, hrecord, hid⟩
      exact hmem (List.mem_map.mpr ⟨record, hrecord, hid⟩)
  constructor
  · intro id row' hrow'
    rcases hcases id with ⟨row, found, -, hfound, hencrypted⟩ | ⟨hsame, hversion⟩
    · have hrow : row' = found := Option.some.inj (hrow'.symm.trans hfound)
      rw [hrow, hnew]
      exact hencrypted.dekVersion
    · rw [hnew]
      rw [hsame] at hrow'
      exact hversion row' hrow'
  · intro id
    rw [← AList.lookup_isSome, ← AList.lookup_isSome]
    rcases hcases id with ⟨row, found, hrow, hfound, -⟩ | ⟨hsame, -⟩
    · rw [hrow, hfound]
      exact Iff.rfl
    · rw [hsame]
  · intro id row row' plaintext hrow hrow' hplain
    rcases hcases id with ⟨found, found', hfound, hfound', hencrypted⟩ | ⟨hsame, hversion⟩
    · have hold : row = found := Option.some.inj (hrow.symm.trans hfound)
      have hnow : row' = found' := Option.some.inj (hrow'.symm.trans hfound')
      rw [hold] at hplain
      have hread := hencrypted.plaintext plaintext hplain
      rw [hencrypted.dekVersion] at hread
      rw [hnow, hnew]
      exact hread
    · have hstill : row' = row := by
        rw [hsame] at hrow'
        exact Option.some.inj (hrow'.symm.trans hrow)
      rw [hversion row hrow] at hplain
      rw [hstill, hnew]
      exact hplain
  · exact hnew.symm
  · intro trigger expectedMetadataVersion trace next u hret hpath
    have hnext := ((wpe_iff _).mp
      (rotate_versions trigger expectedMetadataVersion)).1 trace next u hret hpath
    rw [hnew]
    exact hnext.1
  · intro label expectedVersion trace result hret e he metadata version hcall
    have hpublished := Prog.CallsOnly.of_returns
      (Rotation.publishes_publish label expectedVersion res) hret e he
    rw [← hnew]
    exact hpublished metadata version hcall

end RotationService

/-- What a rotation to a new key version is for, and when a rotation that returns has done it:
never when it was started, because the version it reports is not the one that the vault
encrypts with. -/
theorem rotation_rotates_iff [LawfulCrypto] {v : VaultService} {t t' : Tables}
    {call : RotationCall} {trace : List (Event VaultI)} {res : RotationResult}
    (hupto : ∀ id row, t.records.lookup id = some row →
      row.dekVersion ≤ v.crypto.currentDekVersion)
    (hret : (call.program v).run.Returns trace (.ok res)) (hpath : Path vaultEnv t trace t') :
    ReallyRotated v t t' res ↔ RotationWorks v t trace call := by
  cases call with
  | rotate trigger expectedMetadataVersion =>
      -- the version that is reported is never the one that encrypts
      have hversions := ((wpe_iff _).mp
        (RotationService.rotate_versions trigger expectedMetadataVersion)).1 trace res t' hret hpath
      constructor
      · intro h
        have hsame := h.encrypts
        omega
      · intro h
        exact h.elim
  | resumeRotation =>
      rcases RotationService.resume_returns hret hpath with
        ⟨start, records, hpending, hlisting, hfinished⟩
      constructor
      -- the checkpoint and the listing are those of the run
      · intro h start' hpending'
        have hstart : start' = start := Option.some.inj (hpending'.symm.trans hpending)
        rw [hstart]
        refine ⟨h.encrypts.trans hfinished.versions.2, ?_⟩
        intro records' record hlisting' hfirst hskip
        have hrecords : records' = records := Option.some.inj (hlisting'.symm.trans hlisting)
        rw [hrecords] at hfirst
        exact hfinished.skipped_stays hfirst hskip h.migrated
      · intro h
        rcases h start hpending with ⟨hcurrent, hfirst⟩
        exact hfinished.reallyRotated hupto hcurrent fun record hhead =>
          hfirst records record hlisting hhead

end Outcome

/-! ## Three records -/

namespace ThreeNotes

section

attribute [local instance] Sample.codec Sample.serde crypto rotationJson

/-- The vault with the checkpoint of a rotation that counts the record listed last. -/
def cutOff : Bench :=
  { vault with
    tables :=
      { vault.tables with
        metadata := vault.tables.metadata.insert CHECKPOINT_KEY
          (Json.rotationCheckpoint (checkpoint (some firstId))) } }

/-- Three records under version 1, one in the trash, and none of them left out. -/
theorem cutOff_resumed :
    (∀ e ∈ cutOff.tables.records.entries, e.2.dekVersion ≤ 2) ∧
      cutOff.tables.pendingCheckpoint = some (checkpoint (some firstId)) ∧
      (firstListing (Bench.completeTrace Sample.instant
        (RotationService.resumeRotation (service 2)) cutOff)).map
          (List.map fun record => (record.id, record.deleted)) =
        some [(secondId, true), (thirdId, false), (firstId, false)] ∧
      (Bench.complete Sample.instant (RotationService.resumeRotation (service 2)) cutOff).1 =
        .ok
          { oldDekVersion := 1
            newDekVersion := 2
            recordsMigrated := 4 } := by
  decide +kernel

/-- Once version 2 is current, resuming the rotation rotates. -/
theorem rotation_rotates_iff_resumed :
    ReallyRotated (service 2) cutOff.tables
      (Bench.complete Sample.instant (RotationService.resumeRotation (service 2)) cutOff).2.tables
      { oldDekVersion := 1
        newDekVersion := 2
        recordsMigrated := 4 } := by
  have hlawful := lawful
  rcases cutOff_resumed with ⟨hversions, hpending, hlisted, hreturned⟩
  have hupto : ∀ id row, cutOff.tables.records.lookup id = some row →
      row.dekVersion ≤ (service 2).crypto.currentDekVersion := by
    intro id row hrow
    exact hversions ⟨id, row⟩ (AList.mem_lookup_iff.mp hrow)
  have hret : (RotationCall.resumeRotation.program (service 2)).run.Returns _ _ :=
    Bench.returns_complete Sample.instant (RotationService.resumeRotation (service 2)) cutOff
  rw [hreturned] at hret
  refine (rotation_rotates_iff (t := cutOff.tables) hupto hret (Bench.path_complete _ _ _)).mpr ?_
  intro start hstart
  have hsame : start = checkpoint (some firstId) := Option.some.inj (hstart.symm.trans hpending)
  rw [hsame]
  refine ⟨rfl, ?_⟩
  -- the first record of the list is not the one that the checkpoint names
  rintro records record hlisting hhead ⟨-, hnamed⟩
  rw [hlisting, Option.map_some] at hlisted
  have hrecords := Option.some.inj hlisted
  rcases List.head?_eq_some_iff.mp hhead with ⟨rest, rfl⟩
  have hid : record.id = secondId :=
    congrArg Prod.fst (List.head_eq_of_cons_eq hrecords)
  rw [hid] at hnamed
  revert hnamed
  decide +kernel

end

end ThreeNotes

/-! ## One record -/

namespace OneRecord

section

attribute [local instance] Sample.codec Sample.serde crypto rotationJson

/-- A vault with one record under version 1. -/
def created : Bench :=
  (Bench.perform Sample.instant (service 1) create none
    { tables := .fresh Sample.seed
      uuids := [recordId]
      nonces := [Nonce.filled 1, Nonce.filled 2]
      fault := none }).2

theorem upto {version : Nat} (hversion : 1 ≤ version) (id : Uuid) (row : RecordRow)
    (hrow : created.tables.records.lookup id = some row) : row.dekVersion ≤ version := by
  have hall : ∀ e ∈ created.tables.records.entries, e.2.dekVersion ≤ 1 := by decide +kernel
  have hmem : (⟨id, row⟩ : Sigma fun _ : Uuid => RecordRow) ∈ created.tables.records.entries :=
    AList.mem_lookup_iff.mp hrow
  exact (hall _ hmem).trans hversion

theorem created_rotated :
    (Bench.complete Sample.instant (RotationService.rotate (service 1) .Manual 0) created).1 =
        .ok
          { oldDekVersion := 1
            newDekVersion := 2
            recordsMigrated := 1 } ∧
      ((Bench.complete Sample.instant (RotationService.rotate (service 1) .Manual 0)
          created).2.tables.records.lookup recordId).map RecordRow.dekVersion = some 1 := by
  decide +kernel

/-- A rotation that succeeds need not rotate: it reports version 2, and the record stays under
version 1. -/
theorem rotation_keeps_version :
    ¬ ∀ (v : VaultService) (t t' : Tables) (call : RotationCall) (trace : List (Event VaultI))
      (res : RotationResult),
      (∀ id row, t.records.lookup id = some row → row.dekVersion ≤ v.crypto.currentDekVersion) →
        (call.program v).run.Returns trace (.ok res) → Path vaultEnv t trace t' →
          ReallyRotated v t t' res := by
  intro hall
  rcases created_rotated with ⟨hreturned, hrow⟩
  have hret := Bench.returns_complete Sample.instant
    (RotationService.rotate (service 1) .Manual 0) created
  rw [hreturned] at hret
  have hrotated := hall (service 1) _ _ (.rotate .Manual 0) _ _ (upto (le_refl 1)) hret
    (Bench.path_complete _ _ _)
  rcases Option.map_eq_some_iff.mp hrow with ⟨row, hlookup, hversion⟩
  have hnew := hrotated.migrated recordId row hlookup
  rw [hversion] at hnew
  cases hnew

end

end OneRecord

end OakKeyring
