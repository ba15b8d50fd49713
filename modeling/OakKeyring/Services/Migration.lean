import OakKeyring.Db.Frames
import OakKeyring.Services.Rotation
import OakKeyring.Vault.Commands

/-!
# What a migration does to the records

A migration re-encrypts the records it has listed, except that a resumed one leaves out the record
its checkpoint names when that is listed first.
-/

namespace OakKeyring

open Effect

variable [Crypto]

/-- A row before and after its re-encryption. -/
structure Reencrypted (v : VaultService) (row row' : RecordRow) : Prop where
  dekVersion : row'.dekVersion = v.crypto.currentDekVersion
  version : row'.version = row.version + 1
  plaintext : ∀ plaintext,
    v.crypto.decrypt row.encryptedData row.nonce row.aad row.dekVersion = .ok plaintext →
      v.crypto.decrypt row'.encryptedData row'.nonce row'.aad row'.dekVersion = .ok plaintext

/-- The records `done` are re-encrypted, and beyond them only the checkpoint has changed. -/
structure Migrated (v : VaultService) (t : Tables) (done : List Uuid) (u : Tables) : Prop where
  metadata : ∀ key, key ≠ CHECKPOINT_KEY → u.metadata.lookup key = t.metadata.lookup key
  kept : ∀ id, id ∉ done → u.records.lookup id = t.records.lookup id
  moved : ∀ id ∈ done, ∃ row row', t.records.lookup id = some row ∧
    u.records.lookup id = some row' ∧ Reencrypted v row row'

variable {v : VaultService} {t u : Tables}

theorem Migrated.refl : Migrated v t [] t where
  metadata := fun _ _ => rfl
  kept := fun _ _ => rfl
  moved := by
    intro id hmem
    cases hmem

/-- One more record. -/
theorem Migrated.next {done : List Uuid} {w : Tables} {id : Uuid} {row row' : RecordRow}
    (h : Migrated v t done u) (hnew : id ∉ done) (hrow : t.records.lookup id = some row)
    (hrow' : w.records.lookup id = some row') (hencrypted : Reencrypted v row row')
    (hothers : ∀ other, other ≠ id → w.records.lookup other = u.records.lookup other)
    (hmetadata : ∀ key, key ≠ CHECKPOINT_KEY → w.metadata.lookup key = u.metadata.lookup key) :
    Migrated v t (done ++ [id]) w where
  metadata := fun key hkey => (hmetadata key hkey).trans (h.metadata key hkey)
  kept := by
    intro other hout
    have hne : other ≠ id := by
      intro heq
      exact hout (List.mem_append.mpr (Or.inr (List.mem_singleton.mpr heq)))
    have hbefore : other ∉ done := fun hmem => hout (List.mem_append.mpr (Or.inl hmem))
    exact (hothers other hne).trans (h.kept other hbefore)
  moved := by
    intro other hmem
    rcases List.mem_append.mp hmem with hbefore | hlast
    · rcases h.moved other hbefore with ⟨old, new, hold, hnewRow, hboth⟩
      have hne : other ≠ id := fun heq => hnew (heq ▸ hbefore)
      exact ⟨old, new, hold, (hothers other hne).trans hnewRow, hboth⟩
    · rw [List.mem_singleton.mp hlast]
      exact ⟨row, row', hrow, hrow', hencrypted⟩

/-- The row that a re-encryption leaves. -/
theorem wpe_reEncryptRecord [LawfulCrypto] {id : Uuid} {row : RecordRow}
    (hrow : u.records.lookup id = some row) :
    wpe vaultEnv
      (fun _ w => (∃ row', w.records.lookup id = some row' ∧ Reencrypted v row row') ∧
        (∀ other, other ≠ id → w.records.lookup other = u.records.lookup other) ∧
        w.metadata = u.metadata)
      (fun _ _ => True) (Vault.reEncryptRecord v id row.dekVersion) u := by
  refine (wpe_bind _ _).mpr (Vault.wpe_getStoredRecord (fun found hfound => ?_) fun _ => trivial)
  have hsame : row = found := Option.some.inj (hrow.symm.trans hfound)
  rw [← hsame]
  refine (wpe_bind _ _).mpr (Vault.wpe_crypto (fun plaintext hplain => ?_) fun _ _ => trivial)
  refine (wpe_bind _ _).mpr (Vault.wpe_newNonce fun nonce => ?_)
  refine (wpe_bind _ _).mpr (Vault.wpe_crypto (fun data hdata => ?_) fun _ _ => trivial)
  refine (wpe_bind _ _).mpr (Vault.wpe_now fun time => ?_)
  refine (wpe_bind _ _).mpr
    (Vault.wpe_query (fun (expected updated : Bool) w hrun hresult => ?_) fun _ => trivial)
  have hupdated : updated = expected := hresult
  rw [hupdated]
  refine wpe_ite (fun _ => trivial) fun htrue => ?_
  let record := Vault.reEncrypted v (row.toStoredRecord id (u.tagsOf id)) data nonce time
  have hend : u.updateRecord record row.version = (expected, w) := Except.ok.inj hrun
  rcases Tables.updateRecord_cases u record row.version with ⟨-, -, -, hdone⟩ | ⟨-, hmissed⟩
  · have hw : w = u.updateRow id (Tables.updatedRow record) :=
      congrArg Prod.snd (hend.symm.trans hdone)
    rw [hw]
    refine ⟨⟨Tables.updatedRow record row, ?_, ?_⟩, ?_, ?_⟩
    · rw [Tables.lookup_updateRow, if_pos rfl, hrow]
      rfl
    · constructor
      · rfl
      · rfl
      -- what was encrypted decrypts to the same plaintext
      · intro plaintext' hplain'
        have hread : plaintext' = plaintext := by
          have hboth := hplain'.symm.trans hplain
          exact Except.ok.inj hboth
        rw [hread]
        exact CryptoManager.decrypt_encrypt hdata
    · intro other hne
      rw [Tables.lookup_updateRow, if_neg hne]
    · exact Tables.outside_updateRow u id _ .metadata (by decide)
  -- a row that was read is there with its version
  · have hfalse : expected = false := congrArg Prod.fst (hend.symm.trans hmissed)
    exact absurd hfalse htrue

namespace RotationService

omit [Crypto] in
/-- Whether a checkpoint leaves out a record that is listed first. -/
def skips (checkpoint : RotationCheckpoint) (record : StoredRecord) : Prop :=
  0 < checkpoint.migratedRecords ∧ checkpoint.lastMigratedRecordId = some record.id.toText

omit [Crypto] in
instance (checkpoint : RotationCheckpoint) (record : StoredRecord) :
    Decidable (skips checkpoint record) :=
  inferInstanceAs (Decidable (_ ∧ _))

omit [Crypto] in
/-- The listed records that are re-encrypted: the checkpoint is written over with each, so that
what it named before is known only to the first. -/
def work (checkpoint : RotationCheckpoint) : List StoredRecord → List StoredRecord
  | [] => []
  | record :: rest => if skips checkpoint record then rest else record :: rest

omit [Crypto] in
theorem work_of_skips {checkpoint : RotationCheckpoint} {record : StoredRecord}
    {rest : List StoredRecord} (h : skips checkpoint record) :
    work checkpoint (record :: rest) = rest :=
  if_pos h

omit [Crypto] in
theorem work_of_not_skips {checkpoint : RotationCheckpoint} {record : StoredRecord}
    {rest : List StoredRecord} (h : ¬ skips checkpoint record) :
    work checkpoint (record :: rest) = record :: rest :=
  if_neg h

omit [Crypto] in
theorem work_concat (checkpoint : RotationCheckpoint) (first : StoredRecord)
    (done : List StoredRecord) (record : StoredRecord) :
    work checkpoint (first :: done ++ [record]) = work checkpoint (first :: done) ++ [record] := by
  rw [List.cons_append]
  by_cases hskip : skips checkpoint first
  · rw [work_of_skips hskip, work_of_skips hskip]
  · rw [work_of_not_skips hskip, work_of_not_skips hskip]
    rfl

omit [Crypto] in
theorem work_sublist (checkpoint : RotationCheckpoint) (records : List StoredRecord) :
    (work checkpoint records).Sublist records := by
  cases records with
  | nil => exact List.Sublist.refl _
  | cons record rest =>
      by_cases hskip : skips checkpoint record
      · rw [work_of_skips hskip]
        exact List.sublist_cons_self record rest
      · rw [work_of_not_skips hskip]

omit [Crypto] in
/-- Listed records are different records. -/
theorem listed_nodup {records : List StoredRecord} {selects : StoredRecord → Bool}
    (hlisted : records.Perm (t.storedRecords.filter selects)) :
    (records.map StoredRecord.id).Nodup := by
  have hall : ((t.storedRecords.filter selects).map StoredRecord.id).Nodup := by
    refine List.Nodup.sublist (List.filter_sublist.map _) ?_
    rw [Tables.storedRecords_ids]
    exact AList.keys_nodup _
  exact (hlisted.map StoredRecord.id).nodup_iff.mpr hall

/-- Where the loop is after the records `done`. -/
structure Progress (v : VaultService) (t : Tables) (start : RotationCheckpoint)
    (done : List StoredRecord) (acc : Nat × RotationCheckpoint) (u : Tables) : Prop where
  migrated : Migrated v t ((work start done).map StoredRecord.id) u
  count : acc.1 = start.migratedRecords + (work start done).length
  versions : acc.2.oldDekVersion = start.oldDekVersion ∧ acc.2.newDekVersion = start.newDekVersion
  unmoved : done = [] → acc.2 = start
  last : done ≠ [] → ∃ record ∈ done, acc.2.lastMigratedRecordId = some record.id.toText

variable [RotationJson] {start : RotationCheckpoint}

omit [Crypto] in
theorem wpe_saveCheckpoint (checkpoint : RotationCheckpoint) {Q : Unit → Tables → Prop}
    (h : ∀ text, checkpointToJson checkpoint = .ok text →
      Q () { u with metadata := u.metadata.insert CHECKPOINT_KEY text }) :
    wpe vaultEnv Q (fun _ _ => True) (saveCheckpoint checkpoint) u := by
  unfold saveCheckpoint
  cases hjson : checkpointToJson checkpoint with
  | error e => trivial
  | ok text =>
      refine (wpe_bind _ _).mpr ?_
      exact wpe_mapError (Vault.wpe_query_of_run rfl (fun _ _ => h text hjson) fun _ => trivial)

/-- One record of the loop. -/
theorem wpe_migrateStep [LawfulCrypto] {records done rest : List StoredRecord}
    {record : StoredRecord} {acc : Nat × RotationCheckpoint}
    (hlisted : records.Perm
      (t.storedRecords.filter (RecordQuery.dekVersionBelow start.newDekVersion).selects))
    (hsplit : records = done ++ record :: rest) (h : Progress v t start done acc u) :
    wpe vaultEnv (fun acc' w => Progress v t start (done ++ [record]) acc' w)
      (fun _ _ => True) (migrateStep v acc record) u := by
  rcases acc with ⟨migrated, checkpoint⟩
  -- each record is listed once, so none of those before is this one
  have hnodup : (records.map StoredRecord.id).Nodup := listed_nodup hlisted
  have hfresh : ∀ other ∈ done, other.id ≠ record.id := by
    intro other hother heq
    rw [hsplit, List.map_append, List.map_cons] at hnodup
    have hdisjoint := List.disjoint_of_nodup_append hnodup
    refine hdisjoint (List.mem_map_of_mem hother) ?_
    rw [heq]
    exact List.mem_cons_self
  have hmem : record ∈ t.storedRecords := by
    have hin : record ∈ records := by
      rw [hsplit]
      exact List.mem_append.mpr (Or.inr List.mem_cons_self)
    exact List.mem_of_mem_filter (hlisted.mem_iff.mp hin)
  refine wpe_ite ?_ ?_
  -- only the record that is listed first can be the one that the checkpoint names
  · rintro ⟨hpositive, hnamed⟩
    cases done with
    | nil =>
        have hsame : checkpoint = start := h.unmoved rfl
        have hcount : migrated = start.migratedRecords := h.count
        have hskip : skips start record := by
          rw [← hsame, skips]
          refine ⟨?_, hnamed⟩
          rw [hsame, ← hcount]
          exact hpositive
        have hnone : work start [record] = [] := work_of_skips hskip
        constructor
        · rw [List.nil_append, hnone]
          exact h.migrated
        · rw [List.nil_append, hnone]
          exact h.count
        · exact h.versions
        · intro hnil
          cases hnil
        · intro _
          exact ⟨record, List.mem_singleton.mpr rfl, hnamed⟩
    | cons first done =>
        rcases h.last (List.cons_ne_nil _ _) with ⟨other, hother, hlast⟩
        have hid : other.id = record.id := by
          have hboth : some other.id.toText = some record.id.toText := hlast.symm.trans hnamed
          exact Uuid.toText_injective (Option.some.inj hboth)
        exact absurd hid (hfresh other hother)
  · intro hout
    have hwork : work start (done ++ [record]) = work start done ++ [record] := by
      cases done with
      | nil =>
          have hsame : checkpoint = start := h.unmoved rfl
          have hcount : migrated = start.migratedRecords := h.count
          refine work_of_not_skips ?_
          rintro ⟨hpositive, hnamed⟩
          apply hout
          rw [hcount, hsame]
          exact ⟨hpositive, hnamed⟩
      | cons first done => exact work_concat start first done record
    rcases Tables.mem_storedRecords hmem with ⟨row, hrow, hrecord⟩
    -- no record before this one has its id
    have hnew : record.id ∉ (work start done).map StoredRecord.id := by
      intro hin
      rcases List.mem_map.mp hin with ⟨other, hother, hid⟩
      exact hfresh other ((work_sublist start done).subset hother) hid
    -- so its row is as it was at the start
    have hrowNow : u.records.lookup record.id = some row := by
      rw [h.migrated.kept record.id hnew]
      exact hrow
    have hversion : record.dekVersion = row.dekVersion := by
      rw [hrecord]
      rfl
    rw [hversion]
    refine (wpe_bind _ _).mpr (wpe_mapError (wpe_mono ?_ (fun _ _ _ => trivial)
      (wpe_reEncryptRecord hrowNow)))
    rintro - w ⟨⟨row', hrow', hencrypted⟩, hothers, hmetadata⟩
    refine (wpe_bind _ _).mpr (wpe_saveCheckpoint _ fun text _ => ?_)
    constructor
    · rw [hwork, List.map_append]
      refine h.migrated.next hnew hrow hrow' hencrypted hothers ?_
      intro key hkey
      calc
        (w.metadata.insert CHECKPOINT_KEY text).lookup key = w.metadata.lookup key :=
          AList.lookup_insert_ne hkey
        _ = u.metadata.lookup key := by rw [hmetadata]
    · rw [hwork, List.length_append]
      have hcount : migrated = start.migratedRecords + (work start done).length := h.count
      simp only [List.length_singleton]
      omega
    · exact h.versions
    · intro hnil
      exact absurd hnil (List.append_ne_nil_of_right_ne_nil _ (List.cons_ne_nil _ _))
    · intro _
      exact ⟨record, List.mem_append.mpr (Or.inr (List.mem_singleton.mpr rfl)), rfl⟩

/-- The loop over the records that were listed. -/
theorem wpe_migrate [LawfulCrypto] {records : List StoredRecord}
    (hlisted : records.Perm
      (t.storedRecords.filter (RecordQuery.dekVersionBelow start.newDekVersion).selects)) :
    wpe vaultEnv (fun acc w => Progress v t start records acc w) (fun _ _ => True)
      (records.foldlM (migrateStep v) (start.migratedRecords, start)) t := by
  refine wpe_foldlM ?_ ?_
  · exact
      { migrated := Migrated.refl
        count := rfl
        versions := ⟨rfl, rfl⟩
        unmoved := fun _ => rfl
        last := fun hne => absurd rfl hne }
  · intro done record rest acc w hsplit h
    exact wpe_migrateStep hlisted hsplit h

end RotationService

end OakKeyring
