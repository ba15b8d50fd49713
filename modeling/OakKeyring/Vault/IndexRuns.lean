import OakKeyring.Samples.Vault
import OakKeyring.Vault.IndexedWrites

/-!
# When the list index can be trusted

A listing that succeeds has one right row for each record, in every state of a run in which the mark
is not cleared while another record is left behind: renamed by an operation that was stopped before
it had written the record's index row.
-/

namespace OakKeyring

open Effect Transition

/-! ## Rebuilding the index -/

section Rebuild

variable [Crypto] {kek : Bytes} {v : VaultService} {t : Tables}

/-- As many rows as records, each of a record: one row for each. -/
theorem IndexInv.matches (hinv : IndexInv kek t) (hclean : ¬ markedDirty t)
    (hcount : t.listIndex.entries.length = t.records.entries.length) : IndexMatches kek t := by
  have hsub : t.listIndex.keys ⊆ t.records.keys := by
    intro id hmem
    exact AList.mem_keys.mp (hinv.owned id (AList.mem_keys.mpr hmem))
  have hperm : t.listIndex.keys.Perm t.records.keys := by
    have hsubperm := List.subperm_of_subset (AList.keys_nodup t.listIndex) hsub
    refine hsubperm.perm_of_length_le ?_
    simp only [AList.keys, List.keys, List.length_map]
    exact hcount.ge
  intro id
  refine ⟨?_, hinv.clean hclean id⟩
  rw [AList.mem_keys, AList.mem_keys]
  exact hperm.mem_iff

/-- While the index is rebuilt: the records seen so far have their rows, and no others. -/
structure Rebuilt (kek : Bytes) (t : Tables) (done : List StoredRecord) (u : Tables) : Prop where
  records : u.records = t.records
  metadata : u.metadata = t.metadata
  shown : ∀ id, id ∈ u.listIndex ↔ id ∈ done.map StoredRecord.id
  fresh : ∀ id, ¬ Stale kek u id

theorem Rebuilt.indexFresh {done : List StoredRecord} {u : Tables} (h : Rebuilt kek t done u)
    (hwell : WellListed kek t) (hsub : ∀ record ∈ done, record ∈ t.storedRecords) :
    IndexFresh kek u where
  owned := by
    intro id hmem
    rcases List.mem_map.mp ((h.shown id).mp hmem) with ⟨record, hdone, hid⟩
    rw [h.records, ← hid]
    exact Tables.id_mem_storedRecords.mp (List.mem_map_of_mem (hsub record hdone))
  typed := by
    rw [h.records]
    exact hwell.typed
  fresh := h.fresh

theorem IndexFresh.inv (h : IndexFresh kek t) : IndexInv kek t where
  toWellListed := h.toWellListed
  clean := fun _ => h.fresh

variable [LawfulCrypto]

/-- One row of the rebuild. -/
theorem wpe_rebuild_row {done : List StoredRecord} {record : StoredRecord} {u : Tables}
    (hopen : v.crypto.Opens kek) (hwell : WellListed kek t) (h : Rebuilt kek t done u)
    (hsub : ∀ r ∈ done, r ∈ t.storedRecords) (hmem : record ∈ t.storedRecords) :
    wpe vaultEnv (fun _ w => Rebuilt kek t (done ++ [record]) w) (fun _ w => IndexFresh kek w)
      (Vault.upsertRecordListIndexForStored v record) u := by
  have hfresh : IndexFresh kek u := h.indexFresh hwell hsub
  rcases Tables.mem_storedRecords hmem with ⟨row, hrow, hrecord⟩
  refine (wpe_bind _ _).mpr (Vault.wpe_crypto (fun name hname => ?_) fun _ _ => hfresh)
  refine (wpe_bind _ _).mpr (Vault.wpe_crypto (fun subtitle hsubtitle => ?_) fun _ _ => hfresh)
  refine Vault.wpe_query (fun expected result w hrun _ => ?_) fun _ => hfresh
  rcases Tables.ok_of_bind hrun with ⟨x, hx, hvalue⟩
  cases hvalue
  rw [(Tables.referring_ok hx).2]
  -- the row is made from the payload, under the type it has
  have hright : ∀ p, row.payload kek = some p → (name, subtitle) = p.indexFields := by
    intro p hp
    have htype : p.credentialType = row.credentialType := hwell.typed _ row p hrow hp
    rw [hrecord] at hname hsubtitle
    have hkey := CryptoManager.getDek_of_decryptNameOnly hname
    rcases hkey with ⟨dek, hdek⟩
    have hread := hopen.decryptPayload hp hdek
    have hshown := CryptoManager.shown_of_decryptPayload hread
    rw [htype] at hshown
    have hnameOk := Except.ok.inj (hname.symm.trans hshown.1)
    have hsubtitleOk := Except.ok.inj (hsubtitle.symm.trans hshown.2)
    rw [hnameOk, hsubtitleOk]
  constructor
  · exact h.records
  · exact h.metadata
  · intro id
    rw [List.map_append, List.mem_append, ← h.shown id]
    constructor
    · intro hshown
      rcases (AList.mem_insert _).mp hshown with heq | hbefore
      · rw [heq]
        exact Or.inr (List.mem_singleton.mpr rfl)
      · exact Or.inl hbefore
    · intro hshown
      rcases hshown with hbefore | hlast
      · exact (AList.mem_insert _).mpr (Or.inr hbefore)
      · exact (AList.mem_insert _).mpr (Or.inl (List.mem_singleton.mp hlast))
  · rintro id ⟨row', p, entry, hrow', hp, hentry, hwrong⟩
    have hlookup : (u.listIndex.insert record.id { name := name, subtitle := subtitle }).lookup id
        = some entry := hentry
    by_cases heq : id = record.id
    · rw [heq, AList.lookup_insert] at hlookup
      cases hlookup
      have hsame : u.records.lookup id = some row' := hrow'
      rw [h.records, heq, hrow] at hsame
      cases hsame
      exact hwrong (hright p hp)
    · rw [AList.lookup_insert_ne heq] at hlookup
      exact h.fresh id ⟨row', p, entry, hrow', hp, hlookup, hwrong⟩

/-- How a listing that began in `base` leaves the index: it may only have made it better. -/
structure Listed (kek : Bytes) (base t : Tables) : Prop where
  inv : IndexInv kek t
  after : IndexAfter kek base none False t

omit [LawfulCrypto] in
theorem IndexInv.listed (h : IndexInv kek t) : Listed kek t t :=
  ⟨h, h.toWellListed.untouched.after⟩

omit [LawfulCrypto] in
theorem IndexFresh.listed {base : Tables} (h : IndexFresh kek t) : Listed kek base t :=
  ⟨h.inv, h.after⟩

/-- A listing that succeeds leaves one right row for each record. -/
theorem wpe_ensureRecordListIndex (hopen : v.crypto.Opens kek) (hinv : IndexInv kek t) :
    wpe vaultEnv (fun _ u => IndexMatches kek u ∧ Listed kek t u) (fun _ u => Listed kek t u)
      (Vault.ensureRecordListIndex v) t := by
  have hwell : WellListed kek t := hinv.toWellListed
  refine (wpe_bind _ _).mpr (Vault.wpe_requireUnlocked (fun _ => ?_) hinv.listed)
  refine (wpe_bind _ _).mpr (Vault.wpe_query_of_run rfl (fun (version : Option String) _ => ?_)
    fun _ => hinv.listed)
  refine (wpe_bind _ _).mpr (Vault.wpe_query_of_run rfl (fun (dirty : Option String) hdirty => ?_)
    fun _ => hinv.listed)
  refine (wpe_bind _ _).mpr (Vault.wpe_query_of_run rfl (fun (indexRows : Nat) hindex => ?_)
    fun _ => hinv.listed)
  refine (wpe_bind _ _).mpr (Vault.wpe_query_of_run rfl (fun (recordRows : Nat) hrecords => ?_)
    fun _ => hinv.listed)
  have hdirtyRead : dirty = t.metadata.lookup RECORD_LIST_INDEX_DIRTY_KEY := hdirty
  have hindexRead : indexRows = t.listIndex.entries.length := hindex
  have hrecordsRead : recordRows = t.records.entries.length := hrecords
  apply wpe_ite
  -- the index is of this version, clean and complete, so it stays
  · rintro ⟨-, hclean, hcount⟩
    have hunmarked : ¬ markedDirty t := by
      rw [hdirtyRead] at hclean
      exact hclean
    rw [hindexRead, hrecordsRead] at hcount
    exact ⟨hinv.matches hunmarked hcount, hinv.listed⟩
  -- otherwise it is cleared and built again
  · intro _
    have hempty : Rebuilt kek t [] { t with listIndex := ∅ } := by
      constructor
      · rfl
      · rfl
      · intro id
        constructor
        · intro hmem
          exact absurd hmem (AList.notMem_empty id)
        · intro hmem
          cases hmem
      -- no entry of an empty index is stale
      · rintro id ⟨row, p, entry, -, -, hentry, -⟩
        have hlookup : (∅ : AList fun _ : Uuid => IndexRow).lookup id = some entry := hentry
        rw [AList.lookup_empty] at hlookup
        cases hlookup
    have hemptyFresh : IndexFresh kek { t with listIndex := ∅ } := by
      refine hempty.indexFresh hwell ?_
      intro record hmem
      cases hmem
    refine (wpe_bind _ _).mpr (Vault.wpe_query_of_run rfl (fun _ _ => ?_) fun _ => hinv.listed)
    refine (wpe_bind _ _).mpr (Vault.wpe_query_of_run rfl (fun (records : List StoredRecord) hread => ?_)
      fun _ => hemptyFresh.listed)
    have hall : records.Perm t.storedRecords := by
      have hperm : records.Perm (t.storedRecords.filter fun _ => true) := hread
      rwa [List.filter_eq_self.mpr fun _ _ => rfl] at hperm
    -- one entry for each record that was listed
    have hloop : wpe vaultEnv (fun _ u => Rebuilt kek t records u) (fun _ u => IndexFresh kek u)
        (List.forM records (Vault.upsertRecordListIndexForStored v)) { t with listIndex := ∅ } := by
      refine wpe_forM hempty ?_
      intro done record rest u hsplit hdone
      have hsub : ∀ r ∈ records, r ∈ t.storedRecords := fun r hr => hall.mem_iff.mp hr
      refine wpe_rebuild_row hopen hwell hdone ?_ ?_
      · intro r hr
        exact hsub r (by simp [hsplit, hr])
      · exact hsub record (by simp [hsplit])
    refine (wpe_bind _ _).mpr (wpe_mono ?_ (fun _ _ h => h.listed) hloop)
    intro _ u hdone
    have hfresh : IndexFresh kek u := hdone.indexFresh hwell fun r hr => hall.mem_iff.mp hr
    have hmatches : IndexMatches kek u := by
      intro id
      refine ⟨?_, hdone.fresh id⟩
      rw [hdone.shown id, hdone.records, ← Tables.id_mem_storedRecords]
      exact (hall.map StoredRecord.id).mem_iff
    refine (wpe_bind _ _).mpr (Vault.wpe_query_of_run rfl (fun _ _ => ?_) fun _ => hfresh.listed)
    -- the version and the cleared flag are written last
    have hversioned := hfresh.set_metadata (u.metadata.insert RECORD_LIST_INDEX_VERSION_KEY
      RECORD_LIST_INDEX_VERSION)
    refine Vault.wpe_query_of_run rfl (fun _ _ => ?_) fun _ => hversioned.listed
    exact ⟨hmatches, (hversioned.set_metadata _).listed⟩

end Rebuild

/-! ## Runs -/

section Runs

variable [Codec] [Serde] [Crypto] (kek : Bytes)

/-- Every listing from here on that succeeds shows one right row for each record. -/
def IndexTrusted (t : Tables) : Prop :=
  ∀ service trace t', keyedStep kek t
    { service := service
      command := .ensureRecordListIndex
      trace := trace
      outcome := .ok () } t' → IndexMatches kek t'

/-- A step that writes a record under the type that the record is listed with. -/
def IndexSafe (e : Step Tables VaultLabel) : Prop :=
  match e.label.command with
  | .createRecord params => params.payload.credentialType = params.credentialType
  | .updateRecord params =>
      ∀ row, e.source.records.lookup params.id = some row →
        row.credentialType = params.payload.credentialType
  | .reEncryptRecord id oldDekVersion =>
      ∀ row, e.source.records.lookup id = some row → row.dekVersion = oldDekVersion
  | .applyDownloadedCloudRecord r =>
      ∀ id data nonce m, Uuid.parseStr r.id = some id →
        Vault.decodeBase64 "encrypted_data" r.encryptedData = .ok data →
        Vault.decodeNonce "nonce" "nonce" r.nonce = .ok nonce →
        Vault.decryptCloudPrivateMetadata e.label.service r = .ok m →
        Vault.DownloadFits kek e.label.service e.source id r data nonce m
  | _ => True

/-- The record whose row an operation writes over. -/
def VaultCommand.rewrites : VaultCommand → Option Uuid
  | .updateRecord params => some params.id
  | .applyDownloadedCloudRecord r => Uuid.parseStr r.id
  | _ => none

/-- The name and subtitle of the payload that a record keeps. -/
def keptFields (t : Tables) (id : Uuid) : Option (String × String) :=
  ((t.records.lookup id).bind (RecordRow.payload kek)).map EncryptedPayload.indexFields

def SameIndexRow (e : Step Tables VaultLabel) (id : Uuid) : Prop :=
  e.target.listIndex.lookup id = e.source.listIndex.lookup id

/-- The step is stopped by an error after it has given a listed record another name or subtitle,
and before it has written the record's index row. -/
structure StopsBetween (e : Step Tables VaultLabel) (id : Uuid) : Prop where
  stopped : e.label.outcome ≠ .ok ()
  renamed : keptFields kek e.target id ≠ keptFields kek e.source id
  listed : id ∈ e.target.listIndex
  unshown : SameIndexRow e id

/-- A step was stopped between the record and its index row, and since then the index has been
marked all along and that row is the same. -/
def LeftBehind (done : List (Step Tables VaultLabel)) (id : Uuid) : Prop :=
  ∃ before e after, done = before ++ e :: after ∧ StopsBetween kek e id ∧
    ∀ e' ∈ after, markedDirty e'.target ∧ SameIndexRow e' id

/-- The mark is cleared by a listing, or by an operation that writes the only record left behind. -/
def ClearsInOrder (es : List (Step Tables VaultLabel)) : Prop :=
  ∀ done e rest, es = done ++ e :: rest → markedDirty e.source → ¬ markedDirty e.target →
    e.label.command ≠ .ensureRecordListIndex →
      ∀ id, LeftBehind kek done id → e.label.command.rewrites = some id

variable {kek} {t : Tables}

omit [Codec] [Serde] in
theorem ClearsInOrder.of_append {done rest : List (Step Tables VaultLabel)}
    (h : ClearsInOrder kek (done ++ rest)) : ClearsInOrder kek done := by
  intro before e after hsplit
  exact h before e (after ++ rest) (by rw [hsplit]; simp)

omit [Codec] [Serde] in
/-- A record that was left behind stays so while the mark and its index row stay. -/
theorem LeftBehind.append {done : List (Step Tables VaultLabel)} {e : Step Tables VaultLabel}
    {id : Uuid} (h : LeftBehind kek done id) (hmarked : markedDirty e.target)
    (hsame : SameIndexRow e id) : LeftBehind kek (done ++ [e]) id := by
  rcases h with ⟨before, stopped, after, hsplit, hstops, hafter⟩
  refine ⟨before, stopped, after ++ [e], by rw [hsplit]; simp, hstops, ?_⟩
  intro e' he'
  rcases List.mem_append.mp he' with hearlier | hlast
  · exact hafter e' hearlier
  · rw [List.mem_singleton.mp hlast]
    exact ⟨hmarked, hsame⟩

omit [Codec] [Serde] in
theorem StopsBetween.leftBehind {done : List (Step Tables VaultLabel)}
    {e : Step Tables VaultLabel} {id : Uuid} (h : StopsBetween kek e id) :
    LeftBehind kek (done ++ [e]) id :=
  ⟨done, e, [], rfl, h, fun _ he' => (nomatch he')⟩

omit [Codec] [Serde] in
/-- A row is stale for what it shows and what its record keeps, and for nothing else. -/
theorem Stale.of_fields {t' : Tables} {id : Uuid} (h : Stale kek t' id)
    (hfields : keptFields kek t' id = keptFields kek t id)
    (hrow : t'.listIndex.lookup id = t.listIndex.lookup id) : Stale kek t id := by
  rcases h with ⟨row', payload', shown, hrow', hpayload', hshown, hwrong⟩
  have hkept : keptFields kek t id = some payload'.indexFields := by
    rw [← hfields]
    unfold keptFields
    rw [hrow', Option.bind_some, hpayload']
    rfl
  unfold keptFields at hkept
  rcases Option.map_eq_some_iff.mp hkept with ⟨payload, hpayload, hsame⟩
  rcases Option.bind_eq_some_iff.mp hpayload with ⟨row, hlookup, hread⟩
  refine ⟨row, payload, shown, hlookup, hread, hrow.symm.trans hshown, ?_⟩
  rw [hsame]
  exact hwrong

/-! ## One step -/

section Programs

variable {own : Option Uuid} {α : Type} {p : VaultM α}

omit [Codec] [Serde] in
theorem indexes_untouched (h : Vault.Ensures (Untouched kek t) p t) : Vault.Indexes kek t own p t :=
  wpe_mono (fun _ _ hu => hu.after) (fun _ _ hu => hu.after) h

omit [Codec] [Serde] in
/-- The value of an operation is not part of the run. -/
theorem indexes_value (h : Vault.Indexes kek t own p t) :
    Vault.Indexes kek t own (p >>= fun _ => pure ()) t :=
  Vault.indexes_bind (wpe_mono (fun _ _ hu => hu) (fun _ _ hu => hu) h)

end Programs

variable [LawfulCrypto]

/-- What an operation other than a listing does to the index. -/
theorem index_program {l : VaultLabel} {t' : Tables} (hopen : l.service.crypto.Opens kek)
    (hwell : WellListed kek t)
    (hsafe : IndexSafe kek
      { source := t
        label := l
        target := t' })
    (hlisting : l.command ≠ .ensureRecordListIndex) :
    Vault.Indexes kek t l.command.rewrites (l.command.program l.service) t := by
  have hspared : ∀ {command : VaultCommand}, command.Permitted DbOp.SparesIndex →
      command ≠ .ensureRecordListIndex → Vault.Ensures (Untouched kek t)
        (command.program l.service) t := by
    intro command hpermitted hother
    exact Vault.ensures_same kek
      (VaultCommand.makesOnly_routine DbOp.sparesIndex_routine l.service hpermitted hother)
      (fun hsame hu => hu.of_same hsame) hwell.untouched
  unfold IndexSafe at hsafe
  -- each command is one of the writing operations or spares the index
  cases hcommand : l.command with
  | createRecord params =>
      rw [hcommand] at hsafe
      exact indexes_value (Vault.index_createRecord hopen hwell hsafe)
  | updateRecord params =>
      rw [hcommand] at hsafe
      exact Vault.index_updateRecord hopen hwell hsafe
  | reEncryptRecord id oldDekVersion =>
      rw [hcommand] at hsafe
      exact indexes_untouched (Vault.index_reEncryptRecord hopen hwell hsafe)
  | applyDownloadedCloudRecord r =>
      rw [hcommand] at hsafe
      exact indexes_value (Vault.index_applyDownloadedCloudRecord hopen hwell hsafe)
  | ensureRecordListIndex => exact absurd hcommand hlisting
  | softDeleteRecord id =>
      exact indexes_untouched (hspared (fun _ => trivial) fun h => (nomatch h))
  | emptyTrash => exact indexes_untouched (hspared (fun _ => trivial) fun h => (nomatch h))
  | cleanupExpiredTrash retentionDays =>
      exact indexes_untouched (hspared (fun _ => trivial) fun h => (nomatch h))
  | batchSoftDelete ids =>
      exact indexes_untouched (hspared (fun _ _ => trivial) fun h => (nomatch h))
  | markRecordSynced id =>
      exact indexes_untouched (hspared (fun _ => trivial) fun h => (nomatch h))
  | markRecordConflict id conflictData =>
      exact indexes_untouched (hspared (fun _ => trivial) fun h => (nomatch h))
  | _ => exact indexes_untouched (hspared trivial fun h => (nomatch h))

/-- One step, other than a listing. -/
theorem index_step {e : Step Tables VaultLabel}
    (hstep : keyedStep kek e.source e.label e.target) (hsafe : IndexSafe kek e)
    (hwell : WellListed kek e.source) (hlisting : e.label.command ≠ .ensureRecordListIndex) :
    IndexAfter kek e.source e.label.command.rewrites (e.label.outcome ≠ .ok ()) e.target := by
  have hend := hstep.2.of_wpe (index_program hstep.1 hwell hsafe hlisting)
  cases houtcome : e.label.outcome with
  | ok a =>
      rw [houtcome] at hend
      exact hend.mono fun hnever => hnever.elim
  | error error =>
      rw [houtcome] at hend
      exact hend.mono fun _ h => (nomatch h)

/-- A listing. -/
theorem listed_step {e : Step Tables VaultLabel}
    (hstep : keyedStep kek e.source e.label e.target) (hinv : IndexInv kek e.source)
    (hlisting : e.label.command = .ensureRecordListIndex) : Listed kek e.source e.target := by
  have hspec : Vault.Ensures (Listed kek e.source) (e.label.command.program e.label.service)
      e.source := by
    rw [hlisting]
    exact wpe_mono (fun _ _ h => h.2) (fun _ _ h => h) (wpe_ensureRecordListIndex hstep.1 hinv)
  exact hstep.2.of_ensures hspec

/-- Every stale row is that of a record left behind. -/
structure Accounted (kek : Bytes) (done : List (Step Tables VaultLabel)) (t : Tables) : Prop where
  inv : IndexInv kek t
  behind : ∀ id, Stale kek t id → LeftBehind kek done id

omit [Codec] [Serde] [LawfulCrypto] in
/-- A stale row was stale before the step and is the same, or the step was stopped after it had
changed the record. -/
theorem IndexAfter.behind {done : List (Step Tables VaultLabel)} {e : Step Tables VaultLabel}
    {own : Option Uuid} {id : Uuid} (hbefore : Accounted kek done e.source)
    (hafter : IndexAfter kek e.source own (e.label.outcome ≠ .ok ()) e.target)
    (hstale : Stale kek e.target id) (hmarked : markedDirty e.target) :
    LeftBehind kek (done ++ [e]) id := by
  have hsame : SameIndexRow e id := by
    rcases hstale with ⟨row, payload, shown, hrow, hpayload, hshown, hwrong⟩
    have hkept := hafter.shown id ⟨row, payload, shown, hrow, hpayload, hshown, hwrong⟩ shown hshown
    exact hshown.trans hkept.symm
  by_cases hsource : Stale kek e.source id
  · exact (hbefore.behind id hsource).append hmarked hsame
  · rcases hafter.stale id hstale with hstill | ⟨-, hstopped, -⟩
    · exact absurd hstill hsource
    · refine StopsBetween.leftBehind ⟨hstopped, ?_, ?_, hsame⟩
      · exact fun hfields => hsource (hstale.of_fields hfields hsame)
      · rcases hstale with ⟨row, payload, shown, -, -, hshown, -⟩
        rw [← AList.lookup_isSome, hshown]
        rfl

/-- One step of a run that clears the mark in order. -/
theorem Accounted.step {done : List (Step Tables VaultLabel)} {e : Step Tables VaultLabel}
    (hstep : keyedStep kek e.source e.label e.target) (hsafe : IndexSafe kek e)
    (horder : ClearsInOrder kek (done ++ [e])) (h : Accounted kek done e.source) :
    Accounted kek (done ++ [e]) e.target := by
  by_cases hlisting : e.label.command = .ensureRecordListIndex
  · have hlisted := listed_step hstep h.inv hlisting
    refine ⟨hlisted.inv, fun id hstale => ?_⟩
    have hafter : IndexAfter kek e.source none (e.label.outcome ≠ .ok ()) e.target :=
      hlisted.after.mono fun hnever => hnever.elim
    refine hafter.behind h hstale ?_
    by_contra hclean
    exact hlisted.inv.clean hclean id hstale
  · have hafter := index_step hstep hsafe h.inv.toWellListed hlisting
    have hinv : IndexInv kek e.target := by
      refine ⟨hafter.toWellListed, fun hclean id hstale => ?_⟩
      rcases hafter.stale id hstale with hsource | ⟨-, -, hmarked⟩
      · by_cases hmarked : markedDirty e.source
        -- the step cleared the mark, so only its own record was left behind
        · have hown := horder done e [] rfl hmarked hclean hlisting id (h.behind id hsource)
          exact hafter.clean hclean id hstale hmarked hown
        · exact h.inv.clean hmarked id hsource
      · exact hclean hmarked
    refine ⟨hinv, fun id hstale => hafter.behind h hstale ?_⟩
    by_contra hclean
    exact hinv.clean hclean id hstale

omit [Codec] [Serde] [LawfulCrypto] in
theorem indexInv_fresh (seed : VaultSeed) : IndexInv kek (Tables.fresh seed) where
  owned := by
    intro id hmem
    exact absurd hmem (AList.notMem_empty id)
  typed := by
    intro id row payload hrow
    have hlookup : (∅ : AList fun _ : Uuid => RecordRow).lookup id = some row := hrow
    rw [AList.lookup_empty] at hlookup
    cases hlookup
  clean := by
    rintro - id ⟨row, payload, shown, hrow, -⟩
    have hlookup : (∅ : AList fun _ : Uuid => RecordRow).lookup id = some row := hrow
    rw [AList.lookup_empty] at hlookup
    cases hlookup

/-- The invariant makes the index trusted. -/
theorem IndexInv.trusted (hinv : IndexInv kek t) : IndexTrusted kek t := by
  intro service trace t' hstep
  have hend := hstep.2.of_wpe (wpe_ensureRecordListIndex hstep.1 hinv)
  exact hend.1

theorem accounted_run {seed : VaultSeed} {es : List (Step Tables VaultLabel)} {t' : Tables}
    (hrun : Run (keyedStep kek) (Tables.fresh seed) es t') (hsafe : ∀ e ∈ es, IndexSafe kek e)
    (horder : ClearsInOrder kek es) : Accounted kek es t' := by
  have hall : (∀ e ∈ es, IndexSafe kek e) → ClearsInOrder kek es → Accounted kek es t' := by
    refine hrun.history (P := fun done u => (∀ e ∈ done, IndexSafe kek e) →
      ClearsInOrder kek done → Accounted kek done u) ?_ ?_
    · intro _ _
      refine ⟨indexInv_fresh seed, fun id hstale => ?_⟩
      exact absurd hstale ((indexInv_fresh seed).clean (fun h => (nomatch h)) id)
    · intro done e hstep ih hsafe horder
      have hdone : Accounted kek done e.source :=
        ih (fun e' he' => hsafe e' (List.mem_append_left _ he')) horder.of_append
      exact hdone.step hstep (hsafe e (by simp)) horder
  exact hall hsafe horder

/-- In a run whose steps are safe and that clears the mark in order every listing that succeeds is
right. -/
theorem list_index_trusted {seed : VaultSeed} {es : List (Step Tables VaultLabel)} {t' : Tables}
    (hrun : Run (keyedStep kek) (Tables.fresh seed) es t') (hsafe : ∀ e ∈ es, IndexSafe kek e)
    (horder : ClearsInOrder kek es) :
    ∀ u ∈ visited (Tables.fresh seed) es, IndexTrusted kek u := by
  intro u hu
  rcases mem_visited.mp hu with hstart | ⟨e, he, htarget⟩
  · rw [hstart]
    exact (indexInv_fresh seed).trusted
  · rcases List.append_of_mem he with ⟨before, after, hsplit⟩
    rw [hsplit] at hrun horder
    rcases hrun.of_append with ⟨hbefore, hstep⟩
    have hupTo : Run (keyedStep kek) (Tables.fresh seed) (before ++ [e]) e.target :=
      hbefore.append (Run.of_step hstep (Run.nil _))
    rw [← htarget]
    refine (accounted_run hupTo (fun e' he' => hsafe e' ?_) ?_).inv.trusted
    · rw [hsplit]
      rcases List.mem_append.mp he' with hearlier | hlast
      · exact List.mem_append_left _ hearlier
      · rw [List.mem_singleton.mp hlast]
        simp
    · rw [List.append_cons] at horder
      exact horder.of_append

end Runs

/-! ## A renaming that stops half way -/

namespace HalfRenamed

abbrev crypto : Crypto :=
  referenceCrypto [.SecureNote "first" none, .SecureNote "renamed" none, .SecureNote "second" none]

def kek : Bytes :=
  List.replicate 32 7

def service : VaultService where
  crypto := .fromUnlockedKeystore
    { kek := some kek
      currentDekVersion := 1 }
  deviceId := "device"

def firstId : Uuid :=
  Uuid.filled 1

def secondId : Uuid :=
  Uuid.filled 2

def start : Bench where
  tables := .fresh Sample.seed
  uuids := [firstId, secondId]
  nonces := [Nonce.filled 1, Nonce.filled 2, Nonce.filled 3]
  fault := none

def create (name : String) : VaultCommand :=
  .createRecord
    { credentialType := .SecureNote
      payload := .SecureNote name none
      isFavorite := false
      expiresAt := none
      tags := [] }

def rename : VaultCommand :=
  .updateRecord
    { id := firstId
      payload := .SecureNote "renamed" none
      isFavorite := false
      expiresAt := none
      tags := []
      expectedVersion := 1 }

section

attribute [local instance] Sample.codec Sample.serde crypto

theorem lawful : LawfulCrypto :=
  referenceCrypto_lawful (by decide +kernel)

theorem opens : service.crypto.Opens kek := by
  intro ks k hks hk
  cases hks
  cases hk
  rfl

/-- One operation of the service. -/
def after (command : VaultCommand) (fault : Option Nat) (b : Bench) : Bench :=
  (b.perform Sample.instant service command fault).2

def step (command : VaultCommand) (fault : Option Nat) (b : Bench) : Step Tables VaultLabel where
  source := b.tables
  label := b.label Sample.instant service command fault
  target := (after command fault b).tables

theorem keyedStep_after (command : VaultCommand) (fault : Option Nat) (b : Bench) :
    keyedStep kek b.tables (step command fault b).label (after command fault b).tables :=
  ⟨opens, b.vaultStep_perform Sample.instant service command fault⟩

/-- The first record is created and listed. -/
def listed : Bench :=
  after .ensureRecordListIndex none (after (create "first") none start)

/-- The first record is renamed, and the statement after the `UPDATE` of its row fails. -/
def halfRenamed : Bench :=
  after rename (some 3) listed

/-- A second record is created. -/
def cleared : Bench :=
  after (create "second") none halfRenamed

/-- The first record is listed as "first" although it is called "renamed". -/
theorem listed_wrong :
    (cleared.perform Sample.instant service .ensureRecordListIndex none).1 = .ok () ∧
      (((after .ensureRecordListIndex none cleared).tables.records.lookup firstId).bind
        (RecordRow.payload kek) = some (.SecureNote "renamed" none)) ∧
      (after .ensureRecordListIndex none cleared).tables.listIndex.lookup firstId =
        some
          { name := "first"
            subtitle := "" } := by
  decide +kernel

/-- Two records are created and listed. -/
def bothListed : Bench :=
  after .ensureRecordListIndex none (after (create "second") none (after (create "first") none start))

/-- The first record is renamed, and the statement after the `UPDATE` of its row fails. -/
def interrupted : Bench :=
  after rename (some 3) bothListed

/-- The records are listed again. -/
def recovered : Bench :=
  after .ensureRecordListIndex none interrupted

def recovery : List (Step Tables VaultLabel) :=
  [step (create "first") none start, step (create "second") none (after (create "first") none start),
    step .ensureRecordListIndex none
      (after (create "second") none (after (create "first") none start)),
    step rename (some 3) bothListed, step .ensureRecordListIndex none interrupted]

/-- The fault leaves the row of the first record stale, and the listing writes it again. -/
theorem recovery_ends :
    (bothListed.tables.records.lookup firstId).map RecordRow.credentialType = some .SecureNote ∧
      (¬ markedDirty start.tables ∧ ¬ markedDirty (after (create "first") none start).tables ∧
        ¬ markedDirty (after (create "second") none (after (create "first") none start)).tables ∧
        ¬ markedDirty bothListed.tables) ∧
      (interrupted.tables.listIndex.lookup firstId).map IndexRow.name = some "first" ∧
      (recovered.tables.listIndex.lookup firstId).map IndexRow.name = some "renamed" := by
  unfold markedDirty
  decide +kernel

theorem source_step (command : VaultCommand) (fault : Option Nat) (b : Bench) :
    (step command fault b).source = b.tables :=
  rfl

theorem after_visited {t : Tables} {es : List (Step Tables VaultLabel)} {command : VaultCommand}
    {fault : Option Nat} {b : Bench} (h : step command fault b ∈ es) :
    (after command fault b).tables ∈ visited t es :=
  mem_visited.mpr (Or.inr ⟨step command fault b, h, rfl⟩)

theorem safe_rename {b : Bench} {fault : Option Nat}
    (h : (b.tables.records.lookup firstId).map RecordRow.credentialType = some .SecureNote) :
    IndexSafe kek (step rename fault b) := by
  intro row hrow
  have hlookup : b.tables.records.lookup firstId = some row := hrow
  rw [hlookup] at h
  exact Option.some.inj h

/-- Two records, a fault in a renaming, and a listing that makes it good. -/
theorem list_index_trusted_recovered :
    IndexTrusted kek interrupted.tables ∧ IndexTrusted kek recovered.tables ∧
      (interrupted.tables.listIndex.lookup firstId).map IndexRow.name = some "first" ∧
      (recovered.tables.listIndex.lookup firstId).map IndexRow.name = some "renamed" := by
  have hlawful := lawful
  rcases recovery_ends with ⟨htype, ⟨hstart, hfirst, hsecond, hlisted⟩, hold, hnew⟩
  have hrun : Run (keyedStep kek) (Tables.fresh Sample.seed) recovery recovered.tables :=
    Run.cons (keyedStep_after (create "first") none start)
      (Run.cons (keyedStep_after (create "second") none _)
        (Run.cons (keyedStep_after .ensureRecordListIndex none _)
          (Run.cons (keyedStep_after rename (some 3) bothListed)
            (Run.cons (keyedStep_after .ensureRecordListIndex none interrupted) (Run.nil _)))))
  have hsafe : ∀ e ∈ recovery, IndexSafe kek e := by
    intro e he
    simp only [recovery, List.mem_cons, List.not_mem_nil, or_false] at he
    rcases he with heq | heq | heq | heq | heq
    · rw [heq]
      exact rfl
    · rw [heq]
      exact rfl
    · rw [heq]
      trivial
    · rw [heq]
      exact safe_rename htype
    · rw [heq]
      trivial
  -- the mark is cleared once, by the listing after the fault
  have horder : ClearsInOrder kek recovery := by
    intro done e rest hsplit hmarked _ hlisting
    have he : e ∈ recovery := by
      rw [hsplit]
      simp
    simp only [recovery, List.mem_cons, List.not_mem_nil, or_false] at he
    rcases he with heq | heq | heq | heq | heq
    · rw [heq, source_step] at hmarked
      exact absurd hmarked hstart
    · rw [heq, source_step] at hmarked
      exact absurd hmarked hfirst
    · rw [heq, source_step] at hmarked
      exact absurd hmarked hsecond
    · rw [heq, source_step] at hmarked
      exact absurd hmarked hlisted
    · rw [heq] at hlisting
      exact absurd rfl hlisting
  have htrusted := list_index_trusted hrun hsafe horder
  refine ⟨htrusted _ (after_visited ?_), htrusted _ hrun.last_mem, hold, hnew⟩
  exact List.mem_of_getElem? (i := 3) rfl

/-- Not every run can be trusted: here a listing succeeds and shows the old name. -/
theorem list_index_stale :
    ¬ ∀ (seed : VaultSeed) (es : List (Step Tables VaultLabel)) (t' : Tables),
      Run (keyedStep kek) (Tables.fresh seed) es t' →
        ∀ u ∈ visited (Tables.fresh seed) es, IndexTrusted kek u := by
  intro hall
  have hrun : Run (keyedStep kek) (Tables.fresh Sample.seed)
      [step (create "first") none start,
        step .ensureRecordListIndex none (after (create "first") none start),
        step rename (some 3) listed, step (create "second") none halfRenamed] cleared.tables :=
    Run.cons (keyedStep_after (create "first") none start)
      (Run.cons (keyedStep_after .ensureRecordListIndex none _)
        (Run.cons (keyedStep_after rename (some 3) listed)
          (Run.cons (keyedStep_after (create "second") none halfRenamed) (Run.nil _))))
  rcases listed_wrong with ⟨hok, hpayload, hshown⟩
  have hlisting := keyedStep_after .ensureRecordListIndex none cleared
  have houtcome : (step .ensureRecordListIndex none cleared).label =
      { service := service
        command := .ensureRecordListIndex
        trace := (step .ensureRecordListIndex none cleared).label.trace
        outcome := .ok () } := by
    unfold step Bench.label
    rw [hok]
  rw [houtcome] at hlisting
  have hmatches := hall _ _ _ hrun cleared.tables hrun.last_mem service _ _ hlisting
  rcases Option.bind_eq_some_iff.mp hpayload with ⟨row, hrow, hkept⟩
  exact (hmatches firstId).2 ⟨row, _, _, hrow, hkept, hshown, by decide⟩

end

end HalfRenamed

end OakKeyring
