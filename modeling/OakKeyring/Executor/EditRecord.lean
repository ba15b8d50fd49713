import OakKeyring.Vault.EditOutcome
import OakKeyring.Vault.List
import OakKeyring.Vault.Readable

/-!
# Loading a record for an edit, and saving it

What is read for the edit screen, and what an update leaves, as the record that a reader of the
vault gets.
-/

namespace OakKeyring

open Effect Tables

/-! ## The handlers -/

namespace Vault

variable [Crypto] (v : VaultService)

/-- `log_dek_rotated` may fail unnoticed. -/
def lazyMigrateRecord (id : Uuid) (recordDekVersion : Nat) : VaultM Unit := do
  if recordDekVersion < v.crypto.currentDekVersion then
    reEncryptRecord v id recordDekVersion
    let _ ← Fallible.attempt (query (.insertAuditEntry .DekRotated none none
      (some s!"lazy migration: record {id.toText} v{recordDekVersion} -> v{v.crypto.currentDekVersion}")))

/-- A failed migration is logged; the record can be read with the old key. -/
def attemptLazyMigration (id : Uuid) : VaultM Unit := do
  match ← Fallible.attempt (getStoredRecord id) with
  | .error _ => return ()
  | .ok stored =>
      if stored.dekVersion < v.crypto.currentDekVersion then
        let _ ← Fallible.attempt (lazyMigrateRecord v id stored.dekVersion)

def handleLoadRecordForEdit (id : Uuid) : VaultM DecryptedRecord := do
  attemptLazyMigration v id
  getDecryptedRecord v id

end Vault

/-! ## The record that a reader gets -/

namespace DecryptedRecord

/-- A record without the version and the time of its last update. -/
def unstamped (record : DecryptedRecord) : DecryptedRecord :=
  { record with
    version := 0
    updatedAt := timestampToDatetime 0 }

end DecryptedRecord

variable [Crypto] {kek : Bytes} {v : VaultService} {t u w : Tables} {id : Uuid}

omit [Crypto] in
/-- Records that differ in their stamps only. -/
theorem unstamped_eq_iff {record record' : DecryptedRecord} :
    record.unstamped = record'.unstamped ↔
      record.id = record'.id ∧ record.isFavorite = record'.isFavorite ∧
        record.expiresAt = record'.expiresAt ∧ record.createdAt = record'.createdAt ∧
        record.deleted = record'.deleted ∧ record.deletedAt = record'.deletedAt ∧
        record.tags = record'.tags ∧ record.payload = record'.payload := by
  unfold DecryptedRecord.unstamped
  simp only [DecryptedRecord.mk.injEq, true_and]

/-- The record of a row, as `get_decrypted_record` puts it together. -/
def RecordRow.shown (id : Uuid) (row : RecordRow) (tags : List String)
    (payload : EncryptedPayload) : DecryptedRecord where
  id := id
  isFavorite := row.isFavorite
  expiresAt := row.expiresAt.map timestampToDatetime
  createdAt := timestampToDatetime row.createdAt
  updatedAt := timestampToDatetime row.updatedAt
  version := row.version
  deleted := row.deleted
  deletedAt := row.deletedAt.map timestampToDatetime
  tags := tags
  payload := payload

omit [Crypto] in
theorem decryptedRecord_eq_ok_iff {row : RecordRow} {tags : List String}
    {payload : EncryptedPayload} {record : DecryptedRecord} :
    Vault.decryptedRecord (row.toStoredRecord id tags) payload = .ok record ↔
      row.credentialType = payload.credentialType ∧ record = row.shown id tags payload := by
  unfold Vault.decryptedRecord
  change (if row.credentialType = payload.credentialType then
    (.ok (row.shown id tags payload) : Except String DecryptedRecord) else _) = .ok record ↔ _
  split
  · rename_i htype
    constructor
    · intro h
      exact ⟨htype, (Except.ok.inj h).symm⟩
    · intro h
      rw [h.2]
  · rename_i htype
    constructor
    · intro h
      cases h
    · intro h
      exact absurd h.1 htype

/-- What can be read of a record with the key of the vault. -/
def shownRecord (kek : Bytes) (t : Tables) (id : Uuid) : Option DecryptedRecord := do
  let row ← t.records.lookup id
  let payload ← row.payload kek
  if row.credentialType = payload.credentialType then some (row.shown id (t.tagsOf id) payload)
  else none

theorem shownRecord_eq_some_iff {record : DecryptedRecord} :
    shownRecord kek t id = some record ↔ ∃ row payload, t.records.lookup id = some row ∧
      row.payload kek = some payload ∧ row.credentialType = payload.credentialType ∧
        record = row.shown id (t.tagsOf id) payload := by
  unfold shownRecord
  simp only [Option.bind_eq_bind, Option.bind_eq_some_iff, Option.ite_none_right_eq_some,
    Option.some_inj]
  constructor
  · rintro ⟨row, hrow, payload, hpayload, htype, hrecord⟩
    exact ⟨row, payload, hrow, hpayload, htype, hrecord.symm⟩
  · rintro ⟨row, payload, hrow, hpayload, htype, hrecord⟩
    exact ⟨row, hrow, payload, hpayload, htype, hrecord.symm⟩

/-- The same record but for its version and the time of its last update. -/
structure SameRecord (kek : Bytes) (id : Uuid) (t u : Tables) : Prop where
  out : Outside [.records] t u
  record : ∀ record, shownRecord kek u id = some record →
    ∃ before, shownRecord kek t id = some before ∧ record.unstamped = before.unstamped

theorem SameRecord.refl (kek : Bytes) (id : Uuid) (t : Tables) : SameRecord kek id t t :=
  ⟨.refl _ t, fun record hrecord => ⟨record, hrecord, rfl⟩⟩

namespace Vault

omit [Crypto] in
/-- The expiry goes through the time that it is read as. -/
theorem expiresAt_reEncrypted {row : RecordRow} {tags : List String} {data : Bytes}
    {nonce : Nonce} {time : DateTime} :
    (updatedRow (reEncrypted v (row.toStoredRecord id tags) data nonce time) row).expiresAt =
      row.expiresAt := by
  change (row.expiresAt.map timestampToDatetime).map datetimeToTimestamp = row.expiresAt
  cases row.expiresAt <;> rfl

variable [LawfulCrypto]

theorem wpe_reEncryptRecord_same {row : RecordRow} (hkey : v.HoldsKey kek)
    (hrow : t.records.lookup id = some row) :
    wpe vaultEnv (fun _ => SameRecord kek id t) (fun _ => SameRecord kek id t)
      (reEncryptRecord v id row.dekVersion) t := by
  have hstart := SameRecord.refl kek id t
  refine (wpe_bind _ _).mpr (wpe_getStoredRecord (fun found hfound => ?_) fun _ => hstart)
  have hsame : row = found := Option.some.inj (hrow.symm.trans hfound)
  rw [← hsame]
  refine (wpe_bind _ _).mpr (wpe_crypto (fun plaintext hplain => ?_) fun _ _ => hstart)
  refine (wpe_bind _ _).mpr (wpe_newNonce fun nonce => ?_)
  refine (wpe_bind _ _).mpr (wpe_crypto (fun data hdata => ?_) fun _ _ => hstart)
  refine (wpe_bind _ _).mpr (wpe_now fun time => ?_)
  refine (wpe_bind _ _).mpr
    (wpe_query (fun (expected updated : Bool) w hrun hresult => ?_) fun _ => hstart)
  let record := reEncrypted v (row.toStoredRecord id (t.tagsOf id)) data nonce time
  have hend : t.updateRecord record row.version = (expected, w) := Except.ok.inj hrun
  have hdone : SameRecord kek id t w := by
    -- the row is written over the version that was read, or not at all
    rcases updateRecord_cases t record row.version with ⟨-, -, -, hwritten⟩ | ⟨-, hmissed⟩
    · have hw : w = t.updateRow id (updatedRow record) :=
        congrArg Prod.snd (hend.symm.trans hwritten)
      have hout : Outside [.records] t w := by
        rw [hw]
        exact outside_updateRow t id _
      refine ⟨hout, ?_⟩
      have hrow' : w.records.lookup id = some (updatedRow record row) := by
        rw [hw, lookup_updateRow, if_pos rfl, hrow]
        rfl
      have htags : w.tagsOf id = t.tagsOf id := hout.tagsOf (by decide) (by decide) id
      have hpayload : (updatedRow record row).payload kek = row.payload kek :=
        payload_reEncrypted hkey.opens hplain hdata
      -- what is shown of it is as before, but for its stamps
      intro after hafter
      rcases shownRecord_eq_some_iff.mp hafter with ⟨found, payload, hfound, hread, htype, hshown⟩
      have hsameRow : updatedRow record row = found := Option.some.inj (hrow'.symm.trans hfound)
      rw [← hsameRow] at hread htype hshown
      refine ⟨row.shown id (t.tagsOf id) payload, shownRecord_eq_some_iff.mpr
        ⟨row, payload, hrow, hpayload.symm.trans hread, htype, rfl⟩, ?_⟩
      have hexpires : (updatedRow record row).expiresAt = row.expiresAt := expiresAt_reEncrypted
      rw [hshown, htags]
      unfold RecordRow.shown DecryptedRecord.unstamped
      rw [hexpires]
      rfl
    · have hw : w = t := congrArg Prod.snd (hend.symm.trans hmissed)
      rw [hw]
      exact hstart
  exact wpe_ite (fun _ => hdone) fun _ => hdone

theorem wpe_attemptLazyMigration (hkey : v.HoldsKey kek) :
    wpe vaultEnv (fun _ => SameRecord kek id t) (fun _ _ => False)
      (attemptLazyMigration v id) t := by
  have hstart := SameRecord.refl kek id t
  refine (wpe_bind _ _).mpr (wpe_attempt (wpe_getStoredRecord (fun row hrow => ?_) fun _ => ?_))
  · refine wpe_ite (fun hold => ?_) fun _ => hstart
    refine (wpe_bind _ _).mpr (wpe_attempt ?_)
    refine wpe_ite (fun _ => ?_) fun hnot => absurd hold hnot
    refine (wpe_bind _ _).mpr (wpe_mono ?_ (fun _ _ h => h) (wpe_reEncryptRecord_same hkey hrow))
    intro _ u hu
    have haudit : ∀ {u' : Tables}, u' = u → SameRecord kek id t u' := by
      intro u' hsame
      rw [hsame]
      exact hu
    refine (wpe_bind _ _).mpr (wpe_attempt (wpe_query (fun _ _ w hrun _ => ?_) fun _ => hu))
    exact haudit (congrArg Prod.snd (Except.ok.inj hrun)).symm
  · exact hstart

/-- What is loaded for an edit is the record as it was, but for its stamps. -/
theorem wpe_handleLoadRecordForEdit (hkey : v.HoldsKey kek) :
    wpe vaultEnv
      (fun record u => SameRecord kek id t u ∧ shownRecord kek u id = some record)
      (fun _ _ => True) (handleLoadRecordForEdit v id) t := by
  refine (wpe_bind _ _).mpr (wpe_mono ?_ (fun _ _ h => h.elim) (wpe_attemptLazyMigration hkey))
  intro _ u hu
  refine (wpe_bind _ _).mpr (wpe_requireUnlocked (fun _ => ?_) trivial)
  refine (wpe_bind _ _).mpr (wpe_getStoredRecord (fun row hrow => ?_) fun _ => trivial)
  refine (wpe_bind _ _).mpr (wpe_crypto (fun payload hpayload => ?_) fun _ _ => trivial)
  refine (wpe_bind _ _).mpr (wpe_crypto (fun record hrecord => ?_) fun _ _ => trivial)
  rcases decryptedRecord_eq_ok_iff.mp hrecord with ⟨htype, hshown⟩
  refine (wpe_bind _ _).mpr (wpe_query (fun _ _ w hrun _ => ?_) fun _ => trivial)
  have hw : w = u := (congrArg Prod.snd (Except.ok.inj hrun)).symm
  rw [hw]
  refine ⟨hu, shownRecord_eq_some_iff.mpr ⟨row, payload, hrow, ?_, htype, hshown⟩⟩
  exact hkey.opens.payload hpayload

/-! ## What a save leaves -/

variable {params : UpdateRecordParams} {before : DecryptedRecord}

/-- The health row of a record after an edit to a version. -/
def carriedHealth (stale : Bool) (version : Nat) (row : Option HealthRow) : Option HealthRow :=
  if stale then none else row.map fun row => { row with recordVersion := version }

omit [Crypto] [LawfulCrypto] in
theorem wpe_carryHealthState_exact (id : Uuid) (version : Nat) (stale : Bool) :
    wpe vaultEnv
      (fun _ u => Outside [.healthState] t u ∧
        u.healthState.lookup id = carriedHealth stale version (t.healthState.lookup id))
      (fun _ _ => True) (carryHealthState id version stale) t := by
  unfold carryHealthState carriedHealth
  cases stale with
  | true =>
      -- a stale state is dropped
      refine (wpe_bind _ _).mpr (wpe_query (fun _ _ u hrun _ => ?_) fun _ => trivial)
      refine ⟨(DbOp.outside_run hrun).mono (by simp [DbOp.writes]), ?_⟩
      have hrows : u.healthState = t.healthState.erase id :=
        (congrArg (fun last => last.2.healthState) (Except.ok.inj hrun)).symm
      rw [hrows]
      exact AList.lookup_erase id t.healthState
  | false =>
      -- another one is carried over to the new version
      refine (wpe_bind _ _).mpr (wpe_query (fun _ _ u hrun _ => ?_) fun _ => trivial)
      refine ⟨(DbOp.outside_run hrun).mono (by simp [DbOp.writes]), ?_⟩
      cases hrow : t.healthState.lookup id with
      | none =>
          simp only [DbOp.run, hrow] at hrun
          have hrows : u.healthState = t.healthState :=
            (congrArg (fun last => last.2.healthState) (Except.ok.inj hrun)).symm
          rw [hrows, hrow]
          rfl
      | some row =>
          simp only [DbOp.run, hrow] at hrun
          have hrows : u.healthState =
              t.healthState.insert id { row with recordVersion := version } :=
            (congrArg (fun last => last.2.healthState) (Except.ok.inj hrun)).symm
          rw [hrows]
          exact AList.lookup_insert t.healthState

omit [Crypto] [LawfulCrypto] in
/-- Of the statements after the tags only one is about the health state. -/
theorem wpe_afterTags_health (version : Nat) (stale : Bool) :
    wpe vaultEnv
      (fun _ u => Outside tagFollowers t u ∧ u.healthState.lookup params.id =
        carriedHealth stale version (t.healthState.lookup params.id))
      (fun _ _ => True) (afterTags params version stale) t := by
  -- the index and its mark, the health state, then the audit entry and the sync state
  have hindex : Ensures (Outside [.listIndex] t)
      (upsertRecordListIndexForPayload params.id params.payload) t :=
    ensures_outside (makesOnly_query (by simp [DbOp.Follows, DbOp.writes]))
  refine (wpe_bind _ _).mpr (wpe_mono ?_ (fun _ _ _ => trivial) hindex)
  intro _ x hx
  have hclean : Ensures (Outside [.metadata] x) markRecordListIndexClean x :=
    ensures_outside (makesOnly_query (by simp [DbOp.Follows, DbOp.writes]))
  refine (wpe_bind _ _).mpr (wpe_mono ?_ (fun _ _ _ => trivial) hclean)
  intro _ y hy
  refine (wpe_bind _ _).mpr (wpe_mono ?_ (fun _ _ h => h)
    (wpe_carryHealthState_exact params.id version stale))
  rintro _ z ⟨hz, hcarried⟩
  have hlast : Ensures (Outside [.syncState] z)
      (do
        query (.insertAuditEntry .RecordUpdate (some params.id) (some params.payload.name) none)
        markRecordsPendingSync [params.id]) z := by
    refine ensures_outside (makesOnly_bind ?_ fun _ => ?_)
    · exact makesOnly_query (by simp [DbOp.Follows, DbOp.writes])
    · refine makesOnly_forM fun id => makesOnly_bind makesOnly_now fun _ => ?_
      exact makesOnly_query (by simp [DbOp.Follows, DbOp.writes])
  refine wpe_mono ?_ (fun _ _ _ => trivial) hlast
  intro _ u hu
  have hout : Outside tagFollowers t u :=
    (((hx.mono (by decide)).trans (hy.mono (by decide))).trans (hz.mono (by decide))).trans
      (hu.mono (by decide))
  refine ⟨hout, ?_⟩
  have hbefore : y.healthState = t.healthState :=
    (hy .healthState (by decide)).trans (hx .healthState (by decide))
  have hafter : u.healthState = z.healthState := hu .healthState (by decide)
  rw [hafter, hcarried, hbefore]

/-- The record that an edit makes of another. -/
structure SavedAs (params : UpdateRecordParams) (before after : DecryptedRecord) : Prop where
  id : after.id = before.id
  payload : after.payload = params.payload
  favorite : after.isFavorite = params.isFavorite
  expiry : after.expiresAt = (params.expiresAt.map datetimeToTimestamp).map timestampToDatetime
  created : after.createdAt = before.createdAt
  deleted : after.deleted = before.deleted ∧ after.deletedAt = before.deletedAt
  version : after.version = before.version + 1
  tags : ∀ name, name ∈ after.tags ↔ name ∈ params.tags

/-- What an edit that goes through leaves of a record. -/
structure Saved (kek : Bytes) (params : UpdateRecordParams) (before : DecryptedRecord)
    (t u : Tables) : Prop where
  record : ∃ after, shownRecord kek u params.id = some after ∧ SavedAs params before after
  health : u.healthState.lookup params.id =
    carriedHealth (passwordChanged before.payload params.payload ||
      expiresAtChanged before.expiresAt params.expiresAt) (before.version + 1)
      (t.healthState.lookup params.id)

/-- The statements after the history, on a row that is still what was read. -/
theorem wpe_writeEdit_saved (params : UpdateRecordParams) (before : DecryptedRecord)
    {row : RecordRow} {payload : EncryptedPayload} {stale : Bool} (hkey : v.HoldsKey kek)
    (hkeyed : w.Keyed) (hrow : w.records.lookup params.id = some row)
    (htype : row.credentialType = params.payload.credentialType)
    (hbefore : before = row.shown params.id (w.tagsOf params.id) payload)
    (hstale : stale = (passwordChanged before.payload params.payload ||
      expiresAtChanged before.expiresAt params.expiresAt)) :
    wpe vaultEnv (fun _ u => Saved kek params before w u) (fun _ _ => True)
      (do
        let nonce ← newNonce
        let encryptedData ← crypto
          (v.crypto.encryptPayload params.payload (recordAad params.id) nonce)
        let time ← now
        markRecordListIndexDirty
        let updated : Bool ← query
          (.updateRecord (editedRecord v (storedRow w params.id row) params encryptedData nonce
            time) params.expectedVersion)
        if updated = false then
          throw (.VersionConflict params.expectedVersion (storedRow w params.id row).version)
        afterRow params ((storedRow w params.id row).version + 1) stale) w := by
  refine (wpe_bind _ _).mpr (wpe_newNonce fun nonce => ?_)
  refine (wpe_bind _ _).mpr (wpe_crypto (fun encryptedData hencrypted => ?_) fun _ _ => trivial)
  refine (wpe_bind _ _).mpr (wpe_now fun time => ?_)
  have hdirty : Ensures (Outside [.metadata] w) markRecordListIndexDirty w :=
    ensures_outside (makesOnly_query (by simp [DbOp.Follows, DbOp.writes]))
  refine (wpe_bind _ _).mpr (wpe_mono ?_ (fun _ _ _ => trivial) hdirty)
  intro _ x hx
  have hlookup : x.records.lookup params.id = some row := by
    have hrecords : x.records = w.records := hx .records (by decide)
    rw [hrecords]
    exact hrow
  let record := editedRecord v (storedRow w params.id row) params encryptedData nonce time
  have hid : record.id = params.id := rfl
  refine (wpe_bind _ _).mpr (wpe_query (fun (expected updated : Bool) y hrun hsame => ?_)
    fun _ => trivial)
  have hupdated : updated = expected := hsame
  rw [hupdated]
  refine wpe_ite (fun _ => trivial) fun hdone => ?_
  have hend : x.updateRecord record params.expectedVersion = (expected, y) := Except.ok.inj hrun
  rcases updateRecord_cases x record params.expectedVersion with ⟨-, -, -, hwritten⟩ | ⟨-, hmissed⟩
  · have hy : y = x.updateRow params.id (updatedRow record) :=
      congrArg Prod.snd (hend.symm.trans hwritten)
    have hout : Outside [.records] x y := by
      rw [hy]
      exact outside_updateRow x _ _
    have hnew : y.records.lookup params.id = some (updatedRow record row) := by
      rw [hy, lookup_updateRow, if_pos rfl, hlookup]
      rfl
    have hkeyed' : y.Keyed := by
      refine hkeyed.of_rows ((hout .recordTags (by decide)).trans (hx .recordTags (by decide)))
        ((hout .tags (by decide)).trans (hx .tags (by decide))) ?_
      intro other hmem
      have hrecords : x.records = w.records := hx .records (by decide)
      rw [hy, mem_updateRow, hrecords]
      exact hmem
    have hmem : params.id ∈ y.records := AList.lookup_isSome.mp (by rw [hnew]; rfl)
    refine (wpe_bind _ _).mpr (wpe_mono ?_ (fun _ _ _ => trivial)
      (wpe_replaceTags_exact hkeyed' hmem params.tags))
    rintro _ z ⟨hz, htags⟩
    refine wpe_mono ?_ (fun _ _ _ => trivial) (wpe_afterTags_health _ _)
    rintro _ u ⟨hu, hhealth⟩
    have hrows : u.records = y.records :=
      (hu .records (by decide)).trans (hz .records (by decide))
    have hhealths : z.healthState = w.healthState :=
      ((hz .healthState (by decide)).trans (hout .healthState (by decide))).trans
        (hx .healthState (by decide))
    have htagged : u.tagsOf params.id = z.tagsOf params.id :=
      hu.tagsOf (by decide) (by decide) params.id
    constructor
    · refine ⟨(updatedRow record row).shown params.id (u.tagsOf params.id) params.payload,
        shownRecord_eq_some_iff.mpr ⟨updatedRow record row, params.payload, ?_, ?_, htype, rfl⟩,
        ?_⟩
      · rw [hrows]
        exact hnew
      · exact payload_encrypted hkey.opens hencrypted
      · rw [hbefore]
        refine ⟨rfl, rfl, rfl, rfl, rfl, ⟨rfl, rfl⟩, rfl, ?_⟩
        intro name
        change name ∈ u.tagsOf params.id ↔ _
        rw [htagged]
        exact htags name
    · rw [hhealth, hhealths, ← hstale, hbefore]
      rfl
  -- no row with that version, and the statement says so
  · have hfalse : expected = false := congrArg Prod.fst (hend.symm.trans hmissed)
    exact absurd hfalse hdone

omit [Crypto] [LawfulCrypto] in
theorem makesOnly_savePasswordHistory_follows (data : Bytes) (nonce : Nonce) (version : Nat) :
    MakesOnly (DbOp.Follows [.passwordHistory]) (savePasswordHistory id data nonce version) :=
  makesOnly_savePasswordHistory_of (fun _ => List.nil_subset _) (fun _ => List.nil_subset _)
    (fun _ => List.Subset.refl _) (fun _ => List.Subset.refl _) id data nonce version

/-- What an update of a record leaves when it goes through. -/
theorem wpe_updateRecord_saved (hkey : v.HoldsKey kek) (hkeyed : t.Keyed)
    (hbefore : shownRecord kek t params.id = some before)
    (htype : params.payload.credentialType = before.credentialType) :
    wpe vaultEnv (fun _ u => Saved kek params before t u) (fun _ _ => True)
      (updateRecord v params) t := by
  rcases shownRecord_eq_some_iff.mp hbefore with ⟨row, payload, hrow, hpayload, hrowType, hshown⟩
  refine (wpe_bind _ _).mpr (wpe_requireUnlocked (fun _ => ?_) trivial)
  refine (wpe_bind _ _).mpr (wpe_getStoredRecord (fun found hfound => ?_) fun _ => trivial)
  rw [← Option.some.inj (hrow.symm.trans hfound)]
  refine wpe_ite (fun _ => trivial) fun _ => ?_
  refine (wpe_bind _ _).mpr (wpe_checked (fun _ _ => ?_) fun _ _ => trivial)
  refine (wpe_bind _ _).mpr (wpe_checked (fun _ _ => ?_) fun _ _ => trivial)
  refine (wpe_bind _ _).mpr (wpe_crypto (fun oldPayload hold => ?_) fun _ _ => trivial)
  have hsameOld : oldPayload = before.payload := by
    have hread : row.payload kek = some oldPayload := hkey.opens.payload hold
    rw [hshown]
    exact Option.some.inj (hread.symm.trans hpayload)
  have htypes : row.credentialType = params.payload.credentialType := by
    rw [htype, hshown]
    exact hrowType
  rw [hsameOld]
  have hstale : (passwordChanged before.payload params.payload ||
      expiresAtChanged (storedRow t params.id row).expiresAt params.expiresAt) =
        (passwordChanged before.payload params.payload ||
          expiresAtChanged before.expiresAt params.expiresAt) := by
    rw [hshown]
    rfl
  refine wpe_ite (fun _ => ?_) fun _ => ?_
  · refine (wpe_bind _ _).mpr (wpe_mono ?_ (fun _ _ _ => trivial)
      (ensures_outside (makesOnly_savePasswordHistory_follows _ _ _)))
    intro _ w hw
    have htags : w.tagsOf params.id = t.tagsOf params.id :=
      hw.tagsOf (by decide) (by decide) params.id
    have hrecords : w.records = t.records := hw .records (by decide)
    have hkeyed' : w.Keyed := by
      refine hkeyed.of_rows (hw .recordTags (by decide)) (hw .tags (by decide)) ?_
      intro other hmem
      rw [hrecords]
      exact hmem
    have hwrite := wpe_writeEdit_saved params before hkey hkeyed'
      (by rw [hrecords]; exact hrow) htypes (by rw [htags]; exact hshown) hstale
    unfold storedRow at hwrite
    rw [htags] at hwrite
    refine wpe_mono ?_ (fun _ _ _ => trivial) hwrite
    intro _ u hu
    have hhealths : w.healthState = t.healthState := hw .healthState (by decide)
    refine ⟨hu.record, ?_⟩
    rw [← hhealths]
    exact hu.health
  · exact wpe_writeEdit_saved params before hkey hkeyed hrow htypes hshown hstale

end Vault

end OakKeyring
