import OakKeyring.Db.Contents
import OakKeyring.Vault.Commands

/-!
# Operations that leave no mark

Re-encryption and downloads change one record and do not mark it; creating, listing and removing
records changes the content of none.
-/

namespace OakKeyring

open Effect Transition Tables

/-- Queries that mark nothing Synced and touch none but the given records. -/
def DbOp.Touching (touched : Set Uuid) (op : DbOp) : Prop :=
  op.marksSynced = false ∧ ∀ t, op.touches t ⊆ touched

theorem DbOp.touching_routine (touched : Set Uuid) : Vault.Routine (DbOp.Touching touched) where
  getRecord := fun _ => ⟨rfl, fun _ => Set.empty_subset _⟩
  listRecords := fun _ => ⟨rfl, fun _ => Set.empty_subset _⟩
  insertAuditEntry := fun _ _ _ _ => ⟨rfl, fun _ => Set.empty_subset _⟩
  upsertSyncStatePending := fun _ _ => ⟨rfl, fun _ => Set.empty_subset _⟩
  getTagByName := fun _ => ⟨rfl, fun _ => Set.empty_subset _⟩
  recordIdsForTag := fun _ => ⟨rfl, fun _ => Set.empty_subset _⟩
  getOrCreateTag := fun _ => ⟨rfl, fun _ => Set.empty_subset _⟩
  deleteRecordHealthState := fun _ => ⟨rfl, fun _ => Set.empty_subset _⟩
  copyRecordHealthStateVersion := fun _ _ => ⟨rfl, fun _ => Set.empty_subset _⟩
  countPasswordHistory := fun _ => ⟨rfl, fun _ => Set.empty_subset _⟩
  oldestPasswordHistory := fun _ => ⟨rfl, fun _ => Set.empty_subset _⟩
  deletePasswordHistoryEntry := fun _ => ⟨rfl, fun _ => Set.empty_subset _⟩
  insertPasswordHistory := fun _ => ⟨rfl, fun _ => Set.empty_subset _⟩

namespace Vault

variable {touched : Set Uuid} {t₀ t : Tables} {α : Type}

theorem makesOnly_silent {op : DbOp} (hop : op.marksSynced = false)
    (htouches : ∀ t, op.touches t = ∅) : MakesOnly (DbOp.Touching touched) (query op) := by
  refine makesOnly_query ⟨hop, fun t => ?_⟩
  rw [htouches t]
  exact Set.empty_subset _

theorem ensures_touching {p : VaultM α} (hp : MakesOnly (DbOp.Touching touched) p)
    (hruled : t₀.Ruled) : Ensures (Moved touched t₀) p t₀ := by
  refine ensures_keep hp ?_ (.refl hruled)
  intro op result u u' hop hrun hu
  exact hu.trans ((DbOp.moved_run hu.ruled hop.1 hrun).mono (hop.2 u))

variable [Crypto] (v : VaultService)

theorem makesOnly_upsertRecordListIndexForStored (record : StoredRecord) :
    MakesOnly (DbOp.Touching touched) (upsertRecordListIndexForStored v record) := by
  refine makesOnly_bind (makesOnly_crypto _) fun name => ?_
  refine makesOnly_bind (makesOnly_crypto _) fun subtitle => ?_
  exact makesOnly_silent rfl fun _ => rfl

theorem makesOnly_ensureRecordListIndex :
    MakesOnly (DbOp.Touching touched) (ensureRecordListIndex v) := by
  refine makesOnly_bind (makesOnly_requireUnlocked v) fun _ => ?_
  refine makesOnly_bind (makesOnly_silent rfl fun _ => rfl) fun version => ?_
  refine makesOnly_bind (makesOnly_silent rfl fun _ => rfl) fun dirty => ?_
  refine makesOnly_bind (makesOnly_silent rfl fun _ => rfl) fun indexRows => ?_
  refine makesOnly_bind (makesOnly_silent rfl fun _ => rfl) fun recordRows => ?_
  refine makesOnly_ite (makesOnly_pure _) ?_
  refine makesOnly_bind (makesOnly_silent rfl fun _ => rfl) fun _ => ?_
  refine makesOnly_bind (makesOnly_silent rfl fun _ => rfl) fun records => ?_
  refine makesOnly_bind
    (makesOnly_forM fun record => makesOnly_upsertRecordListIndexForStored v record) fun _ => ?_
  refine makesOnly_bind (makesOnly_silent rfl fun _ => rfl) fun _ => ?_
  exact makesOnly_silent rfl fun _ => rfl

theorem makesOnly_createRecord (params : CreateRecordParams) :
    MakesOnly (DbOp.Touching touched) (createRecord v params) := by
  refine makesOnly_bind (makesOnly_requireUnlocked v) fun _ => ?_
  refine makesOnly_bind (makesOnly_checked _) fun _ => ?_
  refine makesOnly_bind (makesOnly_checked _) fun _ => ?_
  refine makesOnly_bind makesOnly_newUuid fun id => ?_
  refine makesOnly_bind makesOnly_newNonce fun nonce => ?_
  refine makesOnly_bind (makesOnly_crypto _) fun encryptedData => ?_
  refine makesOnly_bind makesOnly_now fun time => ?_
  refine makesOnly_bind (makesOnly_silent rfl fun _ => rfl) fun _ => ?_
  refine makesOnly_bind (makesOnly_silent rfl fun _ => rfl) fun _ => ?_
  refine makesOnly_bind (makesOnly_silent rfl fun _ => rfl) fun _ => ?_
  refine makesOnly_bind (makesOnly_silent rfl fun _ => rfl) fun _ => ?_
  exact makesOnly_bind (makesOnly_silent rfl fun _ => rfl) fun _ => makesOnly_pure id

theorem makesOnly_reEncryptRecord (id : Uuid) (oldDekVersion : Nat) :
    MakesOnly (DbOp.Touching Set.univ) (reEncryptRecord v id oldDekVersion) := by
  have hroutine := DbOp.touching_routine Set.univ
  refine makesOnly_bind (makesOnly_getStoredRecord hroutine id) fun record => ?_
  refine makesOnly_bind (makesOnly_crypto _) fun plaintext => ?_
  refine makesOnly_bind makesOnly_newNonce fun nonce => ?_
  refine makesOnly_bind (makesOnly_crypto _) fun encryptedData => ?_
  refine makesOnly_bind makesOnly_now fun time => ?_
  refine makesOnly_bind (makesOnly_query ⟨rfl, fun _ => Set.subset_univ _⟩) fun updated => ?_
  exact makesOnly_ite (makesOnly_throw _) (makesOnly_pure _)

/-- The row that is written is the one that was read. -/
theorem ensures_reEncryptRecord (hruled : t₀.Ruled) (id : Uuid) (oldDekVersion : Nat) :
    Ensures (Moved {id} t₀) (reEncryptRecord v id oldDekVersion) t₀ := by
  have hstart : Moved {id} t₀ t₀ := .refl hruled
  refine ensures_bind (wpe_getStoredRecord (fun row _ => ?_) fun _ => hstart)
  refine ensures_bind (wpe_crypto (fun plaintext _ => ?_) fun _ _ => hstart)
  refine ensures_bind (wpe_newNonce fun nonce => ?_)
  refine ensures_bind (wpe_crypto (fun encryptedData _ => ?_) fun _ _ => hstart)
  refine ensures_bind (wpe_now fun time => ?_)
  refine ensures_bind (wpe_query (fun (expected updated : Bool) u hrun _ => ?_) fun _ => hstart)
  have hmoved : Moved {id} t₀ u := DbOp.moved_run hruled rfl hrun
  exact ensures_ite (fun _ => ensures_throw hmoved) fun _ => ensures_pure hmoved

variable [Codec] [Serde]

omit [Crypto] [Codec] [Serde] in
theorem makesOnly_writeDownloaded (stored : StoredRecord) (existing : Option StoredRecord) :
    MakesOnly (DbOp.Touching {stored.id}) (writeDownloaded stored existing) := by
  have hroutine := DbOp.touching_routine {stored.id}
  cases existing with
  | none => exact makesOnly_bind (makesOnly_silent rfl fun _ => rfl) fun _ =>
      makesOnly_silent rfl fun _ => rfl
  | some old =>
      refine makesOnly_bind (makesOnly_silent rfl fun _ => rfl) fun _ => ?_
      refine makesOnly_bind (makesOnly_query ⟨rfl, fun _ => subset_refl _⟩) fun _ => ?_
      refine makesOnly_bind (makesOnly_query ⟨rfl, fun _ => subset_refl _⟩) fun _ => ?_
      exact makesOnly_replaceTags hroutine _ _ ⟨rfl, fun _ => subset_refl _⟩
        fun _ => ⟨rfl, fun _ => subset_refl _⟩

omit [Serde] [Crypto] in
theorem makesOnly_writeDownloadedHealth (id : Uuid) (r : CloudRecord)
    (m : Option CloudPrivateMetadata) :
    MakesOnly (DbOp.Touching touched) (writeDownloadedHealth id r m) := by
  cases m with
  | none => exact makesOnly_pure ()
  | some m =>
      cases hhealth : m.health with
      | some health =>
          simp only [writeDownloadedHealth, hhealth]
          exact makesOnly_silent rfl fun _ => rfl
      | none =>
          simp only [writeDownloadedHealth, hhealth]
          exact makesOnly_bind (makesOnly_silent rfl fun _ => rfl) fun _ => makesOnly_pure _

omit [Codec] [Serde] in
theorem makesOnly_indexDownloaded (stored : StoredRecord) (r : CloudRecord)
    (m : Option CloudPrivateMetadata) :
    MakesOnly (DbOp.Touching touched) (indexDownloaded v stored r m) := by
  refine makesOnly_bind
    (makesOnly_attempt (makesOnly_upsertRecordListIndexForStored v stored)) fun outcome => ?_
  cases outcome with
  | ok a => exact makesOnly_pure _
  | error e =>
      cases e with
      | CryptoError message => exact makesOnly_silent rfl fun _ => rfl
      | _ => exact makesOnly_throw _

/-- What is applied touches the record it names. -/
theorem makesOnly_applyDownloadedCloudRecord (r : CloudRecord) :
    MakesOnly (DbOp.Touching {id | Uuid.parseStr r.id = some id})
      (applyDownloadedCloudRecord v r) := by
  refine makesOnly_required_bind fun id hparse => ?_
  rw [hparse]
  have hid : {id' | some id = some id'} = ({id} : Set Uuid) := by
    ext id'
    simp [eq_comm]
  rw [hid]
  refine makesOnly_bind (makesOnly_crypto _) fun encryptedData => ?_
  refine makesOnly_bind (makesOnly_crypto _) fun nonce => ?_
  refine makesOnly_bind (makesOnly_silent rfl fun _ => rfl) fun existing => ?_
  refine makesOnly_bind makesOnly_now fun time => ?_
  refine makesOnly_bind (makesOnly_crypto _) fun m => ?_
  refine makesOnly_bind (makesOnly_checked _) fun _ => ?_
  have hrest : MakesOnly (DbOp.Touching {id}) (do
      writeDownloaded (downloadedRecord id r encryptedData nonce m existing time) existing
      writeDownloadedHealth id r m
      indexDownloaded v (downloadedRecord id r encryptedData nonce m existing time) r m
      markRecordListIndexClean
      return existing.isNone) := by
    refine makesOnly_bind (makesOnly_writeDownloaded
      (downloadedRecord id r encryptedData nonce m existing time) existing) fun _ => ?_
    refine makesOnly_bind (makesOnly_writeDownloadedHealth id r m) fun _ => ?_
    refine makesOnly_bind (makesOnly_indexDownloaded v _ r m) fun _ => ?_
    exact makesOnly_bind (makesOnly_silent rfl fun _ => rfl) fun _ => makesOnly_pure _
  refine makesOnly_ite ?_ hrest
  refine makesOnly_bind (makesOnly_crypto _) fun payload => ?_
  exact makesOnly_bind (makesOnly_checked _) fun _ => hrest

end Vault

end OakKeyring
