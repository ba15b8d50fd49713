import OakKeyring.Vault.Transport
import OakKeyring.Vault.List
import OakKeyring.Sync.Task
import OakKeyring.Db.Frames
import OakKeyring.Lib.Checks
import Mathlib.Algebra.Group.Nat.Defs

/-!
# What the executor hands to the sync task

A snapshot of the vault: every stored record with its status, and the upload form of the pending
ones. A record whose upload form cannot be built, or is not valid, is left out of the uploads
and kept among the records.
-/

namespace OakKeyring

open Effect

def REMOTE_METADATA_SNAPSHOT_KEY : String := "remote_metadata_snapshot"

/-- `str::parse::<u64>`. -/
def parseU64 (s : String) : Option Nat :=
  let digits :=
    match s.toList with
    | '+' :: rest => rest
    | chars => chars
  if digits = [] ∨ digits.any (fun c => !c.isDigit) = true then none
  else
    let value := digits.foldl (fun n c => 10 * n + (c.toNat - '0'.toNat)) 0
    if value < 2 ^ 64 then some value else none

namespace Vault

/-- A record without a sync state counts as pending. -/
def statusForSync (states : List SyncStateRow) (id : Uuid) : SyncStatus :=
  (syncStatusOf states id).getD .Pending

def localRecordInfo (states : List SyncStateRow) (record : StoredRecord) : LocalRecordInfo where
  recordId := record.id.toText
  syncStatus := statusForSync states record.id
  version := record.version

def attachedHealth (healths : List RecordHealthState) (id : Uuid) : Option RecordHealthState :=
  healths.find? fun health => health.recordId = id

/-- A metadata value; one that cannot be read counts as missing. -/
def metadataText (key : String) : VaultM (Option String) := do
  let found : Except VaultError (Option String) ← Fallible.attempt (query (.getMetadata key))
  return found.toOption.join

def vaultTokenText : VaultM String := do
  match ← metadataText "vault_identity_token" with
  | some token => return token
  | none =>
      let vaultId ← metadataText "vault_id"
      return vaultId.getD ""

/-- The records whose upload form is built. -/
def needsUpload (states : List SyncStateRow) (record : StoredRecord) : Bool :=
  statusForSync states record.id == .Pending

variable [Codec] [Serde] [Crypto]

/-- A record whose upload form cannot be built is passed over. -/
def pendingUpload (v : VaultService) (healths : List RecordHealthState) (record : StoredRecord) :
    VaultM (Option CloudRecord) := do
  let built : Except VaultError CloudRecord ← Fallible.attempt
    (buildCloudRecordForSync v record (attachedHealth healths record.id))
  return built.toOption

/-- The data made of the records, their states and their health. -/
def syncVaultDataOf (v : VaultService) (storedRecords : List StoredRecord)
    (states : List SyncStateRow) (healths : List RecordHealthState) : VaultM SyncVaultData := do
  let built ← (storedRecords.filter (needsUpload states)).mapM (pendingUpload v healths)
  let metadataVersion ← metadataText "metadata_version"
  let snapshot ← metadataText REMOTE_METADATA_SNAPSHOT_KEY
  let vaultToken ← vaultTokenText
  return {
    localRecords := storedRecords.map (localRecordInfo states)
    uploads := built.reduceOption.filter fun r => r.validate.isOk
    localMetadataVersion := (metadataVersion.bind parseU64).getD 0
    lastRemoteMetadata := snapshot.bind fun json => (metadataFromJson json).toOption
    localVaultToken := vaultToken }

/-- `build_sync_vault_data`. -/
def buildSyncVaultData (vault : Option VaultService) : VaultM (Option SyncVaultData) :=
  match vault with
  | none => return none
  | some v =>
      if v.crypto.isUnlocked = false then return none
      else do
        let stored : Except VaultError (List StoredRecord) ←
          Fallible.attempt (query (.listRecords .all))
        match stored with
        | .error _ => return none
        | .ok storedRecords => do
            let states ← loadSyncStatusMap
            let listed : Except VaultError (List RecordHealthState) ←
              Fallible.attempt (query .listRecordHealthStates)
            let data ← syncVaultDataOf v storedRecords states (listed.toOption.getD [])
            return some data

/-! ## The snapshot -/

/-- The upload form with a given nonce for the private metadata. -/
def uploadForm (v : VaultService) (record : StoredRecord) (health : Option RecordHealthState)
    (nonce : Nonce) : Except String CloudRecord := do
  let name ← v.crypto.decryptNameOnly record.encryptedData record.nonce (recordAad record.id)
    record.dekVersion
  let privateJson ← privateMetadataToJson (privateMetadataOf record name health)
  let privateEncrypted ← v.crypto.encrypt privateJson (metadataAad record.id.toText) nonce
  return cloudRecordOf record
    { encryptedData := base64Encode privateEncrypted
      nonce := base64Encode nonce.bytes
      dekVersion := v.crypto.currentDekVersion }

/-- The record can be built and is valid. -/
def Uploadable (v : VaultService) (record : StoredRecord) (health : Option RecordHealthState)
    (nonce : Nonce) : Prop :=
  ∃ r, uploadForm v record health nonce = .ok r ∧ r.validate = .ok ()

/-- The upload of a record in the snapshot, if it has one. -/
def validUpload (v : VaultService) (record : StoredRecord) (health : Option RecordHealthState)
    (nonce : Nonce) : Option CloudRecord :=
  (uploadForm v record health nonce).toOption.filter fun r => r.validate.isOk

theorem validUpload_eq_some_iff {v : VaultService} {record : StoredRecord}
    {health : Option RecordHealthState} {nonce : Nonce} {r : CloudRecord} :
    validUpload v record health nonce = some r ↔
      uploadForm v record health nonce = .ok r ∧ r.validate = .ok () := by
  unfold validUpload
  cases uploadForm v record health nonce with
  | error e => simp [Except.toOption]
  | ok r' =>
      simp only [Except.toOption, Option.filter_eq_some_iff, Option.some.injEq, Except.ok.injEq]
      refine and_congr_right fun _ => ?_
      cases r.validate <;> simp [Except.isOk, Except.toBool]

theorem id_uploadForm {v : VaultService} {record : StoredRecord}
    {health : Option RecordHealthState} {nonce : Nonce} {r : CloudRecord}
    (h : uploadForm v record health nonce = .ok r) : r.id = record.id.toText := by
  unfold uploadForm at h
  rcases Checks.bind_eq_ok_iff.mp h with ⟨name, -, h⟩
  rcases Checks.bind_eq_ok_iff.mp h with ⟨privateJson, -, h⟩
  rcases Checks.bind_eq_ok_iff.mp h with ⟨privateEncrypted, -, h⟩
  cases h
  rfl

/-- What a snapshot holds, given what was read and the nonce drawn for each record. -/
structure SyncSnapshot (v : VaultService) (t : Tables) (data : SyncVaultData) where
  records : List StoredRecord
  states : List SyncStateRow
  healths : List RecordHealthState
  nonceOf : Uuid → Nonce
  records_perm : records.Perm t.storedRecords
  states_read : states.Subperm (t.syncState.entries.map fun e => e.2.toSyncState e.1)
  healths_read : healths.Subperm (t.healthState.entries.map fun e => e.2.toHealthState e.1)
  localRecords_eq : data.localRecords = records.map (localRecordInfo states)
  uploads_eq : data.uploads = (records.filter (needsUpload states)).filterMap fun record =>
    validUpload v record (attachedHealth healths record.id) (nonceOf record.id)

/-- Building an upload form touches nothing, and depends on the nonce drawn. -/
theorem wpe_buildCloudRecordForSync {v : VaultService} {record : StoredRecord}
    {health : Option RecordHealthState} {t : Tables} :
    wpe vaultEnv (fun r u => u = t ∧ ∃ nonce, uploadForm v record health nonce = .ok r)
      (fun _ u => u = t ∧ ∃ nonce e, uploadForm v record health nonce = .error e)
      (buildCloudRecordForSync v record health) t := by
  let nonce₀ : Nonce := ⟨List.replicate 24 0, rfl⟩
  unfold buildCloudRecordForSync
  refine (wpe_bind _ _).mpr (wpe_crypto ?_ ?_)
  · intro name hname
    refine (wpe_bind _ _).mpr (wpe_crypto ?_ ?_)
    · intro privateJson hjson
      refine (wpe_bind _ _).mpr (wpe_newNonce fun nonce => ?_)
      refine (wpe_bind _ _).mpr (wpe_crypto ?_ ?_)
      · intro privateEncrypted hencrypt
        refine ⟨rfl, nonce, ?_⟩
        simp [uploadForm, hname, hjson, hencrypt, bind, Except.bind, pure, Except.pure]
      · intro e herror
        refine ⟨rfl, nonce, e, ?_⟩
        simp [uploadForm, hname, hjson, herror, bind, Except.bind]
    · intro e herror
      refine ⟨rfl, nonce₀, e, ?_⟩
      simp [uploadForm, hname, herror, bind, Except.bind]
  · intro e herror
    refine ⟨rfl, nonce₀, e, ?_⟩
    simp [uploadForm, herror, bind, Except.bind]

theorem wpe_pendingUpload {v : VaultService} {healths : List RecordHealthState}
    {record : StoredRecord} {E : VaultError → Tables → Prop} {t : Tables} :
    wpe vaultEnv (fun r u => u = t ∧ ∃ nonce, r = (uploadForm v record
      (attachedHealth healths record.id) nonce).toOption) E (pendingUpload v healths record) t := by
  unfold pendingUpload
  refine (wpe_bind _ _).mpr (wpe_attempt (wpe_mono ?_ ?_ wpe_buildCloudRecordForSync))
  · rintro r u ⟨hu, nonce, hform⟩
    exact ⟨hu, nonce, by rw [hform]; rfl⟩
  · rintro _ u ⟨hu, nonce, e, hform⟩
    exact ⟨hu, nonce, by rw [hform]; rfl⟩

/-- The upload forms of distinct records, each with a nonce of its own. -/
theorem wpe_pendingUploads {v : VaultService} {healths : List RecordHealthState}
    {records : List StoredRecord} (hnodup : (records.map StoredRecord.id).Nodup)
    {E : VaultError → Tables → Prop} {t : Tables} :
    wpe vaultEnv (fun built u => u = t ∧ ∃ nonceOf : Uuid → Nonce,
      built = records.map fun record => (uploadForm v record
        (attachedHealth healths record.id) (nonceOf record.id)).toOption) E
      (records.mapM (pendingUpload v healths)) t := by
  refine wpe_mapM (P := fun done built u => u = t ∧ ∃ nonceOf : Uuid → Nonce,
      built = done.map fun record => (uploadForm v record
        (attachedHealth healths record.id) (nonceOf record.id)).toOption) ?_ ?_
  · exact ⟨rfl, fun _ => ⟨List.replicate 24 0, rfl⟩, rfl⟩
  · rintro done record rest built u hrecords ⟨hu, nonceOf, hbuilt⟩
    rw [hu]
    refine wpe_mono ?_ (fun _ _ h => h) wpe_pendingUpload
    rintro r u' ⟨hu', nonce, hr⟩
    refine ⟨hu', Function.update nonceOf record.id nonce, ?_⟩
    have hnew : ∀ other ∈ done, other.id ≠ record.id := by
      intro other hother heq
      rw [hrecords, List.map_append, List.nodup_append'] at hnodup
      refine hnodup.2.2 (List.mem_map_of_mem hother) ?_
      rw [heq]
      exact List.mem_map_of_mem List.mem_cons_self
    rw [List.map_append, hbuilt, hr]
    congr 1
    · refine List.map_congr_left fun other hother => ?_
      rw [Function.update_of_ne (hnew other hother)]
    · simp

omit [Codec] [Serde] [Crypto] in
theorem wpe_metadataText {key : String} {E : VaultError → Tables → Prop} {t : Tables} :
    wpe vaultEnv (fun _ u => u = t) E (metadataText key) t := by
  unfold metadataText
  refine (wpe_bind _ _).mpr (wpe_attempt ?_)
  have hrun : DbOp.run (.getMetadata key) t = .ok (t.metadata.lookup key, t) := rfl
  exact wpe_query_of_run hrun (fun _ _ => rfl) fun _ => rfl

omit [Codec] [Serde] [Crypto] in
theorem wpe_vaultTokenText {E : VaultError → Tables → Prop} {t : Tables} :
    wpe vaultEnv (fun _ u => u = t) E vaultTokenText t := by
  unfold vaultTokenText
  refine (wpe_bind _ _).mpr (wpe_mono ?_ (fun _ _ h => h) wpe_metadataText)
  intro identityToken u hu
  rw [hu]
  cases identityToken with
  | some token => exact rfl
  | none => exact (wpe_bind _ _).mpr (wpe_mono (fun _ _ h => h) (fun _ _ h => h) wpe_metadataText)

omit [Codec] [Serde] [Crypto] in
/-- The states that are read are those of the table, or none. -/
theorem wpe_loadSyncStatusMap_read {E : VaultError → Tables → Prop} {t : Tables} :
    wpe vaultEnv (fun states u => u = t ∧
      states.Subperm (t.syncState.entries.map fun e => e.2.toSyncState e.1)) E
      loadSyncStatusMap t := by
  refine (wpe_bind _ _).mpr (wpe_attempt ?_)
  have hrun : DbOp.run .loadSyncStates t =
      .ok (t.syncState.entries.map fun e => e.2.toSyncState e.1, t) := rfl
  refine wpe_query_of_run hrun ?_ ?_
  · intro states hsame
    exact ⟨rfl, hsame⟩
  · intro e
    exact ⟨rfl, List.nil_subperm⟩

theorem wpe_syncVaultDataOf {v : VaultService} {records : List StoredRecord}
    {states : List SyncStateRow} {healths : List RecordHealthState} {t : Tables}
    (hperm : records.Perm t.storedRecords)
    (hstates : states.Subperm (t.syncState.entries.map fun e => e.2.toSyncState e.1))
    (hhealths : healths.Subperm (t.healthState.entries.map fun e => e.2.toHealthState e.1))
    {E : VaultError → Tables → Prop} :
    wpe vaultEnv (fun data u => u = t ∧ Nonempty (SyncSnapshot v t data)) E
      (syncVaultDataOf v records states healths) t := by
  -- the listed records are different, and so are those that need an upload
  have hnodup : (records.map StoredRecord.id).Nodup := by
    rw [(hperm.map StoredRecord.id).nodup_iff, Tables.storedRecords_ids]
    exact t.records.nodupKeys
  have hpending : ((records.filter (needsUpload states)).map StoredRecord.id).Nodup :=
    hnodup.sublist (List.filter_sublist.map _)
  unfold syncVaultDataOf
  refine (wpe_bind _ _).mpr (wpe_mono ?_ (fun _ _ h => h) (wpe_pendingUploads hpending))
  rintro built u ⟨hu, nonceOf, hbuilt⟩
  rw [hu]
  refine (wpe_bind _ _).mpr (wpe_mono ?_ (fun _ _ h => h) wpe_metadataText)
  intro metadataVersion u hu
  rw [hu]
  refine (wpe_bind _ _).mpr (wpe_mono ?_ (fun _ _ h => h) wpe_metadataText)
  intro snapshot u hu
  rw [hu]
  refine (wpe_bind _ _).mpr (wpe_mono ?_ (fun _ _ h => h) wpe_vaultTokenText)
  intro vaultToken u hu
  refine ⟨hu, ⟨{ records := records
                 states := states
                 healths := healths
                 nonceOf := nonceOf
                 records_perm := hperm
                 states_read := hstates
                 healths_read := hhealths
                 localRecords_eq := rfl
                 uploads_eq := ?_ }⟩⟩
  dsimp only
  -- what is uploaded is what could be built of them
  have hreduce : ∀ options : List (Option CloudRecord),
      options.reduceOption = options.filterMap id := fun _ => rfl
  rw [hbuilt, hreduce, List.filterMap_map, List.filter_filterMap]
  rfl

/-- The snapshot of a vault, whatever the database answers. -/
theorem wpe_buildSyncVaultData (v : VaultService) (t : Tables)
    {E : VaultError → Tables → Prop} :
    wpe vaultEnv (fun data u => u = t ∧ ∀ d, data = some d → Nonempty (SyncSnapshot v t d)) E
      (buildSyncVaultData (some v)) t := by
  unfold buildSyncVaultData
  dsimp only
  refine wpe_ite (fun _ => ⟨rfl, by simp⟩) fun _ => ?_
  have hlist : DbOp.run (.listRecords .all) t =
      .ok (t.storedRecords.filter RecordQuery.all.selects, t) := rfl
  refine (wpe_bind _ _).mpr (wpe_attempt (wpe_query_of_run hlist ?_ ?_))
  · intro records hsame
    -- the listing has every record, in any order
    have hperm : records.Perm t.storedRecords := by
      have hall : t.storedRecords.filter RecordQuery.all.selects = t.storedRecords :=
        List.filter_eq_self.mpr fun _ _ => rfl
      rw [← hall]
      exact hsame
    refine (wpe_bind _ _).mpr (wpe_mono ?_ (fun _ _ h => h) wpe_loadSyncStatusMap_read)
    rintro states u ⟨hu, hstates⟩
    rw [hu]
    -- the health states change nothing else in the data
    have hdata : ∀ listed : Except VaultError (List RecordHealthState),
        (listed.toOption.getD []).Subperm
          (t.healthState.entries.map fun e => e.2.toHealthState e.1) →
        wpe vaultEnv (fun data u => u = t ∧ ∀ d, data = some d → Nonempty (SyncSnapshot v t d)) E
          (do
            let data ← syncVaultDataOf v records states (listed.toOption.getD [])
            return some data) t := by
      intro listed hlisted
      refine (wpe_bind _ _).mpr (wpe_mono ?_ (fun _ _ h => h)
        (wpe_syncVaultDataOf hperm hstates hlisted))
      rintro data u ⟨hu, hsnapshot⟩
      refine ⟨hu, ?_⟩
      intro d hd
      cases hd
      exact hsnapshot
    have hhealth : DbOp.run .listRecordHealthStates t =
        .ok (t.healthState.entries.map fun e => e.2.toHealthState e.1, t) := rfl
    refine (wpe_bind _ _).mpr (wpe_attempt (wpe_query_of_run hhealth ?_ ?_))
    · intro listed hlisted
      exact hdata (.ok listed) hlisted.subperm
    · intro e
      exact hdata (.error _) List.nil_subperm
  · intro e
    exact ⟨rfl, by simp⟩

end Vault

end OakKeyring
