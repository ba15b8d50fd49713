import OakKeyring.Types.Listing
import OakKeyring.Vault.Field

/-!
# Listing and reading records

A list shows the name and the subtitle of every record that its filter keeps. A record is read as
a whole with an entry in the audit log.
-/

namespace OakKeyring

open Effect

/-- The filters that `list_records` applies itself: for `Expired` and `HealthIssues` it returns
every live record. -/
def RecordFilter.keeps (filter : RecordFilter) (stored : StoredRecord) : Bool :=
  match filter with
  | Favorites => stored.isFavorite
  | Tag name => stored.tags.contains name
  | _ => true

def RecordFilter.query : RecordFilter → RecordQuery
  | Trash => .deleted
  | _ => .active

namespace Vault

variable [Crypto] (v : VaultService)

def subtitleOf (stored : StoredRecord) : Except String String :=
  v.crypto.decryptSubtitle stored.encryptedData stored.nonce (recordAad stored.id)
    stored.credentialType stored.dekVersion

/-- States that cannot be loaded count as none. -/
def loadSyncStatusMap : VaultM (List SyncStateRow) := do
  let found : Except VaultError (List SyncStateRow) ← Fallible.attempt (query .loadSyncStates)
  return found.toOption.getD []

omit [Crypto] in
/-- The states of the sync service are read and nothing else happens. -/
theorem wpe_loadSyncStatusMap {E : VaultError → Tables → Prop} {t : Tables} :
    wpe vaultEnv (fun _ u => u = t) E loadSyncStatusMap t := by
  refine (wpe_bind _ _).mpr (wpe_attempt ?_)
  have hrun : DbOp.run .loadSyncStates t =
      .ok (t.syncState.entries.map fun e => e.2.toSyncState e.1, t) := rfl
  exact wpe_query_of_run hrun (fun _ _ => rfl) fun _ => rfl

def syncStatusOf (states : List SyncStateRow) (id : Uuid) : Option SyncStatus :=
  (states.find? fun state => state.recordId = id).map SyncStateRow.syncStatus

/-- The row of a list; the health fields are left to the executor. -/
def shown (states : List SyncStateRow) (stored : StoredRecord) (name subtitle : String) :
    TuiRecord where
  id := stored.id
  credentialType := stored.credentialType
  name := name
  subtitle := subtitle
  isFavorite := stored.isFavorite
  isExpired := false
  expiresAt := stored.expiresAt
  hasWeakPassword := false
  isCompromised := false
  duplicateGroupSize := none
  createdAt := stored.createdAt
  updatedAt := stored.updatedAt
  deleted := stored.deleted
  deletedAt := stored.deletedAt
  tags := stored.tags
  syncStatus := syncStatusOf states stored.id

def showRecord (states : List SyncStateRow) (stored : StoredRecord) : VaultM TuiRecord := do
  let name ← crypto (recordNameOf v stored)
  let subtitle ← crypto (subtitleOf v stored)
  return shown states stored name subtitle

variable [Unicode]

/-- `frequency` is what the audit log counts when the list is sorted by usage. -/
def listRecords (frequency : Uuid → Nat) (filter : RecordFilter) (sort : RecordSort) :
    VaultM (List TuiRecord) := do
  requireUnlocked v
  let stored : List StoredRecord ← query (.listRecords filter.query)
  let states ← loadSyncStatusMap
  match filter with
  | .Search text =>
      let records ← stored.mapM (showRecord v states)
      return applySort frequency sort (searchRecords records text)
  | _ =>
      let records ← (stored.filter filter.keeps).mapM (showRecord v states)
      return applySort frequency sort records

omit [Unicode]

/-- A payload of another type than the record's is refused. -/
def decryptedRecord (stored : StoredRecord) (payload : EncryptedPayload) :
    Except String DecryptedRecord :=
  if stored.credentialType = payload.credentialType then
    .ok
      { id := stored.id
        isFavorite := stored.isFavorite
        expiresAt := stored.expiresAt
        createdAt := stored.createdAt
        updatedAt := stored.updatedAt
        version := stored.version
        deleted := stored.deleted
        deletedAt := stored.deletedAt
        tags := stored.tags
        payload := payload }
  else .error "credential type / payload mismatch"

def getDecryptedRecord (id : Uuid) : VaultM DecryptedRecord := do
  requireUnlocked v
  let stored ← getStoredRecord id
  let payload ← crypto (payloadOf v stored)
  let decrypted ← crypto (decryptedRecord stored payload)
  query (.insertAuditEntry .RecordViewPassword (some stored.id) (some decrypted.name) none)
  return decrypted

end Vault

end OakKeyring
