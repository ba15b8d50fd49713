import OakKeyring.Db.Inserted
import OakKeyring.Vault.Commands
import OakKeyring.Vault.Field

/-!
# The records of a vault, decrypted

What a service shows of its records, apart from identifiers, versions and times, and what creating
a record adds to it.
-/

namespace OakKeyring

open Effect

/-- A record as its owner knows it; the payload is missing when it cannot be read. -/
structure RecordImage where
  credentialType : CredentialType
  payload : Option EncryptedPayload
  isFavorite : Bool
  expiresAt : Option DateTime
  tags : Finset String
  deleted : Bool
deriving DecidableEq

/-- An instant as the database keeps it, to the second. -/
def storedInstant (t : DateTime) : DateTime :=
  timestampToDatetime (datetimeToTimestamp t)

/-- What is asked for with a new record. -/
def CreateRecordParams.image (params : CreateRecordParams) : RecordImage where
  credentialType := params.credentialType
  payload := some params.payload
  isFavorite := params.isFavorite
  expiresAt := params.expiresAt.map storedInstant
  tags := params.tags.toFinset
  deleted := false

namespace Vault

variable [Crypto] (v : VaultService)

def imageOf (stored : StoredRecord) : RecordImage where
  credentialType := stored.credentialType
  payload := (payloadOf v stored).toOption
  isFavorite := stored.isFavorite
  expiresAt := stored.expiresAt
  tags := stored.tags.toFinset
  deleted := stored.deleted

def images (t : Tables) : List RecordImage :=
  t.storedRecords.map (imageOf v)

/-- One record was added to the vault. -/
structure Created (params : CreateRecordParams) (t t' : Tables) : Prop where
  valid : validatePayload params.payload = .ok () ∧ validateTags params.tags = .ok ()
  counted : t'.records.entries.length = t.records.entries.length + 1
  keyed : t.Keyed → t'.Keyed
  images : t.Keyed → images v t' = params.image :: images v t

variable {v} {t t' u : Tables}

theorem SameRecords.images (h : t.SameRecords t') : images v t' = images v t := by
  unfold Vault.images
  rw [h.storedRecords]

theorem Created.then {params : CreateRecordParams} (h : Created v params t u)
    (hsame : u.SameRecords t') : Created v params t t' where
  valid := h.valid
  counted := by
    rw [hsame.records]
    exact h.counted
  keyed := fun hkeyed => hsame.keyed (h.keyed hkeyed)
  images := fun hkeyed => (SameRecords.images hsame).trans (h.images hkeyed)

theorem Created.after {params : CreateRecordParams} (hsame : t.SameRecords u)
    (h : Created v params u t') : Created v params t t' where
  valid := h.valid
  counted := by
    rw [← hsame.records]
    exact h.counted
  keyed := fun hkeyed => h.keyed (hsame.keyed hkeyed)
  images := by
    intro hkeyed
    rw [h.images (hsame.keyed hkeyed), SameRecords.images hsame]

omit [Crypto] in
/-- What is written beside the rows, the tags and their links. -/
theorem sameRecords_of_writes {op : DbOp} {result : op.Result}
    (hwrites : ∀ table ∈ op.writes, table ∈
      [Table.passwordHistory, .syncState, .metadata, .healthState, .listIndex])
    (h : op.run t = .ok (result, t')) : t.SameRecords t' :=
  (DbOp.outside_run h).mono hwrites

/-- A record that is inserted under the key of the vault is shown as it was asked for. -/
theorem created_insertRecord {params : CreateRecordParams} {record : StoredRecord}
    (hvalid : validatePayload params.payload = .ok () ∧ validateTags params.tags = .ok ())
    (htype : record.credentialType = params.credentialType)
    (hpayload : payloadOf v record = .ok params.payload)
    (hfavorite : record.isFavorite = params.isFavorite)
    (hexpires : record.expiresAt = params.expiresAt) (htags : record.tags = params.tags)
    (hlive : record.deleted = false) (h : t.insertRecord record = .ok u) :
    Created v params t u where
  valid := hvalid
  counted := by
    rcases Tables.insertRecord_ok h with ⟨hnew, hout⟩
    have hrecords : u.records = t.records.insert record.id record.toRow :=
      hout .records (by decide)
    rw [hrecords, AList.entries_insert_of_notMem hnew, List.length_cons]
  keyed := fun hkeyed => (Tables.insertRecord_added hkeyed h).1
  images := by
    intro hkeyed
    -- the new row has the tags that were linked to it, and the old rows keep theirs
    rcases Tables.insertRecord_added hkeyed h with ⟨-, hrows, hown⟩
    have hnew : imageOf v (record.toRow.toStoredRecord record.id (u.tagsOf record.id)) =
        params.image := by
      have hread : (payloadOf v (record.toRow.toStoredRecord record.id
          (u.tagsOf record.id))).toOption = some params.payload := by
        have hsame : payloadOf v (record.toRow.toStoredRecord record.id (u.tagsOf record.id)) =
            payloadOf v record := rfl
        rw [hsame, hpayload]
        rfl
      -- the tags of the row are those of the request, in whatever order
      have hset : (u.tagsOf record.id).toFinset = params.tags.toFinset := by
        ext name
        rw [List.mem_toFinset, List.mem_toFinset, hown, htags]
      have hexpiry : (record.toRow.toStoredRecord record.id (u.tagsOf record.id)).expiresAt =
          params.expiresAt.map storedInstant := by
        rw [← hexpires]
        exact Option.map_map ..
      unfold imageOf CreateRecordParams.image
      rw [hread, hexpiry]
      simp [RecordRow.toStoredRecord, StoredRecord.toRow, htype, hfavorite, hlive, hset]
    unfold Vault.images
    rw [hrows, List.map_cons, hnew]

variable [LawfulCrypto]

/-- A record is created, or the vault keeps its records; after an error it may be either. -/
theorem wpe_createRecord {params : CreateRecordParams} :
    wpe vaultEnv (fun _ u => Created v params t u)
      (fun _ u => t.SameRecords u ∨ Created v params t u) (createRecord v params) t := by
  have hsame : t.SameRecords t := Tables.Outside.refl _ t
  refine (wpe_bind _ _).mpr (wpe_requireUnlocked (fun _ => ?_) (Or.inl hsame))
  refine (wpe_bind _ _).mpr (wpe_checked (fun _ hpayload => ?_) fun _ _ => Or.inl hsame)
  refine (wpe_bind _ _).mpr (wpe_checked (fun _ htags => ?_) fun _ _ => Or.inl hsame)
  refine (wpe_bind _ _).mpr (wpe_newUuid fun id => ?_)
  refine (wpe_bind _ _).mpr (wpe_newNonce fun nonce => ?_)
  refine (wpe_bind _ _).mpr (wpe_crypto (fun encryptedData hencrypted => ?_) fun _ _ =>
    Or.inl hsame)
  refine (wpe_bind _ _).mpr (wpe_now fun time => ?_)
  refine (wpe_bind _ _).mpr (wpe_query (fun _ _ t₁ hrun _ => ?_) fun _ => Or.inl hsame)
  have hmarked : t.SameRecords t₁ := sameRecords_of_writes (by simp [DbOp.writes]) hrun
  refine (wpe_bind _ _).mpr (wpe_query (fun _ _ t₂ hrun _ => ?_) fun _ => Or.inl hmarked)
  rcases Tables.ok_of_bind hrun with ⟨u, hu, hvalue⟩
  cases hvalue
  have hread : payloadOf v
      { id := id
        credentialType := params.credentialType
        encryptedData := encryptedData
        nonce := nonce
        dekVersion := v.crypto.currentDekVersion
        aad := recordAad id
        isFavorite := params.isFavorite
        expiresAt := params.expiresAt
        createdAt := time
        updatedAt := time
        updatedBy := v.deviceId
        version := 1
        deleted := false
        deletedAt := none
        tags := params.tags } = .ok params.payload :=
    CryptoManager.decryptPayload_encryptPayload hencrypted
  have hcreated : Created v params t t₂ :=
    (created_insertRecord ⟨hpayload, htags⟩ rfl hread rfl rfl rfl rfl hu).after hmarked
  -- what follows concerns the list index and the audit log
  refine (wpe_bind _ _).mpr (wpe_query (fun _ _ t₃ hrun _ => ?_) fun _ => Or.inr hcreated)
  have hcreated := hcreated.then (sameRecords_of_writes (by simp [DbOp.writes]) hrun)
  refine (wpe_bind _ _).mpr (wpe_query (fun _ _ t₄ hrun _ => ?_) fun _ => Or.inr hcreated)
  have hcreated := hcreated.then (sameRecords_of_writes (by simp [DbOp.writes]) hrun)
  refine (wpe_bind _ _).mpr (wpe_query (fun _ _ t₅ hrun _ => ?_) fun _ => Or.inr hcreated)
  exact hcreated.then (sameRecords_of_writes (by simp [DbOp.writes]) hrun)

end Vault

end OakKeyring
