import OakKeyring.Db.Frames
import OakKeyring.Lib.Transition
import OakKeyring.Vault.Batch
import OakKeyring.Vault.Transport

/-!
# Runs of vault operations

A step of a run is one operation, called on the service as it is then, together with what it
returned. Nothing is assumed about where the database fails inside an operation.
-/

namespace OakKeyring

open Effect Transition

/-- The operations that change the vault. -/
inductive VaultCommand
  | createRecord (params : CreateRecordParams)
  | updateRecord (params : UpdateRecordParams)
  | softDeleteRecord (id : Uuid)
  | restoreRecord (id : Uuid)
  | hardDeleteRecord (id : Uuid)
  | toggleFavorite (id : Uuid) (isFavorite : Bool)
  | reEncryptRecord (id : Uuid) (oldDekVersion : Nat)
  | applyDownloadedCloudRecord (r : CloudRecord)
  | ensureRecordListIndex
  | emptyTrash
  | cleanupExpiredTrash (retentionDays : Nat)
  | batchSoftDelete (ids : List Uuid)
  | batchRestore (ids : List Uuid)
  | batchHardDelete (ids : List Uuid)
  | renameTag (oldName newName : String)
  | deleteTag (name : String)
  | batchAddTag (ids : List Uuid) (tagName : String)
  | batchRemoveTag (ids : List Uuid) (tagName : String)
  | upsertRecordHealthState (state : RecordHealthState)
  | replaceRecordHealthStates (states : List RecordHealthState)
  | deleteRecordHealthStates (ids : List Uuid)
  | markRecordSynced (id : Uuid)
  | markRecordConflict (id : Uuid) (conflictData : Bytes)

/-- One operation of a run: what was called, what the database answered on the way, and what came
back. -/
structure VaultLabel where
  service : VaultService
  command : VaultCommand
  trace : List (Event VaultI)
  outcome : Except VaultError Unit

namespace VaultCommand

variable [Codec] [Serde] [Crypto]

/-- The operation of the service that a command names; its value is not part of the run. -/
def program (v : VaultService) : VaultCommand → VaultM Unit
  | createRecord params => do
      let _ ← Vault.createRecord v params
  | updateRecord params => Vault.updateRecord v params
  | softDeleteRecord id => Vault.softDeleteRecord v id
  | restoreRecord id => Vault.restoreRecord v id
  | hardDeleteRecord id => Vault.hardDeleteRecord v id
  | toggleFavorite id isFavorite => Vault.toggleFavorite v id isFavorite
  | reEncryptRecord id oldDekVersion => Vault.reEncryptRecord v id oldDekVersion
  | applyDownloadedCloudRecord r => do
      let _ ← Vault.applyDownloadedCloudRecord v r
  | ensureRecordListIndex => Vault.ensureRecordListIndex v
  | emptyTrash => do
      let _ ← Vault.emptyTrash v
  | cleanupExpiredTrash retentionDays => do
      let _ ← Vault.cleanupExpiredTrash v retentionDays
  | batchSoftDelete ids => do
      let _ ← Vault.batchSoftDelete v ids
  | batchRestore ids => do
      let _ ← Vault.batchRestore v ids
  | batchHardDelete ids => do
      let _ ← Vault.batchHardDelete v ids
  | renameTag oldName newName => Vault.renameTag oldName newName
  | deleteTag name => Vault.deleteTag name
  | batchAddTag ids tagName => do
      let _ ← Vault.batchAddTag ids tagName
  | batchRemoveTag ids tagName => do
      let _ ← Vault.batchRemoveTag ids tagName
  | upsertRecordHealthState state => Vault.upsertRecordHealthState state
  | replaceRecordHealthStates states => Vault.replaceRecordHealthStates states
  | deleteRecordHealthStates ids => Vault.deleteRecordHealthStates ids
  | markRecordSynced id => Vault.markRecordSynced id
  | markRecordConflict id conflictData => Vault.markRecordConflict id conflictData

end VaultCommand

/-! ## What holds however an operation ends -/

namespace Vault

section Ensures

variable {α β : Type} {P Q : Tables → Prop} {t : Tables}

/-- `Q` holds after the program, whether it returns or fails. -/
def Ensures (Q : Tables → Prop) (p : VaultM α) (t : Tables) : Prop :=
  wpe vaultEnv (fun _ u => Q u) (fun _ u => Q u) p t

theorem ensures_pure {a : α} (h : Q t) : Ensures Q (pure a : VaultM α) t :=
  h

theorem ensures_throw {e : VaultError} (h : Q t) : Ensures Q (throw e : VaultM α) t :=
  h

theorem ensures_ite {c : Prop} [Decidable c] {p q : VaultM α} (hp : c → Ensures Q p t)
    (hq : ¬ c → Ensures Q q t) : Ensures Q (if c then p else q) t :=
  wpe_ite hp hq

theorem ensures_bind {p : VaultM α} {f : α → VaultM β}
    (h : wpe vaultEnv (fun a u => Ensures Q (f a) u) (fun _ u => Q u) p t) :
    Ensures Q (p >>= f) t :=
  (wpe_bind p f).mpr h

/-- A first part that ensures `P` leaves the rest to start from `P`. -/
theorem ensures_seq {p : VaultM α} {f : α → VaultM β} (hp : Ensures P p t)
    (hf : ∀ a u, P u → Ensures Q (f a) u) (hfail : ∀ u, P u → Q u) : Ensures Q (p >>= f) t :=
  ensures_bind (wpe_mono hf (fun _ => hfail) hp)

theorem ensures_mono {p : VaultM α} (hp : Ensures P p t) (h : ∀ u, P u → Q u) :
    Ensures Q p t :=
  wpe_mono (fun _ => h) (fun _ => h) hp

/-- A part that is made or left out. -/
theorem ensures_optional {c : Prop} [Decidable c] {p : VaultM Unit} {rest : VaultM α}
    (h : P t) (hp : Ensures P p t) (hrest : ∀ u, P u → Ensures Q rest u)
    (hfail : ∀ u, P u → Q u) :
    Ensures Q (if c then p >>= fun _ => rest else rest) t :=
  ensures_ite (fun _ => ensures_seq hp (fun _ => hrest) hfail) fun _ => hrest t h

/-- A record is read, or there is none. -/
theorem wpe_getStoredRecord [Crypto] {id : Uuid} {Q : StoredRecord → Tables → Prop}
    {E : VaultError → Tables → Prop}
    (hok : ∀ row, t.records.lookup id = some row →
      Q (row.toStoredRecord id (t.tagsOf id)) t)
    (herror : ∀ e, E e t) : wpe vaultEnv Q E (getStoredRecord id) t := by
  refine (wpe_bind _ _).mpr (wpe_query_of_run rfl ?_ fun e => herror _)
  intro found hfound
  refine wpe_required ?_ fun _ => herror _
  intro stored hstored
  have hread : (t.records.lookup id).map (fun row => row.toStoredRecord id (t.tagsOf id))
      = some stored := hfound.symm.trans hstored
  rcases Option.map_eq_some_iff.mp hread with ⟨row, hrow, hvalue⟩
  rw [← hvalue]
  exact hok row hrow

end Ensures

end Vault

/-! ## Steps -/

section Steps

variable [Codec] [Serde] [Crypto]

/-- An operation runs to its end and returns. -/
def vaultStep (t : Tables) (l : VaultLabel) (t' : Tables) : Prop :=
  (l.command.program l.service).run.Returns l.trace l.outcome ∧ Path vaultEnv t l.trace t'

/-- A step of a vault with one key: its service is locked or was unlocked with that key. -/
def keyedStep (kek : Bytes) (t : Tables) (l : VaultLabel) (t' : Tables) : Prop :=
  l.service.crypto.Opens kek ∧ vaultStep t l t'

/-- What the specification of an operation says of a step. -/
theorem vaultStep.of_wpe {t t' : Tables} {l : VaultLabel} {Q : Unit → Tables → Prop}
    {E : VaultError → Tables → Prop} (hstep : vaultStep t l t')
    (hspec : wpe vaultEnv Q E (l.command.program l.service) t) :
    match l.outcome with
    | .ok a => Q a t'
    | .error e => E e t' := by
  rcases hstep with ⟨hreturns, hpath⟩
  have hends := (wpe_iff _).mp hspec
  cases houtcome : l.outcome with
  | ok a =>
      rw [houtcome] at hreturns
      exact hends.1 l.trace a t' hreturns hpath
  | error e =>
      rw [houtcome] at hreturns
      exact hends.2 l.trace e t' hreturns hpath

/-- What an operation ensures however it ends. -/
theorem vaultStep.of_ensures {t t' : Tables} {l : VaultLabel} {Q : Tables → Prop}
    (hstep : vaultStep t l t')
    (hspec : Vault.Ensures Q (l.command.program l.service) t) : Q t' := by
  have hend := hstep.of_wpe hspec
  cases houtcome : l.outcome with
  | ok a =>
      rw [houtcome] at hend
      exact hend
  | error e =>
      rw [houtcome] at hend
      exact hend

end Steps

/-! ## Operations that make only certain queries -/

/-- A call that is no query, or one of the allowed queries. -/
def VaultCall.Within (P : DbOp → Prop) : VaultCall → Prop
  | .db op => P op
  | .now => True
  | .newUuid => True
  | .newNonce => True

namespace Vault

section MakesOnly

variable {P : DbOp → Prop} {α β : Type}

/-- Every query of the program is allowed. -/
def MakesOnly (P : DbOp → Prop) (p : VaultM α) : Prop :=
  Fallible.Only (I := VaultI) (VaultCall.Within P) p

theorem makesOnly_pure (a : α) : MakesOnly P (pure a : VaultM α) :=
  only_pure a

theorem makesOnly_throw (e : VaultError) : MakesOnly P (throw e : VaultM α) :=
  only_throw e

theorem makesOnly_bind {p : VaultM α} {f : α → VaultM β} (hp : MakesOnly P p)
    (hf : ∀ a, MakesOnly P (f a)) : MakesOnly P (p >>= f) :=
  only_bind hp hf

theorem makesOnly_ite {c : Prop} [Decidable c] {p q : VaultM α} (hp : MakesOnly P p)
    (hq : MakesOnly P q) : MakesOnly P (if c then p else q) :=
  only_ite hp hq

/-- A part that is made or left out. -/
theorem makesOnly_optional {c : Prop} [Decidable c] {p : VaultM Unit} {rest : VaultM α}
    (hp : MakesOnly P p) (hrest : MakesOnly P rest) :
    MakesOnly P (if c then p >>= fun _ => rest else rest) :=
  makesOnly_ite (makesOnly_bind hp fun _ => hrest) hrest

theorem makesOnly_forM {xs : List β} {f : β → VaultM PUnit} (hf : ∀ x, MakesOnly P (f x)) :
    MakesOnly P (xs.forM f) :=
  only_forM hf

theorem makesOnly_mapM {xs : List β} {f : β → VaultM α} (hf : ∀ x, MakesOnly P (f x)) :
    MakesOnly P (xs.mapM f) :=
  only_mapM hf

theorem makesOnly_attempt {p : VaultM α} (hp : MakesOnly P p) :
    MakesOnly P (Fallible.attempt p) :=
  only_attempt hp

theorem makesOnly_query {op : DbOp} (h : P op) : MakesOnly P (query op) :=
  only_call h

theorem makesOnly_now : MakesOnly P now :=
  only_ask trivial

theorem makesOnly_newUuid : MakesOnly P newUuid :=
  only_ask trivial

theorem makesOnly_newNonce : MakesOnly P newNonce :=
  only_ask trivial

theorem makesOnly_crypto (result : Except String α) : MakesOnly P (crypto result) := by
  cases result with
  | ok a => exact makesOnly_pure a
  | error e => exact makesOnly_throw _

theorem makesOnly_checked (result : Except OakKeyring.DataError α) :
    MakesOnly P (checked result) := by
  cases result with
  | ok a => exact makesOnly_pure a
  | error e => exact makesOnly_throw _

theorem makesOnly_required (value : Option α) (e : VaultError) :
    MakesOnly P (required value e) := by
  cases value with
  | some a => exact makesOnly_pure a
  | none => exact makesOnly_throw e

theorem makesOnly_required_bind {value : Option β} {e : VaultError} {f : β → VaultM α}
    (hf : ∀ a, value = some a → MakesOnly P (f a)) : MakesOnly P (required value e >>= f) := by
  cases value with
  | some a => exact hf a rfl
  | none => exact makesOnly_throw e

theorem makesOnly_crypto_bind {result : Except String β} {f : β → VaultM α}
    (hf : ∀ a, result = .ok a → MakesOnly P (f a)) : MakesOnly P (crypto result >>= f) := by
  cases result with
  | ok a => exact hf a rfl
  | error e => exact makesOnly_throw _

theorem makesOnly_requireUnlocked [Crypto] (v : VaultService) :
    MakesOnly P (requireUnlocked v) :=
  makesOnly_ite (makesOnly_pure ()) (makesOnly_throw _)

theorem makesOnly_decryptRecordName [Crypto] (v : VaultService) (record : StoredRecord) :
    MakesOnly P (decryptRecordName v record) :=
  makesOnly_bind (makesOnly_crypto _) fun _ => makesOnly_pure _

theorem makesOnly_mono {P' : DbOp → Prop} {p : VaultM α} (hp : MakesOnly P p)
    (hsub : ∀ op, P op → P' op) : MakesOnly P' p := by
  refine Prog.CallsOnly.mono hp ?_
  intro c hc
  cases c with
  | db op => exact hsub op hc
  | now => trivial
  | newUuid => trivial
  | newNonce => trivial

/-- What the allowed queries keep, every allowed call keeps. -/
theorem vaultEnv_keep {Inv : Tables → Prop} {u u' : Tables} {c : VaultCall} {answer : c.Answer}
    (hkeep : ∀ (op : DbOp) result u u', P op → op.run u = .ok (result, u') → Inv u → Inv u')
    (hcall : c.Within P) (hstep : vaultEnv u c answer u') (hinv : Inv u) : Inv u' := by
  cases c with
  | db op =>
      rcases hstep with ⟨expected, result, hrun, hsame, heq⟩ | ⟨hfault, hstill⟩
      · exact hkeep op expected u u' hcall hrun hinv
      · rw [hstill]
        exact hinv
  | now =>
      have hstill : u' = u := hstep
      rw [hstill]
      exact hinv
  | newUuid =>
      have hstill : u' = u := hstep
      rw [hstill]
      exact hinv
  | newNonce =>
      have hstill : u' = u := hstep
      rw [hstill]
      exact hinv

/-- What the allowed queries keep is kept however the program ends. -/
theorem ensures_keep {Inv : Tables → Prop} {p : VaultM α} {t : Tables} (hp : MakesOnly P p)
    (hkeep : ∀ (op : DbOp) result u u', P op → op.run u = .ok (result, u') → Inv u → Inv u')
    (h : Inv t) : Ensures Inv p t := by
  have hcalls : p.run.CallsOnly (I := VaultI) (VaultCall.Within P) := hp
  refine wpe_invariant hcalls ?_ h
  intro u c answer u' hcall hstep hinv
  exact vaultEnv_keep hkeep hcall hstep hinv

end MakesOnly

/-! ## The queries of the operations -/

section Queries

/-- Queries that neither change the content of a record nor remove it. -/
structure Routine (P : DbOp → Prop) : Prop where
  getRecord : ∀ id, P (.getRecord id)
  listRecords : ∀ query, P (.listRecords query)
  insertAuditEntry : ∀ operation id name detail, P (.insertAuditEntry operation id name detail)
  upsertSyncStatePending : ∀ id now, P (.upsertSyncStatePending id now)
  getTagByName : ∀ name, P (.getTagByName name)
  recordIdsForTag : ∀ name, P (.recordIdsForTag name)
  getOrCreateTag : ∀ name, P (.getOrCreateTag name)
  deleteRecordHealthState : ∀ id, P (.deleteRecordHealthState id)
  copyRecordHealthStateVersion : ∀ id version, P (.copyRecordHealthStateVersion id version)
  countPasswordHistory : ∀ id, P (.countPasswordHistory id)
  oldestPasswordHistory : ∀ id, P (.oldestPasswordHistory id)
  deletePasswordHistoryEntry : ∀ number, P (.deletePasswordHistoryEntry number)
  insertPasswordHistory : ∀ entry, P (.insertPasswordHistory entry)

theorem Routine.mono {P P' : DbOp → Prop} (h : Routine P) (hsub : ∀ op, P op → P' op) :
    Routine P' where
  getRecord := fun id => hsub _ (h.getRecord id)
  listRecords := fun query => hsub _ (h.listRecords query)
  insertAuditEntry := fun operation id name detail =>
    hsub _ (h.insertAuditEntry operation id name detail)
  upsertSyncStatePending := fun id now => hsub _ (h.upsertSyncStatePending id now)
  getTagByName := fun name => hsub _ (h.getTagByName name)
  recordIdsForTag := fun name => hsub _ (h.recordIdsForTag name)
  getOrCreateTag := fun name => hsub _ (h.getOrCreateTag name)
  deleteRecordHealthState := fun id => hsub _ (h.deleteRecordHealthState id)
  copyRecordHealthStateVersion := fun id version => hsub _ (h.copyRecordHealthStateVersion id version)
  countPasswordHistory := fun id => hsub _ (h.countPasswordHistory id)
  oldestPasswordHistory := fun id => hsub _ (h.oldestPasswordHistory id)
  deletePasswordHistoryEntry := fun number => hsub _ (h.deletePasswordHistoryEntry number)
  insertPasswordHistory := fun entry => hsub _ (h.insertPasswordHistory entry)

variable {P : DbOp → Prop}

/-- The statements on the history of a password. -/
theorem makesOnly_savePasswordHistory_of (hcount : ∀ id, P (.countPasswordHistory id))
    (holdest : ∀ id, P (.oldestPasswordHistory id))
    (hdelete : ∀ number, P (.deletePasswordHistoryEntry number))
    (hsave : ∀ entry, P (.insertPasswordHistory entry)) (id : Uuid) (data : Bytes) (nonce : Nonce)
    (version : Nat) : MakesOnly P (savePasswordHistory id data nonce version) := by
  have hinsert : MakesOnly P (do
      let time ← now
      query (.insertPasswordHistory
        { recordId := id
          encryptedPassword := data
          nonce := nonce
          dekVersion := version
          changedAt := datetimeToTimestamp time })) :=
    makesOnly_bind makesOnly_now fun _ => makesOnly_query (hsave _)
  refine makesOnly_bind (makesOnly_query (hcount id)) fun count => ?_
  refine makesOnly_ite ?_ hinsert
  refine makesOnly_bind ?_ fun _ => hinsert
  refine makesOnly_bind (makesOnly_query (holdest id)) fun oldest => ?_
  cases oldest.head? with
  | none => trivial
  | some number => exact makesOnly_query (hdelete number)

variable (hroutine : Routine P) [Crypto] (v : VaultService)

include hroutine

omit [Crypto] in
theorem makesOnly_getStoredRecord (id : Uuid) : MakesOnly P (getStoredRecord id) :=
  makesOnly_bind (makesOnly_query (hroutine.getRecord id)) fun found =>
    makesOnly_required found _

omit [Crypto] in
theorem makesOnly_markRecordsPendingSync (ids : List Uuid) :
    MakesOnly P (markRecordsPendingSync ids) :=
  makesOnly_forM fun id => makesOnly_bind makesOnly_now fun _ =>
    makesOnly_query (hroutine.upsertSyncStatePending id _)

omit [Crypto] in
theorem makesOnly_auditEach (operation : AuditOperation) (names : List (Uuid × String)) :
    MakesOnly P (auditEach operation names) :=
  makesOnly_forM fun _ => makesOnly_query (hroutine.insertAuditEntry _ _ _ _)

omit [Crypto] in
theorem makesOnly_savePasswordHistory (id : Uuid) (data : Bytes) (nonce : Nonce)
    (version : Nat) : MakesOnly P (savePasswordHistory id data nonce version) :=
  makesOnly_savePasswordHistory_of hroutine.countPasswordHistory hroutine.oldestPasswordHistory
    hroutine.deletePasswordHistoryEntry hroutine.insertPasswordHistory id data nonce version

omit [Crypto] in
theorem makesOnly_carryHealthState (id : Uuid) (version : Nat) (stale : Bool) :
    MakesOnly P (carryHealthState id version stale) :=
  makesOnly_ite
    (makesOnly_bind (makesOnly_query (hroutine.deleteRecordHealthState id)) fun _ =>
      makesOnly_pure _)
    (makesOnly_bind (makesOnly_query (hroutine.copyRecordHealthStateVersion id version)) fun _ =>
      makesOnly_pure _)

omit [Crypto] in
theorem makesOnly_replaceTags (id : Uuid) (tags : List String)
    (hdetach : P (.detachAllTagsForRecord id)) (hattach : ∀ tagId, P (.attachTag id tagId)) :
    MakesOnly P (replaceTags id tags) := by
  refine makesOnly_bind (makesOnly_query hdetach) fun _ => ?_
  refine makesOnly_forM fun name => ?_
  exact makesOnly_bind (makesOnly_query (hroutine.getOrCreateTag name)) fun tag =>
    makesOnly_query (hattach tag.id)

theorem makesOnly_softDeleteRecord (id : Uuid) (hdelete : ∀ now, P (.softDeleteRecord id now)) :
    MakesOnly P (softDeleteRecord v id) := by
  refine makesOnly_bind (makesOnly_requireUnlocked v) fun _ => ?_
  refine makesOnly_bind (makesOnly_getStoredRecord hroutine id) fun stored => ?_
  refine makesOnly_bind (makesOnly_decryptRecordName v stored) fun name => ?_
  refine makesOnly_bind makesOnly_now fun time => ?_
  refine makesOnly_bind (makesOnly_query (hdelete _)) fun _ => ?_
  refine makesOnly_bind (makesOnly_query (hroutine.deleteRecordHealthState id)) fun _ => ?_
  refine makesOnly_bind (makesOnly_query (hroutine.insertAuditEntry _ _ _ _)) fun _ => ?_
  exact makesOnly_markRecordsPendingSync hroutine [id]

theorem makesOnly_restoreRecord (id : Uuid) (hrestore : P (.restoreRecord id)) :
    MakesOnly P (restoreRecord v id) := by
  refine makesOnly_bind (makesOnly_requireUnlocked v) fun _ => ?_
  refine makesOnly_bind (makesOnly_getStoredRecord hroutine id) fun stored => ?_
  refine makesOnly_bind (makesOnly_decryptRecordName v stored) fun name => ?_
  refine makesOnly_bind (makesOnly_query hrestore) fun _ => ?_
  refine makesOnly_bind (makesOnly_query (hroutine.insertAuditEntry _ _ _ _)) fun _ => ?_
  exact makesOnly_markRecordsPendingSync hroutine [id]

theorem makesOnly_hardDeleteRecord (id : Uuid) (hdelete : P (.hardDeleteRecord id)) :
    MakesOnly P (hardDeleteRecord v id) := by
  refine makesOnly_bind (makesOnly_requireUnlocked v) fun _ => ?_
  refine makesOnly_bind (makesOnly_getStoredRecord hroutine id) fun stored => ?_
  refine makesOnly_bind (makesOnly_decryptRecordName v stored) fun name => ?_
  refine makesOnly_bind (makesOnly_query hdelete) fun _ => ?_
  refine makesOnly_bind (makesOnly_query (hroutine.deleteRecordHealthState id)) fun _ => ?_
  exact makesOnly_query (hroutine.insertAuditEntry _ _ _ _)

theorem makesOnly_toggleFavorite (id : Uuid) (isFavorite : Bool)
    (hset : P (.setFavorite id isFavorite)) : MakesOnly P (toggleFavorite v id isFavorite) := by
  refine makesOnly_bind (makesOnly_requireUnlocked v) fun _ => ?_
  refine makesOnly_bind (makesOnly_getStoredRecord hroutine id) fun stored => ?_
  refine makesOnly_bind (makesOnly_query hset) fun _ => ?_
  exact makesOnly_markRecordsPendingSync hroutine [id]

theorem makesOnly_emptyTrash (hdelete : ∀ id, P (.hardDeleteRecord id)) :
    MakesOnly P (emptyTrash v) := by
  refine makesOnly_bind (makesOnly_requireUnlocked v) fun _ => ?_
  refine makesOnly_bind (makesOnly_query (hroutine.listRecords _)) fun records => ?_
  refine makesOnly_bind (makesOnly_forM fun record => makesOnly_query (hdelete _)) fun _ => ?_
  refine makesOnly_ite ?_ (makesOnly_pure _)
  exact makesOnly_bind (makesOnly_query (hroutine.insertAuditEntry _ _ _ _)) fun _ =>
    makesOnly_pure _

theorem makesOnly_cleanupExpiredTrash (retentionDays : Nat)
    (hdelete : ∀ id, P (.hardDeleteRecord id)) :
    MakesOnly P (cleanupExpiredTrash v retentionDays) := by
  refine makesOnly_bind (makesOnly_requireUnlocked v) fun _ => ?_
  refine makesOnly_bind (makesOnly_query (hroutine.listRecords _)) fun records => ?_
  refine makesOnly_bind makesOnly_now fun time => ?_
  refine makesOnly_bind (makesOnly_forM fun record => makesOnly_query (hdelete _)) fun _ => ?_
  exact makesOnly_pure _

theorem makesOnly_batchSoftDelete (ids : List Uuid)
    (hdelete : ∀ deletedBy now, P (.batchSoftDeleteRecords ids deletedBy now)) :
    MakesOnly P (batchSoftDelete v ids) := by
  refine makesOnly_bind (makesOnly_requireUnlocked v) fun _ => ?_
  refine makesOnly_ite (makesOnly_pure 0) ?_
  refine makesOnly_bind makesOnly_now fun time => ?_
  refine makesOnly_bind (makesOnly_query (hdelete _ _)) fun affected => ?_
  refine makesOnly_bind (makesOnly_forM fun id => ?_) fun _ => ?_
  · refine makesOnly_bind (makesOnly_attempt (makesOnly_getStoredRecord hroutine id)) fun found => ?_
    exact makesOnly_query (hroutine.insertAuditEntry _ _ _ _)
  · refine makesOnly_ite ?_ (makesOnly_pure _)
    exact makesOnly_bind (makesOnly_markRecordsPendingSync hroutine ids) fun _ => makesOnly_pure _

theorem makesOnly_deletedWithNames (ids : List Uuid) : MakesOnly P (deletedWithNames v ids) := by
  refine makesOnly_bind (makesOnly_mapM fun id => ?_) fun found => makesOnly_pure _
  refine makesOnly_bind (makesOnly_attempt (makesOnly_getStoredRecord hroutine id)) fun record => ?_
  exact makesOnly_pure _

theorem makesOnly_batchRestore (ids : List Uuid) (hrestore : P (.batchRestoreRecords ids)) :
    MakesOnly P (batchRestore v ids) := by
  refine makesOnly_bind (makesOnly_requireUnlocked v) fun _ => ?_
  refine makesOnly_ite (makesOnly_pure 0) ?_
  refine makesOnly_bind (makesOnly_deletedWithNames hroutine v ids) fun names => ?_
  refine makesOnly_bind (makesOnly_query hrestore) fun affected => ?_
  refine makesOnly_bind (makesOnly_auditEach hroutine _ names) fun _ => ?_
  refine makesOnly_ite ?_ (makesOnly_pure _)
  exact makesOnly_bind (makesOnly_markRecordsPendingSync hroutine _) fun _ => makesOnly_pure _

theorem makesOnly_batchHardDelete (ids : List Uuid) (hdelete : P (.batchHardDeleteRecords ids)) :
    MakesOnly P (batchHardDelete v ids) := by
  refine makesOnly_bind (makesOnly_requireUnlocked v) fun _ => ?_
  refine makesOnly_ite (makesOnly_pure 0) ?_
  refine makesOnly_bind (makesOnly_deletedWithNames hroutine v ids) fun names => ?_
  refine makesOnly_bind (makesOnly_query hdelete) fun affected => ?_
  exact makesOnly_bind (makesOnly_auditEach hroutine _ names) fun _ => makesOnly_pure _

omit [Crypto] in
theorem makesOnly_renameTag (oldName newName : String) (hrename : P (.renameTag oldName newName)) :
    MakesOnly P (renameTag oldName newName) := by
  refine makesOnly_bind (makesOnly_query (hroutine.recordIdsForTag _)) fun ids => ?_
  refine makesOnly_bind (makesOnly_query (hroutine.getTagByName _)) fun taken => ?_
  refine makesOnly_ite (makesOnly_throw _) ?_
  refine makesOnly_bind (makesOnly_query hrename) fun updated => ?_
  refine makesOnly_ite (makesOnly_throw _) ?_
  exact makesOnly_ite (makesOnly_markRecordsPendingSync hroutine ids) (makesOnly_pure _)

omit [Crypto] in
theorem makesOnly_deleteTag (name : String) (hdelete : P (.deleteTagByName name)) :
    MakesOnly P (deleteTag name) := by
  refine makesOnly_bind (makesOnly_query (hroutine.recordIdsForTag _)) fun ids => ?_
  refine makesOnly_bind (makesOnly_query hdelete) fun deleted => ?_
  refine makesOnly_ite (makesOnly_throw _) ?_
  exact makesOnly_ite (makesOnly_markRecordsPendingSync hroutine ids) (makesOnly_pure _)

omit [Crypto] in
theorem makesOnly_batchAddTag (ids : List Uuid) (tagName : String)
    (hadd : P (.batchAddTag ids tagName)) : MakesOnly P (batchAddTag ids tagName) := by
  refine makesOnly_bind (makesOnly_query hadd) fun added => ?_
  refine makesOnly_ite ?_ (makesOnly_pure _)
  exact makesOnly_bind (makesOnly_markRecordsPendingSync hroutine ids) fun _ => makesOnly_pure _

omit [Crypto] in
theorem makesOnly_batchRemoveTag (ids : List Uuid) (tagName : String)
    (hremove : P (.batchRemoveTag ids tagName)) : MakesOnly P (batchRemoveTag ids tagName) := by
  refine makesOnly_bind (makesOnly_query hremove) fun found => ?_
  refine makesOnly_bind (makesOnly_required found _) fun removed => ?_
  refine makesOnly_ite ?_ (makesOnly_pure _)
  exact makesOnly_bind (makesOnly_markRecordsPendingSync hroutine ids) fun _ => makesOnly_pure _

omit hroutine

/-- The routine statements, and those on the index, the metadata and the health states. -/
structure Bookkeeping (P : DbOp → Prop) : Prop extends Routine P where
  upsertRecordListIndex : ∀ id name subtitle, P (.upsertRecordListIndex id name subtitle)
  clearRecordListIndex : P .clearRecordListIndex
  countRecordListIndex : P .countRecordListIndex
  countAllRecords : P .countAllRecords
  getMetadata : ∀ key, P (.getMetadata key)
  setMetadata : ∀ key value, P (.setMetadata key value)
  upsertRecordHealthState : ∀ state, P (.upsertRecordHealthState state)

omit [Crypto] in
theorem Bookkeeping.mono {P P' : DbOp → Prop} (h : Bookkeeping P) (hsub : ∀ op, P op → P' op) :
    Bookkeeping P' where
  toRoutine := h.toRoutine.mono hsub
  upsertRecordListIndex := fun id name subtitle => hsub _ (h.upsertRecordListIndex id name subtitle)
  clearRecordListIndex := hsub _ h.clearRecordListIndex
  countRecordListIndex := hsub _ h.countRecordListIndex
  countAllRecords := hsub _ h.countAllRecords
  getMetadata := fun key => hsub _ (h.getMetadata key)
  setMetadata := fun key value => hsub _ (h.setMetadata key value)
  upsertRecordHealthState := fun state => hsub _ (h.upsertRecordHealthState state)

variable (hbooks : Bookkeeping P)

include hbooks

theorem Bookkeeping.indexStored (record : StoredRecord) :
    MakesOnly P (upsertRecordListIndexForStored v record) := by
  refine makesOnly_bind (makesOnly_crypto _) fun name => ?_
  refine makesOnly_bind (makesOnly_crypto _) fun subtitle => ?_
  exact makesOnly_query (hbooks.upsertRecordListIndex _ _ _)

theorem Bookkeeping.ensureRecordListIndex : MakesOnly P (ensureRecordListIndex v) := by
  refine makesOnly_bind (makesOnly_requireUnlocked v) fun _ => ?_
  refine makesOnly_bind (makesOnly_query (hbooks.getMetadata _)) fun version => ?_
  refine makesOnly_bind (makesOnly_query (hbooks.getMetadata _)) fun dirty => ?_
  refine makesOnly_bind (makesOnly_query hbooks.countRecordListIndex) fun indexRows => ?_
  refine makesOnly_bind (makesOnly_query hbooks.countAllRecords) fun recordRows => ?_
  refine makesOnly_ite (makesOnly_pure _) ?_
  refine makesOnly_bind (makesOnly_query hbooks.clearRecordListIndex) fun _ => ?_
  refine makesOnly_bind (makesOnly_query (hbooks.listRecords _)) fun records => ?_
  refine makesOnly_bind (makesOnly_forM fun record => hbooks.indexStored v record) fun _ => ?_
  refine makesOnly_bind (makesOnly_query (hbooks.setMetadata _ _)) fun _ => ?_
  exact makesOnly_query (hbooks.setMetadata _ _)

omit [Crypto] in
theorem Bookkeeping.writeDownloadedHealth [Codec] (id : Uuid) (r : CloudRecord)
    (m : Option CloudPrivateMetadata) : MakesOnly P (writeDownloadedHealth id r m) := by
  cases m with
  | none => exact makesOnly_pure ()
  | some m =>
      cases hhealth : m.health with
      | some health =>
          simp only [Vault.writeDownloadedHealth, hhealth]
          exact makesOnly_query (hbooks.upsertRecordHealthState _)
      | none =>
          simp only [Vault.writeDownloadedHealth, hhealth]
          exact makesOnly_bind (makesOnly_query (hbooks.deleteRecordHealthState id)) fun _ =>
            makesOnly_pure _

theorem Bookkeeping.indexDownloaded (stored : StoredRecord) (r : CloudRecord)
    (m : Option CloudPrivateMetadata) : MakesOnly P (indexDownloaded v stored r m) := by
  refine makesOnly_bind (makesOnly_attempt (hbooks.indexStored v stored)) fun result => ?_
  cases result with
  | ok a => exact makesOnly_pure _
  | error e =>
      cases e with
      | CryptoError message => exact makesOnly_query (hbooks.upsertRecordListIndex _ _ _)
      | _ => exact makesOnly_throw _

end Queries

end Vault

/-! ## Operations that write no payload -/

section Programs

variable {P : DbOp → Prop}

/-- The statement that an operation is about, where it writes no payload. -/
def VaultCommand.Permitted (P : DbOp → Prop) : VaultCommand → Prop
  | createRecord _ => False
  | updateRecord _ => False
  | reEncryptRecord _ _ => False
  | applyDownloadedCloudRecord _ => False
  | ensureRecordListIndex => True
  | softDeleteRecord id => ∀ now, P (.softDeleteRecord id now)
  | restoreRecord id => P (.restoreRecord id)
  | hardDeleteRecord id => P (.hardDeleteRecord id)
  | toggleFavorite id isFavorite => P (.setFavorite id isFavorite)
  | emptyTrash => ∀ id, P (.hardDeleteRecord id)
  | cleanupExpiredTrash _ => ∀ id, P (.hardDeleteRecord id)
  | batchSoftDelete ids => ∀ deletedBy now, P (.batchSoftDeleteRecords ids deletedBy now)
  | batchRestore ids => P (.batchRestoreRecords ids)
  | batchHardDelete ids => P (.batchHardDeleteRecords ids)
  | renameTag oldName newName => P (.renameTag oldName newName)
  | deleteTag name => P (.deleteTagByName name)
  | batchAddTag ids tagName => P (.batchAddTag ids tagName)
  | batchRemoveTag ids tagName => P (.batchRemoveTag ids tagName)
  | upsertRecordHealthState state => P (.upsertRecordHealthState state)
  | replaceRecordHealthStates states => P (.replaceRecordHealthStates states)
  | deleteRecordHealthStates ids => P (.deleteRecordHealthStates ids)
  | markRecordSynced id => ∀ now, P (.markSyncStateSynced id now)
  | markRecordConflict id conflictData => ∀ now, P (.markSyncStateConflict id conflictData now)

variable [Codec] [Serde] [Crypto]

open Vault in
theorem VaultCommand.makesOnly_routine (hroutine : Routine P) (v : VaultService)
    {command : VaultCommand} (h : command.Permitted P)
    (hlisting : command ≠ .ensureRecordListIndex) : MakesOnly P (command.program v) := by
  have hvalue : ∀ {α : Type} {p : VaultM α}, MakesOnly P p →
      MakesOnly P (p >>= fun _ => pure ()) :=
    fun hp => makesOnly_bind hp fun _ => makesOnly_pure ()
  -- a command whose program is not made of routine statements is not permitted here
  cases command with
  | createRecord params => exact h.elim
  | updateRecord params => exact h.elim
  | reEncryptRecord id oldDekVersion => exact h.elim
  | applyDownloadedCloudRecord r => exact h.elim
  | ensureRecordListIndex => exact absurd rfl hlisting
  | softDeleteRecord id => exact makesOnly_softDeleteRecord hroutine v id h
  | restoreRecord id => exact makesOnly_restoreRecord hroutine v id h
  | hardDeleteRecord id => exact makesOnly_hardDeleteRecord hroutine v id h
  | toggleFavorite id isFavorite => exact makesOnly_toggleFavorite hroutine v id isFavorite h
  | emptyTrash => exact hvalue (makesOnly_emptyTrash hroutine v h)
  | cleanupExpiredTrash retentionDays =>
      exact hvalue (makesOnly_cleanupExpiredTrash hroutine v retentionDays h)
  | batchSoftDelete ids => exact hvalue (makesOnly_batchSoftDelete hroutine v ids h)
  | batchRestore ids => exact hvalue (makesOnly_batchRestore hroutine v ids h)
  | batchHardDelete ids => exact hvalue (makesOnly_batchHardDelete hroutine v ids h)
  | renameTag oldName newName => exact makesOnly_renameTag hroutine oldName newName h
  | deleteTag name => exact makesOnly_deleteTag hroutine name h
  | batchAddTag ids tagName => exact hvalue (makesOnly_batchAddTag hroutine ids tagName h)
  | batchRemoveTag ids tagName => exact hvalue (makesOnly_batchRemoveTag hroutine ids tagName h)
  | upsertRecordHealthState state => exact makesOnly_query h
  | replaceRecordHealthStates states => exact makesOnly_query h
  | deleteRecordHealthStates ids =>
      exact hvalue (makesOnly_query h)
  | markRecordSynced id => exact makesOnly_bind makesOnly_now fun _ => makesOnly_query (h _)
  | markRecordConflict id conflictData =>
      exact makesOnly_bind makesOnly_now fun _ => makesOnly_query (h _)

open Vault in
theorem VaultCommand.makesOnly_program (hbooks : Bookkeeping P) (v : VaultService)
    {command : VaultCommand} (h : command.Permitted P) : MakesOnly P (command.program v) := by
  by_cases hlisting : command = .ensureRecordListIndex
  · rw [hlisting]
    exact hbooks.ensureRecordListIndex v
  · exact makesOnly_routine hbooks.toRoutine v h hlisting

end Programs

end OakKeyring
