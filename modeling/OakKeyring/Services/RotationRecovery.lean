import OakKeyring.Lib.Crash
import OakKeyring.Services.RotationOutcome

/-!
# Rotations that are cut off

A rotation may be cut off at any point, and so may each attempt to resume it. What the attempt
that is not cut off leaves is compared with what an uninterrupted rotation leaves.
-/

namespace OakKeyring

open Effect

/-! ## Metadata entries that a program leaves alone -/

/-- Queries that keep one entry of the metadata. -/
def DbOp.KeepsMetadata (key : String) (op : DbOp) : Prop :=
  ∀ t result t', op.run t = .ok (result, t') → t'.metadata.lookup key = t.metadata.lookup key

theorem DbOp.keepsMetadata_of_writes {key : String} {op : DbOp}
    (h : Table.metadata ∉ op.writes) : op.KeepsMetadata key := by
  intro t result t' hrun
  have hsame : t'.metadata = t.metadata := DbOp.outside_run hrun .metadata h
  rw [hsame]

theorem DbOp.keepsMetadata_set {key other value : String} (h : key ≠ other) :
    (DbOp.setMetadata other value).KeepsMetadata key := by
  intro t result t' hrun
  cases hrun
  exact AList.lookup_insert_ne h

/-- A step of such a query. -/
theorem metadata_kept {key : String} {t t' : Tables} {c : VaultCall} {answer : c.Answer}
    (hc : VaultCall.Within (DbOp.KeepsMetadata key) c) (hstep : vaultEnv t c answer t') :
    t'.metadata.lookup key = t.metadata.lookup key := by
  cases c with
  | db op =>
      rcases hstep with ⟨expected, result, hrun, -, -⟩ | ⟨-, hstill⟩
      · exact hc t expected t' hrun
      · rw [hstill]
  | now =>
      have hstill : t' = t := hstep
      rw [hstill]
  | newUuid =>
      have hstill : t' = t := hstep
      rw [hstill]
  | newNonce =>
      have hstill : t' = t := hstep
      rw [hstill]

namespace RotationService

section Attempts

variable [Crypto] [RotationJson] {v : VaultService} {key : String}

/-- A program of the rotation service that keeps the entry. -/
def KeepsEntry {α : Type} (key : String) (p : RotationM α) : Prop :=
  Fallible.Only (I := VaultI) (VaultCall.Within (DbOp.KeepsMetadata key)) p

omit [Crypto] [RotationJson] in
theorem keepsEntry_json {α : Type} (result : Except String α) (error : String → RotationError) :
    KeepsEntry key (json result error) := by
  cases result with
  | ok a => exact only_pure a
  | error e => exact only_throw _

omit [Crypto] [RotationJson] in
theorem keepsEntry_query {op : DbOp} (h : op.KeepsMetadata key) :
    KeepsEntry key (internal (Vault.query op)) :=
  only_mapError (only_call h)

omit [Crypto] in
theorem keepsEntry_saveCheckpoint (h : key ≠ CHECKPOINT_KEY) (checkpoint : RotationCheckpoint) :
    KeepsEntry key (saveCheckpoint checkpoint) :=
  only_bind (keepsEntry_json _ _) fun _ => keepsEntry_query (DbOp.keepsMetadata_set h)

omit [Crypto] in
theorem keepsEntry_readCheckpoint (stored : Option String) :
    KeepsEntry key (readCheckpoint stored) := by
  cases stored with
  | none => exact only_pure _
  | some text => exact only_ite (only_pure _) (only_bind (keepsEntry_json _ _) fun _ => only_pure _)

omit [Crypto] in
theorem keepsEntry_loadCheckpoint : KeepsEntry key loadCheckpoint :=
  only_bind (keepsEntry_query (DbOp.keepsMetadata_of_writes (by simp [DbOp.writes])))
    keepsEntry_readCheckpoint

omit [RotationJson] in
theorem keepsEntry_migrateRecord (id : Uuid) (oldDekVersion : Nat) :
    KeepsEntry key (migrateRecord v id oldDekVersion) := by
  refine only_mapError ?_
  have hcalls : Vault.MakesOnly (DbOp.KeepsMetadata key)
      (Vault.reEncryptRecord v id oldDekVersion) := by
    refine Vault.makesOnly_bind (Vault.makesOnly_bind (Vault.makesOnly_query
      (DbOp.keepsMetadata_of_writes (by simp [DbOp.writes]))) fun found =>
        Vault.makesOnly_required found _) fun record => ?_
    refine Vault.makesOnly_bind (Vault.makesOnly_crypto _) fun plaintext => ?_
    refine Vault.makesOnly_bind Vault.makesOnly_newNonce fun nonce => ?_
    refine Vault.makesOnly_bind (Vault.makesOnly_crypto _) fun encryptedData => ?_
    refine Vault.makesOnly_bind Vault.makesOnly_now fun time => ?_
    refine Vault.makesOnly_bind (Vault.makesOnly_query
      (DbOp.keepsMetadata_of_writes (by simp [DbOp.writes]))) fun updated => ?_
    exact Vault.makesOnly_ite (Vault.makesOnly_throw _) (Vault.makesOnly_pure _)
  exact hcalls

theorem keepsEntry_migrateAllRecords (h : key ≠ CHECKPOINT_KEY)
    (checkpoint : RotationCheckpoint) : KeepsEntry key (migrateAllRecords v checkpoint) := by
  refine only_bind (keepsEntry_query (DbOp.keepsMetadata_of_writes (by simp [DbOp.writes])))
    fun records => only_foldlM (fun acc record => ?_) _
  refine only_ite (only_pure _) ?_
  refine only_bind (keepsEntry_migrateRecord _ _) fun _ => ?_
  exact only_bind (keepsEntry_saveCheckpoint h _) fun _ => only_pure _

omit [Crypto] in
/-- The last part of a rotation writes no checkpoint. -/
theorem keepsEntry_recordRotation (h : key ≠ ROTATION_CONFIG_KEY) (result : RotationResult)
    (trigger : RotationTrigger) : KeepsEntry key (recordRotation result trigger) := by
  have hread : KeepsEntry key getConfig :=
    only_bind (keepsEntry_query (DbOp.keepsMetadata_of_writes (by simp [DbOp.writes])))
      fun _ => keepsEntry_json _ _
  refine only_bind hread fun config => ?_
  refine only_bind (only_mapError (only_ask trivial)) fun time => ?_
  refine only_bind (keepsEntry_json _ _) fun text => ?_
  refine only_bind (keepsEntry_query (DbOp.keepsMetadata_set h)) fun _ => ?_
  exact keepsEntry_query (DbOp.keepsMetadata_of_writes (by simp [DbOp.writes]))

/-- While there is a checkpoint the configuration is the one from before the rotation. -/
def ConfigHeld (t₀ t : Tables) : Prop :=
  t.metadata.lookup ROTATION_CONFIG_KEY = t₀.metadata.lookup ROTATION_CONFIG_KEY ∨
    t.metadata.lookup CHECKPOINT_KEY = none

variable {t₀ t t' : Tables}

omit [Crypto] [RotationJson] in
/-- A program that keeps an entry keeps it at every point. -/
theorem alwayse_entry {α : Type} {value : Option String} {p : RotationM α} (hp : KeepsEntry key p)
    (h : t.metadata.lookup key = value) :
    alwayse vaultEnv (fun u => u.metadata.lookup key = value)
      (fun _ u => u.metadata.lookup key = value) p t := by
  refine alwayse_of_only hp ?_ h
  intro u c answer w hc hstep hu
  rw [metadata_kept hc hstep]
  exact hu

omit [Crypto] [RotationJson] in
/-- Parts before the checkpoint is deleted. -/
theorem alwayse_held {α : Type} {p : RotationM α} (hp : KeepsEntry ROTATION_CONFIG_KEY p)
    (h : t.metadata.lookup ROTATION_CONFIG_KEY = t₀.metadata.lookup ROTATION_CONFIG_KEY) :
    alwayse vaultEnv (ConfigHeld t₀)
      (fun _ u => u.metadata.lookup ROTATION_CONFIG_KEY = t₀.metadata.lookup ROTATION_CONFIG_KEY)
      p t :=
  alwayse_mono (fun _ hu => Or.inl hu) (fun _ _ hu => hu) (alwayse_entry hp h)

omit [Crypto] [RotationJson] in
/-- Parts after it. -/
theorem alwayse_cleared {α : Type} {p : RotationM α} (hp : KeepsEntry CHECKPOINT_KEY p)
    (h : t.metadata.lookup CHECKPOINT_KEY = none) :
    alwayse vaultEnv (ConfigHeld t₀) (fun _ u => ConfigHeld t₀ u) p t :=
  alwayse_mono (fun _ hu => Or.inr hu) (fun _ _ hu => Or.inr hu) (alwayse_entry hp h)

omit [Crypto] [RotationJson] in
theorem alwayse_deleteCheckpoint
    (h : t.metadata.lookup ROTATION_CONFIG_KEY = t₀.metadata.lookup ROTATION_CONFIG_KEY) :
    alwayse vaultEnv (ConfigHeld t₀) (fun _ u => u.metadata.lookup CHECKPOINT_KEY = none)
      deleteCheckpoint t := by
  refine alwayse_bind (alwayse_mapError (alwayse_call (Or.inl h) ?_ ?_)) fun _ u hu => hu
  · intro answer deleted u hanswer hstep
    rcases hstep with ⟨expected, result, hrun, -, -⟩ | ⟨⟨e, heq⟩, -⟩
    · cases hrun
      exact AList.lookup_erase _ _
    · have hvalue : answer = .ok deleted := hanswer
      rw [hvalue] at heq
      cases heq
  · intro answer e u hanswer hstep
    rcases hstep with ⟨expected, result, hrun, -, heq⟩ | ⟨-, hstill⟩
    · have hvalue : answer = .error e := hanswer
      rw [hvalue] at heq
      cases heq
    · rw [hstill]
      exact Or.inl h

theorem alwayse_rotate (trigger : RotationTrigger) (expectedMetadataVersion : Nat) :
    alwayse vaultEnv (ConfigHeld t₀) (fun _ u => ConfigHeld t₀ u)
      (rotate v trigger expectedMetadataVersion) t₀ := by
  have hkeys : ROTATION_CONFIG_KEY ≠ CHECKPOINT_KEY := by decide
  refine alwayse_ite (fun _ => Or.inl rfl) fun _ => ?_
  refine alwayse_bind (alwayse_held (only_mapError (only_ask trivial)) rfl) fun startedAt u hu => ?_
  refine alwayse_bind (alwayse_held (keepsEntry_saveCheckpoint hkeys _) hu) fun _ u hu => ?_
  refine alwayse_bind (alwayse_held (keepsEntry_migrateAllRecords hkeys _) hu) fun acc u hu => ?_
  refine alwayse_bind (alwayse_deleteCheckpoint hu) fun _ u hu => ?_
  have hlast : CHECKPOINT_KEY ≠ ROTATION_CONFIG_KEY := hkeys.symm
  exact alwayse_cleared
    (only_bind (keepsEntry_recordRotation hlast _ _) fun _ => only_pure _) hu

theorem alwayse_resumeRotation (h : ConfigHeld t₀ t) :
    alwayse vaultEnv (ConfigHeld t₀) (fun _ u => ConfigHeld t₀ u) (resumeRotation v) t := by
  have hkeys : ROTATION_CONFIG_KEY ≠ CHECKPOINT_KEY := by decide
  rcases h with hheld | hcleared
  · refine alwayse_bind (alwayse_held keepsEntry_loadCheckpoint hheld) fun stored u hu => ?_
    -- the configuration is written before the checkpoint is cleared
    cases stored with
    | none => exact Or.inl hu
    | some checkpoint =>
        refine alwayse_bind (alwayse_held (keepsEntry_migrateAllRecords hkeys _) hu)
          fun acc u hu => ?_
        exact alwayse_bind (alwayse_deleteCheckpoint hu) fun _ u hu => Or.inr hu
  -- there is nothing to resume
  · have hload : alwayse vaultEnv (ConfigHeld t₀)
        (fun stored u => stored = none ∧ u.metadata.lookup CHECKPOINT_KEY = none)
        loadCheckpoint t := by
      refine alwayse_bind (P := fun stored u =>
        stored = none ∧ u.metadata.lookup CHECKPOINT_KEY = none)
        (alwayse_mapError (alwayse_call (Or.inr hcleared) ?_ ?_)) ?_
      · intro answer stored u hanswer hstep
        have hvalue : answer = .ok stored := hanswer
        rcases hstep with ⟨expected, result, hrun, hsame, heq⟩ | ⟨⟨e, heq⟩, -⟩
        · cases hrun
          rw [heq] at hvalue
          cases hvalue
          exact ⟨hsame.trans hcleared, hcleared⟩
        · rw [hvalue] at heq
          cases heq
      · intro answer e u hanswer hstep
        rcases hstep with ⟨expected, result, hrun, -, -⟩ | ⟨-, hstill⟩
        · cases hrun
          exact Or.inr hcleared
        · rw [hstill]
          exact Or.inr hcleared
      · rintro stored u ⟨hnone, hu⟩
        rw [hnone]
        exact ⟨rfl, hu⟩
    refine alwayse_bind hload ?_
    rintro stored u ⟨hnone, hu⟩
    rw [hnone]
    exact Or.inr hu

end Attempts

end RotationService

/-! ## Recovery -/

section Recovery

variable [Crypto] [RotationJson]

/-- A rotation that was started in `t₀` and cut off, and attempts to resume it that were cut off,
too. -/
inductive Interrupted (v : VaultService) (t₀ : Tables) : Tables → Prop
  | rotate {t : Tables} (trigger : RotationTrigger) (expectedMetadataVersion : Nat)
      (hcrash : Crash vaultEnv
        (RotationService.rotate v trigger expectedMetadataVersion).run t₀ t) : Interrupted v t₀ t
  | resumeRotation {t u : Tables} (hbefore : Interrupted v t₀ t)
      (hcrash : Crash vaultEnv (RotationService.resumeRotation v).run t u) : Interrupted v t₀ u

def Tables.rotationConfig (t : Tables) : Except String RotationConfig :=
  RotationService.readConfig (t.metadata.lookup ROTATION_CONFIG_KEY)

/-- The version numbers of records. -/
def Tables.versionOf (t : Tables) (id : Uuid) : Option Nat :=
  (t.records.lookup id).map RecordRow.version

/-- The records whose version has changed. -/
def changedRecords (t t' : Tables) : List Uuid :=
  t.records.keys.filter fun id => t'.versionOf id ≠ t.versionOf id

/-- What the resumed rotation leaves is what an uninterrupted one would: every record is
re-encrypted once, the report counts the records, the time of the rotation is in the
configuration, and the checkpoint is gone. -/
structure Recovered (t₀ t' : Tables) (startedAt : DateTime) (res : RotationResult) : Prop where
  once : ∀ id, t'.versionOf id = (t₀.versionOf id).map (· + 1)
  count : res.recordsMigrated = (changedRecords t₀ t').length
  config : ∃ config time, t₀.rotationConfig = .ok config ∧
    Vault.isBefore time startedAt = false ∧
    t'.rotationConfig = .ok (RotationService.RotationConfig.rotatedAt config time)
  cleared : t'.metadata.lookup CHECKPOINT_KEY = none

/-- When the last attempt begins, the records that it works on are as they were before the
rotation, all others are re-encrypted once, and the checkpoint counts these; and the
configuration already has a time that is not before the start, and no count. -/
structure Recoverable (t₀ t : Tables) (start : RotationCheckpoint)
    (records : List StoredRecord) : Prop where
  once : ∀ id, t.versionOf id =
    if id ∈ (RotationService.work start records).map StoredRecord.id then t₀.versionOf id
    else (t₀.versionOf id).map (· + 1)
  count : start.migratedRecords + (RotationService.work start records).length =
    t₀.records.keys.length
  config : ∃ config time, t₀.rotationConfig = .ok config ∧
    config.lastRotationAt = some time ∧ Vault.isBefore time start.startedAt = false ∧
    config.currentDekRecordCount = 0

variable {v : VaultService} {t₀ t t' : Tables}

/-- However often it is cut off, the configuration stays while there is a checkpoint. -/
theorem Interrupted.configHeld (h : Interrupted v t₀ t) : RotationService.ConfigHeld t₀ t := by
  induction h with
  | rotate trigger expectedMetadataVersion hcrash =>
      exact hcrash.of_alwayse (RotationService.alwayse_rotate trigger expectedMetadataVersion)
  | resumeRotation hbefore hcrash ih =>
      exact hcrash.of_alwayse (RotationService.alwayse_resumeRotation ih)

omit [Crypto] in
/-- Where a checkpoint was read, the configuration is that of before the rotation. -/
theorem RotationService.ConfigHeld.rotationConfig {start : RotationCheckpoint}
    (h : RotationService.ConfigHeld t₀ t) (hstart : t.pendingCheckpoint = some start) :
    t.rotationConfig = t₀.rotationConfig := by
  rcases h with hheld | hcleared
  · unfold Tables.rotationConfig
    rw [hheld]
  · unfold Tables.pendingCheckpoint at hstart
    rw [hcleared] at hstart
    cases hstart

variable {start : RotationCheckpoint} {records : List StoredRecord} {res : RotationResult}

omit [RotationJson] in
/-- What the last attempt makes of the version numbers. -/
theorem RotationService.Finished.versionOf
    (h : RotationService.Finished v t start records res t') (id : Uuid) :
    t'.versionOf id =
      if id ∈ (RotationService.work start records).map StoredRecord.id then
        (t.versionOf id).map (· + 1)
      else t.versionOf id := by
  unfold Tables.versionOf
  by_cases hmem : id ∈ (RotationService.work start records).map StoredRecord.id
  · rcases h.migrated.moved id hmem with ⟨row, row', hrow, hrow', hencrypted⟩
    rw [if_pos hmem, hrow, hrow']
    simp only [Option.map_some]
    rw [hencrypted.version]
  · rw [if_neg hmem, h.migrated.kept id hmem]

omit [Crypto] [RotationJson] in
theorem succ_map_inj {a b : Option Nat} : a.map (· + 1) = b.map (· + 1) ↔ a = b := by
  cases a with
  | none => cases b <;> simp
  | some n => cases b <;> simp

omit [Crypto] [RotationJson] in
/-- When every version has grown by one, every record has changed. -/
theorem changedRecords_of_once (honce : ∀ id, t'.versionOf id = (t₀.versionOf id).map (· + 1)) :
    changedRecords t₀ t' = t₀.records.keys := by
  unfold changedRecords
  rw [List.filter_eq_self]
  intro id hmem
  have hsome : (t₀.records.lookup id).isSome = true := by
    rw [AList.lookup_isSome]
    exact AList.mem_keys.mp hmem
  rcases Option.isSome_iff_exists.mp hsome with ⟨row, hrow⟩
  refine decide_eq_true ?_
  rw [honce id]
  unfold Tables.versionOf
  rw [hrow]
  simp

omit [Crypto] [RotationJson] in
/-- A configuration that is as after a rotation. -/
theorem rotatedAt_eq {config : RotationConfig} {time : DateTime}
    (hlast : config.lastRotationAt = some time) (hcount : config.currentDekRecordCount = 0) :
    RotationService.RotationConfig.rotatedAt config time = config := by
  cases config with
  | mk autoRotate rotateAfterDays rotateAfterRecords lastRotationAt currentDekRecordCount =>
      have hlast : lastRotationAt = some time := hlast
      have hcount : currentDekRecordCount = 0 := hcount
      rw [hlast, hcount]
      rfl

/-- What an uninterrupted rotation leaves in the metadata. -/
theorem rotate_leaves [LawfulCrypto] [LawfulRotationJson] (trigger : RotationTrigger)
    (expectedMetadataVersion : Nat) :
    wpe vaultEnv
      (fun _ u => (∃ config time, t.rotationConfig = .ok config ∧
          u.rotationConfig = .ok (RotationService.RotationConfig.rotatedAt config time)) ∧
        u.metadata.lookup CHECKPOINT_KEY = none)
      (fun _ _ => True) (RotationService.rotate v trigger expectedMetadataVersion) t := by
  have hkeys : ROTATION_CONFIG_KEY ≠ CHECKPOINT_KEY := by decide
  refine wpe_ite (fun _ => trivial) fun _ => ?_
  refine (wpe_bind _ _).mpr (wpe_mapError (Vault.wpe_now fun startedAt => ?_))
  refine (wpe_bind _ _).mpr (RotationService.wpe_saveCheckpoint _ fun text _ => ?_)
  refine (wpe_bind _ _).mpr ((wpe_bind _ _).mpr (wpe_mapError
    (Vault.wpe_query_of_run rfl (fun (records : List StoredRecord) hlisted => ?_)
      fun _ => trivial)))
  refine wpe_mono ?_ (fun _ _ _ => trivial) (RotationService.wpe_migrate hlisted)
  intro acc u hprogress
  have hheld : u.metadata.lookup ROTATION_CONFIG_KEY = t.metadata.lookup ROTATION_CONFIG_KEY :=
    (hprogress.migrated.metadata _ hkeys).trans (AList.lookup_insert_ne hkeys)
  refine (wpe_bind _ _).mpr (RotationService.wpe_deleteCheckpoint ?_)
  refine (wpe_bind _ _).mpr ((wpe_bind _ _).mpr ((wpe_bind _ _).mpr (wpe_mapError
    (Vault.wpe_query_of_run rfl (fun (stored : Option String) hstored => ?_) fun _ => trivial))))
  have hread : stored = t.metadata.lookup ROTATION_CONFIG_KEY := by
    have hfound : stored = (u.metadata.erase CHECKPOINT_KEY).lookup ROTATION_CONFIG_KEY := hstored
    rw [hfound, AList.lookup_erase_ne hkeys]
    exact hheld
  rw [hread]
  cases hconfig : RotationService.readConfig (t.metadata.lookup ROTATION_CONFIG_KEY) with
  | error e => trivial
  | ok config =>
      refine (wpe_bind _ _).mpr (wpe_mapError (Vault.wpe_now fun time => ?_))
      cases hjson : configToJson (RotationService.RotationConfig.rotatedAt config time) with
      | error e => trivial
      | ok text =>
          -- the configuration, once printed, is what a reader finds
          refine (wpe_bind _ _).mpr ?_
          have hprinted : RotationService.json (.ok text) .Internal =
              (pure text : ExceptT RotationError (Prog VaultI) String) := rfl
          rw [hprinted]
          refine (wpe_bind _ _).mpr (wpe_mapError
            (Vault.wpe_query_of_run rfl (fun _ _ => ?_) fun _ => trivial))
          refine wpe_mapError (Vault.wpe_query_of_run rfl (fun _ _ => ?_) fun _ => trivial)
          have hparsed := LawfulRotationJson.config_fromJson_toJson hjson
          refine ⟨⟨config, time, hconfig, ?_⟩, ?_⟩
          · unfold Tables.rotationConfig
            rw [AList.lookup_insert]
            exact (if_neg hparsed.1).trans hparsed.2
          · rw [AList.lookup_insert_ne hkeys.symm]
            exact AList.lookup_erase _ _

/-- When a rotation that was cut off is recovered by the attempt that finishes. -/
theorem recovered_iff [LawfulCrypto] {trace : List (Event VaultI)} (hcut : Interrupted v t₀ t)
    (hret : (RotationService.resumeRotation v).run.Returns trace (.ok res))
    (hpath : Path vaultEnv t trace t') (hstart : t.pendingCheckpoint = some start)
    (hlisting : firstListing trace = some records) :
    Recovered t₀ t' start.startedAt res ↔ Recoverable t₀ t start records := by
  rcases RotationService.resume_returns hret hpath with
    ⟨start', records', hstart', hlisting', hfinished⟩
  have hsame : start' = start := Option.some.inj (hstart'.symm.trans hstart)
  have hrecords : records' = records := Option.some.inj (hlisting'.symm.trans hlisting)
  rw [hsame, hrecords] at hfinished
  -- nothing has touched the configuration since the first attempt
  have hconfig : t'.rotationConfig = t₀.rotationConfig := by
    have hlookup : t'.metadata.lookup ROTATION_CONFIG_KEY =
        t.metadata.lookup ROTATION_CONFIG_KEY := hfinished.migrated.metadata _ (by decide)
    calc
      t'.rotationConfig = t.rotationConfig := by
        unfold Tables.rotationConfig
        rw [hlookup]
      _ = t₀.rotationConfig := hcut.configHeld.rotationConfig hstart
  -- the versions at the end are those after the last attempt's work
  have honce : (∀ id, t'.versionOf id = (t₀.versionOf id).map (· + 1)) ↔
      ∀ id, t.versionOf id =
        if id ∈ (RotationService.work start records).map StoredRecord.id then t₀.versionOf id
        else (t₀.versionOf id).map (· + 1) := by
    refine forall_congr' fun id => ?_
    rw [hfinished.versionOf id]
    by_cases hmem : id ∈ (RotationService.work start records).map StoredRecord.id
    · rw [if_pos hmem, if_pos hmem]
      exact succ_map_inj
    · rw [if_neg hmem, if_neg hmem]
  constructor
  · intro h
    refine ⟨honce.mp h.once, ?_, ?_⟩
    · have hcount := h.count
      rw [changedRecords_of_once h.once, hfinished.count] at hcount
      exact hcount
    · rcases h.config with ⟨config, time, hbefore, htime, hafter⟩
      rw [hconfig, hbefore] at hafter
      -- a configuration that ends as it began has to show a rotation already
      have heq : config = RotationService.RotationConfig.rotatedAt config time :=
        Except.ok.inj hafter
      refine ⟨config, time, hbefore, ?_, htime, ?_⟩
      · rw [heq]
        rfl
      · rw [heq]
        rfl
  · intro h
    refine ⟨honce.mpr h.once, ?_, ?_, hfinished.cleared⟩
    · rw [changedRecords_of_once (honce.mpr h.once), hfinished.count]
      exact h.count
    · rcases h.config with ⟨config, time, hbefore, hlast, htime, hzero⟩
      refine ⟨config, time, hbefore, htime, ?_⟩
      rw [hconfig, hbefore, rotatedAt_eq hlast hzero]

omit [Crypto] [RotationJson] in
theorem versionOf_eq_none {id : Uuid} : t.versionOf id = none ↔ id ∉ t.records := by
  unfold Tables.versionOf
  rw [Option.map_eq_none_iff, AList.lookup_eq_none]

omit [Crypto] [RotationJson] in
/-- Tables with the same records have as many. -/
theorem length_keys_eq (h : ∀ id, id ∈ t.records ↔ id ∈ t₀.records) :
    t.records.keys.length = t₀.records.keys.length := by
  refine List.Perm.length_eq ?_
  refine (List.perm_ext_iff_of_nodup (AList.keys_nodup _) (AList.keys_nodup _)).mpr ?_
  intro id
  rw [← AList.mem_keys, ← AList.mem_keys]
  exact h id

omit [Crypto] [RotationJson] in
/-- A list of every record lists nothing that is not there. -/
theorem versionOf_of_unlisted (hall : records.Perm t.storedRecords) {id : Uuid}
    (hnot : id ∉ records.map StoredRecord.id) : t.versionOf id = none := by
  rw [versionOf_eq_none, ← Tables.id_mem_storedRecords, ← (hall.map StoredRecord.id).mem_iff]
  exact hnot

omit [Crypto] [RotationJson] in
/-- A list of every record is as long as the earlier tables, when the version numbers say that these
have the same records. -/
theorem length_listed (hall : records.Perm t.storedRecords)
    (h : ∀ id, t.versionOf id = none ↔ t₀.versionOf id = none) :
    records.length = t₀.records.keys.length := by
  calc
    records.length = t.storedRecords.length := hall.length_eq
    _ = t.records.keys.length := by rw [← Tables.storedRecords_ids, List.length_map]
    _ = t₀.records.keys.length := by
      refine length_keys_eq fun id => ?_
      have hnone := h id
      rw [versionOf_eq_none, versionOf_eq_none] at hnone
      exact not_iff_not.mp hnone

omit [Crypto] [RotationJson] in
/-- Where every record that is there is worked on, none may have been re-encrypted before. -/
theorem versionOf_worked_iff {worked : List Uuid} {id : Uuid}
    (h : id ∉ worked → t.versionOf id = none) :
    (t.versionOf id =
        if id ∈ worked then t₀.versionOf id else (t₀.versionOf id).map (· + 1)) ↔
      t.versionOf id = t₀.versionOf id := by
  by_cases hmem : id ∈ worked
  · rw [if_pos hmem]
  · rw [if_neg hmem, h hmem, eq_comm, Option.map_eq_none_iff, eq_comm]

omit [Crypto] [RotationJson] in
/-- A list of every record that is worked on from its first. -/
theorem once_all_iff (hall : records.Perm t.storedRecords) :
    ((∀ id, t.versionOf id =
        if id ∈ records.map StoredRecord.id then t₀.versionOf id
        else (t₀.versionOf id).map (· + 1)) ∧
      start.migratedRecords + records.length = t₀.records.keys.length) ↔
      start.migratedRecords = 0 ∧ ∀ id, t.versionOf id = t₀.versionOf id := by
  rw [forall_congr' fun id => versionOf_worked_iff (versionOf_of_unlisted hall), and_comm]
  refine and_congr_left fun hversions => ?_
  have hlength : records.length = t₀.records.keys.length :=
    length_listed hall fun id => by rw [hversions id]
  omega

omit [Crypto] [RotationJson] in
/-- A list of every record whose first one is left out. -/
theorem once_rest_iff {first : StoredRecord} {rest : List StoredRecord}
    (hall : (first :: rest).Perm t.storedRecords)
    (hnodup : ((first :: rest).map StoredRecord.id).Nodup) :
    ((∀ id, t.versionOf id =
        if id ∈ rest.map StoredRecord.id then t₀.versionOf id
        else (t₀.versionOf id).map (· + 1)) ∧
      start.migratedRecords + rest.length = t₀.records.keys.length) ↔
      start.migratedRecords = 1 ∧ t.versionOf first.id = (t₀.versionOf first.id).map (· + 1) ∧
        ∀ id, id ≠ first.id → t.versionOf id = t₀.versionOf id := by
  -- the record that is left out is not worked on, and every other one is
  have hout : first.id ∉ rest.map StoredRecord.id := (List.nodup_cons.mp hnodup).1
  have hrest : ∀ {id}, id ≠ first.id → id ∉ rest.map StoredRecord.id → t.versionOf id = none :=
    fun hne hnot => versionOf_of_unlisted hall (List.not_mem_cons_of_ne_of_not_mem hne hnot)
  have honce : (∀ id, t.versionOf id =
      if id ∈ rest.map StoredRecord.id then t₀.versionOf id
      else (t₀.versionOf id).map (· + 1)) ↔
      t.versionOf first.id = (t₀.versionOf first.id).map (· + 1) ∧
        ∀ id, id ≠ first.id → t.versionOf id = t₀.versionOf id := by
    constructor
    · intro h
      refine ⟨?_, fun id hne => (versionOf_worked_iff (hrest hne)).mp (h id)⟩
      have hfirst := h first.id
      rwa [if_neg hout] at hfirst
    · rintro ⟨hfirst, hothers⟩ id
      by_cases hid : id = first.id
      · rw [hid, if_neg hout]
        exact hfirst
      · exact (versionOf_worked_iff (hrest hid)).mpr (hothers id hid)
  rw [honce, and_comm]
  refine and_congr_left fun ⟨hfirst, hothers⟩ => ?_
  have hlength : (first :: rest).length = t₀.records.keys.length := by
    refine length_listed hall fun id => ?_
    by_cases hid : id = first.id
    · rw [hid, hfirst, Option.map_eq_none_iff]
    · rw [hothers id hid]
  rw [List.length_cons] at hlength
  omega

omit [Crypto] [RotationJson] in
/-- As a re-encrypted record stays below the version of the checkpoint, it is listed again: no
record may have been re-encrypted before the last attempt, or one, which the checkpoint counts
and names and the query lists first. -/
theorem recoverable_iff_of_below
    (hlisted : records.Perm
      (t.storedRecords.filter (RecordQuery.dekVersionBelow start.newDekVersion).selects))
    (hbelow : ∀ record ∈ t.storedRecords, record.dekVersion < start.newDekVersion) :
    ((∀ id, t.versionOf id =
        if id ∈ (RotationService.work start records).map StoredRecord.id then t₀.versionOf id
        else (t₀.versionOf id).map (· + 1)) ∧
      start.migratedRecords + (RotationService.work start records).length =
        t₀.records.keys.length) ↔
      (start.migratedRecords = 0 ∧ ∀ id, t.versionOf id = t₀.versionOf id) ∨
      (start.migratedRecords = 1 ∧ ∃ record, records.head? = some record ∧
        start.lastMigratedRecordId = some record.id.toText ∧
        t.versionOf record.id = (t₀.versionOf record.id).map (· + 1) ∧
        ∀ id, id ≠ record.id → t.versionOf id = t₀.versionOf id) := by
  have hall : records.Perm t.storedRecords := by
    have hfilter : t.storedRecords.filter
        (RecordQuery.dekVersionBelow start.newDekVersion).selects = t.storedRecords := by
      rw [List.filter_eq_self]
      intro record hmem
      exact decide_eq_true (hbelow record hmem)
    rwa [hfilter] at hlisted
  by_cases hhead : ∃ first rest, records = first :: rest ∧ RotationService.skips start first
  -- the record that the checkpoint names is listed first, and left out
  · rcases hhead with ⟨first, rest, rfl, hskip⟩
    rw [RotationService.work_of_skips hskip,
      once_rest_iff hall (RotationService.listed_nodup hlisted)]
    constructor
    · rintro ⟨hone, hversions⟩
      exact Or.inr ⟨hone, first, rfl, hskip.2, hversions⟩
    · rintro (⟨hzero, -⟩ | ⟨hone, record, hrecord, -, hversions⟩)
      · have hpositive := hskip.1
        omega
      · rw [Option.some.inj hrecord]
        exact ⟨hone, hversions⟩
  -- every record is worked on
  · have hwork : RotationService.work start records = records := by
      refine RotationService.work_eq ?_
      intro record hrecord hskip
      rcases List.head?_eq_some_iff.mp hrecord with ⟨rest, hrecords⟩
      exact hhead ⟨record, rest, hrecords, hskip⟩
    rw [hwork, once_all_iff hall]
    refine (or_iff_left ?_).symm
    rintro ⟨hone, record, hrecord, hnamed, -⟩
    rcases List.head?_eq_some_iff.mp hrecord with ⟨rest, hrecords⟩
    refine hhead ⟨record, rest, hrecords, ?_, hnamed⟩
    omega

end Recovery

/-! ## One record -/

namespace OneRecord

section

attribute [local instance] Sample.codec Sample.serde crypto rotationJson

/-- A vault whose database is gone after a number of calls of a rotation. -/
def cutAfter (calls : Nat) (b : Bench) : Bench :=
  runFor (Bench.serve Sample.instant) calls (RotationService.rotate (service 1) .Manual 0).run b

theorem interrupted_cutAfter (calls : Nat) (b : Bench) :
    Interrupted (service 1) b.tables (cutAfter calls b).tables := by
  refine .rotate .Manual 0 ?_
  exact (crash_runFor (Bench.serve Sample.instant) calls
    (RotationService.rotate (service 1) .Manual 0).run b).map Bench.tables
      fun _ _ _ _ hstep => Bench.serve_env hstep

/-- The record is re-encrypted, and the checkpoint does not know. -/
def cutBeforeSave : Bench :=
  cutAfter 7 created

/-- What the resumed rotation finds, and what it makes of the record. -/
theorem cutBeforeSave_resumed :
    cutBeforeSave.tables.pendingCheckpoint = some checkpoint ∧
      created.tables.versionOf recordId = some 1 ∧
      (Bench.complete Sample.instant (RotationService.resumeRotation (service 1))
          cutBeforeSave).2.tables.versionOf recordId = some 3 ∧
      (Bench.complete Sample.instant (RotationService.resumeRotation (service 1))
          cutBeforeSave).1 =
        .ok
          { oldDekVersion := 1
            newDekVersion := 2
            recordsMigrated := 1 } := by
  decide +kernel

/-- A rotation is not recovered: here the record is re-encrypted twice. -/
theorem cutBeforeSave_not_recovered :
    ¬ ∀ (v : VaultService) (t₀ t t' : Tables) (start : RotationCheckpoint)
      (trace : List (Event VaultI)) (res : RotationResult),
      Interrupted v t₀ t → (RotationService.resumeRotation v).run.Returns trace (.ok res) →
        Path vaultEnv t trace t' → t.pendingCheckpoint = some start →
          Recovered t₀ t' start.startedAt res := by
  intro hall
  rcases cutBeforeSave_resumed with ⟨hpending, hfirst, hthird, hreturned⟩
  have hcut : Interrupted (service 1) created.tables cutBeforeSave.tables :=
    interrupted_cutAfter 7 created
  have hret := Bench.returns_complete Sample.instant
    (RotationService.resumeRotation (service 1)) cutBeforeSave
  rw [hreturned] at hret
  have hrecovered := hall (service 1) created.tables _ _ checkpoint _ _ hcut hret
    (Bench.path_complete _ _ _) hpending
  have honce := hrecovered.once recordId
  rw [hfirst, hthird] at honce
  cases honce

end

end OneRecord

/-! ## Three records -/

namespace ThreeNotes

section

attribute [local instance] Sample.codec Sample.serde crypto rotationJson

/-- The vault, rotated at this very moment. -/
def rotated : Bench :=
  { vault with
    tables :=
      { vault.tables with
        metadata := vault.tables.metadata.insert ROTATION_CONFIG_KEY
          (Json.rotationConfig OneRecord.rotatedConfig) } }

/-- The vault when its database goes, after a number of calls of the next rotation. -/
def cutAfter (calls : Nat) (b : Bench) : Bench :=
  runFor (Bench.serve Sample.instant) calls (RotationService.rotate (service 1) .Manual 0).run b

theorem interrupted_cutAfter (calls : Nat) (b : Bench) :
    Interrupted (service 1) b.tables (cutAfter calls b).tables := by
  refine .rotate .Manual 0 ?_
  exact (crash_runFor (Bench.serve Sample.instant) calls
    (RotationService.rotate (service 1) .Manual 0).run b).map Bench.tables
      fun _ _ _ _ hstep => Bench.serve_env hstep

/-- The record in the trash is re-encrypted, and the checkpoint counts and names it. -/
def cutAfterFirst : Bench :=
  cutAfter 8 rotated

def listed : List StoredRecord :=
  (firstListing (Bench.completeTrace Sample.instant
    (RotationService.resumeRotation (service 1)) cutAfterFirst)).getD []

/-- What is left of the rotation that was cut off, and what the resumed one returns. -/
theorem cutAfterFirst_resumed :
    cutAfterFirst.tables.pendingCheckpoint = some (checkpoint (some secondId)) ∧
      (cutAfterFirst.tables.records.lookup secondId).map RecordRow.deleted = some true ∧
      cutAfterFirst.tables.records.keys.Perm rotated.tables.records.keys ∧
      (∀ id ∈ rotated.tables.records.keys, cutAfterFirst.tables.versionOf id =
        if id = secondId then some 2 else some 1) ∧
      (∀ id ∈ rotated.tables.records.keys, rotated.tables.versionOf id = some 1) ∧
      (∀ record ∈ cutAfterFirst.tables.storedRecords,
        record.dekVersion < (checkpoint (some secondId)).newDekVersion) ∧
      listed.Perm (cutAfterFirst.tables.storedRecords.filter
        (RecordQuery.dekVersionBelow (checkpoint (some secondId)).newDekVersion).selects) ∧
      listed.head?.map StoredRecord.id = some secondId ∧
      (firstListing (Bench.completeTrace Sample.instant
        (RotationService.resumeRotation (service 1)) cutAfterFirst)).isSome = true ∧
      (Bench.complete Sample.instant (RotationService.resumeRotation (service 1))
          cutAfterFirst).1 =
        .ok
          { oldDekVersion := 1
            newDekVersion := 2
            recordsMigrated := 3 } ∧
      rotated.tables.rotationConfig = .ok OneRecord.rotatedConfig := by
  decide +kernel

/-- One record has one version more, the others are as they were. -/
theorem versions_cutAfterFirst :
    cutAfterFirst.tables.versionOf secondId = (rotated.tables.versionOf secondId).map (· + 1) ∧
      ∀ id, id ≠ secondId → cutAfterFirst.tables.versionOf id = rotated.tables.versionOf id := by
  rcases cutAfterFirst_resumed with ⟨-, -, hkeys, hversions, hbefore, -⟩
  have hsecond : secondId ∈ rotated.tables.records.keys := by decide +kernel
  constructor
  · rw [hversions _ hsecond, hbefore _ hsecond, if_pos rfl]
    rfl
  · intro id hne
    by_cases hid : id ∈ rotated.tables.records.keys
    · rw [hversions _ hid, hbefore _ hid, if_neg hne]
    · have hnot : id ∉ cutAfterFirst.tables.records.keys := fun h => hid (hkeys.mem_iff.mp h)
      rw [versionOf_eq_none.mpr fun h => hid (AList.mem_keys.mp h),
        versionOf_eq_none.mpr fun h => hnot (AList.mem_keys.mp h)]

theorem recoverable_cutAfterFirst :
    Recoverable rotated.tables cutAfterFirst.tables (checkpoint (some secondId)) listed := by
  rcases cutAfterFirst_resumed with ⟨-, -, -, -, -, hbelow, hlisted, hhead, -, -, hconfig⟩
  rcases Option.map_eq_some_iff.mp hhead with ⟨record, hrecord, hid⟩
  have hcounted : (checkpoint (some secondId)).migratedRecords = 1 := rfl
  have hnamed : (checkpoint (some secondId)).lastMigratedRecordId = some record.id.toText := by
    rw [hid]
    rfl
  have hversions := versions_cutAfterFirst
  rw [← hid] at hversions
  rcases (recoverable_iff_of_below hlisted hbelow).mpr
    (Or.inr ⟨hcounted, record, hrecord, hnamed, hversions⟩) with ⟨honce, hcount⟩
  exact ⟨honce, hcount, OneRecord.rotatedConfig, Sample.instant, hconfig, rfl, by decide, rfl⟩

/-- A rotation of three records, cut off after the first, is recovered by one that is resumed. -/
theorem recovered_iff_cutAfterFirst :
    Recovered rotated.tables
      (Bench.complete Sample.instant (RotationService.resumeRotation (service 1))
        cutAfterFirst).2.tables
      (checkpoint (some secondId)).startedAt
      { oldDekVersion := 1
        newDekVersion := 2
        recordsMigrated := 3 } := by
  have hlawful := lawful
  rcases cutAfterFirst_resumed with ⟨hpending, -, -, -, -, -, -, -, hsome, hreturned, -⟩
  have hlisting : firstListing (Bench.completeTrace Sample.instant
      (RotationService.resumeRotation (service 1)) cutAfterFirst) = some listed := by
    rcases Option.isSome_iff_exists.mp hsome with ⟨records, hrecords⟩
    have hlisted : listed = records := congrArg (Option.getD · []) hrecords
    rw [hlisted]
    exact hrecords
  have hcut : Interrupted (service 1) rotated.tables cutAfterFirst.tables :=
    interrupted_cutAfter 8 rotated
  have hret := Bench.returns_complete Sample.instant
    (RotationService.resumeRotation (service 1)) cutAfterFirst
  rw [hreturned] at hret
  have hpath := Bench.path_complete Sample.instant
    (RotationService.resumeRotation (service 1)) cutAfterFirst
  have hiff := recovered_iff hcut hret hpath hpending hlisting
  exact hiff.mpr recoverable_cutAfterFirst

end

end ThreeNotes

end OakKeyring
