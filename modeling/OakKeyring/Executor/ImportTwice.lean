import OakKeyring.Executor.ImportConservation

/-!
# Importing a file twice

The executor hands no key of a stored record over, so that nothing counts as a duplicate. Whatever
the first import of a file left in the vault, the second one repeats it.
-/

namespace OakKeyring

open Effect Transfer

/-! ## Keys of records -/

/-- What tells the records of one type and name apart. -/
def EncryptedPayload.coreField : EncryptedPayload → String
  | .Login _ username _ _ _ => username
  | .Api _ appId _ _ _ => appId
  | .Ssh _ publicKey _ _ _ => publicKey
  | .SecureNote _ _ => ""

section Keys

variable [Unicode]

def recordKey (credentialType : CredentialType) (payload : EncryptedPayload) :
    ExistingRecordKey where
  name := toLowercase payload.name
  credentialType := toLowercase credentialType.toDbStr
  coreField := toLowercase payload.coreField

/-- The key of a record that is live and can be read. -/
def RecordImage.key (image : RecordImage) : Option ExistingRecordKey :=
  if image.deleted then none else image.payload.map (recordKey image.credentialType)

def ImportableRecord.key (record : ImportableRecord) : ExistingRecordKey :=
  recordKey record.credentialType (fieldsToPayload record.credentialType record.fields)

/-- The keys of the live records of a vault. -/
def Vault.keys [Crypto] (v : VaultService) (t : Tables) : List ExistingRecordKey :=
  (Vault.images v t).filterMap RecordImage.key

theorem key_image (record : ImportableRecord) : record.params.image.key = some record.key :=
  rfl

end Keys

/-! ## What importing once and twice amounts to -/

section Twice

variable [Crypto] [Unicode] {v : VaultService} {t t₁ t₂ : Tables}

/-- What one complete import makes of a vault: every record is added once, those apart whose
creation failed. -/
def Imported (v : VaultService) (records : List ImportableRecord) (failed : Nat)
    (t t' : Tables) : Prop :=
  ∃ created : List ImportableRecord, created.Sublist records ∧
    records.length ≤ created.length + failed ∧
      (Vault.images v t').Perm ((created.map fun record => record.params.image) ++
        Vault.images v t)

/-- What a second import is to be, after a first one that led from `t` to `t₁`: no second record
with a key is created, what is present is skipped, and the vault is as after one import. -/
structure Idempotent (v : VaultService) (records : List ImportableRecord) (t t₁ t₂ : Tables)
    (skipped failed : Nat) : Prop where
  single : ∀ record ∈ records,
    (Vault.keys v t₂).count record.key ≤ max 1 ((Vault.keys v t₁).count record.key)
  skipped : skipped = (records.filter fun record => record.key ∈ Vault.keys v t₁).length
  once : Imported v records failed t t₂

/-- None of the records is in the vault. -/
def Absent (v : VaultService) (records : List ImportableRecord) (t : Tables) : Prop :=
  ∀ record ∈ records, record.key ∉ Vault.keys v t

/-- The keys that a run adds. -/
theorem keys_ran {created : List ImportableRecord} (hkeyed : t.Keyed)
    (h : Ran (some v) created t t₁) :
    (Vault.keys v t₁).Perm (created.map ImportableRecord.key ++ Vault.keys v t) := by
  have hperm := (h.images v rfl hkeyed).filterMap RecordImage.key
  have hadded : (created.map fun record => record.params.image).filterMap RecordImage.key =
      created.map ImportableRecord.key := by
    rw [List.filterMap_map]
    have hsome : (RecordImage.key ∘ fun record : ImportableRecord => record.params.image) =
        fun record => some record.key := funext key_image
    rw [hsome]
    exact congrFun (List.filterMap_eq_map (f := ImportableRecord.key)) created
  rw [List.filterMap_append, hadded] at hperm
  exact hperm

/-- A first run whose records are all absent has created none of them. -/
theorem created_eq_nil {created records : List ImportableRecord} (hkeyed : t.Keyed)
    (h : Ran (some v) created t t₁) (hsub : created.Sublist records)
    (habsent : Absent v records t₁) : created = [] := by
  cases created with
  | nil => rfl
  | cons record rest =>
      have hmem : record ∈ records := hsub.subset List.mem_cons_self
      have hkey : record.key ∈ Vault.keys v t₁ := by
        apply (keys_ran hkeyed h).mem_iff.mpr
        simp
      exact absurd hkey (habsent record hmem)

/-- A second run that skips nothing is idempotent when the records are absent and no two of them
have one key. -/
theorem idempotent_of_absent {created₁ created₂ records : List ImportableRecord} {failed : Nat}
    (hkeyed : t.Keyed) (hfirst : Ran (some v) created₁ t t₁)
    (hsub₁ : created₁.Sublist records) (hsecond : Ran (some v) created₂ t₁ t₂)
    (hsub₂ : created₂.Sublist records) (hwhole : records.length ≤ created₂.length + failed)
    (habsent : Absent v records t₁) (hnodup : (records.map ImportableRecord.key).Nodup) :
    Idempotent v records t t₁ t₂ 0 failed where
  single := by
    intro record hrecord
    -- a key is there once more for each record that was created with it
    have hkeys := (keys_ran (hfirst.keyed hkeyed) hsecond).count_eq record.key
    have hnone : (Vault.keys v t₁).count record.key = 0 :=
      List.count_eq_zero.mpr (habsent record hrecord)
    have hone : (created₂.map ImportableRecord.key).count record.key ≤ 1 :=
      List.nodup_iff_count_le_one.mp (hnodup.sublist (hsub₂.map _)) record.key
    rw [List.count_append] at hkeys
    omega
  skipped := by
    have hnone : records.filter (fun record => record.key ∈ Vault.keys v t₁) = [] := by
      apply List.filter_eq_nil_iff.mpr
      intro record hrecord
      simpa using habsent record hrecord
    rw [hnone]
    rfl
  once := by
    -- the first run created nothing, or its records would be there
    have hnil := created_eq_nil hkeyed hfirst hsub₁ habsent
    have hsame : (Vault.images v t₁).Perm (Vault.images v t) := by
      have hperm := hfirst.images v rfl hkeyed
      rw [hnil] at hperm
      exact hperm
    refine ⟨created₂, hsub₂, hwhole, ?_⟩
    have hperm := hsecond.images v rfl (hfirst.keyed hkeyed)
    exact hperm.trans (hsame.append_left _)

/-- A second run that skips nothing is idempotent only then. -/
theorem absent_of_idempotent {records : List ImportableRecord} {failed : Nat}
    (h : Idempotent v records t t₁ t₂ 0 failed) : Absent v records t₁ := by
  have hnone : records.filter (fun record => record.key ∈ Vault.keys v t₁) = [] :=
    List.eq_nil_of_length_eq_zero h.skipped.symm
  intro record hrecord
  simpa using List.filter_eq_nil_iff.mp hnone record hrecord

theorem nodup_of_idempotent {records : List ImportableRecord} {failed : Nat}
    (hkeyed : t₁.Keyed) (hsecond : Ran (some v) records t₁ t₂)
    (h : Idempotent v records t t₁ t₂ 0 failed) :
    (records.map ImportableRecord.key).Nodup := by
  apply List.nodup_iff_count_le_one.mpr
  intro key
  by_cases hmem : key ∈ records.map ImportableRecord.key
  · rcases List.mem_map.mp hmem with ⟨record, hrecord, hkey⟩
    have hsingle := h.single record hrecord
    have hnone : (Vault.keys v t₁).count record.key = 0 :=
      List.count_eq_zero.mpr (absent_of_idempotent h record hrecord)
    have hkeys := (keys_ran hkeyed hsecond).count_eq record.key
    rw [List.count_append] at hkeys
    rw [← hkey]
    omega
  · have hzero := List.count_eq_zero.mpr hmem
    omega

variable [LawfulCrypto] [Argon2] [ExportFormats] [TextPatterns] [Parsers]

/-- Every import that is completed is one import. -/
theorem importFile_imported {route : ImportRoute} {sessions sessions' : ImportSessions}
    {command : ImportCommand} {trace : List (Event TransferI)} {w w' : World}
    {imported reviewed skipped failed : Nat} {breakdown : List (SkipReason × Nat)}
    (hkeyed : w.tables.Keyed)
    (hret : (importFile route (some v) sessions command).Returns trace
      (.ImportCompleted imported reviewed skipped failed breakdown, sessions'))
    (hpath : Path transferEnv w trace w') :
    ∃ items, importItemsOf w.files route command = .ok items ∧
      Imported v (importedRecords command.source items) failed w.tables w'.tables := by
  have hend := (wp_iff _ _ _ _).mp wp_importFile_ran trace _ w' hret hpath
  rcases hend with ⟨-, created, hran⟩
  rcases hran.reported _ _ _ _ _ rfl with ⟨items, hitems, -, -, htally⟩
  have htotal := htally.total
  have hreported := htally.reported
  simp only [ImportCounts.zero, Nat.zero_add] at htotal hreported
  exact ⟨items, hitems, created, hran.among items hitems, by omega, hran.ran.images v rfl hkeyed⟩

/-- A second import of a file, after a first one that ended in any way: it is idempotent if no
record of the file is in the vault and no two of them have one key, and only if, as far as their
creation does not fail. -/
theorem importFile_again {route : ImportRoute} {sessions sessions₁ sessions₂ : ImportSessions}
    {command : ImportCommand} {first second : List (Event TransferI)} {w w₁ w₂ : World}
    {outcome : ImportOutcome} {imported reviewed skipped failed : Nat}
    {breakdown : List (SkipReason × Nat)} (hkeyed : w.tables.Keyed)
    (hret₁ : (importFile route (some v) sessions command).Returns first (outcome, sessions₁))
    (hpath₁ : Path transferEnv w first w₁)
    (hret₂ : (importFile route (some v) sessions₁ command).Returns second
      (.ImportCompleted imported reviewed skipped failed breakdown, sessions₂))
    (hpath₂ : Path transferEnv w₁ second w₂) :
    ∃ items, importItemsOf w.files route command = .ok items ∧
      (Absent v (importedRecords command.source items) w₁.tables ∧
          ((importedRecords command.source items).map ImportableRecord.key).Nodup →
        Idempotent v (importedRecords command.source items) w.tables w₁.tables w₂.tables
          skipped failed) ∧
      (Idempotent v (importedRecords command.source items) w.tables w₁.tables w₂.tables
          skipped failed →
        Absent v (importedRecords command.source items) w₁.tables ∧
          (failed = 0 →
            ((importedRecords command.source items).map ImportableRecord.key).Nodup)) := by
  have hend₁ := (wp_iff _ _ _ _).mp wp_importFile_ran first _ w₁ hret₁ hpath₁
  have hend₂ := (wp_iff _ _ _ _).mp wp_importFile_ran second _ w₂ hret₂ hpath₂
  rcases hend₁ with ⟨hfiles, created₁, hran₁⟩
  rcases hend₂ with ⟨-, created₂, hran₂⟩
  rcases hran₂.reported _ _ _ _ _ rfl with ⟨items, hitems, hskipped, -, htally⟩
  rw [hfiles] at hitems
  refine ⟨items, hitems, ?_⟩
  -- both runs read the same file, and create some of its records
  have hsub₁ := hran₁.among items hitems
  have hsub₂ : created₂.Sublist (importedRecords command.source items) := by
    apply hran₂.among
    rw [hfiles]
    exact hitems
  have htotal := htally.total
  have hreported := htally.reported
  simp only [ImportCounts.zero, Nat.zero_add] at htotal hreported
  rw [hskipped]
  constructor
  · rintro ⟨habsent, hnodup⟩
    exact idempotent_of_absent hkeyed hran₁.ran hsub₁ hran₂.ran hsub₂ (by omega) habsent hnodup
  · intro hidempotent
    refine ⟨absent_of_idempotent hidempotent, ?_⟩
    intro hfailed
    have hcreated : created₂ = importedRecords command.source items := htally.whole hfailed
    have hsecond := hran₂.ran
    rw [hcreated] at hsecond
    exact nodup_of_idempotent (hran₁.ran.keyed hkeyed) hsecond hidempotent

end Twice

/-! ## Samples -/

namespace FileImport

section

attribute [local instance] Sample.codec crypto lawful KeyStore.Changed.argon2 unicode parsers
  exportFormats patterns

/-- The records of the export with the login. -/
def loginRecords : List ImportableRecord :=
  importedRecords command.source [Bitwarden.parseLoginItem 0 login]

/-- The bench with the login, and a token that is cancelled from the start. -/
def cancelledBench : TransferBench :=
  { bench login with patience := some 0 }

/-- The bench that a cancelled import leaves, with a fresh token. -/
def resumedBench : TransferBench :=
  { (complete ∅ cancelledBench).2 with patience := none }

/-- The sessions after the cancelled import. -/
def resumedSessions : ImportSessions :=
  (complete ∅ cancelledBench).1.2

/-- The first import is cancelled and leaves no record; the second one is not. -/
theorem cancelled_resumed :
    (complete ∅ cancelledBench).1.1 = .Cancelled "import_execute" ∧
      Vault.keys OneVault.service resumedBench.world.tables = [] ∧
      (complete resumedSessions resumedBench).1.1 = .ImportCompleted 1 0 0 0 [] := by
  decide +kernel

/-- An import after a cancelled one that created nothing. -/
theorem idempotent_resumed :
    Idempotent OneVault.service loginRecords cancelledBench.world.tables
      resumedBench.world.tables (complete resumedSessions resumedBench).2.world.tables 0 0 := by
  rcases cancelled_resumed with ⟨hcancelled, hkeys, hcompleted⟩
  rcases importFile_again (Tables.keyed_fresh Sample.seed) (returns_trace ∅ cancelledBench hcancelled)
    (path_trace ∅ cancelledBench) (returns_trace resumedSessions resumedBench hcompleted)
    (path_trace resumedSessions resumedBench) with ⟨items, hitems, hidempotent, -⟩
  have hsame : items = [Bitwarden.parseLoginItem 0 login] :=
    Except.ok.inj (hitems.symm.trans importItemsOf_login)
  rw [hsame] at hidempotent
  refine hidempotent ⟨?_, ?_⟩
  · intro record _
    have habsent : record.key ∉ Vault.keys OneVault.service resumedBench.world.tables := by
      rw [hkeys]
      exact List.not_mem_nil
    exact habsent
  · decide +kernel

/-- The bench after the import of the login. -/
def importedBench : TransferBench :=
  (complete ∅ (bench login)).2

def importedSessions : ImportSessions :=
  (complete ∅ (bench login)).1.2

/-- The second import of the login goes through, although the first one is there. -/
theorem imported_again :
    (complete importedSessions importedBench).1.1 = .ImportCompleted 1 0 0 0 [] ∧
      (loginRecords.filter fun record =>
        record.key ∈ Vault.keys OneVault.service importedBench.world.tables).length = 1 := by
  decide +kernel

/-- The same file is imported again: the login is created a second time, and nothing is skipped. -/
theorem not_idempotent_imported :
    (handler ∅).Returns (trace ∅ (bench login)) (.ImportCompleted 1 0 0 0 [], importedSessions) ∧
      Path transferEnv (bench login).world (trace ∅ (bench login)) importedBench.world ∧
      (handler importedSessions).Returns (trace importedSessions importedBench)
        (.ImportCompleted 1 0 0 0 [], (complete importedSessions importedBench).1.2) ∧
      Path transferEnv importedBench.world (trace importedSessions importedBench)
        (complete importedSessions importedBench).2.world ∧
      ¬ Idempotent OneVault.service loginRecords (bench login).world.tables
        importedBench.world.tables (complete importedSessions importedBench).2.world.tables 0 0 := by
  rcases imported_again with ⟨hagain, hpresent⟩
  refine ⟨returns_trace ∅ _ completed_login, path_trace ∅ _,
    returns_trace importedSessions importedBench hagain, path_trace _ _, ?_⟩
  intro hidempotent
  have hskipped := hidempotent.skipped
  rw [hpresent] at hskipped
  cases hskipped

end

end FileImport

end OakKeyring
