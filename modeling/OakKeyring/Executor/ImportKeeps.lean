import OakKeyring.Executor.ImportConservation
import OakKeyring.ImportExport.Carried

/-!
# What an import keeps of its items

A value of an imported item is in the record that is created for it, unless the parser of its
format drops it and it is nowhere else in the item.
-/

namespace OakKeyring

open Effect Transfer

/-! ## The payload of an item -/

/-- The parsers give no type and no keys of other types: the item is a login. -/
theorem FieldMap.Standard.inferCredentialType {fields : FieldMap} (h : fields.Standard) :
    inferCredentialType fields = .Login := by
  have hnone : ∀ key, key ∉ FieldMap.standardKeys → (fields.lookup key).isSome = false := by
    intro key hkey
    rw [h key hkey]
    rfl
  have htype : fields.lookup "credential_type" = none :=
    h _ (by simp [FieldMap.standardKeys])
  have happ := hnone "app_id" (by simp [FieldMap.standardKeys])
  have hpublic := hnone "public_key" (by simp [FieldMap.standardKeys])
  simp [OakKeyring.inferCredentialType, htype, happ, hpublic]

/-- A value in an optional text, or in what stands for it when it is missing. -/
theorem appears_toList {value : String} (hvalue : value ≠ "") (o : Option String) :
    (∃ text ∈ o.toList, containsText text value = true) ↔
      containsText (o.getD "") value = true := by
  cases o with
  | some text => simp
  | none =>
      constructor
      · rintro ⟨text, htext, -⟩
        cases htext
      · intro hcontains
        exact absurd (eq_empty_of_containsText hcontains) hvalue

/-- The payload shows what the five fields show. -/
theorem appears_payload {fields : FieldMap} {value : String} (h : fields.Standard)
    (hvalue : value ≠ "") :
    Appears (fieldsToPayload (inferCredentialType fields) fields).texts value ↔
      Appears fields.shown value := by
  have hurl := appears_toList hvalue (fields.lookup "url")
  have hnotes := appears_toList hvalue (fields.lookup "notes")
  rw [h.inferCredentialType]
  simp only [Appears, fieldsToPayload, EncryptedPayload.texts, FieldMap.shown,
    FieldMap.standardKeys, List.mem_append, or_and_right, exists_or, hurl, hnotes]
  simp [FieldMap.text, or_assoc]

section Rules

variable [TextPatterns]

/-- What a rule requires is there. -/
theorem text_of_passes {rules : List ValidationRule} {item : ParsedItem} {field : TargetField}
    {message : String} (h : passes rules item = true)
    (hrule : requiredRule field message ∈ rules) : item.fields.text field.key ≠ "" := by
  intro hempty
  have hnone : (validateItem item.fields rules).findSome? FieldValidation.failure = none :=
    Option.isNone_iff_eq_none.mp h
  have hfail : FieldValidation.Fail field.key message ∈ validateItem item.fields rules := by
    apply List.mem_map.mpr
    refine ⟨requiredRule field message, hrule, ?_⟩
    simp [requiredRule, evaluateRule, hempty]
  have hfailure := List.findSome?_eq_none_iff.mp hnone _ hfail
  cases hfailure

/-- Every format with items of its own requires a user name. -/
theorem username_of_passes {item : ForeignItem} {parsed : ParsedItem}
    (h : passes (getRulesForFormat item.source) parsed = true) :
    parsed.fields.text "username" ≠ "" := by
  change parsed.fields.text TargetField.Username.key ≠ ""
  cases item with
  | bitwarden entry => exact text_of_passes h (List.mem_cons_of_mem _ List.mem_cons_self)
  | onePux item => exact text_of_passes h (List.mem_cons_of_mem _ List.mem_cons_self)
  | opVault entry => exact text_of_passes h (List.mem_cons_of_mem _ List.mem_cons_self)
  | keePass entry => exact text_of_passes h (List.mem_cons_of_mem _ List.mem_cons_self)

end Rules

/-! ## Imports -/

/-- Every value of the item that is not empty appears in the record. -/
def RecordImage.Keeps (image : RecordImage) (item : ForeignItem) : Prop :=
  ∃ payload, image.payload = some payload ∧
    ∀ value ∈ item.values, value ≠ "" → Appears payload.texts value

/-- The record of an item that passes keeps its values if what is dropped occurs elsewhere. -/
theorem keeps_iff_covered [TextPatterns] [Parsers] {item : ForeignItem} {parsed : ParsedItem}
    (hparses : item.ParsesTo parsed)
    (hpasses : passes (getRulesForFormat item.source) parsed = true) :
    (recordOf parsed).params.image.Keeps item ↔ item.Covered := by
  rcases ForeignItem.shown_of_parses hparses (username_of_passes hpasses) with ⟨hstandard, hshown⟩
  have hpayload : ∀ value, value ≠ "" →
      (Appears (fieldsToPayload (inferCredentialType parsed.fields) parsed.fields).texts value ↔
        Appears item.texts value) := by
    intro value hvalue
    rw [appears_payload hstandard hvalue, hshown]
  rw [← ForeignItem.appears_iff_covered]
  constructor
  · rintro ⟨payload, hsome, hall⟩ value hmem hvalue
    have hsame : fieldsToPayload (inferCredentialType parsed.fields) parsed.fields = payload :=
      Option.some.inj hsome
    apply (hpayload value hvalue).mp
    rw [hsame]
    exact hall value hmem hvalue
  · intro hall
    exact ⟨_, rfl, fun value hmem hvalue => (hpayload value hvalue).mpr (hall value hmem hvalue)⟩

section Imports

variable [Crypto] [LawfulCrypto] [Argon2] [ExportFormats] [TextPatterns] [Unicode] [Parsers]
  {vault : Option VaultService} {v : VaultService} {w w' : World}

omit [LawfulCrypto] in
/-- Nothing is created from a file that cannot be read. -/
theorem wp_importFile_unread {route : ImportRoute} {sessions : ImportSessions}
    {command : ImportCommand} {e : ImportExportError}
    (hunread : importItemsOf w.files route command = .error e) :
    wp transferEnv (fun _ u => u = w) (importFile route vault sessions command) w := by
  refine wp_importFile (Q := fun _ u => u = w) (fun _ _ => rfl) ?_
  intro items hitems
  rw [hunread] at hitems
  cases hitems

/-- What an import created, and what is known of the items that the records were made of. -/
structure ImportKept (v : VaultService) (source : ImportSource)
    (contents : Except ImportExportError (List ParsedItem)) (created : List ImportableRecord)
    (outcome : ImportOutcome) (t t' : Tables) : Prop where
  ran : ImportRan (some v) source contents created outcome t t'
  kept : ∀ (item : ForeignItem) (parsed : ParsedItem), item.source = source →
    item.ParsesTo parsed → recordOf parsed ∈ created →
      (recordOf parsed).params.image ∈ Vault.images v t' ∧
        ((recordOf parsed).params.image.Keeps item ↔ item.Covered)

/-- An import keeps every value of an imported item exactly when what its parser drops of the item
occurs in the texts that are carried over. -/
theorem import_keeps_iff {route : ImportRoute} {sessions : ImportSessions}
    {command : ImportCommand} {trace : List (Event TransferI)}
    {result : ImportOutcome × ImportSessions} (hkeyed : w.tables.Keyed)
    (hret : (importFile route (some v) sessions command).Returns trace result)
    (hpath : Path transferEnv w trace w') :
    ∃ created, ImportKept v command.source (importItemsOf w.files route command) created result.1
      w.tables w'.tables := by
  rcases (wp_iff _ _ _ _).mp wp_importFile_ran trace result w' hret hpath with
    ⟨-, created, hran⟩
  refine ⟨created, hran, ?_⟩
  intro item parsed hsource hparses hcreated
  constructor
  · apply (hran.ran.images v rfl hkeyed).mem_iff.mpr
    exact List.mem_append_left _ (List.mem_map_of_mem hcreated)
  · cases hcontents : importItemsOf w.files route command with
    | error e =>
        have hsame := (wp_iff _ _ _ _).mp (wp_importFile_unread hcontents) trace result w' hret
          hpath
        have hcounted := hran.ran.counted
        rw [hsame] at hcounted
        have hnil : created = [] := List.eq_nil_of_length_eq_zero (by omega)
        rw [hnil] at hcreated
        cases hcreated
    | ok items =>
        have hmem := (hran.among items hcontents).subset hcreated
        rcases List.mem_map.mp hmem with ⟨other, hother, hrecord⟩
        -- the rules read the fields of an item, and its record has them
        have hfields : other.fields = parsed.fields := congrArg ImportableRecord.fields hrecord
        have hpasses : passes (getRulesForFormat item.source) parsed = true := by
          have hpassed := (List.mem_filter.mp hother).2
          unfold passes at hpassed ⊢
          rw [hsource, ← hfields]
          exact hpassed
        exact keeps_iff_covered hparses hpasses

end Imports

/-! ## Samples -/

namespace Json

/-- A login with its secret. -/
def bitwardenSecretLogin (l : BitwardenLogin) (totp : Option String) : String :=
  object [("uris", l.uris.map fun uris => array (uris.map fun uri =>
      object [("uri", nullableText uri)])),
    ("username", nullableText l.username), ("password", nullableText l.password),
    ("totp", nullableText totp)]

def bitwardenEntry (e : BitwardenEntry) : String :=
  object [("type", some (toString e.item.itemType)), ("name", nullableText e.item.name),
    ("notes", nullableText e.item.notes), ("fields", e.item.fields.map fun fields =>
      array (fields.map bitwardenField)),
    ("login", e.item.login.map fun l => bitwardenSecretLogin l e.totp)]

/-- An export with one item. -/
def bitwardenFile (e : BitwardenEntry) : Bytes :=
  bytes (object [("encrypted", some (bool false)), ("items", some (array [bitwardenEntry e]))])

end Json

namespace SecretImport

open FileImport (path command payload crypto lawful unicode patterns exportFormats)

def entry (totp : Option String) : BitwardenEntry where
  item := FileImport.login
  totp := totp

def secret : String :=
  "JBSWY3DPEHPK3PXP"

/-- The exports with the login; the secret is not among the fields that are read. -/
abbrev parsers : Parsers where
  bitwarden files path :=
    match files path with
    | some bytes =>
        ((Json.read Json.bitwardenFile [entry none, entry (some secret)] bytes).mapError
          (.ParseError "Bitwarden JSON")).map fun e => FileImport.document e.item
    | none => .error (.FileNotFound path)
  onePux _ path := .error (.FileNotFound path)
  opVault _ path _ := .error (.FileNotFound path)
  keePass _ path _ := .error (.FileNotFound path)
  csv _ path _ := .error (.FileNotFound path)
  printValue := Json.pretty 0

def bench (totp : Option String) : TransferBench :=
  { FileImport.bench FileImport.login with
    files := fun other => if other = path then some (Json.bitwardenFile (entry totp)) else none }

def parsed : ParsedItem :=
  Bitwarden.parseLoginItem 0 FileImport.login

section

attribute [local instance] Sample.codec crypto lawful KeyStore.Changed.argon2 unicode parsers
  exportFormats patterns

def handler : Prog TransferI (ImportOutcome × ImportSessions) :=
  importFile .Direct (some OneVault.service) ∅ command

def complete (b : TransferBench) : (ImportOutcome × ImportSessions) × TransferBench :=
  b.complete KeyStore.Changed.newSalt KeyStore.Changed.newNonce Sample.instant handler

def trace (b : TransferBench) : List (Event TransferI) :=
  b.completeTrace KeyStore.Changed.newSalt KeyStore.Changed.newNonce Sample.instant handler

theorem returns_trace (b : TransferBench) : handler.Returns (trace b) (complete b).1 := by
  unfold trace complete
  exact TransferBench.returns_complete _ _ _ _ _

theorem path_trace (b : TransferBench) :
    Path transferEnv b.world (trace b) (complete b).2.world := by
  unfold trace complete
  exact TransferBench.path_complete _ _ _ _ _

theorem keyed_bench (totp : Option String) : (bench totp).world.tables.Keyed :=
  Tables.keyed_fresh Sample.seed

/-- The login with the secret is read and imported. -/
theorem completed_secret :
    parsers.bitwarden (bench (some secret)).files path =
        .ok (FileImport.document FileImport.login) ∧
      (complete (bench (some secret))).1.1 = .ImportCompleted 1 0 0 0 [] ∧
      (Vault.images OneVault.service (complete (bench (some secret))).2.world.tables).map
        RecordImage.payload = [some payload] := by
  decide +kernel

/-- The login is read and imported, with a secret or without. -/
theorem completed (totp : Option String) (h : totp = none ∨ totp = some secret) :
    parsers.bitwarden (bench totp).files path = .ok (FileImport.document FileImport.login) ∧
      (complete (bench totp)).1.1 = .ImportCompleted 1 0 0 0 [] := by
  rcases h with heq | heq
  · rw [heq]
    decide +kernel
  · rw [heq]
    exact ⟨completed_secret.1, completed_secret.2.1⟩

theorem items_eq (totp : Option String) (h : totp = none ∨ totp = some secret) :
    importItemsOf (bench totp).world.files .Direct command = .ok [parsed] := by
  have hitems : importItemsOf (bench totp).world.files .Direct command =
      parsers.bitwarden (bench totp).files path >>= Bitwarden.parse := rfl
  rw [hitems, (completed totp h).1]
  rfl

/-- A completed import without a failure creates the record of the login. -/
theorem created_eq {totp : Option String} {created : List ImportableRecord}
    {outcome : ImportOutcome} {t t' : Tables} (h : totp = none ∨ totp = some secret)
    (hran : ImportRan (some OneVault.service) command.source
      (importItemsOf (bench totp).world.files .Direct command) created outcome t t')
    (houtcome : outcome = .ImportCompleted 1 0 0 0 []) : recordOf parsed ∈ created := by
  rcases hran.reported _ _ _ _ _ houtcome with ⟨items, hitems, -, -, htally⟩
  have hsame : items = [parsed] := Except.ok.inj (hitems.symm.trans (items_eq totp h))
  rw [htally.whole rfl, hsame]
  have hpasses : passes (getRulesForFormat command.source) parsed = true := by decide +kernel
  apply List.mem_map_of_mem
  exact List.mem_filter.mpr ⟨List.mem_singleton_self parsed, hpasses⟩

theorem parsesTo (totp : Option String) : (ForeignItem.bitwarden (entry totp)).ParsesTo parsed :=
  ⟨0, rfl⟩

/-- A login without a secret is kept as a whole. -/
theorem import_keeps_login :
    (recordOf parsed).params.image.Keeps (.bitwarden (entry none)) := by
  rcases import_keeps_iff (keyed_bench none) (returns_trace (bench none))
    (path_trace (bench none)) with ⟨created, hkept⟩
  have hcreated := created_eq (.inl rfl) hkept.ran (completed none (.inl rfl)).2
  refine (hkept.kept _ _ rfl (parsesTo none) hcreated).2.mpr ?_
  intro value hvalue
  cases hvalue

/-- The secret of a login is nowhere in its record. -/
theorem import_loses_secret :
    handler.Returns (trace (bench (some secret))) (complete (bench (some secret))).1 ∧
      (complete (bench (some secret))).1.1 = .ImportCompleted 1 0 0 0 [] ∧
      Path transferEnv (bench (some secret)).world (trace (bench (some secret)))
        (complete (bench (some secret))).2.world ∧
      importItemsOf (bench (some secret)).world.files .Direct command = .ok [parsed] ∧
      (ForeignItem.bitwarden (entry (some secret))).ParsesTo parsed ∧
      (Vault.images OneVault.service (complete (bench (some secret))).2.world.tables).map
        RecordImage.payload = [some payload] ∧
      secret ∈ (ForeignItem.bitwarden (entry (some secret))).values ∧
      ¬ Appears payload.texts secret := by
  rcases completed_secret with ⟨-, hcompleted, himages⟩
  refine ⟨returns_trace _, hcompleted, path_trace _, items_eq _ (.inr rfl), parsesTo _, himages,
    by decide, ?_⟩
  rintro ⟨text, htext, hcontains⟩
  have hnone : ∀ text ∈ payload.texts, containsText text secret = false := by decide +kernel
  rw [hnone text htext] at hcontains
  cases hcontains

end

end SecretImport

end OakKeyring
