import OakKeyring.Executor.ImportRuns
import OakKeyring.Samples.Import

/-!
# What an import accounts for

An item that fails the validation is in none of the four counts of the report. A secure note never
has what the rules of its format require, so it is one of them.
-/

namespace OakKeyring

open Effect Transfer

/-! ## Secure notes -/

section SecureNotes

variable [Parsers]

/-- The items that stand for the secure notes of a file: type 2 of Bitwarden and category 003 of
1Password. -/
def IsSecureNote (files : PathBuf → Option Bytes) (command : ImportCommand) (item : ParsedItem) :
    Prop :=
  match command.source with
  | .Bitwarden => ∃ contents note index, Parsers.bitwarden files command.path = .ok contents ∧
      (note, index) ∈ contents.items.zipIdx ∧ note.itemType = Bitwarden.TYPE_SECURE_NOTE ∧
        Bitwarden.parseItem index note = some item
  | .OnePassword1pux => ∃ notes note index, Parsers.onePux files command.path = .ok notes ∧
      (note, index) ∈ notes.zipIdx ∧ note.categoryUuid = OnePux.CATEGORY_SECURE_NOTE ∧
        OnePux.parseItem index note = some item
  | .OnePasswordOpvault => ∃ entries entry,
      Parsers.opVault files command.path command.password = .ok entries ∧ entry ∈ entries ∧
        entry.category = OnePux.CATEGORY_SECURE_NOTE ∧
          OpVault.parseEntry Parsers.printValue entry = some item
  | _ => False

end SecureNotes

/-! ## Payload texts -/

/-- The texts of a payload. -/
def EncryptedPayload.texts : EncryptedPayload → List String
  | .Login name username password url notes =>
      [name, username, password] ++ url.toList ++ notes.toList
  | .Api name appId secretKey url notes => [name, appId, secretKey] ++ url.toList ++ notes.toList
  | .Ssh name publicKey privateKey passphrase notes =>
      [name, publicKey] ++ privateKey.toList ++ passphrase.toList ++ notes.toList
  | .SecureNote name notes => name :: notes.toList

section Conservation

variable [TextPatterns]

/-- The review item that stands for an item, when a rule asks for a review. -/
def reviewOf (rules : List ValidationRule) (item : ParsedItem) : Option ReviewItem :=
  if passes rules item then
    ((validateItem item.fields rules).findSome? FieldValidation.warning).map fun reason =>
      { name := item.fields.text "name"
        reason := reason }
  else none

/-- The rules find no fault with the credentials of an item. -/
def CredentialsAdmitted (rules : List ValidationRule) (item : ParsedItem) : Prop :=
  ∀ message, FieldValidation.Fail "username" message ∉ validateItem item.fields rules ∧
    FieldValidation.Fail "password" message ∉ validateItem item.fields rules

/-- Every item is accounted for once, named secure notes are not refused for their credentials,
and what is imported as a note keeps its values. -/
structure Conserved [Parsers] (files : PathBuf → Option Bytes) (command : ImportCommand)
    (items : List ParsedItem) (t t' : Tables) (imported reviewed skipped failed : Nat) : Prop where
  counted : imported + reviewed + skipped + failed = items.length
  created : t.records.entries.length + imported + reviewed ≤ t'.records.entries.length
  notes : ∀ item ∈ items, IsSecureNote files command item → item.fields.text "name" ≠ "" →
    CredentialsAdmitted (getRulesForFormat command.source) item
  kept : command.importAsNotes = true → ∀ item ∈ items, ∀ review,
    reviewOf (getRulesForFormat command.source) item = some review →
      ∀ key value, item.fields.lookup key = some value → value ≠ "" →
        ∃ text ∈ (fieldsToPayload (reviewRecord review).credentialType
          (reviewRecord review).fields).texts, containsText text value = true

theorem reviewOf_eq_none (rules : List ValidationRule) (item : ParsedItem) :
    reviewOf rules item = none := by
  unfold reviewOf
  rw [warning_validateItem]
  exact ite_self none

/-- An item that passes has no failure at all. -/
theorem credentialsAdmitted_of_passes {rules : List ValidationRule} {item : ParsedItem}
    (h : passes rules item = true) : CredentialsAdmitted rules item := by
  have hnone : (validateItem item.fields rules).findSome? FieldValidation.failure = none :=
    Option.isNone_iff_eq_none.mp h
  have hall := List.findSome?_eq_none_iff.mp hnone
  intro message
  constructor
  · intro hmem
    have hfailure := hall _ hmem
    cases hfailure
  · intro hmem
    have hfailure := hall _ hmem
    cases hfailure

/-- Nothing is refused when as many items pass as there are. -/
theorem all_pass_of_length {rules : List ValidationRule} {items : List ParsedItem}
    (h : (items.filter (passes rules)).length = items.length) :
    ∀ item ∈ items, passes rules item = true :=
  List.length_filter_eq_length_iff.mp h

variable [Crypto] [LawfulCrypto] [Argon2] [ExportFormats] [Unicode] [Parsers]

/-- A completed import conserves its items if all of them pass the rules of their format. -/
theorem importFile_conserves_iff {route : ImportRoute} {vault : Option VaultService}
    {sessions sessions' : ImportSessions} {command : ImportCommand}
    {trace : List (Event TransferI)} {w w' : World} {imported reviewed skipped failed : Nat}
    {breakdown : List (SkipReason × Nat)}
    (hret : (importFile route vault sessions command).Returns trace
      (.ImportCompleted imported reviewed skipped failed breakdown, sessions'))
    (hpath : Path transferEnv w trace w') :
    ∃ items, importItemsOf w.files route command = .ok items ∧
      (Conserved w.files command items w.tables w'.tables imported reviewed skipped failed ↔
        ∀ item ∈ items, passes (getRulesForFormat command.source) item = true) := by
  have hend := (wp_iff _ _ _ _).mp wp_importFile_ran trace _ w' hret hpath
  rcases hend with ⟨-, created, hran⟩
  rcases hran.reported _ _ _ _ _ rfl with ⟨items, hitems, hskipped, -, htally⟩
  refine ⟨items, hitems, ?_⟩
  -- the items that pass are imported, and the others are counted as skipped
  have hlength : (importedRecords command.source items).length =
      (items.filter (passes (getRulesForFormat command.source))).length := List.length_map _
  have htotal := htally.total
  have hreported := htally.reported
  have hcounted := hran.ran.counted
  simp only [ImportCounts.zero, Nat.zero_add] at htotal hreported
  constructor
  · intro hconserved
    apply all_pass_of_length
    -- the counts add up to all items only when each one passes
    have hcount := hconserved.counted
    omega
  · intro hall
    have hfilter : items.filter (passes (getRulesForFormat command.source)) = items :=
      List.filter_eq_self.mpr hall
    rw [hfilter] at hlength
    refine ⟨by omega, by omega, ?_, ?_⟩
    · intro item hitem _ _
      exact credentialsAdmitted_of_passes (hall item hitem)
    · intro _ item _ review hreview
      rw [reviewOf_eq_none] at hreview
      cases hreview

end Conservation

/-! ## Samples -/

namespace FileImport

section

attribute [local instance] Sample.codec crypto lawful KeyStore.Changed.argon2 unicode parsers
  exportFormats patterns

/-- The items of an export with one item that is imported. -/
theorem importItemsOf_bench {item : BitwardenItem} {parsed : ParsedItem}
    (hread : parsers.bitwarden (bench item).files path = .ok (document item))
    (hparsed : Bitwarden.parseItem 0 item = some parsed) :
    importItemsOf (bench item).world.files .Direct command = .ok [parsed] := by
  have hitems : importItemsOf (bench item).world.files .Direct command =
      parsers.bitwarden (bench item).files path >>= Bitwarden.parse := rfl
  have hone : Bitwarden.parse (document item) = .ok [parsed] := by
    simp [Bitwarden.parse, document, hparsed]
  rw [hitems, hread]
  exact hone

theorem read_login : parsers.bitwarden (bench login).files path = .ok (document login) := by
  decide +kernel

theorem importItemsOf_login :
    importItemsOf (bench login).world.files .Direct command =
      .ok [Bitwarden.parseLoginItem 0 login] :=
  importItemsOf_bench read_login rfl

/-- The login is imported. -/
theorem completed_login : (complete ∅ (bench login)).1.1 = .ImportCompleted 1 0 0 0 [] := by
  decide +kernel

/-- An export with a login is conserved. -/
theorem conserves_login :
    Conserved (bench login).world.files command [Bitwarden.parseLoginItem 0 login]
      (bench login).world.tables (complete ∅ (bench login)).2.world.tables 1 0 0 0 := by
  have hreturns := returns_trace ∅ (bench login) completed_login
  rcases importFile_conserves_iff hreturns (path_trace ∅ _) with ⟨items, hitems, hiff⟩
  have hsame : items = [Bitwarden.parseLoginItem 0 login] := by
    rw [importItemsOf_login] at hitems
    exact (Except.ok.inj hitems).symm
  rw [hsame] at hiff
  refine hiff.mpr ?_
  intro item hitem
  rw [List.mem_singleton.mp hitem]
  decide +kernel

/-- A secure note with a name is neither imported nor counted. -/
theorem not_conserves_note :
    (handler ∅).Returns (trace ∅ (bench note))
        (.ImportCompleted 0 0 0 0 [(.ValidationFailed, 1)], (complete ∅ (bench note)).1.2) ∧
      Path transferEnv (bench note).world (trace ∅ (bench note))
        (complete ∅ (bench note)).2.world ∧
      importItemsOf (bench note).world.files .Direct command =
        .ok [Bitwarden.parseSecureNoteItem 0 note] ∧
      IsSecureNote (bench note).world.files command (Bitwarden.parseSecureNoteItem 0 note) ∧
      (Bitwarden.parseSecureNoteItem 0 note).fields.text "name" = "note" ∧
      ¬ Conserved (bench note).world.files command [Bitwarden.parseSecureNoteItem 0 note]
        (bench note).world.tables (complete ∅ (bench note)).2.world.tables 0 0 0 0 := by
  have hcompleted : (complete ∅ (bench note)).1.1 =
      .ImportCompleted 0 0 0 0 [(.ValidationFailed, 1)] := by
    decide +kernel
  have hreturns := returns_trace ∅ (bench note) hcompleted
  have hread : parsers.bitwarden (bench note).files path = .ok (document note) := by
    decide +kernel
  refine ⟨hreturns, path_trace ∅ _, importItemsOf_bench hread rfl, ?_, by decide +kernel, ?_⟩
  · exact ⟨document note, note, 0, hread, by simp [document], rfl, rfl⟩
  · intro hconserved
    have hcounted := hconserved.counted
    exact absurd hcounted (by decide)

end

end FileImport

end OakKeyring
