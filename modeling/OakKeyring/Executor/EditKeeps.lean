import OakKeyring.Executor.EditRecord
import OakKeyring.Samples.Crates
import OakKeyring.Samples.Form
import OakKeyring.Samples.Vault
import OakKeyring.Tui.EditFrame

/-!
# Editing changes only what was edited

A record is loaded into the edit screen, keys are pressed, and the form is saved as a whole. What
the form cannot hold of the record is lost.
-/

namespace OakKeyring

open Effect Tables Transition EditRecordScreen

/-- The attributes of a record that an edit could change. -/
inductive Attribute
  | payload (field : PayloadField)
  | expiresAt
  | tags
  | isFavorite
  | createdAt
  | deleted
deriving DecidableEq, Repr

namespace Attribute

/-- No key changes the form field of the attribute; the last three have none. -/
def Untouched [TextArea] [Calendar] (screen : EditRecordScreen) (keys : Keys) : Attribute → Prop
  | payload field => EditRecordScreen.Untouched (fun f => f.value field) screen keys
  | expiresAt => EditRecordScreen.Untouched (fun f => (f.expiresAt, f.customDate)) screen keys
  | tags => EditRecordScreen.Untouched FormFields.tags screen keys
  | isFavorite => True
  | createdAt => True
  | deleted => True

/-- The attribute is the same; the tags of a record are in no order. -/
def Kept (before after : DecryptedRecord) : Attribute → Prop
  | payload field => after.payload.value field = before.payload.value field
  | expiresAt => after.expiresAt = before.expiresAt
  | tags => ∀ name, name ∈ after.tags ↔ name ∈ before.tags
  | isFavorite => after.isFavorite = before.isFavorite
  | createdAt => after.createdAt = before.createdAt
  | deleted => after.deleted = before.deleted ∧ after.deletedAt = before.deletedAt

end Attribute

section

variable [Crypto] [TextArea] [Calendar]

/-- An edit changes only what its keys changed, and when they changed nothing, it keeps the health
state, too. -/
structure EditsOnly (kek : Bytes) (id : Uuid) (screen : EditRecordScreen) (keys : Keys)
    (before : DecryptedRecord) (t u : Tables) : Prop where
  kept : ∀ a : Attribute, a.Untouched screen keys →
    ∃ after, shownRecord kek u id = some after ∧ a.Kept before after
  quiet : (∀ a : Attribute, a.Untouched screen keys) →
    ∃ after, shownRecord kek u id = some after ∧
      ({ after with tags := [] } : DecryptedRecord).unstamped =
        ({ before with tags := [] } : DecryptedRecord).unstamped ∧
      (∀ name, name ∈ after.tags ↔ name ∈ before.tags) ∧
      u.healthState.lookup id = (t.healthState.lookup id).map fun row =>
        { row with recordVersion := after.version }

/-- The form holds what the record has, as far as no key changes it, and the text area gives the
notes back. -/
structure FormHolds (screen : EditRecordScreen) (keys : Keys) (before : DecryptedRecord) :
    Prop where
  favorite : before.isFavorite = false
  expiry : Attribute.expiresAt.Untouched screen keys → before.expiresAt = none
  url : (Attribute.payload .url).Untouched screen keys → before.payload.value .url ≠ some none
  notes : (Attribute.payload .notes).Untouched screen keys →
    ∀ text, before.payload.value .notes = some (some text) →
      text ≠ "" ∧ TextArea.PlainLines text

variable {kek : Bytes} {id : Uuid} {v : VaultService} {t u w : Tables} {s : EditRecordScreen}
  {keys : Keys} {before loaded : DecryptedRecord} {now : DateTime}

/-! ## The command that is sent -/

omit [Crypto] [Calendar] in
theorem buildPayloadSnapshot_credentialType (form : FormState) :
    form.buildPayloadSnapshot.credentialType = form.credentialType := by
  unfold FormState.buildPayloadSnapshot
  dsimp only
  cases form.credentialType <;> rfl

/-- The command that the form of a loaded record stands for after some keys. -/
structure Sends (loaded : DecryptedRecord) (s : EditRecordScreen) (keys : Keys)
    (params : UpdateRecordParams) : Prop where
  id : params.id = loaded.id
  type : params.payload.credentialType = loaded.credentialType
  favorite : params.isFavorite = false
  expiry : Attribute.expiresAt.Untouched (s.loadRecord loaded) keys → params.expiresAt = none
  tags : Attribute.tags.Untouched (s.loadRecord loaded) keys → params.tags = loaded.tags
  payload : ∀ field, (Attribute.payload field).Untouched (s.loadRecord loaded) keys →
    params.payload.value field = reloaded field (loaded.payload.value field)

omit [Crypto] in
theorem sends_updateCommand [LawfulTextArea] :
    Sends loaded s keys (((s.loadRecord loaded).press keys).updateCommand now) := by
  have htarget := sameTarget_press (s.loadRecord loaded) keys
  have htype : ((s.loadRecord loaded).press keys).form.credentialType = loaded.credentialType :=
    htarget.type
  refine ⟨?_, ?_, rfl, ?_, ?_, ?_⟩
  · unfold updateCommand
    dsimp only
    rw [htarget.id]
    rfl
  · unfold updateCommand
    dsimp only
    rw [buildPayloadSnapshot_credentialType, htype]
  · intro h
    have hsame := congrArg Prod.fst (EditRecordScreen.Untouched.press h)
    have hnever : ((s.loadRecord loaded).press keys).form.fields.expiresAt = .Never :=
      hsame.trans (loadFields_expiresAt loaded _)
    unfold updateCommand FormState.expiryDatetime
    dsimp only
    rw [hnever]
    rfl
  · intro h
    have hsame := EditRecordScreen.Untouched.press h
    exact hsame.trans (loadFields_tags loaded _)
  · intro field h
    exact value_snapshot_of_loaded htype (EditRecordScreen.Untouched.press h)

/-! ## The record after the save -/

variable {params : UpdateRecordParams} {after : DecryptedRecord}

omit [Crypto] in
/-- The form holds the record: what no key changes is saved as it was. -/
theorem kept_of_holds (hsends : Sends loaded s keys params)
    (hloaded : loaded.unstamped = before.unstamped) (hsaved : Vault.SavedAs params loaded after)
    (hholds : FormHolds (s.loadRecord loaded) keys before) (a : Attribute)
    (huntouched : a.Untouched (s.loadRecord loaded) keys) : a.Kept before after := by
  rcases unstamped_eq_iff.mp hloaded with ⟨-, -, -, hcreated, hdeleted, hdeletedAt, htags, hpayload⟩
  cases a with
  | payload field =>
      change after.payload.value field = before.payload.value field
      rw [hsaved.payload, hsends.payload field huntouched, hpayload]
      refine reloaded_of_ne ?_ ?_
      · intro hfield
        rw [hfield] at huntouched ⊢
        exact hholds.url huntouched
      · intro hfield
        rw [hfield] at huntouched ⊢
        exact hholds.notes huntouched
  | expiresAt =>
      change after.expiresAt = before.expiresAt
      rw [hsaved.expiry, hsends.expiry huntouched, hholds.expiry huntouched]
      rfl
  | tags =>
      intro name
      rw [hsaved.tags, hsends.tags huntouched, htags]
  | isFavorite => exact hsaved.favorite.trans (hsends.favorite.trans hholds.favorite.symm)
  | createdAt => exact hsaved.created.trans hcreated
  | deleted => exact ⟨hsaved.deleted.1.trans hdeleted, hsaved.deleted.2.trans hdeletedAt⟩

omit [Crypto] in
/-- What is kept of the fields that no key changed was held by the form. -/
theorem holds_of_kept (hsends : Sends loaded s keys params)
    (hloaded : loaded.unstamped = before.unstamped) (hsaved : Vault.SavedAs params loaded after)
    (hkept : ∀ a : Attribute, a.Untouched (s.loadRecord loaded) keys → a.Kept before after) :
    FormHolds (s.loadRecord loaded) keys before := by
  rcases unstamped_eq_iff.mp hloaded with ⟨-, -, -, -, -, -, -, hpayload⟩
  have hvalue : ∀ field, (Attribute.payload field).Untouched (s.loadRecord loaded) keys →
      before.payload.value field = reloaded field (before.payload.value field) := by
    intro field huntouched
    have hsame : after.payload.value field = before.payload.value field := hkept _ huntouched
    calc before.payload.value field
        = after.payload.value field := hsame.symm
      _ = params.payload.value field := by rw [hsaved.payload]
      _ = reloaded field (loaded.payload.value field) := hsends.payload field huntouched
      _ = reloaded field (before.payload.value field) := by rw [hpayload]
  constructor
  · have hfavorite : after.isFavorite = before.isFavorite := hkept .isFavorite trivial
    exact hfavorite.symm.trans (hsaved.favorite.trans hsends.favorite)
  · intro huntouched
    have hexpires : after.expiresAt = before.expiresAt := hkept .expiresAt huntouched
    rw [← hexpires, hsaved.expiry, hsends.expiry huntouched]
    rfl
  · intro huntouched hnone
    have hsame := hvalue .url huntouched
    rw [hnone] at hsame
    cases hsame
  · intro huntouched text htext
    have hsame := hvalue .notes huntouched
    rw [htext] at hsame
    exact plain_of_reloaded hsame.symm

omit [Crypto] in
/-- Nothing was changed: the health state is carried over. -/
theorem carried_of_holds (hsends : Sends loaded s keys params)
    (hloaded : loaded.unstamped = before.unstamped) (hsaved : Vault.SavedAs params loaded after)
    (hholds : FormHolds (s.loadRecord loaded) keys before)
    (hall : ∀ a : Attribute, a.Untouched (s.loadRecord loaded) keys) :
    after.payload = before.payload ∧ after.expiresAt = before.expiresAt ∧
      (passwordChanged loaded.payload params.payload ||
        expiresAtChanged loaded.expiresAt params.expiresAt) = false := by
  have hkept := fun a => kept_of_holds hsends hloaded hsaved hholds a (hall a)
  rcases unstamped_eq_iff.mp hloaded with ⟨-, -, hexpires, -, -, -, -, hpayload⟩
  have hsame : after.payload = before.payload := by
    refine payload_eq_of_value ?_ fun field => hkept (.payload field)
    rw [hsaved.payload, hsends.type, ← hpayload]
    rfl
  have hnone : params.expiresAt = loaded.expiresAt := by
    rw [hsends.expiry (hall .expiresAt), hexpires, hholds.expiry (hall .expiresAt)]
  refine ⟨hsame, hkept .expiresAt, ?_⟩
  rw [hnone, ← hsaved.payload, hsame, ← hpayload]
  unfold passwordChanged expiresAtChanged
  cases loaded.payload <;> simp

/-! ## A whole edit -/

omit [Crypto] [TextArea] [Calendar] in
theorem Tables.keyed_path {trace : List (Event VaultI)} (hpath : Path vaultEnv t trace u)
    (hkeyed : t.Keyed) : u.Keyed := by
  refine hpath.invariant (P := Keyed) ?_ hkeyed
  intro x c answer x' hcall hinv
  have hwithin : c.Within fun _ => True := by
    cases c <;> trivial
  exact Vault.vaultEnv_keep (fun _ _ _ _ _ hrun hx => DbOp.keyed_run hx hrun) hwithin hcall hinv

/-- A record is loaded into a screen, keys are pressed, and one more key saves the form. -/
structure Edited (v : VaultService) (id : Uuid) (s : EditRecordScreen) (keys : Keys)
    (loaded : DecryptedRecord) (params : UpdateRecordParams) (t u w : Tables) : Prop where
  loads : ∃ trace, (Vault.handleLoadRecordForEdit v id).run.Returns trace (.ok loaded) ∧
    Path vaultEnv t trace u
  sends : ∃ a key, (((s.loadRecord loaded).press keys).handleKey a key).sent = some params
  saves : ∃ trace, (Vault.updateRecord v params).run.Returns trace (.ok ()) ∧
    Path vaultEnv u trace w

/-- What is known of the record at the end of an edit. -/
structure Ends (kek : Bytes) (id : Uuid) (s : EditRecordScreen) (keys : Keys)
    (loaded before after : DecryptedRecord) (params : UpdateRecordParams) (t w : Tables) :
    Prop where
  sends : Sends loaded s keys params
  start : loaded.unstamped = before.unstamped
  shown : shownRecord kek w id = some after
  saved : Vault.SavedAs params loaded after
  health : w.healthState.lookup id =
    Vault.carriedHealth (passwordChanged loaded.payload params.payload ||
      expiresAtChanged loaded.expiresAt params.expiresAt) after.version (t.healthState.lookup id)

theorem ends_of_edited [LawfulCrypto] [LawfulTextArea] (hkey : v.HoldsKey kek)
    (hkeyed : t.Keyed) (hbefore : shownRecord kek t id = some before)
    (hedited : Edited v id s keys loaded params t u w) :
    ∃ after, Ends kek id s keys loaded before after params t w := by
  rcases hedited with ⟨⟨trace, hret, hpath⟩, ⟨a, key, hsent⟩, ⟨trace', hret', hpath'⟩⟩
  -- the edit starts from what is loaded
  have hloading : wpe vaultEnv
      (fun record u => SameRecord kek id t u ∧ shownRecord kek u id = some record)
      (fun _ _ => True) (Vault.handleLoadRecordForEdit v id) t :=
    Vault.wpe_handleLoadRecordForEdit hkey
  rcases ((wpe_iff _).mp hloading).1 trace loaded u hret hpath with ⟨hsame, hshown⟩
  have hstart : loaded.unstamped = before.unstamped := by
    rcases hsame.record loaded hshown with ⟨found, hfound, hunstamped⟩
    rw [hunstamped, Option.some.inj (hfound.symm.trans hbefore)]
  -- the form sends what the keys made of it
  have hsends : Sends loaded s keys params := by
    rcases (answers_handleKey key).sent params hsent with ⟨now, hparams⟩
    rw [hparams]
    exact sends_updateCommand
  have hid : params.id = id := by
    rcases shownRecord_eq_some_iff.mp hshown with ⟨row, payload, -, -, -, hloaded⟩
    rw [hsends.id, hloaded]
    rfl
  have hrecord : shownRecord kek u params.id = some loaded := by
    rw [hid]
    exact hshown
  -- and what is sent is stored
  have hsaved := ((wpe_iff _).mp (Vault.wpe_updateRecord_saved hkey
    (Tables.keyed_path hpath hkeyed) hrecord hsends.type)).1 trace' () w hret' hpath'
  rcases hsaved.record with ⟨after, hafter, has⟩
  have hhealths : u.healthState = t.healthState := hsame.out .healthState (by decide)
  refine ⟨after, hsends, hstart, ?_, has, ?_⟩
  · rw [← hid]
    exact hafter
  · have hhealth := hsaved.health
    rw [hid, hhealths] at hhealth
    rw [hhealth, has.version]

theorem Ends.editsOnly (h : Ends kek id s keys loaded before after params t w)
    (hholds : FormHolds (s.loadRecord loaded) keys before) :
    EditsOnly kek id (s.loadRecord loaded) keys before t w where
  kept := fun a huntouched =>
    ⟨after, h.shown, kept_of_holds h.sends h.start h.saved hholds a huntouched⟩
  quiet := by
    intro hall
    have hkept := fun a => kept_of_holds h.sends h.start h.saved hholds a (hall a)
    rcases carried_of_holds h.sends h.start h.saved hholds hall with ⟨hpayload, hexpires, hfresh⟩
    rcases unstamped_eq_iff.mp h.start with ⟨hid, -⟩
    have hdeleted := hkept .deleted
    refine ⟨after, h.shown, ?_, hkept .tags, ?_⟩
    · exact unstamped_eq_iff.mpr ⟨h.saved.id.trans hid, hkept .isFavorite, hexpires,
        hkept .createdAt, hdeleted.1, hdeleted.2, rfl, hpayload⟩
    · rw [h.health, hfresh]
      rfl

theorem Ends.formHolds (h : Ends kek id s keys loaded before after params t w)
    (honly : EditsOnly kek id (s.loadRecord loaded) keys before t w) :
    FormHolds (s.loadRecord loaded) keys before := by
  refine holds_of_kept h.sends h.start h.saved fun a huntouched => ?_
  rcases honly.kept a huntouched with ⟨found, hfound, hkept⟩
  have hsame : found = after := Option.some.inj (hfound.symm.trans h.shown)
  rw [← hsame]
  exact hkept

/-- An edit changes only what its keys changed when the form held the record. -/
theorem edit_keeps_untouched_iff [LawfulCrypto] [LawfulTextArea] (hkey : v.HoldsKey kek)
    (hkeyed : t.Keyed) (hbefore : shownRecord kek t id = some before)
    (hedited : Edited v id s keys loaded params t u w) :
    EditsOnly kek id (s.loadRecord loaded) keys before t w ↔
      FormHolds (s.loadRecord loaded) keys before := by
  rcases ends_of_edited hkey hkeyed hbefore hedited with ⟨after, hends⟩
  constructor
  · intro honly
    exact hends.formHolds honly
  · intro hholds
    exact hends.editsOnly hholds

end

/-! ## Notes that are loaded and saved -/

namespace LoadedNote

def note : EncryptedPayload :=
  .SecureNote "memo" (some "one\ntwo")

abbrev crypto : Crypto :=
  referenceCrypto [note]

def kek : Bytes :=
  List.replicate 32 7

def service : VaultService where
  crypto := .fromUnlockedKeystore
    { kek := some kek
      currentDekVersion := 1 }
  deviceId := "device"

def recordId : Uuid :=
  Uuid.filled 1

def start : Bench where
  tables := .fresh Sample.seed
  uuids := [recordId]
  nonces := [Nonce.filled 1, Nonce.filled 2]
  fault := none

def create (favorite : Bool) : VaultCommand :=
  .createRecord
    { credentialType := .SecureNote
      payload := note
      isFavorite := favorite
      expiresAt := none
      tags := ["work"] }

/-- The note as it is loaded. -/
def loaded (favorite : Bool) : DecryptedRecord where
  id := recordId
  isFavorite := favorite
  expiresAt := none
  createdAt := timestampToDatetime (datetimeToTimestamp Sample.instant)
  updatedAt := timestampToDatetime (datetimeToTimestamp Sample.instant)
  version := 1
  deleted := false
  deletedAt := none
  tags := ["work"]
  payload := note

/-- The update that is sent when the form is saved at once. -/
def saved : UpdateRecordParams where
  id := recordId
  payload := note
  isFavorite := false
  expiresAt := none
  tags := ["work"]
  expectedVersion := 1

def around : Surroundings where
  draws := fun _ => none
  password :=
    { style := .Random
      length := 16
      includeLowercase := true
      includeDigits := true
      includeUppercase := true
      includeSpecial := true
      memorableWordCount := 4
      memorableCapitalize := true
      memorableSeparator := "-"
      pinLength := 6 }
  now := Sample.instant
  today := (2026, 1, 1)
  queueFull := false

section

attribute [local instance] Sample.codec Sample.serde crypto referenceTextArea closedCalendar

def screen : EditRecordScreen :=
  .new around.draws recordId .SecureNote

def created (favorite : Bool) : Bench :=
  (start.perform Sample.instant service (create favorite) none).2

def load : VaultM DecryptedRecord :=
  Vault.handleLoadRecordForEdit service recordId

def opened (favorite : Bool) : Bench :=
  (run (Bench.serve Sample.instant) load.run (created favorite)).2

def after (favorite : Bool) : Bench :=
  ((opened favorite).perform Sample.instant service (.updateRecord saved) none).2

theorem lawful : LawfulCrypto :=
  referenceCrypto_lawful fun _ hp => Json.read_of_nodup (List.nodup_singleton _) hp

theorem lawfulTextArea : LawfulTextArea where
  lines_given := by
    intro text
    unfold setTextareaText
    dsimp only
    split
    · rename_i hempty
      rw [hempty]
      rfl
    · exact congrArg TextArea.splitLines (String.empty_append)

theorem keyed_created (favorite : Bool) : (created favorite).tables.Keyed := by
  have hrun : Run vaultStep (Tables.fresh Sample.seed)
      [{ source := .fresh Sample.seed
         label := start.label Sample.instant service (create favorite) none
         target := (created favorite).tables }] (created favorite).tables :=
    Run.cons (start.vaultStep_perform Sample.instant service (create favorite) none) (Run.nil _)
  exact (numbered_of_run hrun _ hrun.last_mem).1

/-- The note is shown as it is loaded, and the save goes through. -/
theorem goes_through (favorite : Bool) :
    shownRecord kek (created favorite).tables recordId = some (loaded favorite) ∧
      (run (Bench.serve Sample.instant) load.run (created favorite)).1 = .ok (loaded favorite) ∧
      ((opened favorite).perform Sample.instant service (.updateRecord saved) none).1 = .ok () := by
  cases favorite <;> decide +kernel

/-- `Ctrl+S` right after loading. -/
theorem save_sends (favorite : Bool) :
    (((screen.loadRecord (loaded favorite)).press []).handleKey around
      { code := .Char 's', control := true }).sent = some saved := by
  cases favorite <;> decide +kernel

/-- Loading and updating go through on a bench. -/
theorem edited_of_ok {loaded : DecryptedRecord} {params : UpdateRecordParams} {b b' : Bench}
    (hload : run (Bench.serve Sample.instant) load.run b = (.ok loaded, b'))
    (hsent : (((screen.loadRecord loaded).press []).handleKey around
      { code := .Char 's', control := true }).sent = some params)
    (hok : (b'.perform Sample.instant service (.updateRecord params) none).1 = .ok ()) :
    Edited service recordId screen [] loaded params b.tables b'.tables
      (b'.perform Sample.instant service (.updateRecord params) none).2.tables where
  loads := by
    have hret := returns_runTrace (Bench.serve Sample.instant) load.run b
    have hpath := (path_runTrace (Bench.serve Sample.instant) load.run b).map Bench.tables
      fun _ _ _ _ hstep => Bench.serve_env hstep
    rw [hload] at hret hpath
    exact ⟨_, hret, hpath⟩
  sends := ⟨around, _, hsent⟩
  saves := by
    have hstep := b'.vaultStep_perform Sample.instant service (.updateRecord params) none
    have hret := hstep.1
    unfold Bench.label at hret
    dsimp only at hret
    rw [hok] at hret
    exact ⟨_, hret, hstep.2⟩

theorem opened_eq (favorite : Bool) :
    run (Bench.serve Sample.instant) load.run (created favorite) =
      (.ok (loaded favorite), opened favorite) := by
  unfold opened
  rw [← (goes_through favorite).2.1]

theorem edited (favorite : Bool) :
    Edited service recordId screen [] (loaded favorite) saved (created favorite).tables
      (opened favorite).tables (after favorite).tables := by
  unfold after
  exact edited_of_ok (opened_eq favorite) (save_sends favorite) (goes_through favorite).2.2

/-- A note that is no favorite is as it was. -/
theorem edit_keeps_note :
    EditsOnly kek recordId (screen.loadRecord (loaded false)) [] (loaded false)
      (created false).tables (after false).tables := by
  have hlawful := lawful
  have htext := lawfulTextArea
  refine (edit_keeps_untouched_iff ⟨_, rfl, rfl⟩ (keyed_created false) (goes_through false).1
    (edited false)).mpr ⟨rfl, fun _ => rfl, fun _ h => ?_, fun _ text htext => ?_⟩
  · cases h
  · rw [← Option.some.inj (Option.some.inj htext)]
    unfold TextArea.PlainLines
    decide

/-- A favorite that is loaded and saved at once is none any more. -/
theorem edit_loses_favorite :
    ¬ ∀ (loaded before : DecryptedRecord) (params : UpdateRecordParams) (t u w : Tables),
      t.Keyed → shownRecord kek t recordId = some before →
        Edited service recordId screen [] loaded params t u w →
          EditsOnly kek recordId (screen.loadRecord loaded) [] before t w := by
  intro hall
  have hlawful := lawful
  have htext := lawfulTextArea
  have honly := hall _ _ _ _ _ _ (keyed_created true) (goes_through true).1 (edited true)
  rcases ends_of_edited ⟨_, rfl, rfl⟩ (keyed_created true) (goes_through true).1 (edited true) with
    ⟨_, hends⟩
  have hfavorite : (loaded true).isFavorite = false := (hends.formHolds honly).favorite
  cases hfavorite

end

end LoadedNote

end OakKeyring
