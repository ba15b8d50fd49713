import OakKeyring.Samples.Vault
import OakKeyring.Vault.PendingMarks
import OakKeyring.Vault.Touching

/-!
# Which edits are still Pending

A run is followed together with what each record held when it was last marked Synced. In every
state of a run whose steps are safe, a Synced record still holds that.
-/

namespace OakKeyring

open Effect Transition Tables

/-! ## What is uploaded -/

/-- The part of an upload that the vault decides: the ciphertext, the version, and the private
fields under it. -/
structure UploadView where
  encryptedData : String
  nonce : String
  version : Nat
  tags : Finset String
  isFavorite : Option Bool
  expiresAt : Option String
  deleted : Option Bool

def uploadView (r : CloudRecord) (m : CloudPrivateMetadata) : UploadView where
  encryptedData := r.encryptedData
  nonce := r.nonce
  version := r.version
  tags := m.tags.toFinset
  isFavorite := m.isFavorite
  expiresAt := m.expiresAt
  deleted := r.deleted

/-- Records of the same content are uploaded alike. -/
theorem uploadView_of_content [Codec] {a b : StoredRecord} (h : a.content = b.content) (name : String)
    (health health' : Option RecordHealthState) (encrypted encrypted' : EncryptedRecordMetadata) :
    uploadView (Vault.cloudRecordOf a encrypted) (Vault.privateMetadataOf a name health) =
      uploadView (Vault.cloudRecordOf b encrypted') (Vault.privateMetadataOf b name health') := by
  have hdata : a.encryptedData = b.encryptedData := congrArg RecordContent.encryptedData h
  have hnonce : a.nonce = b.nonce := congrArg RecordContent.nonce h
  have hversion : a.version = b.version := congrArg RecordContent.version h
  have htags : a.tags.toFinset = b.tags.toFinset := congrArg RecordContent.tags h
  have hfavorite : a.isFavorite = b.isFavorite := congrArg RecordContent.isFavorite h
  have hexpires : a.expiresAt = b.expiresAt := congrArg RecordContent.expiresAt h
  have hdeleted : a.deleted = b.deleted := congrArg RecordContent.deleted h
  simp only [uploadView, Vault.cloudRecordOf, Vault.privateMetadataOf, hdata, hnonce, hversion,
    htags, hfavorite, hexpires, hdeleted]

/-! ## Steps -/

/-- The records whose content a command may change. -/
def VaultCommand.targets (t : Tables) : VaultCommand → Set Uuid
  | updateRecord params => {params.id}
  | softDeleteRecord id => {id}
  | restoreRecord id => {id}
  | toggleFavorite id _ => {id}
  | reEncryptRecord id _ => {id}
  | applyDownloadedCloudRecord r => {id | Uuid.parseStr r.id = some id}
  | batchSoftDelete ids => {id | id ∈ ids}
  | batchRestore ids => {id | id ∈ ids}
  | batchAddTag ids _ => {id | id ∈ ids}
  | batchRemoveTag ids _ => {id | id ∈ ids}
  | renameTag oldName _ => {id | id ∈ t.recordIdsForTag oldName}
  | deleteTag name => {id | id ∈ t.recordIdsForTag name}
  | _ => ∅

/-- Re-encryption and downloads leave their record unmarked. -/
def VaultCommand.marksChanges : VaultCommand → Bool
  | reEncryptRecord _ _ => false
  | applyDownloadedCloudRecord _ => false
  | _ => true

/-- A restored batch is marked as far as its records could be read. -/
def VaultCommand.marksWhatWasRead : VaultCommand → Bool
  | batchRestore _ => true
  | _ => false

/-- No statement of the trace that writes content succeeds. -/
def Unwritten (trace : List (Event VaultI)) : Prop :=
  ∀ e ∈ trace, VaultCall.wrote e.call = true → ¬ VaultCall.succeeded e.call e.answer

/-- No record the command is about is Synced, or what it writes is followed by its marks: the
command has them, and no statement fails in between. -/
def PendingSafe (t : Tables) (l : VaultLabel) : Prop :=
  (∀ id ∈ l.command.targets t, ¬ t.synced id) ∨
    if l.command.marksChanges then Unfailing l.command.marksWhatWasRead false l.trace
    else Unwritten l.trace

/-- Nothing was Synced among the records that are touched. -/
theorem Tables.Moved.of_unsynced {touched : Set Uuid} {t t' : Tables} (h : Moved touched t t')
    (hunsynced : ∀ id ∈ touched, ¬ t.synced id) : Moved ∅ t t' where
  ruled := h.ruled
  kept := by
    intro id hsynced
    have hbefore := (h.kept id hsynced).1
    have hout : id ∉ touched := fun hmem => hunsynced id hmem hbefore
    exact ⟨hbefore, fun _ => (h.kept id hsynced).2 hout⟩

/-- Statements that write no content touch nothing. -/
theorem DbOp.touches_of_not_writes {op : DbOp} (h : op.writesContent = false) (t : Tables) :
    op.touches t = ∅ := by
  cases op <;> first | rfl | cases h

/-- A trace in which nothing is written. -/
theorem moved_of_unwritten {t t' : Tables} {trace : List (Event VaultI)} (hruled : t.Ruled)
    (hpath : Path vaultEnv t trace t')
    (hcalls : ∀ e ∈ trace, VaultCall.Within (fun op => op.marksSynced = false) e.call)
    (hunwritten : Unwritten trace) : Moved ∅ t t' := by
  induction trace generalizing t with
  | nil =>
      rw [path_nil] at hpath
      rw [hpath]
      exact .refl hruled
  -- a statement that writes no content moves no record
  | cons e trace ih =>
      rcases hpath with ⟨u, hstep, hrest⟩
      have hmoved : Moved ∅ t u := by
        rcases e with ⟨c, answer⟩
        have hwithin := hcalls _ List.mem_cons_self
        have hnothing := hunwritten _ List.mem_cons_self
        cases c with
        | db op =>
            rcases hstep with ⟨expected, result, hrun, -, hanswer⟩ | ⟨-, hstill⟩
            · have hquiet : op.writesContent = false :=
                Bool.eq_false_iff.mpr fun hwrites => hnothing hwrites ⟨result, hanswer⟩
              have hstep := DbOp.moved_run hruled hwithin hrun
              rw [DbOp.touches_of_not_writes hquiet] at hstep
              exact hstep
            · rw [hstill]
              exact .refl hruled
        | now =>
            have hstill : u = t := hstep
            rw [hstill]
            exact .refl hruled
        | newUuid =>
            have hstill : u = t := hstep
            rw [hstill]
            exact .refl hruled
        | newNonce =>
            have hstill : u = t := hstep
            rw [hstill]
            exact .refl hruled
      exact hmoved.trans (ih hmoved.ruled hrest
        (fun e he => hcalls e (List.mem_cons_of_mem _ he))
        fun e he => hunwritten e (List.mem_cons_of_mem _ he))

section Steps

variable [Codec] [Serde] [Crypto] {t t' : Tables} {l : VaultLabel}

/-- A step of a command that marks what it changed. -/
theorem vaultStep.moved_of_marks {reads : Bool} {targets : Set Uuid} (hstep : vaultStep t l t')
    (hmarks : ∀ strict : Prop,
      Vault.Marks strict reads t targets (l.command.program l.service) (t, false))
    (hsafe : (∀ id ∈ targets, ¬ t.synced id) ∨ Unfailing reads false l.trace) :
    Moved ∅ t t' := by
  rcases hstep with ⟨hreturns, hpath⟩
  have hend : ∀ strict : Prop, (strict → Unfailing reads false l.trace) →
      Moved {id | ¬ strict ∧ id ∈ targets} t t' := by
    intro strict hstrict
    rcases path_careful hpath hstrict with ⟨written, hcareful⟩
    have hends := (wpe_iff _).mp (hmarks strict)
    cases houtcome : l.outcome with
    | ok a =>
        rw [houtcome] at hreturns
        exact hends.1 l.trace a _ hreturns hcareful
    | error e =>
        rw [houtcome] at hreturns
        exact hends.2 l.trace e _ hreturns hcareful
  rcases hsafe with hunsynced | hunfailing
  · have hmoved := hend False False.elim
    refine hmoved.of_unsynced ?_
    intro id hmem
    exact hunsynced id hmem.2
  · have hmoved := hend True fun _ => hunfailing
    refine hmoved.mono ?_
    intro id hmem
    exact absurd trivial hmem.1

/-- A step of a command that leaves its record unmarked. -/
theorem vaultStep.moved_of_touching {targets : Set Uuid} (hstep : vaultStep t l t')
    (hruled : t.Ruled)
    (hcalls : Vault.MakesOnly (DbOp.Touching Set.univ) (l.command.program l.service))
    (hends : Vault.Ensures (Moved targets t) (l.command.program l.service) t)
    (hsafe : (∀ id ∈ targets, ¬ t.synced id) ∨ Unwritten l.trace) : Moved ∅ t t' := by
  rcases hsafe with hunsynced | hunwritten
  · exact (hstep.of_ensures hends).of_unsynced hunsynced
  · refine moved_of_unwritten hruled hstep.2 ?_ hunwritten
    intro e he
    have hcall := Prog.CallsOnly.of_returns hcalls hstep.1 e he
    cases hc : e.call with
    | db op =>
        rw [hc] at hcall
        exact hcall.1
    | now => trivial
    | newUuid => trivial
    | newNonce => trivial

omit [Codec] [Serde] [Crypto] in
theorem makesOnly_value {P : DbOp → Prop} {α : Type} {p : VaultM α}
    (hp : Vault.MakesOnly P p) : Vault.MakesOnly P (p >>= fun _ => pure ()) :=
  Vault.makesOnly_bind hp fun _ => Vault.makesOnly_pure ()

omit [Codec] [Serde] [Crypto] in
theorem marks_value {strict : Prop} {reads : Bool} {targets : Set Uuid} {α : Type}
    {p : VaultM α} {s : Tables × Bool} (hp : Vault.Marks strict reads t targets p s) :
    Vault.Marks strict reads t targets (p >>= fun _ => pure ()) s :=
  Vault.marks_bind (wpe_mono (fun _ _ h => h) (fun _ _ h => h) hp)

/-- A safe step makes no record Synced, and leaves the Synced ones as they were. -/
theorem moved_step (hstep : vaultStep t l t') (hruled : t.Ruled) (hsafe : PendingSafe t l)
    (hother : ∀ id, l.command ≠ .markRecordSynced id) : Moved ∅ t t' := by
  rcases l with ⟨v, command, trace, outcome⟩
  have htouching : Vault.MakesOnly (DbOp.Touching ∅) (command.program v) → Moved ∅ t t' :=
    fun hcalls => hstep.of_ensures (Vault.ensures_touching hcalls hruled)
  have hroutine := DbOp.touching_routine ∅
  have hsilent : ∀ {op : DbOp}, op.marksSynced = false → (∀ t, op.touches t = ∅) →
      DbOp.Touching ∅ op := fun hop htouches => ⟨hop, fun t => (htouches t).subset⟩
  -- each command by what it touches, with its marks
  cases command with
  | createRecord params =>
      exact htouching (makesOnly_value (Vault.makesOnly_createRecord v params))
  | updateRecord params =>
      exact hstep.moved_of_marks (fun _ => Vault.marks_updateRecord v hruled params) hsafe
  | softDeleteRecord id =>
      exact hstep.moved_of_marks (fun _ => Vault.marks_softDeleteRecord v hruled id) hsafe
  | restoreRecord id =>
      exact hstep.moved_of_marks (fun _ => Vault.marks_restoreRecord v hruled id) hsafe
  | hardDeleteRecord id =>
      exact htouching
        (Vault.makesOnly_hardDeleteRecord hroutine v id (hsilent rfl fun _ => rfl))
  | toggleFavorite id isFavorite =>
      exact hstep.moved_of_marks (fun _ => Vault.marks_toggleFavorite v hruled id isFavorite) hsafe
  | reEncryptRecord id oldDekVersion =>
      exact hstep.moved_of_touching hruled (Vault.makesOnly_reEncryptRecord v id oldDekVersion)
        (Vault.ensures_reEncryptRecord v hruled id oldDekVersion) hsafe
  | applyDownloadedCloudRecord r =>
      have hcalls := makesOnly_value (Vault.makesOnly_applyDownloadedCloudRecord v r)
      refine hstep.moved_of_touching hruled ?_ (Vault.ensures_touching hcalls hruled) hsafe
      exact Vault.makesOnly_mono hcalls fun op hop => ⟨hop.1, fun _ => Set.subset_univ _⟩
  | ensureRecordListIndex => exact htouching (Vault.makesOnly_ensureRecordListIndex v)
  | emptyTrash =>
      exact htouching (makesOnly_value
        (Vault.makesOnly_emptyTrash hroutine v fun _ => hsilent rfl fun _ => rfl))
  | cleanupExpiredTrash retentionDays =>
      exact htouching (makesOnly_value (Vault.makesOnly_cleanupExpiredTrash hroutine v
        retentionDays fun _ => hsilent rfl fun _ => rfl))
  | batchSoftDelete ids =>
      exact hstep.moved_of_marks
        (fun _ => marks_value (Vault.marks_batchSoftDelete v hruled ids)) hsafe
  | batchRestore ids =>
      exact hstep.moved_of_marks
        (fun _ => marks_value (Vault.marks_batchRestore v hruled ids)) hsafe
  | batchHardDelete ids =>
      exact htouching (makesOnly_value
        (Vault.makesOnly_batchHardDelete hroutine v ids (hsilent rfl fun _ => rfl)))
  | renameTag oldName newName =>
      exact hstep.moved_of_marks (fun _ => Vault.marks_renameTag hruled oldName newName) hsafe
  | deleteTag name =>
      exact hstep.moved_of_marks (fun _ => Vault.marks_deleteTag hruled name) hsafe
  | batchAddTag ids tagName =>
      exact hstep.moved_of_marks
        (fun _ => marks_value (Vault.marks_batchAddTag hruled ids tagName)) hsafe
  | batchRemoveTag ids tagName =>
      exact hstep.moved_of_marks
        (fun _ => marks_value (Vault.marks_batchRemoveTag hruled ids tagName)) hsafe
  | upsertRecordHealthState state => exact htouching (Vault.makesOnly_silent rfl fun _ => rfl)
  | replaceRecordHealthStates states => exact htouching (Vault.makesOnly_silent rfl fun _ => rfl)
  | deleteRecordHealthStates ids =>
      exact htouching (makesOnly_value (Vault.makesOnly_silent rfl fun _ => rfl))
  | markRecordSynced id => exact absurd rfl (hother id)
  | markRecordConflict id conflictData =>
      exact htouching (Vault.makesOnly_bind Vault.makesOnly_now fun _ =>
        Vault.makesOnly_silent rfl fun _ => rfl)

end Steps

/-! ## Runs -/

/-- A vault, and what each of its records held when it was last marked Synced. -/
structure Tracked where
  tables : Tables
  base : Uuid → Option RecordContent

/-- Marking a record Synced notes what it holds. -/
def VaultLabel.rebase (l : VaultLabel) (t : Tables) (base : Uuid → Option RecordContent) :
    Uuid → Option RecordContent :=
  match l.command, l.outcome with
  | .markRecordSynced id, .ok _ => Function.update base id (t.content id)
  | _, _ => base

section Runs

variable [Codec] [Serde] [Crypto]

def trackedStep (s : Tracked) (l : VaultLabel) (s' : Tracked) : Prop :=
  vaultStep s.tables l s'.tables ∧ s'.base = l.rebase s'.tables s.base

def Tracked.fresh (seed : VaultSeed) : Tracked where
  tables := .fresh seed
  base := fun _ => none

/-- A record that does not hold what it held when it was marked is not Synced. -/
def PendingComplete (s : Tracked) : Prop :=
  ∀ id, s.base id ≠ s.tables.content id → ¬ s.tables.synced id

omit [Codec] [Serde] [Crypto] in
theorem Tables.ruled_fresh (seed : VaultSeed) : (Tables.fresh seed).Ruled where
  syncOwned := by
    intro id hmem
    exact absurd hmem (AList.notMem_empty id)
  linksNumbered := by
    intro link hmem
    cases hmem
  tagsNumbered := by
    intro tagId hmem
    exact absurd hmem (AList.notMem_empty tagId)

omit [Codec] [Serde] [Crypto] in
theorem pendingComplete_fresh (seed : VaultSeed) : PendingComplete (Tracked.fresh seed) := by
  rintro id - ⟨row, hrow, -⟩
  have hlookup : (∅ : AList fun _ : Uuid => SyncRow).lookup id = some row := hrow
  rw [AList.lookup_empty] at hlookup
  cases hlookup

/-- Marking a record Synced either fails, or leaves every content as it was. -/
theorem marked_step {t t' : Tables} {l : VaultLabel} {id : Uuid} (hstep : vaultStep t l t')
    (hruled : t.Ruled) (hcommand : l.command = .markRecordSynced id) :
    t'.Ruled ∧ (∀ other, t'.content other = t.content other) ∧
      (∀ other, other ≠ id → t'.synced other → t.synced other) ∧
      ∀ e, l.outcome = .error e → t' = t := by
  have hspec : wpe vaultEnv
      (fun _ u => u.Ruled ∧ (∀ other, u.content other = t.content other) ∧
        ∀ other, other ≠ id → u.synced other → t.synced other)
      (fun _ u => u = t) (l.command.program l.service) t := by
    rw [hcommand]
    refine (wpe_bind _ _).mpr (Vault.wpe_now fun time => ?_)
    refine Vault.wpe_query ?_ fun _ => rfl
    intro expected result u hrun _
    rcases ok_of_bind hrun with ⟨w, hw, hvalue⟩
    cases hvalue
    exact marked_synced hruled hw
  have hend := hstep.of_wpe hspec
  cases houtcome : l.outcome with
  | ok a =>
      rw [houtcome] at hend
      refine ⟨hend.1, hend.2.1, hend.2.2, ?_⟩
      intro e he
      cases he
  | error e =>
      rw [houtcome] at hend
      have hstill : t' = t := hend
      rw [hstill]
      exact ⟨hruled, fun _ => rfl, fun _ _ h => h, fun _ _ => rfl⟩

/-- The invariant of the runs. -/
structure PendingInv (s : Tracked) : Prop where
  ruled : s.tables.Ruled
  complete : PendingComplete s

theorem PendingInv.step {s s' : Tracked} {l : VaultLabel} (hstep : trackedStep s l s')
    (hsafe : PendingSafe s.tables l) (hinv : PendingInv s) : PendingInv s' := by
  rcases hstep with ⟨hvault, hbase⟩
  -- only a mark as synced moves the base
  by_cases hmarks : ∃ id, l.command = .markRecordSynced id
  · rcases hmarks with ⟨id, hcommand⟩
    rcases marked_step hvault hinv.ruled hcommand with ⟨hruled, hcontent, hothers, hfailed⟩
    refine ⟨hruled, ?_⟩
    intro other hdiffers hsynced
    unfold VaultLabel.rebase at hbase
    rw [hcommand] at hbase
    cases houtcome : l.outcome with
    | ok a =>
        rw [houtcome] at hbase
        -- the others keep their base and their rows
        by_cases heq : other = id
        -- this is what was noted just now
        · apply hdiffers
          rw [hbase, heq]
          exact Function.update_self id _ _
        · have hkept : s'.base other = s.base other := by
            rw [hbase]
            exact Function.update_of_ne heq _ _
          rw [hkept, hcontent other] at hdiffers
          exact hinv.complete other hdiffers (hothers other heq hsynced)
    | error e =>
        rw [houtcome] at hbase
        -- the mark failed, and nothing was noted
        have hstill : s'.tables = s.tables := hfailed e houtcome
        have hkept : s'.base = s.base := hbase
        rw [hstill, hkept] at hdiffers
        rw [hstill] at hsynced
        exact hinv.complete other hdiffers hsynced
  -- any other command moves a record only together with its mark
  · have hother : ∀ id, l.command ≠ .markRecordSynced id := fun id heq => hmarks ⟨id, heq⟩
    have hmoved := moved_step hvault hinv.ruled hsafe hother
    have hkept : s'.base = s.base := by
      rw [hbase]
      unfold VaultLabel.rebase
      split
      · rename_i id _ hcommand _
        exact absurd hcommand (hother id)
      · rfl
    refine ⟨hmoved.ruled, ?_⟩
    intro other hdiffers hsynced
    have hbefore := hmoved.kept other hsynced
    rw [hkept, hbefore.2 (Set.notMem_empty other)] at hdiffers
    exact hinv.complete other hdiffers hbefore.1

/-- In a run whose steps are safe no Synced record holds anything but what it held when it was
last marked Synced. -/
theorem pending_complete_of_safe {seed : VaultSeed} {es : List (Step Tracked VaultLabel)}
    {s' : Tracked}
    (hrun : Run trackedStep (Tracked.fresh seed) es s')
    (hsafe : ∀ e ∈ es, PendingSafe e.source.tables e.label) :
    ∀ u ∈ visited (Tracked.fresh seed) es, PendingComplete u := by
  intro u hu
  have hstart : PendingInv (Tracked.fresh seed) :=
    ⟨Tables.ruled_fresh seed, pendingComplete_fresh seed⟩
  have hinv : ∀ w ∈ visited (Tracked.fresh seed) es, PendingInv w :=
    hrun.invariant hstart hsafe fun e hstep he hsource => hsource.step hstep he
  exact (hinv u hu).complete

end Runs

/-! ## A re-encrypted record -/

namespace ReEncrypted

abbrev crypto : Crypto :=
  referenceCrypto [.SecureNote "note" none]

def service : VaultService where
  crypto := .fromUnlockedKeystore
    { kek := some (List.replicate 32 7)
      currentDekVersion := 1 }
  deviceId := "device"

def recordId : Uuid :=
  Uuid.filled 1

def start : Bench where
  tables := .fresh Sample.seed
  uuids := [recordId]
  nonces := [Nonce.filled 1, Nonce.filled 2]
  fault := none

def create : VaultCommand :=
  .createRecord
    { credentialType := .SecureNote
      payload := .SecureNote "note" none
      isFavorite := false
      expiresAt := none
      tags := [] }

section

attribute [local instance] Sample.codec Sample.serde crypto

def label (command : VaultCommand) (b : Bench) : VaultLabel :=
  b.label Sample.instant service command none

def after (command : VaultCommand) (b : Bench) : Bench :=
  (b.perform Sample.instant service command none).2

/-- A database whose vault is followed. -/
structure Followed where
  bench : Bench
  base : Uuid → Option RecordContent

def Followed.tracked (f : Followed) : Tracked where
  tables := f.bench.tables
  base := f.base

def Followed.next (f : Followed) (command : VaultCommand) : Followed where
  bench := after command f.bench
  base := (label command f.bench).rebase (after command f.bench).tables f.base

def Followed.step (f : Followed) (command : VaultCommand) : Step Tracked VaultLabel where
  source := f.tracked
  label := label command f.bench
  target := (f.next command).tracked

theorem trackedStep_next (f : Followed) (command : VaultCommand) :
    trackedStep f.tracked (f.step command).label (f.next command).tracked :=
  ⟨f.bench.vaultStep_perform Sample.instant service command none, rfl⟩

def fresh : Followed where
  bench := start
  base := fun _ => none

/-- A record that was created and marked Synced. -/
def marked : Followed :=
  (fresh.next create).next (.markRecordSynced recordId)

theorem favorite_unfailing :
    Unfailing false false (label (.toggleFavorite recordId true) marked.bench).trace := by
  decide +kernel

/-- A run in which a Synced record becomes a favourite. -/
theorem pending_complete_of_safe_favorite :
    PendingComplete (marked.next (.toggleFavorite recordId true)).tracked := by
  have hrun : Run trackedStep (Tracked.fresh Sample.seed)
      [fresh.step create, (fresh.next create).step (.markRecordSynced recordId),
        marked.step (.toggleFavorite recordId true)]
      (marked.next (.toggleFavorite recordId true)).tracked :=
    Run.cons (trackedStep_next fresh create)
      (Run.cons (trackedStep_next _ (.markRecordSynced recordId))
        (Run.cons (trackedStep_next marked (.toggleFavorite recordId true)) (Run.nil _)))
  refine pending_complete_of_safe hrun ?_ _ hrun.last_mem
  intro e he
  simp only [List.mem_cons, List.not_mem_nil, or_false] at he
  rcases he with hcreate | hmark | hfavorite
  · rw [hcreate]
    exact Or.inl fun id hid => hid.elim
  · rw [hmark]
    exact Or.inl fun id hid => hid.elim
  · rw [hfavorite]
    exact Or.inr favorite_unfailing

/-- After the re-encryption the record has version 2, and is Synced. -/
theorem reEncrypted_synced :
    (marked.base recordId).map RecordContent.version = some 1 ∧
      ((marked.next (.reEncryptRecord recordId 1)).tracked.tables.content recordId).map
        RecordContent.version = some 2 ∧
      ((marked.next (.reEncryptRecord recordId 1)).tracked.tables.syncState.lookup recordId).map
        SyncRow.syncStatus = some .Synced := by
  decide +kernel

/-- Not every run marks what it changes: nothing fails here, and no mark is made. -/
theorem reEncrypted_not_pending :
    ¬ ∀ (seed : VaultSeed) (es : List (Step Tracked VaultLabel)) (s' : Tracked),
      Run trackedStep (Tracked.fresh seed) es s' →
        ∀ u ∈ visited (Tracked.fresh seed) es, PendingComplete u := by
  intro hall
  have hrun : Run trackedStep (Tracked.fresh Sample.seed)
      [fresh.step create, (fresh.next create).step (.markRecordSynced recordId),
        marked.step (.reEncryptRecord recordId 1)]
      (marked.next (.reEncryptRecord recordId 1)).tracked :=
    Run.cons (trackedStep_next fresh create)
      (Run.cons (trackedStep_next _ (.markRecordSynced recordId))
        (Run.cons (trackedStep_next marked (.reEncryptRecord recordId 1)) (Run.nil _)))
  rcases reEncrypted_synced with ⟨hbefore, hafter, hsynced⟩
  refine hall _ _ _ hrun _ hrun.last_mem recordId ?_ ?_
  · intro hsame
    have hbase : (marked.next (.reEncryptRecord recordId 1)).tracked.base = marked.base := rfl
    rw [hbase] at hsame
    rw [hsame, hafter] at hbefore
    cases hbefore
  · exact Option.map_eq_some_iff.mp hsynced

end

end ReEncrypted

end OakKeyring
