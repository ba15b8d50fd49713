import OakKeyring.Sync.Task
import OakKeyring.Lib.Transition

/-!
# What the handlers of the sync task do

Each handler's runs, described once by the operations they make and the task they leave.
-/

namespace OakKeyring

open Effect

namespace SyncTask

/-! ## A cycle -/

section

variable [Codec] [Serde]

/-- A cycle is a failed connectivity check, or a pipeline run whose result is handled. -/
theorem returns_runCycle (t : SyncTask) (tr : StorageTrace) (out : SyncTask × List SyncEvent) :
    (t.runCycle).Returns tr out ↔
      (∃ e, tr = [StorageOp.listRecords.answered (.error e)] ∧ out = t.handleError e) ∨
      (∃ rest ctx result, tr = StorageOp.listRecords.answered (.ok ()) :: rest ∧
        (SyncPipeline.execute t.pipelineContext).Returns rest (ctx, result) ∧
        out = (t.storeConflicts ctx).handlePipelineResult (executionOutcome ctx result)) := by
  unfold runCycle
  rw [CloudStorage.returns_checkConnectivity]
  constructor
  · rintro ⟨answer, rest, rfl, h⟩
    cases answer with
    -- the backend is not usable, and the error is handled at once
    | error e =>
        left
        rcases h with ⟨rfl, rfl⟩
        exact ⟨e, rfl, rfl⟩
    | ok u =>
        right
        rw [Prog.returns_bind] at h
        rcases h with ⟨t₁, t₂, a, rfl, h₁, rfl, rfl⟩
        unfold executePipeline at h₁
        rw [Prog.returns_bind] at h₁
        rcases h₁ with ⟨t₁, t₂, ⟨ctx, result⟩, rfl, h₁, rfl, rfl⟩
        exact ⟨t₁, ctx, result, by simp [StorageOp.answered], h₁, rfl⟩
  -- a trace of either kind is one of the cycle
  · rintro (⟨e, rfl, rfl⟩ | ⟨rest, ctx, result, rfl, h, rfl⟩)
    · exact ⟨.error e, [], rfl, rfl, rfl⟩
    · refine ⟨.ok (), rest, rfl, ?_⟩
      rw [Prog.returns_bind]
      refine ⟨rest, [], (t.storeConflicts ctx, executionOutcome ctx result), by simp, ?_,
        rfl, rfl⟩
      unfold executePipeline
      rw [Prog.returns_bind]
      exact ⟨rest, [], (ctx, result), by simp, h, rfl, rfl⟩

theorem returns_transitionAndRun (t : SyncTask) (trigger : SyncTrigger) (tr : StorageTrace)
    (out : SyncTask × List SyncEvent) :
    (t.transitionAndRun trigger).Returns tr out ↔
      (∃ e, t.stateMachine.transition trigger = .error e ∧ tr = [] ∧
        out = (t, [.Failed e.toText t.state])) ∨
      (∃ m t' events, t.stateMachine.transition trigger = .ok m ∧
        (runCycle { t with stateMachine := m }).Returns tr (t', events) ∧
        out = (t', .StateChanged t.state m.state :: events)) := by
  unfold transitionAndRun
  cases htr : t.stateMachine.transition trigger with
  | error e => simp
  | ok m =>
      simp only [Prog.returns_bind]
      constructor
      · rintro ⟨t₁, t₂, ⟨t', events⟩, rfl, h, rfl, rfl⟩
        right
        exact ⟨m, t', events, rfl, by simpa using h, rfl⟩
      · rintro (⟨e, he, -⟩ | ⟨m', t', events, hm, h, rfl⟩)
        · cases he
        · cases hm
          exact ⟨tr, [], (t', events), by simp, h, rfl, rfl⟩

/-- A trigger is dropped, refused by the state machine, or starts a cycle. -/
theorem returns_startCycle (t : SyncTask) (trigger : SyncTrigger) (tr : StorageTrace)
    (out : SyncTask × List SyncEvent) :
    (t.startCycle trigger).Returns tr out ↔
      ((t.paused = true ∨ t.stateMachine.canAcceptCommands = false) ∧ tr = [] ∧
        out = (t, [])) ∨
      (t.paused = false ∧ t.stateMachine.canAcceptCommands = true ∧
        (t.transitionAndRun trigger).Returns tr out) := by
  unfold startCycle
  cases hp : t.paused <;> cases hc : t.stateMachine.canAcceptCommands <;> simp

/-! ## Conflict resolution -/

omit [Codec] [Serde] in
/-- A resolved record is written when the vault data has an upload for it, else nothing is. -/
theorem returns_uploadResolved (t : SyncTask) (recordId : String) (currentVersion : Nat)
    (tr : StorageTrace) (r : Except SyncError Unit) :
    (t.uploadResolved recordId currentVersion).Returns tr r ↔
      (t.uploadFor recordId = none ∧ tr = [] ∧ r = .ok ()) ∨
      (∃ record, t.uploadFor recordId = some record ∧
        tr = [(StorageOp.writeRecord recordId
          { record with version := currentVersion + 1 }).answered r]) := by
  unfold uploadResolved
  cases h : t.uploadFor recordId with
  | none => simp
  | some record =>
      simp only [reduceCtorEq, false_and, Option.some.injEq, exists_eq_left', false_or]
      exact Prog.returns_perform (I := StorageI) _ _ _

/-- What resolving one item with a strategy takes. -/
theorem returns_resolveItem (t : SyncTask) (recordId : String) (item : ConflictItem)
    (strategy : ResolutionStrategy) (tr : StorageTrace) (r : Except String Unit) :
    (t.resolveItem recordId item strategy).Returns tr r ↔
      (strategy = .KeepLocal ∧ ∃ u, (t.uploadResolved recordId item.currentVersion).Returns tr u ∧
        r = u.mapError fun e =>
          s!"upload failed for resolved record {recordId}: {e.toText}") ∨
      (strategy = .KeepRemote ∧ tr = [] ∧
        r = ((resolveKeepRemote item.conflictData).map fun _ => ()).mapError
          SyncError.toText) := by
  cases strategy with
  | KeepLocal =>
      simp only [resolveItem, Prog.returns_bind, true_and, reduceCtorEq, false_and, or_false]
      constructor
      · rintro ⟨t₁, t₂, u, rfl, hu, h⟩
        cases u with
        | ok u =>
            rcases h with ⟨rfl, rfl⟩
            exact ⟨.ok u, by simpa using hu, rfl⟩
        | error e =>
            rcases h with ⟨rfl, rfl⟩
            exact ⟨.error e, by simpa using hu, rfl⟩
      · rintro ⟨u, hu, rfl⟩
        refine ⟨tr, [], u, by simp, hu, ?_⟩
        cases u <;> exact ⟨rfl, rfl⟩
  | KeepRemote =>
      simp only [resolveItem, Prog.pure_eq, Prog.returns_ret, reduceCtorEq, false_and,
        true_and, false_or]
      cases resolveKeepRemote item.conflictData <;> rfl

/-- The single resolution: refused without an operation, or one item is resolved and the
answer reported. -/
theorem returns_handleResolveConflict (t : SyncTask) (recordId : String)
    (strategy : ResolutionStrategy) (tr : StorageTrace) (out : SyncTask × List SyncEvent) :
    (t.handleResolveConflict recordId strategy).Returns tr out ↔
      (∃ message, tr = [] ∧ out = (t, [.Failed message t.state]) ∧
        ((Uuid.parseStr recordId = none ∧ message = s!"invalid record_id: {recordId}") ∨
        (∃ id, Uuid.parseStr recordId = some id ∧
          (t.pendingConflicts.find? fun c => c.recordId == id) = none ∧
          message = s!"no pending conflict for record {recordId}"))) ∨
      (∃ id item r, Uuid.parseStr recordId = some id ∧
        (t.pendingConflicts.find? fun c => c.recordId == id) = some item ∧
        (t.resolveItem recordId item strategy).Returns tr r ∧
        out = match r with
          | .ok () => ({ t with
              pendingConflicts := t.pendingConflicts.filter fun c => c.recordId != id },
              [.ConflictResolved recordId])
          | .error e => (t, [.Failed e t.state])) := by
  unfold handleResolveConflict
  cases hid : Uuid.parseStr recordId with
  | none => simp
  | some id =>
      cases hitem : t.pendingConflicts.find? fun c => c.recordId == id with
      | none =>
          simp only [hitem]
          -- no conflict of that id is pending, and the storage is not called
          constructor
          · rintro ⟨rfl, rfl⟩
            exact Or.inl ⟨_, rfl, rfl, Or.inr ⟨id, rfl, hitem, rfl⟩⟩
          · rintro (⟨message, rfl, rfl, ⟨h, -⟩ | ⟨-, -, -, rfl⟩⟩ | ⟨id', item, r, hid', hsome, -⟩)
            · cases h
            · exact ⟨rfl, rfl⟩
            · cases hid'
              rw [hitem] at hsome
              cases hsome
      | some item =>
          simp only [hitem, Prog.returns_bind]
          -- the item is resolved, and the answer decides what is reported
          constructor
          · rintro ⟨t₁, t₂, r, rfl, hr, h⟩
            right
            refine ⟨id, item, r, rfl, hitem, ?_⟩
            cases r with
            | ok u =>
                rcases h with ⟨rfl, rfl⟩
                exact ⟨by simpa using hr, rfl⟩
            | error e =>
                rcases h with ⟨rfl, rfl⟩
                exact ⟨by simpa using hr, rfl⟩
          · rintro (⟨message, -, -, ⟨h, -⟩ | ⟨id', hid', hnone, -⟩⟩ | ⟨id', item', r, hid', hitem', hr, rfl⟩)
            · cases h
            · cases hid'
              rw [hitem] at hnone
              cases hnone
            · cases hid'
              rw [hitem] at hitem'
              cases hitem'
              refine ⟨tr, [], r, by simp, hr, ?_⟩
              cases r <;> exact ⟨rfl, rfl⟩

/-- The operations of conflict resolution: each uploads the local record of a pending item,
with the version after the one the item holds. -/
def UploadsResolved (t : SyncTask) (tr : StorageTrace) : Prop :=
  ∀ e ∈ tr, ∃ item ∈ t.pendingConflicts, ∃ recordId record,
    Uuid.parseStr recordId = some item.recordId ∧ t.uploadFor recordId = some record ∧
      e.call = .writeRecord recordId { record with version := item.currentVersion + 1 }

omit [Codec] [Serde] in
theorem uploadsResolved_nil (t : SyncTask) : t.UploadsResolved [] := by
  intro e he
  cases he

omit [Codec] [Serde] in
theorem uploadsResolved_uploadResolved {t : SyncTask} {item : ConflictItem} {recordId : String}
    {tr : StorageTrace} {r : Except SyncError Unit} (hitem : item ∈ t.pendingConflicts)
    (hid : Uuid.parseStr recordId = some item.recordId)
    (h : (t.uploadResolved recordId item.currentVersion).Returns tr r) :
    t.UploadsResolved tr := by
  rcases (t.returns_uploadResolved _ _ _ _).mp h with ⟨-, rfl, -⟩ | ⟨record, hrecord, rfl⟩
  · exact t.uploadsResolved_nil
  · intro e he
    have heq : e = _ := List.mem_singleton.mp he
    exact ⟨item, hitem, recordId, record, hid, hrecord, by rw [heq]; rfl⟩

/-- The single resolution writes for its item only, and can only shorten the pending list. -/
theorem uploadsResolved_handleResolveConflict {t t' : SyncTask} {recordId : String}
    {strategy : ResolutionStrategy} {tr : StorageTrace} {events : List SyncEvent}
    (h : (t.handleResolveConflict recordId strategy).Returns tr (t', events)) :
    t.UploadsResolved tr ∧ ∃ pending, t' = { t with pendingConflicts := pending } ∧
      ∀ item ∈ pending, item ∈ t.pendingConflicts := by
  rcases (t.returns_handleResolveConflict _ _ _ _).mp h with
    ⟨message, rfl, hout, -⟩ | ⟨id, item, r, hid, hitem, hr, hout⟩
  · cases hout
    exact ⟨t.uploadsResolved_nil, t.pendingConflicts, rfl, fun _ h => h⟩
  · have hmem : item ∈ t.pendingConflicts := List.mem_of_find?_eq_some hitem
    have heq : item.recordId = id := by simpa using List.find?_some hitem
    constructor
    · rcases (t.returns_resolveItem _ _ _ _ _).mp hr with ⟨-, u, hu, -⟩ | ⟨-, rfl, -⟩
      · exact uploadsResolved_uploadResolved hmem (by rw [hid, heq]) hu
      · exact t.uploadsResolved_nil
    · cases r with
      | ok u =>
          cases hout
          exact ⟨_, rfl, fun _ h => List.mem_of_mem_filter h⟩
      | error e =>
          cases hout
          exact ⟨t.pendingConflicts, rfl, fun _ h => h⟩

omit [Codec] [Serde] in
/-- One item of a batch: what it writes is its own, and it is kept pending at most. -/
theorem returns_resolveBatchItem {strategy : ResolutionStrategy} {acc out : SyncTask × Nat}
    {x : ResolveOutcome × ConflictItem} {tr : StorageTrace}
    (h : (resolveBatchItem strategy acc x).Returns tr out) :
    (∃ r, (acc.1.uploadResolved x.2.recordId.toText x.2.currentVersion).Returns tr r ∨ tr = []) ∧
      ∃ pending, out.1 = { acc.1 with pendingConflicts := pending } ∧
        ∀ item ∈ pending, item ∈ acc.1.pendingConflicts ∨ item = x.2 := by
  unfold resolveBatchItem at h
  cases hresult : x.1.result with
  | error e =>
      simp only [hresult] at h
      rcases h with ⟨rfl, rfl⟩
      exact ⟨⟨.ok (), Or.inr rfl⟩, _, rfl, by simp⟩
  | ok resolved =>
      cases strategy with
      | KeepLocal =>
          simp only [hresult, Prog.returns_bind] at h
          rcases h with ⟨t₁, t₂, r, rfl, hr, h⟩
          cases r with
          | ok u =>
              rcases h with ⟨rfl, rfl⟩
              exact ⟨⟨.ok u, Or.inl (by simpa using hr)⟩, acc.1.pendingConflicts, rfl,
                fun _ h => Or.inl h⟩
          | error e =>
              rcases h with ⟨rfl, rfl⟩
              exact ⟨⟨.error e, Or.inl (by simpa using hr)⟩, _, rfl, by simp⟩
      | KeepRemote =>
          simp only [hresult] at h
          rcases h with ⟨rfl, rfl⟩
          exact ⟨⟨.ok (), Or.inr rfl⟩, acc.1.pendingConflicts, rfl, fun _ h => Or.inl h⟩

/-- The batch resolution writes for pending items, keeps some of them, and always reports how
many it resolved. -/
theorem returns_handleResolveAll {t t' : SyncTask} {strategy : ResolutionStrategy}
    {tr : StorageTrace} {events : List SyncEvent}
    (h : (t.handleResolveAll strategy).Returns tr (t', events)) :
    t.UploadsResolved tr ∧
      (∃ pending, t' = { t with pendingConflicts := pending } ∧
        ∀ item ∈ pending, item ∈ t.pendingConflicts) ∧
      ∃ count, events = [.AllConflictsResolved count] := by
  unfold handleResolveAll at h
  by_cases hitems : t.pendingConflicts = []
  · simp only [hitems, if_true] at h
    rcases h with ⟨rfl, hout⟩
    cases hout
    exact ⟨t.uploadsResolved_nil, ⟨t.pendingConflicts, rfl, fun _ h => h⟩, 0, rfl⟩
  · simp only [hitems, if_false, Prog.returns_bind] at h
    rcases h with ⟨t₁, t₂, ⟨u, succeeded⟩, rfl, hloop, rfl, hout⟩
    cases hout
    -- the loop starts from an empty list and gives back the items it could not resolve
    have hinv : t.UploadsResolved t₁ ∧ ∃ pending, u = { t with pendingConflicts := pending } ∧
        ∀ item ∈ pending, item ∈ t.pendingConflicts := by
      refine Prog.returns_foldlM
        (P := fun _ tr (s : SyncTask × Nat) =>
          t.UploadsResolved tr ∧ ∃ pending, s.1 = { t with pendingConflicts := pending } ∧
            ∀ item ∈ pending, item ∈ t.pendingConflicts)
        hloop ⟨t.uploadsResolved_nil, [], rfl, by simp⟩ ?_
      intro done x rest tr₁ tr₂ s₁ s₂ hxs hP hbody
      rcases hP with ⟨huploads, pending, hs₁, hpending⟩
      rcases returns_resolveBatchItem hbody with ⟨⟨r, hwrites⟩, pending', hs₂, hpending'⟩
      have hmem : x.2 ∈ t.pendingConflicts := by
        have hx : x ∈ (resolveAllBatch t.pendingConflicts strategy).zip t.pendingConflicts := by
          rw [hxs]
          simp
        exact (List.of_mem_zip hx).2
      have hmore : t.UploadsResolved tr₂ := by
        rcases hwrites with hwrites | rfl
        · rw [hs₁] at hwrites
          exact uploadsResolved_uploadResolved hmem (Uuid.parseStr_toText _) hwrites
        · exact t.uploadsResolved_nil
      refine ⟨?_, pending', by rw [hs₂, hs₁], ?_⟩
      · intro e he
        rcases List.mem_append.mp he with he | he
        · exact huploads e he
        · exact hmore e he
      · intro item hitem
        rcases hpending' item hitem with hold | rfl
        · rw [hs₁] at hold
          exact hpending item hold
        · exact hmem
    exact ⟨by simpa using hinv.1, hinv.2, succeeded, rfl⟩

/-! ### Silent resolutions -/

/-- A resolution is silent when it keeps nothing or has nothing to upload. -/
theorem handleResolveConflict_silent_iff {t t' : SyncTask} {recordId : String}
    {strategy : ResolutionStrategy} {tr : StorageTrace} {events : List SyncEvent}
    (hrun : (t.handleResolveConflict recordId strategy).Returns tr (t', events)) :
    tr = [] ↔ (strategy = .KeepLocal → ∀ id item, Uuid.parseStr recordId = some id →
      (t.pendingConflicts.find? fun c => c.recordId == id) = some item →
      t.uploadFor recordId = none) := by
  rcases (t.returns_handleResolveConflict _ _ _ _).mp hrun with
    ⟨message, hnil, -, hwhy⟩ | ⟨id, item, r, hid, hitem, hr, -⟩
  -- without an upload of the item nothing is called
  · refine ⟨fun _ _ id item hid hitem => ?_, fun _ => hnil⟩
    rcases hwhy with ⟨hnone, -⟩ | ⟨id', hid', hnone, -⟩
    · rw [hid] at hnone
      cases hnone
    · rw [hid] at hid'
      cases hid'
      rw [hitem] at hnone
      cases hnone
  -- only `KeepLocal` uploads anything
  · rcases (t.returns_resolveItem _ _ _ _ _).mp hr with ⟨hstrategy, u, hu, -⟩ | ⟨hstrategy, hnil, -⟩
    · rcases (t.returns_uploadResolved _ _ _ _).mp hu with ⟨hnone, hnil, -⟩ | ⟨record, hsome, hwrite⟩
      · exact ⟨fun _ _ _ _ _ _ => hnone, fun _ => hnil⟩
      · constructor
        · intro hnil
          rw [hwrite] at hnil
          cases hnil
        · intro hnone
          have hupload := hnone hstrategy id item hid hitem
          rw [hsome] at hupload
          cases hupload
    · refine ⟨fun _ hkeep => ?_, fun _ => hnil⟩
      rw [hstrategy] at hkeep
      cases hkeep

/-- The outcome beside an item is the item's own. -/
theorem mem_resolveAllBatch_zip {items : List ConflictItem}
    {strategy : ResolutionStrategy} {x : ResolveOutcome × ConflictItem}
    (hx : x ∈ (resolveAllBatch items strategy).zip items) :
    x ∈ (resolveAllBatch [x.2] strategy).zip [x.2] := by
  induction items with
  | nil => cases hx
  | cons item items ih =>
      rcases List.mem_cons.mp hx with heq | hx
      · rw [heq]
        exact List.mem_singleton_self _
      · exact ih hx

theorem exists_mem_resolveAllBatch_zip {items : List ConflictItem}
    (strategy : ResolutionStrategy) {item : ConflictItem} (hitem : item ∈ items) :
    ∃ outcome, (outcome, item) ∈ (resolveAllBatch items strategy).zip items := by
  induction items with
  | nil => cases hitem
  | cons first items ih =>
      rcases List.mem_cons.mp hitem with heq | hitem
      · rw [heq]
        exact ⟨_, List.mem_cons_self⟩
      · rcases ih hitem with ⟨outcome, hpair⟩
        exact ⟨outcome, List.mem_cons_of_mem _ hpair⟩

/-- A resolution of an item for which the vault data has no upload is silent, and only such
a one is. -/
theorem resolveBatchItem_silent_iff {strategy : ResolutionStrategy} {acc out : SyncTask × Nat}
    {item : ConflictItem} {x : ResolveOutcome × ConflictItem} {tr : StorageTrace}
    (hx : x ∈ (resolveAllBatch [item] strategy).zip [item])
    (hrun : (resolveBatchItem strategy acc x).Returns tr out) :
    out.1.vaultData = acc.1.vaultData ∧
      (tr = [] ↔ (strategy = .KeepLocal → acc.1.uploadFor item.recordId.toText = none)) := by
  cases strategy with
  | KeepLocal =>
      have hpair : x = (⟨item.recordId, .ok (resolveKeepLocal item.currentVersion)⟩, item) :=
        List.mem_singleton.mp hx
      rw [hpair] at hrun
      simp only [resolveBatchItem, Prog.returns_bind] at hrun
      rcases hrun with ⟨t₁, t₂, r, htr, hr, hrest⟩
      -- the answer of the upload does not touch the vault data
      have hkept : t₂ = [] ∧ out.1.vaultData = acc.1.vaultData := by
        cases r with
        | ok v =>
            rcases hrest with ⟨hnil, hout⟩
            refine ⟨hnil, ?_⟩
            rw [hout]
        | error e =>
            rcases hrest with ⟨hnil, hout⟩
            refine ⟨hnil, ?_⟩
            rw [hout]
      have hsame : tr = t₁ := by
        rw [htr, hkept.1, List.append_nil]
      refine ⟨hkept.2, ?_⟩
      rw [hsame]
      rcases (returns_uploadResolved _ _ _ _ _).mp hr with ⟨hnone, hnil, -⟩ | ⟨record, hsome, hwrite⟩
      · exact ⟨fun _ _ => hnone, fun _ => hnil⟩
      · constructor
        · intro hnil
          rw [hwrite] at hnil
          cases hnil
        · intro hnone
          have hupload := hnone rfl
          rw [hsome] at hupload
          cases hupload
  | KeepRemote =>
      unfold resolveBatchItem at hrun
      -- `KeepRemote` takes over what the cycle downloaded already
      cases hresult : x.1.result with
      | error e =>
          rw [hresult] at hrun
          rcases hrun with ⟨hnil, hout⟩
          have hdata : out.1.vaultData = acc.1.vaultData := by rw [hout]
          refine ⟨hdata, fun _ hkeep => ?_, fun _ => hnil⟩
          cases hkeep
      | ok resolved =>
          rw [hresult] at hrun
          rcases hrun with ⟨hnil, hout⟩
          have hdata : out.1.vaultData = acc.1.vaultData := by rw [hout]
          refine ⟨hdata, fun _ hkeep => ?_, fun _ => hnil⟩
          cases hkeep

/-- A batch is silent when no pending item has an upload to keep. -/
theorem handleResolveAll_silent_iff {t t' : SyncTask} {strategy : ResolutionStrategy}
    {tr : StorageTrace} {events : List SyncEvent}
    (hrun : (t.handleResolveAll strategy).Returns tr (t', events)) :
    tr = [] ↔ (strategy = .KeepLocal → ∀ item ∈ t.pendingConflicts,
      t.uploadFor item.recordId.toText = none) := by
  unfold handleResolveAll at hrun
  by_cases hitems : t.pendingConflicts = []
  · simp only [hitems, if_true] at hrun
    rcases hrun with ⟨hnil, -⟩
    rw [hnil, hitems]
    simp
  · simp only [hitems, if_false, Prog.returns_bind] at hrun
    rcases hrun with ⟨t₁, t₂, ⟨u, succeeded⟩, htr, hloop, hrest, -⟩
    have hsame : tr = t₁ := by
      rw [htr, hrest, List.append_nil]
    -- the vault data, and with it the uploads, is the same for every item
    have hinv : u.vaultData = t.vaultData ∧ (t₁ = [] ↔ (strategy = .KeepLocal →
        ∀ x ∈ (resolveAllBatch t.pendingConflicts strategy).zip t.pendingConflicts,
          t.uploadFor x.2.recordId.toText = none)) := by
      refine Prog.returns_foldlM
        (P := fun done tr (s : SyncTask × Nat) => s.1.vaultData = t.vaultData ∧
          (tr = [] ↔ (strategy = .KeepLocal → ∀ x ∈ done,
            t.uploadFor x.2.recordId.toText = none)))
        hloop ⟨rfl, by simp⟩ ?_
      intro done x rest tr₁ tr₂ s₁ s₂ hxs hP hbody
      rcases hP with ⟨hdata, hdone⟩
      have hx : x ∈ (resolveAllBatch [x.2] strategy).zip [x.2] := by
        have hmem : x ∈ (resolveAllBatch t.pendingConflicts strategy).zip t.pendingConflicts := by
          rw [hxs]
          simp
        exact mem_resolveAllBatch_zip hmem
      have hitem := resolveBatchItem_silent_iff hx hbody
      have hupload : s₁.1.uploadFor x.2.recordId.toText = t.uploadFor x.2.recordId.toText := by
        unfold uploadFor
        rw [hdata]
      refine ⟨hitem.1.trans hdata, ?_⟩
      rw [List.append_eq_nil_iff, hdone, hitem.2, hupload]
      constructor
      · intro h hkeep y hy
        rcases List.mem_append.mp hy with hy | hy
        · exact h.1 hkeep y hy
        · rw [List.mem_singleton.mp hy]
          exact h.2 hkeep
      · intro h
        exact ⟨fun hkeep y hy => h hkeep y (List.mem_append_left _ hy),
          fun hkeep => h hkeep x (List.mem_append_right _ (List.mem_singleton_self _))⟩
    rw [hsame, hinv.2]
    constructor
    · intro h hkeep item hitem
      rcases exists_mem_resolveAllBatch_zip strategy hitem with ⟨outcome, hpair⟩
      have hnone : t.uploadFor (outcome, item).2.recordId.toText = none := h hkeep _ hpair
      exact hnone
    · intro h hkeep x hx
      have hmem : x.2 ∈ t.pendingConflicts := (List.of_mem_zip hx).2
      exact h hkeep x.2 hmem

/-! ## Metadata commands -/

omit [Serde] in
theorem returns_handleDownloadMetadata (t : SyncTask) (tr : StorageTrace)
    (out : SyncTask × List SyncEvent) :
    (t.handleDownloadMetadata).Returns tr out ↔
      ∃ read, tr = [StorageOp.readMetadata.answered read] ∧
        out = (t, [match CloudStorage.metadataOfRead read with
          | .ok m => .MetadataDownloaded m
          | .error e => .Failed e.toText t.state]) := by
  unfold handleDownloadMetadata
  rw [CloudStorage.returns_downloadMetadata]
  refine exists_congr fun read => ?_
  cases CloudStorage.metadataOfRead read <;> simp

omit [Serde] in
theorem returns_handlePushMetadataAtomic (t : SyncTask) (m : CloudMetadata) (v : Nat)
    (tr : StorageTrace) (out : SyncTask × List SyncEvent) :
    (t.handlePushMetadataAtomic m v).Returns tr out ↔
      ∃ r, (CloudStorage.pushMetadataAtomic m v).Returns tr r ∧
        out = (t, [match r with
          | .ok () => .MetadataPushed
          | .error e => .Failed e.toText t.state]) := by
  unfold handlePushMetadataAtomic
  rw [Prog.returns_bind]
  constructor
  · rintro ⟨t₁, t₂, r, rfl, hr, h⟩
    refine ⟨r, ?_⟩
    cases r <;> rcases h with ⟨rfl, rfl⟩ <;> exact ⟨by simpa using hr, rfl⟩
  · rintro ⟨r, hr, rfl⟩
    refine ⟨tr, [], r, by simp, hr, ?_⟩
    cases r <;> exact ⟨rfl, rfl⟩

end

/-! ## Errors -/

@[simp] theorem state_scheduleRetry (t : SyncTask) (e : SyncError) :
    (t.scheduleRetry e).stateMachine = t.stateMachine := by
  unfold scheduleRetry
  split <;> rfl

@[simp] theorem paused_scheduleRetry (t : SyncTask) (e : SyncError) :
    (t.scheduleRetry e).paused = t.paused := by
  unfold scheduleRetry
  split <;> rfl

theorem errorTrigger_cases (t : SyncTask) (e : SyncError) :
    t.errorTrigger e = .OtherError ∨ t.errorTrigger e = .MaxRetriesExceeded := by
  unfold errorTrigger
  cases t.backoffTimer.shouldRetry e <;> cases e <;> simp

/-- The table has no way out of `Pulling` for an exhausted retry, so the task stays there. -/
theorem handleError_of_pulling (t : SyncTask) (e : SyncError) (h : t.state = .Pulling) :
    (t.errorTrigger e = .OtherError ∧ (t.handleError e).1.state = .Error) ∨
      (t.errorTrigger e = .MaxRetriesExceeded ∧ (t.handleError e).1 = t) := by
  have hstate : t.stateMachine.state = .Pulling := h
  rcases t.errorTrigger_cases e with htrigger | htrigger
  · left
    refine ⟨htrigger, ?_⟩
    simp [handleError, htrigger, SyncStateMachine.transition,
      SyncStateMachine.computeNextState, SyncStateMachine.nextState, hstate, state]
  · right
    refine ⟨htrigger, ?_⟩
    simp [handleError, htrigger, SyncStateMachine.transition,
      SyncStateMachine.computeNextState, SyncStateMachine.nextState, hstate]

@[simp] theorem paused_handleError (t : SyncTask) (e : SyncError) :
    (t.handleError e).1.paused = t.paused := by
  unfold handleError
  split
  · split
    · simp
    · rfl
  · rfl

theorem state_handleShutdown (t : SyncTask) : t.handleShutdown.1.state = .ShuttingDown := by
  simp [handleShutdown, SyncStateMachine.transition, SyncStateMachine.computeNextState,
    SyncStateMachine.nextState, state]

/-! ## Pipeline results -/

@[simp] theorem stateMachine_storeConflicts (t : SyncTask) (ctx : PipelineContext) :
    (t.storeConflicts ctx).stateMachine = t.stateMachine := by
  unfold storeConflicts
  split <;> rfl

@[simp] theorem paused_storeConflicts (t : SyncTask) (ctx : PipelineContext) :
    (t.storeConflicts ctx).paused = t.paused := by
  unfold storeConflicts
  split <;> rfl

@[simp] theorem nextRetry_storeConflicts (t : SyncTask) (ctx : PipelineContext) :
    (t.storeConflicts ctx).nextRetry = t.nextRetry := by
  unfold storeConflicts
  split <;> rfl

/-- A result other than an error brings the task back to `Idle`. -/
theorem handlePipelineResult_of_not_error (t : SyncTask)
    (outcome : PipelineExecutionOutcome) (h : ∀ e, outcome.result ≠ .Error e) :
    (t.handlePipelineResult outcome).1.state = .Idle ∧
      (t.handlePipelineResult outcome).1.nextRetry = t.nextRetry := by
  unfold handlePipelineResult
  cases hresult : outcome.result with
  | Completed => exact ⟨rfl, rfl⟩
  | NoChanges => exact ⟨rfl, rfl⟩
  | ConflictsDetected ids => exact ⟨rfl, rfl⟩
  | Error e => exact absurd hresult (h e)

theorem handlePipelineResult_error (t : SyncTask) (outcome : PipelineExecutionOutcome)
    {e : SyncError} (h : outcome.result = .Error e) :
    t.handlePipelineResult outcome = t.handleError e := by
  unfold handlePipelineResult
  rw [h]

@[simp] theorem result_executionOutcome (ctx : PipelineContext) (result : PipelineResult) :
    (executionOutcome ctx result).result = result := rfl

end SyncTask

/-! ## The loop -/

/-- What the task's loop reacts to. -/
inductive TaskInput
  | command (c : SyncCommand)
  | timer

/-- The inputs whose handlers check the connection and run the pipeline. -/
def TaskInput.runsCycle : TaskInput → Bool
  | .command (.TriggerSync _) => true
  | .command .PullOnly => true
  | .command _ => false
  | .timer => true

/-- One turn of the loop: its input, the storage operations it made, the events it emitted. -/
structure TaskLabel where
  input : TaskInput
  trace : StorageTrace
  events : List SyncEvent

namespace SyncTask

/-- The vault data a turn of the loop works with. -/
def receive (t : SyncTask) : TaskInput → SyncTask
  | .command (.TriggerSync data) => { t with vaultData := data }
  | _ => t

section

variable [Codec] [Serde]

/-- A turn of the loop; after a shutdown there is none. -/
def loopStep (t : SyncTask) (l : TaskLabel) (t' : SyncTask) : Prop :=
  t.state ≠ .ShuttingDown ∧
    match l.input with
    | .command c => (t.handleCommand c).Returns l.trace (t', l.events)
    | .timer => t.nextRetry = true ∧ (t.handleTimer).Returns l.trace (t', l.events)

end

end SyncTask

end OakKeyring
