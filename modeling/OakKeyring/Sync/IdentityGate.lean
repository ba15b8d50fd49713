import OakKeyring.Sync.TaskSpec
import OakKeyring.Sync.PipelineSpec
import OakKeyring.Samples.Store

/-!
# The vault identity gate

The token of the pulled metadata is compared with the local one inside the pull stage, behind
the shortcut for equal metadata versions, and nowhere else. What gets past it is the shortcut
itself and the uploads of conflict resolution.
-/

namespace OakKeyring

open Effect Transition

/-- The inputs of the task that sync records. -/
def TaskInput.Syncs : TaskInput → Prop
  | .command (.TriggerSync _) => True
  | .command .PullOnly => True
  | .command (.ResolveConflict _ _) => True
  | .command (.ResolveAllConflicts _) => True
  | .command _ => False
  | .timer => True

/-- The operations that move records or change the metadata. -/
def StorageOp.Transfers : StorageOp → Prop
  | .readRecord _ => True
  | .writeRecord _ _ => True
  | .writeMetadata _ => True
  | _ => False

/-- The report of a finished sync. -/
def SyncEvent.IsCompletion : SyncEvent → Prop
  | .Completed .. => True
  | _ => False

instance : DecidablePred SyncEvent.IsCompletion
  | .Completed .. => isTrue trivial
  | .Failed .. => isFalse id
  | .ConflictResolved _ => isFalse id
  | .AllConflictsResolved _ => isFalse id
  | .StateChanged .. => isFalse id
  | .MetadataPushed => isFalse id
  | .MetadataDownloaded _ => isFalse id
  | .ShutdownComplete => isFalse id
  | .Paused => isFalse id
  | .Resumed => isFalse id

/-- The pull stage takes the version for the content: nothing is compared any further. -/
def PipelineContext.TakesShortcut (ctx : PipelineContext) (m : CloudMetadata) : Prop :=
  m.metadataVersion = ctx.localMetadataVersion ∧ ctx.hasPendingUploads = false ∧
    ctx.missingRemoteIds m = []

namespace SyncTask

section

variable [Codec] [Serde]

/-- The turn respects the gate: it moves no record, changes no metadata, completes no sync, and
once it has the metadata it ends in the mismatch of the two tokens. -/
structure Refuses (t : SyncTask) (m : CloudMetadata) (l : TaskLabel) : Prop where
  noTransfer : ∀ e ∈ l.trace, ¬ e.call.Transfers
  noCompletion : ∀ event ∈ l.events, ¬ event.IsCompletion
  mismatch : StorageOp.readMetadata.answered (.ok m) ∈ l.trace → m.validate = .ok () →
    ∃ s, SyncEvent.Failed
      (SyncError.VaultIdentityMismatch t.pipelineContext.localVaultToken
        m.vaultIdentityToken).toText s ∈ l.events

/-- Nothing gets around the gate: a cycle that obtains the metadata does not take the shortcut,
and a resolution that keeps local records finds no upload for a pending conflict. -/
def Gated (t : SyncTask) (m : CloudMetadata) (l : TaskLabel) : Prop :=
  match l.input with
  | .command (.ResolveConflict recordId .KeepLocal) =>
      ∀ id item, Uuid.parseStr recordId = some id →
        (t.pendingConflicts.find? fun c => c.recordId == id) = some item →
        t.uploadFor recordId = none
  | .command (.ResolveConflict _ .KeepRemote) => True
  | .command (.ResolveAllConflicts .KeepLocal) =>
      ∀ item ∈ t.pendingConflicts, t.uploadFor item.recordId.toText = none
  | .command (.ResolveAllConflicts .KeepRemote) => True
  | _ => StorageOp.readMetadata.answered (.ok m) ∈ l.trace → m.validate = .ok () →
      ¬ t.pipelineContext.TakesShortcut m

/-! ## Cycles -/

/-- What a pipeline run with a foreign token does, once it has the metadata. -/
theorem returns_execute_foreign {ctx ctx' : PipelineContext} {result : PipelineResult}
    {tr : StorageTrace} {m : CloudMetadata} (hvalid : m.validate = .ok ())
    (hforeign : m.vaultIdentityToken ≠ ctx.localVaultToken)
    (hrun : (SyncPipeline.execute ctx).Returns (StorageOp.readMetadata.answered (.ok m) :: tr)
      (ctx', result)) :
    tr = [] ∧ ctx' = ctx ∧
      ((ctx.TakesShortcut m ∧ result = .NoChanges) ∨
        (¬ ctx.TakesShortcut m ∧ result = .Error
          (.VaultIdentityMismatch ctx.localVaultToken m.vaultIdentityToken))) := by
  rcases (SyncPipeline.returns_execute _ _ _ _).mp hrun with ⟨read, rest, htr, h⟩
  injection htr with hread htail
  injection hread with _ hanswer
  have hok : (.ok m : Except SyncError CloudMetadata) = read := hanswer
  have hsome : CloudStorage.metadataOfRead (.ok m) = .ok (some m) :=
    (CloudStorage.metadataOfRead_eq_some_iff (.ok m) m).mpr ⟨rfl, hvalid⟩
  -- the shortcut is taken before the tokens are compared
  by_cases hshort : ctx.TakesShortcut m
  · have hprepare : SyncPipeline.prepare ctx read = (ctx, .NoChanges) := by
      have hcond : m.metadataVersion = ctx.localMetadataVersion ∧
        ctx.hasPendingUploads = false ∧ ctx.missingRemoteIds m = [] := hshort
      rw [← hok, SyncPipeline.prepare, hsome]
      simp [PullMetadataStage.receive, PullMetadataStage.receiveMetadata, hcond]
    rw [hprepare, if_neg (by simp)] at h
    exact ⟨htail.trans h.1, h.2.1, Or.inl ⟨hshort, h.2.2⟩⟩
  · have hprepare : SyncPipeline.prepare ctx read = (ctx, .Error
        (.VaultIdentityMismatch ctx.localVaultToken m.vaultIdentityToken)) := by
      have hcond : ¬ (m.metadataVersion = ctx.localMetadataVersion ∧
        ctx.hasPendingUploads = false ∧ ctx.missingRemoteIds m = []) := hshort
      rw [← hok, SyncPipeline.prepare, hsome]
      simp only [PullMetadataStage.receive, PullMetadataStage.receiveMetadata, if_neg hcond,
        if_pos hforeign]
    rw [hprepare, if_neg (by simp)] at h
    exact ⟨htail.trans h.1, h.2.1, Or.inr ⟨hshort, h.2.2⟩⟩

/-- A pipeline run whose metadata read is of no use ends with an error and reads nothing else. -/
theorem returns_execute_unread {ctx ctx' : PipelineContext} {result : PipelineResult}
    {read : Except SyncError CloudMetadata} {e : SyncError} {tr : StorageTrace}
    (hread : CloudStorage.metadataOfRead read = .error e)
    (hrun : (SyncPipeline.execute ctx).Returns (StorageOp.readMetadata.answered read :: tr)
      (ctx', result)) :
    tr = [] ∧ ctx' = ctx ∧ result = .Error e := by
  rcases (SyncPipeline.returns_execute _ _ _ _).mp hrun with ⟨read', rest, htr, h⟩
  injection htr with hevent htail
  injection hevent with _ hanswer
  have hsame : read = read' := hanswer
  have hprepare : SyncPipeline.prepare ctx read' = (ctx, .Error e) := by
    rw [← hsame, SyncPipeline.prepare, hread]
    rfl
  rw [hprepare, if_neg (by simp)] at h
  exact ⟨htail.trans h.1, h.2.1, h.2.2⟩

end

/-- An error is never a completion. -/
theorem not_isCompletion_handleError (t : SyncTask) (e : SyncError) :
    ∀ event ∈ (t.handleError e).2, ¬ event.IsCompletion := by
  unfold handleError
  split
  · dsimp only
    split <;> simp [SyncEvent.IsCompletion]
  · simp [SyncEvent.IsCompletion]

/-- The mismatch is reported by its text. -/
theorem mismatch_mem_handleError {t : SyncTask} (h : t.state = .Pulling) (l r : String) :
    ∃ s, SyncEvent.Failed (SyncError.VaultIdentityMismatch l r).toText s ∈
      (t.handleError (.VaultIdentityMismatch l r)).2 := by
  have hstate : t.stateMachine.state = .Pulling := h
  have htrigger : t.errorTrigger (.VaultIdentityMismatch l r) = .OtherError := rfl
  simp [handleError, htrigger, SyncStateMachine.transition, SyncStateMachine.computeNextState,
    SyncStateMachine.nextState, hstate]

section

variable [Codec] [Serde]

omit [Serde] in
/-- A store that has metadata answers with it, or with an error that is not a missing file. -/
theorem metadataOfRead_of_stored {s s' : CloudStore} {m : CloudMetadata}
    {read : Except SyncError CloudMetadata} (hmetadata : s.metadata = some m)
    (hstep : StorageStep s .readMetadata read s') :
    read = .ok m ∨ ∃ e, read = .error e ∧ CloudStorage.metadataOfRead read = .error e := by
  cases hstep with
  | readMetadata m' h =>
      have hsame : m' = m := by
        rw [hmetadata] at h
        exact (Option.some.inj h).symm
      exact Or.inl (congrArg _ hsame)
  | noMetadata h =>
      rw [hmetadata] at h
      cases h
  | readMetadataFault e he =>
      refine Or.inr ⟨e, rfl, ?_⟩
      cases e with
      | RecordNotFound _ => exact absurd he id
      | _ => rfl

/-- What a pipeline run makes of the foreign metadata of the store: it cannot use it, it takes the
shortcut, or it reports the two tokens. -/
theorem execute_foreign {ctx ctx' : PipelineContext} {result : PipelineResult}
    {m : CloudMetadata} {tr : StorageTrace} {s s' : CloudStore} (hmetadata : s.metadata = some m)
    (hforeign : m.vaultIdentityToken ≠ ctx.localVaultToken)
    (hrun : (SyncPipeline.execute ctx).Returns tr (ctx', result)) (hpath : Path storageEnv s tr s') :
    (∀ e ∈ tr, ¬ e.call.Transfers) ∧
      (((StorageOp.readMetadata.answered (.ok m) ∈ tr → m.validate ≠ .ok ()) ∧
          ∃ e, result = .Error e) ∨
        (StorageOp.readMetadata.answered (.ok m) ∈ tr ∧ m.validate = .ok () ∧
          ctx.TakesShortcut m ∧ result = .NoChanges) ∨
        (¬ ctx.TakesShortcut m ∧
          result = .Error (.VaultIdentityMismatch ctx.localVaultToken m.vaultIdentityToken))) := by
  rcases (SyncPipeline.returns_execute _ _ _ _).mp hrun with ⟨read, rest, htr, -⟩
  rw [htr] at hrun hpath ⊢
  rcases hpath with ⟨u, hread, -⟩
  cases hmeta : CloudStorage.metadataOfRead read with
  | error e =>
      rcases returns_execute_unread hmeta hrun with ⟨hnil, -, hresult⟩
      rw [hnil]
      refine ⟨by simp [StorageOp.answered, StorageOp.Transfers], Or.inl ⟨?_, e, hresult⟩⟩
      intro hmem hvalid
      -- the metadata that were read are not valid, or they would be known
      injection List.mem_singleton.mp hmem with _ hanswer
      have hok : (.ok m : Except SyncError CloudMetadata) = read := hanswer
      rw [← hok, (CloudStorage.metadataOfRead_eq_some_iff _ m).mpr ⟨rfl, hvalid⟩] at hmeta
      cases hmeta
  | ok known =>
      -- what was read is what the store has
      have hok : read = .ok m := by
        rcases metadataOfRead_of_stored hmetadata hread with hok | ⟨e, -, herror⟩
        · exact hok
        · cases hmeta.symm.trans herror
      have hvalid : m.validate = .ok () := by
        cases hcheck : m.validate with
        | ok u => rfl
        | error e =>
            rw [hok] at hmeta
            simp only [CloudStorage.metadataOfRead, hcheck] at hmeta
            cases hmeta
      rw [hok] at hrun ⊢
      rcases returns_execute_foreign hvalid hforeign hrun with
        ⟨hnil, -, ⟨hshort, hresult⟩ | ⟨hshort, hresult⟩⟩
      all_goals
        rw [hnil]
        refine ⟨by simp [StorageOp.answered, StorageOp.Transfers], Or.inr ?_⟩
      · exact Or.inl ⟨List.mem_singleton_self _, hvalid, hshort, hresult⟩
      · exact Or.inr ⟨hshort, hresult⟩

/-- What a cycle makes of foreign metadata. -/
inductive ForeignCycle (t : SyncTask) (m : CloudMetadata) (tr : StorageTrace)
    (events : List SyncEvent) : Prop
  | unread (hread : StorageOp.readMetadata.answered (.ok m) ∈ tr → m.validate ≠ .ok ())
      (hquiet : ∀ event ∈ events, ¬ event.IsCompletion)
  | shortcut (hread : StorageOp.readMetadata.answered (.ok m) ∈ tr) (hvalid : m.validate = .ok ())
      (hshort : t.pipelineContext.TakesShortcut m)
      (hdone : ∃ event ∈ events, event.IsCompletion)
  | refused (hshort : ¬ t.pipelineContext.TakesShortcut m)
      (hquiet : ∀ event ∈ events, ¬ event.IsCompletion)
      (hfailed : ∃ s, SyncEvent.Failed
        (SyncError.VaultIdentityMismatch t.pipelineContext.localVaultToken
          m.vaultIdentityToken).toText s ∈ events)

/-- A cycle that starts in `Pulling` moves nothing while the store has foreign metadata. -/
theorem foreign_runCycle {t t' : SyncTask} {m : CloudMetadata} {tr : StorageTrace}
    {events : List SyncEvent} {s s' : CloudStore} (hpulling : t.state = .Pulling)
    (hmetadata : s.metadata = some m)
    (hforeign : m.vaultIdentityToken ≠ t.pipelineContext.localVaultToken)
    (hrun : (t.runCycle).Returns tr (t', events)) (hpath : Path storageEnv s tr s') :
    (∀ e ∈ tr, ¬ e.call.Transfers) ∧ ForeignCycle t m tr events := by
  rcases (t.returns_runCycle tr _).mp hrun with ⟨e, htr, hout⟩ | ⟨rest, ctx, result, htr, hpipe, hout⟩
  -- the connection is refused
  · have hevents : events = (t.handleError e).2 := congrArg Prod.snd hout
    rw [htr, hevents]
    refine ⟨by simp [StorageOp.answered, StorageOp.Transfers],
      .unread ?_ (not_isCompletion_handleError t e)⟩
    intro hmem
    injection List.mem_singleton.mp hmem with hcall
    cases hcall
  · have hevents : events =
        ((t.storeConflicts ctx).handlePipelineResult (executionOutcome ctx result)).2 :=
      congrArg Prod.snd hout
    have hstored : (t.storeConflicts ctx).state = .Pulling := by
      rw [state, stateMachine_storeConflicts]
      exact hpulling
    rw [htr] at hpath ⊢
    rcases hpath with ⟨u, hlist, hpath⟩
    have hu : u.metadata = some m := by
      replace hlist : StorageStep s .listRecords (.ok ()) u := hlist
      cases hlist with
      | list => exact hmetadata
    rcases execute_foreign hu hforeign hpipe hpath with ⟨hnone, hcases⟩
    refine ⟨?_, ?_⟩
    · intro e he
      rcases List.mem_cons.mp he with rfl | he
      · exact id
      · exact hnone e he
    rcases hcases with ⟨hread, e, hresult⟩ | ⟨hread, hvalid, hshort, hresult⟩ | ⟨hshort, hresult⟩
    · refine .unread ?_ ?_
      · intro hmem
        rcases List.mem_cons.mp hmem with heq | hmem
        · injection heq with hcall
          cases hcall
        · exact hread hmem
      · rw [hevents, handlePipelineResult_error _ _ (hresult : _ = PipelineResult.Error e)]
        exact not_isCompletion_handleError _ e
    -- the shortcut: the sync completes
    · refine .shortcut (List.mem_cons_of_mem _ hread) hvalid hshort ?_
      rw [hevents, hresult]
      exact ⟨_, List.mem_cons_of_mem _ (List.mem_singleton_self _), trivial⟩
    · rw [hevents, handlePipelineResult_error _ _ (hresult : _ = PipelineResult.Error _)]
      exact .refused hshort (not_isCompletion_handleError _ _) (mismatch_mem_handleError hstored _ _)

/-- A cycle that starts in `Pulling` while the store has foreign metadata. -/
theorem refuses_runCycle_iff {t t' : SyncTask} {m : CloudMetadata} {tr : StorageTrace}
    {events : List SyncEvent} {s s' : CloudStore} (hpulling : t.state = .Pulling)
    (hmetadata : s.metadata = some m)
    (hforeign : m.vaultIdentityToken ≠ t.pipelineContext.localVaultToken)
    (hrun : (t.runCycle).Returns tr (t', events)) (hpath : Path storageEnv s tr s') :
    ((∀ e ∈ tr, ¬ e.call.Transfers) ∧ (∀ event ∈ events, ¬ event.IsCompletion) ∧
      (StorageOp.readMetadata.answered (.ok m) ∈ tr → m.validate = .ok () →
        ∃ s, SyncEvent.Failed
          (SyncError.VaultIdentityMismatch t.pipelineContext.localVaultToken
            m.vaultIdentityToken).toText s ∈ events)) ↔
      (StorageOp.readMetadata.answered (.ok m) ∈ tr → m.validate = .ok () →
        ¬ t.pipelineContext.TakesShortcut m) := by
  rcases foreign_runCycle hpulling hmetadata hforeign hrun hpath with ⟨hnone, hcycle⟩
  cases hcycle with
  | unread hread hquiet =>
      constructor
      · intro _ hmem hvalid
        exact absurd hvalid (hread hmem)
      · intro _
        exact ⟨hnone, hquiet, fun hmem hvalid => absurd hvalid (hread hmem)⟩
  | shortcut hread hvalid hshort hdone =>
      constructor
      · intro hrefuses
        rcases hdone with ⟨event, hevent, hcompletion⟩
        exact absurd hcompletion (hrefuses.2.1 event hevent)
      · intro hgated
        exact absurd hshort (hgated hread hvalid)
  | refused hshort hquiet hfailed =>
      exact ⟨fun _ _ _ => hshort, fun _ => ⟨hnone, hquiet, fun _ _ => hfailed⟩⟩

/-- The statement about a cycle, for a turn that reports a transition before it or does not
start one. -/
theorem refuses_startCycle_iff {t t' : SyncTask} {trigger : SyncTrigger} {m : CloudMetadata}
    {tr : StorageTrace} {events : List SyncEvent} {s s' : CloudStore}
    (htrigger : ∀ machine, t.stateMachine.transition trigger = .ok machine →
      machine.state = .Pulling)
    (hmetadata : s.metadata = some m)
    (hforeign : m.vaultIdentityToken ≠ t.pipelineContext.localVaultToken)
    (hrun : (t.transitionAndRun trigger).Returns tr (t', events))
    (hpath : Path storageEnv s tr s') :
    ((∀ e ∈ tr, ¬ e.call.Transfers) ∧ (∀ event ∈ events, ¬ event.IsCompletion) ∧
      (StorageOp.readMetadata.answered (.ok m) ∈ tr → m.validate = .ok () →
        ∃ s, SyncEvent.Failed
          (SyncError.VaultIdentityMismatch t.pipelineContext.localVaultToken
            m.vaultIdentityToken).toText s ∈ events)) ↔
      (StorageOp.readMetadata.answered (.ok m) ∈ tr → m.validate = .ok () →
        ¬ t.pipelineContext.TakesShortcut m) := by
  rcases (t.returns_transitionAndRun _ tr _).mp hrun with
    ⟨e, -, hnil, hout⟩ | ⟨machine, u, evs, hmachine, hcycle, hout⟩
  · cases hout
    constructor
    · intro _ hmem
      rw [hnil] at hmem
      cases hmem
    · intro _
      refine ⟨?_, ?_, ?_⟩
      · intro e he
        rw [hnil] at he
        cases he
      · simp [SyncEvent.IsCompletion]
      · intro hmem
        rw [hnil] at hmem
        cases hmem
  · cases hout
    have hcycle' := refuses_runCycle_iff (t := { t with stateMachine := machine })
      (htrigger machine hmachine) hmetadata hforeign hcycle hpath
    have hsame : SyncTask.pipelineContext { t with stateMachine := machine } = t.pipelineContext :=
      rfl
    rw [hsame] at hcycle'
    refine Iff.trans ?_ hcycle'
    simp [SyncEvent.IsCompletion]

omit [Serde] in
/-- A turn that makes no operation and completes nothing refuses. -/
theorem refuses_of_quiet {t : SyncTask} {m : CloudMetadata} {l : TaskLabel}
    (htrace : ∀ e ∈ l.trace, ¬ e.call.Transfers ∧ e.call ≠ .readMetadata)
    (hevents : ∀ event ∈ l.events, ¬ event.IsCompletion) : t.Refuses m l where
  noTransfer e he := (htrace e he).1
  noCompletion := hevents
  mismatch hmem := absurd rfl (htrace _ hmem).2

/-! ## Resolutions -/

omit [Codec] [Serde] in
/-- The triggers of a cycle lead to `Pulling`. -/
theorem pulling_of_transition {machine machine' : SyncStateMachine} {trigger : SyncTrigger}
    (htrigger : trigger = .TriggerSync ∨ trigger = .PullOnly ∨ trigger = .BackoffExpired)
    (h : machine.transition trigger = .ok machine') : machine'.state = .Pulling := by
  rw [SyncStateMachine.transition_ok_iff] at h
  rcases h with ⟨target, htarget, hmachine⟩
  have hpulling : target = .Pulling := by
    unfold SyncStateMachine.nextState at htarget
    rcases htrigger with rfl | rfl | rfl <;> cases hstate : machine.state <;>
      simp [hstate] at htarget <;> first | exact htarget.symm | exact htarget.2.symm
  rw [hmachine]
  exact hpulling

omit [Serde] in
/-- A resolution respects the gate exactly when it is silent. -/
theorem refuses_resolution_iff {t : SyncTask} {m : CloudMetadata} {l : TaskLabel}
    (huploads : ∀ e ∈ l.trace, e.call.Transfers)
    (hevents : ∀ event ∈ l.events, ¬ event.IsCompletion) : t.Refuses m l ↔ l.trace = [] := by
  constructor
  · intro hrefuses
    by_contra hsome
    rcases List.exists_mem_of_ne_nil l.trace hsome with ⟨e, he⟩
    exact hrefuses.noTransfer e he (huploads e he)
  · intro hnil
    refine refuses_of_quiet ?_ hevents
    intro e he
    rw [hnil] at he
    cases he

omit [Codec] [Serde] in
/-- The operations of resolutions are uploads. -/
theorem UploadsResolved.transfers {t : SyncTask} {tr : StorageTrace} (h : t.UploadsResolved tr) :
    ∀ e ∈ tr, StorageOp.Transfers (Event.call e) := by
  intro e he
  rcases h e he with ⟨item, -, recordId, record, -, -, hcall⟩
  rw [hcall]
  trivial

theorem refuses_handleResolveConflict_iff {t t' : SyncTask} {m : CloudMetadata}
    {recordId : String} {strategy : ResolutionStrategy} {tr : StorageTrace}
    {events : List SyncEvent}
    (hrun : (t.handleResolveConflict recordId strategy).Returns tr (t', events)) :
    t.Refuses m
        { input := .command (.ResolveConflict recordId strategy)
          trace := tr
          events := events } ↔ tr = [] := by
  have huploads := (uploadsResolved_handleResolveConflict hrun).1.transfers
  refine refuses_resolution_iff huploads ?_
  rcases (t.returns_handleResolveConflict _ _ _ _).mp hrun with
    ⟨message, -, hout, -⟩ | ⟨id, item, r, -, -, -, hout⟩
  · cases hout
    simp [SyncEvent.IsCompletion]
  · cases r <;> cases hout <;> simp [SyncEvent.IsCompletion]

theorem refuses_handleResolveAll_iff {t t' : SyncTask} {m : CloudMetadata}
    {strategy : ResolutionStrategy} {tr : StorageTrace} {events : List SyncEvent}
    (hrun : (t.handleResolveAll strategy).Returns tr (t', events)) :
    t.Refuses m
        { input := .command (.ResolveAllConflicts strategy)
          trace := tr
          events := events } ↔ tr = [] := by
  rcases returns_handleResolveAll hrun with ⟨huploads, -, count, hcount⟩
  refine refuses_resolution_iff huploads.transfers ?_
  intro event hevent
  have hevent' : event ∈ events := hevent
  rw [hcount, List.mem_singleton] at hevent'
  rw [hevent']
  exact id

/-! ## The gate -/

/-- The statement about a cycle, for a trigger that the task may drop. -/
theorem refuses_trigger_iff {t t' : SyncTask} {trigger : SyncTrigger} {m : CloudMetadata}
    {tr : StorageTrace} {events : List SyncEvent} {s s' : CloudStore}
    (htrigger : trigger = .TriggerSync ∨ trigger = .PullOnly ∨ trigger = .BackoffExpired)
    (hmetadata : s.metadata = some m)
    (hforeign : m.vaultIdentityToken ≠ t.pipelineContext.localVaultToken)
    (hrun : (t.startCycle trigger).Returns tr (t', events))
    (hpath : Path storageEnv s tr s') :
    ((∀ e ∈ tr, ¬ e.call.Transfers) ∧ (∀ event ∈ events, ¬ event.IsCompletion) ∧
      (StorageOp.readMetadata.answered (.ok m) ∈ tr → m.validate = .ok () →
        ∃ s, SyncEvent.Failed
          (SyncError.VaultIdentityMismatch t.pipelineContext.localVaultToken
            m.vaultIdentityToken).toText s ∈ events)) ↔
      (StorageOp.readMetadata.answered (.ok m) ∈ tr → m.validate = .ok () →
        ¬ t.pipelineContext.TakesShortcut m) := by
  rcases (t.returns_startCycle trigger tr _).mp hrun with ⟨-, hnil, hout⟩ | ⟨-, -, hcycle⟩
  · cases hout
    rw [hnil]
    simp
  · exact refuses_startCycle_iff (fun machine => pulling_of_transition htrigger) hmetadata
      hforeign hcycle hpath

/-- A turn on a store with foreign metadata respects the gate exactly when nothing gets around
it. -/
theorem refuses_iff_gated {t t' : SyncTask} {l : TaskLabel} {m : CloudMetadata}
    {s s' : CloudStore} (hsyncs : l.input.Syncs) (hmetadata : s.metadata = some m)
    (hforeign : m.vaultIdentityToken ≠ (t.receive l.input).pipelineContext.localVaultToken)
    (hstep : loopStep t l t') (hpath : Path storageEnv s l.trace s') :
    (t.receive l.input).Refuses m l ↔ (t.receive l.input).Gated m l := by
  rcases l with ⟨input, tr, events⟩
  rcases hstep with ⟨-, hstep⟩
  -- the three inputs that start a cycle
  have hcycle : ∀ u : SyncTask,
      (((∀ e ∈ tr, ¬ e.call.Transfers) ∧ (∀ event ∈ events, ¬ event.IsCompletion) ∧
        (StorageOp.readMetadata.answered (.ok m) ∈ tr → m.validate = .ok () →
          ∃ s, SyncEvent.Failed
            (SyncError.VaultIdentityMismatch u.pipelineContext.localVaultToken
              m.vaultIdentityToken).toText s ∈ events)) ↔
        u.Refuses m { input := input, trace := tr, events := events }) := by
    intro u
    exact ⟨fun h => ⟨h.1, h.2.1, h.2.2⟩, fun h => ⟨h.noTransfer, h.noCompletion, h.mismatch⟩⟩
  cases input with
  | timer =>
      have hrun := refuses_startCycle_iff (t := { t with nextRetry := false })
        (fun machine => pulling_of_transition (Or.inr (Or.inr rfl))) hmetadata hforeign
        hstep.2 hpath
      exact (hcycle _).symm.trans hrun
  | command c =>
      cases c with
      | TriggerSync data =>
          have hrun := refuses_trigger_iff (t := { t with vaultData := data }) (Or.inl rfl)
            hmetadata hforeign hstep hpath
          exact (hcycle _).symm.trans hrun
      | PullOnly =>
          have hrun := refuses_trigger_iff (Or.inr (Or.inl rfl)) hmetadata hforeign hstep hpath
          exact (hcycle _).symm.trans hrun
      -- a resolution respects the gate when it uploads nothing
      | ResolveConflict recordId strategy =>
          refine (refuses_handleResolveConflict_iff hstep).trans
            ((handleResolveConflict_silent_iff hstep).trans ?_)
          cases strategy with
          | KeepLocal => exact ⟨fun h => h rfl, fun h _ => h⟩
          | KeepRemote => exact ⟨fun _ => trivial, fun _ h => by cases h⟩
      | ResolveAllConflicts strategy =>
          refine (refuses_handleResolveAll_iff hstep).trans
            ((handleResolveAll_silent_iff hstep).trans ?_)
          cases strategy with
          | KeepLocal => exact ⟨fun h => h rfl, fun h _ => h⟩
          | KeepRemote => exact ⟨fun _ => trivial, fun _ h => by cases h⟩
      | Pause => exact absurd hsyncs id
      | Resume => exact absurd hsyncs id
      | PushMetadataAtomic metadata expectedVersion => exact absurd hsyncs id
      | DownloadMetadata => exact absurd hsyncs id
      | Shutdown => exact absurd hsyncs id

end

/-! ### Two vaults with one metadata version -/

section

/-- The snapshot of an empty vault that has seen metadata version 3. -/
def strangerData : SyncVaultData where
  localRecords := []
  uploads := []
  localMetadataVersion := 3
  lastRemoteMetadata := none
  localVaultToken := "other"

/-- The cloud of another empty vault, also at version 3. -/
def strangerStore : CloudStore where
  metadata := some { Sample.metadata 3 (Sample.info 1 "checksum") with records := ∅ }
  records := fun _ => none

attribute [local instance] Sample.codec Sample.serde

/-- The sync of the one vault with the cloud of the other. -/
def strangerTurn : TaskLabel :=
  let program := (new (SyncStateMachine.new 5)).handleCommand (.TriggerSync (some strangerData))
  { input := .command (.TriggerSync (some strangerData))
    trace := runTrace (CloudStore.serve Sample.instant) program strangerStore
    events := (run (CloudStore.serve Sample.instant) program strangerStore).1.2 }

theorem strangerTurn_step : ∃ t', loopStep (new (SyncStateMachine.new 5)) strangerTurn t' :=
  ⟨_, by decide, returns_runTrace (CloudStore.serve Sample.instant) _ strangerStore⟩

/-- The rule at the sync with the other vault's cloud. -/
theorem refuses_iff_gated_stranger :
    let t := (new (SyncStateMachine.new 5)).receive strangerTurn.input
    let m := { Sample.metadata 3 (Sample.info 1 "checksum") with records := ∅ }
    t.Refuses m strangerTurn ↔ t.Gated m strangerTurn := by
  rcases strangerTurn_step with ⟨t', hstep⟩
  exact refuses_iff_gated trivial rfl (by decide) hstep
    (CloudStore.path_serve Sample.instant _ strangerStore)

/-- The sync is reported as completed. -/
theorem stranger_sync_completes :
    ¬ ∀ (t t' : SyncTask) (l : TaskLabel) (m : CloudMetadata) (s s' : CloudStore),
      l.input.Syncs → s.metadata = some m →
      m.vaultIdentityToken ≠ (t.receive l.input).pipelineContext.localVaultToken →
      loopStep t l t' → Path storageEnv s l.trace s' → (t.receive l.input).Refuses m l := by
  intro hall
  rcases strangerTurn_step with ⟨t', hstep⟩
  have hrefuses := hall (new (SyncStateMachine.new 5)) t' strangerTurn _ strangerStore _ trivial
    rfl (by decide) hstep (CloudStore.path_serve Sample.instant _ strangerStore)
  have hcompletes : ¬ ∀ event ∈ strangerTurn.events, ¬ event.IsCompletion := by
    decide +kernel
  exact hcompletes hrefuses.noCompletion

end

end SyncTask

end OakKeyring
