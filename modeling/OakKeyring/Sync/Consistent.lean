import OakKeyring.Lib.Play
import OakKeyring.Sync.PushRepair
import OakKeyring.Sync.KeepLocal

/-!
# When the metadata describes the record files

Devices that interleave their operations on one store. The metadata describes the files in
every state in which no device is in a turn, provided each write that breaks the description
is a step of a push that can still go through: the metadata stored is the metadata it pulled,
its files are intact, and until the push is done the others leave the store alone.
-/

namespace OakKeyring

open Effect Transition

section

variable [Codec] [Serde]

/-- Nobody has written the metadata since the turn pulled it, nor a file that the turn wrote. -/
structure PushNote.Undisturbed (n : PushNote) (s : CloudStore) : Prop where
  current : n.pulled = some s.metadata
  intact : n.Intact s

instance (n : PushNote) (s : CloudStore) : Decidable (n.Undisturbed s) :=
  decidable_of_iff (n.pulled = some s.metadata ∧ ∀ p ∈ n.written, s.records p.1 = some p.2)
    ⟨fun h => ⟨h.1, h.2⟩, fun h => ⟨h.current, h.intact⟩⟩

/-- The writes after which a push can still leave the store consistent. A resolution pulls
nothing, so it may write nothing. -/
def PushNote.MayWrite (n : PushNote) (s : CloudStore) (op : StorageOp) : Prop :=
  op.IsRead ∨ n.Undisturbed s

instance (n : PushNote) (s : CloudStore) (op : StorageOp) : Decidable (n.MayWrite s op) :=
  inferInstanceAs (Decidable (op.IsRead ∨ n.Undisturbed s))

/-- A record file may be written when its entry, if it has one, describes it. -/
def HarmlessWrite (s : CloudStore) : StorageOp → Prop
  | .writeRecord id r => ∀ info, s.entry id = some info → Describes info r
  | .writeMetadata _ => False
  | _ => True

theorem consistent_of_harmless (s : CloudStore) (op : StorageOp) (answer : op.Answer)
    (s' : CloudStore) (hs : s.Consistent) (hharmless : HarmlessWrite s op)
    (hstep : StorageStep s op answer s') : s'.Consistent := by
  cases hstep with
  | writeMetadata m => exact absurd hharmless id
  | writeRecord id r =>
      intro id' info hentry
      by_cases hid : id' = id
      · subst hid
        exact ⟨r, CloudStore.records_putRecord_self _ _ _, hharmless info hentry⟩
      · rcases hs id' info hentry with ⟨r', hr', hdescribes⟩
        refine ⟨r', ?_, hdescribes⟩
        rw [CloudStore.records_putRecord_of_ne _ _ hid]
        exact hr'
  | _ => exact hs

/-! ## Every turn mends what it spoils -/

/-- The program mends what its writes spoil. -/
abbrev Guards {α : Type} (n : PushNote) (p : Cloud α) : Prop :=
  syncMachine.Guarded storageEnv calmEnv CloudStore.Consistent PushNote.MayWrite n p

theorem neutral_of_isAside {n : PushNote} {op : StorageOp} (h : op.IsAside) :
    syncMachine.Neutral storageEnv CloudStore.Consistent n op := by
  constructor
  · intro answer
    cases op with
    | listRecords => rfl
    | readRecord id => rfl
    | now => rfl
    | readMetadata => exact absurd h id
    | writeMetadata m => exact absurd h id
    | writeRecord id r => exact absurd h fun h => h
  · intro s answer s' hs hstep
    have hsame : s' = s := StorageStep.eq_of_isRead op hstep h.isRead
    rw [hsame]
    exact hs

theorem neutral_downloadMetadata {n : PushNote} (hpulled : n.pulled.isSome = true) :
    CloudStorage.downloadMetadata.CallsOnly
      (syncMachine.Neutral storageEnv CloudStore.Consistent n) := by
  refine ⟨⟨?_, ?_⟩, fun _ => trivial⟩
  · intro answer
    rcases Option.isSome_iff_exists.mp hpulled with ⟨m?, hm⟩
    simp [syncMachine, PushNote.add, hm]
  · intro s answer s' hs hstep
    have hsame : s' = s := StorageStep.eq_of_isRead .readMetadata hstep trivial
    rw [hsame]
    exact hs

theorem guards_of_isAside {α β : Type} {n : PushNote} {p : Cloud α} {f : α → Cloud β}
    (hp : p.CallsOnly StorageOp.IsAside) (hf : ∀ t a, p.Returns t a → Guards n (f a)) :
    Guards n (p >>= f) :=
  Machine.guarded_bind (hp.mono fun _ h => neutral_of_isAside h) hf

/-- Operations that leave the metadata alone. -/
def StorageOp.IsFileOp (op : StorageOp) : Prop :=
  op.IsAside ∨ ∃ id r, op = .writeRecord id r

/-- A turn that has pulled nothing and only touches record files. -/
theorem guards_of_unpulled {α : Type} {n : PushNote} {p : Cloud α} (hn : n.pulled = none)
    (hp : p.CallsOnly StorageOp.IsFileOp) : Guards n p := by
  induction p generalizing n with
  | ret a => trivial
  | call c k ih =>
      rcases hp.1 with haside | ⟨id, r, hc⟩
      · have hneutral := neutral_of_isAside (n := n) haside
        refine ⟨fun s x s' hs _ hstep => Or.inl (hneutral.2 s x s' hs hstep), ?_⟩
        intro x
        rw [hneutral.1 x]
        exact ih x hn (hp.2 x)
      · subst hc
        refine ⟨?_, ?_⟩
        · intro s x s' _ hmay _
          have hturn : n.Undisturbed s := hmay.resolve_left fun h => h
          have hpulled := hturn.current
          rw [hn] at hpulled
          cases hpulled
        · intro x
          refine ih x ?_ (hp.2 x)
          cases x <;> exact hn

/-- A turn that writes nothing. -/
theorem guards_of_reads {α : Type} {n : PushNote} {p : Cloud α}
    (hp : p.CallsOnly StorageOp.IsRead) : Guards n p := by
  induction p generalizing n with
  | ret a => trivial
  | call c k ih =>
      refine ⟨?_, fun x => ih x (hp.2 x)⟩
      intro s x s' hs _ hstep
      left
      have hsame : s' = s := StorageStep.eq_of_isRead c hstep hp.1
      rw [hsame]
      exact hs

namespace PushStage

theorem guards_pushMetadataAtomic {n : PushNote} {ctx : PipelineContext}
    {now at₀ at₁ : DateTime} {m : CloudMetadata} (expectedVersion : Nat) (hnoted : Noted n ctx)
    (hm : EntersUploads now (entered ctx) (baseAt ctx at₀) m) :
    Guards n (CloudStorage.pushMetadataAtomic (m.incrementVersion at₁) expectedVersion) := by
  unfold CloudStorage.pushMetadataAtomic
  refine Machine.guarded_bind (neutral_downloadMetadata hnoted.pulled_isSome) ?_
  intro _ current _
  cases current with
  | error e => trivial
  | ok current =>
      cases hcheck : CloudStorage.checkExpectedVersion expectedVersion current with
      | error e =>
          simp only [hcheck]
          trivial
      | ok u =>
          simp only [hcheck]
          refine ⟨?_, fun _ => trivial⟩
          intro s x s' hs hmay hstep
          left
          have hturn : n.Undisturbed s := hmay.resolve_left id
          have hcurrent : s.metadata = ctx.remoteMetadata := by
            have hpulled := hturn.current
            rw [hnoted.pulled] at hpulled
            exact (Option.some.inj hpulled).symm
          cases hstep with
          | writeMetadata =>
              refine consistent_putMetadata hnoted hturn.intact ?_ hm
              -- the pulled entries are the stored ones, which describe their files
              intro id info hinfo _
              apply hs id info
              unfold CloudStore.entry
              rw [hcurrent]
              exact hinfo
          | writeMetadataFault => exact hs

theorem guards_pushUpdatedMetadata {n : PushNote} {ctx : PipelineContext}
    (hnoted : Noted n ctx) : Guards n (pushUpdatedMetadata ctx) := by
  unfold pushUpdatedMetadata
  refine guards_of_isAside ⟨trivial, fun _ => trivial⟩ ?_
  intro _ now _
  refine guards_of_isAside (callsOnly_baseMetadata ctx) ?_
  intro _ base hbase
  rcases returns_baseMetadata hbase with ⟨⟨at₀, hbaseAt⟩, -⟩
  refine guards_of_isAside (callsOnly_enterUploads now _ base.1) ?_
  intro _ result hresult
  cases result with
  | error e => trivial
  | ok m =>
      have hm := returns_enterUploads hresult
      rw [hbaseAt] at hm
      refine guards_of_isAside ⟨trivial, fun _ => trivial⟩ ?_
      intro _ incrementedAt _
      refine Machine.guarded_bind_of_no_calls (guards_pushMetadataAtomic _ hnoted hm) ?_
      intro result
      cases result <;> trivial

theorem guards_finish {n : PushNote} {ctx : PipelineContext} (hnoted : Noted n ctx) :
    Guards n (finish ctx) := by
  unfold finish
  by_cases hnone : ctx.uploadedIds = []
  · rw [if_pos hnone]
    trivial
  · rw [if_neg hnone]
    refine Machine.guarded_bind_of_no_calls (guards_pushUpdatedMetadata hnoted) ?_
    intro result
    cases result <;> trivial

theorem guards_afterUploading {n : PushNote} {ctx : PipelineContext} (hnoted : Noted n ctx) :
    Guards n (afterUploading ctx) := by
  unfold afterUploading
  refine guards_of_isAside (callsOnly_downloadRecords ctx) ?_
  intro _ c₁ hdownload
  refine guards_of_isAside (callsOnly_fetchConflicts c₁) ?_
  intro _ c₂ hfetch
  have hnoted₁ := noted_of_samePush hnoted (samePush_downloadRecords hdownload)
  exact guards_finish (noted_of_samePush hnoted₁ (samePush_fetchConflicts hfetch))

/-- The uploads: each may break the description of one record, and the rest of the push mends
it. -/
theorem guards_restOfPush {n : PushNote} {ctx : PipelineContext} {rest : List CloudRecord}
    (hnoted : Noted n ctx) (hrest : StillToUpload ctx rest) :
    Guards n (rest.foldlM uploadOne ctx >>= afterUploading) := by
  induction rest generalizing ctx n with
  | nil => exact guards_afterUploading hnoted
  | cons r rest ih =>
      have hr : r ∈ ctx.uploads := hrest.mem r List.mem_cons_self
      rw [List.foldlM_cons]
      refine ⟨?_, fun answer => ih (noted_receiveUpload hnoted hr answer) (hrest.tail answer)⟩
      intro s answer s' hs hmay hstep
      have hturn : n.Undisturbed s := hmay.resolve_left fun h => h
      have hpush : InPush n s :=
        ⟨hturn.current, hturn.intact, fun id info hentry _ => hs id info hentry⟩
      cases hstep with
      | writeRecord =>
          right
          have hnext := noted_receiveUpload hnoted hr (.ok ())
          exact wp_restOfPush hnext (hpush.upload (hrest.not_written hnoted)) (hrest.tail _)
      | writeRecordFault => exact Or.inl hs

theorem guards_execute {n : PushNote} {ctx : PipelineContext} (hnoted : Noted n ctx)
    (hnone : ctx.uploadedIds = []) : Guards n (execute ctx) := by
  have hrest : StillToUpload ctx (selectedUploads ctx) := by
    refine ⟨fun r hr => List.mem_of_mem_filter hr, ?_, ?_⟩
    · intro r _
      simp [hnone]
    · exact hnoted.ids.sublist (List.filter_sublist.map _)
  exact guards_restOfPush hnoted hrest

end PushStage

namespace SyncPipeline

theorem callsOnly_resolve (ctx : PipelineContext) :
    (runStages [.Resolve] ctx).CallsOnly fun _ => False := by
  unfold runStages Stage.execute ResolveStage.execute
  by_cases hnone : ctx.conflicts = []
  · simp only [hnone, if_true]
    trivial
  · simp only [hnone, if_false]
    trivial

/-- What follows a stage. -/
def afterStage (rest : List Stage) (out : PipelineContext × StageOutcome) :
    Cloud (PipelineContext × PipelineResult) :=
  match out.2 with
  | .Continue => runStages rest out.1
  | .NoChanges => return (out.1, .NoChanges)
  | .ConflictDetected conflictIds => return (out.1, .ConflictsDetected conflictIds)
  | .Error e => return (out.1, .Error e)

theorem runStages_cons (stage : Stage) (rest : List Stage) (ctx : PipelineContext) :
    runStages (stage :: rest) ctx = stage.execute ctx >>= afterStage rest := by
  rw [runStages]
  congr

theorem guards_afterStage {n : PushNote} {rest : List Stage}
    (out : PipelineContext × StageOutcome)
    (h : out.2 = .Continue → Guards n (runStages rest out.1)) :
    Guards n (afterStage rest out) := by
  rcases out with ⟨c, outcome⟩
  cases outcome with
  | Continue => exact h rfl
  | NoChanges => trivial
  | ConflictDetected ids => trivial
  | Error e => trivial

theorem guards_push {n : PushNote} {ctx : PipelineContext} (hnoted : Noted n ctx)
    (hnone : ctx.uploadedIds = []) : Guards n (runStages [.Push, .Resolve] ctx) := by
  rw [runStages_cons]
  refine Machine.guarded_bind_of_no_calls (PushStage.guards_execute hnoted hnone) ?_
  intro out
  rcases out with ⟨c, outcome⟩
  cases outcome with
  | Continue => exact callsOnly_resolve c
  | NoChanges => trivial
  | ConflictDetected ids => trivial
  | Error e => trivial

theorem guards_detect {n : PushNote} {ctx : PipelineContext} (hnoted : Noted n ctx)
    (hnone : ctx.uploadedIds = []) : Guards n (runStages [.Detect, .Push, .Resolve] ctx) := by
  have hsame := DetectStage.samePush_execute ctx
  rw [runStages_cons]
  refine guards_afterStage (DetectStage.execute ctx) fun _ => ?_
  exact guards_push (PushStage.noted_of_samePush hnoted hsame) (hsame.2.2.trans hnone)

/-- The note with which a turn begins, once it has read the metadata. -/
def noteOf (read : Except SyncError CloudMetadata) : PushNote where
  pulled := (CloudStorage.metadataOfRead read).toOption
  written := []

theorem guards_execute {ctx : PipelineContext} (hnone : ctx.uploadedIds = [])
    (hids : (ctx.uploads.map CloudRecord.id).Nodup) (hsound : ∀ r ∈ ctx.uploads, r.Sound) :
    Guards syncMachine.start (execute ctx) := by
  -- what the pulled metadata leads to
  have hpulled : ∀ (read : Except SyncError CloudMetadata) (c : PipelineContext),
      c.uploads = ctx.uploads → c.uploadedIds = ctx.uploadedIds →
      CloudStorage.metadataOfRead read = .ok c.remoteMetadata →
      Guards (noteOf read) (runStages [.Detect, .Push, .Resolve] c) := by
    intro read c huploads huploaded hread
    refine guards_detect ⟨?_, ?_, ?_, ?_, ?_, ?_⟩ (huploaded.trans hnone)
    · intro m hm
      rw [hm] at hread
      exact ((CloudStorage.metadataOfRead_eq_some_iff read m).mp hread).2
    · unfold noteOf
      rw [hread]
      rfl
    · rw [huploads]
      exact hids
    · rw [huploads]
      exact hsound
    · intro r _ hid
      rw [huploaded, hnone] at hid
      cases hid
    · intro p hp
      cases hp
  refine ⟨?_, ?_⟩
  · intro s read s' hs _ hstep
    left
    have hsame : s' = s := StorageStep.eq_of_isRead .readMetadata hstep trivial
    rw [hsame]
    exact hs
  · intro read
    have hnote : syncMachine.note syncMachine.start ⟨.readMetadata, read⟩ = noteOf read := rfl
    rw [hnote]
    refine guards_afterStage
      (PullMetadataStage.receive ctx (CloudStorage.metadataOfRead read)) fun hcontinue => ?_
    cases hread : CloudStorage.metadataOfRead read with
    | error e =>
        rw [hread] at hcontinue
        cases hcontinue
    | ok m? =>
        cases m? with
        | none => exact hpulled read _ rfl rfl hread
        | some m =>
            rw [hread] at hcontinue
            simp only [PullMetadataStage.receive, PullMetadataStage.receiveMetadata]
              at hcontinue ⊢
            split at hcontinue
            · cases hcontinue
            · split at hcontinue
              · cases hcontinue
              · rename_i hchanged htoken
                rw [if_neg hchanged, if_neg htoken]
                exact hpulled read _ rfl rfl hread

end SyncPipeline

namespace SyncTask

/-! ## The turns -/

/-- The vault data of a task, if it has any, are well built. -/
def WellSupplied (t : SyncTask) : Prop :=
  ∀ data, t.vaultData = some data → data.WellBuilt

theorem guards_runCycle {t : SyncTask} (ht : t.WellSupplied) :
    Guards syncMachine.start (t.runCycle) := by
  have hctx : t.pipelineContext.uploadedIds = [] ∧
      (t.pipelineContext.uploads.map CloudRecord.id).Nodup ∧
      ∀ r ∈ t.pipelineContext.uploads, r.Sound := by
    unfold pipelineContext
    cases hdata : t.vaultData with
    | none => exact ⟨rfl, List.nodup_nil, by simp [PipelineContext.new]⟩
    | some data => exact ⟨rfl, (ht data hdata).ids, (ht data hdata).sound⟩
  unfold runCycle
  refine guards_of_isAside ⟨trivial, fun _ => trivial⟩ ?_
  intro _ answer _
  cases answer with
  | error e => trivial
  | ok u =>
      refine Machine.guarded_bind_of_no_calls ?_ fun _ => trivial
      refine Machine.guarded_bind_of_no_calls ?_ fun _ => trivial
      exact SyncPipeline.guards_execute hctx.1 hctx.2.1 hctx.2.2

theorem guards_transitionAndRun {t : SyncTask} (trigger : SyncTrigger) (ht : t.WellSupplied) :
    Guards syncMachine.start (t.transitionAndRun trigger) := by
  unfold transitionAndRun
  cases t.stateMachine.transition trigger with
  | error e => trivial
  | ok m =>
      refine Machine.guarded_bind_of_no_calls (guards_runCycle ?_) fun _ => trivial
      exact ht

theorem guards_startCycle {t : SyncTask} (trigger : SyncTrigger) (ht : t.WellSupplied) :
    Guards syncMachine.start (t.startCycle trigger) := by
  unfold startCycle
  split
  · trivial
  · split
    · trivial
    · exact guards_transitionAndRun trigger ht

omit [Codec] [Serde] in
theorem callsOnly_uploadResolved (t : SyncTask) (recordId : String) (currentVersion : Nat) :
    (t.uploadResolved recordId currentVersion).CallsOnly StorageOp.IsFileOp := by
  unfold uploadResolved
  cases t.uploadFor recordId with
  | none => trivial
  | some r => exact ⟨Or.inr ⟨_, _, rfl⟩, fun _ => trivial⟩

theorem callsOnly_handleResolveConflict (t : SyncTask) (recordId : String)
    (strategy : ResolutionStrategy) :
    (t.handleResolveConflict recordId strategy).CallsOnly StorageOp.IsFileOp := by
  unfold handleResolveConflict
  cases Uuid.parseStr recordId with
  | none => trivial
  | some id =>
      cases hitem : t.pendingConflicts.find? fun c => c.recordId == id with
      | none =>
          simp only [hitem]
          trivial
      | some item =>
          simp only [hitem]
          refine Prog.CallsOnly.bind ?_ fun result => by cases result <;> trivial
          unfold resolveItem
          cases strategy with
          | KeepRemote => trivial
          | KeepLocal =>
              refine (t.callsOnly_uploadResolved recordId item.currentVersion).bind ?_
              intro result
              cases result <;> trivial

theorem callsOnly_handleResolveAll (t : SyncTask) (strategy : ResolutionStrategy) :
    (t.handleResolveAll strategy).CallsOnly StorageOp.IsFileOp := by
  unfold handleResolveAll
  dsimp only
  split
  · trivial
  · refine Prog.CallsOnly.bind (Prog.CallsOnly.foldlM ?_ _ _) fun _ => trivial
    intro acc x
    unfold resolveBatchItem
    cases hresult : x.1.result with
    | error e => trivial
    | ok resolved =>
        cases strategy with
        | KeepRemote => trivial
        | KeepLocal =>
            refine (callsOnly_uploadResolved _ _ _).bind ?_
            intro result
            cases result <;> trivial

omit [Serde] in
theorem callsOnly_handleDownloadMetadata (t : SyncTask) :
    (t.handleDownloadMetadata).CallsOnly StorageOp.IsRead := by
  unfold handleDownloadMetadata CloudStorage.downloadMetadata
  refine Prog.CallsOnly.bind ⟨trivial, fun _ => trivial⟩ fun read => ?_
  cases read <;> trivial

/-- The inputs of the runs: vault data are well built, and metadata is pushed by cycles only. -/
def FitInput : TaskInput → Prop
  | .command (.TriggerSync (some data)) => data.WellBuilt
  | .command (.PushMetadataAtomic _ _) => False
  | _ => True

instance : DecidablePred FitInput
  | .command (.TriggerSync (some data)) => inferInstanceAs (Decidable data.WellBuilt)
  | .command (.PushMetadataAtomic _ _) => isFalse id
  | .command (.TriggerSync none) => isTrue trivial
  | .command .PullOnly => isTrue trivial
  | .command (.ResolveConflict _ _) => isTrue trivial
  | .command (.ResolveAllConflicts _) => isTrue trivial
  | .command .Pause => isTrue trivial
  | .command .Resume => isTrue trivial
  | .command .DownloadMetadata => isTrue trivial
  | .command .Shutdown => isTrue trivial
  | .timer => isTrue trivial

theorem guards_turn {t : SyncTask} {i : TaskInput} (ht : t.WellSupplied) (hi : FitInput i) :
    Guards syncMachine.start (syncMachine.turn t i) := by
  cases i with
  | timer => exact guards_transitionAndRun _ ht
  | command c =>
      cases c with
      | TriggerSync data =>
          refine guards_startCycle _ ?_
          intro data' hdata
          cases hdata
          exact hi
      | PullOnly => exact guards_startCycle _ ht
      | ResolveConflict recordId strategy =>
          exact guards_of_unpulled rfl (t.callsOnly_handleResolveConflict recordId strategy)
      | ResolveAllConflicts strategy =>
          exact guards_of_unpulled rfl (t.callsOnly_handleResolveAll strategy)
      | Pause => trivial
      | Resume => trivial
      | PushMetadataAtomic m v => exact absurd hi id
      | DownloadMetadata => exact guards_of_reads t.callsOnly_handleDownloadMetadata
      | Shutdown => trivial

/-- A turn keeps the vault data it was given. -/
theorem wellSupplied_turn {t : SyncTask} {i : TaskInput} (henabled : syncMachine.enabled t i)
    (ht : t.WellSupplied) (hi : FitInput i) {tr : StorageTrace}
    {out : SyncTask × List SyncEvent} (h : (syncMachine.turn t i).Returns tr out) :
    out.1.WellSupplied := by
  rcases out with ⟨t', events⟩
  have hloop : t.loopStep
      { input := i
        trace := tr
        events := events } t' := by
    refine ⟨henabled.1, ?_⟩
    cases i with
    | timer => exact ⟨henabled.2 rfl, h⟩
    | command c => exact h
  have hkeeps := (loopStep_keepsItems hloop).1
  intro data hdata
  have hreceived : (t.receive i).vaultData = some data := by
    rw [← hkeeps]
    exact hdata
  unfold receive at hreceived
  split at hreceived
  · cases hreceived
    exact hi
  · exact ht data hreceived

end SyncTask

/-! ## The devices -/

/-- Any devices on one store. -/
abbrev Devices (D : Type) :=
  syncMachine.Pool CloudStore D

instance (t : syncMachine.State) (i : syncMachine.Input) : Decidable (syncMachine.enabled t i) :=
  match i with
  | .command _ => decidable_of_iff (t.state ≠ .ShuttingDown)
      ⟨fun h => ⟨h, fun h => (nomatch h)⟩, fun h => h.1⟩
  | .timer => decidable_of_iff (t.state ≠ .ShuttingDown ∧ t.nextRetry = true)
      ⟨fun h => ⟨h.1, fun _ => h.2⟩, fun h => ⟨h.1, h.2 rfl⟩⟩

namespace Devices

variable {D : Type} [DecidableEq D]

/-- One step of one device: a turn begins, makes its next storage operation, or ends. -/
abbrev step : Devices D → syncMachine.Label D → Devices D → Prop :=
  Machine.Pool.step storageEnv CloudStore.Consistent

/-- New tasks on a store. -/
def fresh (maxRetries : D → Nat) (s : CloudStore) : Devices D where
  shared := s
  party d := .idle (SyncTask.new (SyncStateMachine.new (maxRetries d)))
  spoiler := none

/-- The step meets the condition under which the store stays described. -/
def Orderly (e : Step (Devices D) (syncMachine.Label D)) : Prop :=
  Machine.Careful calmEnv PushNote.MayWrite HarmlessWrite CloudStore.Undisturbed
    SyncTask.FitInput e

/-- In every run of orderly steps the metadata describes the record files whenever no device is
in a turn. -/
theorem consistent_of_orderly {maxRetries : D → Nat} {s₀ : CloudStore} (hinit : s₀.Consistent)
    {es : List (Step (Devices D) (syncMachine.Label D))} {σ : Devices D}
    (hrun : Run step (fresh maxRetries s₀) es σ) (horderly : ∀ e ∈ es, Orderly e) :
    ∀ u ∈ visited (fresh maxRetries s₀) es, u.Quiet → u.shared.Consistent := by
  have hturn : ∀ (t : SyncTask) (i : TaskInput), syncMachine.enabled t i → t.WellSupplied →
      SyncTask.FitInput i → Guards syncMachine.start (syncMachine.turn t i) ∧
        ∀ tr out, (syncMachine.turn t i).Returns tr out → out.1.WellSupplied := by
    intro t i henabled ht hi
    exact ⟨SyncTask.guards_turn ht hi, fun _ _ h => SyncTask.wellSupplied_turn henabled ht hi h⟩
  have hfresh : Machine.PoolOk storageEnv calmEnv CloudStore.Consistent PushNote.MayWrite
      SyncTask.WellSupplied (fresh maxRetries s₀) := by
    refine ⟨?_, hinit⟩
    intro d data hdata
    cases hdata
  exact Machine.good_of_quiet hturn consistent_of_harmless calmEnv_absorb hrun hfresh horderly

/-- The condition on one step, computed. -/
def checked (e : Step (Devices D) (syncMachine.Label D)) : Bool :=
  match e.label with
  | .begin _ i => fits i
  | .op d ev =>
      match e.source.party d with
      | .idle _ => false
      | .busy n _ =>
          match e.source.spoiler with
          | none => mayWrite n e.source.shared ev.call
          | some d' => if d = d' then isCalm n ev.call ev.answer else isRead ev.call
  | .finish _ _ => true
where
  fits (i : TaskInput) : Bool := decide (SyncTask.FitInput i)
  mayWrite (n : PushNote) (s : CloudStore) (op : StorageOp) : Bool := decide (n.MayWrite s op)
  isCalm (n : PushNote) (op : StorageOp) (answer : op.Answer) : Bool := decide (n.Calm op answer)
  isRead (op : StorageOp) : Bool := decide op.IsRead

section

variable {σ : Devices D} {d : D} {n : PushNote} {op : StorageOp} {answer : op.Answer}
  {s' : CloudStore}

omit [Codec] [Serde] in
theorem mayWrite_of_checked {s : CloudStore} (h : checked.mayWrite n s op = true) :
    n.MayWrite s op :=
  of_decide_eq_true h

omit [Codec] [Serde] in
theorem calm_of_checked {s : CloudStore} (h : checked.isCalm n op answer = true)
    (hstep : StorageStep s op answer s') : calmEnv n s op answer s' :=
  ⟨s, .refl s, hstep, of_decide_eq_true h⟩

omit [Codec] [Serde] in
theorem undisturbed_of_checked {s : CloudStore} (h : checked.isRead op = true)
    (hstep : StorageStep s op answer s') : s.Undisturbed s' := by
  have hread : op.IsRead := of_decide_eq_true h
  have hsame : s' = s := StorageStep.eq_of_isRead op hstep hread
  rw [hsame]
  exact .refl s

theorem fitInput_of_checked {i : TaskInput} (h : checked.fits i = true) : SyncTask.FitInput i :=
  of_decide_eq_true h

end

theorem orderly_of_checked {e : Step (Devices D) (syncMachine.Label D)}
    (hstep : step e.source e.label e.target) (hchecked : checked e = true) : Orderly e := by
  rcases e with ⟨σ, label, σ'⟩
  replace hstep : step σ label σ' := hstep
  cases hstep with
  | begin d i t h henabled => exact fitInput_of_checked hchecked
  | finish d n t o h => trivial
  | op d n c x k s' spoiler h hstep hgood hspoilt =>
      simp only [checked, h] at hchecked
      simp only [Orderly, Machine.Careful]
      cases hspoiler : σ.spoiler with
      | none =>
          simp only [hspoiler] at hchecked ⊢
          exact Or.inr (Or.inr ⟨n, _, h, mayWrite_of_checked hchecked⟩)
      | some d' =>
          simp only [hspoiler] at hchecked ⊢
          by_cases hd : d = d'
          · rw [if_pos hd] at hchecked ⊢
            exact ⟨n, _, h, calm_of_checked hchecked hstep⟩
          · rw [if_neg hd] at hchecked ⊢
            exact undisturbed_of_checked hchecked hstep

/-- A turn of a lone device when the store has no faults. -/
theorem serve_turn {σ : Devices Unit} (d : DeviceState) (c : SyncCommand)
    (hparty : σ.party () = .idle d.task) (hshared : σ.shared = d.store)
    (hlive : d.task.state ≠ .ShuttingDown) :
    ∃ es σ', Run step σ es σ' ∧ σ'.shared = (DeviceState.serveTurn d c).target.store ∧
      σ'.party () = .idle (DeviceState.serveTurn d c).target.task ∧
      ∀ e ∈ es, ∀ d' i, e.label = .begin d' i → i = .command c := by
  have henabled : syncMachine.enabled d.task (.command c) := ⟨hlive, by simp⟩
  have hpath := CloudStore.path_serve Sample.instant (d.task.handleCommand c) d.store
  rw [← hshared] at hpath
  rcases Machine.run_turn hparty henabled (returns_runTrace _ _ _) hpath with
    ⟨es, σ', hrun, hstore, hidle, hlabels⟩
  refine ⟨es, σ', hrun, ?_, ?_, hlabels⟩
  · rw [hstore, hshared]
    rfl
  · rw [hidle, Function.update_self, hshared]
    rfl

end Devices

end

/-! ### Two devices -/

namespace Devices

open DeviceState

section

attribute [local instance] Sample.codec Sample.serde

/-- A turn that resolves a conflict by taking the remote version makes no calls. -/
theorem ret_of_keepRemote (t : SyncTask) (recordId : String) :
    ∃ a, t.handleResolveConflict recordId .KeepRemote = .ret a := by
  unfold SyncTask.handleResolveConflict
  cases Uuid.parseStr recordId with
  | none => exact ⟨_, rfl⟩
  | some id =>
      cases hitem : t.pendingConflicts.find? fun c => c.recordId == id with
      | none =>
          simp only [hitem]
          exact ⟨_, rfl⟩
      | some item =>
          simp only [hitem, SyncTask.resolveItem]
          cases resolveKeepRemote item.conflictData with
          | error e => exact ⟨_, rfl⟩
          | ok remote => exact ⟨_, rfl⟩

/-- An edit of version 3, which the store has. -/
def laterRow : SyncVaultData where
  localRecords :=
    [{ recordId := Sample.recordId
       syncStatus := .Pending
       version := 4 }]
  uploads := [Sample.record 4 "BAUG"]
  localMetadataVersion := 2
  lastRemoteMetadata := none
  localVaultToken := "token"

/-- The second device pushes its edit, and before the metadata follows the record file the first
one reads the metadata. Then the first tries to push an edit of version 1, which conflicts. -/
def pushAndConflict : List (syncMachine.Move Bool) :=
  [.begin true (.command (.TriggerSync (some laterRow))), .next true, .next true, .next true,
    .begin false (.command .DownloadMetadata), .next false, .next false,
    .next true, .next true, .next true, .next true, .next true, .next true,
    .begin false (.command (.TriggerSync (some editedRow))), .next false, .next false, .next false,
    .next false]

def pushed : List (Step (Devices Bool) (syncMachine.Label Bool)) :=
  (fresh (fun _ => 5) newerStore).play (CloudStore.serve Sample.instant) CloudStore.Consistent
    pushAndConflict

def pushedEnd : Devices Bool :=
  (fresh (fun _ => 5) newerStore).playEnd (CloudStore.serve Sample.instant) CloudStore.Consistent
    pushAndConflict

theorem pushed_run : Run step (fresh (fun _ => 5) newerStore) pushed pushedEnd :=
  Machine.Pool.run_play (CloudStore.serve_storageStep Sample.instant) pushAndConflict _

/-- Whether a device is between turns, goes on, and has a conflict in its queue. -/
def hasConflict : syncMachine.Party → Bool
  | .idle t => goesOn t
  | .busy _ _ => false
where
  goesOn (t : SyncTask) : Bool :=
    decide (t.state ≠ .ShuttingDown) && !t.pendingConflicts.isEmpty

/-- The upload spoils the description, the push mends it, and the other edit is a conflict. -/
theorem pushed_checked :
    newerStore.Consistent ∧ (∀ e ∈ pushed, checked e = true) ∧
      (∃ e ∈ pushed, ¬ e.target.shared.Consistent) ∧
      (pushedEnd.shared.entry Sample.recordId).map RecordVersionInfo.version = some 4 ∧
      hasConflict (pushedEnd.party false) = true := by
  decide +kernel

/-- The rule at a push with a reader in between, and a conflict that is resolved after it. -/
theorem consistent_of_orderly_pushed :
    ∃ es, ∃ σ : Devices Bool, Run step (fresh (fun _ => 5) newerStore) (pushed ++ es) σ ∧
      (∃ e ∈ es, e.label = .begin false (.command (.ResolveConflict Sample.recordId .KeepRemote))) ∧
      (∃ e ∈ pushed, ¬ e.target.shared.Consistent) ∧
      (σ.shared.entry Sample.recordId).map RecordVersionInfo.version = some 4 ∧
      ∀ u ∈ visited (fresh (fun _ => 5) newerStore) (pushed ++ es), u.Quiet →
        u.shared.Consistent := by
  have hpushed := pushed_run
  rcases pushed_checked with ⟨hinit, hchecked, hspoilt, hmended, hconflict⟩
  generalize pushed = before at *
  generalize pushedEnd = σ at *
  cases hparty : σ.party false with
  | busy n p =>
      rw [hparty] at hconflict
      cases hconflict
  | idle t =>
      rw [hparty] at hconflict
      have hlive : decide (SyncTask.state t ≠ .ShuttingDown) = true :=
        (Bool.and_eq_true_iff.mp hconflict).1
      have henabled : syncMachine.enabled t
          (.command (.ResolveConflict Sample.recordId .KeepRemote)) :=
        ⟨of_decide_eq_true hlive, by simp⟩
      -- the resolution that keeps the remote record makes no call
      rcases ret_of_keepRemote t Sample.recordId with ⟨⟨t', events⟩, hturn⟩
      have hbusy : Function.update σ.party false
          (.busy syncMachine.start (syncMachine.turn t
            (.command (.ResolveConflict Sample.recordId .KeepRemote)))) false =
            .busy syncMachine.start (.ret (t', events)) := by
        rw [Function.update_self]
        exact congrArg (Machine.Party.busy syncMachine.start) hturn
      have hrun := hpushed.append (Run.cons (.begin σ false _ t hparty henabled)
        (Run.cons (.finish _ false _ t' events hbusy) (Run.nil _)))
      refine ⟨_, _, hrun, ⟨_, List.mem_cons_self, rfl⟩, hspoilt, hmended, ?_⟩
      refine consistent_of_orderly hinit hrun fun e he => ?_
      rcases List.mem_append.mp he with hmem | hmem
      · exact orderly_of_checked (hpushed.step_of_mem hmem) (hchecked e hmem)
      -- the resolution makes no calls
      · rcases List.mem_cons.mp hmem with heq | hmem
        · rw [heq]
          trivial
        · rw [List.mem_singleton.mp hmem]
          trivial

end

end Devices

/-! ### A resolution that leaves its entry behind -/

namespace Devices

open DeviceState

section

attribute [local instance] Sample.codec Sample.serde

theorem newerStore_consistent : newerStore.Consistent := by
  decide +kernel

theorem editedRow_wellBuilt : editedRow.WellBuilt := by
  refine ⟨List.nodup_singleton _, ?_⟩
  intro r hr
  rw [List.mem_singleton.mp hr]
  exact ⟨by decide, ⟨_, rfl⟩, ⟨_, rfl⟩⟩

/-- The two turns of the kept row, made by the only device of a pool. -/
theorem keptPool_run :
    ∃ es, ∃ σ : Devices Unit, Run step (fresh (fun _ => 5) newerStore) es σ ∧ σ.Quiet ∧
      σ.shared = keepTurn.target.store ∧
      ∀ e ∈ es, ∀ d i, e.label = .begin d i → SyncTask.FitInput i := by
  have hfresh : (fresh (fun _ : Unit => 5) newerStore).party () =
      .idle (DeviceState.fresh 5 newerStore).task := rfl
  rcases serve_turn (DeviceState.fresh 5 newerStore) (.TriggerSync (some editedRow)) hfresh rfl
    (by decide) with ⟨es₁, σ₁, hrun₁, hshared₁, hparty₁, hlabels₁⟩
  rcases serve_turn detectTurn.target (.ResolveConflict Sample.recordId .KeepLocal) hparty₁
    hshared₁ detectTurn_leaves.2.1 with ⟨es₂, σ₂, hrun₂, hshared₂, hparty₂, hlabels₂⟩
  refine ⟨es₁ ++ es₂, σ₂, hrun₁.append hrun₂, fun d => ⟨_, hparty₂⟩, hshared₂, ?_⟩
  intro e he d i hbegin
  rcases List.mem_append.mp he with he | he
  · rw [hlabels₁ e he d i hbegin]
    exact editedRow_wellBuilt
  · rw [hlabels₂ e he d i hbegin]
    trivial

/-- After the kept row the entry says version 3 and the file has version 2. -/
theorem kept_row_undescribed :
    ¬ ∀ (maxRetries : Unit → Nat) (s₀ : CloudStore)
      (es : List (Step (Devices Unit) (syncMachine.Label Unit))) (σ : Devices Unit),
      s₀.Consistent → Run step (fresh maxRetries s₀) es σ →
      (∀ e ∈ es, ∀ d i, e.label = .begin d i → SyncTask.FitInput i) →
      ∀ u ∈ visited (fresh maxRetries s₀) es, u.Quiet → u.shared.Consistent := by
  intro hall
  rcases keptPool_run with ⟨es, σ, hrun, hquiet, hshared, hfit⟩
  have hconsistent := hall _ _ es σ newerStore_consistent hrun hfit σ hrun.last_mem hquiet
  rw [hshared] at hconsistent
  have hentry : (keepTurn.target.store.entry Sample.recordId).map RecordVersionInfo.version =
      some 3 := by decide +kernel
  have hfile : (keepTurn.target.store.records Sample.recordId).map CloudRecord.version =
      some 2 := by decide +kernel
  cases hinfo : keepTurn.target.store.entry Sample.recordId with
  | none =>
      rw [hinfo] at hentry
      cases hentry
  | some info =>
      rcases hconsistent Sample.recordId info hinfo with ⟨r, hr, hdescribes⟩
      rw [hinfo] at hentry
      rw [hr] at hfile
      have h3 : info.version = 3 := Option.some.inj hentry
      have h2 : r.version = 2 := Option.some.inj hfile
      have hsame := hdescribes.version
      omega

end

end Devices

end OakKeyring
