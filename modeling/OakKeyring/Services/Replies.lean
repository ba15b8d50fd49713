import OakKeyring.Sync.Answered
import OakKeyring.Sync.Snapshot
import OakKeyring.Samples.Store

/-!
# Whose reply a sync call takes

The service and its task share one command queue and one event queue, and events carry no
request id. A call takes the first event it accepts, whichever turn emitted it. A call's own
command is behind the commands of the calls before it, so the reply is its own as long as
nothing is emitted ahead of it that a sync call would accept.
-/

namespace OakKeyring

open Effect Transition

/-- An event with the turn that emitted it. -/
structure Emission where
  event : SyncEvent
  call : Option Nat
  input : TaskInput
  trace : StorageTrace

/-- The service, its task and the two queues between them. Calls are numbered, and the command
of a queued request is the one it sends. -/
structure ServiceState where
  task : SyncTask
  commands : List (Nat × SyncRequest)
  events : List Emission
  waiting : Option (Nat × SyncRequest)
  issued : Nat

inductive ServiceLabel
  | issue (r : SyncRequest)
  | handle (tr : StorageTrace)
  | retry (tr : StorageTrace)
  | take
  | giveUp

namespace ServiceState

def fresh (maxRetries : Nat) : ServiceState where
  task := SyncTask.new (SyncStateMachine.new maxRetries)
  commands := []
  events := []
  waiting := none
  issued := 0

/-- The events of a turn, marked with the turn. -/
def emissions (call : Option Nat) (input : TaskInput) (tr : StorageTrace)
    (events : List SyncEvent) : List Emission :=
  events.map fun event =>
    { event := event
      call := call
      input := input
      trace := tr }

/-- The waiting call takes the first event: its reply, or an event it drops. -/
def taken (σ : ServiceState) (r : SyncRequest) (em : Emission) (rest : List Emission) :
    ServiceState :=
  { σ with
    events := rest
    waiting := if r.accepts em.event then none else σ.waiting }

/-- One step: a call is issued, the task handles the next command or a due retry, the waiting
call takes an event, or it gives up (cancelled, timed out or dropped). -/
inductive step [Codec] [Serde] : ServiceState → ServiceLabel → ServiceState → Prop
  | issue (σ : ServiceState) (r : SyncRequest) (hfree : σ.waiting = none) :
      step σ (.issue r)
        { σ with
          commands := σ.commands ++ [(σ.issued, r)]
          waiting := some (σ.issued, r)
          issued := σ.issued + 1 }
  | handle (σ : ServiceState) (call : Nat) (r : SyncRequest) (rest : List (Nat × SyncRequest))
      (tr : StorageTrace) (t : SyncTask) (events : List SyncEvent)
      (hnext : σ.commands = (call, r) :: rest) (hlive : σ.task.state ≠ .ShuttingDown)
      (hrun : (σ.task.handleCommand r.command).Returns tr (t, events)) :
      step σ (.handle tr)
        { σ with
          task := t
          commands := rest
          events := σ.events ++ emissions (some call) (.command r.command) tr events }
  | retry (σ : ServiceState) (tr : StorageTrace) (t : SyncTask) (events : List SyncEvent)
      (hdue : σ.task.nextRetry = true) (hlive : σ.task.state ≠ .ShuttingDown)
      (hrun : (σ.task.handleTimer).Returns tr (t, events)) :
      step σ (.retry tr)
        { σ with
          task := t
          events := σ.events ++ emissions none .timer tr events }
  | take (σ : ServiceState) (call : Nat) (r : SyncRequest) (em : Emission)
      (rest : List Emission) (hwaiting : σ.waiting = some (call, r))
      (hfirst : σ.events = em :: rest) : step σ .take (σ.taken r em rest)
  | giveUp (σ : ServiceState) (call : Nat) (r : SyncRequest)
      (hwaiting : σ.waiting = some (call, r)) : step σ .giveUp { σ with waiting := none }

end ServiceState

/-! ## Events that a sync call accepts -/

/-- A completion or a failure. -/
def SyncEvent.final (event : SyncEvent) : Bool :=
  (SyncRequest.sync none).accepts event

theorem SyncRequest.accepts_sync (data : Option SyncVaultData) (event : SyncEvent) :
    (SyncRequest.sync data).accepts event = event.final := by
  cases event <;> rfl

namespace SyncTask

variable [Codec] [Serde]

/-- When the handling of a request emits nothing a sync call would accept: a sync that is
dropped, a single resolution that succeeds, a metadata read or push that goes through, and
every other request. -/
def Mute (t : SyncTask) (tr : StorageTrace) : SyncRequest → Prop
  | .sync _ => t.paused = true ∨ t.stateMachine.canAcceptCommands = false
  | .resolveConflict recordId strategy => t.Answers tr (.resolveConflict recordId strategy)
  | .downloadMetadata =>
      ∃ read m, tr = [StorageOp.readMetadata.answered read] ∧
        CloudStorage.metadataOfRead read = .ok m
  | .pushMetadataAtomic metadata expectedVersion =>
      ∃ read m, tr = [StorageOp.readMetadata.answered read,
          (StorageOp.writeMetadata metadata).answered (.ok ())] ∧
        CloudStorage.metadataOfRead read = .ok m ∧
        CloudStorage.checkExpectedVersion expectedVersion m = .ok ()
  | _ => True

omit [Serde] in
/-- A metadata push goes through when the metadata is read, has the expected version and is
written. -/
theorem returns_pushMetadataAtomic_ok (m : CloudMetadata) (v : Nat) (tr : StorageTrace) :
    (CloudStorage.pushMetadataAtomic m v).Returns tr (.ok ()) ↔
      ∃ read current, tr = [StorageOp.readMetadata.answered read,
          (StorageOp.writeMetadata m).answered (.ok ())] ∧
        CloudStorage.metadataOfRead read = .ok current ∧
        CloudStorage.checkExpectedVersion v current = .ok () := by
  unfold CloudStorage.pushMetadataAtomic
  rw [CloudStorage.returns_downloadMetadata]
  constructor
  · intro h
    rcases h with ⟨read, rest, rfl, h⟩
    cases hread : CloudStorage.metadataOfRead read with
    | error e =>
        simp only [hread] at h
        cases h.2
    | ok current =>
        cases hcheck : CloudStorage.checkExpectedVersion v current with
        | error e =>
            simp only [hread, hcheck] at h
            cases h.2
        | ok u =>
            simp only [hread, hcheck] at h
            -- the write went through, and nothing follows it
            have hrest : rest = [(StorageOp.writeMetadata m).answered (.ok ())] :=
              (Prog.returns_perform (I := StorageI) _ _ _).mp h
            exact ⟨read, current, by rw [hrest], hread, hcheck⟩
  · intro h
    rcases h with ⟨read, current, rfl, hread, hcheck⟩
    refine ⟨read, _, rfl, ?_⟩
    simp only [hread, hcheck]
    exact (Prog.returns_perform (I := StorageI) _ _ _).mpr rfl

/-- Exactly the muted requests are handled without an event for a sync call. -/
theorem handleCommand_mute_iff {t t' : SyncTask} {r : SyncRequest} {tr : StorageTrace}
    {events : List SyncEvent} (h : (t.handleCommand r.command).Returns tr (t', events)) :
    (∀ event ∈ events, event.final = false) ↔ t.Mute tr r := by
  cases r with
  | sync data =>
      have hanswers := handleCommand_answers_iff (r := .sync data) trivial h
      -- a sync without an answer is one that was not accepted
      have hnone : (∀ event ∈ events, event.final = false) ↔
          ¬ (SyncRequest.sync data).AnsweredBy events := by
        unfold SyncRequest.AnsweredBy
        simp [SyncRequest.accepts_sync]
      rw [hnone, hanswers]
      unfold Answers Mute
      cases t.paused <;> cases t.stateMachine.canAcceptCommands <;> simp
  | resolveConflict recordId strategy =>
      have hanswers := handleCommand_answers_iff (r := .resolveConflict recordId strategy)
        trivial h
      have hmute : t.Mute tr (.resolveConflict recordId strategy) ↔
          t.Answers tr (.resolveConflict recordId strategy) := Iff.rfl
      refine Iff.trans ?_ (hmute.trans hanswers.symm).symm
      rcases (returns_handleResolveConflict _ _ _ _ _).mp h with
        ⟨message, -, hout, -⟩ | ⟨id, item, result, -, -, -, hout⟩
      · cases hout
        simp [SyncRequest.AnsweredBy, SyncEvent.final, SyncRequest.accepts]
      · cases result <;> cases hout <;>
          simp [SyncRequest.AnsweredBy, SyncEvent.final, SyncRequest.accepts]
  | resolveAllConflicts strategy =>
      rcases returns_handleResolveAll h with ⟨-, -, count, rfl⟩
      simp [Mute, SyncEvent.final, SyncRequest.accepts]
  | downloadMetadata =>
      rcases (returns_handleDownloadMetadata _ _ _).mp h with ⟨read, rfl, hout⟩
      cases hout
      unfold Mute
      cases hread : CloudStorage.metadataOfRead read with
      | ok m =>
          refine ⟨fun _ => ⟨read, m, rfl, hread⟩, fun _ => ?_⟩
          simp [SyncEvent.final, SyncRequest.accepts]
      | error e =>
          constructor
          · intro hmute
            have hfinal := hmute _ List.mem_cons_self
            cases hfinal
          -- the metadata was read, so the call is answered
          · intro hmute
            rcases hmute with ⟨read', m, htr, hread'⟩
            injection htr with hevent
            injection hevent with _ hanswer
            have hsame : read = read' := hanswer
            rw [← hsame, hread] at hread'
            cases hread'
  | pushMetadataAtomic m v =>
      rcases (returns_handlePushMetadataAtomic _ _ _ _ _).mp h with ⟨result, hresult, hout⟩
      cases hout
      have hmute : t.Mute tr (.pushMetadataAtomic m v) ↔
          (CloudStorage.pushMetadataAtomic m v).Returns tr (.ok ()) :=
        (returns_pushMetadataAtomic_ok m v tr).symm
      refine Iff.trans ?_ hmute.symm
      cases result with
      | ok u =>
          refine ⟨fun _ => hresult, fun _ => ?_⟩
          simp [SyncEvent.final, SyncRequest.accepts]
      | error e =>
          constructor
          · intro hmute
            have hfinal := hmute _ List.mem_cons_self
            cases hfinal
          · intro hok
            have hsame := hok.value_eq hresult
            cases hsame
  | pause =>
      cases h.2
      simp [Mute, SyncEvent.final, SyncRequest.accepts]
  | resume =>
      cases h.2
      simp [Mute, SyncEvent.final, SyncRequest.accepts]
  | shutdown =>
      cases h.2
      simp [Mute, SyncEvent.final, SyncRequest.accepts]

end SyncTask

/-! ## What a completion reports as uploaded -/

section

variable [Codec] [Serde]

/-- The ids a run of the pipeline reports as uploaded are ids of uploads it was given, and it
wrote those. -/
theorem SyncPipeline.written_of_uploadedIds {ctx ctx' : PipelineContext} {result : PipelineResult}
    {tr : StorageTrace} (hfresh : ctx.Fresh) (hnone : ctx.uploadedIds = [])
    (hrun : (execute ctx).Returns tr (ctx', result)) {id : String} (hid : id ∈ ctx'.uploadedIds) :
    ∃ record ∈ ctx.uploads, record.id = id ∧
      (StorageOp.writeRecord id record).answered (.ok ()) ∈ tr := by
  rcases (returns_execute _ _ _ _).mp hrun with ⟨read, rest, htr, h⟩
  -- the preparation leaves the uploads as they were given
  have hsame : (prepare ctx read).1.uploads = ctx.uploads ∧
      (prepare ctx read).1.uploadedIds = ctx.uploadedIds := by
    rcases prepare_cases ctx read with ⟨outcome, -, heq⟩ | ⟨m, -, -, -, heq⟩ | ⟨-, heq⟩
    · rw [heq]
      exact ⟨rfl, rfl⟩
    · rw [heq]
      exact (DetectStage.samePush_execute (pulled ctx m)).2
    · rw [heq]
      exact (DetectStage.samePush_execute { ctx with remoteMetadata := none }).2
  by_cases hcontinue : (prepare ctx read).2 = .Continue
  · rw [if_pos hcontinue] at h
    rcases h with ⟨outcome, hpush, -⟩
    have hinfo := (prepare_fresh hfresh read).2.2.2
    rcases (PushStage.returns_execute _ _ _ _ hinfo).mp hpush with
      ⟨us, ds, cs, last, hus, -, -, hrest, hfinish⟩
    rcases PushStage.finish_frame hfinish with ⟨final, hctx', -⟩
    have hids : ctx'.uploadedIds = PushStage.acceptedUploads us := by
      rw [hctx']
      change (prepare ctx read).1.uploadedIds ++ PushStage.acceptedUploads us = _
      rw [hsame.2, hnone, List.nil_append]
    rw [hids] at hid
    rcases List.mem_map.mp hid with ⟨⟨record, answer⟩, hmem, hrecordId⟩
    rcases List.mem_filter.mp hmem with ⟨hmem, hok⟩
    have hselected : record ∈ PushStage.selectedUploads (prepare ctx read).1 := by
      rw [← hus]
      exact List.mem_map_of_mem (f := Prod.fst) hmem
    -- what is selected was given
    have hgiven : record ∈ ctx.uploads := by
      have hupload := (List.mem_filter.mp hselected).1
      rw [hsame.1] at hupload
      exact hupload
    -- an id is taken over only with the answer that the write went through
    have hanswer : answer = .ok () := by
      cases answer with
      | ok u => rfl
      | error e => cases hok
    have hevent : (StorageOp.writeRecord id record).answered (.ok ()) ∈ us.map uploadEvent := by
      rw [← hrecordId, ← hanswer]
      exact List.mem_map_of_mem hmem
    refine ⟨record, hgiven, hrecordId, ?_⟩
    rw [htr, hrest]
    exact List.mem_cons_of_mem _ (List.mem_append_left _ hevent)
  · rw [if_neg hcontinue] at h
    rcases h with ⟨-, hctx', -⟩
    rw [hctx', hsame.2, hnone] at hid
    cases hid

end

/-- The ids a completion reports as uploaded. -/
def SyncEvent.uploadedIds : SyncEvent → List String
  | .Completed _ _ _ _ ids _ _ => ids
  | _ => []

namespace SyncTask

theorem uploadedIds_handleError (t : SyncTask) (e : SyncError) :
    ∀ event ∈ (t.handleError e).2, event.uploadedIds = [] := by
  unfold handleError
  split
  · dsimp only
    split <;> simp [SyncEvent.uploadedIds]
  · simp [SyncEvent.uploadedIds]

theorem uploadedIds_handlePipelineResult (t : SyncTask) (outcome : PipelineExecutionOutcome) :
    ∀ event ∈ (t.handlePipelineResult outcome).2,
      event.uploadedIds = [] ∨ event.uploadedIds = outcome.uploadedIds := by
  intro event hmem
  unfold handlePipelineResult at hmem
  have hcomplete : ∀ u d c, event ∈ (t.complete outcome u d c).2 →
      event.uploadedIds = [] ∨ event.uploadedIds = outcome.uploadedIds := by
    intro u d c hmem
    simp only [complete, List.mem_cons, List.not_mem_nil, or_false] at hmem
    rcases hmem with rfl | rfl
    · exact Or.inl rfl
    · exact Or.inr rfl
  cases hresult : outcome.result with
  | Completed =>
      rw [hresult] at hmem
      exact hcomplete _ _ _ hmem
  | NoChanges =>
      rw [hresult] at hmem
      exact hcomplete _ _ _ hmem
  | ConflictsDetected ids =>
      rw [hresult] at hmem
      exact hcomplete _ _ _ hmem
  | Error e =>
      rw [hresult] at hmem
      exact Or.inl (uploadedIds_handleError t e event hmem)

variable [Codec] [Serde]

theorem uploadedIds_runCycle {t t' : SyncTask} {tr : StorageTrace} {events : List SyncEvent}
    (h : (t.runCycle).Returns tr (t', events)) :
    ∀ event ∈ events, ∀ id ∈ event.uploadedIds, ∃ vault record, t.vaultData = some vault ∧
      record ∈ vault.uploads ∧ record.id = id ∧
      (StorageOp.writeRecord id record).answered (.ok ()) ∈ tr := by
  intro event hmem id hid
  rcases (t.returns_runCycle tr _).mp h with ⟨e, -, hout⟩ | ⟨rest, ctx, result, htr, hrun, hout⟩
  · have hevents : events = (t.handleError e).2 := congrArg Prod.snd hout
    rw [hevents] at hmem
    rw [uploadedIds_handleError t e event hmem] at hid
    cases hid
  · have hevents : events =
        ((t.storeConflicts ctx).handlePipelineResult (executionOutcome ctx result)).2 :=
      congrArg Prod.snd hout
    rw [hevents] at hmem
    rcases uploadedIds_handlePipelineResult _ _ event hmem with hnone | hids
    · rw [hnone] at hid
      cases hid
    · have hctx : id ∈ ctx.uploadedIds := by
        rw [hids] at hid
        exact hid
      have hempty : t.pipelineContext.uploadedIds = [] := by
        unfold pipelineContext
        cases t.vaultData <;> rfl
      rcases SyncPipeline.written_of_uploadedIds t.pipelineContext_fresh hempty hrun hctx with
        ⟨record, hrecord, hrecordId, hwrite⟩
      have hwrite' : (StorageOp.writeRecord id record).answered (.ok ()) ∈ tr := by
        rw [htr]
        exact List.mem_cons_of_mem _ hwrite
      -- without vault data there is nothing to upload
      unfold pipelineContext at hrecord
      cases hdata : t.vaultData with
      | none =>
          rw [hdata] at hrecord
          cases hrecord
      | some vault =>
          rw [hdata] at hrecord
          exact ⟨vault, record, rfl, hrecord, hrecordId, hwrite'⟩

/-- The ids a sync turn reports as uploaded were written from the vault data of its command. -/
theorem uploadedIds_handleTriggerSync {t t' : SyncTask} {data : Option SyncVaultData}
    {tr : StorageTrace} {events : List SyncEvent}
    (h : (handleTriggerSync { t with vaultData := data }).Returns tr (t', events)) :
    ∀ event ∈ events, ∀ id ∈ event.uploadedIds, ∃ vault record, data = some vault ∧
      record ∈ vault.uploads ∧ record.id = id ∧
      (StorageOp.writeRecord id record).answered (.ok ()) ∈ tr := by
  intro event hmem id hid
  rcases (returns_startCycle _ _ _ _).mp h with ⟨-, -, hout⟩ | ⟨-, -, h⟩
  · cases hout
    cases hmem
  · rcases (returns_transitionAndRun _ _ _ _).mp h with ⟨e, -, -, hout⟩ | ⟨m, u, evs, -, hrun, hout⟩
    · cases hout
      rw [List.mem_singleton] at hmem
      rw [hmem] at hid
      cases hid
    · cases hout
      rcases List.mem_cons.mp hmem with hchanged | hmem
      · rw [hchanged] at hid
        cases hid
      · exact uploadedIds_runCycle hrun event hmem id hid

end SyncTask

/-! ## The queues along a run -/

namespace Emission

variable [Codec] [Serde]

/-- The event is one that a turn of the task's loop emits on that input and trace. -/
def Emitted (em : Emission) : Prop :=
  ∃ t t' events, em.event ∈ events ∧
    SyncTask.loopStep t
      { input := em.input
        trace := em.trace
        events := events } t'

/-- The event was emitted by the turn that handled the command of this call, and what it
reports as uploaded was written from the vault data of the call. -/
structure ProducedFor (em : Emission) (call : Nat) (data : Option SyncVaultData) : Prop where
  own : em.call = some call
  handled : em.input = .command (.TriggerSync data)
  emitted : em.Emitted
  uploaded : ∀ id ∈ em.event.uploadedIds, ∃ vault record, data = some vault ∧
    record ∈ vault.uploads ∧ record.id = id ∧
    (StorageOp.writeRecord id record).answered (.ok ()) ∈ em.trace

theorem ProducedFor.of_emitted {em : Emission} {call : Nat} {data : Option SyncVaultData}
    (hown : em.call = some call) (hinput : em.input = .command (.TriggerSync data))
    (hemitted : em.Emitted) : em.ProducedFor call data := by
  refine ⟨hown, hinput, hemitted, ?_⟩
  rcases hemitted with ⟨t, t', events, hmem, -, hrun⟩
  rw [hinput] at hrun
  exact SyncTask.uploadedIds_handleTriggerSync hrun em.event hmem

end Emission

namespace ServiceState

section

variable [Codec] [Serde]

/-- The first event in the queue that a sync call would take. -/
def firstFinal (events : List Emission) : Option Emission :=
  events.find? fun em => em.event.final

/-- No event that a sync call would take gets ahead of the call's own: none is left over when
the call is issued, the commands of earlier calls are handled without one while it waits, and
no retry runs before its own is there. -/
def Undisturbed (e : Step ServiceState ServiceLabel) : Prop :=
  match e.label with
  | .issue (.sync _) => firstFinal e.source.events = none
  | .handle tr => ∀ call data, e.source.waiting = some (call, .sync data) →
      ∀ c r, e.source.commands.head? = some (c, r) → c ≠ call → e.source.task.Mute tr r
  | .retry _ => ∀ call data, e.source.waiting = some (call, .sync data) →
      firstFinal e.source.events ≠ none
  | _ => True

/-- The queues at any time: the waiting call's command is the last one or handled already, and
the first event a waiting sync call would take is its own. -/
structure Matched (σ : ServiceState) : Prop where
  issued : ∀ p ∈ σ.commands, p.1 < σ.issued
  emitted : ∀ em ∈ σ.events, em.Emitted
  last : ∀ call r, σ.waiting = some (call, r) → σ.commands = [] ∨
    ∃ earlier, σ.commands = earlier ++ [(call, r)] ∧ ∀ p ∈ earlier, p.1 ≠ call
  unanswered : ∀ call data, σ.waiting = some (call, .sync data) → σ.commands ≠ [] →
    firstFinal σ.events = none
  first : ∀ call data em, σ.waiting = some (call, .sync data) →
    firstFinal σ.events = some em →
      em.call = some call ∧ em.input = .command (.TriggerSync data)

omit [Codec] [Serde] in
theorem firstFinal_append (l l' : List Emission) :
    firstFinal (l ++ l') = (firstFinal l).or (firstFinal l') :=
  List.find?_append

omit [Codec] [Serde] in
theorem firstFinal_eq_none {l : List Emission} :
    firstFinal l = none ↔ ∀ em ∈ l, em.event.final = false := by
  unfold firstFinal
  simp

omit [Codec] [Serde] in
theorem firstFinal_emissions_eq_none {call : Option Nat} {input : TaskInput} {tr : StorageTrace}
    {events : List SyncEvent} (h : ∀ event ∈ events, event.final = false) :
    firstFinal (emissions call input tr events) = none := by
  rw [firstFinal_eq_none]
  intro em hem
  rcases List.mem_map.mp hem with ⟨event, hevent, rfl⟩
  exact h event hevent

omit [Codec] [Serde] in
/-- What is found among the events of a turn is marked with the turn. -/
theorem mem_emissions {call : Option Nat} {input : TaskInput} {tr : StorageTrace}
    {events : List SyncEvent} {em : Emission} (h : em ∈ emissions call input tr events) :
    em.call = call ∧ em.input = input ∧ em.trace = tr ∧ em.event ∈ events := by
  rcases List.mem_map.mp h with ⟨event, hevent, rfl⟩
  exact ⟨rfl, rfl, rfl, hevent⟩

theorem matched_fresh (maxRetries : Nat) : (fresh maxRetries).Matched where
  issued := by simp [fresh]
  emitted := by simp [fresh]
  last := by simp [fresh]
  unanswered := by simp [fresh]
  first := by simp [fresh]

/-- A state in which no call waits is matched when its queues are. -/
theorem Matched.of_idle {σ : ServiceState} (hissued : ∀ p ∈ σ.commands, p.1 < σ.issued)
    (hemitted : ∀ em ∈ σ.events, em.Emitted) (hidle : σ.waiting = none) : σ.Matched where
  issued := hissued
  emitted := hemitted
  last := by simp [hidle]
  unanswered := by simp [hidle]
  first := by simp [hidle]

theorem Matched.issue {σ : ServiceState} {r : SyncRequest} (h : σ.Matched)
    (hnone : ∀ data, r = .sync data → firstFinal σ.events = none) :
    Matched { σ with
      commands := σ.commands ++ [(σ.issued, r)]
      waiting := some (σ.issued, r)
      issued := σ.issued + 1 } where
  issued := by
    intro p hp
    rcases List.mem_append.mp hp with hp | hp
    · exact Nat.lt_succ_of_lt (h.issued p hp)
    · rw [List.mem_singleton] at hp
      rw [hp]
      exact Nat.lt_succ_self _
  emitted := h.emitted
  last := by
    intro call r' hwaiting
    cases hwaiting
    exact Or.inr ⟨σ.commands, rfl, fun p hp => Nat.ne_of_lt (h.issued p hp)⟩
  unanswered := by
    intro call data hwaiting _
    cases hwaiting
    exact hnone data rfl
  first := by
    intro call data em hwaiting hfirst
    cases hwaiting
    have hempty : firstFinal σ.events = none := hnone data rfl
    have hsome : firstFinal σ.events = some em := hfirst
    rw [hempty] at hsome
    cases hsome

/-- The turn that handles the next command: either it is the waiting call's own, or it adds
nothing that call would take. -/
theorem Matched.handle {σ : ServiceState} {call : Nat} {r : SyncRequest}
    {rest : List (Nat × SyncRequest)} {tr : StorageTrace} {t : SyncTask}
    {events : List SyncEvent} (h : σ.Matched) (hnext : σ.commands = (call, r) :: rest)
    (hlive : σ.task.state ≠ .ShuttingDown)
    (hrun : (σ.task.handleCommand r.command).Returns tr (t, events))
    (hmute : ∀ c data, σ.waiting = some (c, .sync data) → call ≠ c → σ.task.Mute tr r) :
    Matched { σ with
      task := t
      commands := rest
      events := σ.events ++ emissions (some call) (.command r.command) tr events } := by
  have hpending : σ.commands ≠ [] := by simp [hnext]
  -- where the waiting call's command is
  have hplace : ∀ c r', σ.waiting = some (c, r') →
      (call = c ∧ r = r' ∧ rest = []) ∨
        (call ≠ c ∧ ∃ earlier, rest = earlier ++ [(c, r')] ∧ ∀ p ∈ earlier, p.1 ≠ c) := by
    intro c r' hwaiting
    rcases h.last c r' hwaiting with hempty | ⟨earlier, hcommands, hne⟩
    · exact absurd hempty hpending
    · rw [hnext] at hcommands
      cases earlier with
      | nil =>
          cases hcommands
          exact Or.inl ⟨rfl, rfl, rfl⟩
      | cons p earlier =>
          injection hcommands with hhead htail
          have hcall : call ≠ c := by
            have hp := hne p List.mem_cons_self
            rw [← hhead] at hp
            exact hp
          exact Or.inr ⟨hcall, earlier, htail, fun q hq => hne q (List.mem_cons_of_mem _ hq)⟩
  constructor
  · intro p hp
    exact h.issued p (by rw [hnext]; exact List.mem_cons_of_mem _ hp)
  · intro em hem
    rcases List.mem_append.mp hem with hem | hem
    · exact h.emitted em hem
    · rcases mem_emissions hem with ⟨-, hinput, htrace, hevent⟩
      refine ⟨σ.task, t, events, hevent, hlive, ?_⟩
      rw [hinput, htrace]
      exact hrun
  · intro c r' hwaiting
    rcases hplace c r' hwaiting with ⟨-, -, hempty⟩ | ⟨-, hearlier⟩
    · exact Or.inl hempty
    · exact Or.inr hearlier
  · intro c data hwaiting hne
    rcases hplace c _ hwaiting with ⟨-, -, hempty⟩ | ⟨hcall, -⟩
    · exact absurd hempty hne
    · have hquiet := (SyncTask.handleCommand_mute_iff hrun).mpr (hmute c data hwaiting hcall)
      change firstFinal (σ.events ++ _) = none
      rw [firstFinal_append, h.unanswered c data hwaiting hpending,
        firstFinal_emissions_eq_none hquiet]
      rfl
  · intro c data em hwaiting hfirst
    have hold := h.unanswered c data hwaiting hpending
    have hfound : firstFinal (emissions (some call) (.command r.command) tr events) = some em := by
      have happend : firstFinal (σ.events ++
          emissions (some call) (.command r.command) tr events) = some em := hfirst
      rw [firstFinal_append, hold] at happend
      exact happend
    rcases hplace c _ hwaiting with ⟨hcall, hr, -⟩ | ⟨hcall, -⟩
    · rcases mem_emissions (List.mem_of_find?_eq_some hfound) with ⟨hown, hinput, -, -⟩
      rw [hown, hinput, hcall, hr]
      exact ⟨rfl, rfl⟩
    · have hquiet := (SyncTask.handleCommand_mute_iff hrun).mpr (hmute c data hwaiting hcall)
      rw [firstFinal_emissions_eq_none hquiet] at hfound
      cases hfound

/-- A retry adds its events behind the answer that is there already. -/
theorem Matched.retry {σ : ServiceState} {tr : StorageTrace} {t : SyncTask}
    {events : List SyncEvent} (h : σ.Matched) (hdue : σ.task.nextRetry = true)
    (hlive : σ.task.state ≠ .ShuttingDown)
    (hrun : (σ.task.handleTimer).Returns tr (t, events))
    (hanswered : ∀ call data, σ.waiting = some (call, .sync data) →
      firstFinal σ.events ≠ none) :
    Matched { σ with
      task := t
      events := σ.events ++ emissions none .timer tr events } where
  issued := h.issued
  emitted := by
    intro em hem
    rcases List.mem_append.mp hem with hem | hem
    · exact h.emitted em hem
    · rcases mem_emissions hem with ⟨-, hinput, htrace, hevent⟩
      refine ⟨σ.task, t, events, hevent, hlive, ?_⟩
      rw [hinput, htrace]
      exact ⟨hdue, hrun⟩
  last := h.last
  unanswered := by
    intro call data hwaiting hne
    exact absurd (h.unanswered call data hwaiting hne) (hanswered call data hwaiting)
  first := by
    intro call data em hwaiting hfirst
    have happend : firstFinal (σ.events ++ emissions none .timer tr events) = some em := hfirst
    rw [firstFinal_append] at happend
    -- an answer before the retry is still the first one
    cases hfound : firstFinal σ.events with
    | none => exact absurd hfound (hanswered call data hwaiting)
    | some em' =>
        rw [hfound] at happend
        exact h.first call data em hwaiting (hfound.trans happend)

/-- An event the call drops is not one it would take. -/
theorem Matched.take {σ : ServiceState} {call : Nat} {r : SyncRequest} {em : Emission}
    {rest : List Emission} (h : σ.Matched) (hwaiting : σ.waiting = some (call, r))
    (hfirst : σ.events = em :: rest) : (σ.taken r em rest).Matched := by
  have hemitted : ∀ em' ∈ rest, em'.Emitted := fun em' hem' =>
    h.emitted em' (by rw [hfirst]; exact List.mem_cons_of_mem _ hem')
  by_cases haccepts : r.accepts em.event = true
  · refine Matched.of_idle h.issued hemitted ?_
    simp [taken, haccepts]
  · have hkeeps : (σ.taken r em rest).waiting = σ.waiting := by
      -- an event that is passed over ends no wait for a sync
      simp [taken, haccepts]
    have hsame : ∀ c data, σ.waiting = some (c, .sync data) →
        firstFinal rest = firstFinal σ.events := by
      intro c data hsync
      rw [hwaiting] at hsync
      cases hsync
      have hdrop : em.event.final = false := by
        rw [← SyncRequest.accepts_sync data]
        exact Bool.eq_false_iff.mpr haccepts
      rw [hfirst]
      simp [firstFinal, hdrop]
    constructor
    · exact h.issued
    · exact hemitted
    · intro c r' hw
      exact h.last c r' (hkeeps ▸ hw)
    · intro c data hw hne
      have hw' : σ.waiting = some (c, .sync data) := hkeeps ▸ hw
      exact (hsame c data hw').trans (h.unanswered c data hw' hne)
    · intro c data em' hw hfound
      have hw' : σ.waiting = some (c, .sync data) := hkeeps ▸ hw
      exact h.first c data em' hw' ((hsame c data hw').symm.trans hfound)

/-- Step lemma: an undisturbed step keeps the queues matched. -/
theorem matched_step {e : Step ServiceState ServiceLabel}
    (hstep : e.source.step e.label e.target) (hquiet : Undisturbed e)
    (h : e.source.Matched) : e.target.Matched := by
  rcases e with ⟨σ, label, σ'⟩
  replace hstep : step σ label σ' := hstep
  cases hstep with
  | issue r hfree =>
      refine Matched.issue h ?_
      intro data hr
      subst hr
      exact hquiet
  | handle call r rest tr t events hnext hlive hrun =>
      refine Matched.handle h hnext hlive hrun ?_
      intro c data hwaiting hcall
      exact hquiet c data hwaiting call r (by rw [hnext]; rfl) hcall
  | retry tr t events hdue hlive hrun => exact Matched.retry h hdue hlive hrun hquiet
  | take call r em rest hwaiting hfirst => exact Matched.take h hwaiting hfirst
  | giveUp call r hwaiting => exact Matched.of_idle h.issued h.emitted rfl

/-- In a run of undisturbed steps every event a sync call takes as its reply was produced for
that call. -/
theorem reply_produced_for {maxRetries : Nat} {es : List (Step ServiceState ServiceLabel)}
    {last : ServiceState} (hrun : Run step (fresh maxRetries) es last)
    (hquiet : ∀ e ∈ es, Undisturbed e) :
    ∀ e ∈ es, ∀ call data em rest, e.label = .take →
      e.source.waiting = some (call, .sync data) → e.source.events = em :: rest →
      (SyncRequest.sync data).accepts em.event = true → em.ProducedFor call data := by
  intro e he call data em rest _ hwaiting hfirst haccepts
  have hmatched : e.source.Matched :=
    hrun.invariant_source (matched_fresh maxRetries) hquiet
      (fun _ hstep hC hinv => matched_step hstep hC hinv) e he
  have hfinal : em.event.final = true := by
    rw [← SyncRequest.accepts_sync data]
    exact haccepts
  have hfound : firstFinal e.source.events = some em := by
    rw [hfirst]
    simp [firstFinal, hfinal]
  have hmark := hmatched.first call data em hwaiting hfound
  have hemitted := hmatched.emitted em (by rw [hfirst]; exact List.mem_cons_self)
  exact Emission.ProducedFor.of_emitted hmark.1 hmark.2 hemitted

end

/-! ### A call that takes the reply of another -/

/-- A waiting call drops what it does not accept. -/
theorem drain [Codec] [Serde] {call : Nat} {r : SyncRequest} {em : Emission} {rest : List Emission}
    (pre : List Emission) (hpre : ∀ em' ∈ pre, r.accepts em'.event = false) (σ : ServiceState)
    (hwaiting : σ.waiting = some (call, r)) (hevents : σ.events = pre ++ em :: rest) :
    ∃ es, Run step σ es { σ with events := em :: rest } ∧ ∀ e ∈ es, e.label = .take := by
  induction pre generalizing σ with
  | nil =>
      have hsame : { σ with events := em :: rest } = σ := by
        rcases σ with ⟨task, commands, events, waiting, issued⟩
        have hevents' : events = em :: rest := hevents
        rw [hevents']
      rw [hsame]
      exact ⟨[], Run.nil σ, fun _ h => absurd h List.not_mem_nil⟩
  | cons d pre ih =>
      have hdrop : r.accepts d.event = false := hpre d List.mem_cons_self
      have htaken : σ.taken r d (pre ++ em :: rest) = { σ with events := pre ++ em :: rest } := by
        simp [taken, hdrop]
      have hstep : step σ .take { σ with events := pre ++ em :: rest } := by
        rw [← htaken]
        exact .take σ call r d _ hwaiting hevents
      rcases ih (fun em' hem' => hpre em' (List.mem_cons_of_mem _ hem'))
        { σ with events := pre ++ em :: rest } hwaiting rfl with ⟨es, hrun, hlabels⟩
      refine ⟨_, Run.cons hstep hrun, ?_⟩
      intro e he
      rcases List.mem_cons.mp he with rfl | he
      · rfl
      · exact hlabels e he

/-- The steps by which a waiting sync call comes to the first event that it accepts. -/
theorem take_first [Codec] [Serde] {σ : ServiceState} (call : Nat) (data : Option SyncVaultData)
    {em : Emission} (hwaiting : σ.waiting = some (call, .sync data))
    (hfirst : firstFinal σ.events = some em) :
    ∃ es e last rest, Run step σ (es ++ [e]) last ∧ (∀ e' ∈ es ++ [e], e'.label = .take) ∧
      e.source.waiting = some (call, .sync data) ∧ e.source.events = em :: rest ∧
      (SyncRequest.sync data).accepts em.event = true := by
  rcases List.find?_eq_some_iff_append.mp hfirst with ⟨haccepts, pre, rest, hevents, hpre⟩
  have haccepts' : (SyncRequest.sync data).accepts em.event = true := by
    rw [SyncRequest.accepts_sync]
    exact haccepts
  have hdropped : ∀ em' ∈ pre, (SyncRequest.sync data).accepts em'.event = false := by
    intro em' hem'
    rw [SyncRequest.accepts_sync]
    simpa using hpre em' hem'
  rcases drain pre hdropped σ hwaiting hevents with ⟨es, hdrain, hlabels⟩
  let e : Step ServiceState ServiceLabel :=
    { source := { σ with events := em :: rest }
      label := .take
      target := taken { σ with events := em :: rest } (.sync data) em rest }
  have htake : step e.source e.label e.target := .take _ call (.sync data) em rest hwaiting rfl
  refine ⟨es, e, e.target, rest, hdrain.append (Run.of_step htake (Run.nil _)), ?_, hwaiting, rfl,
    haccepts'⟩
  intro e' he'
  rcases List.mem_append.mp he' with hmem | hmem
  · exact hlabels e' hmem
  · rw [List.mem_singleton.mp hmem]

/-- When a call gives up before its command is handled, the next sync call takes the answer of
that command, whatever vault data it came with itself. -/
theorem stale_reply [Codec] [Serde] {maxRetries : Nat} {data : Option SyncVaultData}
    (data' : Option SyncVaultData) {tr : StorageTrace} {out : SyncTask × List SyncEvent}
    (hrun : ((fresh maxRetries).task.handleCommand (.TriggerSync data)).Returns tr out) :
    ∃ es e last em rest, Run step (fresh maxRetries) es last ∧ e ∈ es ∧ e.label = .take ∧
      e.source.waiting = some (1, .sync data') ∧ e.source.events = em :: rest ∧
      (SyncRequest.sync data').accepts em.event = true ∧ em.call = some 0 ∧
      em.input = .command (.TriggerSync data) := by
  rcases out with ⟨t, events⟩
  have hlive : (fresh maxRetries).task.state ≠ .ShuttingDown := by
    intro h
    cases h
  let called : ServiceState :=
    { fresh maxRetries with
      commands := [(0, .sync data)]
      waiting := some (0, .sync data)
      issued := 1 }
  let handled : ServiceState :=
    { task := t
      commands := []
      events := emissions (some 0) (.command (.TriggerSync data)) tr events
      waiting := none
      issued := 1 }
  let again : ServiceState :=
    { handled with
      commands := [(1, .sync data')]
      waiting := some (1, .sync data')
      issued := 2 }
  have hissue : step (fresh maxRetries) (.issue (.sync data)) called := .issue _ _ rfl
  have hgiveUp : step called .giveUp { called with waiting := none } := .giveUp _ 0 _ rfl
  have hhandle : step { called with waiting := none } (.handle tr) handled :=
    .handle _ 0 (.sync data) [] tr t events rfl hlive hrun
  have hissue' : step handled (.issue (.sync data')) again := .issue _ _ rfl
  have hstart : Run step (fresh maxRetries) _ again :=
    Run.cons hissue (Run.cons hgiveUp (Run.cons hhandle (Run.cons hissue' (Run.nil _))))
  -- a fresh task answers every trigger
  have hanswered : (SyncRequest.sync data).AnsweredBy events :=
    (SyncTask.handleCommand_answers_iff (r := .sync data) trivial hrun).mpr ⟨rfl, rfl⟩
  have hfinal : ∃ em, firstFinal again.events = some em := by
    cases hfirst : firstFinal again.events with
    | some em => exact ⟨em, rfl⟩
    | none =>
        rcases hanswered with ⟨event, hevent, haccepts⟩
        have hnone := firstFinal_eq_none.mp hfirst _ (List.mem_map_of_mem hevent)
        rw [SyncRequest.accepts_sync] at haccepts
        rw [haccepts] at hnone
        cases hnone
  rcases hfinal with ⟨em, hfirst⟩
  have hmark := mem_emissions (List.mem_of_find?_eq_some hfirst)
  rcases take_first 1 data' rfl hfirst with
    ⟨es, e, last, rest, htakes, hlabels, hwaiting, hevents, haccepts⟩
  exact ⟨_, e, last, em, rest, hstart.append htakes,
    List.mem_append_right _ (List.mem_append_right _ (List.mem_singleton_self _)),
    hlabels e (List.mem_append_right _ (List.mem_singleton_self _)), hwaiting, hevents, haccepts,
    hmark.1, hmark.2.1⟩

section

attribute [local instance] Sample.codec Sample.serde

/-- A vault snapshot with an edited record of the given version. -/
def editedVault (version : Nat) : SyncVaultData where
  localRecords :=
    [{ recordId := Sample.recordId
       syncStatus := .Pending
       version := version }]
  uploads := [Sample.record version "BAUG"]
  localMetadataVersion := 0
  lastRemoteMetadata := none
  localVaultToken := "token"

/-- The service when a read of the metadata was given up and a sync is called. -/
def askedTwice : ServiceState :=
  { fresh 5 with
    commands := [(0, .downloadMetadata), (1, .sync (some (editedVault 1)))]
    waiting := some (1, .sync (some (editedVault 1)))
    issued := 2 }

/-- The service after the task has handled a command against an empty cloud. -/
def handled (σ : ServiceState) (call : Nat) (r : SyncRequest)
    (rest : List (Nat × SyncRequest)) : ServiceState :=
  let turn := run (CloudStore.serve Sample.instant) (σ.task.handleCommand r.command)
    CloudStore.empty
  { σ with
    task := turn.1.1
    commands := rest
    events := σ.events ++ emissions (some call) (.command r.command)
      (runTrace (CloudStore.serve Sample.instant) (σ.task.handleCommand r.command)
        CloudStore.empty) turn.1.2 }

def handling (σ : ServiceState) (call : Nat) (r : SyncRequest)
    (rest : List (Nat × SyncRequest)) : Step ServiceState ServiceLabel where
  source := σ
  label := .handle (runTrace (CloudStore.serve Sample.instant)
    (σ.task.handleCommand r.command) CloudStore.empty)
  target := handled σ call r rest

theorem step_handling (σ : ServiceState) (call : Nat) (r : SyncRequest)
    (rest : List (Nat × SyncRequest)) (hnext : σ.commands = (call, r) :: rest)
    (hlive : σ.task.state ≠ .ShuttingDown) :
    step (handling σ call r rest).source (handling σ call r rest).label
      (handling σ call r rest).target :=
  .handle σ call r rest _ _ _ hnext hlive (returns_runTrace _ _ _)

/-- The task has answered the read that nobody waits for. -/
def readState : ServiceState :=
  handled askedTwice 0 .downloadMetadata [(1, .sync (some (editedVault 1)))]

/-- And then the sync. -/
def syncedState : ServiceState :=
  handled readState 1 (.sync (some (editedVault 1))) []

def reportsUpload (em : Emission) : Bool :=
  match em.event with
  | .Completed _ _ _ _ uploadedIds _ _ => decide (uploadedIds = [Sample.recordId])
  | _ => false

/-- The first event that the sync call accepts reports its upload. -/
theorem syncedState_reports :
    readState.task.state ≠ .ShuttingDown ∧
      (firstFinal syncedState.events).any reportsUpload = true := by
  decide +kernel

/-- The steps up to the events of the sync. -/
def abandonedRead : List (Step ServiceState ServiceLabel) :=
  let called : ServiceState :=
    { fresh 5 with
      commands := [(0, .downloadMetadata)]
      waiting := some (0, .downloadMetadata)
      issued := 1 }
  [{ source := fresh 5
     label := .issue .downloadMetadata
     target := called },
   { source := called
     label := .giveUp
     target := { called with waiting := none } },
   { source := { called with waiting := none }
     label := .issue (.sync (some (editedVault 1)))
     target := askedTwice },
   handling askedTwice 0 .downloadMetadata [(1, .sync (some (editedVault 1)))],
   handling readState 1 (.sync (some (editedVault 1))) []]

theorem abandonedRead_run : Run step (fresh 5) abandonedRead syncedState := by
  have hread := step_handling askedTwice 0 .downloadMetadata
    [(1, .sync (some (editedVault 1)))] rfl (by decide)
  have hsync := step_handling readState 1 (.sync (some (editedVault 1))) [] rfl
    syncedState_reports.1
  exact Run.cons (.issue _ .downloadMetadata rfl) (Run.cons (.giveUp _ 0 .downloadMetadata rfl)
    (Run.cons (.issue _ (.sync (some (editedVault 1))) rfl)
      (Run.cons hread (Run.cons hsync (Run.nil _)))))

theorem abandonedRead_undisturbed : ∀ e ∈ abandonedRead, Undisturbed e := by
  intro e he
  simp only [abandonedRead, List.mem_cons, List.not_mem_nil, or_false] at he
  rcases he with rfl | rfl | rfl | rfl | rfl
  · trivial
  · trivial
  · rfl
  -- the read of the metadata goes through, so it is answered without a completion
  · intro call data hwaiting c request hnext _
    cases hnext
    exact ⟨_, none, rfl, rfl⟩
  · intro call data hwaiting c request hnext hne
    cases hwaiting
    cases hnext
    exact absurd rfl hne

/-- A read is called and given up, and the sync called after it takes the completion of its own
upload. -/
theorem reply_produced_for_abandoned :
    ∃ em, (firstFinal syncedState.events) = some em ∧ reportsUpload em = true ∧
      em.ProducedFor 1 (some (editedVault 1)) := by
  rcases (Option.any_eq_true _ _).mp syncedState_reports.2 with ⟨em, hfirst, hreports⟩
  refine ⟨em, hfirst, hreports, ?_⟩
  rcases take_first 1 (some (editedVault 1)) rfl hfirst with
    ⟨es, e, last, rest, htakes, hlabels, hwaiting, hevents, haccepts⟩
  have hmem : e ∈ es ++ [e] := List.mem_append_right _ (List.mem_singleton_self _)
  refine reply_produced_for (abandonedRead_run.append htakes) ?_ e
    (List.mem_append_right _ hmem) 1 _ em rest (hlabels e hmem) hwaiting hevents haccepts
  intro e' he'
  rcases List.mem_append.mp he' with hbefore | htake
  · exact abandonedRead_undisturbed e' hbefore
  · unfold Undisturbed
    rw [hlabels e' htake]
    trivial

/-- The first sync uploads version 1 and is given up; the call that syncs version 2 gets its
completion. -/
theorem stale_reply_taken :
    ¬ ∀ maxRetries es last, Run step (fresh maxRetries) es last →
      ∀ e ∈ es, ∀ call data em rest, e.label = .take →
        e.source.waiting = some (call, .sync data) → e.source.events = em :: rest →
        (SyncRequest.sync data).accepts em.event = true → em.ProducedFor call data := by
  intro hall
  have hturn := returns_runTrace (CloudStore.serve Sample.instant)
    ((fresh 5).task.handleCommand (.TriggerSync (some (editedVault 1)))) CloudStore.empty
  rcases stale_reply (some (editedVault 2)) hturn with
    ⟨es, e, last, em, rest, hrun, he, hlabel, hwaiting, hevents, haccepts, hcall, -⟩
  have hproduced := hall 5 es last hrun e he 1 _ em rest hlabel hwaiting hevents haccepts
  have hother : some 0 = some 1 := hcall.symm.trans hproduced.own
  cases hother

end

end ServiceState

end OakKeyring
