import OakKeyring.Executor.Rotation
import OakKeyring.Sync.Paused

/-!
# The pause as a mutex

The protocol runs against the service while the task works through its commands and its
retries. A rotation that has its pause confirmed works on a paused task and leaves it resumed;
the exit after an unconfirmed pause is the one that can leave the task paused.
-/

namespace OakKeyring

open Effect Transition

/-! ## The protocol and the service -/

/-- The service call of an operation; the other operations are the executor's own. -/
def RotationOp.request : RotationOp → Option SyncRequest
  | pause => some .pause
  | resume => some .resume
  | downloadMetadata => some .downloadMetadata
  | pushMetadataAtomic metadata expectedVersion =>
      some (.pushMetadataAtomic metadata expectedVersion)
  | _ => none

/-- What a call makes of the event it takes as its reply. -/
def RotationOp.reply : (op : RotationOp) → SyncEvent → Option op.Answer
  | pause, .Paused => some (.ok ())
  | resume, .Resumed => some (.ok ())
  | downloadMetadata, .MetadataDownloaded metadata => some (.ok metadata)
  | downloadMetadata, .Failed error _ => some (.error (.ProviderError "sync" error))
  | pushMetadataAtomic _ _, .MetadataPushed => some (.ok ())
  | pushMetadataAtomic _ _, .Failed error _ => some (.error (.ProviderError "sync" error))
  | _, _ => none

/-- A call that gave up. -/
def RotationOp.failure : (op : RotationOp) → SyncError → Option op.Answer
  | pause, e => some (.error e)
  | resume, e => some (.error e)
  | downloadMetadata, e => some (.error e)
  | pushMetadataAtomic _ _, e => some (.error e)
  | _, _ => none

/-- The service and the rotation protocol that the executor is in, if it is in one. -/
structure RotationSystem where
  service : ServiceState
  protocol : Option (Rotation CommandResult)

inductive RotationLabel
  | service (l : ServiceLabel)
  | start
  | send
  | drop
  | reply
  | giveUp
  | internal
  | finish (result : CommandResult)

/-- The steps of the service that are open to others: the task's own at any time; calls while
no protocol runs, of which only the protocol pauses and resumes, and a shutdown takes the
service away. -/
def RotationSystem.Open (σ : RotationSystem) : ServiceLabel → Prop
  | .handle _ => True
  | .retry _ => True
  | .issue r => σ.protocol = none ∧ r ≠ .pause ∧ r ≠ .resume ∧ r ≠ .shutdown
  | .take => σ.protocol = none
  | .giveUp => σ.protocol = none

namespace RotationSystem

def fresh (maxRetries : Nat) : RotationSystem where
  service := ServiceState.fresh maxRetries
  protocol := none

section

variable [Codec] [Serde]

inductive step : RotationSystem → RotationLabel → RotationSystem → Prop
  | service (σ : RotationSystem) (l : ServiceLabel) (s : ServiceState) (hopen : σ.Open l)
      (hstep : ServiceState.step σ.service l s) :
      step σ (.service l) { σ with service := s }
  | start (σ : RotationSystem) (label errorKey : String) (hidle : σ.protocol = none)
      (hfree : σ.service.waiting = none) :
      step σ .start
        { σ with protocol := some (Rotation.executeRotationProtocol true label errorKey) }
  | send (σ : RotationSystem) (op : RotationOp) (k : op.Answer → Rotation CommandResult)
      (r : SyncRequest) (s : ServiceState) (h : σ.protocol = some (.call op k))
      (hr : op.request = some r) (hstep : ServiceState.step σ.service (.issue r) s) :
      step σ .send { σ with service := s }
  | drop (σ : RotationSystem) (op : RotationOp) (k : op.Answer → Rotation CommandResult)
      (em : Emission) (rest : List Emission) (s : ServiceState)
      (h : σ.protocol = some (.call op k)) (hfirst : σ.service.events = em :: rest)
      (hother : op.reply em.event = none) (hstep : ServiceState.step σ.service .take s) :
      step σ .drop { σ with service := s }
  | reply (σ : RotationSystem) (op : RotationOp) (k : op.Answer → Rotation CommandResult)
      (em : Emission) (rest : List Emission) (x : op.Answer) (s : ServiceState)
      (h : σ.protocol = some (.call op k)) (hfirst : σ.service.events = em :: rest)
      (hreply : op.reply em.event = some x) (hstep : ServiceState.step σ.service .take s) :
      step σ .reply
        { service := s
          protocol := some (k x) }
  | giveUp (σ : RotationSystem) (op : RotationOp) (k : op.Answer → Rotation CommandResult)
      (e : SyncError) (x : op.Answer) (s : ServiceState) (h : σ.protocol = some (.call op k))
      (hfailure : op.failure e = some x) (hstep : ServiceState.step σ.service .giveUp s) :
      step σ .giveUp
        { service := s
          protocol := some (k x) }
  | internal (σ : RotationSystem) (op : RotationOp) (k : op.Answer → Rotation CommandResult)
      (x : op.Answer) (h : σ.protocol = some (.call op k)) (hlocal : op.request = none) :
      step σ .internal { σ with protocol := some (k x) }
  | finish (σ : RotationSystem) (result : CommandResult)
      (h : σ.protocol = some (.ret result)) :
      step σ (.finish result) { σ with protocol := none }

end

/-! ## What is wanted -/

/-- The turn of the task in a step of the service, by its input and its operations. -/
def turnOf (s : ServiceState) : ServiceLabel → Option TaskLabel
  | .handle tr => s.commands.head?.map fun c =>
      { input := .command c.2.command
        trace := tr
        events := [] }
  | .retry tr =>
      some
        { input := .timer
          trace := tr
          events := [] }
  | _ => none

/-- The executor is in the rotation itself. -/
def Rotating (σ : RotationSystem) : Prop :=
  ∃ expectedVersion k, σ.protocol = some (.call (.rotate expectedVersion) k)

/-- What a request makes of the pause once it is handled. -/
def pausedOnce (paused : Bool) : SyncRequest → Bool
  | .pause => true
  | .resume => false
  | _ => paused

/-- The task is not paused once it has handled what is queued. -/
def LeftUnpaused (s : ServiceState) : Prop :=
  s.commands.foldl (fun paused c => pausedOnce paused c.2) s.task.paused = false

/-- While the task is paused and while the executor rotates, the turns of the task are quiet;
every exit of the protocol leaves the task unpaused. -/
structure MutexKept (es : List (Step RotationSystem RotationLabel)) : Prop where
  paused : ∀ e ∈ es, ∀ l turn, e.label = .service l → turnOf e.source.service l = some turn →
    e.source.service.task.paused = true → turn.Quiet
  rotating : ∀ e ∈ es, ∀ l turn, e.label = .service l → turnOf e.source.service l = some turn →
    e.source.Rotating → turn.Quiet
  leaves : ∀ e ∈ es, ∀ result, e.label = .finish result → LeftUnpaused e.target.service

/-- A turn of a paused task is calm, and no call of `pause` gives up. -/
structure Undisturbed (e : Step RotationSystem RotationLabel) : Prop where
  calm : ∀ l turn, e.label = .service l → turnOf e.source.service l = some turn →
    e.source.service.task.paused = true → e.source.service.task.Calm turn
  confirmed : e.label = .giveUp → ∀ k, e.source.protocol ≠ some (.call .pause k)

/-! ## The protocol -/

/-- The pause that a protocol holds: from its confirmation to the call of `resume`. -/
def holds : Env RotationI Bool
  | _, .pause, .ok _, held' => held' = true
  | _, .resume, _, held' => held' = false
  | held, _, _, held' => held' = held

/-- A rotation needs the pause, and a pause is asked for only while none is held. -/
def needs (held : Bool) : RotationOp → Prop
  | .rotate _ => held = true
  | .pause => held = false
  | _ => True

abbrev Holds {α : Type} (held : Bool) (Q : α → Bool → Prop) (p : Rotation α) : Prop :=
  safe needs holds Q p held

abbrev Released (_ : CommandResult) (held : Bool) : Prop :=
  held = false

theorem holds_resumeAndReturn (held : Bool) (result : CommandResult) :
    Holds held Released (Rotation.resumeAndReturn result) := by
  refine safe_perform trivial ?_
  intro answer held' hresume
  cases answer <;> exact hresume

theorem holds_resolveCasConflict (version : Nat) :
    Holds true (fun _ held => held = true) (Rotation.resolveCasConflict version) := by
  refine safe_perform trivial ?_
  intro answer held' hsame
  have hheld : held' = true := by
    cases answer <;> exact hsame
  cases answer with
  | error e => exact hheld
  | ok metadata =>
      cases metadata with
      | none => exact hheld
      | some m =>
          by_cases hlow : m.currentDekVersion < version
          · simp only [if_pos hlow]
            exact hheld
          · simp only [if_neg hlow]
            exact hheld

theorem holds_publish (label : String) (expectedVersion : Nat) (res : RotationResult) :
    Holds true Released (Rotation.publish label expectedVersion res) := by
  refine safe_perform trivial ?_
  intro answer held' hsame
  have hheld : held' = true := by
    cases answer <;> exact hsame
  rw [hheld]
  cases answer with
  | error e => exact holds_resumeAndReturn true _
  | ok metadata =>
      cases metadata with
      | none => exact holds_resumeAndReturn true _
      | some m =>
          refine safe_perform trivial ?_
          intro pushed held'' hsame'
          have hheld' : held'' = true := by
            cases pushed <;> exact hsame'
          rw [hheld']
          cases pushed with
          | ok u => exact holds_resumeAndReturn true _
          | error casError =>
              refine safe_bind (holds_resolveCasConflict res.newDekVersion) ?_
              intro alignment held _
              exact holds_resumeAndReturn held _

theorem holds_rotateAndPublish (label errorKey : String) (expectedVersion : Nat) :
    Holds true Released (Rotation.rotateAndPublish true label errorKey expectedVersion) := by
  refine safe_perform trivial ?_
  intro available held' hsame
  have hheld : held' = true := hsame
  rw [hheld]
  cases available with
  | false => exact holds_resumeAndReturn true _
  | true =>
      refine safe_perform rfl ?_
      intro rotated held'' hsame'
      have hheld' : held'' = true := by
        cases rotated <;> exact hsame'
      rw [hheld']
      cases rotated with
      | ok res => exact holds_publish label expectedVersion res
      | error e => exact holds_resumeAndReturn true _

/-- The protocol rotates under a confirmed pause and returns without one. -/
theorem holds_executeRotationProtocol (label errorKey : String) :
    Holds false Released (Rotation.executeRotationProtocol true label errorKey) := by
  refine safe_perform trivial ?_
  intro cancelled held hsame
  have hheld : held = false := hsame
  rw [hheld]
  cases cancelled with
  | true => exact rfl
  | false =>
      refine safe_perform rfl ?_
      intro paused held' hpause
      cases paused with
      | error e => exact hpause
      | ok u =>
          have hheld' : held' = true := hpause
          rw [hheld']
          refine safe_perform trivial ?_
          intro metadata held'' hsame'
          have hheld'' : held'' = true := by
            cases metadata <;> exact hsame'
          rw [hheld'']
          cases metadata with
          | ok m => exact holds_rotateAndPublish label errorKey _
          | error e => exact holds_resumeAndReturn true _

/-! ## The queues -/

/-- No pause is on its way, neither as a command nor as an event. -/
structure NoPause (s : ServiceState) : Prop where
  commands : ∀ c ∈ s.commands, c.2 ≠ .pause
  events : ∀ em ∈ s.events, em.event ≠ .Paused

/-- The pause of the waiting call: still behind the commands before it, or done and reported. -/
def Pausing (s : ServiceState) : Prop :=
  (∃ before call, s.commands = before ++ [(call, .pause)] ∧ (∀ c ∈ before, c.2 ≠ .pause) ∧
    ∀ em ∈ s.events, em.event ≠ .Paused) ∨
  (s.commands = [] ∧ s.task.paused = true ∧ ∃ before em after,
    s.events = before ++ em :: after ∧ em.event = .Paused ∧
      (∀ em ∈ before, em.event ≠ .Paused) ∧ ∀ em ∈ after, em.event ≠ .Paused)

/-- The service as the protocol relies on it, by the call that waits. -/
inductive Standing (s : ServiceState) (held : Bool) : Prop
  | pausing (call : Nat) (hwaiting : s.waiting = some (call, .pause)) (hheld : held = false)
      (h : Pausing s)
  | resuming (call : Nat) (hwaiting : s.waiting = some (call, .resume)) (hnone : NoPause s)
      (h : LeftUnpaused s)
  | holding (hwaiting : ∀ w, s.waiting = some w → w.2 ≠ .pause ∧ w.2 ≠ .resume)
      (hnone : NoPause s) (hheld : held = true) (hpaused : s.task.paused = true)
      (h : ∀ c ∈ s.commands, c.2 ≠ .resume)
  | released (hwaiting : ∀ w, s.waiting = some w → w.2 ≠ .pause ∧ w.2 ≠ .resume)
      (hnone : NoPause s) (hheld : held = false) (h : LeftUnpaused s)

section

variable [Codec] [Serde]

/-- What handling a request does to the pause and reports of it. -/
theorem handleCommand_pausedOnce {t t' : SyncTask} {r : SyncRequest} {tr : StorageTrace}
    {events : List SyncEvent} (hrun : (t.handleCommand r.command).Returns tr (t', events)) :
    t'.paused = pausedOnce t.paused r ∧ (r ≠ .pause → SyncEvent.Paused ∉ events) ∧
      (r = .pause → events = [.Paused]) := by
  by_cases hpause : r = .pause
  · rw [hpause] at hrun
    rcases hrun with ⟨-, hout⟩
    cases hout
    rw [hpause]
    exact ⟨rfl, fun hne => absurd rfl hne, fun _ => rfl⟩
  · by_cases hresume : r = .resume
    · rw [hresume] at hrun
      rcases hrun with ⟨-, hout⟩
      cases hout
      rw [hresume]
      exact ⟨rfl, fun _ => by simp, fun h => by cases h⟩
    · have hkept := SyncTask.handleCommand_pause hrun
        (by cases r <;> simp_all [SyncRequest.command])
        (by cases r <;> simp_all [SyncRequest.command])
      refine ⟨?_, fun _ => hkept.2, fun h => absurd h hpause⟩
      rw [hkept.1]
      cases r <;> first | rfl | exact absurd rfl hpause | exact absurd rfl hresume

omit [Codec] [Serde] in
theorem event_mem_emissions {call : Option Nat} {input : TaskInput} {tr : StorageTrace}
    {events : List SyncEvent} {em : Emission}
    (h : em ∈ ServiceState.emissions call input tr events) : em.event ∈ events := by
  rcases List.mem_map.mp h with ⟨event, hevent, heq⟩
  rw [← heq]
  exact hevent

omit [Codec] [Serde] in
theorem emissions_no_paused {call : Option Nat} {input : TaskInput} {tr : StorageTrace}
    {events : List SyncEvent} (h : SyncEvent.Paused ∉ events) :
    ∀ em ∈ ServiceState.emissions call input tr events, em.event ≠ .Paused := by
  intro em hem heq
  have hmem := event_mem_emissions hem
  rw [heq] at hmem
  exact h hmem

omit [Codec] [Serde] in
/-- Events behind the queued ones change nothing as long as none of them reports a pause. -/
theorem Standing.emit {s : ServiceState} {held : Bool} (h : Standing s held) {t : SyncTask}
    {new : List Emission} (hpaused : t.paused = s.task.paused)
    (hnew : ∀ em ∈ new, em.event ≠ .Paused) :
    Standing { s with task := t, events := s.events ++ new } held := by
  -- the new events confirm no pause either
  have hall : (∀ em ∈ s.events, em.event ≠ .Paused) →
      ∀ em ∈ s.events ++ new, em.event ≠ .Paused := by
    intro hevents em hem
    rcases List.mem_append.mp hem with hem | hem
    · exact hevents em hem
    · exact hnew em hem
  -- the flag is handed on with the commands that are left
  have hleft : LeftUnpaused s → LeftUnpaused { s with task := t, events := s.events ++ new } := by
    intro hleft
    have hfold : s.commands.foldl (fun paused c => pausedOnce paused c.2) t.paused = false := by
      rw [hpaused]
      exact hleft
    exact hfold
  cases h with
  | pausing call hwaiting hheld h =>
      refine .pausing call hwaiting hheld ?_
      rcases h with ⟨before, c, hcommands, hbefore, hevents⟩ |
        ⟨hcommands, hset, before, em, after, hevents, hem, hbefore, hafter⟩
      · exact Or.inl ⟨before, c, hcommands, hbefore, hall hevents⟩
      · refine Or.inr ⟨hcommands, hpaused.trans hset, before, em, after ++ new, ?_, hem, hbefore, ?_⟩
        · show s.events ++ new = before ++ em :: (after ++ new)
          rw [hevents]
          simp
        · intro em' hem'
          rcases List.mem_append.mp hem' with hem' | hem'
          · exact hafter em' hem'
          · exact hnew em' hem'
  | resuming call hwaiting hnone h =>
      exact .resuming call hwaiting ⟨hnone.commands, hall hnone.events⟩ (hleft h)
  | holding hwaiting hnone hheld hset h =>
      exact .holding hwaiting ⟨hnone.commands, hall hnone.events⟩ hheld (hpaused.trans hset) h
  | released hwaiting hnone hheld h =>
      exact .released hwaiting ⟨hnone.commands, hall hnone.events⟩ hheld (hleft h)

/-- Step lemma for the head of the command queue. -/
theorem Standing.handle {s : ServiceState} {held : Bool} (h : Standing s held) {call : Nat}
    {r : SyncRequest} {rest : List (Nat × SyncRequest)} {tr : StorageTrace} {t : SyncTask}
    {events : List SyncEvent} (hnext : s.commands = (call, r) :: rest)
    (hrun : (s.task.handleCommand r.command).Returns tr (t, events)) :
    Standing
      { s with
        task := t
        commands := rest
        events := s.events ++ ServiceState.emissions (some call) (.command r.command) tr events }
      held := by
  have hturn := handleCommand_pausedOnce hrun
  have hrest : ∀ {P : SyncRequest → Prop}, (∀ c ∈ s.commands, P c.2) →
      P r ∧ ∀ c ∈ rest, P c.2 := by
    intro P hall
    rw [hnext] at hall
    exact ⟨hall _ List.mem_cons_self, fun c hc => hall c (List.mem_cons_of_mem _ hc)⟩
  have hevents : r ≠ .pause → (∀ em ∈ s.events, em.event ≠ .Paused) →
      ∀ em ∈ s.events ++ ServiceState.emissions (some call) (.command r.command) tr events,
        em.event ≠ .Paused := by
    intro hne hold em hem
    rcases List.mem_append.mp hem with hem | hem
    · exact hold em hem
    · exact emissions_no_paused (hturn.2.1 hne) em hem
  have hnone : NoPause s → r ≠ .pause ∧ NoPause
      { s with
        task := t
        commands := rest
        events := s.events ++
          ServiceState.emissions (some call) (.command r.command) tr events } := by
    intro hnone
    have hsplit := hrest (P := fun r => r ≠ .pause) hnone.commands
    exact ⟨hsplit.1, hsplit.2, hevents hsplit.1 hnone.events⟩
  have hleft : LeftUnpaused s → rest.foldl (fun paused c => pausedOnce paused c.2) t.paused = false := by
    intro hleft
    have hfold : s.commands.foldl (fun paused c => pausedOnce paused c.2) s.task.paused = false :=
      hleft
    rw [hnext] at hfold
    rw [hturn.1]
    exact hfold
  cases h with
  | pausing c hwaiting hheld h =>
      refine .pausing c hwaiting hheld ?_
      rcases h with ⟨before, c', hcommands, hbefore, hold⟩ | ⟨hcommands, -⟩
      · rw [hnext] at hcommands
        cases before with
        | nil =>
            -- the pause itself is handled
            rw [List.nil_append] at hcommands
            injection hcommands with hhead htail
            injection hhead with _ hr
            rw [hr] at hturn
            rw [hr]
            have hreport : events = [.Paused] := hturn.2.2 rfl
            let report : Emission :=
              { event := .Paused
                call := some call
                input := .command .Pause
                trace := tr }
            have hlast : ServiceState.emissions (some call) (.command SyncRequest.pause.command) tr
                events = [report] := by
              rw [hreport]
              rfl
            refine Or.inr ⟨htail, hturn.1, s.events, report, [], ?_, rfl, hold, by simp⟩
            rw [hlast]
        | cons b before =>
            rw [List.cons_append] at hcommands
            injection hcommands with hhead htail
            have hne : r ≠ .pause := by
              have hb := hbefore b List.mem_cons_self
              rw [← hhead] at hb
              exact hb
            exact Or.inl ⟨before, c', htail, fun d hd => hbefore d (List.mem_cons_of_mem _ hd),
              hevents hne hold⟩
      · rw [hcommands] at hnext
        cases hnext
  | resuming c hwaiting hno h =>
      exact .resuming c hwaiting (hnone hno).2 (hleft h)
  | holding hwaiting hno hheld hset h =>
      have hsplit := hrest (P := fun r => r ≠ .resume) h
      refine .holding hwaiting (hnone hno).2 hheld ?_ hsplit.2
      have hkept : pausedOnce s.task.paused r = s.task.paused := by
        have hne := (hnone hno).1
        cases r <;> first | rfl | exact absurd rfl hne | exact absurd rfl hsplit.1
      rw [hturn.1, hkept]
      exact hset
  | released hwaiting hno hheld h =>
      exact .released hwaiting (hnone hno).2 hheld (hleft h)

/-- The task's own steps keep the standing. -/
theorem Standing.background {s s' : ServiceState} {held : Bool} (h : Standing s held)
    {l : ServiceLabel} (hstep : ServiceState.step s l s')
    (hown : (∃ tr, l = .handle tr) ∨ ∃ tr, l = .retry tr) : Standing s' held := by
  cases hstep with
  | handle call r rest tr t events hnext _ hrun => exact h.handle hnext hrun
  | retry tr t events _ _ hrun =>
      have hpause := SyncTask.transitionAndRun_pause hrun
      exact h.emit hpause.1 (emissions_no_paused hpause.2)
  | issue r _ => rcases hown with ⟨tr, heq⟩ | ⟨tr, heq⟩ <;> cases heq
  | take call r em rest _ _ => rcases hown with ⟨tr, heq⟩ | ⟨tr, heq⟩ <;> cases heq
  | giveUp call r _ => rcases hown with ⟨tr, heq⟩ | ⟨tr, heq⟩ <;> cases heq

omit [Codec] [Serde] in
theorem NoPause.tail {s : ServiceState} (h : NoPause s) {em : Emission} {rest : List Emission}
    (hfirst : s.events = em :: rest) (w : Option (Nat × SyncRequest)) :
    NoPause { s with events := rest, waiting := w } where
  commands := h.commands
  events em' hem' := by
    have hall := h.events
    rw [hfirst] at hall
    exact hall em' (List.mem_cons_of_mem _ hem')

omit [Codec] [Serde] in
/-- An event that the waiting call drops. -/
theorem Standing.drop {s : ServiceState} {held : Bool} (h : Standing s held) {em : Emission}
    {rest : List Emission} (hfirst : s.events = em :: rest)
    (hother : ∀ call, s.waiting = some (call, .pause) → em.event ≠ .Paused) :
    Standing { s with events := rest } held := by
  cases h with
  | pausing call hwaiting hheld h =>
      refine .pausing call hwaiting hheld ?_
      rcases h with ⟨before, c, hcommands, hbefore, hevents⟩ |
        ⟨hcommands, hset, before, em', after, hevents, hem, hbefore, hafter⟩
      · rw [hfirst] at hevents
        exact Or.inl ⟨before, c, hcommands, hbefore,
          fun e he => hevents e (List.mem_cons_of_mem _ he)⟩
      · rw [hfirst] at hevents
        cases before with
        | nil =>
            injection hevents with hhead
            rw [← hhead] at hem
            exact absurd hem (hother call hwaiting)
        | cons b before =>
            injection hevents with _ htail
            exact Or.inr ⟨hcommands, hset, before, em', after, htail, hem,
              fun e he => hbefore e (List.mem_cons_of_mem _ he), hafter⟩
  | resuming call hwaiting hnone h =>
      exact .resuming call hwaiting (hnone.tail hfirst _) h
  | holding hwaiting hnone hheld hset h =>
      exact .holding hwaiting (hnone.tail hfirst _) hheld hset h
  | released hwaiting hnone hheld h =>
      exact .released hwaiting (hnone.tail hfirst _) hheld h

omit [Codec] [Serde] in
/-- A call of the executor: only a pause while none is held, and a resume whenever. -/
theorem Standing.issue {s : ServiceState} {held : Bool} (h : Standing s held)
    (hfree : s.waiting = none) {r : SyncRequest} (hneeds : r = .pause → held = false) :
    Standing
      { s with
        commands := s.commands ++ [(s.issued, r)]
        waiting := some (s.issued, r)
        issued := s.issued + 1 }
      held := by
  -- before the request, the pause is held or has been left
  have hold : (held = true ∧ s.task.paused = true ∧ ∀ c ∈ s.commands, c.2 ≠ .resume) ∨
      (held = false ∧ LeftUnpaused s) := by
    cases h with
    | pausing call hwaiting _ _ =>
        rw [hfree] at hwaiting
        cases hwaiting
    | resuming call hwaiting _ _ =>
        rw [hfree] at hwaiting
        cases hwaiting
    | holding _ _ hheld hset h => exact Or.inl ⟨hheld, hset, h⟩
    | released _ _ hheld h => exact Or.inr ⟨hheld, h⟩
  -- nothing else is waited for, so no pause is on its way
  have hnone : NoPause s := by
    cases h with
    | pausing call hwaiting _ _ =>
        rw [hfree] at hwaiting
        cases hwaiting
    | resuming call hwaiting _ _ =>
        rw [hfree] at hwaiting
        cases hwaiting
    | holding _ hnone _ _ _ => exact hnone
    | released _ hnone _ _ => exact hnone
  -- the queue gets one more request
  have hqueue : ∀ {P : SyncRequest → Prop}, (∀ c ∈ s.commands, P c.2) → P r →
      ∀ c ∈ s.commands ++ [(s.issued, r)], P c.2 := by
    intro P hall hr c hc
    rcases List.mem_append.mp hc with hc | hc
    · exact hall c hc
    · rw [List.mem_singleton.mp hc]
      exact hr
  -- which is the last to have its say on the pause
  have hlast : (s.commands ++ [(s.issued, r)]).foldl (fun paused c => pausedOnce paused c.2)
      s.task.paused =
      pausedOnce (s.commands.foldl (fun paused c => pausedOnce paused c.2) s.task.paused) r := by
    simp
  by_cases hpause : r = .pause
  · rw [hpause]
    exact .pausing _ rfl (hneeds hpause) (Or.inl ⟨s.commands, _, rfl, hnone.commands, hnone.events⟩)
  · have hno := hqueue (P := fun r => r ≠ .pause) hnone.commands hpause
    by_cases hresume : r = .resume
    · rw [hresume] at hno hlast ⊢
      exact .resuming _ rfl ⟨hno, hnone.events⟩ hlast
    · have hwaiting : ∀ w, some (s.issued, r) = some w → w.2 ≠ .pause ∧ w.2 ≠ .resume := by
        intro w hw
        injection hw with hw
        rw [← hw]
        exact ⟨hpause, hresume⟩
      rcases hold with ⟨hheld, hset, hcommands⟩ | ⟨hheld, hleft⟩
      · exact .holding hwaiting ⟨hno, hnone.events⟩ hheld hset
          (hqueue (P := fun r => r ≠ .resume) hcommands hresume)
      · have hsame : pausedOnce false r = false := by
          cases r <;> first | rfl | exact absurd rfl hpause
        refine .released hwaiting ⟨hno, hnone.events⟩ hheld (hlast.trans ?_)
        rw [show s.commands.foldl (fun paused c => pausedOnce paused c.2) s.task.paused = false
          from hleft]
        exact hsame

omit [Codec] [Serde] in
/-- The calls of the protocol take the events that the service's calls take. -/
theorem reply_iff_accepts {op : RotationOp} {r : SyncRequest} (hr : op.request = some r)
    (event : SyncEvent) : (op.reply event).isSome = r.accepts event := by
  cases op <;> cases hr <;> cases event <;> rfl

omit [Codec] [Serde] in
/-- The end of a wait other than a pause: a resume ends the pause that is held. -/
theorem Standing.answer {s : ServiceState} {held : Bool} (h : Standing s held) {call : Nat}
    {op : RotationOp} {r : SyncRequest} (hwaiting : s.waiting = some (call, r))
    (hr : op.request = some r) (hne : r ≠ .pause) (x : op.Answer) :
    ∃ held', holds held op x held' ∧ Standing { s with waiting := none } held' := by
  have hidle : ∀ w : Nat × SyncRequest, none = some w → w.2 ≠ .pause ∧ w.2 ≠ .resume := by
    intro w hw
    cases hw
  have hsame : r ≠ .resume → holds held op x held := by
    intro hresume
    cases op <;> cases hr <;> first | rfl | exact absurd rfl hne | exact absurd rfl hresume
  cases h with
  | pausing c hpause _ _ =>
      rw [hwaiting] at hpause
      injection hpause with hpause
      exact absurd (congrArg Prod.snd hpause) hne
  | resuming c hresume hnone h =>
      rw [hwaiting] at hresume
      injection hresume with hresume
      have hends : holds held op x false := by
        have hreq := congrArg Prod.snd hresume
        cases op <;> cases hr <;> first | rfl | cases hreq
      exact ⟨false, hends, .released hidle ⟨hnone.commands, hnone.events⟩ rfl h⟩
  | holding hothers hnone hheld hset h =>
      exact ⟨held, hsame (hothers _ hwaiting).2,
        .holding hidle ⟨hnone.commands, hnone.events⟩ hheld hset h⟩
  | released hothers hnone hheld h =>
      exact ⟨held, hsame (hothers _ hwaiting).2,
        .released hidle ⟨hnone.commands, hnone.events⟩ hheld h⟩

omit [Codec] [Serde] in
/-- The reply of a pause: the task is paused by then, and the pause is held. -/
theorem Standing.confirm {s : ServiceState} {held : Bool} (h : Standing s held) {call : Nat}
    {em : Emission} {rest : List Emission} (hwaiting : s.waiting = some (call, .pause))
    (hfirst : s.events = em :: rest) (hem : em.event = .Paused) :
    Standing { s with events := rest, waiting := none } true := by
  have hidle : ∀ w : Nat × SyncRequest, none = some w → w.2 ≠ .pause ∧ w.2 ≠ .resume := by
    intro w hw
    cases hw
  cases h with
  | pausing c _ _ h =>
      rcases h with ⟨before, c', -, -, hevents⟩ |
        ⟨hcommands, hset, before, em', after, hevents, hem', hbefore, hafter⟩
      · rw [hfirst] at hevents
        exact absurd hem (hevents em List.mem_cons_self)
      · rw [hfirst] at hevents
        cases before with
        | nil =>
            injection hevents with _ htail
            rw [htail]
            refine .holding hidle ⟨?_, hafter⟩ rfl hset ?_ <;> simp [hcommands]
        | cons b before =>
            injection hevents with hhead _
            rw [hhead] at hem
            exact absurd hem (hbefore b List.mem_cons_self)
  | resuming c hresume _ _ =>
      rw [hwaiting] at hresume
      cases hresume
  | holding hothers _ _ _ _ => exact absurd rfl (hothers _ hwaiting).1
  | released hothers _ _ _ => exact absurd rfl (hothers _ hwaiting).1

/-! ## The run -/

/-- Invariant: the protocol holds what the service stands by. -/
structure Kept (σ : RotationSystem) (held : Bool) : Prop where
  standing : Standing σ.service held
  idle : σ.protocol = none → held = false ∧
    ∀ w, σ.service.waiting = some w → w.2 ≠ .pause ∧ w.2 ≠ .resume
  running : ∀ p, σ.protocol = some p → Holds held Released p ∧
    ∀ w, σ.service.waiting = some w → ∃ op k, p = .call op k ∧ op.request = some w.2

def HoldsPause (σ : RotationSystem) : Prop :=
  ∃ held, σ.Kept held

omit [Codec] [Serde] in
theorem kept_fresh (maxRetries : Nat) : (fresh maxRetries).Kept false where
  standing := .released (by simp [fresh, ServiceState.fresh])
    ⟨by simp [fresh, ServiceState.fresh], by simp [fresh, ServiceState.fresh]⟩ rfl rfl
  idle _ := ⟨rfl, by simp [fresh, ServiceState.fresh]⟩
  running p hp := by cases hp

omit [Codec] [Serde] in
/-- While no protocol runs, the pause is not held. -/
theorem Kept.released {σ : RotationSystem} {held : Bool} (h : σ.Kept held)
    (hidle : σ.protocol = none) : NoPause σ.service ∧ LeftUnpaused σ.service := by
  have hnone := h.idle hidle
  cases h.standing with
  | pausing call hwaiting _ _ => exact absurd rfl (hnone.2 _ hwaiting).1
  | resuming call hwaiting _ _ => exact absurd rfl (hnone.2 _ hwaiting).2
  | holding _ _ hheld _ _ =>
      rw [hnone.1] at hheld
      cases hheld
  | released _ hno _ hleft => exact ⟨hno, hleft⟩

omit [Codec] [Serde] in
theorem Kept.of_released {σ : RotationSystem} (hidle : σ.protocol = none)
    (hwaiting : ∀ w, σ.service.waiting = some w → w.2 ≠ .pause ∧ w.2 ≠ .resume)
    (hnone : NoPause σ.service) (hleft : LeftUnpaused σ.service) : σ.Kept false where
  standing := .released hwaiting hnone rfl hleft
  idle _ := ⟨rfl, hwaiting⟩
  running p hp := by
    rw [hidle] at hp
    cases hp

omit [Codec] [Serde] in
/-- The protocol goes on, and no call waits. -/
theorem Kept.of_running {σ : RotationSystem} {held : Bool} {p : Rotation CommandResult}
    (hp : σ.protocol = some p) (hfree : σ.service.waiting = none)
    (hstanding : Standing σ.service held) (hholds : Holds held Released p) : σ.Kept held where
  standing := hstanding
  idle hidle := by
    rw [hp] at hidle
    cases hidle
  running q hq := by
    rw [hp] at hq
    injection hq with hq
    rw [← hq]
    refine ⟨hholds, ?_⟩
    intro w hw
    rw [hfree] at hw
    cases hw

/-- The service moves on its own. -/
theorem Kept.service {σ : RotationSystem} {held : Bool} (h : σ.Kept held) {l : ServiceLabel}
    {s : ServiceState} (hopen : σ.Open l) (hstep : ServiceState.step σ.service l s) :
    ({ σ with service := s } : RotationSystem).Kept held := by
  -- a turn of the task changes neither the call that waits nor the protocol
  have hown : (∃ tr, l = .handle tr) ∨ (∃ tr, l = .retry tr) →
      s.waiting = σ.service.waiting → ({ σ with service := s } : RotationSystem).Kept held := by
    intro hown hwaiting
    refine ⟨h.standing.background hstep hown, ?_, ?_⟩
    · intro hidle
      have hkept := h.idle hidle
      rw [← hwaiting] at hkept
      exact hkept
    · intro p hp
      have hkept := h.running p hp
      rw [← hwaiting] at hkept
      exact hkept
  -- outside the protocol no pause is held
  have hfalse : σ.protocol = none → held = false := fun hidle => (h.idle hidle).1
  cases hstep with
  | handle call r rest tr t events hnext hlive hrun => exact hown (Or.inl ⟨tr, rfl⟩) rfl
  | retry tr t events hdue hlive hrun => exact hown (Or.inr ⟨tr, rfl⟩) rfl
  | issue r hfree =>
      rcases hopen with ⟨hidle, hpause, hresume, -⟩
      have hstanding := h.standing.issue hfree (r := r) fun hr => absurd hr hpause
      refine ⟨hstanding, fun _ => ⟨hfalse hidle, ?_⟩, ?_⟩
      · intro w hw
        injection hw with hw
        rw [← hw]
        exact ⟨hpause, hresume⟩
      · intro p hp
        have hnone : σ.protocol = some p := hp
        rw [hidle] at hnone
        cases hnone
  | take call r em rest hwaiting hfirst =>
      have hidle : σ.protocol = none := hopen
      have hkept := h.released hidle
      rw [hfalse hidle]
      refine .of_released hidle ?_ (hkept.1.tail hfirst _) hkept.2
      intro w hw
      -- an event that answers the call ends the wait
      have hw' : (if r.accepts em.event then none else σ.service.waiting) = some w := hw
      by_cases haccepts : r.accepts em.event = true
      · rw [if_pos haccepts] at hw'
        cases hw'
      · rw [if_neg haccepts] at hw'
        exact (h.idle hidle).2 w hw'
  | giveUp call r hwaiting =>
      have hidle : σ.protocol = none := hopen
      have hkept := h.released hidle
      rw [hfalse hidle]
      refine .of_released hidle ?_ ⟨hkept.1.commands, hkept.1.events⟩ hkept.2
      intro w hw
      cases hw

omit [Codec] [Serde] in
/-- What the protocol is suspended at is what the service's call waits for. -/
theorem Kept.request {σ : RotationSystem} {held : Bool} (h : σ.Kept held) {op : RotationOp}
    {k : op.Answer → Rotation CommandResult} (hp : σ.protocol = some (.call op k))
    {w : Nat × SyncRequest} (hwaiting : σ.service.waiting = some w) : op.request = some w.2 := by
  rcases (h.running _ hp).2 w hwaiting with ⟨op', k', hcall, hr⟩
  cases hcall
  exact hr

/-- A request of the protocol is queued. -/
theorem Kept.send {σ : RotationSystem} {held : Bool} (h : σ.Kept held) {op : RotationOp}
    {k : op.Answer → Rotation CommandResult} {r : SyncRequest} {s : ServiceState}
    (hp : σ.protocol = some (.call op k)) (hr : op.request = some r)
    (hstep : ServiceState.step σ.service (.issue r) s) :
    ({ σ with service := s } : RotationSystem).Kept held := by
  have hholds : Holds held Released (.call op k) := (h.running _ hp).1
  cases hstep with
  | issue _ hfree =>
      have hneeds : r = .pause → held = false := by
        intro hpause
        rw [hpause] at hr
        cases op <;> cases hr
        exact hholds.1
      refine ⟨h.standing.issue hfree hneeds, ?_, ?_⟩
      · intro hidle
        have hnone : σ.protocol = none := hidle
        rw [hp] at hnone
        cases hnone
      · intro q hq
        have hq' : σ.protocol = some q := hq
        rw [hp] at hq'
        injection hq' with hq'
        rw [← hq']
        refine ⟨hholds, ?_⟩
        intro w hw
        injection hw with hw
        rw [← hw]
        exact ⟨op, k, rfl, hr⟩

/-- An event that answers no request of the protocol. -/
theorem Kept.drop {σ : RotationSystem} {held : Bool} (h : σ.Kept held) {op : RotationOp}
    {k : op.Answer → Rotation CommandResult} {em : Emission} {rest : List Emission}
    {s : ServiceState} (hp : σ.protocol = some (.call op k))
    (hfirst : σ.service.events = em :: rest) (hother : op.reply em.event = none)
    (hstep : ServiceState.step σ.service .take s) :
    ({ σ with service := s } : RotationSystem).Kept held := by
  cases hstep with
  | take call r em' rest' hwaiting hfirst' =>
      rw [hfirst] at hfirst'
      cases hfirst'
      have hdropped : r.accepts em.event = false := by
        rw [← reply_iff_accepts (h.request hp hwaiting), hother]
        rfl
      have hsame : σ.service.taken r em rest = { σ.service with events := rest } := by
        simp [ServiceState.taken, hdropped]
      rw [hsame]
      refine ⟨h.standing.drop hfirst ?_, h.idle, h.running⟩
      -- the reply of a pause that is waited for is not dropped
      intro c hc hpaused
      rw [hwaiting] at hc
      injection hc with hc
      have hpause : r = .pause := congrArg Prod.snd hc
      rw [hpause, hpaused] at hdropped
      cases hdropped

omit [Codec] [Serde] in
/-- The confirmation of a pause: the protocol holds it from then on. -/
theorem Kept.confirmed {σ : RotationSystem} {held : Bool} (h : σ.Kept held) {op : RotationOp}
    {k : op.Answer → Rotation CommandResult} {call : Nat} {em : Emission} {rest : List Emission}
    {x : op.Answer} (hp : σ.protocol = some (.call op k))
    (hfirst : σ.service.events = em :: rest) (hreply : op.reply em.event = some x)
    (hwaiting : σ.service.waiting = some (call, .pause)) :
    (RotationSystem.mk { σ.service with events := rest, waiting := none } (some (k x))).Kept
      true := by
  have hr : op.request = some .pause := h.request hp hwaiting
  have hem : em.event = .Paused := by
    have haccepts : SyncRequest.pause.accepts em.event = true := by
      rw [← reply_iff_accepts hr, hreply]
      rfl
    cases hevent : em.event <;> rw [hevent] at haccepts <;> first | rfl | cases haccepts
  have hconfirmed : holds held op x true := by
    cases op <;> cases hr
    rw [hem] at hreply
    injection hreply with hx
    rw [← hx]
    exact rfl
  exact .of_running rfl rfl (h.standing.confirm hwaiting hfirst hem)
    ((h.running _ hp).1.2 x true hconfirmed)

/-- A reply to a request of the protocol. -/
theorem Kept.reply {σ : RotationSystem} {held : Bool} (h : σ.Kept held) {op : RotationOp}
    {k : op.Answer → Rotation CommandResult} {em : Emission} {rest : List Emission}
    {x : op.Answer} {s : ServiceState} (hp : σ.protocol = some (.call op k))
    (hfirst : σ.service.events = em :: rest) (hreply : op.reply em.event = some x)
    (hstep : ServiceState.step σ.service .take s) :
    (RotationSystem.mk s (some (k x))).HoldsPause := by
  cases hstep with
  | take call r em' rest' hwaiting hfirst' =>
      rw [hfirst] at hfirst'
      cases hfirst'
      have hr : op.request = some r := h.request hp hwaiting
      have htaken : r.accepts em.event = true := by
        rw [← reply_iff_accepts hr, hreply]
        rfl
      have hgone : σ.service.taken r em rest =
          { σ.service with events := rest, waiting := none } := by
        simp [ServiceState.taken, htaken]
      rw [hgone]
      by_cases hpause : r = .pause
      · rw [hpause] at hwaiting
        exact ⟨true, h.confirmed hp hfirst hreply hwaiting⟩
      · have hdropped := h.standing.drop hfirst fun c hc => by
          rw [hwaiting] at hc
          injection hc with hc
          exact absurd (congrArg Prod.snd hc) hpause
        rcases hdropped.answer hwaiting hr hpause x with ⟨held', hnext, hstanding⟩
        exact ⟨held', .of_running rfl rfl hstanding ((h.running _ hp).1.2 x held' hnext)⟩

/-- A request of the protocol, other than a pause, is given up. -/
theorem Kept.giveUp {σ : RotationSystem} {held : Bool} (h : σ.Kept held) {op : RotationOp}
    {k : op.Answer → Rotation CommandResult} {s : ServiceState}
    (hp : σ.protocol = some (.call op k)) (hne : op.request ≠ some .pause) (x : op.Answer)
    (hstep : ServiceState.step σ.service .giveUp s) :
    (RotationSystem.mk s (some (k x))).HoldsPause := by
  cases hstep with
  | giveUp call r hwaiting =>
      have hr : op.request = some r := h.request hp hwaiting
      have hpause : r ≠ .pause := by
        intro hpause
        rw [hpause] at hr
        exact hne hr
      rcases h.standing.answer hwaiting hr hpause x with ⟨held', hnext, hstanding⟩
      exact ⟨held', .of_running rfl rfl hstanding ((h.running _ hp).1.2 x held' hnext)⟩

omit [Codec] [Serde] in
/-- An operation of the protocol that asks the service for nothing. -/
theorem Kept.internal {σ : RotationSystem} {held : Bool} (h : σ.Kept held) {op : RotationOp}
    {k : op.Answer → Rotation CommandResult} (hp : σ.protocol = some (.call op k))
    (hlocal : op.request = none) (x : op.Answer) :
    ({ σ with protocol := some (k x) } : RotationSystem).Kept held := by
  have hfree : σ.service.waiting = none := by
    cases hwaiting : σ.service.waiting with
    | none => rfl
    | some w =>
        have hr := h.request hp hwaiting
        rw [hlocal] at hr
        cases hr
  have hsame : holds held op x held := by
    cases op <;> first | rfl | cases hlocal
  exact .of_running rfl hfree h.standing ((h.running _ hp).1.2 x held hsame)

omit [Codec] [Serde] in
/-- The protocol returns, and holds no pause. -/
theorem Kept.finish {σ : RotationSystem} {held : Bool} (h : σ.Kept held) {result : CommandResult}
    (hp : σ.protocol = some (.ret result)) :
    ({ σ with protocol := none } : RotationSystem).Kept held := by
  have hdone := h.running _ hp
  have hfalse : held = false := hdone.1
  have hfree : ∀ w, σ.service.waiting ≠ some w := by
    intro w hwaiting
    rcases hdone.2 w hwaiting with ⟨op, k, hcall, -⟩
    cases hcall
  refine ⟨h.standing, fun _ => ⟨hfalse, ?_⟩, ?_⟩
  · intro w hw
    exact absurd hw (hfree w)
  · intro p hq
    cases hq

/-- Step lemma. -/
theorem kept_step {e : Step RotationSystem RotationLabel} (hstep : step e.source e.label e.target)
    (hcond : Undisturbed e) (h : e.source.HoldsPause) : e.target.HoldsPause := by
  rcases e with ⟨σ, l, σ'⟩
  rcases h with ⟨held, h⟩
  have hkept : σ.Kept held := h
  have hmove : step σ l σ' := hstep
  clear hstep
  cases hmove with
  | service l s hopen hstep => exact ⟨held, hkept.service hopen hstep⟩
  | start label errorKey hidle hfree =>
      have hfalse : held = false := (hkept.idle hidle).1
      rw [hfalse] at hkept
      exact ⟨false, .of_running rfl hfree hkept.standing
        (holds_executeRotationProtocol label errorKey)⟩
  | send op k r s hp hr hstep => exact ⟨held, hkept.send hp hr hstep⟩
  | drop op k em rest s hp hfirst hother hstep => exact ⟨held, hkept.drop hp hfirst hother hstep⟩
  | reply op k em rest x s hp hfirst hreply hstep => exact hkept.reply hp hfirst hreply hstep
  | giveUp op k error x s hp hfailure hstep =>
      have hne : op.request ≠ some .pause := by
        intro hpause
        cases op <;> cases hpause
        exact hcond.confirmed rfl k hp
      exact hkept.giveUp hp hne x hstep
  | internal op k x hp hlocal => exact ⟨held, hkept.internal hp hlocal x⟩
  | finish result hp => exact ⟨held, hkept.finish hp⟩

omit [Codec] [Serde] in
/-- In the rotation the task is paused. -/
theorem Kept.paused_of_rotating {σ : RotationSystem} {held : Bool} (h : σ.Kept held)
    (hrotating : σ.Rotating) : σ.service.task.paused = true := by
  rcases hrotating with ⟨expectedVersion, k, hp⟩
  have hrunning := h.running _ hp
  have hheld : held = true := hrunning.1.1
  have hfree : ∀ w, σ.service.waiting ≠ some w := by
    intro w hw
    rcases hrunning.2 w hw with ⟨op, k', hcall, hr⟩
    cases hcall
    cases hr
  cases h.standing with
  | pausing call hwaiting _ _ => exact absurd hwaiting (hfree _)
  | resuming call hwaiting _ _ => exact absurd hwaiting (hfree _)
  | holding _ _ _ hset _ => exact hset
  | released _ _ hfalse _ =>
      rw [hheld] at hfalse
      cases hfalse

/-- A calm turn of a paused task is quiet, as a step of the service. -/
theorem quiet_turnOf {s s' : ServiceState} {l : ServiceLabel} {turn : TaskLabel}
    (hstep : ServiceState.step s l s') (hturn : turnOf s l = some turn)
    (hpaused : s.task.paused = true) (hcalm : s.task.Calm turn) : turn.Quiet := by
  cases hstep with
  | handle call r rest tr t events hnext hlive hrun =>
      have hhead : turnOf s (.handle tr) = some
          { input := .command r.command
            trace := tr
            events := [] } := by
        simp [turnOf, hnext]
      rw [hhead] at hturn
      cases hturn
      have hloop : SyncTask.loopStep s.task
          { input := .command r.command
            trace := tr
            events := events } t := ⟨hlive, hrun⟩
      have hquiet := (SyncTask.quiet_iff_calm hloop hpaused).mpr hcalm
      exact ⟨hquiet.noPipeline, hquiet.noUpload⟩
  | retry tr t events hdue hlive hrun =>
      cases hturn
      have hloop : SyncTask.loopStep s.task
          { input := .timer
            trace := tr
            events := events } t := ⟨hlive, hdue, hrun⟩
      have hquiet := (SyncTask.quiet_iff_calm hloop hpaused).mpr hcalm
      exact ⟨hquiet.noPipeline, hquiet.noUpload⟩
  | issue r hfree => cases hturn
  | take call r em rest hwaiting hfirst => cases hturn
  | giveUp call r hwaiting => cases hturn

/-- Run lemma. -/
theorem mutexKept_of_undisturbed {maxRetries : Nat}
    {es : List (Step RotationSystem RotationLabel)} {σ : RotationSystem}
    (hrun : Run step (fresh maxRetries) es σ) (hcond : ∀ e ∈ es, Undisturbed e) :
    MutexKept es := by
  have hinit : (fresh maxRetries).HoldsPause := ⟨false, kept_fresh maxRetries⟩
  -- the invariant holds before every step
  have hkept : ∀ e ∈ es, e.source.HoldsPause :=
    hrun.invariant_source hinit hcond fun e hstep hC h => kept_step hstep hC h
  -- so the turns are quiet while the task is paused
  have hquiet : ∀ e ∈ es, ∀ l turn, e.label = .service l →
      turnOf e.source.service l = some turn → e.source.service.task.paused = true →
      turn.Quiet := by
    intro e he l turn hlabel hturn hpaused
    have hcalm := (hcond e he).calm l turn hlabel hturn hpaused
    have hstep := hrun.step_of_mem he
    rw [hlabel] at hstep
    generalize e.target = target at hstep
    cases hstep with
    | service _ s hopen hstep => exact quiet_turnOf hstep hturn hpaused hcalm
  refine ⟨hquiet, ?_, ?_⟩
  · intro e he l turn hlabel hturn hrotating
    -- while the executor rotates, the task is paused
    rcases hkept e he with ⟨held, h⟩
    exact hquiet e he l turn hlabel hturn (h.paused_of_rotating hrotating)
  · intro e he result hlabel
    rcases hkept e he with ⟨held, h⟩
    -- the protocol ends after it has resumed the task
    have hstep := hrun.step_of_mem he
    rw [hlabel] at hstep
    generalize e.target = target at hstep
    cases hstep with
    | finish _ hp =>
        have hfalse : held = false := (h.running _ hp).1
        cases h.standing with
        | pausing call hwaiting _ _ =>
            rcases (h.running _ hp).2 _ hwaiting with ⟨op, k, hcall, -⟩
            cases hcall
        | resuming call hwaiting _ _ =>
            rcases (h.running _ hp).2 _ hwaiting with ⟨op, k, hcall, -⟩
            cases hcall
        | holding _ _ hheld _ _ =>
            rw [hfalse] at hheld
            cases hheld
        | released _ _ _ hleft => exact hleft

/-- While the pause holds, a task's turns are quiet exactly when they are calm; and a run of the
service and the rotation protocol keeps the mutex as long as its steps are undisturbed. -/
theorem pause_is_mutex :
    (∀ maxRetries es t,
      Run SyncTask.loopStep (SyncTask.new (SyncStateMachine.new maxRetries)) es t →
      ∀ done e rest, es = done ++ e :: rest → pausedBy done = true →
        (e.label.Quiet ↔ e.source.Calm e.label)) ∧
    ∀ maxRetries es σ, Run step (fresh maxRetries) es σ → (∀ e ∈ es, Undisturbed e) →
      MutexKept es := by
  constructor
  · intro maxRetries es t hrun done e rest hes hpaused
    exact SyncTask.paused_quiet_iff hrun hes hpaused
  · intro maxRetries es σ hrun hcond
    exact mutexKept_of_undisturbed hrun hcond

end

/-! ### A rotation that fails under its pause -/

/-- The answers that a rehearsed protocol gets. -/
def rehearsedAnswer : (op : RotationOp) → op.Answer
  | .isCancelled => false
  | .pause => .ok ()
  | .resume => .ok ()
  | .downloadMetadata => .ok none
  | .pushMetadataAtomic _ _ => .ok ()
  | .vaultMut => true
  | .rotate _ => .error (.MaxVersionExceeded 100 100)

/-- The protocol after its first `n` calls. -/
def rehearsed : Nat → Rotation CommandResult
  | 0 => Rotation.executeRotationProtocol true "rotation" "error.rotation_failed"
  | n + 1 =>
      match rehearsed n with
      | .call op k => k (rehearsedAnswer op)
      | .ret result => .ret result

/-- A task that has done nothing but pause and resume. -/
def rehearsedTask (paused : Bool) : SyncTask :=
  { SyncTask.new (SyncStateMachine.new 5) with paused := paused }

/-- The system after `n` calls of the protocol, of which `issued` went to the service. -/
def rehearsal (n issued : Nat) (paused : Bool) : RotationSystem where
  service :=
    { ServiceState.fresh 5 with
      task := rehearsedTask paused
      issued := issued }
  protocol := some (rehearsed n)

/-- The call of the service is queued. -/
def calling (n issued : Nat) (paused : Bool) (r : SyncRequest) : RotationSystem :=
  { rehearsal n issued paused with
    service :=
      { (rehearsal n issued paused).service with
        commands := [(issued, r)]
        waiting := some (issued, r)
        issued := issued + 1 } }

/-- The call of the service has its event in the queue. -/
def answered (n issued : Nat) (paused : Bool) (r : SyncRequest) (tr : StorageTrace)
    (event : SyncEvent) : RotationSystem :=
  { rehearsal n issued paused with
    service :=
      { (rehearsal n issued paused).service with
        waiting := some (issued, r)
        issued := issued + 1
        events := ServiceState.emissions (some issued) (.command r.command) tr [event] } }

def internalStep (n issued : Nat) (paused : Bool) : Step RotationSystem RotationLabel where
  source := rehearsal n issued paused
  label := .internal
  target := rehearsal (n + 1) issued paused

/-- A call from its command to its reply. -/
def callSteps (n issued : Nat) (paused paused' : Bool) (r : SyncRequest) (tr : StorageTrace)
    (event : SyncEvent) : List (Step RotationSystem RotationLabel) :=
  [{ source := rehearsal n issued paused
     label := .send
     target := calling n issued paused r },
   { source := calling n issued paused r
     label := .service (.handle tr)
     target := answered n issued paused' r tr event },
   { source := answered n issued paused' r tr event
     label := .reply
     target := rehearsal (n + 1) (issued + 1) paused' }]

theorem rehearsed_succ {n : Nat} {op : RotationOp} {k : op.Answer → Rotation CommandResult}
    (h : rehearsed n = .call op k) : rehearsed (n + 1) = k (rehearsedAnswer op) := by
  simp [rehearsed, h]

section

variable [Codec] [Serde]

theorem internalStep_step {n issued : Nat} {paused : Bool} {op : RotationOp}
    {k : op.Answer → Rotation CommandResult} (h : rehearsed n = .call op k)
    (hlocal : op.request = none) :
    step (rehearsal n issued paused) .internal (rehearsal (n + 1) issued paused) := by
  have hprotocol : (rehearsal n issued paused).protocol = some (.call op k) := congrArg some h
  have hstep := step.internal _ op k (rehearsedAnswer op) hprotocol hlocal
  rw [← rehearsed_succ h] at hstep
  exact hstep

theorem callSteps_run {n issued : Nat} {paused paused' : Bool} {op : RotationOp}
    {k : op.Answer → Rotation CommandResult} {r : SyncRequest} {tr : StorageTrace}
    {event : SyncEvent} (h : rehearsed n = .call op k) (hr : op.request = some r)
    (hreply : op.reply event = some (rehearsedAnswer op))
    (hrun : ((rehearsedTask paused).handleCommand r.command).Returns tr
      (rehearsedTask paused', [event])) :
    Run step (rehearsal n issued paused) (callSteps n issued paused paused' r tr event)
      (rehearsal (n + 1) (issued + 1) paused') := by
  have hlive : (rehearsedTask paused).state ≠ .ShuttingDown := by
    intro hdown
    cases hdown
  have hsend : step (rehearsal n issued paused) .send (calling n issued paused r) :=
    .send _ op k r _ (congrArg some h) hr (.issue _ r rfl)
  have hhandle : step (calling n issued paused r) (.service (.handle tr))
      (answered n issued paused' r tr event) :=
    .service _ _ _ trivial (.handle _ issued r [] tr _ [event] rfl hlive hrun)
  have htake := ServiceState.step.take (answered n issued paused' r tr event).service issued r
    _ [] rfl rfl
  have hanswer := step.reply (answered n issued paused' r tr event) op k _ [] (rehearsedAnswer op)
    _ (congrArg some h) rfl hreply htake
  have haccepts : r.accepts event = true := by
    rw [← reply_iff_accepts hr, hreply]
    rfl
  rw [← rehearsed_succ h] at hanswer
  simp only [ServiceState.taken, haccepts, if_true] at hanswer
  exact .cons hsend (.cons hhandle (.cons hanswer (.nil _)))

end

def missingRead : StorageTrace :=
  [StorageOp.readMetadata.answered (.error (.RecordNotFound METADATA_FILENAME))]

/-- The rotation refuses to start a version above the last one, and the task is resumed. -/
def failedRotation : List (Step RotationSystem RotationLabel) :=
  { source := fresh 5
    label := .start
    target := rehearsal 0 0 false } ::
  internalStep 0 0 false ::
  (callSteps 1 0 false true .pause [] .Paused ++
    callSteps 2 1 true true .downloadMetadata missingRead (.MetadataDownloaded none) ++
    (internalStep 3 2 true :: internalStep 4 2 true ::
      (callSteps 5 2 true false .resume [] .Resumed ++
        [{ source := rehearsal 6 3 false
           label := .finish (.Error .DekRotationFailed {} "error.rotation_failed"
             s!"DEK rotation failed: {(RotationError.MaxVersionExceeded 100 100).toText}")
           target := { rehearsal 6 3 false with protocol := none } }])))

theorem failedRotation_run [Codec] [Serde] :
    Run step (fresh 5) failedRotation { rehearsal 6 3 false with protocol := none } := by
  have hstart : step (fresh 5) .start (rehearsal 0 0 false) :=
    .start _ "rotation" "error.rotation_failed" rfl rfl
  have hpause : Run step (rehearsal 1 0 false)
      (callSteps 1 0 false true .pause [] .Paused) (rehearsal 2 1 true) :=
    callSteps_run rfl rfl rfl ⟨rfl, rfl⟩
  have hdownload : Run step (rehearsal 2 1 true)
      (callSteps 2 1 true true .downloadMetadata missingRead (.MetadataDownloaded none))
      (rehearsal 3 2 true) :=
    callSteps_run rfl rfl rfl
      ((SyncTask.returns_handleDownloadMetadata _ _ _).mpr ⟨_, rfl, rfl⟩)
  have hresume : Run step (rehearsal 5 2 true)
      (callSteps 5 2 true false .resume [] .Resumed) (rehearsal 6 3 false) :=
    callSteps_run rfl rfl rfl ⟨rfl, rfl⟩
  have hfinish : step (rehearsal 6 3 false) _ { rehearsal 6 3 false with protocol := none } :=
    .finish _ _ rfl
  have hlast := hresume.append (.cons hfinish (.nil _))
  have hrotate := Run.cons (internalStep_step (n := 3) rfl rfl)
    (Run.cons (internalStep_step (n := 4) rfl rfl) hlast)
  exact .cons hstart (.cons (internalStep_step (n := 0) rfl rfl)
    ((hpause.append hdownload).append hrotate))

/-- A step that is no turn of the task and no end of a wait. -/
theorem Undisturbed.of_plain {e : Step RotationSystem RotationLabel}
    (hservice : ∀ l, e.label ≠ .service l) (hgiveUp : e.label ≠ .giveUp) : Undisturbed e where
  calm l _ hlabel := absurd hlabel (hservice l)
  confirmed hlabel := absurd hlabel hgiveUp

/-- The service's own calls that the protocol makes are calm. -/
theorem callSteps_undisturbed {n issued : Nat} {paused paused' : Bool} {r : SyncRequest}
    {tr : StorageTrace} {event : SyncEvent}
    (hcalm : (rehearsedTask paused).Calm
      { input := .command r.command
        trace := tr
        events := [] }) :
    ∀ e ∈ callSteps n issued paused paused' r tr event, Undisturbed e := by
  intro e he
  simp only [callSteps, List.mem_cons, List.not_mem_nil, or_false] at he
  rcases he with heq | heq | heq <;> rw [heq]
  · exact .of_plain (by simp) (by simp)
  · refine ⟨?_, by simp⟩
    intro l _ hlabel hturn _
    cases hlabel
    cases hturn
    exact hcalm
  · exact .of_plain (by simp) (by simp)

theorem failedRotation_undisturbed : ∀ e ∈ failedRotation, Undisturbed e := by
  have hpause : ∀ e ∈ callSteps 1 0 false true .pause [] .Paused, Undisturbed e :=
    callSteps_undisturbed trivial
  have hdownload : ∀ e ∈ callSteps 2 1 true true .downloadMetadata missingRead
      (.MetadataDownloaded none), Undisturbed e := callSteps_undisturbed trivial
  have hresume : ∀ e ∈ callSteps 5 2 true false .resume [] .Resumed, Undisturbed e :=
    callSteps_undisturbed trivial
  have hinternal : ∀ n issued paused, Undisturbed (internalStep n issued paused) := fun _ _ _ =>
    .of_plain (by simp [internalStep]) (by simp [internalStep])
  intro e he
  simp only [failedRotation, List.mem_cons, List.mem_append, List.not_mem_nil, or_false] at he
  rcases he with heq | heq | (hmem | hmem) | heq | heq | hmem | heq
  · rw [heq]
    exact .of_plain (by simp) (by simp)
  · rw [heq]
    exact hinternal _ _ _
  · exact hpause e hmem
  · exact hdownload e hmem
  · rw [heq]
    exact hinternal _ _ _
  · rw [heq]
    exact hinternal _ _ _
  · exact hresume e hmem
  · rw [heq]
    exact .of_plain (by simp) (by simp)

/-- A sync call that a paused task drops. -/
def droppedSync : Step SyncTask TaskLabel where
  source := SyncTask.pausedTask
  label :=
    { input := .command (.TriggerSync none)
      trace := []
      events := [] }
  target := SyncTask.pausedTask

theorem droppedSync_run [Codec] [Serde] :
    Run SyncTask.loopStep (SyncTask.new (SyncStateMachine.new 5))
      (SyncTask.pauseRun ++ [droppedSync]) SyncTask.pausedTask :=
  SyncTask.pauseRun_run.append
    (.cons ⟨by decide, SyncTask.pausedTask_drops_sync⟩ (.nil _))

/-- The rules at a dropped sync and at the rotation that fails. -/
theorem pause_is_mutex_failed :
    letI : Codec := Sample.codec
    letI : Serde := Sample.serde
    (droppedSync.label.Quiet ↔ droppedSync.source.Calm droppedSync.label) ∧
      MutexKept failedRotation := by
  let : Codec := Sample.codec
  let : Serde := Sample.serde
  exact ⟨pause_is_mutex.1 5 _ _ droppedSync_run SyncTask.pauseRun droppedSync [] rfl rfl,
    pause_is_mutex.2 5 _ _ failedRotation_run failedRotation_undisturbed⟩

/-! ### A pause that does not hold, and one that stays -/

/-- The storage refuses the connection. -/
def refusedTrace : StorageTrace :=
  [StorageOp.listRecords.answered (.error (.NetworkTimeout "connect"))]

/-- The task in `Pulling`, where the refusal meets it. -/
def pullingTask : SyncTask :=
  { SyncTask.new (SyncStateMachine.new 5) with
    stateMachine := { SyncStateMachine.new 5 with state := .Pulling } }

/-- The task after a refused connection: a retry is due. -/
def refusedTask : SyncTask :=
  (pullingTask.handleError (.NetworkTimeout "connect")).1

def refusedEvents : List SyncEvent :=
  .StateChanged .Idle .Pulling :: (pullingTask.handleError (.NetworkTimeout "connect")).2

theorem refused_returns [Codec] [Serde] :
    ((SyncTask.new (SyncStateMachine.new 5)).handleCommand (.TriggerSync none)).Returns refusedTrace
      (refusedTask, refusedEvents) := by
  have hcycle : (SyncTask.runCycle pullingTask).Returns refusedTrace
      (pullingTask.handleError (.NetworkTimeout "connect")) :=
    (SyncTask.returns_runCycle _ _ _).mpr (Or.inl ⟨_, rfl, rfl⟩)
  have hstart := (SyncTask.returns_transitionAndRun (SyncTask.new (SyncStateMachine.new 5))
    .TriggerSync refusedTrace (refusedTask, refusedEvents)).mpr (Or.inr ⟨_, _, _, rfl, hcycle, rfl⟩)
  exact (SyncTask.returns_startCycle (SyncTask.new (SyncStateMachine.new 5)) .TriggerSync _ _).mpr
    (Or.inr ⟨rfl, rfl, hstart⟩)

/-- It is paused, and the retry then gets through. -/
def retriedWhilePaused [Codec] [Serde] : List (Step SyncTask TaskLabel) :=
  let paused : SyncTask := { refusedTask with paused := true }
  let turn := (paused.handleTimer)
  [{ source := SyncTask.new (SyncStateMachine.new 5)
     label :=
       { input := .command (.TriggerSync none)
         trace := refusedTrace
         events := refusedEvents }
     target := refusedTask },
   { source := refusedTask
     label :=
       { input := .command .Pause
         trace := []
         events := [.Paused] }
     target := paused },
   { source := paused
     label :=
       { input := .timer
         trace := runTrace (CloudStore.serve Sample.instant) turn CloudStore.empty
         events := (run (CloudStore.serve Sample.instant) turn CloudStore.empty).1.2 }
     target := (run (CloudStore.serve Sample.instant) turn CloudStore.empty).1.1 }]

theorem retriedWhilePaused_run [Codec] [Serde] :
    ∃ t, Run SyncTask.loopStep (SyncTask.new (SyncStateMachine.new 5)) retriedWhilePaused t := by
  have hturn := returns_runTrace (CloudStore.serve Sample.instant)
    ({ refusedTask with paused := true } : SyncTask).handleTimer CloudStore.empty
  exact ⟨_, .cons ⟨by decide, refused_returns⟩
    (.cons ⟨by decide, rfl, rfl⟩ (.cons ⟨by decide, by decide, hturn⟩ (.nil _)))⟩

def pauseTimeout : SyncError :=
  .NetworkTimeout "wait_for_event timed out after 30s"

/-- The pause times out before the task gets to it. -/
def timedOutPause : List (Step RotationSystem RotationLabel) :=
  let gaveUp : RotationSystem :=
    { calling 1 0 false .pause with
      service := { (calling 1 0 false .pause).service with waiting := none }
      protocol := some (.ret (Rotation.syncFailure pauseTimeout "error.sync_pause_failed"
        s!"Failed to pause sync for rotation: {pauseTimeout.toText}")) }
  [{ source := fresh 5
     label := .start
     target := rehearsal 0 0 false },
   internalStep 0 0 false,
   { source := rehearsal 1 0 false
     label := .send
     target := calling 1 0 false .pause },
   { source := calling 1 0 false .pause
     label := .giveUp
     target := gaveUp },
   { source := gaveUp
     label := .finish (Rotation.syncFailure pauseTimeout "error.sync_pause_failed"
       s!"Failed to pause sync for rotation: {pauseTimeout.toText}")
     target := { gaveUp with protocol := none } }]

theorem timedOutPause_run [Codec] [Serde] :
    ∃ σ, Run step (fresh 5) timedOutPause σ := by
  have hstart : step (fresh 5) .start (rehearsal 0 0 false) :=
    .start _ "rotation" "error.rotation_failed" rfl rfl
  have hsend : step (rehearsal 1 0 false) .send (calling 1 0 false .pause) :=
    .send _ .pause _ .pause _ rfl rfl (.issue _ _ rfl)
  have hgiveUp := step.giveUp (calling 1 0 false .pause) .pause _ pauseTimeout
    (.error pauseTimeout) _ rfl rfl (.giveUp _ 0 .pause rfl)
  exact ⟨_, .cons hstart (.cons (internalStep_step (n := 0) rfl rfl) (.cons hsend
    (.cons hgiveUp (.cons (.finish _ _ rfl) (.nil _)))))⟩

/-- A retry that was due runs its cycle under the pause, and a pause that timed out is carried
out after the protocol has left. -/
theorem pause_not_mutex :
    (¬ ∀ (_ : Codec) (_ : Serde) maxRetries es t,
      Run SyncTask.loopStep (SyncTask.new (SyncStateMachine.new maxRetries)) es t →
      ∀ done e rest, es = done ++ e :: rest → pausedBy done = true → e.label.Quiet) ∧
    ¬ ∀ (_ : Codec) (_ : Serde) maxRetries es σ, Run step (fresh maxRetries) es σ →
      ∀ e ∈ es, ∀ result, e.label = .finish result → LeftUnpaused e.target.service := by
  let : Codec := Sample.codec
  let : Serde := Sample.serde
  constructor
  · intro hall
    rcases retriedWhilePaused_run with ⟨t, hrun⟩
    have hquiet := hall _ _ 5 retriedWhilePaused t hrun (retriedWhilePaused.take 2) _ [] rfl rfl
    have hread : StorageOp.readMetadata = .listRecords :=
      hquiet.noPipeline rfl _ (List.mem_cons_of_mem _ List.mem_cons_self)
    cases hread
  · intro hall
    rcases timedOutPause_run with ⟨σ, hrun⟩
    have hlast := hall _ _ 5 timedOutPause σ hrun _
      (List.mem_of_getElem? (i := 4) rfl) _ rfl
    cases hlast

end RotationSystem

end OakKeyring
