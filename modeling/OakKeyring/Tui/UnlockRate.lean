import OakKeyring.Tui.Unlock

/-!
# How often a password can be tried

However the keys fall and however late the executor answers, an attempt that follows on `n`
refusals is sent no earlier than the lockout after `n` refusals allows.
-/

namespace OakKeyring

open Spacing Transition

/-- What has to pass after the `n`th attempt before the next one. -/
def lockoutGap (n : Nat) : Nat :=
  Instant.fromSecs (lockoutDuration (n % 2 ^ 32))

variable {w w' : UnlockWorld} {l : UnlockLabel} {ts : List Instant} {accepts : Bool}

/-! ## What one event does -/

namespace UnlockScreen

variable {s : UnlockScreen}

/-- The phases in which the screen takes input. -/
def open? (s : UnlockScreen) : Prop :=
  s.state = .Idle ∨ s.state = .Failed

/-- A key leaves the screen as it is up to its texts, or sends what was typed. -/
inductive Answered (s : UnlockScreen) : UnlockReply → Prop
  | stays {r : UnlockReply} (hsent : r.sent = none) (hopen : r.screen.open?)
      (hcount : r.screen.failedAttempts = s.failedAttempts) : Answered s r
  | sends {r : UnlockReply} {command : UnlockCommand} (hsent : r.sent = some command)
      (hstate : r.screen.state = .Verifying)
      (hcount : r.screen.failedAttempts = s.failedAttempts) : Answered s r

theorem answered_trySend {s' : UnlockScreen} {command : UnlockCommand}
    (hstate : s'.state = .Verifying) (hcount : s'.failedAttempts = s.failedAttempts) :
    Answered s (s'.trySend accepts command) := by
  unfold trySend
  split
  · exact .sends rfl hstate hcount
  · exact .stays rfl (Or.inr rfl) hcount

theorem answered_handleEnter (hopen : s.open?) : Answered s (s.handleEnter accepts) := by
  unfold handleEnter
  split
  · exact .stays rfl hopen rfl
  · cases s.mode with
    | Password => exact answered_trySend rfl rfl
    | RecoveryKey =>
        cases RecoveryWords.new (splitWhitespace s.passwordInput) with
        | ok words => exact answered_trySend rfl rfl
        | error e => exact .stays rfl (Or.inr rfl) rfl

theorem answered_handleInput (hopen : s.open?) (key : KeyCode) :
    Answered s (s.handleInput accepts key) := by
  cases key with
  | Enter => exact answered_handleEnter hopen
  | Char c =>
      refine .stays rfl ?_ ?_
      · change (s.handleChar c).open?
        unfold handleChar
        dsimp only
        split
        · exact Or.inl rfl
        · exact hopen
      · change (s.handleChar c).failedAttempts = s.failedAttempts
        unfold handleChar
        dsimp only
        split <;> rfl
  | _ => exact .stays rfl hopen rfl

end UnlockScreen

/-! ## The invariant -/

/-- The next attempt waits for the lockout that belongs to the attempts so far. -/
structure Waits (ts : List Instant) (limit : Instant) (s : UnlockScreen) : Prop where
  counted : s.failedAttempts = ts.length % 2 ^ 32
  due : ∀ a, ts.getLast? = some a → a + lockoutGap ts.length ≤ limit

/-- What the phases mean: in between attempts the refusals are counted and the lockout is kept,
and only the attempt that is being verified is on its way. -/
def PhaseOk (ts : List Instant) (w : UnlockWorld) : Prop :=
  match w.screen.state with
  | .Idle | .Failed => w.outstanding = [] ∧ Waits ts w.now w.screen
  | .LockedOut lockedUntil => w.outstanding = [] ∧ Waits ts lockedUntil w.screen
  | .Verifying =>
      w.outstanding = [] ∨ (∃ command, w.outstanding = [command]) ∧
        ∃ n, ts.length = n + 1 ∧ w.screen.failedAttempts = n % 2 ^ 32
  | .Success => w.outstanding = []

structure UnlockInv (start : Instant) (ts : List Instant) (w : UnlockWorld) : Prop where
  spaced : Spaced lockoutGap ts
  timely : ∀ a ∈ ts, start ≤ a ∧ a ≤ w.now
  begun : start ≤ w.now
  phase : PhaseOk ts w

theorem PhaseOk.of_open (hopen : w.screen.open?) (hnone : w.outstanding = [])
    (hwaits : Waits ts w.now w.screen) : PhaseOk ts w := by
  unfold PhaseOk
  rcases hopen with hstate | hstate
  · rw [hstate]
    exact ⟨hnone, hwaits⟩
  · rw [hstate]
    exact ⟨hnone, hwaits⟩

theorem PhaseOk.waits (hphase : PhaseOk ts w) (hopen : w.screen.open?) :
    w.outstanding = [] ∧ Waits ts w.now w.screen := by
  unfold PhaseOk at hphase
  rcases hopen with hstate | hstate
  · rwa [hstate] at hphase
  · rwa [hstate] at hphase

theorem Waits.mono {limit limit' : Instant} {s s' : UnlockScreen} (h : Waits ts limit s)
    (hcount : s'.failedAttempts = s.failedAttempts) (hle : limit ≤ limit') :
    Waits ts limit' s' where
  counted := hcount.trans h.counted
  due := fun a ha => (h.due a ha).trans hle

/-- The phase is the same, and time has gone on. -/
theorem PhaseOk.later (h : PhaseOk ts w) (hscreen : w'.screen = w.screen)
    (hsame : w'.outstanding = w.outstanding) (hclock : w.now ≤ w'.now) : PhaseOk ts w' := by
  unfold PhaseOk at h ⊢
  rw [hscreen, hsame]
  cases hstate : w.screen.state with
  | Idle =>
      rw [hstate] at h
      exact ⟨h.1, h.2.mono rfl hclock⟩
  | Failed =>
      rw [hstate] at h
      exact ⟨h.1, h.2.mono rfl hclock⟩
  | _ =>
      rw [hstate] at h
      exact h

/-- A refusal is counted, and the lockout that belongs to the count begins. -/
theorem phaseOk_refused {n : Nat} (hstate : w'.screen = w.screen.refused w'.now)
    (hnone : w'.outstanding = []) (hlength : ts.length = n + 1)
    (hcount : w.screen.failedAttempts = n % 2 ^ 32) (htimely : ∀ a ∈ ts, a ≤ w'.now) :
    PhaseOk ts w' := by
  have hnext : (w.screen.failedAttempts + 1) % 2 ^ 32 = ts.length % 2 ^ 32 := by
    rw [hcount, hlength]
    omega
  have hlast : ∀ a, ts.getLast? = some a → a ≤ w'.now :=
    fun a ha => htimely a (List.mem_of_getLast? ha)
  unfold UnlockScreen.refused at hstate
  dsimp only at hstate
  rw [hnext] at hstate
  by_cases hlocked : 0 < lockoutDuration (ts.length % 2 ^ 32)
  · rw [if_pos hlocked] at hstate
    unfold PhaseOk
    rw [hstate]
    refine ⟨hnone, rfl, ?_⟩
    intro a ha
    exact Nat.add_le_add_right (hlast a ha) _
  · rw [if_neg hlocked] at hstate
    refine .of_open (Or.inr (by rw [hstate])) hnone ⟨by rw [hstate], ?_⟩
    intro a ha
    have hzero : lockoutGap ts.length = 0 := by
      unfold lockoutGap
      rw [Nat.eq_zero_of_not_pos hlocked]
      rfl
    rw [hzero]
    exact hlast a ha

/-! ## One step -/

variable {start : Instant}

/-- A step that sends nothing. -/
theorem UnlockInv.quiet (h : UnlockInv start ts w) (hclock : w.now ≤ w'.now)
    (hphase : PhaseOk ts w') : UnlockInv start ts w' where
  spaced := h.spaced
  timely := fun a ha => ⟨(h.timely a ha).1, (h.timely a ha).2.trans hclock⟩
  begun := h.begun.trans hclock
  phase := hphase

/-- A step that sends an attempt, where one is due. -/
theorem UnlockInv.sends (h : UnlockInv start ts w) (hclock : w.now ≤ w'.now)
    (hwaits : Waits ts w.now w.screen) {command : UnlockCommand}
    (hstate : w'.screen.state = .Verifying) (hsent : w'.outstanding = [command])
    (hcount : w'.screen.failedAttempts = w.screen.failedAttempts) :
    UnlockInv start (ts ++ [w'.now]) w' where
  spaced := h.spaced.concat fun a ha => (hwaits.due a ha).trans hclock
  timely := by
    intro a ha
    rcases List.mem_append.mp ha with ha | ha
    · exact ⟨(h.timely a ha).1, (h.timely a ha).2.trans hclock⟩
    · rw [List.mem_singleton.mp ha]
      exact ⟨h.begun.trans hclock, Nat.le_refl _⟩
  begun := h.begun.trans hclock
  phase := by
    unfold PhaseOk
    rw [hstate]
    refine Or.inr ⟨⟨command, hsent⟩, ts.length, ?_, hcount.trans hwaits.counted⟩
    simp

theorem UnlockInv.key (h : UnlockInv start ts w) {code : KeyCode}
    (hevent : l.event = .key code accepts) (hclock : w.now ≤ l.time) :
    UnlockInv start (ts ++ ((w.react l).sent.map fun _ => l.time).toList) (w.after l) := by
  have hreact : w.react l = w.screen.handleKey accepts code := by
    unfold UnlockWorld.react
    rw [hevent]
  have hwaiting : w.waiting l.event = w.outstanding := by rw [hevent]; rfl
  -- a screen that takes no input keeps the count
  have hclosed : ∀ r, w.react l = r → r.screen = w.screen → r.sent = none →
      UnlockInv start (ts ++ ((w.react l).sent.map fun _ => l.time).toList) (w.after l) := by
    intro r hr hscreen hsent
    have hafter : (w.after l).outstanding = w.outstanding := by
      simp [UnlockWorld.after, hwaiting, hr, hsent]
    rw [hr, hsent]
    simp only [Option.map_none, Option.toList_none, List.append_nil]
    exact h.quiet hclock (h.phase.later ((congrArg UnlockReply.screen hr).trans hscreen)
      hafter hclock)
  -- input is taken in `Idle` and `Failed` only
  by_cases hopen : w.screen.open?
  · have hphase := h.phase.waits hopen
    have hinput : w.react l = w.screen.handleInput accepts code := by
      rw [hreact]
      unfold UnlockScreen.handleKey
      rcases hopen with hstate | hstate
      · rw [hstate]
      · rw [hstate]
    have hanswer : UnlockScreen.Answered w.screen (w.react l) := by
      rw [hinput]
      exact UnlockScreen.answered_handleInput hopen code
    cases hanswer with
    | stays hsent hstill hcount =>
        have hafter : (w.after l).outstanding = [] := by
          simp [UnlockWorld.after, hwaiting, hsent, hphase.1]
        rw [hsent]
        simp only [Option.map_none, Option.toList_none, List.append_nil]
        exact h.quiet hclock (.of_open hstill hafter (hphase.2.mono hcount hclock))
    -- a password is sent while no other attempt is outstanding
    | @sends command hsent hstate hcount =>
        have hafter : (w.after l).outstanding = [command] := by
          simp only [UnlockWorld.after, hwaiting, hsent, hphase.1]
          rfl
        rw [hsent]
        exact h.sends hclock hphase.2 hstate hafter hcount
  · refine hclosed _ hreact ?_ ?_
    -- the other states ignore the key
    · unfold UnlockScreen.handleKey
      cases hstate : w.screen.state with
      | Idle => exact absurd (Or.inl hstate) hopen
      | Failed => exact absurd (Or.inr hstate) hopen
      | _ => dsimp only; split <;> rfl
    · unfold UnlockScreen.handleKey
      cases hstate : w.screen.state with
      | Idle => exact absurd (Or.inl hstate) hopen
      | Failed => exact absurd (Or.inr hstate) hopen
      | _ => dsimp only; split <;> rfl

theorem UnlockInv.tick (h : UnlockInv start ts w) (hevent : l.event = .tick)
    (hclock : w.now ≤ l.time) : UnlockInv start ts (w.after l) := by
  have hscreen : (w.after l).screen = w.screen.handleTick l.time := by
    simp only [UnlockWorld.after, UnlockWorld.react, hevent]
    rfl
  have hsame : (w.after l).outstanding = w.outstanding := by
    simp [UnlockWorld.after, UnlockWorld.react, UnlockWorld.waiting, UnlockScreen.stay, hevent]
  apply h.quiet hclock
  by_cases hlocked : ∃ lockedUntil, w.screen.state = .LockedOut lockedUntil
  · obtain ⟨lockedUntil, hstate⟩ := hlocked
    by_cases hover : lockedUntil ≤ l.time
    · have hphase := h.phase
      unfold PhaseOk at hphase
      rw [hstate] at hphase
      unfold UnlockScreen.handleTick at hscreen
      simp only [hstate, hover, if_true] at hscreen
      exact .of_open (Or.inl (by rw [hscreen])) (hsame.trans hphase.1)
        (hphase.2.mono (by rw [hscreen]) hover)
    · apply h.phase.later _ hsame hclock
      rw [hscreen]
      unfold UnlockScreen.handleTick
      simp only [hstate, hover, if_false]
  · apply h.phase.later _ hsame hclock
    rw [hscreen]
    unfold UnlockScreen.handleTick
    cases hstate : w.screen.state with
    | LockedOut lockedUntil => exact absurd ⟨lockedUntil, hstate⟩ hlocked
    | _ => rfl

theorem UnlockInv.answered (h : UnlockInv start ts w) {result : UnlockResult}
    (hevent : l.event = .answered result) (hasked : w.outstanding ≠ [])
    (hclock : w.now ≤ l.time) : UnlockInv start ts (w.after l) := by
  have hphase := h.phase
  unfold PhaseOk at hphase
  -- a command waits only while it is being verified
  have hverifying : w.screen.state = .Verifying := by
    cases hstate : w.screen.state with
    | Verifying => rfl
    | _ =>
        rw [hstate] at hphase
        first
          | exact absurd hphase.1 hasked
          | exact absurd hphase hasked
  rw [hverifying] at hphase
  rcases hphase with hnone | ⟨⟨command, hone⟩, n, hlength, hcount⟩
  · exact absurd hnone hasked
  have hrest : (w.after l).outstanding = [] := by
    simp only [UnlockWorld.after, UnlockWorld.react, UnlockWorld.waiting, hevent, hone]
    cases result <;> rfl
  apply h.quiet hclock
  have hreply : w.react l = w.screen.handleCommandResult l.time result := by
    unfold UnlockWorld.react
    rw [hevent]
  cases result with
  | VaultUnlockFailed =>
      exact phaseOk_refused (congrArg UnlockReply.screen hreply) hrest hlength hcount
        fun a ha => (h.timely a ha).2.trans hclock
  | Other =>
      have hscreen : (w.after l).screen = w.screen := congrArg UnlockReply.screen hreply
      unfold PhaseOk
      rw [hscreen, hverifying]
      exact Or.inl hrest
  | VaultUnlocked =>
      have hscreen : (w.after l).screen.state = .Success :=
        congrArg (fun r => r.screen.state) hreply
      unfold PhaseOk
      rw [hscreen]
      exact hrest
  | RecoveryKeyUnlocked =>
      have hscreen : (w.after l).screen.state = .Success :=
        congrArg (fun r => r.screen.state) hreply
      unfold PhaseOk
      rw [hscreen]
      exact hrest

theorem UnlockInv.unrelated (h : UnlockInv start ts w) (hevent : l.event = .unrelated)
    (hclock : w.now ≤ l.time) : UnlockInv start ts (w.after l) := by
  refine h.quiet hclock (h.phase.later ?_ ?_ hclock)
  · simp only [UnlockWorld.after, UnlockWorld.react, hevent]
    rfl
  · simp [UnlockWorld.after, UnlockWorld.react, UnlockWorld.waiting,
      UnlockScreen.handleCommandResult, UnlockScreen.stay, hevent]

theorem attempts_concat (es : List (Step UnlockWorld UnlockLabel))
    (e : Step UnlockWorld UnlockLabel) :
    attempts (es ++ [e]) = attempts es ++ (attemptOf e).toList := by
  cases h : attemptOf e <;> simp [attempts, h]

theorem UnlockInv.step {e : Step UnlockWorld UnlockLabel} (h : UnlockInv start ts e.source)
    (hstep : UnlockStep e.source e.label e.target) :
    UnlockInv start (ts ++ (attemptOf e).toList) e.target := by
  rw [hstep.target]
  have hnone : (e.source.react e.label).sent = none →
      ts ++ (attemptOf e).toList = ts := by
    intro hsent
    simp [attemptOf, hsent]
  cases hevent : e.label.event with
  | key code accepts => exact h.key hevent hstep.clock
  | tick =>
      rw [hnone (by simp [UnlockWorld.react, UnlockScreen.stay, hevent])]
      exact h.tick hevent hstep.clock
  | answered result =>
      rw [hnone (by simp only [UnlockWorld.react, hevent]; cases result <;> rfl)]
      exact h.answered hevent (hstep.asked result hevent) hstep.clock
  | unrelated =>
      rw [hnone (by simp only [UnlockWorld.react, hevent]; rfl)]
      exact h.unrelated hevent hstep.clock

/-! ## Every run -/

theorem unlockInv_opened : UnlockInv start [] (UnlockWorld.opened start) where
  spaced := spaced_nil
  timely := fun _ h => nomatch h
  begun := Nat.le_refl _
  phase := ⟨rfl, rfl, fun _ h => nomatch h⟩

theorem unlockInv_of_run {es : List (Step UnlockWorld UnlockLabel)}
    (hrun : Run UnlockStep (UnlockWorld.opened start) es w) :
    UnlockInv start (attempts es) w := by
  refine hrun.history (P := fun done u => UnlockInv start (attempts done) u) unlockInv_opened ?_
  intro done e hstep h
  rw [attempts_concat]
  exact h.step hstep

/-- From the eighth refusal on the lockout is a quarter of an hour. -/
theorem lockoutGap_of_lt {n : Nat} (h : 7 < n) (hcount : n < 2 ^ 32) :
    lockoutGap n = Instant.fromSecs 900 := by
  obtain ⟨m, rfl⟩ : ∃ m, n = m + 8 := ⟨n - 8, by omega⟩
  unfold lockoutGap
  rw [Nat.mod_eq_of_lt hcount]
  rfl

/-- Between any two attempts lie all the lockouts for the refusals in between, only one command is
on its way at a time, and as long as the counter does not wrap around, a visit of the screen has
room for eight attempts and one more for every quarter of an hour. -/
theorem attempts_wait_for_lockouts {es : List (Step UnlockWorld UnlockLabel)}
    (hrun : Run UnlockStep (UnlockWorld.opened start) es w) :
    (∀ (i d : Nat) (a b : Instant), (attempts es)[i]? = some a → (attempts es)[i + d]? = some b →
      a + ∑ m ∈ Finset.range d, Instant.fromSecs (lockoutDuration ((i + m + 1) % 2 ^ 32)) ≤ b) ∧
    w.outstanding.length ≤ 1 ∧
    ((attempts es).length ≤ 2 ^ 32 →
      start + ((attempts es).length - 8) * Instant.fromSecs 900 ≤ w.now) := by
  have hinv := unlockInv_of_run hrun
  refine ⟨fun i d a b ha hb => hinv.spaced.sum_le ha hb, ?_, ?_⟩
  · have hphase := hinv.phase
    unfold PhaseOk at hphase
    cases hstate : w.screen.state with
    | Verifying =>
        rw [hstate] at hphase
        rcases hphase with hnone | ⟨⟨command, hone⟩, -⟩
        · simp [hnone]
        · simp [hone]
    | Success =>
        rw [hstate] at hphase
        simp [hphase]
    | _ =>
        rw [hstate] at hphase
        simp [hphase.1]
  · intro hcount
    have hroom : start + ((attempts es).length - (7 + 1)) * Instant.fromSecs 900 ≤
        max start w.now := hinv.spaced.length_le
      (fun m hm hlt => (lockoutGap_of_lt hm (hlt.trans_le hcount)).ge)
      (fun a ha => (hinv.timely a ha).1) fun a ha => (hinv.timely a ha).2
    rwa [Nat.max_eq_right hinv.begun] at hroom

/-! ## A run -/

namespace UnlockWorld

/-- Whether an event can happen. -/
def admits (w : UnlockWorld) (l : UnlockLabel) : Bool :=
  !w.left && decide (w.now ≤ l.time) &&
    match l.event with
    | .answered _ => !w.outstanding.isEmpty
    | _ => true

def play : UnlockWorld → List UnlockLabel → List (Step UnlockWorld UnlockLabel) × UnlockWorld
  | w, [] => ([], w)
  | w, l :: ls =>
      let rest := (w.after l).play ls
      ({ source := w, label := l, target := w.after l } :: rest.1, rest.2)

def plays : UnlockWorld → List UnlockLabel → Bool
  | _, [] => true
  | w, l :: ls => w.admits l && (w.after l).plays ls

theorem step_of_admits (h : w.admits l = true) : UnlockStep w l (w.after l) := by
  simp only [admits, Bool.and_eq_true, Bool.not_eq_true', decide_eq_true_eq] at h
  refine ⟨h.1.1, h.1.2, ?_, rfl⟩
  intro result hevent
  rw [hevent] at h
  simpa using h.2

theorem run_play {ls : List UnlockLabel} (h : w.plays ls = true) :
    Run UnlockStep w (w.play ls).1 (w.play ls).2 := by
  induction ls generalizing w with
  | nil => exact Run.nil w
  | cons l ls ih =>
      have hboth := (Bool.and_eq_true _ _).mp h
      exact Run.cons (step_of_admits hboth.1) (ih hboth.2)

end UnlockWorld

namespace SixTries

/-- A password of one letter is typed, sent and refused, a second later. -/
def refusal (n : Nat) : List UnlockLabel :=
  [{ event := .key (.Char 'x') true, time := Instant.fromSecs n },
    { event := .key .Enter true, time := Instant.fromSecs n },
    { event := .answered .VaultUnlockFailed, time := Instant.fromSecs (n + 1) }]

/-- Five passwords are refused; a sixth is sent when the lockout is over. -/
def labels : List UnlockLabel :=
  refusal 0 ++ refusal 1 ++ refusal 2 ++ refusal 3 ++ refusal 4 ++
    { event := .key .Enter true, time := Instant.fromSecs 20 } ::
    { event := .tick, time := Instant.fromSecs 35 } :: refusal 36

end SixTries

open SixTries in
theorem attempts_wait_for_lockouts_six :
    4000000000 + ∑ m ∈ Finset.range 1, Instant.fromSecs (lockoutDuration ((4 + m + 1) % 2 ^ 32)) ≤
      36000000000 :=
  (attempts_wait_for_lockouts (UnlockWorld.run_play
    (by decide : (UnlockWorld.opened 0).plays labels = true))).1 4 1 _ _ (by decide) (by decide)

end OakKeyring
