import OakKeyring.Sync.Lock
import OakKeyring.Lib.Play
import OakKeyring.Samples.Store

/-!
# When the sync lock excludes

Between reading the lock file and replacing or deleting it a device does not look again, and it
judges the expiry of the other's hold by its own clock. As long as nobody else changes the file
in between, and the two clocks agree on whether the hold has expired, a device that was told it
holds the lock is protected by the file until its hold expires.
-/

namespace OakKeyring

open Effect Transition

section

variable [Codec] {D : Type}

abbrev LockPool (D : Type) :=
  lockDevices.Pool LockStore D

abbrev LockStep (D : Type) :=
  Step (LockPool D) (lockDevices.Label D)

/-- One operation of one device, interleaved with those of the others. -/
def lockStep [DecidableEq D] : LockPool D → lockDevices.Label D → LockPool D → Prop :=
  Machine.Pool.step lockEnv fun _ => True

def LockPool.initial (s : LockStore) (lock : D → SyncLock) : LockPool D where
  shared := s
  party d := .idle (lock d)
  spoiler := none

/-! ## Who was told what -/

/-- The lock data a device has written last, and those it was told to hold the lock with. -/
structure Holding where
  written : Option LockFileData
  told : Option LockFileData

/-- The data written last. -/
def writtenAfter (written : Option LockFileData) : Event LockI → Option LockFileData
  | ⟨.uploadLock data, .ok _⟩ => some data
  | _ => written

/-- A successful acquisition tells; the call of `release` takes it back. -/
def Holding.next [DecidableEq D] (d : D) (h : Holding) : lockDevices.Label D → Holding
  | .begin d' .release => if d' = d then { h with told := none } else h
  | .begin _ _ => h
  | .op d' ev => if d' = d then { h with written := writtenAfter h.written ev } else h
  | .finish d' (.acquired (.ok _)) => if d' = d then { h with told := h.written } else h
  | .finish _ _ => h

def holding [DecidableEq D] (es : List (LockStep D)) (d : D) : Holding :=
  es.foldl (fun h e => h.next d e.label) { written := none, told := none }

/-- Of two devices that were told they hold the lock, the hold of one has expired, each by the
clock of the device. -/
def Excludes [DecidableEq D] (lock : D → SyncLock) (es : List (LockStep D)) (σ : LockPool D) :
    Prop :=
  ∀ d d' a b, d ≠ d' → (holding es d).told = some a → (holding es d').told = some b →
    SyncLock.expiredAt a (σ.shared.clock (lock d).deviceId) = true ∨
      SyncLock.expiredAt b (σ.shared.clock (lock d').deviceId) = true

/-- A device deletes lock data of its own only. -/
def ReleasesOwn (lock : D → SyncLock) (es : List (LockStep D)) : Prop :=
  ∀ e ∈ es, ∀ d, e.label = .op d (LockOp.deleteLock.answered (.ok ())) →
    ∀ data, e.source.shared.file = some data → data.deviceId = (lock d).deviceId

/-- If the step changes the lock file, the file is still what the turn has read. -/
def LockStep.Unbroken (e : LockStep D) : Prop :=
  ∀ d, ((∃ data, e.label = .op d ((LockOp.uploadLock data).answered (.ok ()))) ∨
      e.label = .op d (LockOp.deleteLock.answered (.ok ()))) →
    ∃ p, e.source.party d = .busy (some e.source.shared.file) p

/-- If the step replaces the data of another device that have expired by the clock of the one
that writes, they have expired by the clock of the other, too. -/
def LockStep.Synchronous (lock : D → SyncLock) (e : LockStep D) : Prop :=
  ∀ d data, e.label = .op d ((LockOp.uploadLock data).answered (.ok ())) →
    ∀ stored, e.source.shared.file = some stored →
      SyncLock.expiredAt stored (e.source.shared.clock (lock d).deviceId) = true →
      SyncLock.expiredAt stored (e.source.shared.clock stored.deviceId) = true

/-- If the step reads the clock, an expiry counted from it can be read back. -/
def LockStep.Legible (lock : D → SyncLock) (e : LockStep D) : Prop :=
  ∀ d t, e.label = .op d ((LockOp.now (lock d).deviceId).answered t) →
    parseRfc3339 (toRfc3339 (t.plus (lock d).lockTtl)) = .ok (t.plus (lock d).lockTtl)

/-! ## What a device may rely on -/

namespace SyncLock

/-- Lock data of the device whose hold ends one time-to-live after the instant. -/
def Stamped (lock : SyncLock) (data : LockFileData) (start : Int) : Prop :=
  data.deviceId = lock.deviceId ∧
    ∀ now, expiredAt data now = true ↔ start + lock.lockTtl ≤ now

/-- A turn as the device sees it: the file it has read, the latest time it knows of, the data
it was told to hold the lock with, and what it has written since. -/
structure View where
  note : Option (Option LockFileData)
  time : Int
  told : Option LockFileData
  mine : Option LockFileData

/-- The clock as it is read. -/
def ReadsClock (lock : SyncLock) (time : Int) : Event LockI → Prop
  | ⟨.now deviceId, t⟩ => deviceId = lock.deviceId → time = DateTime.toNanos t ∧
      parseRfc3339 (toRfc3339 (DateTime.plus t lock.lockTtl)) = .ok (DateTime.plus t lock.lockTtl)
  | _ => True

/-- What one operation changes in the view. -/
structure ViewStep (lock : SyncLock) (V : View) (ev : Event LockI) (V' : View) : Prop where
  note : V'.note = noteLockRead V.note ev
  time : V.time ≤ V'.time
  told : V'.told = V.told
  mine : V'.mine = writtenAfter V.mine ev
  clock : lock.ReadsClock V'.time ev

def viewEnv (lock : SyncLock) : Env LockI View :=
  fun V c x V' => lock.ViewStep V ⟨c, x⟩ V'

/-- A file that the device may replace: none, its own, or expired. -/
def Takeable (lock : SyncLock) (time : Int) (file : Option LockFileData) : Prop :=
  ∀ data, file = some data → data.deviceId = lock.deviceId ∨ expiredAt data time = true

/-- What the device has found out before it changes the file. -/
def Allowed (lock : SyncLock) (V : View) : LockOp → Prop
  | .uploadLock data =>
      (∃ file, V.note = some file ∧ lock.Takeable V.time file) ∧ V.mine = none ∧
        ∃ start ≤ V.time, lock.Stamped data start ∧
          ∀ e, V.told = some e → ∃ before ≤ start, lock.Stamped e before
  | .deleteLock =>
      (∃ data, V.note = some (some data) ∧ data.deviceId = lock.deviceId) ∧ V.told = none ∧
        V.mine = none
  | _ => True

/-- Before the device has written anything. -/
structure Ready (lock : SyncLock) (V : View) : Prop where
  unwritten : V.mine = none
  told : ∀ e, V.told = some e → ∃ start ≤ V.time, lock.Stamped e start

theorem Ready.step {lock : SyncLock} {V V' : View} {ev : Event LockI} (h : lock.Ready V)
    (hstep : lock.ViewStep V ev V') (hmine : writtenAfter V.mine ev = V.mine) : lock.Ready V' where
  unwritten := by rw [hstep.mine, hmine, h.unwritten]
  told e he := by
    rw [hstep.told] at he
    rcases h.told e he with ⟨start, hstart, hstamped⟩
    exact ⟨start, Int.le_trans hstart hstep.time, hstamped⟩

/-- What an attempt guarantees: on success the device has written, else it has not. -/
def Attempted (lock : SyncLock) (r : Except SyncError Unit) (V : View) : Prop :=
  match r with
  | .ok () => V.mine ≠ none
  | .error _ => lock.Ready V

theorem expiredAt_mono {data : LockFileData} {now now' : Int} (hle : now ≤ now')
    (h : expiredAt data now = true) : expiredAt data now' = true := by
  unfold expiredAt at h ⊢
  cases hparse : parseRfc3339 data.expiresAt with
  | error e => rfl
  | ok expires =>
      rw [hparse] at h
      have hnow : expires.toNanos ≤ now := of_decide_eq_true h
      exact decide_eq_true (Int.le_trans hnow hle)

theorem stamped_lockDataAt {lock : SyncLock} {t : DateTime}
    (hlegible : parseRfc3339 (toRfc3339 (t.plus lock.lockTtl)) = .ok (t.plus lock.lockTtl)) :
    lock.Stamped (lock.lockDataAt t) t.toNanos := by
  refine ⟨rfl, fun now => ?_⟩
  simp [expiredAt, lockDataAt, hlegible]

/-! ## The programs -/

abbrev Heeds {α : Type} (lock : SyncLock) (Q : α → View → Prop) (p : LockProg α) (V : View) :
    Prop :=
  safe lock.Allowed lock.viewEnv Q p V

/-- A file that may be taken is replaced by stamped data. -/
theorem heeds_takeLock {lock : SyncLock} {V : View} {file : Option LockFileData}
    (hready : lock.Ready V) (hnote : V.note = some file) (htakeable : lock.Takeable V.time file) :
    lock.Heeds (lock.Attempted) lock.takeLock V := by
  refine safe_perform trivial ?_
  intro t V₁ hclock
  have hready₁ : lock.Ready V₁ := hready.step hclock rfl
  have hnote₁ : V₁.note = some file := by
    rw [hclock.note]
    exact hnote
  have htakeable₁ : lock.Takeable V₁.time file := by
    intro data hdata
    rcases htakeable data hdata with hown | hexpired
    · exact Or.inl hown
    · exact Or.inr (expiredAt_mono hclock.time hexpired)
  rcases hclock.clock rfl with ⟨htime, hlegible⟩
  refine safe_perform ⟨⟨file, hnote₁, htakeable₁⟩, hready₁.unwritten, DateTime.toNanos t,
    Int.le_of_eq htime.symm, stamped_lockDataAt hlegible, ?_⟩ ?_
  · intro e he
    rcases hready.told e (hclock.told ▸ he) with ⟨start, hstart, hstamped⟩
    have hlater : V.time ≤ DateTime.toNanos t := htime ▸ hclock.time
    exact ⟨start, Int.le_trans hstart hlater, hstamped⟩
  · intro r V₂ hwrite
    cases r with
    | ok u =>
        change V₂.mine ≠ none
        rw [hwrite.mine]
        intro hnone
        cases hnone
    | error e => exact hready₁.step hwrite rfl

/-- The expiry check reads the clock at most. -/
theorem heeds_isExpired {lock : SyncLock} {V : View} (data : LockFileData)
    (hready : lock.Ready V) :
    lock.Heeds (fun expired V' => lock.Ready V' ∧ V'.note = V.note ∧
      (expired = true → expiredAt data V'.time = true)) (lock.isExpired data) V := by
  unfold isExpired
  cases hparse : parseRfc3339 data.expiresAt with
  | error e =>
      refine ⟨hready, rfl, fun _ => ?_⟩
      simp [expiredAt, hparse]
  | ok expires =>
      refine safe_perform trivial ?_
      intro t V' hclock
      refine ⟨hready.step hclock rfl, hclock.note, fun hexpired => ?_⟩
      have hpast : expires.toNanos ≤ DateTime.toNanos t := of_decide_eq_true hexpired
      simp only [expiredAt, hparse, (hclock.clock rfl).1]
      exact decide_eq_true hpast

theorem heeds_tryAcquire {lock : SyncLock} {V : View} (hready : lock.Ready V) :
    lock.Heeds (lock.Attempted) lock.tryAcquire V := by
  refine safe_perform trivial ?_
  intro read V₁ hread
  have hready₁ : lock.Ready V₁ := hready.step hread rfl
  cases read with
  | error e => exact hready₁
  | ok file =>
      -- what was read is what the lock goes by from here on
      have hnote : V₁.note = some file := hread.note
      cases file with
      | none =>
          refine heeds_takeLock hready₁ hnote ?_
          intro data hdata
          cases hdata
      | some data =>
          change lock.Heeds _ (lock.isExpired data >>= fun expired =>
            if expired = true then lock.takeLock
            else if data.deviceId = lock.deviceId then lock.takeLock
            else pure (.error (.LockAcquireFailed
              s!"lock held by device '{data.deviceId}' until {data.expiresAt}"))) V₁
          refine safe_bind (heeds_isExpired data hready₁) ?_
          intro expired V₂ hcheck
          rcases hcheck with ⟨hready₂, hsame, hexpired⟩
          have hnote₂ : V₂.note = some (some data) := hsame.trans hnote
          cases expired with
          | true =>
              refine heeds_takeLock hready₂ hnote₂ ?_
              intro found hfound
              cases hfound
              exact Or.inr (hexpired rfl)
          | false =>
              by_cases hown : data.deviceId = lock.deviceId
              · simp only [Bool.false_eq_true, if_false, if_pos hown]
                refine heeds_takeLock hready₂ hnote₂ ?_
                intro found hfound
                cases hfound
                exact Or.inl hown
              · simp only [Bool.false_eq_true, if_false, if_neg hown]
                exact hready₂

/-- What is left of an attempt in a loop: a success was written. -/
def Looped (r : Option (Except SyncError Unit)) (V : View) : Prop :=
  r = some (.ok ()) → V.mine ≠ none

theorem heeds_acquireLoop (lock : SyncLock) (start : DateTime) (rounds : Nat) :
    ∀ V, lock.Ready V → lock.Heeds Looped (lock.acquireLoop start rounds) V := by
  induction rounds with
  | zero =>
      intro V _ h
      cases h
  | succ rounds ih =>
      intro V hready
      unfold acquireLoop
      refine safe_perform trivial ?_
      intro now V₁ hclock
      have hready₁ : lock.Ready V₁ := hready.step hclock rfl
      by_cases htimeout : lock.acquireTimeout.numSeconds ≤
          Duration.numSeconds (DateTime.toNanos now - start.toNanos)
      · simp only [if_pos htimeout]
        intro h
        cases h
      · simp only [if_neg htimeout]
        refine safe_bind (heeds_tryAcquire hready₁) ?_
        intro r V₂ hattempt
        cases r with
        | ok u =>
            intro _
            exact hattempt
        | error e =>
            have hready₂ : lock.Ready V₂ := hattempt
            cases e with
            | LockAcquireFailed reason =>
                -- another round, with or without a pause before it
                by_cases hpause : 0 < Duration.numMilliseconds
                    (lock.sleepDuration (DateTime.toNanos now - start.toNanos))
                · simp only [if_pos hpause]
                  refine safe_perform trivial ?_
                  intro _ V₃ hsleep
                  exact ih V₃ (hready₂.step hsleep rfl)
                · simp only [if_neg hpause]
                  exact ih V₂ hready₂
            | _ =>
                intro h
                cases h

theorem heeds_release {lock : SyncLock} {V : View} (hready : lock.Ready V)
    (htold : V.told = none) : lock.Heeds (fun _ _ => True) lock.release V := by
  refine safe_perform trivial ?_
  intro read V₁ hread
  have hready₁ : lock.Ready V₁ := hready.step hread rfl
  cases read with
  | error e => trivial
  | ok file =>
      cases file with
      | none => trivial
      | some data =>
          change lock.Heeds _ (if data.deviceId = lock.deviceId then perform .deleteLock
            else pure (.ok ())) V₁
          by_cases hown : data.deviceId = lock.deviceId
          · rw [if_pos hown]
            refine ⟨⟨⟨data, hread.note, hown⟩, ?_, hready₁.unwritten⟩, fun _ _ _ => trivial⟩
            rw [hread.told, htold]
          · rw [if_neg hown]
            trivial

/-- How a call ends: with the same lock, and with a write if it reports success. -/
def Ends (lock : SyncLock) (out : SyncLock × LockReply) (V : View) : Prop :=
  out.1 = lock ∧ (out.2 = .acquired (.ok ()) → V.mine ≠ none)

theorem heeds_turn {lock : SyncLock} {V : View} (i : LockRequest) (hready : lock.Ready V)
    (hrelease : i = .release → V.told = none) :
    lock.Heeds (lock.Ends) (lock.turn i) V := by
  cases i with
  | tryAcquire =>
      refine safe_bind (heeds_tryAcquire hready) ?_
      intro r V' hattempt
      refine ⟨rfl, fun hok => ?_⟩
      injection hok with hr
      rw [hr] at hattempt
      exact hattempt
  | acquire rounds =>
      refine safe_bind (P := Looped) ?_ ?_
      · refine safe_perform trivial ?_
        intro start V₁ hclock
        exact heeds_acquireLoop lock start rounds V₁ (hready.step hclock rfl)
      · intro r V' hlooped
        cases r with
        | none =>
            refine ⟨rfl, fun hok => ?_⟩
            cases hok
        | some r =>
            refine ⟨rfl, fun hok => ?_⟩
            injection hok with hr
            rw [hr] at hlooped
            exact hlooped rfl
  | release =>
      refine safe_bind (heeds_release hready (hrelease rfl)) ?_
      intro r V' _
      refine ⟨rfl, fun hok => ?_⟩
      cases hok

/-! ## Protection -/

/-- Until the hold has expired, the file names the device and holds at least as long. -/
def Protected (lock : SyncLock) (s : LockStore) (e : LockFileData) : Prop :=
  expiredAt e (s.clock lock.deviceId) = false → ∃ data, s.file = some data ∧ data.deviceId = lock.deviceId ∧
    ∀ now, expiredAt data now = true → expiredAt e now = true

/-- What was protected stays so. -/
structure Keeps (lock : SyncLock) (s s' : LockStore) : Prop where
  time : s.clock lock.deviceId ≤ s'.clock lock.deviceId
  protects : ∀ e, lock.Protected s e → lock.Protected s' e

theorem unexpired_of_le {e : LockFileData} {now now' : Int} (hle : now ≤ now')
    (h : expiredAt e now' = false) : expiredAt e now = false := by
  cases hpast : expiredAt e now with
  | false => rfl
  | true =>
      rw [expiredAt_mono hle hpast] at h
      cases h

theorem keeps_of_file_eq (lock : SyncLock) {s s' : LockStore} (hfile : s'.file = s.file)
    (htime : s.clock ≤ s'.clock) : lock.Keeps s s' where
  time := htime lock.deviceId
  protects e h hfresh := by
    rw [hfile]
    exact h (unexpired_of_le (htime lock.deviceId) hfresh)

/-- A device takes a file that no other device's hold depends on. -/
theorem keeps_of_taken {lock other : SyncLock} (hne : other.deviceId ≠ lock.deviceId)
    {s : LockStore} {time : Int} {clock : String → Int} (data : LockFileData)
    (htakeable : other.Takeable time s.file) (htime : time ≤ s.clock other.deviceId)
    (hclock : s.clock ≤ clock)
    (hagree : ∀ stored, s.file = some stored → expiredAt stored (s.clock other.deviceId) = true →
      expiredAt stored (s.clock stored.deviceId) = true) :
    lock.Keeps s { file := some data, clock := clock } where
  time := hclock lock.deviceId
  protects e h hfresh := by
    have hearlier : expiredAt e (s.clock lock.deviceId) = false :=
      unexpired_of_le (hclock lock.deviceId) hfresh
    rcases h hearlier with ⟨stored, hstored, hid, hcovers⟩
    rcases htakeable stored hstored with hown | hexpired
    · exact absurd (hown.symm.trans hid) hne
    -- expired for the one that takes it, so for the one it names, and the hold with it
    · have hthere := hagree stored hstored (expiredAt_mono htime hexpired)
      rw [hid] at hthere
      have hpast := hcovers _ hthere
      rw [hearlier] at hpast
      cases hpast

theorem keeps_of_deleted {lock other : SyncLock} (hne : other.deviceId ≠ lock.deviceId)
    {s : LockStore} {data : LockFileData} {clock : String → Int} (hfile : s.file = some data)
    (hown : data.deviceId = other.deviceId) (hclock : s.clock ≤ clock) :
    lock.Keeps s { file := none, clock := clock } where
  time := hclock lock.deviceId
  protects e h hfresh := by
    rcases h (unexpired_of_le (hclock lock.deviceId) hfresh) with ⟨stored, hstored, hid, -⟩
    rw [hfile] at hstored
    cases hstored
    exact absurd (hown.symm.trans hid) hne

/-- Data stamped later cover data stamped before. -/
theorem protected_of_stamped {lock : SyncLock} {data e : LockFileData} {start before : Int}
    {clock : String → Int} (hdata : lock.Stamped data start) (he : lock.Stamped e before)
    (hle : before ≤ start) : lock.Protected { file := some data, clock := clock } e := by
  intro _
  refine ⟨data, rfl, hdata.1, fun now hpast => ?_⟩
  have hend : start + lock.lockTtl ≤ now := (hdata.2 now).mp hpast
  exact (he.2 now).mpr (by omega)

/-! ## The invariant -/

/-- What a device was told is stamped and protected. -/
structure ToldOk (lock : SyncLock) (s : LockStore) (h : Holding) : Prop where
  stamped : ∀ e, h.told = some e → ∃ start ≤ s.clock lock.deviceId, lock.Stamped e start
  safe : ∀ e, h.told = some e → lock.Protected s e

/-- A view that agrees with the store and the record of the run. -/
structure Tracks (lock : SyncLock) (s : LockStore) (h : Holding)
    (n : Option (Option LockFileData)) (V : View) : Prop where
  note : V.note = n
  time : V.time ≤ s.clock lock.deviceId
  told : V.told = h.told
  mine : ∀ e, V.mine = some e → h.written = some e ∧
    (∃ start ≤ s.clock lock.deviceId, lock.Stamped e start) ∧ lock.Protected s e

/-- A party between turns has its lock; in a turn its remaining program heeds what it has seen. -/
def PartyOk (lock : SyncLock) (s : LockStore) (h : Holding) : lockDevices.Party → Prop
  | .idle t => t = lock
  | .busy n p => ∃ V, lock.Tracks s h n V ∧ lock.Heeds (lock.Ends) p V

theorem toldOk_of_none (lock : SyncLock) (s : LockStore) {h : Holding} (hnone : h.told = none) :
    lock.ToldOk s h where
  stamped e he := by
    rw [hnone] at he
    cases he
  safe e he := by
    rw [hnone] at he
    cases he

theorem ToldOk.mono {lock : SyncLock} {s s' : LockStore} {h : Holding} (hok : lock.ToldOk s h)
    (hkeeps : lock.Keeps s s') : lock.ToldOk s' h where
  stamped e he := by
    rcases hok.stamped e he with ⟨start, hstart, hstamped⟩
    exact ⟨start, Int.le_trans hstart hkeeps.time, hstamped⟩
  safe e he := hkeeps.protects e (hok.safe e he)

theorem Tracks.mono {lock : SyncLock} {s s' : LockStore} {h : Holding}
    {n : Option (Option LockFileData)} {V : View} (htracks : lock.Tracks s h n V)
    (hkeeps : lock.Keeps s s') : lock.Tracks s' h n V where
  note := htracks.note
  time := Int.le_trans htracks.time hkeeps.time
  told := htracks.told
  mine e he := by
    rcases htracks.mine e he with ⟨hwritten, ⟨start, hstart, hstamped⟩, hsafe⟩
    exact ⟨hwritten, ⟨start, Int.le_trans hstart hkeeps.time, hstamped⟩,
      hkeeps.protects e hsafe⟩

theorem PartyOk.mono {lock : SyncLock} {s s' : LockStore} {h : Holding}
    {party : lockDevices.Party} (hok : lock.PartyOk s h party) (hkeeps : lock.Keeps s s') :
    lock.PartyOk s' h party := by
  cases party with
  | idle t => exact hok
  | busy n p =>
      rcases hok with ⟨V, htracks, hheeds⟩
      exact ⟨V, htracks.mono hkeeps, hheeds⟩

/-- What an operation of a device does to its own standing, to the others, and to the file. -/
structure OpEffect (lock : SyncLock) (s s' : LockStore) (h : Holding)
    (n : Option (Option LockFileData)) (ev : Event LockI) (p : LockProg (SyncLock × LockReply)) :
    Prop where
  told : lock.ToldOk s' h
  party : lock.PartyOk s' h (.busy n p)
  others : ∀ other : SyncLock, lock.deviceId ≠ other.deviceId → other.Keeps s s'
  own : ev = LockOp.deleteLock.answered (.ok ()) → ∀ data, s.file = some data →
    data.deviceId = lock.deviceId

/-- An operation that leaves the file alone. -/
theorem opEffect_of_file_eq {lock : SyncLock} {s s' : LockStore} {h : Holding} {V : View}
    {n : Option (Option LockFileData)} {c : LockOp} {x : c.Answer}
    {k : c.Answer → LockProg (SyncLock × LockReply)} (htold : lock.ToldOk s h)
    (htracks : lock.Tracks s h n V) (hheeds : lock.Heeds (lock.Ends) (.call c k) V)
    (hfile : s'.file = s.file) (htime : s.clock ≤ s'.clock)
    (hwritten : ∀ written, writtenAfter written (c.answered x) = written)
    (hclock : lock.ReadsClock (s'.clock lock.deviceId) (c.answered x))
    (hdelete : c.answered x ≠ LockOp.deleteLock.answered (.ok ())) :
    lock.OpEffect s s' { h with written := writtenAfter h.written (c.answered x) }
      (noteLockRead n (c.answered x)) (c.answered x) (k x) := by
  have hkeeps : lock.Keeps s s' := keeps_of_file_eq lock hfile htime
  have hsame : { h with written := writtenAfter h.written (c.answered x) } = h := by
    rw [hwritten]
  rw [hsame]
  have hnext : lock.ViewStep V (c.answered x)
      { V with note := noteLockRead n (c.answered x), time := s'.clock lock.deviceId } := by
    refine ⟨?_, Int.le_trans htracks.time (htime lock.deviceId), rfl, (hwritten V.mine).symm,
      hclock⟩
    rw [htracks.note]
  have htracked := htracks.mono hkeeps
  refine ⟨htold.mono hkeeps,
    ⟨{ V with note := noteLockRead n (c.answered x), time := s'.clock lock.deviceId }, ?_, hheeds.2 x _ hnext⟩,
    fun other _ => keeps_of_file_eq other hfile htime, fun hev => absurd hev hdelete⟩
  exact ⟨rfl, Int.le_refl _, htracked.told, htracked.mine⟩

/-- The lock file is taken: it was read as missing, as the device's own or as expired, and is as
it was read. -/
theorem opEffect_of_upload {lock : SyncLock} {s : LockStore} {h : Holding} {V : View}
    {n : Option (Option LockFileData)} {data : LockFileData} {clock : String → Int}
    {k : (LockOp.uploadLock data).Answer → LockProg (SyncLock × LockReply)}
    (htracks : lock.Tracks s h n V) (hheeds : lock.Heeds (lock.Ends) (.call (.uploadLock data) k) V)
    (hread : n = some s.file) (hclock : s.clock ≤ clock)
    (hagree : ∀ stored, s.file = some stored → expiredAt stored (s.clock lock.deviceId) = true →
      expiredAt stored (s.clock stored.deviceId) = true) :
    lock.OpEffect s { file := some data, clock := clock } { h with written := some data } n
      ((LockOp.uploadLock data).answered (.ok ())) (k (.ok ())) := by
  rcases hheeds.1 with ⟨⟨file, hnote, htakeable⟩, -, start, hstart, hdata, htoldBefore⟩
  have hfile : file = s.file := by
    rw [htracks.note, hread] at hnote
    exact (Option.some.inj hnote).symm
  rw [hfile] at htakeable
  have htime : V.time ≤ clock lock.deviceId :=
    Int.le_trans htracks.time (hclock lock.deviceId)
  have hstamp : start ≤ clock lock.deviceId := Int.le_trans hstart htime
  -- what the device was told before is covered by what it writes now
  have hcovered : ∀ e, h.told = some e →
      (∃ before ≤ clock lock.deviceId, lock.Stamped e before) ∧
        lock.Protected { file := some data, clock := clock } e := by
    intro e he
    rcases htoldBefore e (htracks.told.trans he) with ⟨before, hbefore, hstamped⟩
    exact ⟨⟨before, Int.le_trans hbefore hstamp, hstamped⟩,
      protected_of_stamped hdata hstamped hbefore⟩
  have hnext : lock.ViewStep V ((LockOp.uploadLock data).answered (.ok ()))
      { V with note := n, time := clock lock.deviceId, mine := some data } :=
    ⟨htracks.note.symm, htime, rfl, rfl, trivial⟩
  refine ⟨⟨fun e he => (hcovered e he).1, fun e he => (hcovered e he).2⟩,
    ⟨{ V with note := n, time := clock lock.deviceId, mine := some data }, ?_,
      hheeds.2 _ _ hnext⟩,
    fun other hne => keeps_of_taken hne data htakeable htracks.time hclock hagree, ?_⟩
  · refine ⟨rfl, Int.le_refl _, htracks.told, fun e he => ?_⟩
    cases he
    exact ⟨rfl, ⟨start, hstamp, hdata⟩, protected_of_stamped hdata hdata (Int.le_refl _)⟩
  · intro heq
    injection heq with hcall
    cases hcall

/-- The lock file is deleted: it was read as the device's own, and is as it was read. -/
theorem opEffect_of_delete {lock : SyncLock} {s : LockStore} {h : Holding} {V : View}
    {n : Option (Option LockFileData)} {clock : String → Int}
    {k : LockOp.deleteLock.Answer → LockProg (SyncLock × LockReply)}
    (htracks : lock.Tracks s h n V) (hheeds : lock.Heeds (lock.Ends) (.call .deleteLock k) V)
    (hread : n = some s.file) (hclock : s.clock ≤ clock) :
    lock.OpEffect s { file := none, clock := clock } h n
      (LockOp.deleteLock.answered (.ok ())) (k (.ok ())) := by
  rcases hheeds.1 with ⟨⟨data, hnote, hown⟩, htoldNone, hmineNone⟩
  have hfile : s.file = some data := by
    rw [htracks.note, hread] at hnote
    exact Option.some.inj hnote
  have hnone : h.told = none := htracks.told.symm.trans htoldNone
  have hnext : lock.ViewStep V (LockOp.deleteLock.answered (.ok ()))
      { V with note := n, time := clock lock.deviceId } :=
    ⟨htracks.note.symm, Int.le_trans htracks.time (hclock lock.deviceId), rfl, rfl, trivial⟩
  refine ⟨toldOk_of_none lock _ hnone,
    ⟨{ V with note := n, time := clock lock.deviceId }, ?_, hheeds.2 _ _ hnext⟩,
    fun other hne => keeps_of_deleted hne hfile hown hclock, ?_⟩
  · refine ⟨rfl, Int.le_refl _, htracks.told, fun e he => ?_⟩
    rw [hmineNone] at he
    cases he
  · intro _ stored hstored
    rw [hfile] at hstored
    cases hstored
    exact hown

/-- Step lemma for operations. -/
theorem PartyOk.op {lock : SyncLock} {s s' : LockStore} {h : Holding}
    {n : Option (Option LockFileData)} {c : LockOp} {x : c.Answer}
    {k : c.Answer → LockProg (SyncLock × LockReply)} (htold : lock.ToldOk s h)
    (hparty : lock.PartyOk s h (.busy n (.call c k))) (hstep : LockStoreStep s c x s')
    (hunbroken : (∃ data, c.answered x = (LockOp.uploadLock data).answered (.ok ())) ∨
      c.answered x = LockOp.deleteLock.answered (.ok ()) → n = some s.file)
    (hagree : ∀ data, c.answered x = (LockOp.uploadLock data).answered (.ok ()) →
      ∀ stored, s.file = some stored → expiredAt stored (s.clock lock.deviceId) = true →
        expiredAt stored (s.clock stored.deviceId) = true)
    (hlegible : ∀ t, c.answered x = (LockOp.now lock.deviceId).answered t →
      parseRfc3339 (toRfc3339 (t.plus lock.lockTtl)) = .ok (t.plus lock.lockTtl)) :
    lock.OpEffect s s' { h with written := writtenAfter h.written (c.answered x) }
      (noteLockRead n (c.answered x)) (c.answered x) (k x) := by
  rcases hparty with ⟨V, htracks, hheeds⟩
  cases hstep with
  | download clock hclock =>
      refine opEffect_of_file_eq htold htracks hheeds rfl hclock (fun _ => rfl) trivial ?_
      intro heq
      injection heq with hcall
      cases hcall
  | downloadFault e clock hclock =>
      refine opEffect_of_file_eq htold htracks hheeds rfl hclock (fun _ => rfl) trivial ?_
      intro heq
      injection heq with hcall
      cases hcall
  | upload data clock hclock =>
      exact opEffect_of_upload htracks hheeds (hunbroken (Or.inl ⟨data, rfl⟩)) hclock
        (hagree data rfl)
  | uploadFault data e clock hclock =>
      refine opEffect_of_file_eq htold htracks hheeds rfl hclock (fun _ => rfl) trivial ?_
      intro heq
      injection heq with hcall
      cases hcall
  | delete clock hclock =>
      exact opEffect_of_delete htracks hheeds (hunbroken (Or.inr rfl)) hclock
  | deleteFault e clock hclock =>
      refine opEffect_of_file_eq htold htracks hheeds rfl hclock (fun _ => rfl) trivial ?_
      intro heq
      injection heq with _ hanswer
      cases hanswer
  | now deviceId t clock hclock hread =>
      refine opEffect_of_file_eq htold htracks hheeds rfl hclock (fun _ => rfl) ?_ ?_
      -- a program may only read the clock of its own device
      · intro hid
        rw [hid] at hread
        exact ⟨hread, hlegible t (by rw [hid])⟩
      · intro heq
        injection heq with hcall
        cases hcall
  | sleep milliseconds clock hclock =>
      refine opEffect_of_file_eq htold htracks hheeds rfl hclock (fun _ => rfl) trivial ?_
      intro heq
      injection heq with hcall
      cases hcall

end SyncLock

/-! ## Runs -/

section

variable [DecidableEq D] {lock : D → SyncLock}

structure LockInv (lock : D → SyncLock) (done : List (LockStep D)) (σ : LockPool D) : Prop where
  told : ∀ d, (lock d).ToldOk σ.shared (holding done d)
  parties : ∀ d, (lock d).PartyOk σ.shared (holding done d) (σ.party d)

theorem holding_append (done : List (LockStep D)) (e : LockStep D) (d : D) :
    holding (done ++ [e]) d = (holding done d).next d e.label := by
  simp [holding]

theorem lockInv_initial (s : LockStore) : LockInv lock [] (LockPool.initial s lock) where
  told d := SyncLock.toldOk_of_none (lock d) s rfl
  parties _ := rfl

/-- A label of another device changes nothing for a device. -/
theorem Holding.next_of_ne {d d' : D} (h : Holding) {label : lockDevices.Label D}
    (hlabel : (∃ i, label = .begin d' i) ∨ (∃ ev, label = .op d' ev) ∨
      ∃ o, label = .finish d' o) (hne : d' ≠ d) : h.next d label = h := by
  rcases hlabel with ⟨i, hl⟩ | ⟨ev, hl⟩ | ⟨o, hl⟩
  · rw [hl]
    cases i with
    | release => exact if_neg hne
    | tryAcquire => rfl
    | acquire rounds => rfl
  · rw [hl]
    exact if_neg hne
  · rw [hl]
    cases o with
    | acquired r =>
        cases r with
        | ok u => exact if_neg hne
        | error e => rfl
    | waiting => rfl
    | released r => rfl

/-- One party has moved and is as it should be; the others keep what they had. -/
theorem lockInv_update {done : List (LockStep D)} {σ : LockPool D} {e : LockStep D} {d : D}
    {s : LockStore} {q : lockDevices.Party} {spoiler : Option D} (hinv : LockInv lock done σ)
    (hlabel : (∃ i, e.label = .begin d i) ∨ (∃ ev, e.label = .op d ev) ∨
      ∃ o, e.label = .finish d o)
    (hkeeps : ∀ d', d ≠ d' → (lock d').Keeps σ.shared s)
    (htold : (lock d).ToldOk s ((holding done d).next d e.label))
    (hparty : (lock d).PartyOk s ((holding done d).next d e.label) q) :
    LockInv lock (done ++ [e])
      { shared := s, party := Function.update σ.party d q, spoiler := spoiler } where
  told d' := by
    rw [holding_append]
    by_cases hd : d = d'
    · rw [← hd]
      exact htold
    · rw [Holding.next_of_ne _ hlabel hd]
      exact (hinv.told d').mono (hkeeps d' hd)
  parties d' := by
    rw [holding_append]
    by_cases hd : d = d'
    · rw [← hd]
      change (lock d).PartyOk s _ (Function.update σ.party d q d)
      rw [Function.update_self]
      exact hparty
    · have hne : d' ≠ d := fun h => hd h.symm
      change (lock d').PartyOk s _ (Function.update σ.party d q d')
      rw [Holding.next_of_ne _ hlabel hd, Function.update_of_ne hne]
      exact (hinv.parties d').mono (hkeeps d' hd)

/-- Step lemma. -/
theorem LockInv.step {done : List (LockStep D)} {e : LockStep D}
    (hids : Function.Injective fun d => (lock d).deviceId) (hinv : LockInv lock done e.source)
    (hunbroken : e.Unbroken) (hagree : e.Synchronous lock) (hlegible : e.Legible lock)
    (hstep : lockStep e.source e.label e.target) :
    LockInv lock (done ++ [e]) e.target ∧
      ∀ d, e.label = .op d (LockOp.deleteLock.answered (.ok ())) →
        ∀ data, e.source.shared.file = some data → data.deviceId = (lock d).deviceId := by
  rcases e with ⟨σ, label, σ'⟩
  replace hstep : Machine.Pool.step lockEnv (fun _ => True) σ label σ' := hstep
  have hsame : ∀ d', (lock d').Keeps σ.shared σ.shared := fun d' =>
    SyncLock.keeps_of_file_eq _ rfl fun _ => Int.le_refl _
  cases hstep with
  | begin d i t h henabled =>
      have hlock : t = lock d := by
        have hparty := hinv.parties d
        simp only [h] at hparty
        exact hparty
      have htold := hinv.told d
      -- the call of `release` takes back what the device was told
      have hstart : (lock d).ToldOk σ.shared ((holding done d).next d (.begin d i)) ∧
          (i = .release → ((holding done d).next d (.begin d i)).told = none) := by
        cases i with
        | release =>
            have hnone : ((holding done d).next d (.begin d .release)).told = none := by
              simp only [Holding.next, if_true]
            exact ⟨SyncLock.toldOk_of_none (lock d) σ.shared hnone, fun _ => hnone⟩
        | tryAcquire => exact ⟨htold, fun h => by cases h⟩
        | acquire rounds => exact ⟨htold, fun h => by cases h⟩
      refine ⟨lockInv_update hinv (Or.inl ⟨i, rfl⟩) (fun d' _ => hsame d') hstart.1 ?_,
        fun d' hlabel => by cases hlabel⟩
      rw [hlock]
      refine ⟨{ note := none, time := σ.shared.clock (lock d).deviceId,
                told := ((holding done d).next d (.begin d i)).told, mine := none },
        ⟨rfl, Int.le_refl _, rfl, fun e he => by cases he⟩, ?_⟩
      exact SyncLock.heeds_turn i ⟨rfl, hstart.1.stamped⟩ hstart.2
  | op d n c x k s' spoiler h hop hgood hspoilt =>
      have hparty := hinv.parties d
      simp only [h] at hparty
      -- what the operation does to the file, given what the run promises of this step
      have heffect := SyncLock.PartyOk.op (hinv.told d) hparty hop ?_ ?_ ?_
      · have hnext : (holding done d).next d (.op d ⟨c, x⟩) =
            { holding done d with
              written := writtenAfter (holding done d).written (c.answered x) } := if_pos rfl
        have hothers : ∀ d', d ≠ d' → (lock d').Keeps σ.shared s' := by
          intro d' hne
          exact heffect.others (lock d') fun heq => hne (hids heq)
        refine ⟨lockInv_update hinv (Or.inr (Or.inl ⟨_, rfl⟩)) hothers ?_ ?_, ?_⟩
        · rw [hnext]
          exact heffect.told
        · rw [hnext]
          exact heffect.party
        · intro d' hlabel
          cases hlabel
          exact heffect.own rfl
      · intro hchanges
        have hread := hunbroken d ?_
        · rcases hread with ⟨p, hbusy⟩
          replace hbusy : σ.party d = .busy (some σ.shared.file) p := hbusy
          rw [h] at hbusy
          injection hbusy
        · rcases hchanges with ⟨data, heq⟩ | heq
          · exact Or.inl ⟨data, congrArg (Machine.Label.op d) heq⟩
          · exact Or.inr (congrArg (Machine.Label.op d) heq)
      · intro data heq
        exact hagree d data (congrArg (Machine.Label.op d) heq)
      · intro t heq
        exact hlegible d t (congrArg (Machine.Label.op d) heq)
  | finish d n t o h =>
      have hparty := hinv.parties d
      simp only [h] at hparty
      rcases hparty with ⟨V, htracks, hlock, hends⟩
      have htold := hinv.told d
      refine ⟨lockInv_update hinv (Or.inr (Or.inr ⟨o, rfl⟩)) (fun d' _ => hsame d') ?_ hlock,
        fun d' hlabel => by cases hlabel⟩
      cases o with
      | waiting => exact htold
      | released r => exact htold
      | acquired r =>
          cases r with
          | error e => exact htold
          | ok u =>
              -- the device is told about the data it has written in this turn
              simp only [Holding.next, if_true]
              have hmine : ∃ e, V.mine = some e := Option.ne_none_iff_exists'.mp (hends rfl)
              rcases hmine with ⟨e, he⟩
              have hwritten := htracks.mine e he
              refine ⟨fun e' he' => ?_, fun e' he' => ?_⟩
              · have heq : e = e' := Option.some.inj (hwritten.1.symm.trans he')
                rw [← heq]
                exact hwritten.2.1
              · have heq : e = e' := Option.some.inj (hwritten.1.symm.trans he')
                rw [← heq]
                exact hwritten.2.2

/-- Run lemma: the invariant holds after an unbroken run of agreeing clocks, and only own data
were deleted. -/
theorem lockInv_of_run {s : LockStore} {σ : LockPool D} {es : List (LockStep D)}
    (hids : Function.Injective fun d => (lock d).deviceId)
    (hrun : Run lockStep (LockPool.initial s lock) es σ)
    (hunbroken : ∀ e ∈ es, LockStep.Unbroken e)
    (hagree : ∀ e ∈ es, LockStep.Synchronous lock e)
    (hlegible : ∀ e ∈ es, LockStep.Legible lock e) :
    LockInv lock es σ ∧ ReleasesOwn lock es := by
  have hhistory := hrun.history
    (P := fun done σ =>
      (∀ e ∈ done, LockStep.Unbroken e ∧ LockStep.Synchronous lock e ∧ LockStep.Legible lock e) →
        LockInv lock done σ ∧ ReleasesOwn lock done)
    (fun _ => ⟨lockInv_initial s, fun e he => by cases he⟩) ?_
  · exact hhistory fun e he => ⟨hunbroken e he, hagree e he, hlegible e he⟩
  · intro done e hstep hinv hall
    have hdone := hinv fun e' he' => hall e' (List.mem_append_left _ he')
    have hcare := hall e (List.mem_append_right _ (List.mem_singleton_self e))
    have hnext := hdone.1.step hids hcare.1 hcare.2.1 hcare.2.2 hstep
    refine ⟨hnext.1, fun e' he' => ?_⟩
    rcases List.mem_append.mp he' with hmem | hmem
    · exact hdone.2 e' hmem
    · rw [List.mem_singleton.mp hmem]
      exact hnext.2

/-- In every interleaving in which the lock file, whenever a device replaces or deletes it, is
still what the device has read, and the clocks agree on the expiry of what is replaced, the
holds of two devices never overlap and no device deletes the data of another. -/
theorem lock_excludes_of_unbroken {s : LockStore} {σ : LockPool D} {es : List (LockStep D)}
    (hids : Function.Injective fun d => (lock d).deviceId)
    (hrun : Run lockStep (LockPool.initial s lock) es σ)
    (hunbroken : ∀ e ∈ es, LockStep.Unbroken e)
    (hagree : ∀ e ∈ es, LockStep.Synchronous lock e)
    (hlegible : ∀ e ∈ es, LockStep.Legible lock e) :
    Excludes lock es σ ∧ ReleasesOwn lock es := by
  rcases lockInv_of_run hids hrun hunbroken hagree hlegible with ⟨hinv, hown⟩
  refine ⟨fun d d' a b hne ha hb => ?_, hown⟩
  by_contra hfresh
  rw [not_or, Bool.not_eq_true, Bool.not_eq_true] at hfresh
  -- the one file would have to name both devices
  rcases (hinv.told d).safe a ha hfresh.1 with ⟨data, hdata, hid, -⟩
  rcases (hinv.told d').safe b hb hfresh.2 with ⟨data', hdata', hid', -⟩
  rw [hdata] at hdata'
  cases hdata'
  exact hne (hids (hid.symm.trans hid'))

omit [DecidableEq D] in
/-- Clocks of which none is behind that of a device that writes agree. -/
theorem LockStep.synchronous_of_not_ahead {e : LockStep D}
    (h : ∀ d d', e.source.shared.clock (lock d).deviceId ≤ e.source.shared.clock d') :
    e.Synchronous lock := by
  intro d data _ stored _ hexpired
  exact SyncLock.expiredAt_mono (h d stored.deviceId) hexpired

end

/-! ### Two devices without a lock file -/

/-- The fault-free answers when a read takes a number of seconds and nothing else takes time. -/
def LockStore.serve (seconds : Nat) : Handler LockI LockStore
  | s, .downloadLock =>
      (.ok s.file, { s with clock := fun id => s.clock id + Duration.seconds seconds })
  | s, .uploadLock data => (.ok (), { s with file := some data })
  | s, .deleteLock => (.ok (), { s with file := none })
  | s, .now deviceId => (DateTime.ofNanos (s.clock deviceId), s)
  | s, .sleep _ => ((), s)

omit [Codec] in
theorem LockStore.serve_step (seconds : Nat) (s : LockStore) (op : LockOp) :
    LockStoreStep s op (serve seconds s op).1 (serve seconds s op).2 := by
  have hle : s.clock ≤ s.clock := fun _ => Int.le_refl _
  cases op with
  | downloadLock =>
      refine .download s _ fun id => ?_
      change s.clock id ≤ s.clock id + (seconds : Int) * 1000000000
      omega
  | uploadLock data => exact .upload s data s.clock hle
  | deleteLock => exact .delete s s.clock hle
  | now deviceId =>
      exact .now s deviceId (DateTime.ofNanos (s.clock deviceId)) s.clock hle (by simp)
  | sleep milliseconds => exact .sleep s milliseconds s.clock hle

instance : (t : lockDevices.State) → (i : lockDevices.Input) →
    Decidable (lockDevices.enabled t i) :=
  fun _ _ => isTrue trivial

/-- The checks of one step, computed. -/
def LockStep.checked (lock : D → SyncLock) (e : LockStep D) : Bool :=
  match e.label with
  | .op d ⟨.uploadLock _, .ok _⟩ =>
      isRead (e.source.party d) e.source.shared.file && agrees (lock d) e.source.shared
  | .op d ⟨.deleteLock, .ok _⟩ => isRead (e.source.party d) e.source.shared.file
  | .op d ⟨.now _, t⟩ => isLegible (lock d) t
  | _ => true
where
  isRead : lockDevices.Party → Option LockFileData → Bool
    | .busy (some note) _, file => decide (note = file)
    | _, _ => false
  agrees (lock : SyncLock) (s : LockStore) : Bool :=
    match s.file with
    | none => true
    | some stored =>
        !SyncLock.expiredAt stored (s.clock lock.deviceId) ||
          SyncLock.expiredAt stored (s.clock stored.deviceId)
  isLegible (lock : SyncLock) (t : DateTime) : Bool :=
    match parseRfc3339 (toRfc3339 (t.plus lock.lockTtl)) with
    | .ok t' => decide (t' = t.plus lock.lockTtl)
    | .error _ => false

theorem LockStep.eq_of_isRead {party : lockDevices.Party} {file : Option LockFileData}
    (h : checked.isRead party file = true) : ∃ p, party = .busy (some file) p := by
  cases party with
  | idle t => cases h
  | busy note p =>
      cases note with
      | none => cases h
      | some read =>
          have hread : read = file := of_decide_eq_true h
          rw [hread]
          exact ⟨p, rfl⟩

theorem LockStep.Unbroken.of_checked {lock : D → SyncLock} {e : LockStep D}
    (h : e.checked lock = true) : e.Unbroken := by
  intro d hlabel
  rcases hlabel with ⟨data, hlabel⟩ | hlabel
  · simp only [LockStep.checked, hlabel, LockOp.answered, Bool.and_eq_true] at h
    exact eq_of_isRead h.1
  · simp only [LockStep.checked, hlabel, LockOp.answered] at h
    exact eq_of_isRead h

theorem LockStep.Synchronous.of_checked {lock : D → SyncLock} {e : LockStep D}
    (h : e.checked lock = true) : e.Synchronous lock := by
  intro d data hlabel stored hstored hexpired
  simp only [LockStep.checked, hlabel, LockOp.answered, Bool.and_eq_true, checked.agrees,
    hstored, hexpired, Bool.not_true, Bool.false_or] at h
  exact h.2

theorem LockStep.Legible.of_checked {lock : D → SyncLock} {e : LockStep D}
    (h : e.checked lock = true) : e.Legible lock := by
  intro d t hlabel
  simp only [LockStep.checked, hlabel, LockOp.answered, LockStep.checked.isLegible] at h
  cases hparse : parseRfc3339 (toRfc3339 (t.plus (lock d).lockTtl)) with
  | error e =>
      rw [hparse] at h
      cases h
  | ok t' =>
      rw [hparse] at h
      rw [of_decide_eq_true h]

end

/-- Two devices. -/
def twoLocks (d : Bool) : SyncLock :=
  SyncLock.new (if d then "device-2" else "device-1")

theorem twoLocks_injective : Function.Injective fun d => (twoLocks d).deviceId := by
  intro d d' hsame
  revert hsame
  revert d d'
  decide

section

/-- The end of a hold that starts a number of seconds after the sample instant. -/
def holdEnd (seconds : Int) : DateTime :=
  Sample.instant.plus (Duration.seconds (seconds + LOCK_TTL_SECONDS))

abbrev lockCodec : Codec :=
  referenceCodec [holdEnd 0, holdEnd 300, holdEnd 900, holdEnd 1200]

attribute [local instance] lockCodec

/-- No lock file, at the sample instant. -/
def unlockedStore : LockStore where
  file := none
  clock := fun _ => Sample.instant.toNanos

namespace LockPool

def twoDevices : LockPool Bool :=
  LockPool.initial unlockedStore twoLocks

/-- The second device takes the lock and gives it back; the first takes it and keeps it, and
after its hold has expired the second takes it over. -/
def takenOver : List (lockDevices.Move Bool) :=
  [.begin true .tryAcquire, .next true, .next true, .next true, .next true,
    .begin true .release, .next true, .next true, .next true,
    .begin false .tryAcquire, .next false, .next false, .next false, .next false,
    .begin true .tryAcquire, .next true, .next true, .next true, .next true, .next true]

/-- Both devices look before one of them writes. -/
def bothLook : List (lockDevices.Move Bool) :=
  [.begin false .tryAcquire, .begin true .tryAcquire, .next false, .next true,
    .next false, .next true, .next false, .next true, .next false, .next true]

def steps (seconds : Nat) (moves : List (lockDevices.Move Bool)) : List (LockStep Bool) :=
  twoDevices.play (LockStore.serve seconds) (fun _ => True) moves

def after (seconds : Nat) (moves : List (lockDevices.Move Bool)) : LockPool Bool :=
  twoDevices.playEnd (LockStore.serve seconds) (fun _ => True) moves

theorem steps_run (seconds : Nat) (moves : List (lockDevices.Move Bool)) :
    Run lockStep twoDevices (steps seconds moves) (after seconds moves) :=
  Machine.Pool.run_play (LockStore.serve_step seconds) moves _

/-- The rule at a lock that is given back, kept and taken over, with reads that take as long as
a hold. -/
theorem lock_excludes_of_unbroken_takenOver :
    Excludes twoLocks (steps 300 takenOver) (after 300 takenOver) ∧
      ReleasesOwn twoLocks (steps 300 takenOver) := by
  have hchecked : ∀ e ∈ steps 300 takenOver, LockStep.checked twoLocks e = true := by
    decide +kernel
  exact lock_excludes_of_unbroken twoLocks_injective (steps_run 300 takenOver)
    (fun e he => .of_checked (hchecked e he)) (fun e he => .of_checked (hchecked e he))
    fun e he => .of_checked (hchecked e he)

/-- Two devices that look at the same time both get the lock. -/
theorem lock_taken_twice :
    ¬ ∀ (lock : Bool → SyncLock) (s : LockStore) (es : List (LockStep Bool)) (σ : LockPool Bool),
      (Function.Injective fun d => (lock d).deviceId) →
      Run lockStep (LockPool.initial s lock) es σ →
        Excludes lock es σ ∧ ReleasesOwn lock es := by
  intro hall
  have hexcludes := (hall twoLocks unlockedStore _ _ twoLocks_injective (steps_run 0 bothLook)).1
    false true ((twoLocks false).lockDataAt Sample.instant)
    ((twoLocks true).lockDataAt Sample.instant) (by decide) (by decide +kernel)
    (by decide +kernel)
  revert hexcludes
  decide +kernel

end LockPool

end

end OakKeyring
