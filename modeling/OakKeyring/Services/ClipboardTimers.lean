import OakKeyring.Services.Clipboard
import OakKeyring.Samples.Store

/-!
# Copied texts and their timers

While a copied text is on the clipboard, a timer for exactly this text is armed. It is lost when
the backend fails after the old timer is gone: in a copy, in a clear, or when the timer expires.
-/

namespace OakKeyring

open Effect Effect.Stateful Transition

variable {s : ClipboardState} {x read write : Served}

/-! ## What the methods do -/

namespace ClipboardService

theorem exec_setText_fault {text : String} {e : ClipboardError} (h : x.fault = some e) :
    exec (setText text x) s = (.error e, s.interfere x) := by
  have hexec : exec (setText text x) s = s.setText text x := rfl
  rw [hexec]
  unfold ClipboardState.setText
  rw [h]

theorem exec_setText_ok {text : String} (h : x.fault = none) :
    exec (setText text x) s = (.ok (), (s.interfere x).overwrite text) := by
  have hexec : exec (setText text x) s = s.setText text x := rfl
  rw [hexec]
  unfold ClipboardState.setText
  rw [h]

theorem exec_getText_fault {e : ClipboardError} (h : x.fault = some e) :
    exec (getText x) s = (.error e, s.interfere x) := by
  have hexec : exec (getText x) s = s.getText x := rfl
  rw [hexec]
  unfold ClipboardState.getText
  rw [h]

theorem exec_getText_ok (h : x.fault = none) :
    exec (getText x) s = (.ok (s.interfere x).content, s.interfere x) := by
  have hexec : exec (getText x) s = s.getText x := rfl
  rw [hexec]
  unfold ClipboardState.getText
  rw [h]

theorem exec_clear_fault {e : ClipboardError} (h : write.fault = some e) :
    exec (clear write) s = (.error e, s.cancelTimer.interfere write) := by
  unfold clear
  rw [exec_modify_bind]
  exact exec_setText_fault h

theorem exec_clear_ok (h : write.fault = none) :
    exec (clear write) s = (.ok (), (s.cancelTimer.interfere write).overwrite "") := by
  unfold clear
  rw [exec_modify_bind]
  exact exec_setText_ok h

end ClipboardService

section Hashes

variable [Codec]

namespace ClipboardState

/-- The state in which `copy` calls the backend. -/
def tracking (s : ClipboardState) (text : String) : ClipboardState :=
  { s.cancelTimer with lastHash := some (hashContent text) }

/-- How a comparison with a hash, and a clear when it succeeds, may go. -/
inductive Compared (s : ClipboardState) (hash : String) (read write : Served) :
    Option Bool → ClipboardState → Prop
  | unread {e : ClipboardError} (hread : read.fault = some e) :
      Compared s hash read write none (s.interfere read)
  | different (hread : read.fault = none) (hne : hashContent (s.interfere read).content ≠ hash) :
      Compared s hash read write (some false) (s.interfere read)
  | unwritten {e : ClipboardError} (hread : read.fault = none)
      (heq : hashContent (s.interfere read).content = hash) (hwrite : write.fault = some e) :
      Compared s hash read write none ((s.interfere read).interfere write)
  | cleared (hread : read.fault = none) (heq : hashContent (s.interfere read).content = hash)
      (hwrite : write.fault = none) :
      Compared s hash read write (some true) (((s.interfere read).interfere write).overwrite "")

end ClipboardState

namespace ClipboardService

open ClipboardState

theorem exec_copy_long {text : String} (h : MAX_CONTENT_BYTES < (utf8 text).length) :
    exec (copy text write) s =
      (.error (.ContentTooLong MAX_CONTENT_BYTES (utf8 text).length), s) := by
  unfold copy
  rw [if_pos h]
  rfl

theorem exec_copy_fault {text : String} {e : ClipboardError}
    (h : ¬ MAX_CONTENT_BYTES < (utf8 text).length) (hfault : write.fault = some e) :
    exec (copy text write) s = (.error e, (s.tracking text).interfere write) := by
  unfold copy
  rw [if_neg h, exec_modify_bind, exec_modify_bind]
  exact exec_bind_error (exec_setText_fault (s := s.tracking text) hfault)

theorem exec_copy_ok {text : String} {u : ClipboardState}
    (h : ¬ MAX_CONTENT_BYTES < (utf8 text).length) (hfault : write.fault = none)
    (hu : u = ((s.tracking text).interfere write).overwrite text) :
    exec (copy text write) s =
      (.ok u.clearTimeout, if 0 < u.clearTimeout then u.startClearTimer else u) := by
  unfold copy
  rw [if_neg h, exec_modify_bind, exec_modify_bind]
  have hset : exec (setText text write) (s.tracking text) = (.ok (), u) := by
    rw [hu]
    exact exec_setText_ok hfault
  refine (exec_bind_ok hset).trans ((exec_bind_ok exec_get).trans ?_)
  by_cases htimeout : 0 < u.clearTimeout
  · rw [if_pos htimeout, if_pos htimeout]
    rfl
  · rw [if_neg htimeout, if_neg htimeout]
    rfl

/-- Nothing is compared when nothing is tracked. -/
theorem exec_smartClear_none (h : s.lastHash = none) :
    exec (smartClear read write) s = (.ok false, s) := by
  unfold smartClear
  rw [exec_bind_ok exec_get, h]
  rfl

/-- The hash is tracked on when the backend fails. -/
theorem smartClear_compared (read write : Served) {hash : String}
    (h : s.lastHash = some hash) :
    ∃ answer u, Compared s hash read write answer u ∧
      (exec (smartClear read write) s).2 =
        if answer.isSome then { u with lastHash := none } else u := by
  unfold smartClear
  rw [exec_bind_ok exec_get, h]
  cases hread : read.fault with
  | some e =>
      refine ⟨none, _, .unread hread, ?_⟩
      have hget := exec_getText_fault (s := s) hread
      rw [exec_bind_error hget]
      rfl
  | none =>
      have hget := exec_getText_ok (s := s) hread
      simp only
      rw [exec_bind_ok hget]
      by_cases heq : hashContent (s.interfere read).content = hash
      -- the clipboard still has what was copied, so it is cleared
      · rw [if_pos heq]
        cases hwrite : write.fault with
        | some e =>
            refine ⟨none, _, .unwritten hread heq hwrite, ?_⟩
            rw [exec_bind_error (exec_setText_fault hwrite)]
            rfl
        | none =>
            refine ⟨some true, _, .cleared hread heq hwrite, ?_⟩
            rw [exec_bind_ok (exec_setText_ok hwrite)]
            rfl
      -- something else was copied in the meantime, and stays
      · rw [if_neg heq]
        exact ⟨some false, _, .different hread heq, rfl⟩

theorem clearExpired_compared (s : ClipboardState) (hash : String) (read write : Served) :
    ∃ answer, Compared s hash read write answer
      (exec (clearExpired (some hash) read write) s).2 := by
  unfold clearExpired
  cases hread : read.fault with
  | some e =>
      refine ⟨none, ?_⟩
      rw [exec_bind_error (exec_getText_fault hread)]
      exact .unread hread
  | none =>
      simp only
      rw [exec_bind_ok (exec_getText_ok hread)]
      by_cases heq : hashContent (s.interfere read).content = hash
      · rw [if_pos heq]
        cases hwrite : write.fault with
        | some e =>
            refine ⟨none, ?_⟩
            rw [exec_setText_fault hwrite]
            exact .unwritten hread heq hwrite
        | none =>
            refine ⟨some true, ?_⟩
            rw [exec_setText_ok hwrite]
            exact .cleared hread heq hwrite
      · rw [if_neg heq]
        exact ⟨some false, .different hread heq⟩

end ClipboardService

namespace ClipboardState

/-! ## Guarded clipboards -/

/-- A timer for exactly the text on the clipboard. -/
def Armed (s : ClipboardState) (handle : Nat) : Prop :=
  ∃ task, s.timers.lookup handle = some task ∧
    task.expectedHash = some (hashContent s.content)

/-- A copied text has its timer, unless the caller has asked for none. -/
def Guarded (s : ClipboardState) : Prop :=
  s.copied = true → s.waived = false → ∃ handle, s.Armed handle

omit [Codec] in
/-- The caller relies on the clipboard being cleared. -/
def Exposed (s : ClipboardState) : Prop :=
  s.copied = true ∧ s.waived = false

/-- What the service keeps: no timer sleeps but the active one, and it is the one for the copied
text. -/
structure Inv (s : ClipboardState) : Prop where
  sleeping : ∀ handle ∈ s.timers, s.activeTimer = some handle
  tracked : s.Exposed → s.lastHash = some (hashContent s.content) ∧
    ∃ handle, s.activeTimer = some handle ∧ s.Armed handle

theorem Inv.guarded (h : s.Inv) : s.Guarded := by
  intro hcopied hwaived
  rcases (h.tracked ⟨hcopied, hwaived⟩).2 with ⟨handle, -, harmed⟩
  exact ⟨handle, harmed⟩

theorem inv_fresh (clearTimeout : Nat) (content : String) :
    (fresh clearTimeout content).Inv where
  sleeping := by
    intro handle hmem
    exact absurd hmem (AList.notMem_empty handle)
  tracked := by
    intro hexposed
    cases hexposed.1

/-! ### Other programs -/

theorem Inv.overwrite (h : s.Inv) (text : String) : (s.overwrite text).Inv where
  sleeping := h.sleeping
  tracked := by
    intro hexposed
    cases hexposed.1

omit [Codec] in
theorem interfere_of_exposed (h : (s.interfere x).Exposed) : x.written = none := by
  unfold interfere at h
  cases hwritten : x.written with
  | none => rfl
  | some text =>
      rw [hwritten] at h
      cases h.1

omit [Codec] in
theorem interfere_eq (h : x.written = none) : s.interfere x = s := by
  unfold interfere
  rw [h]

theorem Inv.interfere (h : s.Inv) (x : Served) : (s.interfere x).Inv := by
  unfold ClipboardState.interfere
  cases x.written with
  | none => exact h
  | some text => exact h.overwrite text

/-! ### Timers -/

omit [Codec] in
/-- What cancelling leaves alone. -/
theorem cancelTimer_frame (s : ClipboardState) :
    s.cancelTimer.clearTimeout = s.clearTimeout ∧ s.cancelTimer.lastHash = s.lastHash ∧
      s.cancelTimer.content = s.content ∧ s.cancelTimer.copied = s.copied ∧
      s.cancelTimer.waived = s.waived := by
  unfold cancelTimer
  cases s.activeTimer with
  | none => exact ⟨rfl, rfl, rfl, rfl, rfl⟩
  | some handle => exact ⟨rfl, rfl, rfl, rfl, rfl⟩

theorem Inv.cancelTimer_empty (h : s.Inv) (handle : Nat) : handle ∉ s.cancelTimer.timers := by
  unfold cancelTimer
  cases hactive : s.activeTimer with
  | none =>
      intro hmem
      have hsome := h.sleeping handle hmem
      rw [hactive] at hsome
      cases hsome
  | some active =>
      intro hmem
      rcases AList.mem_erase.mp hmem with ⟨hne, hmem⟩
      have hsome := h.sleeping handle hmem
      rw [hactive] at hsome
      exact hne (Option.some.inj hsome).symm

/-- A new timer is for the tracked text. -/
theorem inv_startClearTimer (hempty : ∀ handle, handle ∉ s.timers)
    (htracked : s.Exposed → s.lastHash = some (hashContent s.content)) :
    s.startClearTimer.Inv where
  sleeping := by
    intro handle hmem
    rcases (AList.mem_insert _).mp hmem with heq | hmem
    · rw [heq]
      rfl
    · exact absurd hmem (hempty handle)
  tracked := by
    intro hexposed
    have hhash := htracked hexposed
    refine ⟨hhash, s.spawned, rfl, _, AList.lookup_insert _, ?_⟩
    exact hhash

/-- Without a timer, nothing may be exposed. -/
theorem inv_of_empty (hempty : ∀ handle, handle ∉ s.timers) (h : ¬ s.Exposed) : s.Inv where
  sleeping := fun handle hmem => absurd hmem (hempty handle)
  tracked := fun hexposed => absurd hexposed h

/-! ## Orderly runs -/

/-- A comparison that takes another program's text for the copied one, or clears what another
program has written since. -/
def Misled (s : ClipboardState) (hash : String) (read write : Served) : Prop :=
  read.fault = none ∧ write.fault = none ∧ hashContent (s.interfere read).content = hash ∧
    ((s.interfere read).copied = false ∨ write.written ≠ none)

/-- The condition on a step: the backend does not fail while a copied text is exposed, no
comparison is misled, and a timer is not restarted for another text than the copied one. -/
def Orderly (s : ClipboardState) : ClipboardOp → Prop
  | .copy text write =>
      ¬ MAX_CONTENT_BYTES < (utf8 text).length → write.fault ≠ none → write.written = none →
        ¬ s.Exposed
  | .clear write => write.fault ≠ none → write.written = none → ¬ s.Exposed
  | .smartClear read write => ∀ hash, s.lastHash = some hash → ¬ s.Misled hash read write
  | .setClearTimeout seconds =>
      0 < seconds → s.copied = true → s.lastHash = some (hashContent s.content)
  | .cancelTimer => True
  | .expire timer read write =>
      (read.fault ≠ none → read.written = none → ¬ s.Exposed) ∧
      (read.fault = none → read.written = none → write.fault ≠ none → write.written = none →
        ¬ s.Exposed) ∧
      ∀ task hash, s.timers.lookup timer = some task → task.expectedHash = some hash →
        ¬ s.Misled hash read write
  | .overwrite _ => True

omit [Codec] in
theorem interfere_frame (s : ClipboardState) (x : Served) :
    (s.interfere x).timers = s.timers ∧ (s.interfere x).activeTimer = s.activeTimer := by
  unfold interfere
  cases x.written with
  | none => exact ⟨rfl, rfl⟩
  | some text => exact ⟨rfl, rfl⟩

theorem perform_copy (text : String) :
    s.perform (.copy text write) =
      match exec (ClipboardService.copy text write) s with
      | (.ok timeout, u) =>
          { u with
            copied := true
            waived := decide (timeout = 0) }
      | (.error _, u) => u := rfl

theorem perform_clear : s.perform (.clear write) = (exec (ClipboardService.clear write) s).2 := rfl

theorem perform_smartClear :
    s.perform (.smartClear read write) =
      (exec (ClipboardService.smartClear read write) s).2 := rfl

theorem perform_setClearTimeout (seconds : Nat) :
    s.perform (.setClearTimeout seconds) =
      { (exec (ClipboardService.setClearTimeout seconds) s).2 with
        waived := decide (seconds = 0) } := rfl

theorem perform_expire (read write : Served) {timer : Nat} {task : ClearTimer}
    (h : s.timers.lookup timer = some task) :
    s.perform (.expire timer read write) =
      (exec (ClipboardService.clearExpired task.expectedHash read write)
        { s with timers := s.timers.erase timer }).2 := by
  unfold perform
  simp only
  rw [h]

theorem perform_expire_none {timer : Nat} (h : s.timers.lookup timer = none) :
    s.perform (.expire timer read write) = s := by
  unfold perform
  simp only
  rw [h]

/-- The tracked hash can be dropped while nothing is exposed. -/
theorem Inv.forget (h : s.Inv) (hexposed : ¬ s.Exposed) :
    ({ s with lastHash := none } : ClipboardState).Inv where
  sleeping := h.sleeping
  tracked := fun hnow => absurd hnow hexposed

theorem inv_copy (h : s.Inv) {text : String} (horderly : s.Orderly (.copy text write)) :
    (s.perform (.copy text write)).Inv := by
  rw [perform_copy]
  by_cases hlong : MAX_CONTENT_BYTES < (utf8 text).length
  · rw [ClipboardService.exec_copy_long hlong]
    exact h
  · have hempty : ∀ handle, handle ∉ ((s.tracking text).interfere write).timers := by
      intro handle
      rw [(interfere_frame _ _).1]
      exact h.cancelTimer_empty handle
    cases hfault : write.fault with
    | some e =>
        rw [ClipboardService.exec_copy_fault hlong hfault]
        refine inv_of_empty hempty ?_
        intro hexposed
        have hwritten := interfere_of_exposed hexposed
        have hbefore : (s.tracking text).Exposed := by
          rwa [interfere_eq hwritten] at hexposed
        have hframe := cancelTimer_frame s
        have hsource : s.Exposed := by
          refine ⟨?_, ?_⟩
          · rw [← hframe.2.2.2.1]
            exact hbefore.1
          · rw [← hframe.2.2.2.2]
            exact hbefore.2
        refine horderly hlong ?_ hwritten hsource
        rw [hfault]
        exact Option.some_ne_none e
    | none =>
        -- the new timer is for the text that has just been written
        rw [ClipboardService.exec_copy_ok hlong hfault rfl]
        simp only
        by_cases htimeout : 0 < (((s.tracking text).interfere write).overwrite text).clearTimeout
        · rw [if_pos htimeout]
          refine inv_startClearTimer (s := { ((s.tracking text).interfere write).overwrite text with
            copied := true
            waived := decide
              ((((s.tracking text).interfere write).overwrite text).clearTimeout = 0) }) hempty ?_
          intro _
          have hhash : ((s.tracking text).interfere write).lastHash = some (hashContent text) := by
            unfold interfere
            cases write.written with
            | none => rfl
            | some other => rfl
          exact hhash
        · rw [if_neg htimeout]
          refine inv_of_empty hempty ?_
          intro hexposed
          have hwaived := hexposed.2
          simp only [decide_eq_false_iff_not] at hwaived
          omega

theorem inv_clear (h : s.Inv) (horderly : s.Orderly (.clear write)) :
    (s.perform (.clear write)).Inv := by
  have hempty : ∀ handle, handle ∉ (s.cancelTimer.interfere write).timers := by
    intro handle
    rw [(interfere_frame _ _).1]
    exact h.cancelTimer_empty handle
  rw [perform_clear]
  cases hfault : write.fault with
  | some e =>
      rw [ClipboardService.exec_clear_fault hfault]
      refine inv_of_empty hempty ?_
      intro hexposed
      have hwritten := interfere_of_exposed hexposed
      have hframe := cancelTimer_frame s
      rw [interfere_eq hwritten] at hexposed
      have hsource : s.Exposed := by
        refine ⟨?_, ?_⟩
        · rw [← hframe.2.2.2.1]
          exact hexposed.1
        · rw [← hframe.2.2.2.2]
          exact hexposed.2
      refine horderly ?_ hwritten hsource
      rw [hfault]
      exact Option.some_ne_none e
  | none =>
      rw [ClipboardService.exec_clear_ok hfault]
      refine inv_of_empty hempty ?_
      intro hexposed
      cases hexposed.1

theorem inv_smartClear (h : s.Inv) : (s.perform (.smartClear read write)).Inv := by
  rw [perform_smartClear]
  cases hhash : s.lastHash with
  | none =>
      rw [ClipboardService.exec_smartClear_none hhash]
      exact h
  | some hash =>
      rcases ClipboardService.smartClear_compared read write hhash with
        ⟨answer, u, hcompared, hstate⟩
      rw [hstate]
      cases hcompared with
      | unread hread => exact h.interfere read
      | different hread hne =>
          refine (h.interfere read).forget ?_
          intro hexposed
          have hsame := interfere_eq (s := s) (interfere_of_exposed hexposed)
          rw [hsame] at hexposed hne
          have htracked := (h.tracked hexposed).1
          rw [hhash] at htracked
          exact hne (Option.some.inj htracked).symm
      | unwritten hread heq hwrite => exact (h.interfere read).interfere write
      | cleared hread heq hwrite =>
          refine (((h.interfere read).interfere write).overwrite "").forget ?_
          intro hexposed
          cases hexposed.1

theorem inv_setClearTimeout (h : s.Inv) {seconds : Nat}
    (horderly : s.Orderly (.setClearTimeout seconds)) :
    (s.perform (.setClearTimeout seconds)).Inv := by
  -- the old timer is stopped, and a new one is started where something is copied
  have hset : ∀ u : ClipboardState, u = { s with clearTimeout := seconds } →
      (exec (ClipboardService.setClearTimeout seconds) s).2 =
        if u.lastHash.isSome then
          if 0 < seconds then u.cancelTimer.startClearTimer else u.cancelTimer
        else u := by
    intro u hu
    unfold ClipboardService.setClearTimeout
    rw [exec_modify_bind, ← hu, exec_bind_ok exec_get]
    by_cases htracked : u.lastHash.isSome = true
    · rw [if_pos htracked, if_pos htracked, exec_modify_bind]
      by_cases hpositive : 0 < seconds
      · rw [if_pos hpositive, if_pos hpositive]
        rfl
      · rw [if_neg hpositive, if_neg hpositive]
        rfl
    · rw [if_neg htracked, if_neg htracked]
      rfl
  let u : ClipboardState := { s with clearTimeout := seconds }
  have hu : u.Inv := ⟨h.sleeping, h.tracked⟩
  rw [perform_setClearTimeout, hset u rfl]
  by_cases htracked : u.lastHash.isSome = true
  · rw [if_pos htracked]
    by_cases hpositive : 0 < seconds
    · rw [if_pos hpositive]
      refine inv_startClearTimer (s := { u.cancelTimer with waived := decide (seconds = 0) })
        hu.cancelTimer_empty ?_
      intro hexposed
      have hframe := cancelTimer_frame u
      -- the new timer is armed for the text that is exposed
      have hcopied : s.copied = true := hframe.2.2.2.1.symm.trans hexposed.1
      have hhash : u.cancelTimer.lastHash = some (hashContent u.cancelTimer.content) := by
        rw [hframe.2.1, hframe.2.2.1]
        exact horderly hpositive hcopied
      exact hhash
    · rw [if_neg hpositive]
      refine inv_of_empty hu.cancelTimer_empty ?_
      intro hexposed
      -- the timeout is zero, so the exposure is waived
      have hwaived := hexposed.2
      simp only [decide_eq_false_iff_not] at hwaived
      omega
  · rw [if_neg htracked]
    refine ⟨h.sleeping, ?_⟩
    intro hexposed
    have hwaived := hexposed.2
    simp only [decide_eq_false_iff_not] at hwaived
    have hhash : u.lastHash = some (hashContent s.content) :=
      horderly (Nat.pos_of_ne_zero hwaived) hexposed.1
    rw [hhash] at htracked
    exact absurd rfl htracked

theorem inv_cancelTimer (h : s.Inv) : (s.perform .cancelTimer).Inv := by
  refine inv_of_empty h.cancelTimer_empty ?_
  intro hexposed
  cases hexposed.2

/-- A timer that expires was the only one. -/
theorem Inv.erase_empty (h : s.Inv) {timer : Nat} (hmem : timer ∈ s.timers) (handle : Nat) :
    handle ∉ s.timers.erase timer := by
  intro hother
  rcases AList.mem_erase.mp hother with ⟨hne, hother⟩
  have hfirst := h.sleeping timer hmem
  have hsecond := h.sleeping handle hother
  exact hne (Option.some.inj (hsecond.symm.trans hfirst))

theorem inv_expire (h : s.Inv) {timer : Nat} (horderly : s.Orderly (.expire timer read write)) :
    (s.perform (.expire timer read write)).Inv := by
  cases htask : s.timers.lookup timer with
  | none =>
      rw [perform_expire_none htask]
      exact h
  | some task =>
      have hmem : timer ∈ s.timers := by
        rw [← AList.lookup_isSome, htask]
        rfl
      let u : ClipboardState := { s with timers := s.timers.erase timer }
      -- the timer that expires is taken out first
      have hempty : ∀ handle, handle ∉ u.timers := h.erase_empty hmem
      -- a timer that is waiting for exposed text was armed for it
      have hhash : s.Exposed → task.expectedHash = some (hashContent s.content) := by
        intro hexposed
        rcases (h.tracked hexposed).2 with ⟨handle, hactive, armed, harmed, hexpected⟩
        have hsame : handle = timer :=
          Option.some.inj (hactive.symm.trans (h.sleeping timer hmem))
        rw [hsame, htask] at harmed
        rw [Option.some.inj harmed]
        exact hexpected
      rw [perform_expire read write htask]
      cases hexpected : task.expectedHash with
      | none =>
          refine inv_of_empty hempty ?_
          intro hexposed
          rw [hhash hexposed] at hexpected
          cases hexpected
      | some hash =>
          rcases ClipboardService.clearExpired_compared u hash read write with ⟨answer, hcompared⟩
          generalize (exec (ClipboardService.clearExpired (some hash) read write) u).2 = v
            at hcompared
          have hread : ∀ handle, handle ∉ (u.interfere read).timers := by
            intro handle
            rw [(interfere_frame _ _).1]
            exact hempty handle
          have hwrite : ∀ handle, handle ∉ ((u.interfere read).interfere write).timers := by
            intro handle
            rw [(interfere_frame _ _).1]
            exact hread handle
          -- what the comparison of the clipboard with the hash can come to
          cases hcompared with
          | unread hfault =>
              refine inv_of_empty hread ?_
              intro hexposed
              have hwritten := interfere_of_exposed hexposed
              rw [interfere_eq hwritten] at hexposed
              refine horderly.1 ?_ hwritten hexposed
              rw [hfault]
              exact Option.some_ne_none _
          | different hfault hne =>
              refine inv_of_empty hread ?_
              intro hexposed
              have hsame := interfere_eq (s := u) (interfere_of_exposed hexposed)
              rw [hsame] at hexposed hne
              have htracked := hhash hexposed
              rw [hexpected] at htracked
              exact hne (Option.some.inj htracked).symm
          | unwritten hfault heq hlast =>
              refine inv_of_empty hwrite ?_
              intro hexposed
              have hwritten := interfere_of_exposed hexposed
              rw [interfere_eq hwritten] at hexposed
              have hfirst := interfere_of_exposed hexposed
              rw [interfere_eq hfirst] at hexposed
              refine horderly.2.1 hfault hfirst ?_ hwritten hexposed
              rw [hlast]
              exact Option.some_ne_none _
          | cleared hfault heq hlast =>
              refine inv_of_empty hwrite ?_
              intro hexposed
              cases hexposed.1

/-- An orderly step keeps the timer for what is copied. -/
theorem inv_perform (h : s.Inv) {op : ClipboardOp} (horderly : s.Orderly op) :
    (s.perform op).Inv := by
  cases op with
  | copy text write => exact inv_copy h horderly
  | clear write => exact inv_clear h horderly
  | smartClear read write => exact inv_smartClear h
  | setClearTimeout seconds => exact inv_setClearTimeout h horderly
  | cancelTimer => exact inv_cancelTimer h
  | expire timer read write => exact inv_expire h horderly
  | overwrite text => exact h.overwrite text

/-! ## Other programs' texts -/

/-- A comparison has changed the clipboard only if it then held a copied text. -/
def ClearsCopied (s : ClipboardState) (read write : Served) (s' : ClipboardState) : Prop :=
  s'.content ≠ s.content → read.written ≠ some s'.content → write.written ≠ some s'.content →
    s.copied = true ∧ read.written = none ∧ write.written = none

/-- No timer and no smart clear clears what a copy did not put on the clipboard. -/
def SparesOthers (s : ClipboardState) : ClipboardOp → ClipboardState → Prop
  | .smartClear read write, s' => s.ClearsCopied read write s'
  | .expire _ read write, s' => s.ClearsCopied read write s'
  | _, _ => True

omit [Codec] in
theorem clearsCopied_of_content {s' : ClipboardState} (h : s'.content = s.content) :
    s.ClearsCopied read write s' :=
  fun hchanged => absurd h hchanged

omit [Codec] in
/-- The clipboard is as it was or as another program has left it. -/
theorem content_interfere (s : ClipboardState) (x : Served) :
    (s.interfere x).content = s.content ∨ x.written = some (s.interfere x).content := by
  unfold interfere
  cases x.written with
  | none => exact Or.inl rfl
  | some text => exact Or.inr rfl

omit [Codec] in
theorem copied_interfere (h : (s.interfere x).copied = true) :
    x.written = none ∧ s.copied = true := by
  unfold interfere at h
  cases hwritten : x.written with
  | none =>
      rw [hwritten] at h
      exact ⟨rfl, h⟩
  | some text =>
      rw [hwritten] at h
      cases h

/-- A comparison that is not misled clears copied texts only. -/
theorem Compared.clearsCopied {hash : String} {answer : Option Bool} {u s' : ClipboardState}
    (h : Compared s hash read write answer u) (hmisled : ¬ s.Misled hash read write)
    (hcontent : s'.content = u.content) : s.ClearsCopied read write s' := by
  intro hchanged hread hwrite
  rw [hcontent] at hchanged hread hwrite
  cases h with
  | unread hfault =>
      rcases content_interfere s read with hsame | hwritten
      · exact absurd hsame hchanged
      · exact absurd hwritten hread
  | different hfault hne =>
      rcases content_interfere s read with hsame | hwritten
      · exact absurd hsame hchanged
      · exact absurd hwritten hread
  | unwritten hfault heq hlast =>
      rcases content_interfere (s.interfere read) write with hsame | hwritten
      · rw [hsame] at hchanged hread
        rcases content_interfere s read with hsame' | hwritten'
        · exact absurd hsame' hchanged
        · exact absurd hwritten' hread
      · exact absurd hwritten hwrite
  | cleared hfault heq hlast =>
      -- what was compared is a copied text, and nothing was written after that
      have hcopied : (s.interfere read).copied = true := by
        cases hvalue : (s.interfere read).copied with
        | true => rfl
        | false => exact absurd ⟨hfault, hlast, heq, Or.inl hvalue⟩ hmisled
      have hquiet : write.written = none := by
        by_contra hwritten
        exact hmisled ⟨hfault, hlast, heq, Or.inr hwritten⟩
      have hsource := copied_interfere hcopied
      exact ⟨hsource.2, hsource.1, hquiet⟩

theorem sparesOthers_perform {op : ClipboardOp} (horderly : s.Orderly op) :
    s.SparesOthers op (s.perform op) := by
  cases op with
  | smartClear read write =>
      cases hhash : s.lastHash with
      | none =>
          refine clearsCopied_of_content ?_
          rw [perform_smartClear, ClipboardService.exec_smartClear_none hhash]
      | some hash =>
          rcases ClipboardService.smartClear_compared read write hhash with
            ⟨answer, u, hcompared, hstate⟩
          refine hcompared.clearsCopied (horderly hash hhash) ?_
          rw [perform_smartClear, hstate]
          cases answer with
          | none => rfl
          | some b => rfl
  | expire timer read write =>
      cases htask : s.timers.lookup timer with
      | none =>
          refine clearsCopied_of_content ?_
          rw [perform_expire_none htask]
      | some task =>
          cases hexpected : task.expectedHash with
          | none =>
              refine clearsCopied_of_content ?_
              rw [perform_expire read write htask, hexpected]
              rfl
          | some hash =>
              let u : ClipboardState := { s with timers := s.timers.erase timer }
              rcases ClipboardService.clearExpired_compared u hash read write with ⟨answer, hcompared⟩
              -- the timers do not matter to what is read and written
              have hread : (u.interfere read).content = (s.interfere read).content ∧
                  (u.interfere read).copied = (s.interfere read).copied := by
                unfold interfere
                cases read.written with
                | none => exact ⟨rfl, rfl⟩
                | some text => exact ⟨rfl, rfl⟩
              have hmisled : ¬ u.Misled hash read write := by
                intro hbad
                unfold Misled at hbad
                rw [hread.1, hread.2] at hbad
                exact horderly.2.2 task hash htask hexpected hbad
              have hclears := hcompared.clearsCopied hmisled rfl
              have hstate := perform_expire read write htask
              rw [hexpected] at hstate
              have hspares : s.ClearsCopied read write
                  (exec (ClipboardService.clearExpired (some hash) read write) u).2 := hclears
              rw [← hstate] at hspares
              exact hspares
  | copy text write => trivial
  | clear write => trivial
  | setClearTimeout seconds => trivial
  | cancelTimer => trivial
  | overwrite text => trivial

/-- An armed timer that expires undisturbed clears the clipboard. -/
theorem Armed.clears {handle : Nat} (h : s.Armed handle) (hread : read = ⟨none, none⟩)
    (hwrite : write = ⟨none, none⟩) : (s.perform (.expire handle read write)).content = "" := by
  rcases h with ⟨task, htask, hexpected⟩
  rw [perform_expire read write htask, hexpected, hread, hwrite]
  unfold ClipboardService.clearExpired
  rw [exec_bind_ok (ClipboardService.exec_getText_ok rfl)]
  rw [interfere_eq rfl, if_pos rfl, ClipboardService.exec_setText_ok rfl]
  rfl

/-- In every orderly run every copied text has its timer, and what other programs write is never
cleared by a timer or a smart clear. -/
theorem guarded_of_orderly {clearTimeout : Nat} {content : String}
    {es : List (Step ClipboardState ClipboardOp)} {s' : ClipboardState}
    (hrun : Run opStep (fresh clearTimeout content) es s')
    (horderly : ∀ e ∈ es, e.source.Orderly e.label) :
    (∀ u ∈ visited (fresh clearTimeout content) es, u.Guarded) ∧
      ∀ e ∈ es, e.source.SparesOthers e.label e.target := by
  constructor
  · intro u hu
    refine (hrun.invariant (inv_fresh clearTimeout content) horderly ?_ u hu).guarded
    rintro e ⟨-, htarget⟩ hC hInv
    rw [htarget]
    exact inv_perform hInv hC
  · intro e he
    rcases hrun.step_of_mem he with ⟨-, htarget⟩
    rw [htarget]
    exact sparesOthers_perform (horderly e he)

end ClipboardState

end Hashes

/-! ## A copy over a copy -/

namespace CopyOverCopy

section

attribute [local instance] Sample.codec

def quiet : Served where
  written := none
  fault := none

def failing : Served where
  written := none
  fault := some (.Io "clipboard is busy")

/-- A copied text with its timer. -/
def first : ClipboardState :=
  (ClipboardState.fresh 30 "").perform (.copy "secret" quiet)

/-- The second copy has taken the timer away and then fails. -/
def second : ClipboardState :=
  first.perform (.copy "other" failing)

def firstStep : Step ClipboardState ClipboardOp where
  source := .fresh 30 ""
  label := .copy "secret" quiet
  target := first

def secondStep : Step ClipboardState ClipboardOp where
  source := first
  label := .copy "other" failing
  target := second

def expiry : Step ClipboardState ClipboardOp where
  source := first
  label := .expire 0 quiet quiet
  target := first.perform (.expire 0 quiet quiet)

theorem opStep_firstStep :
    ClipboardState.opStep firstStep.source firstStep.label firstStep.target :=
  ⟨fun _ _ _ h => ClipboardOp.noConfusion h, rfl⟩

/-- The text of the first copy stays on the clipboard without a timer. -/
theorem copy_unguarded :
    ¬ ∀ (clearTimeout : Nat) (content : String) (es : List (Step ClipboardState ClipboardOp))
      (s' : ClipboardState), 0 < clearTimeout →
        Run ClipboardState.opStep (.fresh clearTimeout content) es s' →
          (∀ u ∈ visited (ClipboardState.fresh clearTimeout content) es, u.Guarded) ∧
            ∀ e ∈ es, e.source.SparesOthers e.label e.target := by
  intro hall
  have hsecond : ClipboardState.opStep secondStep.source secondStep.label secondStep.target :=
    ⟨fun _ _ _ h => ClipboardOp.noConfusion h, rfl⟩
  have hrun : Run ClipboardState.opStep (.fresh 30 "") [firstStep, secondStep] second :=
    .of_step opStep_firstStep (.of_step hsecond (.nil _))
  have hvisited : second ∈ visited (ClipboardState.fresh 30 "") [firstStep, secondStep] :=
    hrun.last_mem
  have hguarded := (hall 30 "" _ _ (by decide) hrun).1 second hvisited
  rcases hguarded (by decide +kernel) (by decide +kernel) with ⟨handle, task, htask, -⟩
  have hempty : second.timers.keys = [] := by decide +kernel
  have hmem : handle ∈ second.timers := by
    rw [← AList.lookup_isSome, htask]
    rfl
  rw [AList.mem_keys, hempty] at hmem
  cases hmem

/-- A copy whose timer expires undisturbed. -/
theorem guarded_of_orderly_expiry :
    (∀ u ∈ visited (ClipboardState.fresh 30 "") [firstStep, expiry], u.Guarded) ∧
      ∀ e ∈ [firstStep, expiry], e.source.SparesOthers e.label e.target := by
  have harmed : (0 : Nat) ∈ first.timers := by
    rw [AList.mem_keys]
    decide +kernel
  have hexpiry : ClipboardState.opStep expiry.source expiry.label expiry.target := by
    refine ⟨?_, rfl⟩
    intro timer read write hlabel
    cases hlabel
    exact harmed
  have hrun : Run ClipboardState.opStep (.fresh 30 "") [firstStep, expiry] expiry.target :=
    .of_step opStep_firstStep (.of_step hexpiry (.nil _))
  have hcopied : first.copied = true := by decide +kernel
  refine ClipboardState.guarded_of_orderly hrun ?_
  intro e he
  rcases List.mem_cons.mp he with heq | he
  · rw [heq]
    exact fun _ hfault => absurd rfl hfault
  · rw [List.mem_singleton.mp he]
    refine ⟨fun hfault => absurd rfl hfault, fun _ _ hfault => absurd rfl hfault, ?_⟩
    rintro task hash - - ⟨-, -, -, hother | hwritten⟩
    · have hsame : (first.interfere quiet).copied = first.copied := rfl
      have hlost : (first.interfere quiet).copied = false := hother
      rw [hsame, hcopied] at hlost
      cases hlost
    · exact hwritten rfl

end

end CopyOverCopy

end OakKeyring
