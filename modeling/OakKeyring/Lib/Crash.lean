import OakKeyring.Lib.Fallible

/-!
# Programs that are cut off

A crash ends a run between two calls: what the environment holds then is what the calls up to
there have made of it.
-/

namespace Effect

variable {I : Interface} {α β ε S : Type}

namespace Prog

/-- `Begins p t`: the calls and answers of `t` are those of a run of `p`, up to some point. -/
def Begins : Prog I α → List (Event I) → Prop
  | _, [] => True
  | ret _, _ :: _ => False
  | call c k, e :: t => ∃ x, e = ⟨c, x⟩ ∧ (k x).Begins t

theorem begins_nil (p : Prog I α) : p.Begins [] := by
  cases p with
  | ret a => trivial
  | call c k => trivial

end Prog

/-- The states a program may be cut off in. -/
def Crash (step : Env I S) (p : Prog I α) (s s' : S) : Prop :=
  ∃ t, p.Begins t ∧ Path step s t s'

/-- `C` holds at every point of every run, and `Q` at its end. -/
def always (step : Env I S) (C : S → Prop) (Q : α → S → Prop) (p : Prog I α) (s : S) : Prop :=
  safe (fun u _ => C u) step Q p s

section Always

variable {step : Env I S} {C : S → Prop} {s s' : S}

/-- What holds at every point holds after a crash. -/
theorem Crash.of_always {p : Prog I α} (hcrash : Crash step p s s')
    (h : always step C (fun _ u => C u) p s) : C s' := by
  rcases hcrash with ⟨t, hbegins, hpath⟩
  induction p generalizing s t with
  | ret a =>
      cases t with
      | nil =>
          rw [path_nil] at hpath
          rw [hpath]
          exact h
      | cons e t => exact hbegins.elim
  | call c k ih =>
      cases t with
      | nil =>
          rw [path_nil] at hpath
          rw [hpath]
          exact h.1
      | cons e t =>
          rcases hbegins with ⟨x, he, hrest⟩
          rw [he] at hpath
          rcases hpath with ⟨u, hstep, hpath⟩
          exact ih x (h.2 x u hstep) t hrest hpath

/-- Calls that keep `C` keep it at every point. -/
theorem always_of_callsOnly {P : I.Call → Prop} {p : Prog I α} (hcalls : p.CallsOnly P)
    (hkeep : ∀ u c x v, P c → step u c x v → C u → C v) (h : C s) :
    always step C (fun _ u => C u) p s := by
  induction p generalizing s with
  | ret a => exact h
  | call c k ih =>
      refine ⟨h, ?_⟩
      intro x u hstep
      exact ih x (hcalls.2 x) (hkeep s c x u hcalls.1 hstep h)

theorem always_mono {C' : S → Prop} {Q Q' : α → S → Prop} {p : Prog I α}
    (hC : ∀ u, C u → C' u) (hQ : ∀ a u, Q a u → Q' a u) (h : always step C Q p s) :
    always step C' Q' p s := by
  induction p generalizing s with
  | ret a => exact hQ a s h
  | call c k ih =>
      refine ⟨hC s h.1, ?_⟩
      intro x u hstep
      exact ih x (h.2 x u hstep)

end Always

/-! ## Fallible programs -/

/-- `C` holds at every point, also where the program fails, and `Q` where it returns. -/
def alwayse (step : Env I S) (C : S → Prop) (Q : α → S → Prop) (p : Fallible ε I α) (s : S) :
    Prop :=
  always step C
    (fun outcome u =>
      match outcome with
      | .ok a => Q a u
      | .error _ => C u)
    p.run s

section Alwayse

variable {step : Env I S} {C : S → Prop} {Q : α → S → Prop} {s s' : S}

theorem Crash.of_alwayse {p : Fallible ε I α} (hcrash : Crash step p.run s s')
    (h : alwayse step C (fun _ u => C u) p s) : C s' := by
  refine hcrash.of_always (always_mono (fun _ h => h) ?_ h)
  intro outcome u hend
  cases outcome with
  | ok a => exact hend
  | error e => exact hend

/-- Sequencing rule: the first program may leave more than `C` behind. -/
theorem alwayse_bind {P : α → S → Prop} {Q : β → S → Prop} {p : Fallible ε I α}
    {f : α → Fallible ε I β} (hp : alwayse step C P p s)
    (hf : ∀ a u, P a u → alwayse step C Q (f a) u) : alwayse step C Q (p >>= f) s := by
  unfold alwayse
  rw [ExceptT.run_bind]
  refine safe_bind hp ?_
  intro outcome u hend
  cases outcome with
  | ok a => exact hf a u hend
  | error e => exact hend

theorem alwayse_mono {C' : S → Prop} {Q' : α → S → Prop} {p : Fallible ε I α}
    (hC : ∀ u, C u → C' u) (hQ : ∀ a u, Q a u → Q' a u) (h : alwayse step C Q p s) :
    alwayse step C' Q' p s := by
  refine always_mono hC ?_ h
  intro outcome u hend
  cases outcome with
  | ok a => exact hQ a u hend
  | error e => exact hC u hend

/-- Calls that keep `C` keep it at every point. -/
theorem alwayse_of_only {P : I.Call → Prop} {p : Fallible ε I α} (hcalls : Fallible.Only P p)
    (hkeep : ∀ u c x v, P c → step u c x v → C u → C v) (h : C s) :
    alwayse step C (fun _ u => C u) p s := by
  refine always_mono (fun _ h => h) ?_ (always_of_callsOnly hcalls hkeep h)
  intro outcome u hend
  cases outcome with
  | ok a => exact hend
  | error e => exact hend

theorem alwayse_ite {c : Prop} [Decidable c] {p q : Fallible ε I α}
    (hp : c → alwayse step C Q p s) (hq : ¬ c → alwayse step C Q q s) :
    alwayse step C Q (if c then p else q) s := by
  by_cases h : c
  · rw [if_pos h]
    exact hp h
  · rw [if_neg h]
    exact hq h

/-- Rule for a single call. -/
theorem alwayse_call {δ : Type} {c : I.Call} {view : I.Answer c → Except δ α} {convert : δ → ε}
    (h : C s) (hok : ∀ x a u, view x = .ok a → step s c x u → Q a u)
    (herror : ∀ x e u, view x = .error e → step s c x u → C u) :
    alwayse step C Q (Fallible.call c view convert) s := by
  refine ⟨h, ?_⟩
  intro x u hstep
  have hend : match (view x).mapError convert with
      | .ok a => Q a u
      | .error _ => C u := by
    cases hview : view x with
    | ok a => exact hok x a u hview hstep
    | error e => exact herror x e u hview hstep
  exact hend

theorem alwayse_mapError {δ : Type} {convert : ε → δ} {p : Fallible ε I α}
    (h : alwayse step C Q p s) : alwayse step C Q (Fallible.mapError convert p) s := by
  unfold alwayse Fallible.mapError
  rw [ExceptT.run_mk]
  refine safe_bind h ?_
  intro outcome u hend
  cases outcome with
  | ok a => exact hend
  | error e => exact hend

end Alwayse

/-! ## Against a handler -/

/-- The state after a number of calls. -/
def runFor (h : Handler I S) : Nat → Prog I α → S → S
  | 0, _, s => s
  | _ + 1, .ret _, s => s
  | n + 1, .call c k, s => runFor h n (k (h s c).1) (h s c).2

theorem crash_runFor (h : Handler I S) (n : Nat) (p : Prog I α) (s : S) :
    Crash h.env p s (runFor h n p s) := by
  induction n generalizing p s with
  | zero => exact ⟨[], p.begins_nil, rfl⟩
  | succ n ih =>
      cases p with
      | ret a => exact ⟨[], trivial, rfl⟩
      | call c k =>
          rcases ih (k (h s c).1) (h s c).2 with ⟨t, hbegins, hpath⟩
          exact ⟨⟨c, (h s c).1⟩ :: t, ⟨_, rfl, hbegins⟩, (h s c).2, rfl, hpath⟩

/-- A crash seen through a view of the states. -/
theorem Crash.map {S' : Type} {step : Env I S} {step' : Env I S'} {p : Prog I α} {s s' : S}
    (view : S → S') (hcrash : Crash step p s s')
    (hstep : ∀ u c x w, step u c x w → step' (view u) c x (view w)) :
    Crash step' p (view s) (view s') := by
  rcases hcrash with ⟨t, hbegins, hpath⟩
  exact ⟨t, hbegins, hpath.map view hstep⟩

end Effect
