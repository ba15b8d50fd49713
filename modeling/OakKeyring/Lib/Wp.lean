import OakKeyring.Lib.Prog

/-!
# Runs of a program against an environment

The environment is a relation `step s c x s'`: in state `s` the call `c` may be answered
`x`, leaving state `s'`. It may be nondeterministic, so faults are extra answers.
-/

namespace Effect

variable {I : Interface} {α β σ S : Type}

/-- An environment for the calls of `I` over states `S`. -/
abbrev Env (I : Interface) (S : Type) :=
  S → (c : I.Call) → I.Answer c → S → Prop

/-- `Path step s t s'`: the environment can go from `s` to `s'` along the trace `t`. -/
def Path (step : Env I S) : S → List (Event I) → S → Prop
  | s, [], s' => s' = s
  | s, e :: t, s' => ∃ u, step s e.call e.answer u ∧ Path step u t s'

@[simp] theorem path_nil (step : Env I S) (s s' : S) : Path step s [] s' ↔ s' = s := Iff.rfl

@[simp] theorem path_cons (step : Env I S) (s s' : S) (e : Event I) (t : List (Event I)) :
    Path step s (e :: t) s' ↔ ∃ u, step s e.call e.answer u ∧ Path step u t s' := Iff.rfl

theorem path_append (step : Env I S) (s s' : S) (t₁ t₂ : List (Event I)) :
    Path step s (t₁ ++ t₂) s' ↔ ∃ u, Path step s t₁ u ∧ Path step u t₂ s' := by
  induction t₁ generalizing s with
  | nil =>
      simp
  | cons e t₁ ih =>
      constructor
      · rintro ⟨u, hstep, h⟩
        rcases (ih u).mp h with ⟨v, h₁, h₂⟩
        exact ⟨v, ⟨u, hstep, h₁⟩, h₂⟩
      · rintro ⟨v, ⟨u, hstep, h₁⟩, h₂⟩
        exact ⟨u, hstep, (ih u).mpr ⟨v, h₁, h₂⟩⟩

/-- A property kept by every step is kept along a path. -/
theorem Path.invariant {step : Env I S} {P : S → Prop} {s s' : S} {t : List (Event I)}
    (hpath : Path step s t s')
    (hstep : ∀ u c x v, step u c x v → P u → P v)
    (hP : P s) : P s' := by
  induction t generalizing s with
  | nil =>
      rw [path_nil] at hpath
      exact hpath ▸ hP
  | cons e t ih =>
      rcases hpath with ⟨u, hu, hpath⟩
      exact ih hpath (hstep s e.call e.answer u hu hP)

/-- A path of one environment is a path of every environment that allows its steps. -/
theorem Path.mono {step step' : Env I S} {s s' : S} {t : List (Event I)}
    (hpath : Path step s t s') (hsub : ∀ u c x v, step u c x v → step' u c x v) :
    Path step' s t s' := by
  induction t generalizing s with
  | nil => exact hpath
  | cons e t ih =>
      rcases hpath with ⟨u, hu, hpath⟩
      exact ⟨u, hsub s e.call e.answer u hu, ih hpath⟩

/-- A path seen through a view of the states. -/
theorem Path.map {S' : Type} {step : Env I S} {step' : Env I S'} {s s' : S} {t : List (Event I)}
    (view : S → S') (hpath : Path step s t s')
    (hstep : ∀ u c x v, step u c x v → step' (view u) c x (view v)) :
    Path step' (view s) t (view s') := by
  induction t generalizing s with
  | nil =>
      rw [path_nil] at hpath
      exact congrArg view hpath
  | cons e t ih =>
      rcases hpath with ⟨u, hu, hpath⟩
      exact ⟨view u, hstep s e.call e.answer u hu, ih hpath⟩

/-! ## Weakest preconditions -/

/-- Every run of the program from the state ends in `Q`. -/
def wp (step : Env I S) (Q : α → S → Prop) : Prog I α → S → Prop
  | .ret a, s => Q a s
  | .call c k, s => ∀ x s', step s c x s' → wp step Q (k x) s'

@[simp] theorem wp_ret (step : Env I S) (Q : α → S → Prop) (a : α) (s : S) :
    wp step Q (.ret a) s ↔ Q a s := Iff.rfl

@[simp] theorem wp_call (step : Env I S) (Q : α → S → Prop) (c : I.Call)
    (k : I.Answer c → Prog I α) (s : S) :
    wp step Q (.call c k) s ↔ ∀ x s', step s c x s' → wp step Q (k x) s' := Iff.rfl

theorem wp_bind (step : Env I S) (Q : β → S → Prop) (p : Prog I α) (f : α → Prog I β)
    (s : S) :
    wp step Q (p >>= f) s ↔ wp step (fun a s' => wp step Q (f a) s') p s := by
  induction p generalizing s with
  | ret a => rfl
  | call c k ih =>
      simp only [Prog.call_bind, wp_call]
      constructor
      · intro h x s' hstep
        exact (ih x s').mp (h x s' hstep)
      · intro h x s' hstep
        exact (ih x s').mpr (h x s' hstep)

theorem wp_mono {step : Env I S} {Q Q' : α → S → Prop} {p : Prog I α} {s : S}
    (hQ : ∀ a u, Q a u → Q' a u) (h : wp step Q p s) : wp step Q' p s := by
  induction p generalizing s with
  | ret a => exact hQ a s h
  | call c k ih =>
      intro x s' hstep
      exact ih x (h x s' hstep)

/-- `wp` says exactly what holds at the end of every run along a path. -/
theorem wp_iff (step : Env I S) (Q : α → S → Prop) (p : Prog I α) (s : S) :
    wp step Q p s ↔ ∀ t a s', p.Returns t a → Path step s t s' → Q a s' := by
  induction p generalizing s with
  | ret a =>
      constructor
      · rintro h t b s' ⟨rfl, rfl⟩ rfl
        exact h
      · intro h
        exact h [] a s ⟨rfl, rfl⟩ rfl
  | call c k ih =>
      constructor
      · rintro h t a s' ⟨x, t', rfl, hret⟩ ⟨u, hstep, hpath⟩
        exact (ih x u).mp (h x u hstep) t' a s' hret hpath
      · intro h x u hstep
        refine (ih x u).mpr ?_
        intro t' a s' hret hpath
        exact h (⟨c, x⟩ :: t') a s' ⟨x, t', rfl, hret⟩ ⟨u, hstep, hpath⟩

/-- A program whose calls do not move the state ends in the state it started in. -/
theorem wp_of_callsOnly {step : Env I S} {P : I.Call → Prop} {Q : α → S → Prop}
    {p : Prog I α} {s : S} (hcalls : p.CallsOnly P)
    (hstill : ∀ c x s', P c → step s c x s' → s' = s)
    (hQ : ∀ t a, p.Returns t a → Q a s) : wp step Q p s := by
  induction p with
  | ret a => exact hQ [] a ⟨rfl, rfl⟩
  | call c k ih =>
      intro x s' hstep
      have hsame : s' = s := hstill c x s' hcalls.1 hstep
      rw [hsame]
      refine ih x (hcalls.2 x) ?_
      intro t a hret
      exact hQ (⟨c, x⟩ :: t) a ⟨x, t, rfl, hret⟩

/-- A property that the allowed calls keep is kept by a program that makes no others. -/
theorem wp_invariant {step : Env I S} {P : I.Call → Prop} {Inv : S → Prop} {p : Prog I α} {s : S}
    (hcalls : p.CallsOnly P) (hkeep : ∀ u c x v, P c → step u c x v → Inv u → Inv v)
    (hInv : Inv s) : wp step (fun _ u => Inv u) p s := by
  induction p generalizing s with
  | ret a => exact hInv
  | call c k ih =>
      intro x s' hstep
      exact ih x (hcalls.2 x) (hkeep s c x s' hcalls.1 hstep hInv)

/-! ## Programs with obligations -/

/-- Every run ends in `Q`, and every call on the way is made in a state that allows it. -/
def safe (allowed : S → I.Call → Prop) (step : Env I S) (Q : α → S → Prop) :
    Prog I α → S → Prop
  | .ret a, s => Q a s
  | .call c k, s => allowed s c ∧ ∀ x s', step s c x s' → safe allowed step Q (k x) s'

section Safe

variable {allowed : S → I.Call → Prop} {step : Env I S} {s : S}

/-- Sequencing rule. -/
theorem safe_bind {P : α → S → Prop} {Q : β → S → Prop} {p : Prog I α} {f : α → Prog I β}
    (hp : safe allowed step P p s) (hf : ∀ a u, P a u → safe allowed step Q (f a) u) :
    safe allowed step Q (p >>= f) s := by
  induction p generalizing s with
  | ret a => exact hf a s hp
  | call c k ih =>
      refine ⟨hp.1, ?_⟩
      intro x s' hstep
      exact ih x (hp.2 x s' hstep)

/-- Rule for one call. -/
theorem safe_perform {Q : α → S → Prop} {c : I.Call} {f : I.Answer c → Prog I α}
    (hallowed : allowed s c)
    (hf : ∀ x s', step s c x s' → safe allowed step Q (f x) s') :
    safe allowed step Q (Prog.perform c >>= f) s :=
  ⟨hallowed, hf⟩

end Safe

/-! ## Running against a function -/

/-- A deterministic environment. -/
abbrev Handler (I : Interface) (S : Type) :=
  S → (c : I.Call) → I.Answer c × S

/-- The environment that behaves as the handler does. -/
def Handler.env (h : Handler I S) : Env I S :=
  fun s c x s' => h s c = (x, s')

/-- The result and the final state of a run. -/
def run (h : Handler I S) : Prog I α → S → α × S
  | .ret a, s => (a, s)
  | .call c k, s => run h (k (h s c).1) (h s c).2

/-- The calls of a run and their answers. -/
def runTrace (h : Handler I S) : Prog I α → S → List (Event I)
  | .ret _, _ => []
  | .call c k, s => ⟨c, (h s c).1⟩ :: runTrace h (k (h s c).1) (h s c).2

theorem returns_runTrace (h : Handler I S) (p : Prog I α) (s : S) :
    p.Returns (runTrace h p s) (run h p s).1 := by
  induction p generalizing s with
  | ret a => exact ⟨rfl, rfl⟩
  | call c k ih => exact ⟨_, _, rfl, ih _ _⟩

/-- What holds of every answer of a handler holds along its runs. -/
theorem forall_runTrace {P : Event I → Prop} {h : Handler I S} (hP : ∀ s c, P ⟨c, (h s c).1⟩)
    (p : Prog I α) (s : S) : ∀ e ∈ runTrace h p s, P e := by
  induction p generalizing s with
  | ret a => simp [runTrace]
  | call c k ih =>
      intro e he
      rcases List.mem_cons.mp he with heq | he
      · rw [heq]
        exact hP s c
      · exact ih _ _ e he

theorem path_runTrace (h : Handler I S) (p : Prog I α) (s : S) :
    Path h.env s (runTrace h p s) (run h p s).2 := by
  induction p generalizing s with
  | ret a => rfl
  | call c k ih => exact ⟨_, rfl, ih _ _⟩

end Effect
