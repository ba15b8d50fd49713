import OakKeyring.Lib.Wp

/-!
# Programs that may fail

A fallible program ends in a value or in an error. Its specification has a postcondition for
each of the two, so that what holds after a failure is stated as openly as what holds after a
success.
-/

namespace Effect

variable {I : Interface} {α β ε S : Type}

/-- Programs over `I` that may stop with an error. -/
abbrev Fallible (ε : Type) (I : Interface) :=
  ExceptT ε (Prog I)

namespace Fallible

/-- Makes one call that does not fail. -/
def ask (c : I.Call) : Fallible ε I (I.Answer c) :=
  ExceptT.mk (Prog.perform c >>= fun x => pure (.ok x))

/-- Runs a program and hands its outcome on as a value. -/
def attempt (p : Fallible ε I α) : Fallible ε I (Except ε α) :=
  ExceptT.mk (p.run >>= fun r => pure (.ok r))

/-- Makes one call whose answer may be an error, and stops with the converted error. -/
def call {δ : Type} (c : I.Call) (view : I.Answer c → Except δ α) (convert : δ → ε) :
    Fallible ε I α :=
  ExceptT.mk (Prog.perform c >>= fun x => pure ((view x).mapError convert))

/-- Runs a program and converts the error it stops with. -/
def mapError {δ : Type} (convert : ε → δ) (p : Fallible ε I α) : Fallible δ I α :=
  ExceptT.mk (p.run >>= fun r => pure (r.mapError convert))

end Fallible

/-- A run that returns ends in `Q`, a run that fails ends in `E`. -/
def wpe (step : Env I S) (Q : α → S → Prop) (E : ε → S → Prop) (p : Fallible ε I α) (s : S) :
    Prop :=
  wp step
    (fun outcome u =>
      match outcome with
      | .ok a => Q a u
      | .error e => E e u)
    p.run s

section Rules

variable {step : Env I S} {Q Q' : α → S → Prop} {E E' : ε → S → Prop} {s : S}

@[simp] theorem wpe_pure (a : α) : wpe step Q E (pure a) s ↔ Q a s := Iff.rfl

@[simp] theorem wpe_throw (e : ε) :
    wpe step Q E (throw e : Fallible ε I α) s ↔ E e s := Iff.rfl

/-- Sequencing rule: an error of the first program is an error of the whole. -/
theorem wpe_bind {Q : β → S → Prop} (p : Fallible ε I α) (f : α → Fallible ε I β) :
    wpe step Q E (p >>= f) s ↔ wpe step (fun a u => wpe step Q E (f a) u) E p s := by
  unfold wpe
  rw [ExceptT.run_bind, wp_bind]
  constructor
  · intro h
    refine wp_mono ?_ h
    intro outcome u hnext
    cases outcome with
    | ok a => exact hnext
    | error e => exact hnext
  · intro h
    refine wp_mono ?_ h
    intro outcome u hnext
    cases outcome with
    | ok a => exact hnext
    | error e => exact hnext

theorem wpe_mono {p : Fallible ε I α} (hQ : ∀ a u, Q a u → Q' a u) (hE : ∀ e u, E e u → E' e u)
    (h : wpe step Q E p s) : wpe step Q' E' p s := by
  refine wp_mono ?_ h
  intro outcome u hend
  cases outcome with
  | ok a => exact hQ a u hend
  | error e => exact hE e u hend

theorem wpe_ite {c : Prop} [Decidable c] {p q : Fallible ε I α} (hp : c → wpe step Q E p s)
    (hq : ¬ c → wpe step Q E q s) : wpe step Q E (if c then p else q) s := by
  by_cases h : c
  · rw [if_pos h]
    exact hp h
  · rw [if_neg h]
    exact hq h

/-- What a run ends in, by its trace and path. -/
theorem wpe_iff (p : Fallible ε I α) :
    wpe step Q E p s ↔
      (∀ t a s', p.run.Returns t (.ok a) → Path step s t s' → Q a s') ∧
        ∀ t e s', p.run.Returns t (.error e) → Path step s t s' → E e s' := by
  unfold wpe
  rw [wp_iff]
  constructor
  · intro h
    exact ⟨fun t a s' hret hpath => h t (.ok a) s' hret hpath,
      fun t e s' hret hpath => h t (.error e) s' hret hpath⟩
  · intro h t outcome s' hret hpath
    cases outcome with
    | ok a => exact h.1 t a s' hret hpath
    | error e => exact h.2 t e s' hret hpath

/-- Every run ends somehow. -/
theorem wpe_true {p : Fallible ε I α} : wpe step (fun _ _ => True) (fun _ _ => True) p s := by
  rw [wpe_iff]
  exact ⟨fun _ _ _ _ _ => trivial, fun _ _ _ _ _ => trivial⟩

/-- Rule for a call that does not fail. -/
theorem wpe_ask {c : I.Call} {Q : I.Answer c → S → Prop}
    (h : ∀ x s', step s c x s' → Q x s') : wpe step Q E (Fallible.ask c) s := by
  intro x s' hstep
  exact h x s' hstep

/-- Rule for a call that may fail. -/
theorem wpe_call {δ : Type} {c : I.Call} {view : I.Answer c → Except δ α} {convert : δ → ε}
    (hok : ∀ x a s', view x = .ok a → step s c x s' → Q a s')
    (herror : ∀ x e s', view x = .error e → step s c x s' → E (convert e) s') :
    wpe step Q E (Fallible.call c view convert) s := by
  intro x s' hstep
  have hend : match (view x).mapError convert with
      | .ok a => Q a s'
      | .error e => E e s' := by
    cases hview : view x with
    | ok a => exact hok x a s' hview hstep
    | error e => exact herror x e s' hview hstep
  exact hend

/-- Rule for a program whose failure is caught. -/
theorem wpe_attempt {p : Fallible ε I α} {Q : Except ε α → S → Prop}
    (h : wpe step (fun a u => Q (.ok a) u) (fun e u => Q (.error e) u) p s) :
    wpe step Q E (Fallible.attempt p) s := by
  have hcaught : wp step Q p.run s → wpe step Q E (Fallible.attempt p) s := by
    intro hrun
    unfold wpe Fallible.attempt
    rw [ExceptT.run_mk, wp_bind]
    exact hrun
  apply hcaught
  refine wp_mono ?_ h
  intro outcome u hend
  cases outcome with
  | ok a => exact hend
  | error e => exact hend

/-- Rule for a program whose error is converted. -/
theorem wpe_mapError {δ : Type} {convert : ε → δ} {p : Fallible ε I α} {E : δ → S → Prop}
    (h : wpe step Q (fun e u => E (convert e) u) p s) :
    wpe step Q E (Fallible.mapError convert p) s := by
  unfold wpe Fallible.mapError
  rw [ExceptT.run_mk, wp_bind]
  refine wp_mono ?_ h
  intro outcome u hend
  cases outcome with
  | ok a => exact hend
  | error e => exact hend

/-- Invariant rule for a loop that carries a value. -/
theorem wpe_foldlM {σ : Type} {P : List β → σ → S → Prop} {xs : List β} {a : σ}
    {f : σ → β → Fallible ε I σ} (hinit : P [] a s)
    (hstep : ∀ done x rest b u, xs = done ++ x :: rest → P done b u →
      wpe step (fun b' v => P (done ++ [x]) b' v) E (f b x) u) :
    wpe step (fun b u => P xs b u) E (xs.foldlM f a) s := by
  suffices hgen : ∀ (rest done : List β) (b : σ) (u : S), xs = done ++ rest → P done b u →
      wpe step (fun b' v => P xs b' v) E (rest.foldlM f b) u by
    exact hgen xs [] a s rfl hinit
  intro rest
  induction rest with
  | nil =>
      intro done b u hxs hP
      rw [List.append_nil] at hxs
      have hend : P xs b u := by rwa [hxs]
      exact hend
  | cons x rest ih =>
      intro done b u hxs hP
      rw [List.foldlM_cons]
      refine (wpe_bind _ _).mpr (wpe_mono ?_ (fun e v hE => hE) (hstep done x rest b u hxs hP))
      intro b' v hnext
      exact ih (done ++ [x]) b' v (by simpa using hxs) hnext

/-- Invariant rule for a loop over a list. -/
theorem wpe_forM {P : List β → S → Prop} {xs : List β} {f : β → Fallible ε I PUnit}
    (hinit : P [] s)
    (hstep : ∀ done x rest u, xs = done ++ x :: rest → P done u →
      wpe step (fun _ v => P (done ++ [x]) v) E (f x) u) :
    wpe step (fun _ u => P xs u) E (xs.forM f) s := by
  suffices hgen : ∀ (rest done : List β) (u : S), xs = done ++ rest → P done u →
      wpe step (fun _ v => P xs v) E (rest.forM f) u by
    exact hgen xs [] s rfl hinit
  intro rest
  induction rest with
  | nil =>
      intro done u hxs hP
      rw [List.append_nil] at hxs
      simpa [hxs] using hP
  | cons x rest ih =>
      intro done u hxs hP
      have hloop : wpe step (fun _ v => wpe step (fun _ w => P xs w) E (rest.forM f) v) E (f x)
          u := by
        refine wpe_mono ?_ (fun e v hE => hE) (hstep done x rest u hxs hP)
        intro _ v hnext
        exact ih (done ++ [x]) v (by simpa using hxs) hnext
      exact (wpe_bind (f x) fun _ => rest.forM f).mpr hloop

/-- Invariant rule for a loop that collects the values. -/
theorem wpe_mapM {P : List β → List α → S → Prop} {xs : List β} {f : β → Fallible ε I α}
    (hinit : P [] [] s)
    (hstep : ∀ done x rest ys u, xs = done ++ x :: rest → P done ys u →
      wpe step (fun y v => P (done ++ [x]) (ys ++ [y]) v) E (f x) u) :
    wpe step (fun ys u => P xs ys u) E (xs.mapM f) s := by
  suffices hgen : ∀ (rest done : List β) (ys : List α) (u : S), xs = done ++ rest → P done ys u →
      wpe step (fun zs v => P xs (ys ++ zs) v) E (rest.mapM f) u by
    exact hgen xs [] [] s rfl hinit
  intro rest
  induction rest with
  | nil =>
      intro done ys u hxs hP
      rw [List.append_nil] at hxs
      have hend : P xs (ys ++ []) u := by rwa [List.append_nil, hxs]
      exact hend
  | cons x rest ih =>
      intro done ys u hxs hP
      rw [List.mapM_cons]
      refine (wpe_bind _ _).mpr (wpe_mono ?_ (fun e v hE => hE) (hstep done x rest ys u hxs hP))
      intro y v hnext
      refine (wpe_bind _ _).mpr (wpe_mono ?_ (fun e w hE => hE)
        (ih (done ++ [x]) (ys ++ [y]) v (by simpa using hxs) hnext))
      intro zs w hend
      have hlast : P xs (ys ++ y :: zs) w := by simpa using hend
      exact hlast

/-- A property that the allowed calls keep holds however the program ends. -/
theorem wpe_invariant {P : I.Call → Prop} {Inv : S → Prop} {p : Fallible ε I α}
    (hcalls : p.run.CallsOnly P) (hkeep : ∀ u c x v, P c → step u c x v → Inv u → Inv v)
    (hInv : Inv s) : wpe step (fun _ u => Inv u) (fun _ u => Inv u) p s := by
  refine wp_mono ?_ (wp_invariant hcalls hkeep hInv)
  intro outcome u hend
  cases outcome with
  | ok a => exact hend
  | error e => exact hend

/-- A run that returns is one of its parts after the other. -/
theorem returns_ok_bind {p : Fallible ε I α} {f : α → Fallible ε I β} {t : List (Event I)} {b : β}
    (h : (p >>= f).run.Returns t (.ok b)) :
    ∃ t₁ t₂ a, t = t₁ ++ t₂ ∧ p.run.Returns t₁ (.ok a) ∧ (f a).run.Returns t₂ (.ok b) := by
  rw [ExceptT.run_bind, Prog.returns_bind] at h
  rcases h with ⟨t₁, t₂, outcome, ht, hfirst, hrest⟩
  cases outcome with
  | ok a => exact ⟨t₁, t₂, a, ht, hfirst, hrest⟩
  | error e =>
      rcases hrest with ⟨-, hvalue⟩
      cases hvalue

/-- What goes on after a program that returns. -/
theorem returns_bind_of_ok {p : Fallible ε I α} {f : α → Fallible ε I β} {t u : List (Event I)}
    {a : α} {outcome : Except ε β} (hp : p.run.Returns t (.ok a))
    (hf : (f a).run.Returns u outcome) : (p >>= f).run.Returns (t ++ u) outcome := by
  rw [ExceptT.run_bind, Prog.returns_bind]
  exact ⟨t, u, .ok a, rfl, hp, hf⟩

theorem returns_mapError {δ : Type} (convert : ε → δ) {p : Fallible ε I α}
    {t : List (Event I)} {outcome : Except ε α} (hp : p.run.Returns t outcome) :
    (Fallible.mapError convert p).run.Returns t (outcome.mapError convert) := by
  unfold Fallible.mapError
  rw [ExceptT.run_mk, Prog.returns_bind]
  exact ⟨t, [], outcome, (List.append_nil t).symm, hp, rfl, rfl⟩

theorem returns_attempt {p : Fallible ε I α} {t : List (Event I)} {outcome : Except ε α}
    (hp : p.run.Returns t outcome) : (Fallible.attempt p).run.Returns t (.ok outcome) := by
  unfold Fallible.attempt
  rw [ExceptT.run_mk, Prog.returns_bind]
  exact ⟨t, [], outcome, (List.append_nil t).symm, hp, rfl, rfl⟩

/-- A returning run of a single call. -/
theorem returns_ok_call {δ : Type} {c : I.Call} {view : I.Answer c → Except δ α} {convert : δ → ε}
    {t : List (Event I)} {a : α} (h : (Fallible.call c view convert).run.Returns t (.ok a)) :
    ∃ x, t = [⟨c, x⟩] ∧ view x = .ok a := by
  rcases h with ⟨x, rest, ht, hrest, hvalue⟩
  refine ⟨x, ?_, ?_⟩
  · rw [ht, hrest]
  · cases hview : view x with
    | ok b =>
        rw [hview] at hvalue
        cases hvalue
        rfl
    | error e =>
        rw [hview] at hvalue
        cases hvalue

theorem returns_ok_mapError {δ : Type} {convert : ε → δ} {p : Fallible ε I α}
    {t : List (Event I)} {a : α} (h : (Fallible.mapError convert p).run.Returns t (.ok a)) :
    p.run.Returns t (.ok a) := by
  unfold Fallible.mapError at h
  rw [ExceptT.run_mk, Prog.returns_bind] at h
  rcases h with ⟨t₁, t₂, outcome, ht, hfirst, hrest, hvalue⟩
  cases outcome with
  | ok b =>
      cases hvalue
      rw [ht, hrest, List.append_nil]
      exact hfirst
  | error e => cases hvalue

end Rules

/-! ## Which calls a fallible program can make -/

section Only

variable {P : I.Call → Prop}

/-- Every call of the program is one that `P` allows. -/
def Fallible.Only (P : I.Call → Prop) (p : Fallible ε I α) : Prop :=
  p.run.CallsOnly P

theorem only_pure (a : α) : Fallible.Only P (pure a : Fallible ε I α) :=
  trivial

theorem only_throw (e : ε) : Fallible.Only P (throw e : Fallible ε I α) :=
  trivial

theorem only_bind {p : Fallible ε I α} {f : α → Fallible ε I β} (hp : Fallible.Only P p)
    (hf : ∀ a, Fallible.Only P (f a)) : Fallible.Only P (p >>= f) := by
  unfold Fallible.Only
  rw [ExceptT.run_bind]
  refine Prog.CallsOnly.bind hp ?_
  intro outcome
  cases outcome with
  | ok a => exact hf a
  | error e => trivial

theorem only_ask {c : I.Call} (h : P c) : Fallible.Only P (Fallible.ask c : Fallible ε I _) :=
  ⟨h, fun _ => trivial⟩

theorem only_call {δ : Type} {c : I.Call} {view : I.Answer c → Except δ α} {convert : δ → ε}
    (h : P c) : Fallible.Only P (Fallible.call c view convert) :=
  ⟨h, fun _ => trivial⟩

theorem only_attempt {p : Fallible ε I α} (hp : Fallible.Only P p) :
    Fallible.Only P (Fallible.attempt p) :=
  Prog.CallsOnly.bind hp fun _ => trivial

theorem only_mapError {δ : Type} {convert : ε → δ} {p : Fallible ε I α} (hp : Fallible.Only P p) :
    Fallible.Only P (Fallible.mapError convert p) :=
  Prog.CallsOnly.bind hp fun _ => trivial

theorem only_foldlM {σ : Type} {xs : List β} {f : σ → β → Fallible ε I σ}
    (hf : ∀ a x, Fallible.Only P (f a x)) (a : σ) : Fallible.Only P (xs.foldlM f a) := by
  induction xs generalizing a with
  | nil => trivial
  | cons x xs ih =>
      rw [List.foldlM_cons]
      exact only_bind (hf a x) ih

theorem only_ite {c : Prop} [Decidable c] {p q : Fallible ε I α} (hp : Fallible.Only P p)
    (hq : Fallible.Only P q) : Fallible.Only P (if c then p else q) := by
  by_cases h : c
  · rw [if_pos h]
    exact hp
  · rw [if_neg h]
    exact hq

theorem only_forM {xs : List β} {f : β → Fallible ε I PUnit}
    (hf : ∀ x, Fallible.Only P (f x)) : Fallible.Only P (xs.forM f) := by
  induction xs with
  | nil => trivial
  | cons x xs ih => exact only_bind (hf x) fun _ => ih

theorem only_mapM {xs : List β} {f : β → Fallible ε I α}
    (hf : ∀ x, Fallible.Only P (f x)) : Fallible.Only P (xs.mapM f) := by
  induction xs with
  | nil => trivial
  | cons x xs ih =>
      rw [List.mapM_cons]
      refine only_bind (hf x) ?_
      intro y
      refine only_bind ih ?_
      intro ys
      trivial

end Only

end Effect
