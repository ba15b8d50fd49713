import OakKeyring.Lib.Crash

/-!
# Environments that take notes

When what a run ends in depends on the answers it was given, the environment notes what matters
of them, and the specification speaks about the notes.
-/

namespace Effect

variable {I : Interface} {α ε S M : Type}

/-- The environment together with the notes on the calls and answers so far. -/
def observing (step : Env I S) (note : M → Event I → M) : Env I (S × M) :=
  fun s c x s' => step s.1 c x s'.1 ∧ s'.2 = note s.2 ⟨c, x⟩

section Observing

variable {step : Env I S} {note : M → Event I → M} {s s' : S} {m : M} {t : List (Event I)}

/-- The notes on a run are those on its trace. -/
theorem Path.observing (hpath : Path step s t s') :
    Path (Effect.observing step note) (s, m) t (s', t.foldl note m) := by
  induction t generalizing s m with
  | nil =>
      have hend : s' = s := hpath
      rw [hend]
      rfl
  | cons e t ih =>
      rcases hpath with ⟨u, hstep, hpath⟩
      exact ⟨(u, note m e), ⟨hstep, rfl⟩, ih hpath⟩

/-- What holds of the notes holds of the trace. -/
theorem wpe_observing {Q : α → S × M → Prop} {E : ε → S × M → Prop} {p : Fallible ε I α}
    (h : wpe (Effect.observing step note) Q E p (s, m)) {outcome : Except ε α}
    (hret : p.run.Returns t outcome) (hpath : Path step s t s') :
    match outcome with
    | .ok a => Q a (s', t.foldl note m)
    | .error e => E e (s', t.foldl note m) := by
  rcases (wpe_iff p).mp h with ⟨hok, herror⟩
  cases outcome with
  | ok a => exact hok t a _ hret hpath.observing
  | error e => exact herror t e _ hret hpath.observing

/-- The notes can be left out. -/
theorem wpe_of_observing {Q : α → S × M → Prop} {E : ε → S × M → Prop} {Q' : α → S → Prop}
    {E' : ε → S → Prop} {p : Fallible ε I α}
    (h : wpe (Effect.observing step note) Q E p (s, m)) (hQ : ∀ a u, Q a u → Q' a u.1)
    (hE : ∀ e u, E e u → E' e u.1) : wpe step Q' E' p s := by
  rw [wpe_iff]
  constructor
  · intro t a s' hret hpath
    exact hQ _ _ (wpe_observing h hret hpath)
  · intro t e s' hret hpath
    exact hE _ _ (wpe_observing h hret hpath)

/-- Nothing is noted of a program whose calls do not change the notes there are. -/
theorem wp_noted {P : I.Call → Prop} {Q : α → S → Prop} {p : Prog I α} (hcalls : p.CallsOnly P)
    (hquiet : ∀ c x, P c → note m ⟨c, x⟩ = m) (h : wp step Q p s) :
    wp (Effect.observing step note) (fun a u => Q a u.1 ∧ u.2 = m) p (s, m) := by
  induction p generalizing s with
  | ret a => exact ⟨h, rfl⟩
  | call c k ih =>
      rintro x ⟨u, n⟩ ⟨hstep, hnote⟩
      have hsame : n = m := hnote.trans (hquiet c x hcalls.1)
      rw [hsame]
      exact ih x (hcalls.2 x) (h x u hstep)

/-- Nothing is noted of a program whose calls are not worth a note. -/
theorem wp_quiet {P : I.Call → Prop} {Q : α → S → Prop} {p : Prog I α} (hcalls : p.CallsOnly P)
    (hquiet : ∀ n c x, P c → note n ⟨c, x⟩ = n) (h : wp step Q p s) :
    wp (Effect.observing step note) (fun a u => Q a u.1 ∧ u.2 = m) p (s, m) :=
  wp_noted hcalls (hquiet m) h

/-- What holds of the notes holds of the trace of a program. -/
theorem wp_observing {Q : α → S × M → Prop} {p : Prog I α} {a : α}
    (h : wp (Effect.observing step note) Q p (s, m)) (hret : p.Returns t a)
    (hpath : Path step s t s') : Q a (s', t.foldl note m) :=
  (wp_iff _ _ _ _).mp h t a _ hret hpath.observing

end Observing

/-- Calls that keep `C` keep it at every point, whatever else is known of the end. -/
theorem alwayse_of_wpe {step : Env I S} {P : I.Call → Prop} {C : S → Prop} {Q : α → S → Prop}
    {E : ε → S → Prop} {p : Fallible ε I α} {s : S} (hcalls : Fallible.Only P p)
    (hkeep : ∀ u c x v, P c → step u c x v → C u → C v) (h : C s) (hend : wpe step Q E p s) :
    alwayse step C Q p s := by
  have hgen : ∀ (q : Prog I (Except ε α)) (u : S), q.CallsOnly P → C u →
      wpe step Q E (ExceptT.mk q) u → alwayse step C Q (ExceptT.mk q) u := by
    intro q
    induction q with
    | ret outcome =>
        intro u _ hC hwp
        cases outcome with
        | ok a => exact hwp
        | error e => exact hC
    | call c k ih =>
        intro u honly hC hwp
        refine ⟨hC, ?_⟩
        intro x v hstep
        exact ih x v (honly.2 x) (hkeep u c x v honly.1 hstep hC) (hwp x v hstep)
  exact hgen p.run s hcalls h hend

end Effect
