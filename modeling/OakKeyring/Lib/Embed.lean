import OakKeyring.Lib.Fallible

/-!
# Programs inside larger interfaces

An interface that has the calls of another one among its own runs the programs of the other. Their
environment sees a part of the larger state, and what it does there is all that happens.
-/

namespace Effect

variable {I J : Interface} {α β ε S T : Type}

/-- The calls of `I` among the calls of `J`. -/
structure Embedding (I J : Interface) where
  call : I.Call → J.Call
  answer : ∀ c, J.Answer (call c) → I.Answer c

namespace Embedding

variable (m : Embedding I J)

/-- A program, on the larger interface. -/
def prog : Prog I α → Prog J α
  | .ret a => .ret a
  | .call c k => .call (m.call c) fun x => prog (k (m.answer c x))

/-- A program that may fail, on the larger interface. -/
def fallible (p : Fallible ε I α) : Fallible ε J α :=
  ExceptT.mk (m.prog p.run)

theorem callsOnly_prog {P : I.Call → Prop} {Q : J.Call → Prop} {p : Prog I α}
    (h : p.CallsOnly P) (hsub : ∀ c, P c → Q (m.call c)) : (m.prog p).CallsOnly Q := by
  induction p with
  | ret a => trivial
  | call c k ih => exact ⟨hsub c h.1, fun x => ih _ (h.2 _)⟩

end Embedding

/-- A part of a state that can be replaced. -/
structure Part (S T : Type) where
  get : S → T
  set : S → T → S
  get_set : ∀ s t, get (set s t) = t
  set_set : ∀ s t u, set (set s t) u = set s u
  set_get : ∀ s, set s (get s) = s

/-- The larger environment answers the calls of `I` as `inner` does, on a part of its state. -/
def Embedding.Serves (m : Embedding I J) (part : Part S T) (inner : Env I T) (outer : Env J S) :
    Prop :=
  ∀ s c x s', outer s (m.call c) x s' →
    ∃ t, inner (part.get s) c (m.answer c x) t ∧ s' = part.set s t

section Rules

variable {m : Embedding I J} {part : Part S T} {inner : Env I T} {outer : Env J S} {s : S}

/-- Rule for a program of the smaller interface. -/
theorem wp_embed (hserves : m.Serves part inner outer) {Q : α → S → Prop} {p : Prog I α}
    (h : wp inner (fun a t => Q a (part.set s t)) p (part.get s)) : wp outer Q (m.prog p) s := by
  induction p generalizing s with
  | ret a =>
      have hend : Q a (part.set s (part.get s)) := h
      rw [part.set_get] at hend
      exact hend
  | call c k ih =>
      intro x s' hstep
      rcases hserves s c x s' hstep with ⟨t, hinner, hs'⟩
      have hnext := h (m.answer c x) t hinner
      rw [hs']
      apply ih
      rw [part.get_set]
      refine wp_mono ?_ hnext
      intro a u hQ
      rw [part.set_set]
      exact hQ

theorem wpe_embed (hserves : m.Serves part inner outer) {Q : α → S → Prop} {E : ε → S → Prop}
    {p : Fallible ε I α}
    (h : wpe inner (fun a t => Q a (part.set s t)) (fun e t => E e (part.set s t)) p
      (part.get s)) : wpe outer Q E (m.fallible p) s := by
  apply wp_embed hserves
  refine wp_mono ?_ h
  intro outcome t hend
  cases outcome with
  | ok a => exact hend
  | error e => exact hend

/-- A program whose outcome is handed on as a value. -/
theorem wp_of_wpe {step : Env I S} {p : Fallible ε I α} {Q : Except ε α → S → Prop}
    (h : wpe step (fun a u => Q (.ok a) u) (fun e u => Q (.error e) u) p s) :
    wp step Q p.run s := by
  refine wp_mono ?_ h
  intro outcome u hend
  cases outcome with
  | ok a => exact hend
  | error e => exact hend

end Rules

end Effect
