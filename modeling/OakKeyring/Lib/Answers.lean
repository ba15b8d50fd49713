import OakKeyring.Lib.Embed

/-!
# What a program may answer

A run that returns a value is an answer of the program. Weakest preconditions bound the answers
from above; the rules here build an answer from answers of the parts, so that a program can be
shown to have one.
-/

namespace Effect

variable {I J : Interface} {α β ε S T : Type}

/-- Some run from `s` returns `a` and ends in `s'`. -/
def Answers (step : Env I S) (s : S) (p : Fallible ε I α) (a : α) (s' : S) : Prop :=
  ∃ t, p.run.Returns t (.ok a) ∧ Path step s t s'

section Rules

variable {step : Env I S} {s s' u : S}

theorem Answers.of_wpe {p : Fallible ε I α} {Q : α → S → Prop} {E : ε → S → Prop} {a : α}
    (hanswer : Answers step s p a s') (h : wpe step Q E p s) : Q a s' := by
  rcases hanswer with ⟨t, hreturns, hpath⟩
  exact ((wpe_iff p).mp h).1 t a s' hreturns hpath

theorem answers_pure (a : α) : Answers step s (pure a : Fallible ε I α) a s :=
  ⟨[], ⟨rfl, rfl⟩, rfl⟩

theorem Answers.bind {p : Fallible ε I α} {f : α → Fallible ε I β} {a : α} {b : β}
    (hp : Answers step s p a u) (hf : Answers step u (f a) b s') :
    Answers step s (p >>= f) b s' := by
  rcases hp with ⟨t, hfirst, hpath⟩
  rcases hf with ⟨t', hrest, hpath'⟩
  refine ⟨t ++ t', returns_bind_of_ok hfirst hrest, ?_⟩
  rw [path_append]
  exact ⟨u, hpath, hpath'⟩

theorem exists_answers_bind {p : Fallible ε I α} {f : α → Fallible ε I β} {a : α}
    (hp : Answers step s p a u) (hf : ∃ b s', Answers step u (f a) b s') :
    ∃ b s', Answers step s (p >>= f) b s' := by
  rcases hf with ⟨b, s', hf⟩
  exact ⟨b, s', hp.bind hf⟩

theorem answers_call {δ : Type} {c : I.Call} {view : I.Answer c → Except δ α} {convert : δ → ε}
    {x : I.Answer c} {a : α} (hview : view x = .ok a) (hstep : step s c x s') :
    Answers step s (Fallible.call c view convert) a s' := by
  refine ⟨[⟨c, x⟩], ⟨x, [], rfl, rfl, ?_⟩, s', hstep, rfl⟩
  rw [hview]
  rfl

theorem Answers.attempt {p : Fallible ε I α} {a : α} (hp : Answers step s p a s') :
    Answers step s (Fallible.attempt p) (.ok a : Except ε α) s' := by
  rcases hp with ⟨t, hreturns, hpath⟩
  exact ⟨t, returns_attempt hreturns, hpath⟩

/-- A loop of answers that leave the state as it is. -/
theorem answers_mapM {f : β → Fallible ε I α} {g : β → α} (xs : List β)
    (h : ∀ x ∈ xs, Answers step s (f x) (g x) s) : Answers step s (xs.mapM f) (xs.map g) s := by
  induction xs with
  | nil => exact answers_pure []
  | cons x xs ih =>
      have hfirst : Answers step s (f x) (g x) s := h x List.mem_cons_self
      have hrest : Answers step s (xs.mapM f) (xs.map g) s :=
        ih fun y hy => h y (List.mem_cons_of_mem x hy)
      rw [List.mapM_cons]
      exact hfirst.bind (hrest.bind (answers_pure (g x :: xs.map g)))

end Rules

end Effect
