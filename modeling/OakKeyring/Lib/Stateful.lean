import Mathlib.Data.List.Basic

/-!
# Methods with a state

A method changes a state and may stop with an error; what it has changed by then stays changed.
The rules evaluate a method on a state, one command at a time.
-/

namespace Effect

variable {ε S α β : Type}

/-- Programs that change a state and may stop with an error. -/
abbrev Stateful (ε S : Type) :=
  ExceptT ε (StateM S)

namespace Stateful

/-- A command by what it answers and leaves behind. -/
def command (f : S → Except ε α × S) : Stateful ε S α :=
  ExceptT.mk f

/-- The outcome of a method and the state it leaves. -/
def exec (p : Stateful ε S α) (s : S) : Except ε α × S :=
  p.run s

section Rules

variable {s : S}

@[simp] theorem exec_command (f : S → Except ε α × S) : exec (command f) s = f s := rfl

@[simp] theorem exec_pure (a : α) : exec (pure a : Stateful ε S α) s = (.ok a, s) := rfl

@[simp] theorem exec_throw (e : ε) : exec (throw e : Stateful ε S α) s = (.error e, s) := rfl

@[simp] theorem exec_get : exec (get : Stateful ε S S) s = (.ok s, s) := rfl

@[simp] theorem exec_modify (f : S → S) :
    exec (modify f : Stateful ε S PUnit) s = (.ok ⟨⟩, f s) := rfl

/-- An error of the first part is an error of the whole. -/
theorem exec_bind (p : Stateful ε S α) (f : α → Stateful ε S β) :
    exec (p >>= f) s =
      match exec p s with
      | (.ok a, u) => exec (f a) u
      | (.error e, u) => (.error e, u) := by
  have hcont : exec (p >>= f) s = (ExceptT.bindCont f (exec p s).1 : StateM S _) (exec p s).2 := rfl
  rw [hcont]
  rcases exec p s with ⟨outcome, u⟩
  cases outcome with
  | ok a => rfl
  | error e => rfl

theorem exec_bind_ok {p : Stateful ε S α} {f : α → Stateful ε S β} {a : α} {u : S}
    (h : exec p s = (.ok a, u)) : exec (p >>= f) s = exec (f a) u := by
  rw [exec_bind, h]

theorem exec_bind_error {p : Stateful ε S α} {f : α → Stateful ε S β} {e : ε} {u : S}
    (h : exec p s = (.error e, u)) : exec (p >>= f) s = (.error e, u) := by
  rw [exec_bind, h]

/-- A change of the state, and what follows it. -/
theorem exec_modify_bind (g : S → S) (f : PUnit → Stateful ε S β) :
    exec (modify g >>= f) s = exec (f ⟨⟩) (g s) :=
  exec_bind_ok (exec_modify g)

end Rules

end Stateful

end Effect
