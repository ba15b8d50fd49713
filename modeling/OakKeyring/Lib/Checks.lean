import Mathlib.Logic.Basic

/-!
# Sequences of checks

A computation in `Except` that goes through its checks one by one succeeds exactly when each of
them does, and ends in the errors that they can end in.
-/

namespace Checks

variable {ε α β : Type} {a : α} {b : β}

instance decidableExistsOk : (x : Except ε α) → Decidable (∃ a, x = .ok a)
  | .ok a => isTrue ⟨a, rfl⟩
  | .error _ => isFalse fun ⟨_, h⟩ => nomatch h

theorem bind_eq_ok_iff {x : Except ε α} {f : α → Except ε β} :
    (x >>= f) = .ok b ↔ ∃ a, x = .ok a ∧ f a = .ok b := by
  cases x with
  | error e =>
      constructor
      · intro h
        cases h
      · rintro ⟨a, h, -⟩
        cases h
  | ok a =>
      constructor
      · intro h
        exact ⟨a, rfl, h⟩
      · rintro ⟨a', h, hrest⟩
        cases h
        exact hrest

/-- A check followed by the rest of the computation. -/
theorem unless_throw_eq_ok_iff {c : Prop} [Decidable c] {e : ε} {f : PUnit → Except ε α}
    {x : Except ε α} : (if c then throw e >>= f else x) = .ok a ↔ ¬ c ∧ x = .ok a := by
  by_cases h : c
  · rw [if_pos h]
    constructor
    · intro hcontra
      cases hcontra
    · intro hno
      exact absurd h hno.1
  · rw [if_neg h]
    exact ⟨fun hx => ⟨h, hx⟩, And.right⟩

/-- A check that is the end of the computation. -/
theorem last_throw_eq_ok_iff {c : Prop} [Decidable c] {e : ε} {x : Except ε α} :
    (if c then throw e else x) = .ok a ↔ ¬ c ∧ x = .ok a := by
  by_cases h : c
  · rw [if_pos h]
    constructor
    · intro hcontra
      cases hcontra
    · intro hno
      exact absurd h hno.1
  · rw [if_neg h]
    exact ⟨fun hx => ⟨h, hx⟩, And.right⟩

theorem mapError_eq_ok_iff {δ : Type} {x : Except ε α} {convert : ε → δ} :
    x.mapError convert = .ok a ↔ x = .ok a := by
  cases x with
  | error e =>
      constructor
      · intro h
        cases h
      · intro h
        cases h
  | ok a' =>
      constructor
      · intro h
        cases h
        rfl
      · intro h
        cases h
        rfl

/-! ## The errors of a computation -/

/-- Whatever error the computation ends in, `P` allows it. -/
def FailsIn (P : ε → Prop) (x : Except ε α) : Prop :=
  ∀ e, x = .error e → P e

variable {P : ε → Prop}

@[simp] theorem failsIn_ok : FailsIn P (.ok a : Except ε α) := by
  intro e h
  cases h

@[simp] theorem failsIn_error_iff {e : ε} : FailsIn P (.error e : Except ε α) ↔ P e := by
  constructor
  · intro h
    exact h e rfl
  · intro h e' heq
    cases heq
    exact h

theorem FailsIn.bind {x : Except ε α} {f : α → Except ε β} (hx : FailsIn P x)
    (hf : ∀ a, FailsIn P (f a)) : FailsIn P (x >>= f) := by
  cases x with
  | ok a => exact hf a
  | error e => exact failsIn_error_iff.mpr (hx e rfl)

/-- A check followed by the rest of the computation. -/
theorem FailsIn.unless_throw {c : Prop} [Decidable c] {e : ε} {f : PUnit → Except ε α}
    {x : Except ε α} (he : P e) (hx : FailsIn P x) :
    FailsIn P (if c then throw e >>= f else x) := by
  by_cases h : c
  · rw [if_pos h]
    exact failsIn_error_iff.mpr he
  · rw [if_neg h]
    exact hx

/-- A check that is the end of the computation. -/
theorem FailsIn.last_throw {c : Prop} [Decidable c] {e : ε} {x : Except ε α} (he : P e)
    (hx : FailsIn P x) : FailsIn P (if c then throw e else x) := by
  by_cases h : c
  · rw [if_pos h]
    exact failsIn_error_iff.mpr he
  · rw [if_neg h]
    exact hx

end Checks
