import Mathlib.Data.List.Basic
import Mathlib.Algebra.Group.Nat.Defs

/-!
# Programs that may panic

A program ends with a value or an error, or it panics: an index or a slice was out of range, a
subtraction fell below zero, or a copy did not fit. The rules say when the checks of the language
pass.
-/

namespace Effect

variable {ε α β A : Type}

/-- Programs that may stop with an error, or panic. -/
abbrev Checked (ε : Type) :=
  ExceptT ε Option

namespace Checked

/-- How a program ends, where it does not panic. -/
def exec (p : Checked ε α) : Option (Except ε α) :=
  p.run

def panics : Checked ε α :=
  ExceptT.mk none

/-- A slice from a position up to another. -/
def slice (xs : List A) (start stop : Nat) : Checked ε (List A) :=
  if start ≤ stop ∧ stop ≤ xs.length then pure ((xs.take stop).drop start) else panics

/-- A subtraction of unsigned numbers. -/
def sub (a b : Nat) : Checked ε Nat :=
  if b ≤ a then pure (a - b) else panics

/-- An addition of 64 bits. -/
def add (a b : Nat) : Checked ε Nat :=
  if a + b < 2 ^ 64 then pure (a + b) else panics

def index (xs : List A) (i : Nat) : Checked ε A :=
  match xs[i]? with
  | some x => pure x
  | none => panics

/-- Bytes of a fixed length, as `copy_from_slice` and the arrays of the crates demand. -/
def sized (n : Nat) (xs : List A) : Checked ε { ys : List A // ys.length = n } :=
  if h : xs.length = n then pure ⟨xs, h⟩ else panics

@[simp] theorem exec_pure (a : α) : exec (pure a : Checked ε α) = some (.ok a) := rfl

@[simp] theorem exec_throw (e : ε) : exec (throw e : Checked ε α) = some (.error e) := rfl

theorem exec_bind (p : Checked ε α) (f : α → Checked ε β) :
    exec (p >>= f) = (exec p).bind fun
      | .ok a => exec (f a)
      | .error e => some (.error e) := rfl

@[simp] theorem throw_bind (e : ε) (f : α → Checked ε β) :
    (throw e : Checked ε α) >>= f = throw e := rfl

theorem slice_eq (xs : List A) {start stop : Nat} (h : start ≤ stop ∧ stop ≤ xs.length) :
    (slice xs start stop : Checked ε (List A)) = pure ((xs.take stop).drop start) :=
  if_pos h

theorem sub_eq {a b : Nat} (h : b ≤ a) : (sub a b : Checked ε Nat) = pure (a - b) :=
  if_pos h

theorem add_eq {a b : Nat} (h : a + b < 2 ^ 64) : (add a b : Checked ε Nat) = pure (a + b) :=
  if_pos h

theorem sized_eq {n : Nat} {xs : List A} (h : xs.length = n) :
    (sized n xs : Checked ε { ys : List A // ys.length = n }) = pure ⟨xs, h⟩ :=
  dif_pos h

end Checked

end Effect
