import Mathlib.Data.List.Basic

/-!
# Streams that arrive in chunks

A reader that asks for a number of elements takes them from as many chunks as it needs, and leaves
the rest of the last one for the next reader. What it reads depends on the stream alone, not on
how it was cut.
-/

namespace Chunked

variable {A : Type}

/-- What one read delivers: at least one element. -/
abbrev Chunk (A : Type) :=
  { xs : List A // xs ≠ [] }

/-- The stream that the chunks are cut from. -/
def stream (cs : List (Chunk A)) : List A :=
  cs.flatMap (·.1)

@[simp] theorem stream_nil : stream ([] : List (Chunk A)) = [] := rfl

@[simp] theorem stream_cons (c : Chunk A) (cs : List (Chunk A)) :
    stream (c :: cs) = c.1 ++ stream cs := rfl

/-- A stream as one chunk. -/
def whole (xs : List A) : List (Chunk A) :=
  match xs with
  | [] => []
  | x :: xs => [⟨x :: xs, List.cons_ne_nil x xs⟩]

@[simp] theorem stream_whole (xs : List A) : stream (whole xs) = xs := by
  cases xs with
  | nil => rfl
  | cons x xs => simp [whole]

/-- Reads a number of elements exactly; without success when the stream ends before. -/
def readExact (n : Nat) : List (Chunk A) → Option (List A) × List (Chunk A)
  | [] => (if n = 0 then some [] else none, [])
  | c :: cs =>
      if n = 0 then (some [], c :: cs)
      else if h : n < c.1.length then
        (some (c.1.take n), ⟨c.1.drop n, List.ne_nil_of_length_pos (by
          rw [List.length_drop]
          omega)⟩ :: cs)
      else
        let (read, rest) := readExact (n - c.1.length) cs
        (read.map fun xs => c.1 ++ xs, rest)

theorem readExact_of_le {n : Nat} {cs : List (Chunk A)} (h : n ≤ (stream cs).length) :
    ∃ rest, readExact n cs = (some ((stream cs).take n), rest) ∧
      stream rest = (stream cs).drop n := by
  induction cs generalizing n with
  | nil =>
      have hzero : n = 0 := by simpa using h
      exact ⟨[], by simp [readExact, hzero], by simp⟩
  | cons c cs ih =>
      by_cases hzero : n = 0
      · exact ⟨c :: cs, by simp [readExact, hzero], by simp [hzero]⟩
      by_cases hlt : n < c.1.length
      · refine ⟨⟨c.1.drop n, List.ne_nil_of_length_pos (by
          rw [List.length_drop]
          omega)⟩ :: cs, ?_, ?_⟩
        · simp [readExact, hzero, hlt, List.take_append_of_le_length (Nat.le_of_lt hlt)]
        · simp [List.drop_append_of_le_length (Nat.le_of_lt hlt)]
      · have hrest : n - c.1.length ≤ (stream cs).length := by
          rw [stream_cons, List.length_append] at h
          omega
        obtain ⟨rest, hread, hstream⟩ := ih hrest
        refine ⟨rest, ?_, ?_⟩
        · simp only [readExact, hzero, if_false, hlt, dif_neg, not_false_iff, hread,
            Option.map_some, stream_cons]
          rw [List.take_append, List.take_of_length_le (Nat.not_lt.1 hlt)]
        · rw [hstream, stream_cons, List.drop_append, List.drop_of_length_le (Nat.not_lt.1 hlt),
            List.nil_append]

theorem readExact_of_lt {n : Nat} {cs : List (Chunk A)} (h : (stream cs).length < n) :
    readExact n cs = (none, []) := by
  induction cs generalizing n with
  | nil =>
      have hne : n ≠ 0 := by
        simp only [stream_nil, List.length_nil] at h
        omega
      simp [readExact, hne]
  | cons c cs ih =>
      rw [stream_cons, List.length_append] at h
      have hzero : n ≠ 0 := by omega
      have hlt : ¬ n < c.1.length := by omega
      have hrest := ih (show (stream cs).length < n - c.1.length by omega)
      simp [readExact, hzero, hlt, hrest]

end Chunked
