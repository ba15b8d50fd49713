import Mathlib.Data.List.Basic

/-!
# Replacing matches

A text is read from left to right. Where a match begins, something else is written for it, and
the reading goes on behind the match.
-/

namespace Replacing

variable {α : Type} {find : List α → Option (Nat × List α)} {text before after after' : List α}
  {a : α}

/-- The first place of a symbol cuts a text in one way. -/
theorem eq_of_append_cons {front front' rest rest' : List α} (hfront : a ∉ front)
    (hfront' : a ∉ front') (h : front ++ a :: rest = front' ++ a :: rest') : front = front' := by
  induction front generalizing front' with
  | nil =>
      cases front' with
      | nil => rfl
      | cons b front' =>
          rw [List.nil_append, List.cons_append, List.cons.injEq] at h
          exact absurd (h.1 ▸ List.mem_cons_self) hfront'
  | cons b front ih =>
      cases front' with
      | nil =>
          rw [List.nil_append, List.cons_append, List.cons.injEq] at h
          exact absurd (h.1 ▸ List.mem_cons_self) hfront
      | cons d front' =>
          rw [List.cons_append, List.cons_append, List.cons.injEq] at h
          have hrest := ih (fun hmem => hfront (List.mem_cons_of_mem b hmem))
            (fun hmem => hfront' (List.mem_cons_of_mem d hmem)) h.2
          rw [h.1, hrest]

/-- `find` gives the length of the match at the front of a text and what is written for it. The
first symbols may be left out: they belong to a match. -/
def replaceFrom (find : List α → Option (Nat × List α)) : Nat → List α → List α
  | _, [] => []
  | skip + 1, _ :: text => replaceFrom find skip text
  | 0, a :: text =>
      match find (a :: text) with
      | some (n, new) => new ++ replaceFrom find (n - 1) text
      | none => a :: replaceFrom find 0 text

def replaceAll (find : List α → Option (Nat × List α)) (text : List α) : List α :=
  replaceFrom find 0 text

theorem replaceFrom_eq (skip : Nat) (text : List α) :
    replaceFrom find skip text = replaceAll find (text.drop skip) := by
  induction skip generalizing text with
  | zero => rfl
  | succ skip ih =>
      cases text with
      | nil => rfl
      | cons a text => exact ih text

theorem replaceAll_of_none (h : find (a :: text) = none) :
    replaceAll find (a :: text) = a :: replaceAll find text := by
  simp [replaceAll, replaceFrom, h]

theorem replaceAll_of_some {n : Nat} {new : List α} (hne : text ≠ []) (hpos : 0 < n)
    (h : find text = some (n, new)) :
    replaceAll find text = new ++ replaceAll find (text.drop n) := by
  cases text with
  | nil => exact absurd rfl hne
  | cons a text =>
      have hdrop : (a :: text).drop n = text.drop (n - 1) := by
        cases n with
        | zero => cases hpos
        | succ n => rfl
      rw [hdrop, ← replaceFrom_eq]
      simp [replaceAll, replaceFrom, h]

/-- A text without a match stays as it is. -/
theorem replaceAll_eq_self
    (h : ∀ before a after, text = before ++ a :: after → find (a :: after) = none) :
    replaceAll find text = text := by
  induction text with
  | nil => rfl
  | cons a text ih =>
      rw [replaceAll_of_none (h [] a text rfl)]
      congr 1
      apply ih
      intro before b after htext
      exact h (a :: before) b after (by rw [htext]; rfl)

/-! ## Texts that differ inside a match -/

/-- What may be found in two texts that share their first symbols: no match begins here, one ends
before the difference, or one reaches over it. -/
inductive Agree (find : List α → Option (Nat × List α)) (text text' : List α) (shared : Nat) :
    Prop
  | quiet (hshared : 0 < shared) (h : find text = none) (h' : find text' = none)
  | inside {n : Nat} {new : List α} (hpos : 0 < n) (hle : n ≤ shared)
      (h : find text = some (n, new)) (h' : find text' = some (n, new))
  | across {n n' : Nat} {new : List α} (hpos : 0 < n) (hpos' : 0 < n')
      (h : find text = some (n, new)) (h' : find text' = some (n', new))
      (hrest : text.drop n = text'.drop n')

/-- Two ends that agree behind every beginning cannot be told apart once matches are replaced. -/
theorem replaceAll_congr (hne : after ≠ []) (hne' : after' ≠ [])
    (hagree : ∀ before, Agree find (before ++ after) (before ++ after') before.length) :
    replaceAll find (before ++ after) = replaceAll find (before ++ after') := by
  -- the induction is on the length of what is left before the difference
  induction hlength : before.length using Nat.strongRecOn generalizing before with
  | ind length ih =>
      have htext : before ++ after ≠ [] := by simp [hne]
      have htext' : before ++ after' ≠ [] := by simp [hne']
      cases hagree before with
      | quiet hshared h h' =>
          -- nothing is found here, so one element is passed over in both texts
          cases before with
          | nil => cases hshared
          | cons a before =>
              have hshort : before.length < length := by
                rw [← hlength]
                exact Nat.lt_succ_self _
              calc
                replaceAll find (a :: before ++ after)
                    = a :: replaceAll find (before ++ after) := replaceAll_of_none h
                _ = a :: replaceAll find (before ++ after') := by rw [ih _ hshort rfl]
                _ = replaceAll find (a :: before ++ after') := (replaceAll_of_none h').symm
      | @inside n new hpos hle h h' =>
          -- what is found ends before the difference
          have hshort : (before.drop n).length < length := by
            rw [List.length_drop]
            omega
          calc
            replaceAll find (before ++ after)
                = new ++ replaceAll find (before.drop n ++ after) := by
                  rw [replaceAll_of_some htext hpos h, List.drop_append_of_le_length hle]
            _ = new ++ replaceAll find (before.drop n ++ after') := by rw [ih _ hshort rfl]
            _ = replaceAll find (before ++ after') := by
                  rw [replaceAll_of_some htext' hpos h', List.drop_append_of_le_length hle]
      | across hpos hpos' h h' hrest =>
          rw [replaceAll_of_some htext hpos h, replaceAll_of_some htext' hpos' h', hrest]

end Replacing
