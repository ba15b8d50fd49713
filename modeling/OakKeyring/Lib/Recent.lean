import Mathlib.Data.List.Nodup
import Mathlib.Data.List.Sort

/-!
# The most recent elements of a list

A list that grows at its end and is kept short at its front, and what it looks like when it is
read by a key that is meant to tell the order in which the elements came.
-/

namespace Recent

variable {α β : Type}

/-- The last `n` elements. -/
def recent (n : Nat) (xs : List α) : List α :=
  xs.drop (xs.length - n)

theorem length_recent (n : Nat) (xs : List α) : (recent n xs).length = min xs.length n := by
  unfold recent
  rw [List.length_drop]
  omega

/-- Read from its end, a list begins with its most recent elements. -/
theorem reverse_recent (n : Nat) (xs : List α) : (recent n xs).reverse = xs.reverse.take n := by
  unfold recent
  rw [List.take_reverse]

/-- A new element displaces the first one of those that were kept, if there are `n` of them. -/
theorem recent_concat {n : Nat} (hn : 0 < n) (xs : List α) (x : α) :
    recent n (xs ++ [x]) =
      (if (recent n xs).length < n then recent n xs else (recent n xs).tail) ++ [x] := by
  have hlength := length_recent n xs
  unfold recent at hlength ⊢
  rw [List.length_append, List.length_singleton]
  by_cases hshort : xs.length < n
  · have hall : xs.length - n = 0 := by omega
    have hall' : xs.length + 1 - n = 0 := by omega
    rw [hall, hall', if_pos (by simpa using hshort)]
    rfl
  · have hnext : xs.length + 1 - n = (xs.length - n) + 1 := by omega
    have hfull : ¬ (xs.drop (xs.length - n)).length < n := by omega
    rw [hnext, if_neg hfull, List.tail_drop, List.drop_append_of_le_length (by omega)]

/-- The last element is among the most recent ones. -/
theorem getLast?_recent {n : Nat} (hn : 0 < n) (xs : List α) :
    (recent n xs).getLast? = xs.getLast? := by
  rw [← List.head?_reverse, reverse_recent, List.head?_take, if_neg (by omega), List.head?_reverse]

/-- Lists that agree element by element agree in their last ones. -/
theorem last_of_forall₂ {R : α → β → Prop} {xs : List α} {ys : List β} {x : α}
    (h : List.Forall₂ R xs ys) (hlast : xs.getLast? = some x) :
    ∃ y, ys.getLast? = some y ∧ R x y := by
  have hreverse : List.Forall₂ R xs.reverse ys.reverse := List.rel_reverse h
  rw [← List.head?_reverse] at hlast
  rw [← List.head?_reverse]
  generalize xs.reverse = us at hreverse hlast
  generalize ys.reverse = vs at hreverse
  cases hreverse with
  | nil => cases hlast
  | cons hfirst hrest =>
      cases hlast
      exact ⟨_, rfl, hfirst⟩

section Keyed

variable {κ : Type} [LinearOrder κ] {key : α → κ}

/-- The elements came with growing keys. -/
def Growing (key : α → κ) (xs : List α) : Prop :=
  xs.Pairwise fun a b => key a < key b

/-- The elements of a list, those with the greatest keys first. -/
structure NewestFirst (key : α → κ) (xs ys : List α) : Prop where
  perm : ys.Perm xs
  ordered : ys.Pairwise fun a b => key b ≤ key a

theorem Growing.tail {xs : List α} (h : Growing key xs) : Growing key xs.tail :=
  List.Pairwise.sublist (List.tail_sublist xs) h

theorem growing_concat {xs : List α} {x : α} (h : Growing key xs)
    (hlater : ∀ y ∈ xs, key y < key x) : Growing key (xs ++ [x]) := by
  refine List.pairwise_append.mpr ⟨h, List.pairwise_singleton _ _, ?_⟩
  intro y hy z hz
  rw [List.mem_singleton.mp hz]
  exact hlater y hy

/-- With growing keys, the order by key is the order in which the elements came. -/
theorem NewestFirst.eq_reverse {xs ys : List α} (h : NewestFirst key xs ys)
    (hgrowing : Growing key xs) : ys = xs.reverse := by
  have hreverse : xs.reverse.Pairwise fun a b => key b < key a := List.pairwise_reverse.mpr hgrowing
  refine (h.perm.trans (List.reverse_perm xs).symm).eq_of_pairwise ?_ h.ordered
    (hreverse.imp le_of_lt)
  intro a b ha hb hle hge
  -- two elements with one key are the same
  have hkeys : (xs.map key).Nodup := by
    refine List.pairwise_map.mpr (hgrowing.imp ?_)
    intro a b hlt
    exact ne_of_lt hlt
  have ha' : a ∈ xs := h.perm.mem_iff.mp ha
  have hb' : b ∈ xs := List.mem_reverse.mp hb
  exact List.inj_on_of_nodup_map hkeys ha' hb' (le_antisymm hge hle)

/-- The first of growing keys is the least. -/
theorem Growing.cons_of_least {xs : List α} {x : α} (h : Growing key xs) (hx : x ∈ xs)
    (hleast : ∀ y ∈ xs, ¬ key y < key x) : xs = x :: xs.tail := by
  cases xs with
  | nil => cases hx
  | cons y ys =>
      rcases List.mem_cons.mp hx with heq | hmem
      · rw [heq]
        rfl
      · have hlt : key y < key x := (List.pairwise_cons.mp h).1 x hmem
        exact absurd hlt (hleast y List.mem_cons_self)

/-- The last of growing keys is the greatest. -/
theorem Growing.le_last {xs : List α} {x : α} (h : Growing key xs)
    (hlast : xs.getLast? = some x) : ∀ y ∈ xs, key y ≤ key x := by
  rcases List.getLast?_eq_some_iff.mp hlast with ⟨before, hxs⟩
  rw [hxs] at h ⊢
  intro y hy
  rcases List.mem_append.mp hy with hbefore | hend
  · exact le_of_lt ((List.pairwise_append.mp h).2.2 y hbefore x (List.mem_singleton_self x))
  · rw [List.mem_singleton.mp hend]

/-- An element that no other one is newer than may come first. -/
theorem exists_newestFirst {xs : List α} {x : α} (hx : x ∈ xs) (hnewest : ∀ y ∈ xs, key y ≤ key x) :
    ∃ ys, NewestFirst key xs (x :: ys) := by
  classical
  rcases List.append_of_mem hx with ⟨before, after, hxs⟩
  let rest := (before ++ after).mergeSort fun a b => decide (key b ≤ key a)
  have hperm : rest.Perm (before ++ after) := List.mergeSort_perm _ _
  refine ⟨rest, ?_, ?_⟩
  · rw [hxs]
    exact (hperm.cons x).trans List.perm_middle.symm
  · refine List.pairwise_cons.mpr ⟨?_, ?_⟩
    · intro y hy
      refine hnewest y ?_
      rw [hxs]
      have hmem := hperm.mem_iff.mp hy
      simp only [List.mem_append, List.mem_cons] at hmem ⊢
      tauto
    · have hsorted : rest.Pairwise fun a b => decide (key b ≤ key a) = true :=
        List.pairwise_mergeSort ?_ ?_ (before ++ after)
      · exact hsorted.imp fun h => of_decide_eq_true h
      · intro a b c hab hbc
        have hab := of_decide_eq_true hab
        have hbc := of_decide_eq_true hbc
        exact decide_eq_true (hbc.trans hab)
      · intro a b
        rcases le_total (key b) (key a) with hle | hle
        · simp [hle]
        · simp [hle]

end Keyed

end Recent
