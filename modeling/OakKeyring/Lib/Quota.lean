import Mathlib.Algebra.BigOperators.Group.Finset.Piecewise
import Mathlib.Algebra.Order.BigOperators.Group.Finset
import Mathlib.Data.Fintype.Basic

/-!
# Words with quotas

Letters fall into classes. A quota says which classes a word may use and how many letters of
each it needs. Such a word exists when the needs fit into its length and some class is allowed.
-/

/-- What a word needs of a class it may use. -/
structure Quota (K : Type) where
  minimum : K → Nat
  allowed : K → Bool
  allowed_of_minimum : ∀ k, 0 < minimum k → allowed k = true

namespace Quota

variable {K A B : Type} [DecidableEq K] {classOf : A → Option K} {q : Quota K} {n : Nat}
  {v w : List A}

/-- How many letters of a class a word has. -/
def count (classOf : A → Option K) (w : List A) (k : K) : Nat :=
  w.countP fun a => decide (classOf a = some k)

theorem count_append (k : K) : count classOf (v ++ w) k = count classOf v k + count classOf w k :=
  List.countP_append

theorem count_replicate {a : A} {k : K} (h : classOf a = some k) (m : Nat) :
    count classOf (List.replicate m a) k = m := by
  simp [count, List.countP_replicate, h]

/-- A word that a quota accepts. -/
structure Meets (classOf : A → Option K) (q : Quota K) (n : Nat) (w : List A) : Prop where
  length_eq : w.length = n
  of_mem : ∀ a ∈ w, ∃ k, classOf a = some k ∧ q.allowed k = true
  minimum_le : ∀ k, q.minimum k ≤ count classOf w k

/-- The order of the letters does not matter. -/
theorem Meets.perm (h : Meets classOf q n v) (hperm : w.Perm v) : Meets classOf q n w where
  length_eq := hperm.length_eq.trans h.length_eq
  of_mem a ha := h.of_mem a (hperm.subset ha)
  minimum_le k := by
    have hcount : count classOf w k = count classOf v k := hperm.countP_eq _
    exact hcount ▸ h.minimum_le k

theorem meets_perm_iff (hperm : w.Perm v) : Meets classOf q n w ↔ Meets classOf q n v :=
  ⟨fun h => h.perm hperm.symm, fun h => h.perm hperm⟩

theorem meets_map_iff {f : B → A} {u : List B} :
    Meets classOf q n (u.map f) ↔ Meets (classOf ∘ f) q n u := by
  have hcount : ∀ k, count classOf (u.map f) k = count (classOf ∘ f) u k := fun k => by
    simp [count, List.countP_map, Function.comp_def]
  constructor
  · intro h
    refine ⟨by simpa using h.length_eq, fun b hb => ?_, fun k => ?_⟩
    · exact h.of_mem (f b) (List.mem_map_of_mem hb)
    · exact hcount k ▸ h.minimum_le k
  · intro h
    refine ⟨by simpa using h.length_eq, fun a ha => ?_, fun k => ?_⟩
    · obtain ⟨b, hb, rfl⟩ := List.mem_map.1 ha
      exact h.of_mem b hb
    · exact (hcount k).symm ▸ h.minimum_le k

/-- What is needed comes first, the rest only has to be allowed. -/
theorem meets_append_iff (hlength : v.length + w.length = n)
    (hallowed : ∀ a ∈ v, ∃ k, classOf a = some k ∧ q.allowed k = true)
    (hminimum : ∀ k, q.minimum k ≤ count classOf v k) :
    Meets classOf q n (v ++ w) ↔ ∀ a ∈ w, ∃ k, classOf a = some k ∧ q.allowed k = true := by
  constructor
  · intro h a ha
    exact h.of_mem a (List.mem_append_right v ha)
  · intro h
    refine ⟨by simpa using hlength, fun a ha => ?_, fun k => ?_⟩
    · exact (List.mem_append.1 ha).elim (hallowed a) (h a)
    · calc q.minimum k ≤ count classOf v k := hminimum k
        _ ≤ count classOf v k + count classOf w k := Nat.le_add_right _ _
        _ = count classOf (v ++ w) k := (count_append k).symm

/-- A letter counts for at most one class. -/
theorem sum_count_le [Fintype K] : ∑ k, count classOf w k ≤ w.length := by
  induction w with
  | nil => simp [count]
  | cons a w ih =>
      have hone : (∑ k, if classOf a = some k then 1 else 0) ≤ 1 := by
        cases classOf a with
        | none => simp
        | some j => simp [Finset.sum_ite_eq]
      calc ∑ k, count classOf (a :: w) k
          = ∑ k, (count classOf w k + if classOf a = some k then 1 else 0) := by
            simp [count, List.countP_cons]
        _ = (∑ k, count classOf w k) + ∑ k, (if classOf a = some k then 1 else 0) :=
            Finset.sum_add_distrib
        _ ≤ w.length + 1 := Nat.add_le_add ih hone

theorem length_eq_sum_count [Fintype K] (h : ∀ a ∈ w, ∃ k, classOf a = some k) :
    w.length = ∑ k, count classOf w k := by
  induction w with
  | nil => simp [count]
  | cons a w ih =>
      obtain ⟨j, hj⟩ := h a List.mem_cons_self
      have hone : (∑ k, if classOf a = some k then 1 else 0) = 1 := by
        simp [hj, Finset.sum_ite_eq]
      calc (a :: w).length = w.length + 1 := List.length_cons
        _ = (∑ k, count classOf w k) + ∑ k, (if classOf a = some k then 1 else 0) := by
            rw [ih fun b hb => h b (List.mem_cons_of_mem a hb), hone]
        _ = ∑ k, (count classOf w k + if classOf a = some k then 1 else 0) :=
            Finset.sum_add_distrib.symm
        _ = ∑ k, count classOf (a :: w) k := by
            simp [count, List.countP_cons]

/-- The first part holds exactly what is needed. -/
theorem meets_exact_append_iff (hlength : v.length + w.length = n)
    (hclass : ∀ a ∈ v, ∃ k, classOf a = some k)
    (hcount : ∀ k, count classOf v k = q.minimum k) :
    Meets classOf q n (v ++ w) ↔ ∀ a ∈ w, ∃ k, classOf a = some k ∧ q.allowed k = true := by
  refine meets_append_iff hlength (fun a ha => ?_) fun k => (hcount k).ge
  obtain ⟨k, hk⟩ := hclass a ha
  have hpos : 0 < count classOf v k :=
    List.countP_pos_iff.2 ⟨a, ha, decide_eq_true hk⟩
  exact ⟨k, hk, q.allowed_of_minimum k (hcount k ▸ hpos)⟩

section Exists

variable [Fintype K]

/-- The letters that a quota needs, one representative for each class. -/
noncomputable def needed (q : Quota K) (letter : K → A) : List A :=
  (Finset.univ.toList.map fun k => List.replicate (q.minimum k) (letter k)).flatten

omit [DecidableEq K] in
theorem length_needed (letter : K → A) : (needed q letter).length = ∑ k, q.minimum k := by
  simp [needed, List.length_flatten, List.map_map, Function.comp_def, Finset.sum_map_toList]

theorem minimum_le_count_needed {letter : K → A} (hletter : ∀ k, classOf (letter k) = some k)
    (k : K) : q.minimum k ≤ count classOf (needed q letter) k := by
  have hmem : List.replicate (q.minimum k) (letter k) ∈
      Finset.univ.toList.map fun k => List.replicate (q.minimum k) (letter k) :=
    List.mem_map.2 ⟨k, by simp, rfl⟩
  calc q.minimum k
      = count classOf (List.replicate (q.minimum k) (letter k)) k :=
        (count_replicate (hletter k) _).symm
    _ ≤ count classOf (needed q letter) k :=
        (List.sublist_flatten_of_mem hmem).countP_le

omit [DecidableEq K] in
theorem allowed_of_mem_needed {letter : K → A} (hletter : ∀ k, classOf (letter k) = some k)
    {a : A} (h : a ∈ needed q letter) : ∃ k, classOf a = some k ∧ q.allowed k = true := by
  simp only [needed, List.mem_flatten, List.mem_map] at h
  obtain ⟨_, ⟨k, -, rfl⟩, ha⟩ := h
  obtain ⟨hpos, rfl⟩ := List.mem_replicate.1 ha
  exact ⟨k, hletter k, q.allowed_of_minimum k (Nat.pos_of_ne_zero hpos)⟩

/-- Where every class has a letter, a word exists as soon as its needs fit. -/
theorem exists_meets_iff {letter : K → A} (hletter : ∀ k, classOf (letter k) = some k) :
    (∃ w, Meets classOf q n w) ↔
      ∑ k, q.minimum k ≤ n ∧ (n = 0 ∨ ∃ k, q.allowed k = true) := by
  constructor
  · intro ⟨w, h⟩
    constructor
    · calc ∑ k, q.minimum k ≤ ∑ k, count classOf w k :=
            Finset.sum_le_sum fun k _ => h.minimum_le k
        _ ≤ w.length := sum_count_le
        _ = n := h.length_eq
    · cases w with
      | nil => exact Or.inl h.length_eq.symm
      | cons a w =>
          obtain ⟨k, -, hk⟩ := h.of_mem a List.mem_cons_self
          exact Or.inr ⟨k, hk⟩
  · intro ⟨hsum, hsome⟩
    rcases hsome with hzero | ⟨k, hk⟩
    · refine ⟨needed q letter, ?_, fun a ha => allowed_of_mem_needed hletter ha,
        minimum_le_count_needed hletter⟩
      have hlength : (needed q letter).length = ∑ k, q.minimum k := length_needed letter
      omega
    · refine ⟨needed q letter ++ List.replicate (n - ∑ k, q.minimum k) (letter k), ?_⟩
      have hlength : (needed q letter).length = ∑ k, q.minimum k := length_needed letter
      refine (meets_append_iff ?_ (fun a ha => allowed_of_mem_needed hletter ha)
        (minimum_le_count_needed hletter)).2 fun a ha => ?_
      · rw [List.length_replicate, hlength]
        omega
      · exact ⟨k, (List.mem_replicate.1 ha).2 ▸ hletter k, hk⟩

end Exists

end Quota
