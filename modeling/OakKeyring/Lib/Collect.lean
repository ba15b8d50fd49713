import Mathlib.Data.List.AList

/-!
# Collecting into an association list

A loop that inserts some of its elements' values under their keys, the last one winning.
-/

namespace AList

variable {K A V : Type} [DecidableEq K]

/-- Inserts the value of each element that has one. -/
def collect (f : K × A → Option V) (xs : List (K × A)) (m : AList fun _ : K => V) :
    AList fun _ : K => V :=
  xs.foldl (fun m x =>
    match f x with
    | some v => m.insert x.1 v
    | none => m) m

variable {f : K × A → Option V} {xs : List (K × A)} {m : AList fun _ : K => V} {k : K} {v : V}

@[simp] theorem collect_nil : collect f [] m = m := rfl

theorem collect_cons_some {x : K × A} (h : f x = some v) :
    collect f (x :: xs) m = collect f xs (m.insert x.1 v) := by
  simp [collect, h]

theorem collect_cons_none {x : K × A} (h : f x = none) :
    collect f (x :: xs) m = collect f xs m := by
  simp [collect, h]

/-- A value found was there before, or an element put it there. -/
theorem lookup_collect (h : (collect f xs m).lookup k = some v) :
    m.lookup k = some v ∨ ∃ x ∈ xs, x.1 = k ∧ f x = some v := by
  induction xs generalizing m with
  | nil => exact Or.inl h
  | cons x xs ih =>
      cases hx : f x with
      | none =>
          rw [collect_cons_none hx] at h
          rcases ih h with hold | ⟨y, hy, hk, hv⟩
          · exact Or.inl hold
          · exact Or.inr ⟨y, List.mem_cons_of_mem _ hy, hk, hv⟩
      | some w =>
          rw [collect_cons_some hx] at h
          rcases ih h with hold | ⟨y, hy, hk, hv⟩
          · by_cases hk : k = x.1
            · subst hk
              rw [lookup_insert] at hold
              exact Or.inr ⟨x, List.mem_cons_self, rfl, hx.trans hold⟩
            · rw [lookup_insert_ne hk] at hold
              exact Or.inl hold
          · exact Or.inr ⟨y, List.mem_cons_of_mem _ hy, hk, hv⟩

theorem isSome_lookup_collect_of_isSome (h : (m.lookup k).isSome = true) :
    ((collect f xs m).lookup k).isSome = true := by
  induction xs generalizing m with
  | nil => exact h
  | cons x xs ih =>
      cases hx : f x with
      | none =>
          rw [collect_cons_none hx]
          exact ih h
      | some w =>
          rw [collect_cons_some hx]
          apply ih
          by_cases hk : k = x.1
          · subst hk
            simp
          · rw [lookup_insert_ne hk]
            exact h

theorem isSome_lookup_collect_of_mem {x : K × A} (hx : x ∈ xs)
    (h : (f x).isSome = true) : ((collect f xs m).lookup x.1).isSome = true := by
  induction xs generalizing m with
  | nil => cases hx
  | cons y xs ih =>
      rcases List.mem_cons.mp hx with rfl | hx
      · rcases Option.isSome_iff_exists.mp h with ⟨v, hv⟩
        rw [collect_cons_some hv]
        exact isSome_lookup_collect_of_isSome (by simp)
      · cases hy : f y with
        | none =>
            rw [collect_cons_none hy]
            exact ih hx
        | some w =>
            rw [collect_cons_some hy]
            exact ih hx

/-- Started from nothing, a key has a value exactly when some element gives it one. -/
theorem isSome_lookup_collect_empty :
    ((collect f xs ∅).lookup k).isSome = true ↔
      ∃ x ∈ xs, x.1 = k ∧ (f x).isSome = true := by
  constructor
  · intro h
    rcases Option.isSome_iff_exists.mp h with ⟨v, hv⟩
    rcases lookup_collect hv with hold | ⟨x, hx, hk, hfx⟩
    · simp at hold
    · exact ⟨x, hx, hk, by simp [hfx]⟩
  · rintro ⟨x, hx, rfl, h⟩
    exact isSome_lookup_collect_of_mem hx h

end AList
