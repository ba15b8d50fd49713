import Mathlib.Data.List.Basic

/-!
# Changes at some keys

A family of values changes at the keys of a list, each value by a relation, and nowhere else.
Steps at different keys add up to one change at all of them.
-/

namespace Pointwise

variable {κ σ : Type}

/-- Related by `R` at the keys, and the same everywhere else. -/
def ChangesAt (keys : List κ) (R : κ → σ → σ → Prop) (f g : κ → σ) : Prop :=
  ∀ k, (k ∈ keys → R k (f k) (g k)) ∧ (k ∉ keys → g k = f k)

variable {keys : List κ} {R S : κ → σ → σ → Prop} {f g h : κ → σ} {k : κ}

theorem ChangesAt.refl (R : κ → σ → σ → Prop) (f : κ → σ) : ChangesAt [] R f f :=
  fun _ => ⟨fun hmem => absurd hmem List.not_mem_nil, fun _ => rfl⟩

theorem ChangesAt.of_nil (hchange : ChangesAt [] R f g) : g = f :=
  funext fun k => (hchange k).2 List.not_mem_nil

theorem ChangesAt.related (hchange : ChangesAt keys R f g) (hk : k ∈ keys) : R k (f k) (g k) :=
  (hchange k).1 hk

theorem ChangesAt.kept (hchange : ChangesAt keys R f g) (hk : k ∉ keys) : g k = f k :=
  (hchange k).2 hk

theorem ChangesAt.mono (hchange : ChangesAt keys R f g)
    (hR : ∀ k ∈ keys, R k (f k) (g k) → S k (f k) (g k)) : ChangesAt keys S f g := by
  intro k
  constructor
  · intro hk
    exact hR k hk (hchange.related hk)
  · exact hchange.kept

/-- Only which keys there are matters. -/
theorem ChangesAt.congr {keys' : List κ} (hchange : ChangesAt keys R f g)
    (hkeys : ∀ k, k ∈ keys' ↔ k ∈ keys) : ChangesAt keys' R f g := by
  intro k
  rw [hkeys k]
  exact hchange k

/-- The keys at which nothing changes can be listed as well. -/
theorem ChangesAt.extend {keys' : List κ} (hchange : ChangesAt keys R f g)
    (hsub : keys ⊆ keys') (hsame : ∀ k ∈ keys', k ∉ keys → R k (f k) (f k)) :
    ChangesAt keys' R f g := by
  intro k
  constructor
  · intro hk
    by_cases hmem : k ∈ keys
    · exact hchange.related hmem
    · rw [hchange.kept hmem]
      exact hsame k hk hmem
  · intro hk
    exact hchange.kept fun hmem => hk (hsub hmem)

/-- One more step, at a new key. -/
theorem ChangesAt.snoc (hchange : ChangesAt keys R f g) (hk : k ∉ keys)
    (hstep : ChangesAt [k] R g h) : ChangesAt (keys ++ [k]) R f h := by
  intro j
  by_cases hj : j = k
  · subst hj
    have hrelated : R j (g j) (h j) := hstep.related List.mem_cons_self
    rw [hchange.kept hk] at hrelated
    exact ⟨fun _ => hrelated, fun hout => absurd (List.mem_append_right _ List.mem_cons_self) hout⟩
  · have hsame : h j = g j := hstep.kept (by simpa using hj)
    rw [hsame]
    constructor
    · intro hmem
      rcases List.mem_append.mp hmem with hold | hnew
      · exact hchange.related hold
      · exact absurd (List.mem_singleton.mp hnew) hj
    · intro hout
      exact hchange.kept fun hold => hout (List.mem_append_left _ hold)

/-- Two changes of one family at the same keys. -/
theorem ChangesAt.compare {T : κ → σ → σ → Prop} (hchange : ChangesAt keys R f g)
    (hother : ChangesAt keys S f h)
    (hT : ∀ k ∈ keys, R k (f k) (g k) → S k (f k) (h k) → T k (g k) (h k)) :
    ChangesAt keys T g h := by
  intro k
  constructor
  · intro hk
    exact hT k hk (hchange.related hk) (hother.related hk)
  · intro hk
    rw [hother.kept hk, hchange.kept hk]

/-- A second change at the same keys. -/
theorem ChangesAt.trans (hchange : ChangesAt keys R f g) (hnext : ChangesAt keys S g h) :
    ChangesAt keys (fun k a c => ∃ b, R k a b ∧ S k b c) f h := by
  intro k
  constructor
  · intro hk
    exact ⟨g k, hchange.related hk, hnext.related hk⟩
  · intro hk
    rw [hnext.kept hk, hchange.kept hk]

end Pointwise
