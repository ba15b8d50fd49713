import Mathlib.Algebra.Order.BigOperators.Group.Finset
import Mathlib.Data.List.Basic

/-!
# Instants that keep their distance

A list of instants in which each is a given distance after the one before it. The distances add
up between any two of them, so few fit into a span of time.
-/

namespace Spacing

/-- The `i + 1`st instant is at least `gap (i + 1)` after the `i`th. -/
def Spaced (gap : Nat → Nat) (ts : List Nat) : Prop :=
  ∀ (i a b : Nat), ts[i]? = some a → ts[i + 1]? = some b → a + gap (i + 1) ≤ b

variable {gap : Nat → Nat} {ts : List Nat} {a b : Nat}

theorem spaced_nil : Spaced gap [] :=
  fun _ _ _ h => by simp at h

/-- One more instant, far enough after the last. -/
theorem Spaced.concat (h : Spaced gap ts)
    (hlast : ∀ a, ts.getLast? = some a → a + gap ts.length ≤ b) : Spaced gap (ts ++ [b]) := by
  intro i x y hx hy
  have hbound : i + 1 < ts.length + 1 := by
    have hlt := (List.getElem?_eq_some_iff.mp hy).1
    simpa using hlt
  have hx' : ts[i]? = some x := by
    rwa [List.getElem?_append_left (by omega)] at hx
  by_cases hi : i + 1 < ts.length
  · rw [List.getElem?_append_left hi] at hy
    exact h i x y hx' hy
  · have hlen : ts.length = i + 1 := by omega
    have hy' : y = b := by
      rw [← hlen, List.getElem?_concat_length] at hy
      exact (Option.some.inj hy).symm
    rw [hy', ← hlen]
    apply hlast
    rw [List.getLast?_eq_getElem?, hlen, Nat.add_sub_cancel]
    exact hx'

/-- The distances between two instants add up. -/
theorem Spaced.sum_le (h : Spaced gap ts) {i d : Nat} (ha : ts[i]? = some a)
    (hb : ts[i + d]? = some b) : a + ∑ m ∈ Finset.range d, gap (i + m + 1) ≤ b := by
  induction d generalizing b with
  | zero =>
      rw [Nat.add_zero, ha] at hb
      simp [Option.some.inj hb]
  | succ d ih =>
      have hlt : i + d < ts.length := by
        have hlt := (List.getElem?_eq_some_iff.mp hb).1
        omega
      have hc : ts[i + d]? = some ts[i + d] := List.getElem?_eq_getElem hlt
      have hfirst := ih hc
      have hnext := h (i + d) _ b hc hb
      calc
        a + ∑ m ∈ Finset.range (d + 1), gap (i + m + 1)
            = (a + ∑ m ∈ Finset.range d, gap (i + m + 1)) + gap (i + d + 1) := by
              rw [Finset.sum_range_succ, ← Nat.add_assoc]
        _ ≤ ts[i + d] + gap (i + d + 1) := Nat.add_le_add_right hfirst _
        _ ≤ b := hnext

/-- When all distances beyond the `k`th are `c` or more, the instants beyond it take up that much
time each. -/
theorem Spaced.length_le {c k low high : Nat} (h : Spaced gap ts)
    (hgap : ∀ m, k < m → m < ts.length → c ≤ gap m) (hlow : ∀ t ∈ ts, low ≤ t)
    (hhigh : ∀ t ∈ ts, t ≤ high) : low + (ts.length - (k + 1)) * c ≤ max low high := by
  by_cases hk : ts.length ≤ k + 1
  · simp [Nat.sub_eq_zero_of_le hk]
  · have hlt : k < ts.length := by omega
    have hend : k + (ts.length - (k + 1)) < ts.length := by omega
    have hsum := h.sum_le (List.getElem?_eq_getElem hlt) (List.getElem?_eq_getElem hend)
    have hterms : (ts.length - (k + 1)) * c ≤
        ∑ m ∈ Finset.range (ts.length - (k + 1)), gap (k + m + 1) := by
      have hcard := Finset.card_nsmul_le_sum (Finset.range (ts.length - (k + 1)))
        (fun m => gap (k + m + 1)) c fun m hm => by
          have hm' := Finset.mem_range.mp hm
          exact hgap _ (by omega) (by omega)
      simpa using hcard
    calc
      low + (ts.length - (k + 1)) * c
          ≤ ts[k] + ∑ m ∈ Finset.range (ts.length - (k + 1)), gap (k + m + 1) :=
            Nat.add_le_add (hlow _ (List.getElem_mem hlt)) hterms
      _ ≤ ts[k + (ts.length - (k + 1))] := hsum
      _ ≤ high := hhigh _ (List.getElem_mem hend)
      _ ≤ max low high := Nat.le_max_right low high

end Spacing
