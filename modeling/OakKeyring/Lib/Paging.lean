import Mathlib.Data.List.Pairwise
import Mathlib.Data.List.Sort

/-!
# Pages of a sorted list

A list that is asked for page by page is sorted anew for every page. When no two different
elements are equivalent in the order, the rows have one sorted list only, and the pages are the
pieces of it.
-/

namespace Paging

variable {α : Type}

/-- The page with the number `k`, of `n` rows. -/
def page (n : Nat) (rows : List α) (k : Nat) : List α :=
  (rows.drop (k * n)).take n

/-- The first pages, one after another. -/
def pages (n : Nat) (rows : List α) (count : Nat) : List (List α) :=
  (List.range count).map (page n rows)

theorem flatten_pages (n : Nat) (rows : List α) (count : Nat) :
    (pages n rows count).flatten = rows.take (count * n) := by
  unfold pages
  induction count with
  | zero => simp
  | succ count ih =>
      have hsplit : (count + 1) * n = count * n + n := Nat.succ_mul count n
      have hlast : ((List.range (count + 1)).map (page n rows)).flatten =
          ((List.range count).map (page n rows)).flatten ++ page n rows count := by
        simp [List.range_succ]
      calc ((List.range (count + 1)).map (page n rows)).flatten
          = rows.take (count * n) ++ page n rows count := by rw [hlast, ih]
        _ = rows.take ((count + 1) * n) := by rw [hsplit, List.take_add]; rfl

/-- Enough pages have every row. -/
theorem flatten_pages_all {n count : Nat} {rows : List α} (h : rows.length ≤ count * n) :
    (pages n rows count).flatten = rows := by
  rw [flatten_pages, List.take_of_length_le h]

/-! ## Sorting by a comparison -/

variable {cmp : α → α → Ordering}

/-- In ascending order. -/
def InOrder (cmp : α → α → Ordering) (rows : List α) : Prop :=
  rows.Pairwise fun a b => (cmp a b).isLE = true

/-- A comparison that tells the rows of a list apart leaves one order for them. -/
theorem InOrder.unique [Std.OrientedCmp cmp] {rows rows' : List α} (hperm : rows.Perm rows')
    (hrows : InOrder cmp rows) (hrows' : InOrder cmp rows')
    (hapart : ∀ a ∈ rows, ∀ b ∈ rows, cmp a b = .eq → a = b) : rows = rows' := by
  apply hperm.eq_of_pairwise _ hrows hrows'
  intro a b ha hb hle hge
  apply hapart a ha b (hperm.mem_iff.mpr hb)
  have hswap : cmp b a = (cmp a b).swap := Std.OrientedCmp.eq_swap
  rw [hswap] at hge
  cases hab : cmp a b with
  | lt =>
      rw [hab] at hge
      cases hge
  | eq => rfl
  | gt =>
      rw [hab] at hle
      cases hle

def sorted (cmp : α → α → Ordering) (rows : List α) : List α :=
  rows.mergeSort fun a b => (cmp a b).isLE

theorem sorted_perm (rows : List α) : (sorted cmp rows).Perm rows :=
  List.mergeSort_perm rows _

theorem inOrder_sorted [Std.TransCmp cmp] (rows : List α) : InOrder cmp (sorted cmp rows) := by
  apply List.pairwise_mergeSort
  · intro a b c hab hbc
    exact Std.TransCmp.isLE_trans hab hbc
  · intro a b
    have hswap : cmp b a = (cmp a b).swap := Std.OrientedCmp.eq_swap
    rw [hswap]
    cases cmp a b <;> rfl

/-- Sorting keeps the order of two elements that need not be exchanged. -/
theorem sublist_sorted [Std.TransCmp cmp] {rows : List α} {a b : α} (hle : (cmp a b).isLE = true)
    (h : List.Sublist [a, b] rows) : List.Sublist [a, b] (sorted cmp rows) := by
  apply List.pair_sublist_mergeSort _ _ hle h
  · intro a b c hab hbc
    exact Std.TransCmp.isLE_trans hab hbc
  · intro a b
    have hswap : cmp b a = (cmp a b).swap := Std.OrientedCmp.eq_swap
    rw [hswap]
    cases cmp a b <;> rfl

/-- Rows that were collected against the order have their reverse as the only sorted list exactly
when no two of them tie. The key tells in which order they were collected. -/
theorem eq_reverse_iff [Std.TransCmp cmp] {rows : List α} {key : α → Nat}
    (hkey : rows.Pairwise fun a b => key a < key b)
    (hback : rows.Pairwise fun a b => (cmp b a).isLE = true) :
    (∀ rows' : List α, rows'.Perm rows → InOrder cmp rows' → rows' = rows.reverse) ↔
      rows.Pairwise fun a b => cmp a b ≠ .eq := by
  constructor
  · intro honly
    rw [List.pairwise_iff_forall_sublist] at hkey ⊢
    intro a b hab htie
    -- the stable sort leaves a pair that ties as it was collected
    have hsorted : sorted cmp rows = rows.reverse :=
      honly _ (sorted_perm rows) (inOrder_sorted rows)
    have hstable : List.Sublist [a, b] (sorted cmp rows) :=
      sublist_sorted (by rw [htie]; rfl) hab
    have hback : List.Sublist [b, a] rows := by
      rw [hsorted] at hstable
      simpa using hstable.reverse
    exact absurd (hkey hab) (not_lt.mpr (hkey hback).le)
  · intro hapart rows' hperm horder
    have hreverse : InOrder cmp rows.reverse := List.pairwise_reverse.mpr hback
    apply horder.unique (hperm.trans (List.reverse_perm rows).symm) hreverse
    intro a ha b hb htie
    by_contra hne
    have hsymm : Std.Symm fun x y : α => cmp x y ≠ .eq :=
      { symm := fun x y hxy hyx => hxy (Std.OrientedCmp.eq_comm.mp hyx) }
    exact hapart.forall (hperm.mem_iff.mp ha) (hperm.mem_iff.mp hb) hne htie

/-- A rearrangement of images is the image of a rearrangement. -/
theorem exists_map_of_perm {β : Type} {f : α → β} {xs : List α} {ys : List β}
    (h : ys.Perm (xs.map f)) : ∃ zs : List α, zs.Perm xs ∧ ys = zs.map f := by
  generalize himage : xs.map f = images at h
  induction h generalizing xs with
  | nil =>
      rw [List.map_eq_nil_iff] at himage
      exact ⟨[], by rw [himage], rfl⟩
  | cons y h ih =>
      rcases List.map_eq_cons_iff.mp himage with ⟨x, rest, rfl, rfl, hrest⟩
      rcases ih hrest with ⟨zs, hperm, rfl⟩
      exact ⟨x :: zs, hperm.cons x, rfl⟩
  | swap y y' images =>
      rcases List.map_eq_cons_iff.mp himage with ⟨x, rest, rfl, rfl, hrest⟩
      rcases List.map_eq_cons_iff.mp hrest with ⟨x', rest', rfl, rfl, rfl⟩
      exact ⟨x' :: x :: rest', List.Perm.swap _ _ _, rfl⟩
  | trans h h' ih ih' =>
      rcases ih' himage with ⟨middle, hmiddle, rfl⟩
      rcases ih rfl with ⟨zs, hzs, rfl⟩
      exact ⟨zs, hzs.trans hmiddle, rfl⟩

/-! ## Parts of a list, by a key -/

end Paging
