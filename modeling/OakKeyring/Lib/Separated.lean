import Mathlib.Data.List.DropRight
import Mathlib.Data.List.TakeWhile

/-!
# Words between separators

Words are joined with a separator. A reader cuts the text at a separator of its own, strips the
padding from both ends of a piece, and leaves empty pieces out.
-/

namespace Separated

variable {α : Type} {p : α → Bool}

/-- The pieces between separators have none. -/
theorem splitOnP_free (xs : List α) {piece : List α} (hpiece : piece ∈ xs.splitOnP p) :
    ∀ x ∈ piece, p x = false ∧ x ∈ xs := by
  induction xs generalizing piece with
  | nil =>
      rw [List.splitOnP_nil, List.mem_singleton] at hpiece
      rw [hpiece]
      intro x hx
      cases hx
  | cons y xs ih =>
      rw [List.splitOnP_cons_eq_if_modifyHead] at hpiece
      by_cases hy : p y = true
      -- the first piece is empty, and the others are those of the rest
      · rw [if_pos hy] at hpiece
        rcases List.mem_cons.mp hpiece with hempty | hlater
        · rw [hempty]
          intro x hx
          cases hx
        · intro x hx
          exact ⟨(ih hlater x hx).1, List.mem_cons_of_mem y (ih hlater x hx).2⟩
      · rw [if_neg hy] at hpiece
        -- the element belongs to the first piece
        cases hpieces : xs.splitOnP p with
        | nil =>
            rw [hpieces] at hpiece
            cases hpiece
        | cons first others =>
            rw [hpieces, List.modifyHead_cons] at hpiece
            rcases List.mem_cons.mp hpiece with hfirst | hlater
            · rw [hfirst]
              intro x hx
              rcases List.mem_cons.mp hx with heq | hx
              · rw [heq]
                exact ⟨by simpa using hy, List.mem_cons_self⟩
              · have hrest := ih (hpieces ▸ List.mem_cons_self) x hx
                exact ⟨hrest.1, List.mem_cons_of_mem y hrest.2⟩
            · intro x hx
              have hrest := ih (hpieces ▸ List.mem_cons_of_mem first hlater) x hx
              exact ⟨hrest.1, List.mem_cons_of_mem y hrest.2⟩

/-! ## Padding -/

/-- A word without the padding at its ends. -/
def strip (p : α → Bool) (xs : List α) : List α :=
  ((xs.dropWhile p).reverse.dropWhile p).reverse

theorem mem_of_mem_strip {x : α} {xs : List α} (hx : x ∈ strip p xs) : x ∈ xs := by
  have hback : x ∈ (xs.dropWhile p).reverse :=
    (List.dropWhile_sublist p).subset (List.mem_reverse.mp hx)
  exact (List.dropWhile_sublist p).subset (List.mem_reverse.mp hback)

/-- A word that starts with no padding still does so when the padding at its end is gone. -/
theorem dropWhile_rdropWhile {xs : List α} (hxs : xs.dropWhile p = xs) :
    (xs.rdropWhile p).dropWhile p = xs.rdropWhile p := by
  rw [List.dropWhile_eq_self_iff] at hxs ⊢
  intro hpos
  have hpre := List.rdropWhile_prefix p xs
  have hlength : 0 < xs.length := lt_of_lt_of_le hpos hpre.length_le
  rw [hpre.getElem]
  exact hxs hlength

theorem strip_strip (xs : List α) : strip p (strip p xs) = strip p xs := by
  have hstrip : ∀ ys, strip p ys = (ys.dropWhile p).rdropWhile p := fun _ => rfl
  rw [hstrip (strip p xs), hstrip, dropWhile_rdropWhile (List.dropWhile_idempotent _ _),
    List.rdropWhile_idempotent]

theorem length_strip_le (xs : List α) : (strip p xs).length ≤ xs.length := by
  have hback : (strip p xs).length ≤ (xs.dropWhile p).length := by
    simpa [strip] using (List.dropWhile_sublist p (l := (xs.dropWhile p).reverse)).length_le
  exact le_trans hback (List.dropWhile_sublist p).length_le

theorem dropWhile_sublist_dropWhile {xs ys : List α} (h : xs.Sublist ys) :
    (xs.dropWhile p).Sublist (ys.dropWhile p) := by
  induction h with
  | slnil => exact List.Sublist.refl _
  | @cons xs ys y h ih =>
      rw [List.dropWhile_cons]
      split
      case isTrue => exact ih
      case isFalse => exact (List.dropWhile_sublist p).trans (h.trans (List.sublist_cons_self y ys))
  | @cons_cons xs ys x h ih =>
      rw [List.dropWhile_cons, List.dropWhile_cons]
      split
      case isTrue => exact ih
      case isFalse => exact h.cons_cons x

theorem strip_sublist_strip {xs ys : List α} (h : xs.Sublist ys) :
    (strip p xs).Sublist (strip p ys) :=
  (dropWhile_sublist_dropWhile (dropWhile_sublist_dropWhile h).reverse).reverse

variable [DecidableEq α] {c sep : α} {ws : List (List α)}

theorem count_dropWhile (hc : p c = false) (xs : List α) :
    (xs.dropWhile p).count c = xs.count c := by
  induction xs with
  | nil => rfl
  | cons x xs ih =>
      cases hx : p x with
      | false => simp [hx]
      | true =>
          have hne : x ≠ c := by
            intro heq
            cases hc.symm.trans (heq ▸ hx)
          simp [hx, ih, hne]

theorem count_strip (hc : p c = false) (xs : List α) : (strip p xs).count c = xs.count c := by
  simp [strip, count_dropWhile hc]

/-! ## Counting -/

theorem count_intercalate_of_ne (hne : sep ≠ c) :
    ([sep].intercalate ws).count c = ws.flatten.count c := by
  induction ws with
  | nil => rfl
  | cons w ws ih =>
      cases ws with
      | nil => simp
      | cons v ws =>
          rw [List.intercalate_cons_cons]
          simp only [List.count_append, ih, List.flatten_cons]
          simp [hne]

/-- Between the words stands one separator less than there are words. -/
theorem count_intercalate_self :
    ([c].intercalate ws).count c = ws.flatten.count c + (ws.length - 1) := by
  induction ws with
  | nil => rfl
  | cons w ws ih =>
      cases ws with
      | nil => simp
      | cons v ws =>
          rw [List.intercalate_cons_cons]
          simp only [List.count_append, ih, List.flatten_cons]
          simp
          omega

/-! ## Words -/

/-- The words of a text. -/
def words (p : α → Bool) (sep : α) (xs : List α) : List (List α) :=
  ((xs.splitOn sep).map (strip p)).filter fun w => !w.isEmpty

theorem sep_notMem_of_mem_words {w xs : List α} (hw : w ∈ words p sep xs) : sep ∉ w := by
  intro hsep
  rcases List.mem_map.mp (List.mem_filter.mp hw).1 with ⟨piece, hpiece, hstrip⟩
  have hmem : sep ∈ piece := mem_of_mem_strip (hstrip ▸ hsep)
  rw [List.splitOn_eq_splitOnP] at hpiece
  have hfree := (splitOnP_free xs hpiece sep hmem).1
  simp at hfree

/-- Reading words neither adds nor removes a letter that is neither padding nor the separator. -/
theorem count_words (hc : p c = false) (hne : sep ≠ c) (xs : List α) :
    (words p sep xs).flatten.count c = xs.count c :=
  calc (words p sep xs).flatten.count c
      = ((xs.splitOn sep).map (strip p)).flatten.count c := by
        unfold words
        rw [List.flatten_filter_not_isEmpty]
    _ = (xs.splitOn sep).flatten.count c := by
        simp [List.count_flatten, Function.comp_def, count_strip hc]
    _ = ([sep].intercalate (xs.splitOn sep)).count c := (count_intercalate_of_ne hne).symm
    _ = xs.count c := by rw [List.intercalate_splitOn]

theorem words_of_notMem {xs : List α} (hsep : sep ∉ xs) (hxs : strip p xs ≠ []) :
    words p sep xs = [strip p xs] := by
  simp [words, List.splitOn_eq_singleton hsep, hxs]

/-- Words that are joined with one separator and read with another come back only if there is at
most one, without the reader's separator and without padding. -/
theorem words_intercalate_eq_iff (hc : p c = false) (hne : sep ≠ c)
    (hws : ∀ w ∈ ws, strip p w ≠ []) :
    words p sep ([c].intercalate ws) = ws ↔
      ws = [] ∨ ∃ w, ws = [w] ∧ sep ∉ w ∧ strip p w = w := by
  constructor
  · intro hback
    have hlength : ws.length ≤ 1 := by
      have hcount := count_words hc hne ([c].intercalate ws)
      rw [hback, count_intercalate_self] at hcount
      omega
    match ws, hlength with
    | [], _ => exact Or.inl rfl
    | [w], _ =>
        rw [List.intercalate_singleton] at hback
        have hsep : sep ∉ w := by
          have hmem : w ∈ words p sep w := hback ▸ List.mem_singleton_self w
          exact sep_notMem_of_mem_words hmem
        have hstrip : [strip p w] = [w] :=
          (words_of_notMem hsep (hws w (List.mem_singleton_self w))).symm.trans hback
        exact Or.inr ⟨w, rfl, hsep, List.singleton_inj.mp hstrip⟩
  · rintro (hnone | ⟨w, hone, hsep, hstrip⟩)
    · rw [hnone]
      rfl
    · rw [hone, List.intercalate_singleton,
        words_of_notMem hsep (hws w (hone ▸ List.mem_singleton_self w)), hstrip]

end Separated
