import Mathlib.Data.List.Basic

/-!
# Texts and offsets

A text is a list of symbols that take up one or more units each, and a position in it is a
number of units. Only some numbers lie between two symbols. A zipper is a text together with a
position, whatever its symbols take up.
-/

namespace TextCursor

variable {α : Type}

/-! ## Offsets -/

section Offsets

variable (width : α → Nat)

/-- What a text takes up. -/
def size : List α → Nat
  | [] => 0
  | a :: text => width a + size text

/-- The parts before and after an offset, where it lies between two symbols. -/
def splitAt? : List α → Nat → Option (List α × List α)
  | text, 0 => some ([], text)
  | [], _ + 1 => none
  | a :: text, n + 1 =>
      if width a ≤ n + 1 then
        (splitAt? text (n + 1 - width a)).map fun parts => (a :: parts.1, parts.2)
      else none

/-- The symbols with their offsets. -/
def indices : Nat → List α → List (Nat × α)
  | _, [] => []
  | n, a :: text => (n, a) :: indices (n + width a) text

end Offsets

variable {width : α → Nat} {text before after : List α} {a : α} {n : Nat}

@[simp] theorem size_nil : size width ([] : List α) = 0 :=
  rfl

@[simp] theorem size_cons : size width (a :: text) = width a + size width text :=
  rfl

@[simp] theorem size_append : size width (before ++ after) = size width before + size width after := by
  induction before with
  | nil => simp
  | cons a before ih => simp [ih, Nat.add_assoc]

@[simp] theorem size_reverse : size width text.reverse = size width text := by
  induction text with
  | nil => rfl
  | cons a text ih => simp [ih, Nat.add_comm]

theorem size_dropWhile_le (p : α → Bool) : size width (text.dropWhile p) ≤ size width text := by
  induction text with
  | nil => exact Nat.le_refl 0
  | cons a text ih =>
      rw [List.dropWhile_cons]
      split
      case isTrue =>
        rw [size_cons]
        omega
      case isFalse => exact Nat.le_refl _

theorem splitAt?_size (hwidth : ∀ a, 0 < width a) :
    splitAt? width (before ++ after) (size width before) = some (before, after) := by
  induction before with
  | nil => cases after <;> rfl
  | cons a before ih =>
      obtain ⟨m, hm⟩ : ∃ m, width a + size width before = m + 1 :=
        Nat.exists_eq_succ_of_ne_zero (by have := hwidth a; omega)
      have hle : width a ≤ m + 1 := by omega
      have hrest : m + 1 - width a = size width before := by omega
      simp [size_cons, hm, splitAt?, hle, hrest, ih]

/-- An offset lies between two symbols when it is what some first part of the text takes up. -/
theorem splitAt?_eq_some_iff (hwidth : ∀ a, 0 < width a) :
    splitAt? width text n = some (before, after) ↔
      text = before ++ after ∧ n = size width before := by
  constructor
  · intro h
    induction text generalizing n before with
    | nil =>
        cases n with
        | zero =>
            simp only [splitAt?, Option.some.injEq, Prod.mk.injEq] at h
            simp [← h.1, ← h.2]
        | succ n => cases h
    | cons a text ih =>
        cases n with
        | zero =>
            simp only [splitAt?, Option.some.injEq, Prod.mk.injEq] at h
            simp [← h.1, ← h.2]
        | succ n =>
            -- the first element is counted with its width
            rw [splitAt?] at h
            split at h
            case isTrue hle =>
              rcases Option.map_eq_some_iff.mp h with ⟨⟨front, rest⟩, hparts, heq⟩
              simp only [Prod.mk.injEq] at heq
              obtain ⟨rfl, rfl⟩ := heq
              have hrest := ih hparts
              constructor
              · simp [hrest.1]
              · rw [size_cons]
                omega
            case isFalse => cases h
  · intro h
    rw [h.1, h.2]
    exact splitAt?_size hwidth

theorem indices_append (n : Nat) :
    indices width n (before ++ after) =
      indices width n before ++ indices width (n + size width before) after := by
  induction before generalizing n with
  | nil => simp [indices]
  | cons a before ih => simp [indices, ih, Nat.add_assoc]

/-- The offset of the last symbol. -/
theorem getLast?_indices_concat (n : Nat) :
    (indices width n (text ++ [a])).getLast? = some (n + size width text, a) := by
  rw [indices_append]
  simp [indices]

/-! ## Zippers -/

/-- A text and a position in it; the part before the position is read backwards. -/
structure Zipper (α : Type) where
  before : List α
  after : List α

namespace Zipper

def toText (z : Zipper α) : List α :=
  z.before.reverse ++ z.after

/-- The position at the end of a text. -/
def ofText (text : List α) : Zipper α where
  before := text.reverse
  after := []

def insert (z : Zipper α) (a : α) : Zipper α :=
  { z with before := a :: z.before }

/-- The symbol before the position is taken out. -/
def erase (z : Zipper α) : Zipper α :=
  { z with before := z.before.tail }

def left (z : Zipper α) : Zipper α where
  before := z.before.tail
  after := z.before.head?.toList ++ z.after

def right (z : Zipper α) : Zipper α where
  before := z.after.head?.toList ++ z.before
  after := z.after.tail

def home (z : Zipper α) : Zipper α where
  before := []
  after := z.toText

def toEnd (z : Zipper α) : Zipper α :=
  ofText z.toText

/-- Back over the symbols that meet a condition. -/
def backOver (z : Zipper α) (p : α → Bool) : Zipper α where
  before := z.before.dropWhile p
  after := (z.before.takeWhile p).reverse ++ z.after

/-- On over the symbols that meet a condition. -/
def onOver (z : Zipper α) (p : α → Bool) : Zipper α where
  before := (z.after.takeWhile p).reverse ++ z.before
  after := z.after.dropWhile p

/-- To the beginning of the word before the position. -/
def wordLeft (z : Zipper α) (separator : α → Bool) : Zipper α :=
  (z.backOver separator).backOver fun a => !separator a

/-- To the end of the word after the position. -/
def wordRight (z : Zipper α) (separator : α → Bool) : Zipper α :=
  (z.onOver separator).onOver fun a => !separator a

def killBefore (z : Zipper α) : Zipper α :=
  { z with before := [] }

def killAfter (z : Zipper α) : Zipper α :=
  { z with after := [] }

/-- The word before the position is taken out. -/
def killWord (z : Zipper α) (separator : α → Bool) : Zipper α :=
  { z.wordLeft separator with after := z.after }

variable {z : Zipper α} {p separator : α → Bool}

theorem erase_of_before (h : z.before = []) : z.erase = z := by
  cases z
  subst h
  rfl

theorem left_of_before (h : z.before = []) : z.left = z := by
  cases z
  subst h
  rfl

theorem right_of_after (h : z.after = []) : z.right = z := by
  cases z
  subst h
  rfl

/-! What the operations make of the text -/

@[simp] theorem toText_ofText : (ofText text).toText = text := by
  simp [ofText, toText]

@[simp] theorem toText_left : z.left.toText = z.toText := by
  unfold left toText
  cases z.before <;> simp

@[simp] theorem toText_right : z.right.toText = z.toText := by
  unfold right toText
  cases z.after <;> simp

@[simp] theorem toText_home : z.home.toText = z.toText := by
  simp [home, toText]

@[simp] theorem toText_toEnd : z.toEnd.toText = z.toText := by
  simp [toEnd]

@[simp] theorem toText_backOver : (z.backOver p).toText = z.toText := by
  calc
    (z.backOver p).toText
        = (z.before.takeWhile p ++ z.before.dropWhile p).reverse ++ z.after := by
          rw [List.reverse_append, List.append_assoc]
          rfl
    _ = z.toText := by rw [List.takeWhile_append_dropWhile, toText]

@[simp] theorem toText_onOver : (z.onOver p).toText = z.toText := by
  calc
    (z.onOver p).toText
        = z.before.reverse ++ (z.after.takeWhile p ++ z.after.dropWhile p) := by
          simp [onOver, toText]
    _ = z.toText := by rw [List.takeWhile_append_dropWhile, toText]

@[simp] theorem toText_wordLeft : (z.wordLeft separator).toText = z.toText := by
  simp [wordLeft]

@[simp] theorem toText_wordRight : (z.wordRight separator).toText = z.toText := by
  simp [wordRight]

end Zipper

end TextCursor
