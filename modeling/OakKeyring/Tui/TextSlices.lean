import OakKeyring.Lib.TextCursor

/-!
# Slices of a text

A text is cut at byte offsets. A cut inside a character stops the program: such a slice is
`none`.
-/

namespace OakKeyring

open TextCursor

/-! ## Texts and byte offsets -/

/-- `len`. -/
def byteLen (value : List Char) : Nat :=
  size Char.utf8Size value

/-- `&value[..n]`, where the offset is a boundary. -/
def sliceTo (value : List Char) (n : Nat) : Option (List Char) :=
  (splitAt? Char.utf8Size value n).map Prod.fst

/-- `&value[n..]`. -/
def sliceFrom (value : List Char) (n : Nat) : Option (List Char) :=
  (splitAt? Char.utf8Size value n).map Prod.snd

def isCharBoundary (value : List Char) (n : Nat) : Bool :=
  (splitAt? Char.utf8Size value n).isSome

def charIndices (value : List Char) : List (Nat × Char) :=
  indices Char.utf8Size 0 value

/-- `String::insert`. -/
def insertAt (value : List Char) (n : Nat) (c : Char) : Option (List Char) := do
  let before ← sliceTo value n
  let after ← sliceFrom value n
  return before ++ c :: after

/-- `drain(from..to)`, what is left. -/
def drain (value : List Char) (start stop : Nat) : Option (List Char) := do
  let before ← sliceTo value start
  let after ← sliceFrom value stop
  if start ≤ stop then some (before ++ after) else none

/-- `truncate`. -/
def truncate (value : List Char) (n : Nat) : Option (List Char) :=
  if byteLen value < n then some value else sliceTo value n

/-- No offset where the text begins; a stop of the program is `none` outside. -/
def prevCharBoundary (value : List Char) (cursor : Nat) : Option (Option Nat) :=
  if cursor = 0 then some none
  else (sliceTo value cursor).map fun before => (charIndices before).getLast?.map Prod.fst

def nextCharBoundary (value : List Char) (cursor : Nat) : Option Nat :=
  if byteLen value ≤ cursor then some (byteLen value)
  else
    (sliceFrom value cursor).map fun after =>
      ((charIndices after)[1]?.map fun entry => cursor + entry.1).getD (byteLen value)

def charAtBoundary (value : List Char) (cursor : Nat) : Option (Option Char) :=
  (sliceFrom value cursor).map List.head?

section Offsets

variable {z : Zipper Char} {value : List Char} {cursor : Nat}

/-- The offset is the position. -/
structure At (z : Zipper Char) (value : List Char) (cursor : Nat) : Prop where
  text : value = z.toText
  offset : cursor = size Char.utf8Size z.before

theorem utf8Size_pos (c : Char) : 0 < c.utf8Size :=
  Char.utf8Size_pos c

theorem At.split (h : At z value cursor) :
    splitAt? Char.utf8Size value cursor = some (z.before.reverse, z.after) := by
  rw [h.text, h.offset, ← size_reverse]
  exact splitAt?_size utf8Size_pos

theorem At.sliceTo (h : At z value cursor) : sliceTo value cursor = some z.before.reverse := by
  simp [OakKeyring.sliceTo, h.split]

theorem At.sliceFrom (h : At z value cursor) : sliceFrom value cursor = some z.after := by
  simp [OakKeyring.sliceFrom, h.split]

theorem At.byteLen (h : At z value cursor) :
    byteLen value = cursor + size Char.utf8Size z.after := by
  simp [OakKeyring.byteLen, h.text, h.offset, Zipper.toText]

/-- Some position is at every offset between two characters. -/
theorem exists_at (hboundary : isCharBoundary value cursor = true) : ∃ z, At z value cursor := by
  rcases Option.isSome_iff_exists.mp hboundary with ⟨⟨before, after⟩, hsplit⟩
  rcases (splitAt?_eq_some_iff utf8Size_pos).mp hsplit with ⟨htext, hoffset⟩
  refine ⟨{ before := before.reverse, after := after }, ?_, ?_⟩
  · simp [Zipper.toText, htext]
  · simp [hoffset]

theorem At.boundary (h : At z value cursor) : isCharBoundary value cursor = true := by
  simp [isCharBoundary, h.split]

theorem At.unique {z' : Zipper Char} (h : At z value cursor) (h' : At z' value cursor) : z = z' := by
  have hparts := Option.some.inj (h.split.symm.trans h'.split)
  cases z
  cases z'
  simpa using hparts

/-- The position before it. -/
theorem At.back {c : Char} {before : List Char} (h : At z value cursor)
    (hbefore : z.before = c :: before) :
    At { before := before, after := c :: z.after } value (size Char.utf8Size before) where
  text := by
    rw [h.text, Zipper.toText, Zipper.toText, hbefore]
    simp
  offset := rfl

theorem At.on {c : Char} {after : List Char} (h : At z value cursor)
    (hafter : z.after = c :: after) :
    At { before := c :: z.before, after := after } value (cursor + c.utf8Size) where
  text := by
    rw [h.text, Zipper.toText, Zipper.toText, hafter]
    simp
  offset := by
    rw [size_cons, h.offset, Nat.add_comm]

theorem At.prevCharBoundary_nil (h : At z value cursor) (hbefore : z.before = []) :
    prevCharBoundary value cursor = some none := by
  have hzero : cursor = 0 := by rw [h.offset, hbefore]; rfl
  simp [prevCharBoundary, hzero]

theorem At.prevCharBoundary_cons {c : Char} {before : List Char} (h : At z value cursor)
    (hbefore : z.before = c :: before) :
    prevCharBoundary value cursor = some (some (size Char.utf8Size before)) := by
  have hpos : cursor ≠ 0 := by
    have hc := utf8Size_pos c
    rw [h.offset, hbefore, size_cons]
    omega
  have hlast : (indices Char.utf8Size 0 (before.reverse ++ [c])).getLast? =
      some (0 + size Char.utf8Size before.reverse, c) :=
    getLast?_indices_concat 0
  simp only [prevCharBoundary, hpos, if_false, h.sliceTo, hbefore, List.reverse_cons, charIndices,
    Option.map_some]
  rw [hlast]
  simp

theorem At.charAtBoundary (h : At z value cursor) :
    charAtBoundary value cursor = some z.after.head? := by
  simp [OakKeyring.charAtBoundary, h.sliceFrom]

theorem At.nextCharBoundary_nil (h : At z value cursor) (hafter : z.after = []) :
    nextCharBoundary value cursor = some cursor := by
  have hlen : OakKeyring.byteLen value = cursor := by rw [h.byteLen, hafter]; rfl
  simp [nextCharBoundary, hlen]

theorem At.nextCharBoundary_cons {c : Char} {after : List Char} (h : At z value cursor)
    (hafter : z.after = c :: after) :
    nextCharBoundary value cursor = some (cursor + c.utf8Size) := by
  have hlen : OakKeyring.byteLen value = cursor + (c.utf8Size + size Char.utf8Size after) := by
    rw [h.byteLen, hafter, size_cons]
  have hlt : ¬ OakKeyring.byteLen value ≤ cursor := by
    have hc := utf8Size_pos c
    omega
  simp only [nextCharBoundary, hlt, if_false, h.sliceFrom, hafter, Option.map_some]
  cases after with
  | nil => simp [charIndices, indices, hlen]
  | cons d after => simp [charIndices, indices]

end Offsets

end OakKeyring
