import OakKeyring.Tui.TextSlices
import OakKeyring.Types.Credential

/-!
# The field for the export path

The field keeps a text and a byte offset in it. Slices of the text at an offset inside a
character would stop the program, so every operation first moves the offset back to the nearest
boundary.
-/

namespace OakKeyring

open TextCursor

def isPathWordSeparator (c : Char) : Bool :=
  isWhitespace c || c == '/' || c == '\\' || c == '.' || c == '-' || c == '_'

/-- Back to the nearest boundary. -/
def backToBoundary (value : List Char) : Nat → Nat
  | 0 => 0
  | cursor + 1 =>
      if isCharBoundary value (cursor + 1) then cursor + 1 else backToBoundary value cursor

/-- On to the nearest boundary; at most `fuel` bytes are left. -/
def onToBoundary (value : List Char) : Nat → Nat → Nat
  | 0, cursor => cursor
  | fuel + 1, cursor =>
      if cursor < byteLen value ∧ isCharBoundary value cursor = false then
        onToBoundary value fuel (cursor + 1)
      else cursor

/-- Back while the character before the cursor meets a condition; a round takes a byte or
more. -/
def backWhile (value : List Char) (p : Char → Bool) : Nat → Nat → Option Nat
  | 0, cursor => some cursor
  | fuel + 1, cursor =>
      match prevCharBoundary value cursor with
      | none => none
      | some none => some cursor
      | some (some prev) =>
          match charAtBoundary value prev with
          | some (some c) => if p c then backWhile value p fuel prev else some cursor
          | _ => none

/-- On while the character after the cursor meets a condition. -/
def onWhile (value : List Char) (p : Char → Bool) : Nat → Nat → Option Nat
  | 0, cursor => some cursor
  | fuel + 1, cursor =>
      if cursor < byteLen value then
        match charAtBoundary value cursor with
        | some (some c) =>
            if p c then (nextCharBoundary value cursor).bind (onWhile value p fuel)
            else some cursor
        | _ => none
      else some cursor

def prevPathWordBoundary (value : List Char) (cursor : Nat) : Option Nat := do
  let cursor := backToBoundary value (min cursor (byteLen value))
  let cursor ← backWhile value isPathWordSeparator cursor cursor
  backWhile value (fun c => !isPathWordSeparator c) cursor cursor

def nextPathWordBoundary (value : List Char) (cursor : Nat) : Option Nat := do
  let cursor := min cursor (byteLen value)
  let cursor := onToBoundary value (byteLen value - cursor) cursor
  let cursor ← onWhile value isPathWordSeparator (byteLen value) cursor
  onWhile value (fun c => !isPathWordSeparator c) (byteLen value) cursor

/-! ## The field -/

/-- `export_output_path` and `export_output_path_cursor`. -/
structure OutputPath where
  text : List Char
  cursor : Nat
deriving DecidableEq, Repr

/-- What a key asks of the field. -/
inductive PathEdit
  | insert (c : Char)
  | backspace
  | left
  | right
  | wordLeft
  | wordRight
  | killBefore
  | killAfter
  | deletePreviousWord
  | home
  | toEnd
deriving DecidableEq, Repr

namespace OutputPath

def normalize (p : OutputPath) : OutputPath :=
  { p with cursor := backToBoundary p.text (min p.cursor (byteLen p.text)) }

def insertChar (p : OutputPath) (c : Char) : Option OutputPath :=
  (insertAt p.normalize.text p.normalize.cursor c).map fun text =>
    { text := text, cursor := p.normalize.cursor + c.utf8Size }

def backspace (p : OutputPath) : Option OutputPath :=
  (prevCharBoundary p.normalize.text p.normalize.cursor).bind fun prev =>
    match prev with
    | none => some p.normalize
    | some prev =>
        (drain p.normalize.text prev p.normalize.cursor).map fun text =>
          { text := text, cursor := prev }

def moveLeft (p : OutputPath) : Option OutputPath :=
  (prevCharBoundary p.normalize.text p.normalize.cursor).map fun prev =>
    { p.normalize with cursor := prev.getD p.normalize.cursor }

def moveRight (p : OutputPath) : Option OutputPath :=
  (nextCharBoundary p.normalize.text p.normalize.cursor).map fun next =>
    { p.normalize with cursor := next }

def moveWordLeft (p : OutputPath) : Option OutputPath :=
  (prevPathWordBoundary p.normalize.text p.normalize.cursor).map fun start =>
    { p.normalize with cursor := start }

def moveWordRight (p : OutputPath) : Option OutputPath :=
  (nextPathWordBoundary p.normalize.text p.normalize.cursor).map fun stop =>
    { p.normalize with cursor := stop }

def killBeforeCursor (p : OutputPath) : Option OutputPath :=
  (drain p.normalize.text 0 p.normalize.cursor).map fun text =>
    { text := text, cursor := 0 }

def killAfterCursor (p : OutputPath) : Option OutputPath :=
  (truncate p.normalize.text p.normalize.cursor).map fun text =>
    { p.normalize with text := text }

def deletePreviousWord (p : OutputPath) : Option OutputPath :=
  (prevPathWordBoundary p.normalize.text p.normalize.cursor).bind fun start =>
    (drain p.normalize.text start p.normalize.cursor).map fun text =>
      { text := text, cursor := start }

/-- One key in the field; nothing is left where the program stops. -/
def edit (p : OutputPath) : PathEdit → Option OutputPath
  | .insert c => p.insertChar c
  | .backspace => p.backspace
  | .left => p.moveLeft
  | .right => p.moveRight
  | .wordLeft => p.moveWordLeft
  | .wordRight => p.moveWordRight
  | .killBefore => p.killBeforeCursor
  | .killAfter => p.killAfterCursor
  | .deletePreviousWord => p.deletePreviousWord
  | .home => some { p with cursor := 0 }
  | .toEnd => some { p with cursor := byteLen p.text }

end OutputPath

/-! ## Offsets at a position of a zipper -/

section Loops

variable {z : Zipper Char} {value : List Char} {cursor : Nat}

/-- The loop back stops at the first character, seen from the end, that does not meet the
condition. -/
theorem At.backWhile {p : Char → Bool} {fuel : Nat} (h : At z value cursor)
    (hfuel : cursor ≤ fuel) :
    backWhile value p fuel cursor = some (size Char.utf8Size (z.before.dropWhile p)) := by
  induction fuel generalizing z cursor with
  | zero =>
      have hnil : z.before = [] := by
        cases hbefore : z.before with
        | nil => rfl
        | cons c before =>
            have hc := utf8Size_pos c
            have hoffset := h.offset
            rw [hbefore, size_cons] at hoffset
            omega
      have hoffset := h.offset
      simp only [hnil] at hoffset ⊢
      exact congrArg some hoffset
  -- one character back for each step, as long as the predicate holds
  | succ fuel ih =>
      cases hbefore : z.before with
      | nil =>
          have hoffset := h.offset
          rw [hbefore] at hoffset
          simp only [OakKeyring.backWhile, h.prevCharBoundary_nil hbefore]
          exact congrArg some hoffset
      | cons c before =>
          have hback := h.back hbefore
          simp only [OakKeyring.backWhile, h.prevCharBoundary_cons hbefore, hback.charAtBoundary,
            List.head?_cons]
          have hoffset := h.offset
          rw [hbefore, size_cons] at hoffset
          cases hp : p c with
          | true =>
              have hc := utf8Size_pos c
              rw [if_pos rfl, ih hback (by omega)]
              simp [hp]
          | false =>
              rw [if_neg (by simp)]
              simp [hp, hoffset]

theorem At.onWhile {p : Char → Bool} {fuel : Nat} (h : At z value cursor)
    (hfuel : size Char.utf8Size z.after ≤ fuel) :
    onWhile value p fuel cursor = some (cursor + size Char.utf8Size (z.after.takeWhile p)) := by
  induction fuel generalizing z cursor with
  | zero =>
      have hnil : z.after = [] := by
        cases hafter : z.after with
        | nil => rfl
        | cons c after =>
            have hc := utf8Size_pos c
            rw [hafter, size_cons] at hfuel
            omega
      simp [OakKeyring.onWhile, hnil]
  -- one character on for each step, as long as the predicate holds
  | succ fuel ih =>
      cases hafter : z.after with
      | nil =>
          have hlen : OakKeyring.byteLen value = cursor := by rw [h.byteLen, hafter]; rfl
          simp [OakKeyring.onWhile, hlen]
      | cons c after =>
          have hc := utf8Size_pos c
          have hlt : cursor < OakKeyring.byteLen value := by
            rw [h.byteLen, hafter, size_cons]
            omega
          simp only [OakKeyring.onWhile, hlt, if_true, h.charAtBoundary, hafter, List.head?_cons]
          cases hp : p c with
          | true =>
              rw [hafter, size_cons] at hfuel
              rw [if_pos rfl, h.nextCharBoundary_cons hafter, Option.bind_some,
                ih (h.on hafter) (by simp only; omega)]
              simp [hp, Nat.add_assoc]
          | false =>
              rw [if_neg (by simp)]
              simp [hp]

theorem isCharBoundary_backToBoundary (cursor : Nat) :
    isCharBoundary value (backToBoundary value cursor) = true := by
  induction cursor with
  | zero => cases value <;> rfl
  | succ cursor ih =>
      rw [backToBoundary]
      split
      case isTrue h => exact h
      case isFalse => exact ih

theorem At.backToBoundary (h : At z value cursor) :
    backToBoundary value (min cursor (OakKeyring.byteLen value)) = cursor := by
  have hle : cursor ≤ OakKeyring.byteLen value := by
    rw [h.byteLen]
    exact Nat.le_add_right cursor _
  rw [Nat.min_eq_left hle]
  cases cursor with
  | zero => rfl
  | succ cursor => rw [OakKeyring.backToBoundary, if_pos h.boundary]

theorem At.onToBoundary (h : At z value cursor) (fuel : Nat) :
    onToBoundary value fuel cursor = cursor := by
  cases fuel with
  | zero => rfl
  | succ fuel => simp [OakKeyring.onToBoundary, h.boundary]

theorem At.backOver (h : At z value cursor) (p : Char → Bool) :
    At (z.backOver p) value (size Char.utf8Size (z.before.dropWhile p)) where
  text := h.text.trans Zipper.toText_backOver.symm
  offset := rfl

theorem At.onOver (h : At z value cursor) (p : Char → Bool) :
    At (z.onOver p) value (cursor + size Char.utf8Size (z.after.takeWhile p)) where
  text := h.text.trans Zipper.toText_onOver.symm
  offset := by simp [Zipper.onOver, h.offset, Nat.add_comm]

theorem At.prevPathWordBoundary (h : At z value cursor) :
    ∃ start, prevPathWordBoundary value cursor = some start ∧
      At (z.wordLeft isPathWordSeparator) value start := by
  have hfirst := h.backOver isPathWordSeparator
  refine ⟨_, ?_, hfirst.backOver fun c => !isPathWordSeparator c⟩
  unfold OakKeyring.prevPathWordBoundary
  rw [h.backToBoundary]
  simp only [h.backWhile (Nat.le_refl cursor), Option.bind_eq_bind, Option.bind_some]
  exact hfirst.backWhile (Nat.le_refl _)

theorem At.nextPathWordBoundary (h : At z value cursor) :
    ∃ stop, nextPathWordBoundary value cursor = some stop ∧
      At (z.wordRight isPathWordSeparator) value stop := by
  have hle : cursor ≤ OakKeyring.byteLen value := by
    rw [h.byteLen]
    exact Nat.le_add_right cursor _
  have hfirst := h.onOver isPathWordSeparator
  have hrest : ∀ {z : Zipper Char} {cursor : Nat}, At z value cursor →
      size Char.utf8Size z.after ≤ OakKeyring.byteLen value := by
    intro z cursor h
    rw [h.byteLen]
    exact Nat.le_add_left _ cursor
  refine ⟨_, ?_, hfirst.onOver fun c => !isPathWordSeparator c⟩
  simp only [OakKeyring.nextPathWordBoundary, Nat.min_eq_left hle, h.onToBoundary,
    h.onWhile (hrest h), Option.bind_eq_bind, Option.bind_some]
  exact hfirst.onWhile (hrest hfirst)

/-- What stands between two positions of one text is taken out. -/
theorem At.drain {z' : Zipper Char} {start : Nat} (h : At z value cursor)
    (h' : At z' value start) (hle : start ≤ cursor) :
    drain value start cursor = some (z'.before.reverse ++ z.after) := by
  simp [OakKeyring.drain, h'.sliceTo, h.sliceFrom, hle]

theorem At.wordLeft_le {start : Nat} (h : At z value cursor)
    (h' : At (z.wordLeft isPathWordSeparator) value start) : start ≤ cursor := by
  rw [h.offset, h'.offset]
  exact Nat.le_trans (size_dropWhile_le _) (size_dropWhile_le _)

end Loops

/-! ## The field and the zipper -/

/-- What an edit does to a position in a text. -/
def PathEdit.apply (z : Zipper Char) : PathEdit → Zipper Char
  | .insert c => z.insert c
  | .backspace => z.erase
  | .left => z.left
  | .right => z.right
  | .wordLeft => z.wordLeft isPathWordSeparator
  | .wordRight => z.wordRight isPathWordSeparator
  | .killBefore => z.killBefore
  | .killAfter => z.killAfter
  | .deletePreviousWord => z.killWord isPathWordSeparator
  | .home => z.home
  | .toEnd => z.toEnd

namespace OutputPath

variable {p : OutputPath} {z : Zipper Char}

/-- The text and the position that a field stands for. -/
def zipper (p : OutputPath) : Zipper Char :=
  match splitAt? Char.utf8Size p.text p.normalize.cursor with
  | some (before, after) => { before := before.reverse, after := after }
  | none => Zipper.ofText p.text

theorem at_zipper (p : OutputPath) : At p.zipper p.text p.normalize.cursor := by
  have hboundary : isCharBoundary p.text p.normalize.cursor = true :=
    isCharBoundary_backToBoundary (min p.cursor (byteLen p.text))
  rcases exists_at hboundary with ⟨z, hz⟩
  have hzipper : p.zipper = z := by
    unfold zipper
    rw [hz.split]
    simp
  rw [hzipper]
  exact hz

theorem zipper_of_at (h : At z p.text p.cursor) : p.zipper = z := by
  have hcursor : p.normalize.cursor = p.cursor := h.backToBoundary
  have hzipper := p.at_zipper
  rw [hcursor] at hzipper
  exact hzipper.unique h

theorem backspace_at (p : OutputPath) :
    ∃ p', p.edit .backspace = some p' ∧ At (PathEdit.backspace.apply p.zipper) p'.text p'.cursor := by
  have hat := p.at_zipper
  have htext : p.normalize.text = p.text := rfl
  cases hbefore : p.zipper.before with
  -- nothing before the cursor: the key does nothing
  | nil =>
      refine ⟨p.normalize, ?_, ?_⟩
      · simp [edit, backspace, htext, hat.prevCharBoundary_nil hbefore]
      · have hsame : PathEdit.backspace.apply p.zipper = p.zipper := Zipper.erase_of_before hbefore
        rw [hsame]
        exact hat
  | cons c before =>
      have hback := hat.back hbefore
      have hle : size Char.utf8Size before ≤ p.normalize.cursor := by
        rw [hat.offset, hbefore, size_cons]
        exact Nat.le_add_left _ _
      refine ⟨{ text := before.reverse ++ p.zipper.after
                cursor := size Char.utf8Size before }, ?_, ?_⟩
      · simp [edit, backspace, htext, hat.prevCharBoundary_cons hbefore,
          hat.drain hback hle]
      · constructor
        · simp [PathEdit.apply, Zipper.erase, Zipper.toText, hbefore]
        · simp [PathEdit.apply, Zipper.erase, hbefore]

theorem left_at (p : OutputPath) :
    ∃ p', p.edit .left = some p' ∧ At (PathEdit.left.apply p.zipper) p'.text p'.cursor := by
  have hat := p.at_zipper
  have htext : p.normalize.text = p.text := rfl
  cases hbefore : p.zipper.before with
  -- at the start the cursor stays
  | nil =>
      refine ⟨p.normalize, ?_, ?_⟩
      · simp only [edit, moveLeft, htext, hat.prevCharBoundary_nil hbefore]
        rfl
      · have hsame : PathEdit.left.apply p.zipper = p.zipper := Zipper.left_of_before hbefore
        rw [hsame]
        exact hat
  | cons c before =>
      refine ⟨{ text := p.text, cursor := size Char.utf8Size before }, ?_, ?_⟩
      · simp [edit, moveLeft, htext, hat.prevCharBoundary_cons hbefore]
      · have hleft : PathEdit.left.apply p.zipper =
            { before := before, after := c :: p.zipper.after } := by
          simp [PathEdit.apply, Zipper.left, hbefore]
        rw [hleft]
        exact hat.back hbefore

theorem right_at (p : OutputPath) :
    ∃ p', p.edit .right = some p' ∧ At (PathEdit.right.apply p.zipper) p'.text p'.cursor := by
  have hat := p.at_zipper
  have htext : p.normalize.text = p.text := rfl
  cases hafter : p.zipper.after with
  -- at the end the cursor stays
  | nil =>
      refine ⟨p.normalize, ?_, ?_⟩
      · simp only [edit, moveRight, htext, hat.nextCharBoundary_nil hafter]
        rfl
      · have hsame : PathEdit.right.apply p.zipper = p.zipper := Zipper.right_of_after hafter
        rw [hsame]
        exact hat
  | cons c after =>
      refine ⟨{ text := p.text, cursor := p.normalize.cursor + c.utf8Size }, ?_, ?_⟩
      · simp [edit, moveRight, htext, hat.nextCharBoundary_cons hafter]
      · have hright : PathEdit.right.apply p.zipper =
            { before := c :: p.zipper.before, after := after } := by
          simp [PathEdit.apply, Zipper.right, hafter]
        rw [hright]
        exact hat.on hafter

/-- No edit stops the program, and each does to the text and the position what it says. -/
theorem edit_at (p : OutputPath) (e : PathEdit) :
    ∃ p', p.edit e = some p' ∧ At (e.apply p.zipper) p'.text p'.cursor := by
  have hat := p.at_zipper
  have htext : p.normalize.text = p.text := rfl
  cases e with
  | insert c =>
      refine ⟨{ text := p.zipper.before.reverse ++ c :: p.zipper.after
                cursor := p.normalize.cursor + c.utf8Size }, ?_, ?_⟩
      · simp [edit, insertChar, insertAt, htext, hat.sliceTo, hat.sliceFrom]
      · constructor
        · simp [PathEdit.apply, Zipper.insert, Zipper.toText]
        · simp [PathEdit.apply, Zipper.insert, hat.offset, Nat.add_comm]
  | backspace => exact p.backspace_at
  | left => exact p.left_at
  | right => exact p.right_at
  | wordLeft =>
      -- the word that starts before the cursor is skipped
      rcases hat.prevPathWordBoundary with ⟨start, hstart, hword⟩
      exact ⟨{ text := p.text, cursor := start }, by simp [edit, moveWordLeft, htext, hstart],
        hword⟩
  | wordRight =>
      rcases hat.nextPathWordBoundary with ⟨stop, hstop, hword⟩
      exact ⟨{ text := p.text, cursor := stop }, by simp [edit, moveWordRight, htext, hstop],
        hword⟩
  | killBefore =>
      have hstart : At p.zipper.home p.text 0 :=
        ⟨hat.text.trans Zipper.toText_home.symm, rfl⟩
      refine ⟨{ text := p.zipper.after, cursor := 0 }, ?_, ⟨rfl, rfl⟩⟩
      simp [edit, killBeforeCursor, htext, hat.drain hstart (Nat.zero_le _), Zipper.home]
  | killAfter =>
      -- the cursor never points past the text
      have hlen : ¬ byteLen p.text < p.normalize.cursor := by
        rw [hat.byteLen]
        omega
      refine ⟨{ text := p.zipper.before.reverse, cursor := p.normalize.cursor }, ?_, ?_⟩
      · simp [edit, killAfterCursor, truncate, htext, hlen, hat.sliceTo]
      · exact ⟨by simp [PathEdit.apply, Zipper.killAfter, Zipper.toText], hat.offset⟩
  | deletePreviousWord =>
      -- the text between the word and the cursor is drained
      rcases hat.prevPathWordBoundary with ⟨start, hstart, hword⟩
      have hdrain := hat.drain hword (hat.wordLeft_le hword)
      refine ⟨_, by simp [edit, deletePreviousWord, htext, hstart, hdrain]; rfl, ?_⟩
      exact ⟨rfl, hword.offset⟩
  | home =>
      exact ⟨{ p with cursor := 0 }, rfl, hat.text.trans Zipper.toText_home.symm, rfl⟩
  | toEnd =>
      refine ⟨{ p with cursor := byteLen p.text }, rfl, ?_, ?_⟩
      · exact hat.text.trans Zipper.toText_toEnd.symm
      · simp [PathEdit.apply, Zipper.toEnd, Zipper.ofText, byteLen, ← hat.text]

/-- Any sequence of edits. The cursor is where its position is, unless nothing was edited and it
still lies inside a character. -/
theorem edits_at (p : OutputPath) (es : List PathEdit) :
    ∃ p', es.foldlM edit p = some p' ∧ p'.zipper = es.foldl PathEdit.apply p.zipper ∧
      At p'.zipper p'.text p'.normalize.cursor ∧ (es = [] ∨ p'.normalize.cursor = p'.cursor) := by
  induction es generalizing p with
  | nil => exact ⟨p, rfl, rfl, p.at_zipper, Or.inl rfl⟩
  | cons e es ih =>
      rcases p.edit_at e with ⟨u, hu, hat⟩
      rcases ih u with ⟨p', hp', hzipper, hat', hcursor⟩
      refine ⟨p', ?_, ?_, hat', Or.inr ?_⟩
      · simp [hu, hp']
      · rw [hzipper, zipper_of_at hat, List.foldl_cons]
      · rcases hcursor with hnone | hcursor
        -- the edit is the last one, and leaves its cursor at a position
        · rw [hnone] at hp'
          have hlast : u = p' := Option.some.inj hp'
          rw [← hlast]
          exact hat.backToBoundary
        · exact hcursor

end OutputPath

end OakKeyring
