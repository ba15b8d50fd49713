import OakKeyring.Tui.EditRecord
import OakKeyring.Tui.TextSlices
import OakKeyring.Vault.LimitedWrites

/-!
# Renaming a tag in the sidebar

While a tag is renamed all keys go to the box with its name. The box sends the new name when it
is neither blank nor taken, and so the vault never has to store a name that its own limits
forbid.
-/

namespace OakKeyring

open TextCursor Vault

/-! ## The box -/

structure InlineEditState where
  originalName : String
  text : List Char
  /-- a byte offset in the text -/
  cursor : Nat
  conflict : Bool
deriving DecidableEq, Repr

namespace InlineEditState

def new (tagName : String) : InlineEditState where
  originalName := tagName
  text := tagName.toList
  cursor := byteLen tagName.toList
  conflict := false

def insertChar (s : InlineEditState) (c : Char) : Option InlineEditState :=
  if MAX_TAG_CHARS ≤ s.text.length then some s
  else
    (insertAt s.text s.cursor c).map fun text =>
      { s with
        text := text
        cursor := s.cursor + c.utf8Size
        conflict := false }

/-- Where the last character before the cursor begins. -/
def previous (s : InlineEditState) : Option Nat :=
  (sliceTo s.text s.cursor).map fun before => ((charIndices before).getLast?.map Prod.fst).getD 0

def backspace (s : InlineEditState) : Option InlineEditState :=
  if s.cursor = 0 then some s
  else
    s.previous.bind fun prev =>
      (drain s.text prev s.cursor).map fun text =>
        { s with
          text := text
          cursor := prev
          conflict := false }

def cursorLeft (s : InlineEditState) : Option InlineEditState :=
  if s.cursor = 0 then some s else s.previous.map fun prev => { s with cursor := prev }

def cursorRight (s : InlineEditState) : Option InlineEditState :=
  if s.cursor < byteLen s.text then
    (sliceFrom s.text s.cursor).map fun after =>
      { s with
        cursor := ((charIndices after)[1]?.map fun e => s.cursor + e.1).getD (byteLen s.text) }
  else some s

def trimmed (s : InlineEditState) : String :=
  trim (String.ofList s.text)

section

variable [Unicode]

def checkConflict (s : InlineEditState) (existingTags : List String) : InlineEditState :=
  { s with
    conflict := existingTags.any fun tag =>
      toLowercase tag == toLowercase s.trimmed && tag != s.originalName }

/-- The box, while it is open, and the `Command::RenameTag` that is sent. -/
structure RenameReply where
  inlineEdit : Option InlineEditState
  sent : Option (String × String)

def handleEnter (s : InlineEditState) (existingTags : List String) : RenameReply :=
  let s := s.checkConflict existingTags
  if s.conflict = false ∧ s.trimmed ≠ "" then
    { inlineEdit := none, sent := some (s.originalName, s.trimmed) }
  else { inlineEdit := some s, sent := none }

/-- A key while the box is open; `existingTags` are the names in the sidebar. -/
def handleKey (s : InlineEditState) (existingTags : List String) :
    KeyCode → Option RenameReply
  | .Char c => (s.insertChar c).map fun s => { inlineEdit := some s, sent := none }
  | .Backspace => s.backspace.map fun s => { inlineEdit := some s, sent := none }
  | .Left => s.cursorLeft.map fun s => { inlineEdit := some s, sent := none }
  | .Right => s.cursorRight.map fun s => { inlineEdit := some s, sent := none }
  | .Enter => some (s.handleEnter existingTags)
  | .Esc => some { inlineEdit := none, sent := none }
  | _ => some { inlineEdit := some s, sent := none }

/-- The keys up to the one that closes the box. -/
def press (s : InlineEditState) : List (List String × KeyCode) → Option RenameReply
  | [] => some { inlineEdit := some s, sent := none }
  | (existingTags, key) :: keys =>
      (s.handleKey existingTags key).bind fun reply =>
        match reply.inlineEdit with
        | some s => s.press keys
        | none => some reply

end

/-! ## The box and its text -/

variable {s : InlineEditState} {z : Zipper Char}

/-- A character, where the text has room for it. -/
def insertWithin (z : Zipper Char) (c : Char) : Zipper Char :=
  if MAX_TAG_CHARS ≤ z.toText.length then z else z.insert c

/-- What a key does to the position in the text. -/
def apply (z : Zipper Char) : KeyCode → Zipper Char
  | .Char c => insertWithin z c
  | .Backspace => z.erase
  | .Left => z.left
  | .Right => z.right
  | _ => z

/-- The cursor is between two characters. -/
def Holds (s : InlineEditState) (z : Zipper Char) : Prop :=
  At z s.text s.cursor

theorem holds_new (tagName : String) : (new tagName).Holds (Zipper.ofText tagName.toList) where
  text := Zipper.toText_ofText.symm
  offset := by simp [new, byteLen, Zipper.ofText]

theorem Holds.previous {c : Char} {before : List Char} (h : s.Holds z)
    (hbefore : z.before = c :: before) : s.previous = some (size Char.utf8Size before) := by
  have hprev := h.prevCharBoundary_cons hbefore
  have hpos : s.cursor ≠ 0 := by
    have hc := Char.utf8Size_pos c
    rw [h.offset, hbefore, size_cons]
    omega
  simp only [prevCharBoundary, hpos, if_false] at hprev
  unfold InlineEditState.previous
  rcases Option.map_eq_some_iff.mp hprev with ⟨front, hfront, hlast⟩
  rw [hfront, Option.map_some, hlast, Option.getD_some]

theorem Holds.cursor_eq_zero_iff (h : s.Holds z) : s.cursor = 0 ↔ z.before = [] := by
  constructor
  · intro hzero
    cases hbefore : z.before with
    | nil => rfl
    | cons c before =>
        have hc := Char.utf8Size_pos c
        have hoffset := h.offset
        rw [hbefore, size_cons] at hoffset
        omega
  · intro hbefore
    rw [h.offset, hbefore]
    rfl

theorem Holds.insertChar (h : s.Holds z) (c : Char) :
    ∃ s', s.insertChar c = some s' ∧ s'.Holds (insertWithin z c) ∧
      s'.originalName = s.originalName := by
  unfold InlineEditState.insertChar insertWithin
  rw [← h.text]
  by_cases hfull : MAX_TAG_CHARS ≤ s.text.length
  · rw [if_pos hfull, if_pos hfull]
    exact ⟨s, rfl, h, rfl⟩
  · rw [if_neg hfull, if_neg hfull]
    have hinsert : insertAt s.text s.cursor c = some (z.before.reverse ++ c :: z.after) := by
      simp [insertAt, h.sliceTo, h.sliceFrom]
    rw [hinsert, Option.map_some]
    refine ⟨_, rfl, ?_, rfl⟩
    constructor
    · simp [Zipper.insert, Zipper.toText]
    · simp [Zipper.insert, h.offset, Nat.add_comm]

theorem Holds.backspace (h : s.Holds z) :
    ∃ s', s.backspace = some s' ∧ s'.Holds z.erase ∧ s'.originalName = s.originalName := by
  unfold InlineEditState.backspace
  cases hbefore : z.before with
  | nil =>
      rw [if_pos (h.cursor_eq_zero_iff.mpr hbefore), Zipper.erase_of_before hbefore]
      exact ⟨s, rfl, h, rfl⟩
  | cons c before =>
      have hpos : s.cursor ≠ 0 := by
        intro hzero
        rw [h.cursor_eq_zero_iff.mp hzero] at hbefore
        cases hbefore
      have hback := h.back hbefore
      have hle : size Char.utf8Size before ≤ s.cursor := by
        rw [h.offset, hbefore, size_cons]
        exact Nat.le_add_left _ _
      have hdrain : drain s.text (size Char.utf8Size before) s.cursor =
          some (before.reverse ++ z.after) := by
        simp [drain, hback.sliceTo, h.sliceFrom, hle]
      rw [if_neg hpos, h.previous hbefore, Option.bind_some, hdrain, Option.map_some]
      refine ⟨_, rfl, ?_, rfl⟩
      constructor
      · simp [Zipper.erase, Zipper.toText, hbefore]
      · simp [Zipper.erase, hbefore]

theorem Holds.cursorLeft (h : s.Holds z) :
    ∃ s', s.cursorLeft = some s' ∧ s'.Holds z.left ∧ s'.originalName = s.originalName := by
  unfold InlineEditState.cursorLeft
  cases hbefore : z.before with
  | nil =>
      rw [if_pos (h.cursor_eq_zero_iff.mpr hbefore), Zipper.left_of_before hbefore]
      exact ⟨s, rfl, h, rfl⟩
  | cons c before =>
      have hpos : s.cursor ≠ 0 := by
        intro hzero
        rw [h.cursor_eq_zero_iff.mp hzero] at hbefore
        cases hbefore
      have hleft : z.left = { before := before, after := c :: z.after } := by
        simp [Zipper.left, hbefore]
      rw [if_neg hpos, h.previous hbefore, Option.map_some, hleft]
      exact ⟨_, rfl, h.back hbefore, rfl⟩

theorem Holds.cursorRight (h : s.Holds z) :
    ∃ s', s.cursorRight = some s' ∧ s'.Holds z.right ∧ s'.originalName = s.originalName := by
  unfold InlineEditState.cursorRight
  cases hafter : z.after with
  | nil =>
      have hend : ¬ s.cursor < byteLen s.text := by
        rw [h.byteLen, hafter, size_nil]
        omega
      rw [if_neg hend, Zipper.right_of_after hafter]
      exact ⟨s, rfl, h, rfl⟩
  | cons c after =>
      have hlt : s.cursor < byteLen s.text := by
        have hc := Char.utf8Size_pos c
        rw [h.byteLen, hafter, size_cons]
        omega
      have hnext := h.nextCharBoundary_cons hafter
      simp only [nextCharBoundary, Nat.not_le.mpr hlt, if_false, h.sliceFrom, Option.map_some,
        Option.some.injEq] at hnext
      have hright : z.right = { before := c :: z.before, after := after } := by
        simp [Zipper.right, hafter]
      rw [if_pos hlt, h.sliceFrom, Option.map_some, hnext, hright]
      exact ⟨_, rfl, h.on hafter, rfl⟩

/-! ## One key -/

section Keys

variable [Unicode]

/-- What may be sent: the new name is neither blank nor the name of another tag, in whatever
case. -/
structure Renames (s : InlineEditState) (existingTags : List String) (names : String × String) :
    Prop where
  old : names.1 = s.originalName
  new : names.2 = s.trimmed
  nonempty : names.2 ≠ ""
  free : ∀ tag ∈ existingTags, toLowercase tag = toLowercase names.2 → tag = names.1

theorem renames_handleEnter {existingTags : List String} {names : String × String}
    (hsent : (s.handleEnter existingTags).sent = some names) : s.Renames existingTags names := by
  unfold handleEnter at hsent
  dsimp only at hsent
  split at hsent
  case isFalse => cases hsent
  case isTrue h =>
    cases hsent
    refine ⟨rfl, rfl, h.2, ?_⟩
    intro tag htag hsame
    by_contra hne
    have hconflict : (s.checkConflict existingTags).conflict = true :=
      List.any_eq_true.mpr ⟨tag, htag, by
        simp only [Bool.and_eq_true, beq_iff_eq, bne_iff_ne]
        exact ⟨hsame, hne⟩⟩
    rw [hconflict] at h
    cases h.1

theorem Holds.handleEnter (h : s.Holds z) {existingTags : List String} {s' : InlineEditState}
    (hopen : (s.handleEnter existingTags).inlineEdit = some s') :
    s'.Holds z ∧ s'.originalName = s.originalName := by
  unfold InlineEditState.handleEnter at hopen
  dsimp only at hopen
  split at hopen
  case isTrue => cases hopen
  case isFalse =>
    cases hopen
    exact ⟨h, rfl⟩

theorem closes_handleEnter {existingTags : List String} {names : String × String}
    (hsent : (s.handleEnter existingTags).sent = some names) :
    (s.handleEnter existingTags).inlineEdit = none := by
  unfold handleEnter at hsent ⊢
  dsimp only at hsent ⊢
  split at hsent
  case isTrue h => rw [if_pos h]
  case isFalse => cases hsent

/-- What a key does: it never stops the program, an open box keeps its cursor between two
characters, and only Enter sends. -/
structure Handled (s : InlineEditState) (z : Zipper Char) (existingTags : List String)
    (key : KeyCode) (reply : RenameReply) : Prop where
  holds : ∀ s', reply.inlineEdit = some s' →
    s'.Holds (apply z key) ∧ s'.originalName = s.originalName
  sends : ∀ names, reply.sent = some names →
    reply.inlineEdit = none ∧ key = .Enter ∧ s.Renames existingTags names

theorem handled_edit {existingTags : List String} {key : KeyCode} {s' : InlineEditState}
    (hholds : s'.Holds (apply z key)) (hname : s'.originalName = s.originalName) :
    Handled s z existingTags key { inlineEdit := some s', sent := none } where
  holds := by
    intro u hu
    cases hu
    exact ⟨hholds, hname⟩
  sends := by
    intro names hsent
    cases hsent

theorem Holds.handleKey (h : s.Holds z) (existingTags : List String) (key : KeyCode) :
    ∃ reply, s.handleKey existingTags key = some reply ∧ Handled s z existingTags key reply := by
  cases key with
  | Char c =>
      rcases h.insertChar c with ⟨s', hs', hholds, hname⟩
      exact ⟨_, congrArg (Option.map _) hs', handled_edit hholds hname⟩
  | Backspace =>
      rcases h.backspace with ⟨s', hs', hholds, hname⟩
      exact ⟨_, congrArg (Option.map _) hs', handled_edit hholds hname⟩
  | Left =>
      rcases h.cursorLeft with ⟨s', hs', hholds, hname⟩
      exact ⟨_, congrArg (Option.map _) hs', handled_edit hholds hname⟩
  | Right =>
      rcases h.cursorRight with ⟨s', hs', hholds, hname⟩
      exact ⟨_, congrArg (Option.map _) hs', handled_edit hholds hname⟩
  | Enter =>
      refine ⟨_, rfl, fun s' hopen => h.handleEnter hopen, ?_⟩
      intro names hsent
      exact ⟨closes_handleEnter hsent, rfl, renames_handleEnter hsent⟩
  | Esc =>
      refine ⟨_, rfl, ?_, ?_⟩
      · intro s' hopen
        cases hopen
      · intro names hsent
        cases hsent
  | _ => exact ⟨_, rfl, handled_edit h rfl⟩

/-! ## Every sequence of keys -/

/-- The position after some keys. -/
def moved (z : Zipper Char) (keys : List (List String × KeyCode)) : Zipper Char :=
  keys.foldl (fun z key => apply z key.2) z

omit [Unicode] in
/-- How long a text is between the blanks at its ends. -/
def trimmedLength (z : Zipper Char) : Nat :=
  (Separated.strip isWhitespace z.toText).length

omit [Unicode] in
/-- A text within a bound that the limit is within too stays so, whatever blanks surround it. -/
theorem trimmedLength_apply_le {bound : Nat} (hlimit : MAX_TAG_CHARS ≤ bound)
    (hz : trimmedLength z ≤ bound) (key : KeyCode) : trimmedLength (apply z key) ≤ bound := by
  cases key with
  | Char c =>
      change trimmedLength (insertWithin z c) ≤ bound
      unfold insertWithin
      split
      case isTrue => exact hz
      case isFalse hroom =>
        have hlength : (z.insert c).toText.length = z.toText.length + 1 := by
          simp only [Zipper.insert, Zipper.toText, List.length_append, List.length_reverse,
            List.length_cons]
          omega
        have htrimmed : trimmedLength (z.insert c) ≤ (z.insert c).toText.length :=
          Separated.length_strip_le _
        omega
  | Backspace =>
      -- what is left is part of what was between the blanks
      have hsub : z.erase.toText.Sublist z.toText :=
        (List.tail_sublist z.before).reverse.append (List.Sublist.refl z.after)
      exact le_trans (Separated.strip_sublist_strip hsub).length_le hz
  | Left =>
      unfold trimmedLength at hz ⊢
      rwa [show (apply z .Left).toText = z.toText from Zipper.toText_left]
  | Right =>
      unfold trimmedLength at hz ⊢
      rwa [show (apply z .Right).toText = z.toText from Zipper.toText_right]
  | _ => exact hz

omit [Unicode] in
theorem trimmedLength_moved_le {bound : Nat} (hlimit : MAX_TAG_CHARS ≤ bound)
    (hz : trimmedLength z ≤ bound) (keys : List (List String × KeyCode)) :
    trimmedLength (moved z keys) ≤ bound := by
  induction keys generalizing z with
  | nil => exact hz
  | cons key keys ih => exact ih (trimmedLength_apply_le hlimit hz key.2)

/-- What a box that is left open holds, and what one that sends has held. -/
structure Pressed (s : InlineEditState) (z : Zipper Char) (keys : List (List String × KeyCode))
    (reply : RenameReply) : Prop where
  holds : ∀ s', reply.inlineEdit = some s' → s'.Holds (moved z keys)
  sends : ∀ old new, reply.sent = some (old, new) → old = s.originalName ∧ new ≠ "" ∧
    ∃ done existingTags rest, keys = done ++ (existingTags, .Enter) :: rest ∧
      new = trim (String.ofList (moved z done).toText) ∧
      ∀ tag ∈ existingTags, toLowercase tag = toLowercase new → tag = old

theorem Holds.press (h : s.Holds z) (keys : List (List String × KeyCode)) :
    ∃ reply, s.press keys = some reply ∧ Pressed s z keys reply := by
  induction keys generalizing s z with
  | nil =>
      refine ⟨_, rfl, ?_, ?_⟩
      -- no key was pressed, so the field is as it was opened
      · intro s' hs'
        cases hs'
        exact h
      · intro old new hsent
        cases hsent
  | cons key keys ih =>
      obtain ⟨existingTags, key⟩ := key
      rcases h.handleKey existingTags key with ⟨reply, hreply, hhandled⟩
      cases hopen : reply.inlineEdit with
      -- the key closed the field: a name may have been sent
      | none =>
          refine ⟨reply, by simp [InlineEditState.press, hreply, hopen], ?_, ?_⟩
          · intro s' hs'
            rw [hopen] at hs'
            cases hs'
          · intro old new hsent
            rcases hhandled.sends _ hsent with ⟨-, rfl, hrenames⟩
            have htext : s.trimmed = trim (String.ofList (moved z []).toText) := by
              rw [trimmed, h.text]
              rfl
            exact ⟨hrenames.old, hrenames.nonempty, [], existingTags, keys, rfl,
              hrenames.new.trans htext, hrenames.free⟩
      -- the field is still open
      | some s' =>
          rcases hhandled.holds s' hopen with ⟨hholds, hname⟩
          rcases ih hholds with ⟨last, hlast, hpressed⟩
          refine ⟨last, by simp [InlineEditState.press, hreply, hopen, hlast], ?_, ?_⟩
          · exact hpressed.holds
          · intro old new hsent
            rcases hpressed.sends old new hsent with
              ⟨hold, hnew, done, tags, rest, hkeys, htext, hfree⟩
            refine ⟨hold.trans hname, hnew, (existingTags, key) :: done, tags, rest, ?_, htext,
              hfree⟩
            rw [hkeys]
            rfl

end Keys

end InlineEditState

/-! ## The names that reach the vault -/

/-- A name that is not blank and not too long is valid. -/
theorem validateTag_trim {text : String} (hne : trim text ≠ "")
    (hshort : (trim text).length ≤ 50) : validateTag (trim text) = .ok () := by
  unfold validateTag
  rw [trim_trim, if_neg hne]
  exact if_neg (Nat.not_lt.mpr hshort)

/-- A tag with a longer name is on no live record while the limits hold. -/
theorem nameFits_of_long [Crypto] {kek : Bytes} {t : Tables} {oldName : String}
    (h : LimitsInv kek t) (hlong : MAX_TAG_CHARS < (trim oldName).length) (newName : String) :
    NameFits t oldName newName := by
  refine Or.inr fun tag htag id row hrow hlive hlinked => ?_
  have hmem : oldName ∈ t.tagsOf id := by
    refine List.mem_filterMap.mpr ⟨(id, tag.id), hlinked, ?_⟩
    rw [if_pos rfl, Tables.tagByName_lookup htag]
  have hvalid := (validateTags_iff.mp (h.within id row hrow hlive).tags).2 oldName hmem
  unfold validateTag validateLen at hvalid
  rw [if_pos hlong] at hvalid
  split at hvalid <;> cases hvalid

/-- What is typed in the box is what a text with a position in it would hold, and a cut never
falls inside a character. A name that is sent is trimmed and is no other tag's name in the
sidebar, and after the vault has renamed the tag its records are still within the limits. -/
theorem renameTag_within_limits [Unicode] [Crypto] (kek : Bytes) (tag : String)
    (keys : List (List String × KeyCode)) :
    ∃ reply, (InlineEditState.new tag).press keys = some reply ∧
      (∀ s, reply.inlineEdit = some s →
        At (InlineEditState.moved (Zipper.ofText tag.toList) keys) s.text s.cursor) ∧
      ∀ oldName newName, reply.sent = some (oldName, newName) →
        oldName = tag ∧ newName ≠ "" ∧ trim newName = newName ∧
          (newName.length ≤ MAX_TAG_CHARS ∨ newName.length ≤ tag.length) ∧
          (∃ done existingTags rest, keys = done ++ (existingTags, .Enter) :: rest ∧
            newName = trim (String.ofList
              (InlineEditState.moved (Zipper.ofText tag.toList) done).toText) ∧
            ∀ other ∈ existingTags, toLowercase other = toLowercase newName → other = tag) ∧
          ∀ t, LimitsInv kek t → Vault.Ensures (LimitsInv kek) (Vault.renameTag tag newName) t := by
  rcases (InlineEditState.holds_new tag).press keys with ⟨reply, hreply, hpressed⟩
  refine ⟨reply, hreply, hpressed.holds, ?_⟩
  intro oldName newName hsent
  rcases hpressed.sends oldName newName hsent with
    ⟨hold, hne, done, existingTags, rest, hkeys, htext, hfree⟩
  have hold : oldName = tag := hold
  -- no key brings more characters in than the bound leaves room for
  have htyped : ∀ bound, MAX_TAG_CHARS ≤ bound → (trim tag).length ≤ bound →
      newName.length ≤ bound := by
    intro bound hlimit htag
    have hstart : InlineEditState.trimmedLength (Zipper.ofText tag.toList) ≤ bound := by
      unfold InlineEditState.trimmedLength
      rwa [Zipper.toText_ofText, ← toList_trim, String.length_toList]
    calc
      newName.length
          = InlineEditState.trimmedLength
              (InlineEditState.moved (Zipper.ofText tag.toList) done) := by
            rw [htext, ← String.length_toList, toList_trim, String.toList_ofList]
            rfl
      _ ≤ bound := InlineEditState.trimmedLength_moved_le hlimit hstart done
  -- what was typed stays within the larger of the two lengths
  have hlength : newName.length ≤ MAX_TAG_CHARS ∨ newName.length ≤ tag.length := by
    have htrim := length_trim_le tag
    rcases Nat.le_total tag.length MAX_TAG_CHARS with hshort | hlong
    · exact Or.inl (htyped MAX_TAG_CHARS (Nat.le_refl _) (htrim.trans hshort))
    · exact Or.inr (htyped tag.length hlong htrim)
  have hvalid : newName.length ≤ 50 → validateTag newName = .ok () := by
    intro hshort
    rw [htext] at hne hshort ⊢
    exact validateTag_trim hne hshort
  refine ⟨hold, hne, ?_, hlength, ⟨done, existingTags, rest, hkeys, htext, ?_⟩, ?_⟩
  · rw [htext]
    exact trim_trim _
  · exact hold ▸ hfree
  -- the vault that is sent the rename keeps its limits
  · intro t ht
    apply Vault.limited_renameTag ht
    intro _ _
    rcases Nat.lt_or_ge MAX_TAG_CHARS (trim tag).length with hlong | hshort
    · exact nameFits_of_long ht hlong newName
    · exact Or.inl (hvalid (htyped MAX_TAG_CHARS (Nat.le_refl _) hshort))

end OakKeyring
