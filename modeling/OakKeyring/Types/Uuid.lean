import Mathlib.Data.List.Basic

/-!
# Record identifiers

Local tables key records by `Uuid`; the cloud side keys them by the identifier's text.
`toText` is the hyphenated lower-case form the code prints and `parseStr` accepts the four
forms of `Uuid::parse_str`.
-/

namespace OakKeyring

/-- A 128-bit identifier as its 32 hexadecimal digits. -/
structure Uuid where
  digits : List (Fin 16)
  length_digits : digits.length = 32
deriving DecidableEq, Repr

namespace Uuid

instance sixteen : @NeZero Nat Zero.ofOfNat0 16 :=
  ⟨by decide⟩

/-- The identifier with one digit throughout. -/
def filled (digit : Fin 16) : Uuid :=
  ⟨List.replicate 32 digit, rfl⟩

/-- The lower-case hexadecimal digit of a nibble. -/
def hexChar (d : Fin 16) : Char :=
  if d.val < 10 then Char.ofNat (48 + d.val) else Char.ofNat (87 + d.val)

/-- The nibble of a hexadecimal digit in either case. -/
def hexVal (c : Char) : Option (Fin 16) :=
  if '0' ≤ c ∧ c ≤ '9' then some (Fin.ofNat 16 (c.toNat - 48))
  else if 'a' ≤ c ∧ c ≤ 'f' then some (Fin.ofNat 16 (c.toNat - 87))
  else if 'A' ≤ c ∧ c ≤ 'F' then some (Fin.ofNat 16 (c.toNat - 55))
  else none

@[simp] theorem hexVal_hexChar (d : Fin 16) : hexVal (hexChar d) = some d := by
  revert d
  decide

/-- The 8-4-4-4-12 grouping of 32 digits. -/
def hyphenate (cs : List Char) : List Char :=
  cs.take 8 ++ '-' :: (cs.drop 8).take 4 ++ '-' :: (cs.drop 12).take 4 ++
    '-' :: (cs.drop 16).take 4 ++ '-' :: cs.drop 20

/-- The text of an identifier, as `Uuid::to_string` prints it. -/
def toText (u : Uuid) : String :=
  String.ofList (hyphenate (u.digits.map hexChar))

/-- An identifier from exactly 32 hexadecimal digits. -/
def ofDigits? (cs : List Char) : Option Uuid :=
  match cs.mapM hexVal with
  | some ds => if h : ds.length = 32 then some ⟨ds, h⟩ else none
  | none => none

/-- The hyphenated form: hyphens at 8, 13, 18 and 23, digits everywhere else. -/
def parseHyphenated (cs : List Char) : Option Uuid :=
  if cs[8]? = some '-' ∧ cs[13]? = some '-' ∧ cs[18]? = some '-' ∧ cs[23]? = some '-' then
    ofDigits? (cs.take 8 ++ (cs.drop 9).take 4 ++ (cs.drop 14).take 4 ++
      (cs.drop 19).take 4 ++ cs.drop 24)
  else none

/-- `Uuid::parse_str`: simple, hyphenated, braced and URN forms. -/
def parseStr (s : String) : Option Uuid :=
  let cs := s.toList
  if cs.length = 32 then ofDigits? cs
  else if cs.length = 36 then parseHyphenated cs
  else if cs.length = 38 then
    if cs.head? = some '{' ∧ cs.getLast? = some '}' then parseHyphenated (cs.drop 1).dropLast
    else none
  else if cs.length = 45 then
    if cs.take 9 = "urn:uuid:".toList then parseHyphenated (cs.drop 9) else none
  else none

/-- `Uuid::default()`, the nil identifier. -/
def nil : Uuid where
  digits := List.replicate 32 0
  length_digits := by simp

theorem ofDigits?_map_hexChar (u : Uuid) : ofDigits? (u.digits.map hexChar) = some u := by
  have hmap : (u.digits.map hexChar).mapM hexVal = some u.digits := by
    induction u.digits with
    | nil => rfl
    | cons d ds ih => simp [ih]
  simp [ofDigits?, hmap, u.length_digits]

/-- Five groups of digits are read back from between their hyphens. -/
theorem parseHyphenated_groups {a b c d e : List Char} (ha : a.length = 8)
    (hb : b.length = 4) (hc : c.length = 4) (hd : d.length = 4) :
    parseHyphenated (a ++ '-' :: b ++ '-' :: c ++ '-' :: d ++ '-' :: e) =
      ofDigits? (a ++ b ++ c ++ d ++ e) := by
  simp [parseHyphenated, List.getElem?_append, List.drop_append,
    List.drop_eq_nil_of_le, ha, hb, hc, hd]

theorem parseHyphenated_hyphenate {cs : List Char} (hcs : cs.length = 32) :
    parseHyphenated (hyphenate cs) = ofDigits? cs := by
  have hjoin : cs.take 8 ++ (cs.drop 8).take 4 ++ (cs.drop 12).take 4 ++
      (cs.drop 16).take 4 ++ cs.drop 20 = cs := by
    have h8 := List.take_append_drop 8 cs
    have h12 := List.take_append_drop 4 (cs.drop 8)
    have h16 := List.take_append_drop 4 (cs.drop 12)
    have h20 := List.take_append_drop 4 (cs.drop 16)
    simp only [List.drop_drop, Nat.reduceAdd] at h12 h16 h20
    rw [List.append_assoc, List.append_assoc, List.append_assoc, h20, h16, h12, h8]
  rw [hyphenate, parseHyphenated_groups (by simp [hcs]) (by simp [hcs]) (by simp [hcs])
    (by simp [hcs]), hjoin]

/-- Parsing what was printed gives the identifier back. -/
@[simp] theorem parseStr_toText (u : Uuid) : parseStr u.toText = some u := by
  have hlen : (u.digits.map hexChar).length = 32 := by simp [u.length_digits]
  have htext : (hyphenate (u.digits.map hexChar)).length = 36 := by
    simp [hyphenate, u.length_digits]
  have hparse : parseStr u.toText = parseHyphenated (hyphenate (u.digits.map hexChar)) := by
    simp [parseStr, toText, htext]
  rw [hparse, parseHyphenated_hyphenate hlen, ofDigits?_map_hexChar]

theorem toText_injective : Function.Injective toText := by
  intro u v h
  have hparse : parseStr u.toText = parseStr v.toText := by rw [h]
  simpa using hparse

@[simp] theorem toText_inj {u v : Uuid} : u.toText = v.toText ↔ u = v :=
  toText_injective.eq_iff

end Uuid

end OakKeyring
