import Mathlib.Data.List.Basic

/-!
# Forms in a text

Names and values are written with an equals sign between them and an ampersand between two
pairs. A byte may be written as a percent sign with two hexadecimal digits.
-/

namespace FormData

variable {plain : UInt8 → Bool} {bs : List UInt8} {text : List Char} {c : Char} {n : Nat}

/-- The UTF-8 bytes of a text. -/
def bytes (text : List Char) : List UInt8 :=
  text.flatMap String.utf8EncodeChar

/-! ## Bytes -/

/-- A hexadecimal digit, in either case. -/
def hexValue (c : Char) : Option Nat :=
  if 48 ≤ c.toNat ∧ c.toNat ≤ 57 then some (c.toNat - 48)
  else if 65 ≤ c.toNat ∧ c.toNat ≤ 70 then some (c.toNat - 55)
  else if 97 ≤ c.toNat ∧ c.toNat ≤ 102 then some (c.toNat - 87)
  else none

/-- A percent sign without two digits stands for itself, and a plus sign for a space. -/
def decode : List Char → List UInt8
  | [] => []
  | c :: text =>
      if c = '%' then
        match text with
        | [] => [37]
        | [d] => 37 :: decode [d]
        | a :: b :: text =>
            match hexValue a, hexValue b with
            | some high, some low => UInt8.ofNat (16 * high + low) :: decode text
            | _, _ => 37 :: decode (a :: b :: text)
      else if c = '+' then 32 :: decode text
      else String.utf8EncodeChar c ++ decode text

def hexDigit (n : Nat) : Char :=
  Char.ofNat (if n < 10 then 48 + n else 55 + n)

def escaped (b : UInt8) : List Char :=
  ['%', hexDigit (b.toNat / 16), hexDigit (b.toNat % 16)]

/-- The bytes that may stand as they are. -/
def encode (plain : UInt8 → Bool) (bs : List UInt8) : List Char :=
  bs.flatMap fun b => if plain b then [Char.ofUInt8 b] else escaped b

/-- What stands as it is, is ASCII and has no other meaning in a form. -/
def Unambiguous (plain : UInt8 → Bool) : Prop :=
  ∀ b, plain b = true → b.toNat < 128 ∧ b.toNat ∉ [35, 37, 38, 43, 61]

theorem hexValue_hexDigit (h : n < 16) : hexValue (hexDigit n) = some n := by
  have hall : ∀ m : Fin 16, hexValue (hexDigit m.val) = some m.val := by decide
  exact hall ⟨n, h⟩

theorem decode_escaped (b : UInt8) (text : List Char) :
    decode (escaped b ++ text) = b :: decode text := by
  have hhigh : hexValue (hexDigit (b.toNat / 16)) = some (b.toNat / 16) := by
    apply hexValue_hexDigit
    have hbound := b.toNat_lt
    omega
  have hlow : hexValue (hexDigit (b.toNat % 16)) = some (b.toNat % 16) :=
    hexValue_hexDigit (Nat.mod_lt _ (by omega))
  have hbyte : UInt8.ofNat (16 * (b.toNat / 16) + b.toNat % 16) = b := by
    rw [Nat.div_add_mod]
    exact UInt8.ofNat_toNat
  simp [escaped, decode, hhigh, hlow, hbyte]

theorem decode_cons (hpercent : c ≠ '%') (hplus : c ≠ '+') :
    decode (c :: text) = String.utf8EncodeChar c ++ decode text := by
  have hstep := decode.eq_def (c :: text)
  simpa only [if_neg hpercent, if_neg hplus] using hstep

theorem decode_eq_bytes (h : ∀ c ∈ text, c ≠ '%' ∧ c ≠ '+') : decode text = bytes text := by
  induction text with
  | nil => simp [decode, bytes]
  | cons c text ih =>
      have hc := h c List.mem_cons_self
      have hrest := ih fun d hd => h d (List.mem_cons_of_mem c hd)
      rw [decode_cons hc.1 hc.2, hrest]
      simp [bytes]

theorem utf8EncodeChar_ofUInt8 {b : UInt8} (h : b.toNat < 128) :
    String.utf8EncodeChar (Char.ofUInt8 b) = [b] := by
  have hval : (Char.ofUInt8 b).val = b.toUInt32 := rfl
  have hsize : (Char.ofUInt8 b).utf8Size = 1 := by
    rw [Char.utf8Size_eq_one_iff, hval]
    exact Nat.le_of_lt_succ h
  rw [String.utf8EncodeChar_eq_singleton hsize, hval]
  simp

theorem ofUInt8_ne {b : UInt8} (h : b.toNat ≠ c.toNat) : Char.ofUInt8 b ≠ c := by
  intro heq
  apply h
  rw [← heq]
  rfl

/-- What was encoded is read back, whatever follows it. -/
theorem decode_encode (hplain : Unambiguous plain) (bs : List UInt8) :
    decode (encode plain bs) = bs := by
  induction bs with
  | nil => simp [encode, decode]
  | cons b bs ih =>
      have hcons : encode plain (b :: bs) =
          (if plain b then [Char.ofUInt8 b] else escaped b) ++ encode plain bs := by
        simp [encode]
      rw [hcons]
      by_cases hb : plain b = true
      · have hkept := hplain b hb
        simp only [List.mem_cons, List.not_mem_nil, or_false, not_or] at hkept
        have hpercent : Char.ofUInt8 b ≠ '%' := ofUInt8_ne hkept.2.2.1
        have hplus : Char.ofUInt8 b ≠ '+' := ofUInt8_ne hkept.2.2.2.2.1
        rw [if_pos hb, List.singleton_append, decode_cons hpercent hplus,
          utf8EncodeChar_ofUInt8 hkept.1, ih]
        rfl
      · rw [if_neg hb, decode_escaped, ih]

/-- An encoded text has no sign that ends it. -/
theorem encode_free (hplain : Unambiguous plain) (hc : c ∈ encode plain bs) :
    c ≠ '&' ∧ c ≠ '=' ∧ c ≠ '#' := by
  have hdigits : ∀ m : Fin 16, hexDigit m.val ≠ '&' ∧ hexDigit m.val ≠ '=' ∧
      hexDigit m.val ≠ '#' := by decide
  obtain ⟨b, -, hc⟩ := List.mem_flatMap.mp hc
  by_cases hb : plain b = true
  · have hkept := hplain b hb
    simp only [List.mem_cons, List.not_mem_nil, or_false, not_or] at hkept
    rw [if_pos hb, List.mem_singleton] at hc
    rw [hc]
    exact ⟨ofUInt8_ne hkept.2.2.2.1, ofUInt8_ne hkept.2.2.2.2.2, ofUInt8_ne hkept.2.1⟩
  · rw [if_neg hb] at hc
    simp only [escaped, List.mem_cons, List.not_mem_nil, or_false] at hc
    have hbound := b.toNat_lt
    rcases hc with hc | hc | hc
    · rw [hc]
      decide
    · rw [hc]
      exact hdigits ⟨b.toNat / 16, by omega⟩
    · rw [hc]
      exact hdigits ⟨b.toNat % 16, by omega⟩

/-! ## Pairs -/

def written (pairs : List (List Char × List Char)) : List Char :=
  ['&'].intercalate (pairs.map fun pair => pair.1 ++ '=' :: pair.2)

theorem written_singleton (name value : List Char) :
    written [(name, value)] = name ++ '=' :: value := by
  simp [written]

theorem written_cons_cons (name value : List Char) (pair : List Char × List Char)
    (pairs : List (List Char × List Char)) :
    written ((name, value) :: pair :: pairs) =
      name ++ '=' :: (value ++ '&' :: written (pair :: pairs)) := by
  simp [written, List.intercalate_cons_cons]

theorem notMem_written {pairs : List (List Char × List Char)} (hamp : c ≠ '&') (heq : c ≠ '=')
    (h : ∀ pair ∈ pairs, c ∉ pair.1 ∧ c ∉ pair.2) : c ∉ written pairs := by
  induction pairs with
  | nil => simp [written]
  | cons pair pairs ih =>
      obtain ⟨name, value⟩ := pair
      have hpair := h (name, value) List.mem_cons_self
      have hrest := ih fun other hother => h other (List.mem_cons_of_mem _ hother)
      cases pairs with
      | nil => simp [written_singleton, heq, hpair.1, hpair.2]
      | cons next pairs => simp [written_cons_cons, hamp, heq, hpair.1, hpair.2, hrest]

/-- A piece is cut at its first equals sign, and empty pieces are left out. -/
def read (text : List Char) : List (List UInt8 × List UInt8) :=
  ((text.splitOn '&').filter fun piece => !piece.isEmpty).map fun piece =>
    (decode (piece.takeWhile (· ≠ '=')), decode ((piece.dropWhile (· ≠ '=')).drop 1))

theorem read_written {pairs : List (List Char × List Char)} (hne : pairs ≠ [])
    (hnames : ∀ pair ∈ pairs, '&' ∉ pair.1 ∧ '=' ∉ pair.1 ∧ '&' ∉ pair.2) :
    read (written pairs) = pairs.map fun pair => (decode pair.1, decode pair.2) := by
  -- neither a name nor a value has the separator in it
  have hsplit : (written pairs).splitOn '&' = pairs.map fun pair => pair.1 ++ '=' :: pair.2 := by
    apply List.splitOn_intercalate
    · intro piece hpiece
      obtain ⟨pair, hpair, heq⟩ := List.mem_map.mp hpiece
      have hfree := hnames pair hpair
      rw [← heq]
      simp [hfree.1, hfree.2.2]
    · simpa using hne
  -- no pair is empty, as each has its equals sign
  have hfull : (pairs.map fun pair => pair.1 ++ '=' :: pair.2).filter
      (fun piece => !piece.isEmpty) = pairs.map fun pair => pair.1 ++ '=' :: pair.2 := by
    apply List.filter_eq_self.mpr
    intro piece hpiece
    obtain ⟨pair, -, heq⟩ := List.mem_map.mp hpiece
    rw [← heq]
    simp
  unfold read
  rw [hsplit, hfull, List.map_map]
  apply List.map_congr_left
  intro pair hpair
  have hname : ∀ c ∈ pair.1, decide (c ≠ '=') = true := by
    intro c hc
    apply decide_eq_true
    intro heq
    exact (hnames pair hpair).2.1 (heq ▸ hc)
  simp only [Function.comp_apply]
  rw [List.takeWhile_append_of_pos hname, List.dropWhile_append_of_pos hname]
  simp

end FormData
