import Mathlib.Data.Nat.Digits.Lemmas

/-!
# Numbers as bytes

Of a fixed width, the lowest byte first, and of minimal length, the highest byte first. A number
that fits into the width is read back, and so is one of minimal length.
-/

namespace Endian

/-- The low bytes of a number, the lowest first. -/
def little : Nat → Nat → List UInt8
  | 0, _ => []
  | w + 1, n => UInt8.ofNat n :: little w (n / 256)

/-- The number that the bytes say. -/
def ofLittle (bs : List UInt8) : Nat :=
  Nat.ofDigits 256 (bs.map UInt8.toNat)

@[simp] theorem length_little (w n : Nat) : (little w n).length = w := by
  induction w generalizing n with
  | zero => rfl
  | succ w ih => simp [little, ih]

theorem ofLittle_cons (b : UInt8) (bs : List UInt8) :
    ofLittle (b :: bs) = b.toNat + 256 * ofLittle bs := by
  simp [ofLittle, Nat.ofDigits_cons]

theorem ofLittle_little {w n : Nat} (h : n < 256 ^ w) : ofLittle (little w n) = n := by
  induction w generalizing n with
  | zero =>
      have hzero : n = 0 := by simpa using h
      simp [little, ofLittle, hzero]
  | succ w ih =>
      have hdiv : n / 256 < 256 ^ w := by
        rw [Nat.pow_succ] at h
        exact Nat.div_lt_of_lt_mul (by omega)
      have hbyte : (UInt8.ofNat n).toNat = n % 256 := UInt8.toNat_ofNat'
      calc ofLittle (little (w + 1) n)
          = n % 256 + 256 * ofLittle (little w (n / 256)) := by
            rw [little, ofLittle_cons, hbyte]
        _ = n % 256 + 256 * (n / 256) := by rw [ih hdiv]
        _ = n := Nat.mod_add_div n 256

/-! ## Minimal length -/

/-- The bytes of a number without leading zeros, the highest first. -/
def big (n : Nat) : List UInt8 :=
  ((Nat.digits 256 n).map UInt8.ofNat).reverse

def ofBig (bs : List UInt8) : Nat :=
  ofLittle bs.reverse

/-- A number as a signed one of minimal length: a zero byte comes first where the top bit is
set. -/
def signed (n : Nat) : List UInt8 :=
  match big n with
  | [] => []
  | b :: bs => if 128 ≤ b.toNat then 0 :: b :: bs else b :: bs

theorem ofBig_big (n : Nat) : ofBig (big n) = n := by
  have hdigits : ((Nat.digits 256 n).map UInt8.ofNat).map UInt8.toNat = Nat.digits 256 n := by
    rw [List.map_map]
    refine (List.map_congr_left fun d hd => ?_).trans (List.map_id _)
    have hlt : d < 256 := Nat.digits_lt_base (by decide) hd
    exact UInt8.toNat_ofNat_of_lt hlt
  calc ofBig (big n)
      = Nat.ofDigits 256 (((Nat.digits 256 n).map UInt8.ofNat).map UInt8.toNat) := by
        rw [ofBig, big, List.reverse_reverse, ofLittle]
    _ = n := by rw [hdigits, Nat.ofDigits_digits]

theorem ofBig_zero_cons (bs : List UInt8) : ofBig (0 :: bs) = ofBig bs := by
  simp [ofBig, ofLittle, Nat.ofDigits_append]

theorem ofBig_signed (n : Nat) : ofBig (signed n) = n := by
  have hbig := ofBig_big n
  unfold signed
  cases hcases : big n with
  | nil => rwa [hcases] at hbig
  | cons b bs =>
      rw [hcases] at hbig
      by_cases htop : 128 ≤ b.toNat
      · simp only [htop, if_true, ofBig_zero_cons, hbig]
      · simp only [htop, if_false, hbig]

theorem length_big_le {n k : Nat} (h : n < 256 ^ k) : (big n).length ≤ k := by
  rw [big, List.length_reverse, List.length_map]
  exact (Nat.digits_length_le_iff (by decide) n).2 h

theorem length_signed_le {n k : Nat} (h : n < 256 ^ k) : (signed n).length ≤ k + 1 := by
  have hbig := length_big_le h
  unfold signed
  cases hcases : big n with
  | nil => exact Nat.zero_le _
  | cons b bs =>
      rw [hcases] at hbig
      by_cases htop : 128 ≤ b.toNat
      · simpa only [htop, if_true, List.length_cons, Nat.add_le_add_iff_right] using hbig
      · simpa only [htop, if_false] using Nat.le_succ_of_le hbig

end Endian
