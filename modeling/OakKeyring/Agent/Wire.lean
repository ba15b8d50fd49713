import OakKeyring.Agent.Server

/-!
# Strings on the wire

A number of 32 bits and a string of less than so many bytes are read back, and what is read as a
string is one that was written.
-/

namespace OakKeyring

namespace AgentServer

@[simp] theorem length_u32Bytes (n : Nat) : (u32Bytes n).length = 4 := rfl

@[simp] theorem length_writeString (bytes : Bytes) :
    (writeString bytes).length = 4 + bytes.length := by
  simp [writeString]

/-- The number that four bytes say. -/
def u32OfBytes (a b c d : UInt8) : Nat :=
  ((a.toNat * 256 + b.toNat) * 256 + c.toNat) * 256 + d.toNat

theorem u32OfBytes_lt (a b c d : UInt8) : u32OfBytes a b c d < 2 ^ 32 := by
  have ha := a.toNat_lt
  have hb := b.toNat_lt
  have hc := c.toNat_lt
  have hd := d.toNat_lt
  simp only [u32OfBytes]
  omega

theorem readU32_cons (a b c d : UInt8) (rest : Bytes) :
    readU32 (a :: b :: c :: d :: rest) = some (u32OfBytes a b c d, rest) := rfl

theorem readU32_u32Bytes {n : Nat} (h : n < 2 ^ 32) (rest : Bytes) :
    readU32 (u32Bytes n ++ rest) = some (n, rest) := by
  have hvalue : u32OfBytes (UInt8.ofNat (n / 16777216)) (UInt8.ofNat (n / 65536))
      (UInt8.ofNat (n / 256)) (UInt8.ofNat n) = n := by
    simp only [u32OfBytes, UInt8.toNat_ofNat']
    omega
  calc readU32 (u32Bytes n ++ rest)
      = some (u32OfBytes (UInt8.ofNat (n / 16777216)) (UInt8.ofNat (n / 65536))
          (UInt8.ofNat (n / 256)) (UInt8.ofNat n), rest) := rfl
    _ = some (n, rest) := by rw [hvalue]

/-- The four bytes that a number was read from are those that it is written as. -/
theorem u32Bytes_u32OfBytes (a b c d : UInt8) : u32Bytes (u32OfBytes a b c d) = [a, b, c, d] := by
  have ha := a.toNat_lt
  have hb := b.toNat_lt
  have hc := c.toNat_lt
  have hd := d.toNat_lt
  have hbyte : ∀ (n : Nat) (x : UInt8), n % 256 = x.toNat → UInt8.ofNat n = x := fun n x h => by
    apply UInt8.toNat_inj.1
    rw [UInt8.toNat_ofNat', h]
  simp only [u32Bytes, List.cons.injEq, and_true]
  refine ⟨hbyte _ a ?_, hbyte _ b ?_, hbyte _ c ?_, hbyte _ d ?_⟩
  all_goals
    simp only [u32OfBytes]
    omega

theorem readU32_eq_some {input rest : Bytes} {n : Nat} (h : readU32 input = some (n, rest)) :
    input = u32Bytes n ++ rest ∧ n < 2 ^ 32 := by
  match input with
  | a :: b :: c :: d :: tail =>
      rw [readU32_cons] at h
      obtain ⟨rfl, rfl⟩ := Prod.mk.inj (Option.some.inj h)
      rw [u32Bytes_u32OfBytes]
      exact ⟨rfl, u32OfBytes_lt a b c d⟩
  | [] => cases h
  | [_] => cases h
  | [_, _] => cases h
  | [_, _, _] => cases h

theorem readU32_eq_none {input : Bytes} (h : input.length < 4) : readU32 input = none := by
  match input with
  | [] => rfl
  | [_] => rfl
  | [_, _] => rfl
  | [_, _, _] => rfl
  | _ :: _ :: _ :: _ :: tail =>
      simp only [List.length_cons] at h
      omega

theorem readString_writeString {bytes : Bytes} (h : bytes.length < 2 ^ 32) (rest : Bytes) :
    readString (writeString bytes ++ rest) = some (bytes, rest) := by
  have hu32 := readU32_u32Bytes h (bytes ++ rest)
  have hlen : ¬ (bytes ++ rest).length < bytes.length := by simp
  rw [readString, writeString, List.append_assoc, hu32]
  simp only [hlen, if_false, List.take_left, List.drop_left]

/-- Nothing else is read as a string. -/
theorem readString_eq_some {input bytes rest : Bytes} (h : readString input = some (bytes, rest)) :
    input = writeString bytes ++ rest ∧ bytes.length < 2 ^ 32 := by
  unfold readString at h
  cases hu32 : readU32 input with
  | none => simp [hu32] at h
  | some read =>
      obtain ⟨len, tail⟩ := read
      obtain ⟨hinput, hlt⟩ := readU32_eq_some hu32
      by_cases hshort : tail.length < len
      · simp [hu32, hshort] at h
      · simp only [hu32, hshort, if_false, Option.some.injEq, Prod.mk.injEq] at h
        obtain ⟨rfl, rfl⟩ := h
        have hlen : (tail.take len).length = len := by
          rw [List.length_take]
          omega
        rw [writeString, hlen, List.append_assoc, List.take_append_drop]
        exact ⟨hinput, hlt⟩

end AgentServer

end OakKeyring
