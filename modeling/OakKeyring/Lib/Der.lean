import OakKeyring.Lib.Endian

/-!
# Positive integers and sequences in DER

A tag, the length of the content and the content. A length below 128 is one byte, a longer one is
preceded by the number of its bytes.
-/

namespace Der

def length (n : Nat) : List UInt8 :=
  if n < 128 then [UInt8.ofNat n]
  else UInt8.ofNat (128 + (Endian.big n).length) :: Endian.big n

def element (tag : UInt8) (content : List UInt8) : List UInt8 :=
  tag :: length content.length ++ content

def integer (n : Nat) : List UInt8 :=
  element 0x02 (Endian.signed n)

def sequence (content : List UInt8) : List UInt8 :=
  element 0x30 content

theorem length_length_le {n : Nat} (h : n < 256) : (length n).length ≤ 2 := by
  have hbig : (Endian.big n).length ≤ 1 := Endian.length_big_le (by simpa using h)
  unfold length
  split
  · simp
  · simpa using hbig

theorem length_element_le {tag : UInt8} {content : List UInt8} (h : content.length < 256) :
    (element tag content).length ≤ content.length + 3 := by
  have hlength := length_length_le h
  simp only [element, List.length_cons, List.length_append]
  omega

end Der
