import Mathlib.Data.List.Basic

/-!
# Cipher block chaining

A block cipher encrypts one block. Chaining adds to each block the one encrypted before it, which
for the first is the initial vector.
-/

/-- A block cipher under one key, and the addition of blocks. -/
structure BlockCipher (B : Type) where
  encrypt : B → B
  decrypt : B → B
  add : B → B → B
  decrypt_encrypt : ∀ b, decrypt (encrypt b) = b
  add_add : ∀ a b, add (add a b) b = a

namespace BlockCipher

variable {B : Type} (c : BlockCipher B)

def chainEncrypt : B → List B → List B
  | _, [] => []
  | iv, p :: ps => c.encrypt (c.add p iv) :: chainEncrypt (c.encrypt (c.add p iv)) ps

def chainDecrypt : B → List B → List B
  | _, [] => []
  | iv, e :: es => c.add (c.decrypt e) iv :: chainDecrypt e es

@[simp] theorem length_chainEncrypt (iv : B) (ps : List B) :
    (c.chainEncrypt iv ps).length = ps.length := by
  induction ps generalizing iv with
  | nil => rfl
  | cons p ps ih => simp [chainEncrypt, ih]

@[simp] theorem length_chainDecrypt (iv : B) (es : List B) :
    (c.chainDecrypt iv es).length = es.length := by
  induction es generalizing iv with
  | nil => rfl
  | cons e es ih => simp [chainDecrypt, ih]

/-- What was chained is taken apart again. -/
theorem chainDecrypt_chainEncrypt (iv : B) (ps : List B) :
    c.chainDecrypt iv (c.chainEncrypt iv ps) = ps := by
  induction ps generalizing iv with
  | nil => rfl
  | cons p ps ih =>
      rw [chainEncrypt, chainDecrypt, ih, c.decrypt_encrypt, c.add_add]

end BlockCipher
