import OakKeyring.Crypto.Manager
import OakKeyring.Samples.Sha256

/-!
# Reference ciphers

HKDF-SHA256 and XChaCha20-Poly1305 as functions on bytes, with the one law the crypto layer
relies on.
-/

namespace OakKeyring

namespace Hkdf

def word (w : Nat) : List Nat :=
  [w / 16777216, w / 65536 % 256, w / 256 % 256, w % 256]

def digest (bs : List Nat) : List Nat :=
  (Sha256.hash bs).flatMap word

/-- HMAC-SHA256 with a key of at most 64 bytes. -/
def hmac (key message : List Nat) : List Nat :=
  let block := key ++ List.replicate (64 - key.length) 0
  digest (block.map (Nat.xor 0x5c) ++ digest (block.map (Nat.xor 0x36) ++ message))

/-- The first 32 bytes of output. -/
def expand32 (salt ikm info : Bytes) : Bytes :=
  let prk := hmac (salt.map UInt8.toNat) (ikm.map UInt8.toNat)
  (hmac prk (info.map UInt8.toNat ++ [1])).map UInt8.ofNat

/-- Outputs that are asked for again and again: salt, input key material, info. -/
def outputs : List ((Bytes × Bytes × Bytes) × Bytes) :=
  [((utf8 "open-keyring-dek", List.replicate 32 7, utf8 "dek-v1"),
      [183, 242, 40, 72, 237, 89, 193, 105, 129, 131, 244, 177, 46, 233, 37, 153, 27, 129, 150, 154,
        18, 72, 39, 157, 212, 220, 129, 245, 50, 137, 60, 167]),
    ((utf8 "open-keyring-v1", List.replicate 32 5, utf8 "master-kek"),
      [221, 38, 191, 156, 174, 180, 9, 81, 140, 44, 70, 104, 218, 184, 29, 102, 102, 65, 12, 213,
        227, 123, 74, 194, 84, 97, 197, 7, 10, 144, 79, 200]),
    ((utf8 "open-keyring-dek",
        [221, 38, 191, 156, 174, 180, 9, 81, 140, 44, 70, 104, 218, 184, 29, 102, 102, 65, 12, 213,
          227, 123, 74, 194, 84, 97, 197, 7, 10, 144, 79, 200], utf8 "dek-v1"),
      [113, 14, 252, 30, 118, 213, 177, 228, 165, 234, 107, 116, 237, 127, 88, 237, 11, 1, 45, 131,
        232, 61, 255, 37, 241, 232, 128, 32, 237, 51, 180, 143])]

/-- `expand32`, with its known outputs looked up. -/
def derive (salt ikm info : Bytes) : Bytes :=
  match outputs.find? fun e => e.1 == (salt, ikm, info) with
  | some e => e.2
  | none => expand32 salt ikm info

theorem derive_eq_expand32 (salt ikm info : Bytes) : derive salt ikm info = expand32 salt ikm info := by
  have houtputs : ∀ e ∈ outputs, expand32 e.1.1 e.1.2.1 e.1.2.2 = e.2 := by
    decide +kernel
  unfold derive
  cases hfound : outputs.find? fun e => e.1 == (salt, ikm, info) with
  | none => rfl
  | some e =>
      have hinput : e.1 = (salt, ikm, info) := by simpa using List.find?_some hfound
      have houtput := houtputs e (List.mem_of_find?_eq_some hfound)
      rw [hinput] at houtput
      exact houtput.symm

end Hkdf

namespace ChaCha20

/-- The sixteen words of the state, by rows. -/
structure Block where
  x0 : Nat
  x1 : Nat
  x2 : Nat
  x3 : Nat
  x4 : Nat
  x5 : Nat
  x6 : Nat
  x7 : Nat
  x8 : Nat
  x9 : Nat
  x10 : Nat
  x11 : Nat
  x12 : Nat
  x13 : Nat
  x14 : Nat
  x15 : Nat

def rotl (x n : Nat) : Nat :=
  Nat.lor ((x <<< n) % 4294967296) (x >>> (32 - n))

def quarterRound (a b c d : Nat) : Nat × Nat × Nat × Nat :=
  let a := Sha256.add a b
  let d := rotl (Nat.xor d a) 16
  let c := Sha256.add c d
  let b := rotl (Nat.xor b c) 12
  let a := Sha256.add a b
  let d := rotl (Nat.xor d a) 8
  let c := Sha256.add c d
  let b := rotl (Nat.xor b c) 7
  (a, b, c, d)

/-- A column round and a diagonal round. -/
def doubleRound (s : Block) : Block :=
  let (x0, x4, x8, x12) := quarterRound s.x0 s.x4 s.x8 s.x12
  let (x1, x5, x9, x13) := quarterRound s.x1 s.x5 s.x9 s.x13
  let (x2, x6, x10, x14) := quarterRound s.x2 s.x6 s.x10 s.x14
  let (x3, x7, x11, x15) := quarterRound s.x3 s.x7 s.x11 s.x15
  let (x0, x5, x10, x15) := quarterRound x0 x5 x10 x15
  let (x1, x6, x11, x12) := quarterRound x1 x6 x11 x12
  let (x2, x7, x8, x13) := quarterRound x2 x7 x8 x13
  let (x3, x4, x9, x14) := quarterRound x3 x4 x9 x14
  ⟨x0, x1, x2, x3, x4, x5, x6, x7, x8, x9, x10, x11, x12, x13, x14, x15⟩

def rounds : Nat → Block → Block
  | 0, s => s
  | n + 1, s => rounds n (doubleRound s)

/-- Little-endian words of four bytes. -/
def words : List Nat → List Nat
  | a :: b :: c :: d :: rest => (((d * 256 + c) * 256 + b) * 256 + a) :: words rest
  | _ => []

def load (key rest : List Nat) : Block :=
  let k := fun i => key.getD i 0
  let r := fun i => rest.getD i 0
  ⟨0x61707865, 0x3320646e, 0x79622d32, 0x6b206574, k 0, k 1, k 2, k 3, k 4, k 5, k 6, k 7,
    r 0, r 1, r 2, r 3⟩

def bytes (w : Nat) : List Nat :=
  [w % 256, w / 256 % 256, w / 65536 % 256, w / 16777216]

/-- One block of the key stream. -/
def block (key : List Nat) (counter : Nat) (nonce : List Nat) : List Nat :=
  let s := load key (counter :: nonce)
  let t := rounds 10 s
  [Sha256.add s.x0 t.x0, Sha256.add s.x1 t.x1, Sha256.add s.x2 t.x2, Sha256.add s.x3 t.x3,
    Sha256.add s.x4 t.x4, Sha256.add s.x5 t.x5, Sha256.add s.x6 t.x6, Sha256.add s.x7 t.x7,
    Sha256.add s.x8 t.x8, Sha256.add s.x9 t.x9, Sha256.add s.x10 t.x10, Sha256.add s.x11 t.x11,
    Sha256.add s.x12 t.x12, Sha256.add s.x13 t.x13, Sha256.add s.x14 t.x14,
    Sha256.add s.x15 t.x15].flatMap bytes

/-- HChaCha20: the key for one extended nonce. -/
def subkey (key nonce : List Nat) : List Nat :=
  let t := rounds 10 (load key nonce)
  [t.x0, t.x1, t.x2, t.x3, t.x12, t.x13, t.x14, t.x15]

/-- `n` blocks of key stream. -/
def stream (key nonce : List Nat) (counter : Nat) : Nat → List Nat
  | 0 => []
  | n + 1 => block key counter nonce ++ stream key nonce (counter + 1) n

theorem length_stream (key nonce : List Nat) (counter n : Nat) :
    (stream key nonce counter n).length = 64 * n := by
  induction n generalizing counter with
  | zero => rfl
  | succ n ih =>
      have hblock : (block key counter nonce).length = 64 := rfl
      rw [stream, List.length_append, hblock, ih]
      omega

end ChaCha20

namespace Poly1305

def littleEndian (bs : List Nat) : Nat :=
  bs.foldr (fun b n => n * 256 + b) 0

/-- The accumulator after every block of sixteen bytes. -/
def accumulate (r : Nat) : Nat → List Nat → Nat → Nat
  | 0, _, acc => acc
  | n + 1, bs, acc =>
      let chunk := bs.take 16
      let value := littleEndian chunk + 256 ^ chunk.length
      accumulate r n (bs.drop 16) ((acc + value) * r % (2 ^ 130 - 5))

def littleBytes : Nat → Nat → List Nat
  | 0, _ => []
  | n + 1, w => w % 256 :: littleBytes n (w / 256)

def tag (key message : List Nat) : List Nat :=
  let r := Nat.land (littleEndian (key.take 16)) 0x0ffffffc0ffffffc0ffffffc0fffffff
  let s := littleEndian ((key.drop 16).take 16)
  littleBytes 16 (accumulate r ((message.length + 15) / 16) message 0 + s)

end Poly1305

namespace Aead

/-- What a key and a nonce fix: the cipher's key and the rest of the nonce. -/
def keyWords (key : Bytes) (nonce : Nonce) : List Nat × List Nat :=
  let n := ChaCha20.words (nonce.bytes.map UInt8.toNat)
  (ChaCha20.subkey (ChaCha20.words (key.map UInt8.toNat)) (n.take 4), 0 :: n.drop 4)

def mask (key : Bytes) (nonce : Nonce) (bs : Bytes) : Bytes :=
  let (k, n) := keyWords key nonce
  List.zipWith (fun b m => b ^^^ UInt8.ofNat m) bs
    (ChaCha20.stream k n 1 ((bs.length + 63) / 64))

def padded (bs : Bytes) : List Nat :=
  bs.map UInt8.toNat ++ List.replicate ((16 - bs.length % 16) % 16) 0

/-- The sixteen bytes that authenticate a ciphertext with its additional data. -/
def tagOf (key : Bytes) (nonce : Nonce) (aad ciphertext : Bytes) : Bytes :=
  let (k, n) := keyWords key nonce
  let message := padded aad ++ padded ciphertext ++ Poly1305.littleBytes 8 aad.length ++
    Poly1305.littleBytes 8 ciphertext.length
  (Poly1305.tag (ChaCha20.block k 0 n) message).map UInt8.ofNat

def encrypt (plaintext aad key : Bytes) (nonce : Nonce) : Except String Bytes :=
  let ciphertext := mask key nonce plaintext
  .ok (ciphertext ++ tagOf key nonce aad ciphertext)

def decrypt (data : Bytes) (nonce : Nonce) (aad key : Bytes) : Except String Bytes :=
  let ciphertext := data.take (data.length - 16)
  if data.drop (data.length - 16) = tagOf key nonce aad ciphertext then
    .ok (mask key nonce ciphertext)
  else .error "aead::Error"

theorem length_tagOf (key : Bytes) (nonce : Nonce) (aad ciphertext : Bytes) :
    (tagOf key nonce aad ciphertext).length = 16 :=
  rfl

theorem zipWith_mask {bs : Bytes} {stream : List Nat} (h : bs.length ≤ stream.length) :
    List.zipWith (fun b m => b ^^^ UInt8.ofNat m)
      (List.zipWith (fun b m => b ^^^ UInt8.ofNat m) bs stream) stream = bs := by
  induction bs generalizing stream with
  | nil => rfl
  | cons b bs ih =>
      cases stream with
      | nil => cases h
      | cons m stream =>
          have hrest := ih (Nat.le_of_succ_le_succ h)
          simp only [List.zipWith_cons_cons, hrest]
          rw [UInt8.xor_assoc, UInt8.xor_self, UInt8.xor_zero]

theorem length_mask (key : Bytes) (nonce : Nonce) (bs : Bytes) :
    (mask key nonce bs).length = bs.length := by
  unfold mask
  simp only [List.length_zipWith, ChaCha20.length_stream]
  omega

theorem mask_mask (key : Bytes) (nonce : Nonce) (bs : Bytes) :
    mask key nonce (mask key nonce bs) = bs := by
  have hlength := length_mask key nonce bs
  unfold mask at hlength ⊢
  simp only at hlength ⊢
  rw [hlength]
  apply zipWith_mask
  rw [ChaCha20.length_stream]
  omega

theorem decrypt_encrypt {plaintext aad key ciphertext : Bytes} {nonce : Nonce}
    (h : encrypt plaintext aad key nonce = .ok ciphertext) :
    decrypt ciphertext nonce aad key = .ok plaintext := by
  have hdata := Except.ok.inj h
  rw [← hdata]
  have hsplit : (mask key nonce plaintext ++
      tagOf key nonce aad (mask key nonce plaintext)).length - 16 =
        (mask key nonce plaintext).length := by
    rw [List.length_append, length_tagOf]
    omega
  unfold decrypt
  simp only [hsplit, List.take_left, List.drop_left, if_true, mask_mask]

end Aead

/-- The test vector of the XChaCha20-Poly1305 construction. -/
example :
    Aead.tagOf ((List.range 32).map fun n => UInt8.ofNat (n + 0x80))
        ⟨(List.range 24).map fun n => UInt8.ofNat (n + 0x40), rfl⟩
        [0x50, 0x51, 0x52, 0x53, 0xc0, 0xc1, 0xc2, 0xc3, 0xc4, 0xc5, 0xc6, 0xc7]
        (Aead.mask ((List.range 32).map fun n => UInt8.ofNat (n + 0x80))
          ⟨(List.range 24).map fun n => UInt8.ofNat (n + 0x40), rfl⟩
          (utf8 "Ladies and Gentlemen of the class of '99: If I could offer you only one tip for the future, sunscreen would be it.")) =
      [0xc0, 0x87, 0x59, 0x24, 0xc1, 0xc7, 0x98, 0x79, 0x47, 0xde, 0xaf, 0xd8, 0x78, 0x0a, 0xcf,
        0x49] := by
  decide +kernel

end OakKeyring
