import OakKeyring.Lib.Chaining
import OakKeyring.Lib.Checked
import OakKeyring.Lib.Endian
import OakKeyring.Types.Record
import OakKeyring.Types.Transfer

/-!
# Encrypted items of an OpVault

An `opdata01` text is a header, the length of the plaintext, an initial vector, the ciphertext and
a MAC of all that. The plaintext is padded at its front. The key of an item has a format of its
own. Both come from a file that another program wrote, so the decoders are written with the checks
that the language makes.
-/

namespace OakKeyring

open Effect

/-- Byte arrays of a fixed length. -/
abbrev Sized (n : Nat) :=
  { bs : Bytes // bs.length = n }

abbrev Block := Sized 16

/-- `Aes256` and `HmacSha256`. -/
class OpVaultCiphers where
  encryptBlock : Sized 32 → Block → Block
  decryptBlock : Sized 32 → Block → Block
  decryptBlock_encryptBlock : ∀ key b, decryptBlock key (encryptBlock key b) = b
  hmacSha256 : Sized 32 → Bytes → Sized 32

export OpVaultCiphers (hmacSha256)

structure KeyPair where
  enc : Sized 32
  mac : Sized 32
deriving DecidableEq

def xorBlock (a b : Block) : Block :=
  ⟨List.zipWith (· ^^^ ·) a.1 b.1, by simp [a.2, b.2]⟩

theorem zipWith_xor_xor {xs ys : Bytes} (h : xs.length = ys.length) :
    List.zipWith (· ^^^ ·) (List.zipWith (· ^^^ ·) xs ys) ys = xs := by
  induction xs generalizing ys with
  | nil => rfl
  | cons x xs ih =>
      cases ys with
      | nil => cases h
      | cons y ys =>
          have hbyte : x ^^^ y ^^^ y = x := by
            rw [UInt8.xor_assoc, UInt8.xor_self, UInt8.xor_zero]
          simp only [List.zipWith_cons_cons, hbyte, ih (Nat.succ.inj h)]

theorem xorBlock_xorBlock (a b : Block) : xorBlock (xorBlock a b) b = a :=
  Subtype.ext (zipWith_xor_xor (a.2.trans b.2.symm))

section Decoders

variable [OpVaultCiphers]

def aes256 (key : Sized 32) : BlockCipher Block where
  encrypt := OpVaultCiphers.encryptBlock key
  decrypt := OpVaultCiphers.decryptBlock key
  add := xorBlock
  decrypt_encrypt := OpVaultCiphers.decryptBlock_encryptBlock key
  add_add := xorBlock_xorBlock

abbrev Decoder :=
  Checked ImportExportError

def verifyHmac (data expectedMac : Bytes) (macKey : Sized 32) : Decoder Unit :=
  if expectedMac = (hmacSha256 macKey data).1 then pure () else throw .InvalidPassword

/-- `Aes256CbcDec::new_from_slices`, which looks at the length of the vector. -/
def newFromSlices (name : String) (iv : Bytes) : Decoder Block :=
  if h : iv.length = 16 then pure ⟨iv, h⟩
  else throw (.DecryptionFailed s!"{name}: cipher init: Invalid Length")

/-- The loop over the exact chunks of a buffer: the decryptor keeps the last ciphertext block, and
what is left over stays as it is. -/
def decryptChunks (key : Sized 32) : Nat → Block → Bytes → Decoder Bytes
  | 0, _, rest => return rest
  | n + 1, previous, buf => do
      let chunk ← Checked.sized 16 (buf.take 16)
      let rest ← decryptChunks key n chunk (buf.drop 16)
      return (xorBlock ((aes256 key).decrypt chunk) previous).1 ++ rest

def decryptBuffer (key : Sized 32) (iv : Block) (buf : Bytes) : Decoder Bytes :=
  decryptChunks key (buf.length / 16) iv buf

def HEADER : Bytes :=
  "opdata01".toList.map Char.toUInt8

def MIN_LEN : Nat := 8 + 8 + 16 + 16 + 32

/-- `u64::from_le_bytes` after the conversion to an array of eight. -/
def u64FromLeBytes (bs : Bytes) : Decoder Nat :=
  if bs.length = 8 then pure (Endian.ofLittle bs)
  else throw (.DecryptionFailed "opdata01: length parse")

def decryptOpdata01 (data : Bytes) (key macKey : Sized 32) : Decoder Bytes := do
  if data.length < MIN_LEN then
    throw (.DecryptionFailed "opdata01: data too short")
  let signedEnd ← Checked.sub data.length 32
  verifyHmac (← Checked.slice data 0 signedEnd)
    (← Checked.slice data signedEnd data.length) macKey
  if (← Checked.slice data 0 8) ≠ HEADER then
    throw (.DecryptionFailed "opdata01: invalid header")
  let plainLen ← u64FromLeBytes (← Checked.slice data 8 16)
  let iv ← Checked.slice data 16 32
  let ciphertext ← Checked.slice data 32 signedEnd
  if ¬ 16 ∣ ciphertext.length then
    throw (.DecryptionFailed "opdata01: ciphertext not block-aligned")
  if ciphertext.length < plainLen then
    throw (.DecryptionFailed "opdata01: plaintext length exceeds ciphertext")
  let decryptor ← newFromSlices "opdata01" iv
  let buf ← decryptBuffer key decryptor ciphertext
  let paddingLen ← Checked.sub buf.length plainLen
  Checked.slice buf paddingLen buf.length

def decryptItemKey (kData : Bytes) (master : KeyPair) : Decoder KeyPair := do
  if kData.length ≠ 112 then
    throw (.DecryptionFailed s!"item key: expected 112 bytes, got {kData.length}")
  let signedPart ← Checked.slice kData 0 80
  let expectedMac ← Checked.slice kData 80 112
  verifyHmac signedPart expectedMac master.mac
  let iv ← Checked.slice kData 0 16
  let encryptedKeys ← Checked.slice kData 16 80
  let decryptor ← newFromSlices "item key" iv
  let buf ← decryptBuffer master.enc decryptor encryptedKeys
  let enc ← Checked.sized 32 (← Checked.slice buf 0 32)
  let mac ← Checked.sized 32 (← Checked.slice buf 32 64)
  return { enc, mac }

end Decoders

end OakKeyring
