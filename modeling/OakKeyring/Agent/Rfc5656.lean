import OakKeyring.Agent.Wire
import OakKeyring.Samples.Ssh

/-!
# ECDSA signatures as RFC 5656 has them

The inner string of such a signature holds the two scalars as multiple-precision integers. The
signer puts the DER encoding there, whose first byte makes a reader of the RFC expect an integer
of hundreds of megabytes.
-/

namespace OakKeyring

open AgentServer

namespace Rfc5656

def mpint (n : Nat) : Bytes :=
  writeString (Endian.signed n)

def signatureBlob (alg : String) (r s : Nat) : Bytes :=
  writeString (utf8 alg) ++ writeString (mpint r ++ mpint s)

/-- An integer that is not negative and has no byte too many. -/
def readMpint (input : Bytes) : Option (Nat × Bytes) :=
  match readString input with
  | some (bytes, rest) =>
      if bytes = Endian.signed (Endian.ofBig bytes) then some (Endian.ofBig bytes, rest) else none
  | none => none

/-- The two scalars of the inner string, and nothing after them. -/
def readScalars (input : Bytes) : Option (Nat × Nat) :=
  match readMpint input with
  | some (r, rest) =>
      match readMpint rest with
      | some (s, []) => some (r, s)
      | _ => none
  | none => none

def decode (blob : Bytes) : Option (Bytes × Nat × Nat) :=
  match readString blob with
  | some (alg, rest) =>
      match readString rest with
      | some (inner, []) => (readScalars inner).map fun scalars => (alg, scalars)
      | _ => none
  | none => none

theorem length_signed_lt {n : Nat} (h : n < 256 ^ 66) : (Endian.signed n).length ≤ 67 :=
  Endian.length_signed_le h

theorem readMpint_mpint {n : Nat} (h : n < 256 ^ 66) (rest : Bytes) :
    readMpint (mpint n ++ rest) = some (n, rest) := by
  have hlength := length_signed_lt h
  have hread := readString_writeString (show (Endian.signed n).length < 2 ^ 32 by omega) rest
  simp only [readMpint, mpint, hread, Endian.ofBig_signed, if_true]

theorem readScalars_mpint {r s : Nat} (hr : r < 256 ^ 66) (hs : s < 256 ^ 66) :
    readScalars (mpint r ++ mpint s) = some (r, s) := by
  have hsecond : readMpint (mpint s) = some (s, []) := by
    simpa using readMpint_mpint hs []
  simp only [readScalars, readMpint_mpint hr, hsecond]

theorem length_mpint_le {n : Nat} (h : n < 256 ^ 66) : (mpint n).length ≤ 71 := by
  have hlength := length_signed_lt h
  rw [mpint, length_writeString]
  omega

/-- A blob of two strings is decoded by its second one. -/
theorem decode_strings {alg inner : Bytes} (halg : alg.length < 2 ^ 32)
    (hinner : inner.length < 2 ^ 32) :
    decode (writeString alg ++ writeString inner) =
      (readScalars inner).map fun scalars => (alg, scalars) := by
  have hsecond : readString (writeString inner) = some (inner, []) := by
    simpa using readString_writeString hinner []
  simp only [decode, readString_writeString halg, hsecond]

/-- The decoder recovers what the RFC encodes. -/
theorem decode_signatureBlob {alg : String} (halg : (utf8 alg).length < 2 ^ 32) {r s : Nat}
    (hr : r < 256 ^ 66) (hs : s < 256 ^ 66) :
    decode (signatureBlob alg r s) = some (utf8 alg, r, s) := by
  have hlength : (mpint r ++ mpint s).length < 2 ^ 32 := by
    have hmr := length_mpint_le hr
    have hms := length_mpint_le hs
    rw [List.length_append]
    omega
  rw [signatureBlob, decode_strings halg hlength, readScalars_mpint hr hs]
  rfl

end Rfc5656

/-! ## The signer -/

section Signer

theorem pow_bits_le {bits bytes : Nat} (h : bits ≤ 8 * bytes) : 2 ^ bits ≤ 256 ^ bytes :=
  calc 2 ^ bits ≤ 2 ^ (8 * bytes) := Nat.pow_le_pow_right (by decide) h
    _ = 256 ^ bytes := Nat.pow_mul 2 8 bytes

theorem EcdsaCurve.bits_le (curve : EcdsaCurve) : curve.bits ≤ 8 * 66 := by
  cases curve <;> decide

theorem EcdsaCurve.length_wireName (curve : EcdsaCurve) : (utf8 curve.wireName).length = 19 := by
  cases curve <;> decide +kernel

namespace EcdsaSignature

variable {curve : EcdsaCurve} (sig : EcdsaSignature curve)

/-- The DER form of the two scalars. -/
def der : Bytes :=
  Der.sequence (Der.integer sig.r ++ Der.integer sig.s)

theorem scalars_lt : sig.r < 256 ^ 66 ∧ sig.s < 256 ^ 66 := by
  have hpow : 2 ^ curve.bits ≤ 256 ^ 66 := pow_bits_le curve.bits_le
  exact ⟨sig.r_lt.trans_le hpow, sig.s_lt.trans_le hpow⟩

/-- The content of the sequence. -/
def integers : Bytes :=
  Der.integer sig.r ++ Der.integer sig.s

theorem length_integers_le : sig.integers.length ≤ 140 := by
  obtain ⟨hr, hs⟩ := sig.scalars_lt
  have hmr := Rfc5656.length_signed_lt hr
  have hms := Rfc5656.length_signed_lt hs
  have hr' : (Der.integer sig.r).length ≤ 70 :=
    (Der.length_element_le (by omega)).trans (by omega)
  have hs' : (Der.integer sig.s).length ≤ 70 :=
    (Der.length_element_le (by omega)).trans (by omega)
  rw [integers, List.length_append]
  omega

theorem length_der_le : sig.der.length ≤ 143 := by
  have hlength := sig.length_integers_le
  have helement : sig.der.length ≤ sig.integers.length + 3 :=
    Der.length_element_le (hlength.trans_lt (by decide))
  omega

/-- A DER sequence begins with its tag, and so with a length that nothing on the wire has. -/
theorem readString_der : readString sig.der = none := by
  cases hread : readString sig.der with
  | none => rfl
  | some read =>
      obtain ⟨bytes, rest⟩ := read
      have hlength := sig.length_der_le
      obtain ⟨hder, -⟩ := readString_eq_some hread
      have hshort : bytes.length < 256 := by
        rw [hder, List.length_append, length_writeString] at hlength
        omega
      have hfirst : (0x30 : UInt8) = UInt8.ofNat (bytes.length / 16777216) :=
        (List.cons.inj hder).1
      have hzero : bytes.length / 16777216 = 0 := Nat.div_eq_of_lt (by omega)
      rw [hzero] at hfirst
      exact absurd hfirst (by decide)

theorem readScalars_der : Rfc5656.readScalars sig.der = none := by
  simp [Rfc5656.readScalars, Rfc5656.readMpint, sig.readString_der]

theorem decode_wireSignature :
    Rfc5656.decode (wireSignature curve.wireName sig.der) = none := by
  have halg := curve.length_wireName
  have hlength := sig.length_der_le
  rw [wireSignature, Rfc5656.decode_strings (by omega) (by omega), sig.readScalars_der]
  rfl

end EcdsaSignature

variable [SshKeys] [LawfulEcdsaDer] {curve : EcdsaCurve} {key : SshKeys.EcdsaKey curve} {data : Bytes}

theorem sign_ecdsa {sig : EcdsaSignature curve}
    (h : SshKeys.ecdsaTrySign curve key data = .ok sig) (publicSsh : String) (flags : SignFlags) :
    (SshSigner.Ecdsa curve key publicSsh).sign data flags =
      .ok (wireSignature curve.wireName sig.der) := by
  have hder : SshKeys.ecdsaSign curve key data = .ok sig.der := by
    unfold SshKeys.ecdsaSign
    rw [h]
    exact congrArg Except.ok (LawfulEcdsaDer.ecdsaToDer_eq curve sig)
  simp only [SshSigner.sign, hder]
  rfl

/-- Whatever the scalars are, the blob is not the one of the RFC, and its decoder finds none. -/
theorem sign_ecdsa_not_rfc5656 {sig : EcdsaSignature curve}
    (h : SshKeys.ecdsaTrySign curve key data = .ok sig) (publicSsh : String) (flags : SignFlags) :
    ∃ blob, (SshSigner.Ecdsa curve key publicSsh).sign data flags = .ok blob ∧
      blob ≠ Rfc5656.signatureBlob curve.wireName sig.r sig.s ∧ Rfc5656.decode blob = none := by
  have hdecode := sig.decode_wireSignature
  refine ⟨_, sign_ecdsa h publicSsh flags, fun heq => ?_, hdecode⟩
  obtain ⟨hr, hs⟩ := sig.scalars_lt
  have halg := curve.length_wireName
  have hrfc : Rfc5656.decode (Rfc5656.signatureBlob curve.wireName sig.r sig.s) =
      some (utf8 curve.wireName, sig.r, sig.s) :=
    Rfc5656.decode_signatureBlob (by omega) hr hs
  rw [← heq, hdecode] at hrfc
  cases hrfc

end Signer

/-! ## A P-256 key -/

namespace P256Key

/-- The signature of the key's owner on the word `sample`. -/
def signature : EcdsaSignature .P256 where
  r := 0xEFD48B2AACB6A8FD1140DD9CD45E81D69D2C877B56AAF991C34D0EA84EAF3716
  s := 0xF7CB1C942D657C41D436C7A1B6E29F65F3E900DBB9AFF4064DC4AB2F843ACDA8
  r_pos := by decide
  s_pos := by decide
  r_lt := by decide
  s_lt := by decide

def x : Nat := 0x60FED4BA255A9D31C961EB74C6356D68C049B8923B61FA6CE669622E60F29FB6

def y : Nat := 0x7903FE1008B8BC99A41AE9E95628BC64F2F1B20C2D7E9F5177A3C294D4462299

/-- The crates on one P-256 key that is asked to sign the word. -/
@[reducible] def ssh : SshKeys where
  publicKeyFromOpenssh _ := .error "length invalid"
  PrivateKey := Empty
  privateKeyFromOpenssh _ := .error "PEM encoding error"
  isEncrypted key := key.elim
  decrypt key _ := key.elim
  keyData key := key.elim
  publicToOpenssh key := key.elim
  ed25519Sign _ _ := []
  ed25519Public _ := []
  RsaPrivateKey := Empty
  rsaFromComponents _ _ _ _ := .error "cryptographic error"
  rsaSize key := key.elim
  rsaSign _ key _ := key.elim
  rsaPublic key := key.elim
  EcdsaKey
    | .P256 => Unit
    | _ => Empty
  ecdsaFromSlice _ _ := .error "cryptographic error"
  ecdsaTrySign
    | .P256, _, data => if data = utf8 "sample" then .ok signature else .error "signature error"
    | .P384, key, _ => key.elim
    | .P521, key, _ => key.elim
  ecdsaToDer _ sig := Der.sequence (Der.integer sig.r ++ Der.integer sig.s)
  ecdsaPublic
    | .P256, _ => writeString (utf8 "ecdsa-sha2-nistp256") ++ writeString (utf8 "nistp256") ++
        writeString (4 :: Endian.big x ++ Endian.big y)
    | .P384, key => key.elim
    | .P521, key => key.elim

section

attribute [local instance] ssh

theorem lawful : LawfulEcdsaDer where
  ecdsaToDer_eq _ _ := rfl

def flags : SignFlags where
  rsaSha2256 := false
  rsaSha2512 := false

theorem trySign : SshKeys.ecdsaTrySign .P256 (() : SshKeys.EcdsaKey .P256) (utf8 "sample") =
    .ok signature :=
  if_pos rfl

/-- The key signs, and the blob is not the one of the RFC. -/
theorem sign_sample_not_rfc5656 :
    ∃ blob, (SshSigner.Ecdsa .P256 (() : SshKeys.EcdsaKey .P256) "").sign (utf8 "sample") flags =
        .ok blob ∧
      blob ≠ Rfc5656.signatureBlob "ecdsa-sha2-nistp256" signature.r signature.s ∧
        Rfc5656.decode blob = none :=
  have := lawful
  sign_ecdsa_not_rfc5656 trySign "" flags

/-- Its inner string begins with the tag of a DER sequence. -/
theorem sign_sample_der :
    (SshSigner.Ecdsa .P256 (() : SshKeys.EcdsaKey .P256) "").sign (utf8 "sample") flags ≠
      .ok (Rfc5656.signatureBlob "ecdsa-sha2-nistp256" signature.r signature.s) := by
  have := lawful
  rw [sign_ecdsa trySign "" flags]
  decide +kernel

end

end P256Key

end OakKeyring
