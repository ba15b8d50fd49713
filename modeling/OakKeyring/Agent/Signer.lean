import OakKeyring.Crypto.Manager
import OakKeyring.Lib.Checks
import OakKeyring.Lib.Der

/-!
# Signers of the SSH agent

A signer is built from a private key in OpenSSH format for one request and dropped after it. The
crates behind it (`ssh_key`, `ed25519_dalek`, `rsa`, `p256`, `p384`, `p521`) are the parameter
`SshKeys`.
-/

namespace OakKeyring

inductive EcdsaCurve
  | P256
  | P384
  | P521
deriving DecidableEq, Repr

inductive SshAlgo
  | Ed25519
  | Rsa
  | Ecdsa (curve : EcdsaCurve)
deriving DecidableEq, Repr

structure SignFlags where
  rsaSha2256 : Bool
  rsaSha2512 : Bool
deriving DecidableEq, Repr

def EcdsaCurve.wireName : EcdsaCurve → String
  | P256 => "ecdsa-sha2-nistp256"
  | P384 => "ecdsa-sha2-nistp384"
  | P521 => "ecdsa-sha2-nistp521"

/-- The bits of a scalar. -/
def EcdsaCurve.bits : EcdsaCurve → Nat
  | P256 => 256
  | P384 => 384
  | P521 => 521

/-- `ecdsa::Signature`: neither of its scalars is zero. -/
structure EcdsaSignature (curve : EcdsaCurve) where
  r : Nat
  s : Nat
  r_pos : 0 < r
  s_pos : 0 < s
  r_lt : r < 2 ^ curve.bits
  s_lt : s < 2 ^ curve.bits
deriving DecidableEq

def SshAlgo.wireName (algo : SshAlgo) (flags : SignFlags) : String :=
  match algo with
  | Ed25519 => "ssh-ed25519"
  | Rsa => if flags.rsaSha2512 then "rsa-sha2-512" else "rsa-sha2-256"
  | Ecdsa curve => curve.wireName

/-- `ssh_key::Algorithm`. -/
inductive Algorithm
  | Ed25519
  | Rsa
  | Ecdsa (curve : EcdsaCurve)
  | other (name : String)
deriving DecidableEq, Repr

/-- A parsed public key: its algorithm and its wire form. -/
structure SshPublicKey where
  algorithm : Algorithm
  toBytes : Except String Bytes

/-- `ssh_key::private::KeypairData`; the numbers of an RSA key as `BigUint::try_from` gives
them. -/
inductive KeypairData
  | Ed25519 (seed : Bytes)
  | Rsa (n e d p q : Except String Nat)
  | Ecdsa (curve : EcdsaCurve) (privateKeyBytes : Bytes)
  | other

inductive Sha2
  | Sha256
  | Sha512
deriving DecidableEq, Repr

/-- The SSH and signature crates. `ed25519Public`, `rsaPublic` and `ecdsaPublic` are the wire
form of the public key that belongs to a secret one. -/
class SshKeys where
  publicKeyFromOpenssh : String → Except String SshPublicKey
  PrivateKey : Type
  privateKeyFromOpenssh : String → Except String PrivateKey
  isEncrypted : PrivateKey → Bool
  decrypt : PrivateKey → String → Except String PrivateKey
  keyData : PrivateKey → KeypairData
  publicToOpenssh : PrivateKey → Except String String
  ed25519Sign : Bytes → Bytes → Bytes
  ed25519Public : Bytes → Bytes
  RsaPrivateKey : Type
  rsaFromComponents : Nat → Nat → Nat → List Nat → Except String RsaPrivateKey
  rsaSize : RsaPrivateKey → Nat
  rsaSign : Sha2 → RsaPrivateKey → Bytes → Bytes
  rsaPublic : RsaPrivateKey → Bytes
  EcdsaKey : EcdsaCurve → Type
  ecdsaFromSlice : (curve : EcdsaCurve) → Bytes → Except String (EcdsaKey curve)
  ecdsaTrySign : (curve : EcdsaCurve) → EcdsaKey curve → Bytes →
    Except String (EcdsaSignature curve)
  /-- `ecdsa::Signature::to_der`. -/
  ecdsaToDer : (curve : EcdsaCurve) → EcdsaSignature curve → Bytes
  ecdsaPublic : (curve : EcdsaCurve) → EcdsaKey curve → Bytes

/-- The DER form of a signature is the sequence of its two scalars as integers. -/
class LawfulEcdsaDer [SshKeys] : Prop where
  ecdsaToDer_eq : ∀ (curve : EcdsaCurve) (sig : EcdsaSignature curve),
    SshKeys.ecdsaToDer curve sig = Der.sequence (Der.integer sig.r ++ Der.integer sig.s)

inductive SignerError
  | ParseKey (source : String)
  | Decrypt (source : String)
  | PublicKey (source : String)
  | RsaKey (source : String)
  | EcdsaKey (source : String)
  | EcdsaSign (source : String)
  | UnsupportedKeyType (expected : String)
  | UnexpectedPassphrase
  | MissingPassphrase
deriving DecidableEq, Repr

/-! ## The wire format -/

/-- `to_be_bytes` of a length as `u32`. -/
def u32Bytes (n : Nat) : Bytes :=
  [UInt8.ofNat (n / 16777216), UInt8.ofNat (n / 65536), UInt8.ofNat (n / 256), UInt8.ofNat n]

/-- A length and that many bytes. -/
def writeString (bytes : Bytes) : Bytes :=
  u32Bytes bytes.length ++ bytes

def wireSignature (alg : String) (sig : Bytes) : Bytes :=
  writeString (utf8 alg) ++ writeString sig

/-! ## Signers -/

variable [SshKeys]

/-- `sign_der`, which does the same on every curve. -/
def SshKeys.ecdsaSign (curve : EcdsaCurve) (key : SshKeys.EcdsaKey curve) (data : Bytes) :
    Except String Bytes := do
  let raw ← SshKeys.ecdsaTrySign curve key data
  return SshKeys.ecdsaToDer curve raw

/-- A signer with the public key it was read with. -/
inductive SshSigner
  | Ed25519 (seed : Bytes) (publicSsh : String)
  | Rsa (key : SshKeys.RsaPrivateKey) (publicSsh : String)
  | Ecdsa (curve : EcdsaCurve) (key : SshKeys.EcdsaKey curve) (publicSsh : String)

/-- A key that is encrypted needs a passphrase, and one that is not refuses it. -/
def openPrivateKey (pem : String) (passphrase : Option String) :
    Except SignerError SshKeys.PrivateKey := do
  let parsed ← (SshKeys.privateKeyFromOpenssh pem).mapError SignerError.ParseKey
  if SshKeys.isEncrypted parsed then
    match passphrase with
    | none => throw .MissingPassphrase
    | some passphrase => (SshKeys.decrypt parsed passphrase).mapError SignerError.Decrypt
  else
    match passphrase with
    | some _ => throw .UnexpectedPassphrase
    | none => return parsed

def publicSshOf (key : SshKeys.PrivateKey) : Except SignerError String :=
  (SshKeys.publicToOpenssh key).mapError SignerError.PublicKey

def ed25519FromOpenssh (pem : String) (passphrase : Option String) :
    Except SignerError SshSigner := do
  let key ← openPrivateKey pem passphrase
  match SshKeys.keyData key with
  | .Ed25519 seed =>
      let publicSsh ← publicSshOf key
      return .Ed25519 seed publicSsh
  | _ => throw (.UnsupportedKeyType "ed25519")

def MIN_RSA_BITS : Nat := 2048

/-- Every failure of a component or of their consistency is `RsaKey`. -/
def rsaFromOpenssh (pem : String) (passphrase : Option String) :
    Except SignerError SshSigner := do
  let key ← openPrivateKey pem passphrase
  match SshKeys.keyData key with
  | .Rsa n e d p q =>
      let n ← n.mapError SignerError.RsaKey
      let e ← e.mapError SignerError.RsaKey
      let d ← d.mapError SignerError.RsaKey
      let p ← p.mapError SignerError.RsaKey
      let q ← q.mapError SignerError.RsaKey
      let rsaKey ← (SshKeys.rsaFromComponents n e d [p, q]).mapError fun _ =>
        SignerError.RsaKey "cryptographic error"
      if SshKeys.rsaSize rsaKey * 8 < MIN_RSA_BITS then
        throw (.RsaKey "cryptographic error")
      else
        let publicSsh ← publicSshOf key
        return .Rsa rsaKey publicSsh
  | _ => throw (.UnsupportedKeyType "rsa")

def ecdsaFromOpenssh (pem : String) (passphrase : Option String) :
    Except SignerError SshSigner := do
  let key ← openPrivateKey pem passphrase
  match SshKeys.keyData key with
  | .Ecdsa curve privateKeyBytes =>
      let signingKey ← (SshKeys.ecdsaFromSlice curve privateKeyBytes).mapError fun _ =>
        SignerError.EcdsaKey "cryptographic error"
      let publicSsh ← publicSshOf key
      return .Ecdsa curve signingKey publicSsh
  | _ => throw (.UnsupportedKeyType "ecdsa")

/-- The signer for an algorithm; the curve of an ECDSA key is taken from the key. -/
def signerFromOpenssh (algo : SshAlgo) (pem : String) (passphrase : Option String) :
    Except SignerError SshSigner :=
  match algo with
  | .Ed25519 => ed25519FromOpenssh pem passphrase
  | .Rsa => rsaFromOpenssh pem passphrase
  | .Ecdsa _ => ecdsaFromOpenssh pem passphrase

namespace SshSigner

def sign (signer : SshSigner) (data : Bytes) (flags : SignFlags) : Except SignerError Bytes :=
  match signer with
  | Ed25519 seed _ => .ok (wireSignature "ssh-ed25519" (SshKeys.ed25519Sign seed data))
  | Rsa key _ =>
      if flags.rsaSha2512 then
        .ok (wireSignature "rsa-sha2-512" (SshKeys.rsaSign .Sha512 key data))
      else .ok (wireSignature "rsa-sha2-256" (SshKeys.rsaSign .Sha256 key data))
  | Ecdsa curve key _ => do
      let der ← (SshKeys.ecdsaSign curve key data).mapError fun _ =>
        SignerError.EcdsaSign "cryptographic error"
      return wireSignature curve.wireName der

/-- The wire form of the public key that the secret key belongs to. -/
def publicBlob : SshSigner → Bytes
  | Ed25519 seed _ => SshKeys.ed25519Public seed
  | Rsa key _ => SshKeys.rsaPublic key
  | Ecdsa curve key _ => SshKeys.ecdsaPublic curve key

end SshSigner

/-! ## Key pairs -/

/-- The wire form of the public key that belongs to an opened private key, which is of the kind
that the algorithm asks for. -/
inductive PublicHalf : SshAlgo → SshKeys.PrivateKey → Bytes → Prop
  | ed25519 {key : SshKeys.PrivateKey} {seed : Bytes} (h : SshKeys.keyData key = .Ed25519 seed) :
      PublicHalf .Ed25519 key (SshKeys.ed25519Public seed)
  | rsa {key : SshKeys.PrivateKey} {n e d p q : Nat} {rsaKey : SshKeys.RsaPrivateKey}
      (h : SshKeys.keyData key = .Rsa (.ok n) (.ok e) (.ok d) (.ok p) (.ok q))
      (hkey : SshKeys.rsaFromComponents n e d [p, q] = .ok rsaKey)
      (hsize : MIN_RSA_BITS ≤ SshKeys.rsaSize rsaKey * 8) :
      PublicHalf .Rsa key (SshKeys.rsaPublic rsaKey)
  | ecdsa {key : SshKeys.PrivateKey} {asked curve : EcdsaCurve} {bytes : Bytes}
      {ecdsaKey : SshKeys.EcdsaKey curve} (h : SshKeys.keyData key = .Ecdsa curve bytes)
      (hkey : SshKeys.ecdsaFromSlice curve bytes = .ok ecdsaKey) :
      PublicHalf (.Ecdsa asked) key (SshKeys.ecdsaPublic curve ecdsaKey)

section Pairs

variable {pem : String} {passphrase : Option String} {signer : SshSigner}

/-- A signer has the public key that belongs to the private key it was read from. -/
theorem publicHalf_signerFromOpenssh {algo : SshAlgo}
    (h : signerFromOpenssh algo pem passphrase = .ok signer) :
    ∃ key, openPrivateKey pem passphrase = .ok key ∧ PublicHalf algo key signer.publicBlob := by
  cases algo with
  | Ed25519 =>
      rcases Checks.bind_eq_ok_iff.mp h with ⟨key, hkey, hread⟩
      refine ⟨key, hkey, ?_⟩
      cases hdata : SshKeys.keyData key with
      | Ed25519 seed =>
          rw [hdata] at hread
          rcases Checks.bind_eq_ok_iff.mp hread with ⟨publicSsh, -, hsigner⟩
          rw [← Except.ok.inj hsigner]
          exact .ed25519 hdata
      -- a key of another type than the one that was asked for is refused
      | Rsa n e d p q => rw [hdata] at hread; cases hread
      | Ecdsa curve bytes => rw [hdata] at hread; cases hread
      | other => rw [hdata] at hread; cases hread
  | Rsa =>
      rcases Checks.bind_eq_ok_iff.mp h with ⟨key, hkey, hread⟩
      refine ⟨key, hkey, ?_⟩
      cases hdata : SshKeys.keyData key with
      | Rsa n e d p q =>
          rw [hdata] at hread
          rcases Checks.bind_eq_ok_iff.mp hread with ⟨n', hn, hread⟩
          rcases Checks.bind_eq_ok_iff.mp hread with ⟨e', he, hread⟩
          rcases Checks.bind_eq_ok_iff.mp hread with ⟨d', hd, hread⟩
          rcases Checks.bind_eq_ok_iff.mp hread with ⟨p', hp, hread⟩
          rcases Checks.bind_eq_ok_iff.mp hread with ⟨q', hq, hread⟩
          rcases Checks.bind_eq_ok_iff.mp hread with ⟨rsaKey, hrsa, hread⟩
          -- the components are read as they are, or the key is refused
          rw [Checks.mapError_eq_ok_iff] at hn he hd hp hq
          rw [hn, he, hd, hp, hq] at hdata
          by_cases hsize : SshKeys.rsaSize rsaKey * 8 < MIN_RSA_BITS
          · rw [if_pos hsize] at hread
            cases hread
          · rw [if_neg hsize] at hread
            rcases Checks.bind_eq_ok_iff.mp hread with ⟨publicSsh, -, hsigner⟩
            rw [← Except.ok.inj hsigner]
            exact .rsa hdata (Checks.mapError_eq_ok_iff.mp hrsa) (Nat.le_of_not_lt hsize)
      | Ed25519 seed => rw [hdata] at hread; cases hread
      | Ecdsa curve bytes => rw [hdata] at hread; cases hread
      | other => rw [hdata] at hread; cases hread
  | Ecdsa asked =>
      rcases Checks.bind_eq_ok_iff.mp h with ⟨key, hkey, hread⟩
      refine ⟨key, hkey, ?_⟩
      cases hdata : SshKeys.keyData key with
      | Ecdsa curve bytes =>
          rw [hdata] at hread
          rcases Checks.bind_eq_ok_iff.mp hread with ⟨ecdsaKey, hecdsa, hread⟩
          rcases Checks.bind_eq_ok_iff.mp hread with ⟨publicSsh, -, hsigner⟩
          rw [← Except.ok.inj hsigner]
          exact .ecdsa hdata (Checks.mapError_eq_ok_iff.mp hecdsa)
      | Ed25519 seed => rw [hdata] at hread; cases hread
      | Rsa n e d p q => rw [hdata] at hread; cases hread
      | other => rw [hdata] at hread; cases hread

/-- A private key has one public half for an algorithm. -/
theorem PublicHalf.unique {algo : SshAlgo} {key : SshKeys.PrivateKey} {half half' : Bytes}
    (h : PublicHalf algo key half) (h' : PublicHalf algo key half') : half = half' := by
  cases h with
  | ed25519 hdata =>
      cases h' with
      | ed25519 hdata' =>
          cases hdata.symm.trans hdata'
          rfl
  | rsa hdata hkey =>
      cases h' with
      | rsa hdata' hkey' =>
          cases hdata.symm.trans hdata'
          cases hkey.symm.trans hkey'
          rfl
  | ecdsa hdata hkey =>
      cases h' with
      | ecdsa hdata' hkey' =>
          cases hdata.symm.trans hdata'
          cases hkey.symm.trans hkey'
          rfl

end Pairs

end OakKeyring
