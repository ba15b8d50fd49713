import OakKeyring.Crypto.Manager
import OakKeyring.Lib.Crash
import OakKeyring.Types.JsonValue
import Mathlib.Data.List.AList
import Mathlib.Algebra.Group.Nat.Defs

/-!
# The key store

The secret key of a vault lies in one file, wrapped under a key that is derived from the master
password. Changing the password writes a new file beside the old one and renames it. A directory
is its regular files; every call may fail, and the process may stop between two calls.
-/

namespace OakKeyring

open Effect

structure Argon2Params where
  mCost : Nat
  tCost : Nat
  pCost : Nat
deriving DecidableEq, Repr

/-- A salt, `[u8; 16]`. -/
structure Salt where
  bytes : Bytes
  length_bytes : bytes.length = 16
deriving DecidableEq, Repr

/-- The salt with one byte throughout. -/
def Salt.filled (b : UInt8) : Salt :=
  ⟨List.replicate 16 b, rfl⟩

/-- Argon2id, from the crate `argon2`: password, salt, parameters. -/
class Argon2 where
  argon2id : Bytes → Salt → Argon2Params → Except String Bytes

export Argon2 (argon2id)

/-- Base64 is read back. -/
class LawfulBase64 [Codec] : Prop where
  base64Decode_base64Encode : ∀ bytes : Bytes, base64Decode (base64Encode bytes) = .ok bytes

/-- A ciphertext does not decrypt under another key. -/
class AeadAuthentic [Crypto] : Prop where
  wrong_key : ∀ {plaintext aad key key' ciphertext : Bytes} {nonce : Nonce},
    Crypto.aeadEncrypt plaintext aad key nonce = .ok ciphertext → key' ≠ key →
      ∃ e, Crypto.aeadDecrypt ciphertext nonce aad key' = .error e

/-- An ideal cipher: a ciphertext opens under one key only. -/
class IdealAead [Crypto] : Prop where
  one_key : ∀ {ciphertext aad key key' plaintext plaintext' : Bytes} {nonce : Nonce},
    Crypto.aeadDecrypt ciphertext nonce aad key = .ok plaintext →
      Crypto.aeadDecrypt ciphertext nonce aad key' = .ok plaintext' → key' = key

inductive MnemonicLanguage
  | English
  | ChineseSimplified
deriving DecidableEq, Repr

def MnemonicLanguage.fromKeystoreValue : String → Except String MnemonicLanguage
  | "en" => .ok English
  | "zh-CN" => .ok ChineseSimplified
  | other => .error s!"unsupported mnemonic language: {other}"

/-- `KeyStore` with the keys it holds once unlocked. -/
structure UnlockedKeyStore where
  sk : Bytes
  keystore : KeyStore
  deviceId : Uuid
  mnemonicLanguage : MnemonicLanguage
deriving DecidableEq, Repr

/-! ## The directory -/

structure KeystoreFile where
  content : String
  mode : Nat
deriving DecidableEq, Repr

abbrev KeystoreDir := AList fun _ : String => KeystoreFile

def WRAPPED_KEY_FILE : String := "wrapped_secret_key.json"

def TEMP_FILE : String := "wrapped_secret_key.json.tmp"

inductive KeystoreCall
  | readToString (path : String)
  | create (path : String)
  | writeAll (path content : String)
  | syncAll (path : String)
  | rename (source target : String)
  | metadata (path : String)
  | setPermissions (path : String) (mode : Nat)
  | lockMemory
  | generateSalt
  | generateNonce
  | now
  | newUuid
deriving DecidableEq

def KeystoreCall.Answer : KeystoreCall → Type
  | readToString _ => Except String String
  | metadata _ => Except String Nat
  | generateSalt => Salt
  | generateNonce => Nonce
  | now => DateTime
  | newUuid => Uuid
  | _ => Except String Unit

def KeystoreI : Interface where
  Call := KeystoreCall
  Answer := KeystoreCall.Answer

abbrev KeystoreM := Fallible String KeystoreI

/-- What the file system, the clock and the random source may answer. A write that fails leaves
any text in the file it was writing. -/
def keystoreEnv : Env KeystoreI KeystoreDir
  | d, .readToString path, answer, d' =>
      d' = d ∧ ((∃ file, d.lookup path = some file ∧ answer = .ok file.content) ∨
        ∃ e, answer = .error e)
  | d, .create path, answer, d' =>
      (∃ file : KeystoreFile, file.content = "" ∧ d' = d.insert path file ∧ answer = .ok ()) ∨
        d' = d ∧ ∃ e, answer = .error e
  | d, .writeAll path content, answer, d' =>
      (∃ file, d' = d.insert path file ∧
        (file.content = content ∧ answer = .ok () ∨ ∃ e, answer = .error e)) ∨
        d' = d ∧ ∃ e, answer = .error e
  | d, .rename source target, answer, d' =>
      (∃ file, d.lookup source = some file ∧ d' = (d.erase source).insert target file ∧
        answer = .ok ()) ∨ d' = d ∧ ∃ e, answer = .error e
  | d, .metadata path, answer, d' =>
      d' = d ∧ ((∃ file, d.lookup path = some file ∧ answer = .ok file.mode) ∨
        ∃ e, answer = .error e)
  | d, .setPermissions path mode, answer, d' =>
      (∃ file, d.lookup path = some file ∧ d' = d.insert path { file with mode := mode } ∧
        answer = .ok ()) ∨ d' = d ∧ ∃ e, answer = .error e
  | d, .syncAll _, _, d' => d' = d
  | d, .lockMemory, _, d' => d' = d
  | d, .generateSalt, _, d' => d' = d
  | d, .generateNonce, _, d' => d' = d
  | d, .now, _, d' => d' = d
  | d, .newUuid, _, d' => d' = d

/-- Nothing fails that need not. -/
def unfailingKeystoreEnv : Env KeystoreI KeystoreDir
  | d, .readToString path, answer, d' =>
      d' = d ∧ match d.lookup path with
        | some file => answer = .ok file.content
        | none => ∃ e, answer = .error e
  | d, .lockMemory, answer, d' => d' = d ∧ answer = .ok ()
  | d, c, answer, d' => keystoreEnv d c answer d'

namespace KeyStore

/-- One call of the file system, or the allocation of locked memory. -/
def io (c : KeystoreCall) {α : Type} (view : c.Answer → Except String α) : KeystoreM α :=
  Fallible.call (I := KeystoreI) c view id

def readToString (path : String) : KeystoreM String :=
  io (.readToString path) fun answer => answer

def lockMemory : KeystoreM Unit :=
  io .lockMemory fun answer => answer

def value {α : Type} (result : Except String α) : KeystoreM α :=
  match result with
  | .ok a => pure a
  | .error e => throw e

/-- `ok_or(..)?`. -/
def okOr {α : Type} (found : Option α) (e : String) : Except String α :=
  match found with
  | some a => .ok a
  | none => .error e

section Files

variable [Codec] [Crypto] [Argon2] [ValueJson]

def saltOf (bytes : Bytes) : Except String Salt :=
  if h : bytes.length = 16 then .ok ⟨bytes, h⟩
  else .error s!"invalid salt length: expected 16 bytes, got {bytes.length}"

/-- The checks of version and algorithm, and the parameters of the derivation. -/
def kdfOf (data : JsonValue) : Except String (Salt × Argon2Params) := do
  let version ← okOr (data.field "version").asU64 "missing version"
  if version ≠ 1 then
    throw s!"unsupported keystore version: {version}"
  let algorithm ← okOr (data.field "algorithm").asStr "missing algorithm"
  if algorithm ≠ "xchacha20-poly1305" then
    throw s!"unsupported algorithm: {algorithm}"
  let text ← okOr ((data.field "kdf").field "salt").asStr "missing salt"
  let bytes ← base64Decode text
  let salt ← saltOf bytes
  let timeCost ← okOr ((data.field "kdf").field "time_cost").asU64 "missing time_cost"
  let memoryCost ← okOr ((data.field "kdf").field "memory_cost").asU64 "missing memory_cost"
  let parallelism ← okOr ((data.field "kdf").field "parallelism").asU64 "missing parallelism"
  return (salt,
    { mCost := memoryCost % 2 ^ 32
      tCost := timeCost % 2 ^ 32
      pCost := parallelism % 2 ^ 32 })

def nonceOf (bytes : Bytes) : Except String Nonce :=
  if h : bytes.length = 24 then .ok ⟨bytes, h⟩
  else .error s!"invalid nonce length: expected 24 bytes, got {bytes.length}"

def wrappedOf (data : JsonValue) : Except String (Bytes × Nonce) := do
  let wrapped ← okOr (data.field "wrapped_sk").asStr "missing wrapped_sk"
  let wrapped ← base64Decode wrapped
  let nonce ← okOr (data.field "nonce").asStr "missing nonce"
  let bytes ← base64Decode nonce
  let nonce ← nonceOf bytes
  return (wrapped, nonce)

def wrapKey (key wrappingKey : Bytes) (nonce : Nonce) : Except String Bytes :=
  Crypto.aeadEncrypt key [] wrappingKey nonce

/-- A plaintext of another length ends the process (`copy_from_slice`). -/
def unwrapKey (wrapped : Bytes) (nonce : Nonce) (wrappingKey : Bytes) : Except String Bytes := do
  let plaintext ← Crypto.aeadDecrypt wrapped nonce [] wrappingKey
  if plaintext.length ≠ 32 then
    throw "copy_from_slice: source slice length does not match destination slice length"
  return plaintext

/-- `argon2::derive_key_locked`: the key is derived into locked memory. -/
def deriveKeyLocked (cmk : String) (salt : Salt) (params : Argon2Params) : KeystoreM Bytes := do
  lockMemory
  value (argon2id (utf8 cmk) salt params)

/-- What `unlock` and `change_cmk` both begin with: the document, the parameters and the secret
key. -/
def openSecretKey (cmk : String) : KeystoreM (JsonValue × Argon2Params × Bytes) := do
  let content ← readToString WRAPPED_KEY_FILE
  let data ← value (fromStr content)
  let (salt, params) ← value (kdfOf data)
  let wrappingKey ← deriveKeyLocked cmk salt params
  let (wrapped, nonce) ← value (wrappedOf data)
  let sk ← value (unwrapKey wrapped nonce wrappingKey)
  return (data, params, sk)

def languageOf (data : JsonValue) : String :=
  (data.field "mnemonic_language").asStr.getD "en"

/-- `hkdf::derive_kek`. -/
def deriveKek (sk : Bytes) : Bytes :=
  Crypto.hkdf (utf8 "open-keyring-v1") sk (utf8 "master-kek")

/-- What the secret key opens; a language that is not known falls back to English. -/
def unlockedWith (data : JsonValue) (sk : Bytes) (deviceId : Uuid) : UnlockedKeyStore where
  sk := sk
  keystore :=
    { kek := some (deriveKek sk)
      currentDekVersion := 1 }
  deviceId := deviceId
  mnemonicLanguage :=
    match MnemonicLanguage.fromKeystoreValue (languageOf data) with
    | .ok language => language
    | .error _ => .English

def unlock (cmk : String) : KeystoreM UnlockedKeyStore := do
  let (data, _, sk) ← openSecretKey cmk
  lockMemory
  lockMemory
  let deviceId : Uuid ← Fallible.ask (I := KeystoreI) KeystoreCall.newUuid
  return unlockedWith data sk deviceId

/-- The document of a wrapped key. -/
def wrappedKeyJson (wrapped : Bytes) (nonce : Nonce) (salt : Salt) (params : Argon2Params)
    (createdAt : DateTime) (language : String) : JsonValue :=
  .object
    [("version", .number 1),
      ("algorithm", .string "xchacha20-poly1305"),
      ("wrapped_sk", .string (base64Encode wrapped)),
      ("nonce", .string (base64Encode nonce.bytes)),
      ("kdf", .object
        [("algorithm", .string "argon2id"),
          ("salt", .string (base64Encode salt.bytes)),
          ("time_cost", .number params.tCost),
          ("memory_cost", .number params.mCost),
          ("parallelism", .number params.pCost),
          ("output_len", .number 32)]),
      ("created_at", .string (toRfc3339 createdAt)),
      ("mnemonic_language", .string language)]

/-- The new content of the file: the secret key under the new password. -/
def rewrap (data : JsonValue) (params : Argon2Params) (sk : Bytes) (newCmk : String) :
    KeystoreM String := do
  let salt : Salt ← Fallible.ask (I := KeystoreI) KeystoreCall.generateSalt
  let wrappingKey ← deriveKeyLocked newCmk salt params
  let nonce : Nonce ← Fallible.ask (I := KeystoreI) KeystoreCall.generateNonce
  let wrapped ← value (wrapKey sk wrappingKey nonce)
  let createdAt : DateTime ← Fallible.ask (I := KeystoreI) KeystoreCall.now
  value (toStringPretty
    (wrappedKeyJson wrapped nonce salt params createdAt (languageOf data)))

end Files

/-- The temporary file is written and flushed. -/
def writeTemp (content : String) : KeystoreM Unit := do
  io (.create TEMP_FILE) fun answer => answer
  io (.writeAll TEMP_FILE content) fun answer => answer
  io (.syncAll TEMP_FILE) fun answer => answer

def restrictPermissions : KeystoreM Unit := do
  let _ ← io (.metadata WRAPPED_KEY_FILE) fun (answer : Except String Nat) => answer
  io (.setPermissions WRAPPED_KEY_FILE 0o600) fun answer => answer

variable [Codec] [Crypto] [Argon2] [ValueJson]

def changeCmk (oldCmk newCmk : String) : KeystoreM Unit := do
  let (data, params, sk) ← openSecretKey oldCmk
  let content ← rewrap data params sk newCmk
  writeTemp content
  io (.rename TEMP_FILE WRAPPED_KEY_FILE) fun answer => answer
  restrictPermissions

end KeyStore

end OakKeyring
