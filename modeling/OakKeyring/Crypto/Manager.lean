import OakKeyring.Types.Credential

/-!
# Keys and payload encryption

The crates behind the crypto layer (`hkdf`, `chacha20poly1305`, `serde_json`) are the parameter
`Crypto`. Every encryption draws its nonce from the operating system; the nonce is an argument
here.
-/

namespace OakKeyring

class Crypto where
  /-- HKDF-SHA256 with a 32 byte output: salt, input key material, info. -/
  hkdf : Bytes → Bytes → Bytes → Bytes
  /-- XChaCha20-Poly1305: plaintext, additional data, key, nonce. -/
  aeadEncrypt : Bytes → Bytes → Bytes → Nonce → Except String Bytes
  /-- XChaCha20-Poly1305: ciphertext, nonce, additional data, key. -/
  aeadDecrypt : Bytes → Nonce → Bytes → Bytes → Except String Bytes
  /-- A payload as the JSON of `PayloadPlaintextDto`. -/
  payloadToJson : EncryptedPayload → Except String Bytes
  payloadFromJson : Bytes → Except String EncryptedPayload
  /-- The text fields of the object inside an externally tagged enum. -/
  textFields : Bytes → Except String (String → Option String)

export Crypto (payloadToJson payloadFromJson textFields)

/-- The UTF-8 bytes of a text. -/
def utf8 (s : String) : Bytes :=
  s.toUTF8.toList

variable [Crypto]

def deriveDek (kek : Bytes) (version : Nat) : Bytes :=
  Crypto.hkdf (utf8 "open-keyring-dek") kek (utf8 s!"dek-v{version}")

/-- An unlocked key store: the key that the data keys are derived from. -/
structure KeyStore where
  kek : Option Bytes
  currentDekVersion : Nat
deriving DecidableEq, Repr

structure CryptoManager where
  keystore : Option KeyStore
  currentDekVersion : Nat
deriving DecidableEq, Repr

namespace CryptoManager

omit [Crypto] in
def fromUnlockedKeystore (keystore : KeyStore) : CryptoManager where
  keystore := some keystore
  currentDekVersion := keystore.currentDekVersion

def isUnlocked (c : CryptoManager) : Bool :=
  c.keystore.isSome

def getDek (c : CryptoManager) (version : Nat) : Except String Bytes :=
  match c.keystore with
  | none => .error "CryptoManager not unlocked"
  | some ks =>
      match ks.kek with
      | none => .error "KeyStore not unlocked"
      | some kek => .ok (deriveDek kek version)

def encrypt (c : CryptoManager) (plaintext aad : Bytes) (nonce : Nonce) : Except String Bytes := do
  let dek ← c.getDek c.currentDekVersion
  Crypto.aeadEncrypt plaintext aad dek nonce

def decrypt (c : CryptoManager) (ciphertext : Bytes) (nonce : Nonce) (aad : Bytes)
    (dekVersion : Nat) : Except String Bytes := do
  let dek ← c.getDek dekVersion
  Crypto.aeadDecrypt ciphertext nonce aad dek

def encryptPayload (c : CryptoManager) (payload : EncryptedPayload) (aad : Bytes)
    (nonce : Nonce) : Except String Bytes := do
  let json ← payloadToJson payload
  c.encrypt json aad nonce

def decryptPayload (c : CryptoManager) (ciphertext : Bytes) (nonce : Nonce) (aad : Bytes)
    (dekVersion : Nat) : Except String EncryptedPayload := do
  let plaintext ← c.decrypt ciphertext nonce aad dekVersion
  payloadFromJson plaintext

def decryptNameOnly (c : CryptoManager) (ciphertext : Bytes) (nonce : Nonce) (aad : Bytes)
    (dekVersion : Nat) : Except String String := do
  let plaintext ← c.decrypt ciphertext nonce aad dekVersion
  let inner ← textFields plaintext
  match inner "name" with
  | some name => .ok name
  | none => .error "name field not found"

end CryptoManager

/-- The first 32 characters of a public key. -/
def sshSubtitle (publicKey : String) : String :=
  if 32 < publicKey.length then String.ofList (publicKey.toList.take 32) ++ "..."
  else publicKey

/-- The field that a list shows under the name. -/
def subtitleOfFields (credentialType : CredentialType) (inner : String → Option String) : String :=
  match credentialType with
  | .Login => (inner "username").getD ""
  | .Api => (inner "app_id").getD ""
  | .Ssh => sshSubtitle ((inner "public_key").getD "")
  | .SecureNote => ""

def CryptoManager.decryptSubtitle (c : CryptoManager) (ciphertext : Bytes) (nonce : Nonce)
    (aad : Bytes) (credentialType : CredentialType) (dekVersion : Nat) : Except String String := do
  let plaintext ← c.decrypt ciphertext nonce aad dekVersion
  let inner ← textFields plaintext
  return subtitleOfFields credentialType inner

/-- `record_index_fields_from_payload`. -/
def EncryptedPayload.indexFields : EncryptedPayload → String × String
  | .Login name username .. => (name, username)
  | .Api name appId .. => (name, appId)
  | .Ssh name publicKey .. => (name, sshSubtitle publicKey)
  | .SecureNote name _ => (name, "")

/-! ## What the crates promise -/

/-- The text fields of a payload's JSON object. -/
def EncryptedPayload.textField : EncryptedPayload → String → Option String
  | .Login name username password url notes, field =>
      if field = "name" then some name
      else if field = "username" then some username
      else if field = "password" then some password
      else if field = "url" then url
      else if field = "notes" then notes
      else none
  | .Api name appId secretKey url notes, field =>
      if field = "name" then some name
      else if field = "app_id" then some appId
      else if field = "secret_key" then some secretKey
      else if field = "url" then url
      else if field = "notes" then notes
      else none
  | .Ssh name publicKey privateKey passphrase notes, field =>
      if field = "name" then some name
      else if field = "public_key" then some publicKey
      else if field = "private_key" then privateKey
      else if field = "passphrase" then passphrase
      else if field = "notes" then notes
      else none
  | .SecureNote name notes, field =>
      if field = "name" then some name
      else if field = "notes" then notes
      else none

/-- Decryption undoes encryption under the same key, nonce and additional data; a payload's
JSON is read back; and an object that reads as a payload has the payload's fields, whatever
further fields it has. -/
class LawfulCrypto : Prop where
  decrypt_encrypt : ∀ {plaintext aad key ciphertext : Bytes} {nonce : Nonce},
    Crypto.aeadEncrypt plaintext aad key nonce = .ok ciphertext →
      Crypto.aeadDecrypt ciphertext nonce aad key = .ok plaintext
  fromJson_toJson : ∀ {payload : EncryptedPayload} {json : Bytes},
    payloadToJson payload = .ok json → payloadFromJson json = .ok payload
  textFields_of_fromJson : ∀ {payload : EncryptedPayload} {json : Bytes},
    payloadFromJson json = .ok payload →
      ∃ inner, textFields json = .ok inner ∧
        ∀ field value, payload.textField field = some value → inner field = some value

namespace CryptoManager

variable [LawfulCrypto] {c : CryptoManager}

/-- What is encrypted is decrypted under the version it was encrypted with. -/
theorem decrypt_encrypt {plaintext aad ciphertext : Bytes} {nonce : Nonce}
    (h : c.encrypt plaintext aad nonce = .ok ciphertext) :
    c.decrypt ciphertext nonce aad c.currentDekVersion = .ok plaintext := by
  unfold encrypt at h
  unfold decrypt
  cases hdek : c.getDek c.currentDekVersion with
  | error e =>
      rw [hdek] at h
      cases h
  | ok dek =>
      rw [hdek] at h
      exact LawfulCrypto.decrypt_encrypt h

theorem decryptPayload_encryptPayload {payload : EncryptedPayload} {aad ciphertext : Bytes}
    {nonce : Nonce} (h : c.encryptPayload payload aad nonce = .ok ciphertext) :
    c.decryptPayload ciphertext nonce aad c.currentDekVersion = .ok payload := by
  unfold encryptPayload at h
  unfold decryptPayload
  cases hjson : payloadToJson payload with
  | error e =>
      rw [hjson] at h
      cases h
  | ok json =>
      rw [hjson] at h
      have hplain : c.decrypt ciphertext nonce aad c.currentDekVersion = .ok json :=
        decrypt_encrypt h
      rw [hplain]
      exact LawfulCrypto.fromJson_toJson hjson

/-- A payload that decrypts has its name and, under its own credential type, its subtitle
shown. -/
theorem shown_of_decryptPayload {payload : EncryptedPayload} {ciphertext aad : Bytes}
    {nonce : Nonce} {dekVersion : Nat}
    (h : c.decryptPayload ciphertext nonce aad dekVersion = .ok payload) :
    c.decryptNameOnly ciphertext nonce aad dekVersion = .ok payload.indexFields.1 ∧
      c.decryptSubtitle ciphertext nonce aad payload.credentialType dekVersion =
        .ok payload.indexFields.2 := by
  unfold decryptPayload at h
  cases hplain : c.decrypt ciphertext nonce aad dekVersion with
  | error e =>
      rw [hplain] at h
      cases h
  | ok plaintext =>
      rw [hplain] at h
      rcases LawfulCrypto.textFields_of_fromJson h with ⟨inner, hinner, hfields⟩
      -- the fields of the payload are those that are read one by one
      have hname : inner "name" = some payload.indexFields.1 := by
        apply hfields
        cases payload <;> rfl
      have hsubtitle : subtitleOfFields payload.credentialType inner = payload.indexFields.2 := by
        cases payload with
        | Login name username password url notes =>
            have husername : inner "username" = some username := hfields _ _ rfl
            simp [subtitleOfFields, EncryptedPayload.credentialType, EncryptedPayload.indexFields,
              husername]
        | Api name appId secretKey url notes =>
            have happId : inner "app_id" = some appId := hfields _ _ rfl
            simp [subtitleOfFields, EncryptedPayload.credentialType, EncryptedPayload.indexFields,
              happId]
        | Ssh name publicKey privateKey passphrase notes =>
            have hkey : inner "public_key" = some publicKey := hfields _ _ rfl
            simp [subtitleOfFields, EncryptedPayload.credentialType, EncryptedPayload.indexFields,
              hkey]
        | SecureNote name notes => rfl
      constructor
      · unfold decryptNameOnly
        rw [hplain]
        simp [hinner, hname, bind, Except.bind]
      · unfold decryptSubtitle
        rw [hplain]
        simp [hinner, hsubtitle, bind, Except.bind, pure, Except.pure]

end CryptoManager

/-! ## One key for one vault -/

/-- The payload behind a ciphertext under the key of the vault, if it can be read. -/
def payloadUnder (kek data : Bytes) (nonce : Nonce) (aad : Bytes) (dekVersion : Nat) :
    Option EncryptedPayload :=
  match Crypto.aeadDecrypt data nonce aad (deriveDek kek dekVersion) with
  | .error _ => none
  | .ok plaintext => (payloadFromJson plaintext).toOption

omit [Crypto] in
/-- A crypto manager that is locked or was unlocked with the key of the vault. -/
def CryptoManager.Opens (kek : Bytes) (c : CryptoManager) : Prop :=
  ∀ ks k, c.keystore = some ks → ks.kek = some k → k = kek

namespace CryptoManager

variable {c : CryptoManager} {kek : Bytes}

theorem Opens.getDek (h : c.Opens kek) {version : Nat} {dek : Bytes}
    (hdek : c.getDek version = .ok dek) : dek = deriveDek kek version := by
  unfold CryptoManager.getDek at hdek
  split at hdek
  · cases hdek
  · rename_i ks hks
    split at hdek
    · cases hdek
    · rename_i k hk
      have hkey : k = kek := h ks k hks hk
      cases hdek
      rw [hkey]

theorem Opens.decrypt (h : c.Opens kek) {ciphertext aad plaintext : Bytes} {nonce : Nonce}
    {version : Nat} (hplain : c.decrypt ciphertext nonce aad version = .ok plaintext) :
    Crypto.aeadDecrypt ciphertext nonce aad (deriveDek kek version) = .ok plaintext := by
  unfold CryptoManager.decrypt at hplain
  cases hdek : c.getDek version with
  | error e =>
      rw [hdek] at hplain
      cases hplain
  | ok dek =>
      rw [hdek] at hplain
      rw [← h.getDek hdek]
      exact hplain

/-- What an unlocked manager decrypts as a payload is the payload. -/
theorem Opens.payload (h : c.Opens kek) {data aad : Bytes} {nonce : Nonce} {version : Nat}
    {payload : EncryptedPayload} (hpayload : c.decryptPayload data nonce aad version = .ok payload) :
    payloadUnder kek data nonce aad version = some payload := by
  unfold CryptoManager.decryptPayload at hpayload
  cases hplain : c.decrypt data nonce aad version with
  | error e =>
      rw [hplain] at hpayload
      cases hpayload
  | ok plaintext =>
      rw [hplain] at hpayload
      have hjson : payloadFromJson plaintext = .ok payload := hpayload
      unfold payloadUnder
      rw [h.decrypt hplain]
      simp only
      rw [hjson]
      rfl

/-- A payload is what the manager decrypts once it has the key. -/
theorem Opens.decryptPayload (h : c.Opens kek) {data aad : Bytes} {nonce : Nonce}
    {version : Nat} {payload : EncryptedPayload} {dek : Bytes}
    (hpayload : payloadUnder kek data nonce aad version = some payload)
    (hdek : c.getDek version = .ok dek) :
    c.decryptPayload data nonce aad version = .ok payload := by
  have hkey : dek = deriveDek kek version := h.getDek hdek
  unfold payloadUnder at hpayload
  unfold CryptoManager.decryptPayload CryptoManager.decrypt
  rw [hdek, hkey]
  cases hplain : Crypto.aeadDecrypt data nonce aad (deriveDek kek version) with
  | error e =>
      rw [hplain] at hpayload
      cases hpayload
  | ok plaintext =>
      rw [hplain] at hpayload
      simp only at hpayload
      cases hjson : payloadFromJson plaintext with
      | error e =>
          rw [hjson] at hpayload
          cases hpayload
      | ok payload' =>
          rw [hjson] at hpayload
          cases hpayload
          simp [hplain, hjson, bind, Except.bind]

theorem getDek_of_decrypt {data aad plaintext : Bytes} {nonce : Nonce} {version : Nat}
    (h : c.decrypt data nonce aad version = .ok plaintext) :
    ∃ dek, c.getDek version = .ok dek := by
  unfold CryptoManager.decrypt at h
  cases hdek : c.getDek version with
  | error e =>
      rw [hdek] at h
      cases h
  | ok dek => exact ⟨dek, rfl⟩

theorem getDek_of_decryptPayload {data aad : Bytes} {nonce : Nonce} {version : Nat}
    {payload : EncryptedPayload} (h : c.decryptPayload data nonce aad version = .ok payload) :
    ∃ dek, c.getDek version = .ok dek := by
  unfold CryptoManager.decryptPayload at h
  cases hplain : c.decrypt data nonce aad version with
  | error e =>
      rw [hplain] at h
      cases h
  | ok plaintext => exact getDek_of_decrypt hplain

theorem getDek_of_decryptNameOnly {data aad : Bytes} {nonce : Nonce} {version : Nat}
    {name : String} (h : c.decryptNameOnly data nonce aad version = .ok name) :
    ∃ dek, c.getDek version = .ok dek := by
  unfold CryptoManager.decryptNameOnly at h
  cases hplain : c.decrypt data nonce aad version with
  | error e =>
      rw [hplain] at h
      cases h
  | ok plaintext => exact getDek_of_decrypt hplain

theorem getDek_of_decryptSubtitle {data aad : Bytes} {nonce : Nonce} {type : CredentialType}
    {version : Nat} {subtitle : String}
    (h : c.decryptSubtitle data nonce aad type version = .ok subtitle) :
    ∃ dek, c.getDek version = .ok dek := by
  unfold CryptoManager.decryptSubtitle at h
  cases hplain : c.decrypt data nonce aad version with
  | error e =>
      rw [hplain] at h
      cases h
  | ok plaintext => exact getDek_of_decrypt hplain

end CryptoManager

end OakKeyring
