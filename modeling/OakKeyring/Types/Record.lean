import OakKeyring.Types.Uuid

/-!
# Records and the values they carry

The third-party encodings (base64, SHA-256 in hexadecimal, RFC 3339) are the parameter
`Codec`: the code calls them and relies on nothing but that they are functions.
-/

namespace OakKeyring

abbrev Bytes := List UInt8

/-- A UTC instant. -/
structure DateTime where
  seconds : Int
  nanos : Nat
deriving DecidableEq, Repr

/-- The XChaCha20-Poly1305 nonce, `[u8; 24]`. -/
structure Nonce where
  bytes : Bytes
  length_bytes : bytes.length = 24
deriving DecidableEq, Repr

/-- The nonce with one byte throughout. -/
def Nonce.filled (b : UInt8) : Nonce :=
  ⟨List.replicate 24 b, rfl⟩

/-- `<[u8; 24]>::try_from`. -/
def Nonce.ofBytes? (bs : Bytes) : Option Nonce :=
  if h : bs.length = 24 then some ⟨bs, h⟩ else none

/-- Text and hash encodings from the crates `base64`, `sha2`, `hex` and `chrono`. -/
class Codec where
  base64Encode : Bytes → String
  base64Decode : String → Except String Bytes
  sha256Hex : Bytes → String
  toRfc3339 : DateTime → String
  parseRfc3339 : String → Except String DateTime

export Codec (base64Encode base64Decode sha256Hex toRfc3339 parseRfc3339)

inductive SyncStatus
  | Pending
  | Synced
  | Conflict
deriving DecidableEq, Repr

inductive CredentialType
  | Login
  | Api
  | Ssh
  | SecureNote
deriving DecidableEq, Repr

/-- A record as the local database stores it. -/
structure StoredRecord where
  id : Uuid
  credentialType : CredentialType
  encryptedData : Bytes
  nonce : Nonce
  dekVersion : Nat
  aad : Bytes
  isFavorite : Bool
  expiresAt : Option DateTime
  createdAt : DateTime
  updatedAt : DateTime
  updatedBy : String
  version : Nat
  deleted : Bool
  deletedAt : Option DateTime
  tags : List String
deriving DecidableEq, Repr

/-- The health evaluation of one record. -/
structure RecordHealthState where
  recordId : Uuid
  recordVersion : Nat
  evaluatedAt : Option DateTime
  weakPassword : Option Bool
  duplicateGroupSize : Option Nat
  compromised : Option Bool
  expired : Option Bool
deriving DecidableEq, Repr

/-- A row of the table `sync_state` (`types::sync::SyncState`). -/
structure SyncStateRow where
  recordId : Uuid
  cloudUpdatedAt : Option DateTime
  localUpdatedAt : DateTime
  syncStatus : SyncStatus
  conflictData : Option Bytes
deriving DecidableEq, Repr

end OakKeyring
