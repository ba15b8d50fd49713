import OakKeyring.Agent.Signer
import OakKeyring.Vault.Field

/-!
# The SSH agent

At its start the agent loads the public keys of the vault's SSH records and indexes them by their
wire form. A request to sign looks the asked key up in that index and reads the private key of the
record from the vault. The vault may have changed by then.
-/

namespace OakKeyring

open Effect Vault

/-! ## Identities -/

structure LoadedIdentity where
  recordId : Uuid
  name : String
  algo : SshAlgo
  publicBlob : Bytes
deriving DecidableEq, Repr

/-- Names to include, and a regular expression for more; with neither every name is included. -/
structure IdentityFilter where
  only : List String
  allow : Option (String → Bool)

def IdentityFilter.admits (filter : IdentityFilter) (name : String) : Bool :=
  if filter.only.isEmpty && filter.allow.isNone then true
  else filter.only.contains name || filter.allow.any fun isMatch => isMatch name

inductive IdentityError
  | Vault (source : VaultError)
  | ParsePublicKey (source : String)
  | EncodePublicKey (source : String)
  | UnsupportedAlgorithm (name : String)
deriving DecidableEq, Repr

def mapAlgorithm : Algorithm → Except IdentityError SshAlgo
  | .Ed25519 => .ok .Ed25519
  | .Rsa => .ok .Rsa
  | .Ecdsa curve => .ok (.Ecdsa curve)
  | .other name => .error (.UnsupportedAlgorithm name)

section Loading

variable [SshKeys]

def parsePublicKey (opensshStr : String) : Except IdentityError (SshAlgo × Bytes) := do
  let publicKey ← (SshKeys.publicKeyFromOpenssh opensshStr).mapError IdentityError.ParsePublicKey
  let algo ← mapAlgorithm publicKey.algorithm
  let publicBlob ← publicKey.toBytes.mapError IdentityError.EncodePublicKey
  return (algo, publicBlob)

def parsed {α : Type} (result : Except IdentityError α) : Fallible IdentityError VaultI α :=
  match result with
  | .ok a => pure a
  | .error e => throw e

variable [Crypto] (v : VaultService)

/-- One record: the identities so far, with its own when it is an SSH record with an admitted
name. -/
def loadIdentity (filter : IdentityFilter) (identities : List LoadedIdentity)
    (record : StoredRecord) : Fallible IdentityError VaultI (List LoadedIdentity) := do
  if record.credentialType ≠ .Ssh then
    return identities
  else
    let name ← Fallible.mapError IdentityError.Vault (decryptRecordNameForSync v record)
    if filter.admits name = false then
      return identities
    else
      let publicSsh ← Fallible.mapError IdentityError.Vault (decryptField v record.id .Username)
      let (algo, publicBlob) ← parsed (parsePublicKey publicSsh)
      return identities ++ [{
        recordId := record.id
        name := name
        algo := algo
        publicBlob := publicBlob }]

def loadSshIdentities (filter : IdentityFilter) :
    Fallible IdentityError VaultI (List LoadedIdentity) := do
  let records ← Fallible.mapError IdentityError.Vault listAllStoredRecords
  records.foldlM (loadIdentity v filter) []

end Loading

/-! ## The server -/

structure AgentServer where
  vault : VaultService
  identities : List LoadedIdentity
deriving DecidableEq, Repr

namespace AgentServer

/-- `blob_index`: of two identities with one key the later one counts. -/
def blobIndex (server : AgentServer) (keyBlob : Bytes) : Option (Uuid × SshAlgo) :=
  (server.identities.reverse.find? fun i => i.publicBlob == keyBlob).map fun i =>
    (i.recordId, i.algo)

def SSH_AGENT_FAILURE : UInt8 := 5
def SSH_AGENTC_REQUEST_IDENTITIES : UInt8 := 11
def SSH_AGENT_IDENTITIES_ANSWER : UInt8 := 12
def SSH_AGENTC_SIGN_REQUEST : UInt8 := 13
def SSH_AGENT_SIGN_RESPONSE : UInt8 := 14

def SSH_AGENT_RSA_SHA2_256 : Nat := 0x02
def SSH_AGENT_RSA_SHA2_512 : Nat := 0x04

def failure : Bytes :=
  [SSH_AGENT_FAILURE]

/-- `u32::from_be_bytes` of the first four bytes, and the rest. -/
def readU32 : Bytes → Option (Nat × Bytes)
  | a :: b :: c :: d :: rest =>
      some (((a.toNat * 256 + b.toNat) * 256 + c.toNat) * 256 + d.toNat, rest)
  | _ => none

def readString (input : Bytes) : Option (Bytes × Bytes) :=
  match readU32 input with
  | some (len, rest) => if rest.length < len then none else some (rest.take len, rest.drop len)
  | none => none

structure SignRequest where
  keyBlob : Bytes
  data : Bytes
  flags : SignFlags
deriving DecidableEq, Repr

/-- The body of a request to sign: `<string key_blob><string data><u32 flags>`. -/
def decodeSignRequest (body : Bytes) : Option SignRequest := do
  let (keyBlob, rest) ← readString body
  let (data, rest) ← readString rest
  let (flags, _) ← readU32 rest
  return {
    keyBlob := keyBlob
    data := data
    flags :=
      { rsaSha2256 := flags &&& SSH_AGENT_RSA_SHA2_256 ≠ 0
        rsaSha2512 := flags &&& SSH_AGENT_RSA_SHA2_512 ≠ 0 } }

def answerIdentities (identities : List LoadedIdentity) : Bytes :=
  SSH_AGENT_IDENTITIES_ANSWER :: u32Bytes identities.length ++
    identities.flatMap fun i => writeString i.publicBlob ++ writeString (utf8 i.name)

def signResponse (sigBlob : Bytes) : Bytes :=
  SSH_AGENT_SIGN_RESPONSE :: writeString sigBlob

inductive SignError
  | DecryptPrivateKey (source : VaultError)
  | BuildSigner (source : SignerError)
  | Sign (source : SignerError)
deriving DecidableEq, Repr

variable [SshKeys] [Crypto]

omit [SshKeys] [Crypto] in
def signed {α : Type} (result : Except SignError α) : Fallible SignError VaultI α :=
  match result with
  | .ok a => pure a
  | .error e => throw e

/-- An empty passphrase counts as none, and so does one that cannot be read. -/
def passphraseOf (found : Except VaultError String) : Option String :=
  found.toOption.filter fun s => s ≠ ""

def sign (v : VaultService) (recordId : Uuid) (data : Bytes) (flags : SignFlags) (algo : SshAlgo) :
    Fallible SignError VaultI Bytes := do
  let pem ← Fallible.mapError SignError.DecryptPrivateKey (decryptFieldNoAudit v recordId .Password)
  let found ← Fallible.mapError SignError.DecryptPrivateKey
    (Fallible.attempt (decryptFieldNoAudit v recordId .Passphrase))
  let signer ← signed ((signerFromOpenssh algo pem (passphraseOf found)).mapError
    SignError.BuildSigner)
  signed ((signer.sign data flags).mapError SignError.Sign)

/-- The audit entry is written after the signature; that it fails changes nothing. -/
def handleSign (server : AgentServer) (body : Bytes) : Prog VaultI Bytes :=
  match decodeSignRequest body with
  | none => pure failure
  | some request =>
      match server.blobIndex request.keyBlob with
      | none => pure failure
      | some (recordId, algo) => do
          let outcome ← (sign server.vault recordId request.data request.flags algo).run
          match outcome with
          | .error _ => return failure
          | .ok sigBlob =>
              let name := (server.identities.find? fun i => i.recordId == recordId).map
                LoadedIdentity.name
              let _ ← (query (.insertAuditEntry .SshSign (some recordId) name
                (some (algo.wireName request.flags)))).run
              return signResponse sigBlob

def dispatch (server : AgentServer) (request : Bytes) : Prog VaultI Bytes :=
  match request with
  | [] => pure failure
  | msgType :: body =>
      if msgType = SSH_AGENTC_REQUEST_IDENTITIES then pure (answerIdentities server.identities)
      else if msgType = SSH_AGENTC_SIGN_REQUEST then handleSign server body
      else pure failure

def start (v : VaultService) (filter : IdentityFilter) :
    Fallible IdentityError VaultI AgentServer := do
  let identities ← loadSshIdentities v filter
  return {
    vault := v
    identities := identities }

end AgentServer

end OakKeyring
