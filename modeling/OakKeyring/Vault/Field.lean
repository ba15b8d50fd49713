import OakKeyring.Vault.Record

/-!
# Single fields of a record

A field is named alike for every credential type; a type that has no such field, or a record
that leaves it out, makes the request fail.
-/

namespace OakKeyring

open Effect

/-- The table of `extract_field`. -/
def extractField (credentialType : CredentialType) (payload : EncryptedPayload)
    (field : FieldSelector) : Except VaultError String :=
  match credentialType, payload, field with
  | .Login, .Login _ _ password _ _, .Password => .ok password
  | .Login, .Login _ username _ _ _, .Username => .ok username
  | .Login, .Login _ _ _ (some url) _, .Url => .ok url
  | .Login, .Login _ _ _ _ (some notes), .Notes => .ok notes
  | .Api, .Api _ _ secretKey _ _, .Password => .ok secretKey
  | .Api, .Api _ appId _ _ _, .Username => .ok appId
  | .Api, .Api _ _ _ (some url) _, .Url => .ok url
  | .Api, .Api _ _ _ _ (some notes), .Notes => .ok notes
  | .Ssh, .Ssh _ _ (some privateKey) _ _, .Password => .ok privateKey
  | .Ssh, .Ssh _ publicKey _ _ _, .Username => .ok publicKey
  | .Ssh, .Ssh _ _ _ _ (some notes), .Notes => .ok notes
  | .Ssh, .Ssh _ _ _ (some passphrase) _, .Passphrase => .ok passphrase
  | _, _, _ => .error (.InvalidField credentialType field)

namespace Vault

variable [Crypto] (v : VaultService)

/-- The payload of a stored record. -/
def payloadOf (stored : StoredRecord) : Except String EncryptedPayload :=
  v.crypto.decryptPayload stored.encryptedData stored.nonce stored.aad stored.dekVersion

def extracted (result : Except VaultError String) : VaultM String :=
  match result with
  | .ok value => pure value
  | .error e => throw e

def decryptFieldWithAudit (id : Uuid) (field : FieldSelector)
    (auditOperation : Option AuditOperation) : VaultM String := do
  requireUnlocked v
  let stored ← getStoredRecord id
  let payload ← crypto (payloadOf v stored)
  let value ← extracted (extractField stored.credentialType payload field)
  match auditOperation with
  | some operation =>
      query (.insertAuditEntry operation (some id) (some payload.name) none)
      return value
  | none => return value

def decryptField (id : Uuid) (field : FieldSelector) : VaultM String :=
  decryptFieldWithAudit v id field
    (if field = .Password ∨ field = .Passphrase then some .RecordViewPassword else none)

def decryptFieldNoAudit (id : Uuid) (field : FieldSelector) : VaultM String :=
  decryptFieldWithAudit v id field none

def listAllStoredRecords : VaultM (List StoredRecord) :=
  query (.listRecords .active)

/-- The name, without the rest of the payload. -/
def recordNameOf (stored : StoredRecord) : Except String String :=
  v.crypto.decryptNameOnly stored.encryptedData stored.nonce (recordAad stored.id)
    stored.dekVersion

def decryptRecordNameForSync (stored : StoredRecord) : VaultM String :=
  crypto (recordNameOf v stored)

end Vault

end OakKeyring
