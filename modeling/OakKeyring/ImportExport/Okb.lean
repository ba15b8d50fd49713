import OakKeyring.ImportExport.Export

/-!
# Reading backups

The parser of backups opens what an export wrote and brings its records into the form of all
imports.
-/

namespace OakKeyring

open Effect Transfer

/-- `u32::from_le_bytes`. -/
def littleEndian32 (bytes : Bytes) : Nat :=
  bytes.foldr (fun b n => b.toNat + 256 * n) 0

/-- The fields of a record; one without a value has no entry. -/
def okbItem (record : ExportRecord) : ParsedItem where
  sourceId := record.id
  fields :=
    ((((((((((((FieldMap.of
      [("name", record.name), ("credential_type", record.credentialType)]).insertOptional
      "username" record.username).insertOptional
      "password" record.password).insertOptional
      "url" record.url).insertOptional
      "notes" record.notes).insertOptional
      "is_favorite" (record.isFavorite.map fun favorite =>
        if favorite then "true" else "false")).insertOptional
      "expires_at" record.expiresAt).insertOptional
      "public_key" record.publicKey).insertOptional
      "private_key" record.privateKey).insertOptional
      "passphrase" record.passphrase).insertOptional
      "app_id" record.appId).insertOptional
      "secret_key" record.secretKey)
  tags := record.tags.getD []

namespace OkbParser

variable [Crypto] [Argon2] [ExportFormats]

/-- The parts of a file after its version: salt, nonce and ciphertext. -/
def split (data : Bytes) : Except ImportExportError (Salt × Nonce × Bytes) := do
  if data.length < 60 then
    throw (.InvalidFormat "file too short to be a valid .okb backup")
  let version := littleEndian32 (data.take 4)
  if version ≠ 1 then
    throw (.InvalidFormat s!"unsupported .okb version {version}, expected 1")
  let salt ← (KeyStore.saltOf ((data.drop 4).take 16)).mapError fun _ =>
    .InvalidFormat "invalid .okb salt length"
  let nonce ← (KeyStore.nonceOf ((data.drop 20).take 24)).mapError fun _ =>
    .InvalidFormat "invalid .okb nonce length"
  return (salt, nonce, data.drop 44)

def parse (path : PathBuf) (password : Option String) : TransferM (List ParsedItem) := do
  let data ← io (.readFile path) (fun (answer : Except String Bytes) => answer) fun e =>
    .FileReadError path e
  let (salt, nonce, ciphertext) ← value (split data)
  match password with
  | none => throw .PasswordRequired
  | some password =>
      let dek ← onKeystore .DecryptionFailed (KeyStore.deriveKeyLocked password salt .medium)
      let plaintext ← value
        ((Crypto.aeadDecrypt ciphertext nonce [] dek).mapError .DecryptionFailed)
      let payload ← value ((payloadFromSlice plaintext).mapError (.ParseError "okb"))
      return payload.records.map okbItem

end OkbParser

end OakKeyring
