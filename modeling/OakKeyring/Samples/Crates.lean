import OakKeyring.Cloud.Schema
import OakKeyring.Samples.Aead

/-!
# Reference crates

Instances of `Codec` and `Serde` that print what the crates print. Reading JSON is done by
looking a text up among the documents the instance is given.
-/

namespace OakKeyring

namespace Rfc3339

/-- A number with leading zeros. -/
def digits (width n : Nat) : String :=
  let text := toString n
  String.ofList (List.replicate (width - text.length) '0') ++ text

/-- Year, month and day of a day number counted from 1 March of year 0. -/
def civil (day : Nat) : Nat × Nat × Nat :=
  let era := day / 146097
  let doe := day % 146097
  let yoe := (doe - doe / 1460 + doe / 36524 - doe / 146096) / 365
  let doy := doe - (365 * yoe + yoe / 4 - yoe / 100)
  let mp := (5 * doy + 2) / 153
  let month := if mp < 10 then mp + 3 else mp - 9
  let year := yoe + era * 400 + (if month ≤ 2 then 1 else 0)
  (year, month, doy - (153 * mp + 2) / 5 + 1)

/-- Instants from the epoch on, to the second. -/
def print (t : DateTime) : String :=
  let s := t.seconds.toNat
  let (year, month, day) := civil (s / 86400 + 719468)
  s!"{digits 4 year}-{digits 2 month}-{digits 2 day}T{digits 2 (s % 86400 / 3600)}:{digits 2 (s % 3600 / 60)}:{digits 2 (s % 60)}+00:00"

end Rfc3339

/-- The crates' encodings; RFC 3339 texts are read among the given instants. -/
@[reducible] def referenceCodec (instants : List DateTime) : Codec where
  base64Encode := Base64.encode
  base64Decode := Base64.decode
  sha256Hex := Sha256.hex
  toRfc3339 := Rfc3339.print
  parseRfc3339 text :=
    match instants.find? fun t => Rfc3339.print t == text with
    | some t => .ok t
    | none => .error "input contains invalid characters"

namespace Json

/-- The UTF-8 bytes of a text. -/
def bytes (s : String) : Bytes :=
  s.toUTF8.data.toList

/-- A byte that a string escapes: a quotation mark, a backslash or a line feed. -/
def escapes (b : UInt8) : Bool :=
  b == 34 || b == 92 || b == 10

def escaped (s : String) : String :=
  String.ofList <| s.toList.flatMap fun c =>
    if c.toNat = 34 ∨ c.toNat = 92 then [Char.ofNat 92, c]
    else if c.toNat = 10 then [Char.ofNat 92, 'n']
    else [c]

-- the characters are looked at one by one only where something is escaped, as that is slow
def quote (s : String) : String :=
  if (bytes s).any escapes then "\"" ++ escaped s ++ "\"" else "\"" ++ s ++ "\""

def bool (b : Bool) : String :=
  if b then "true" else "false"

def array (xs : List String) : String :=
  "[" ++ ",".intercalate xs ++ "]"

/-- An object, whose names need no escapes; a field without a value is skipped. -/
def object (fields : List (String × Option String)) : String :=
  let present := fields.filterMap fun f => f.2.map fun v => "\"" ++ f.1 ++ "\":" ++ v
  "\x7b" ++ ",".intercalate present ++ "\x7d"

def aad (a : AadFields) : String :=
  object [("record_id", some (quote a.recordId)), ("dek_version", some (toString a.dekVersion))]

def health (h : RecordHealthMetadata) : String :=
  object [("evaluated_at", h.evaluatedAt.map quote), ("weak_password", h.weakPassword.map bool),
    ("duplicate_group_size", h.duplicateGroupSize.map toString),
    ("compromised", h.compromised.map bool), ("expired", h.expired.map bool)]

def credentialType : CredentialType → String
  | .Login => quote "login"
  | .Api => quote "api"
  | .Ssh => quote "ssh"
  | .SecureNote => quote "secure_note"

def encryptedMetadata (m : EncryptedRecordMetadata) : String :=
  object [("encrypted_data", some (quote m.encryptedData)), ("nonce", some (quote m.nonce)),
    ("dek_version", some (toString m.dekVersion))]

def privateMetadata (m : CloudPrivateMetadata) : String :=
  object [("name", some (quote m.name)), ("tags", some (array (m.tags.map quote))),
    ("credential_type", m.credentialType.map credentialType),
    ("is_favorite", m.isFavorite.map bool), ("expires_at", m.expiresAt.map quote),
    ("updated_by", m.updatedBy.map quote), ("health", m.health.map health)]

def recordMetadata (m : RecordMetadata) : String :=
  object [("name", some (quote m.name)), ("tags", some (array (m.tags.map quote))),
    ("updated_at", some (quote m.updatedAt)),
    ("credential_type", m.credentialType.map credentialType),
    ("is_favorite", m.isFavorite.map bool), ("expires_at", m.expiresAt.map quote),
    ("updated_by", m.updatedBy.map quote), ("health", m.health.map health),
    ("encrypted_metadata", m.encryptedMetadata.map encryptedMetadata)]

def cloudRecord (r : CloudRecord) : String :=
  object [("id", some (quote r.id)), ("version", some (toString r.version)),
    ("encrypted_data", some (quote r.encryptedData)), ("nonce", some (quote r.nonce)),
    ("dek_version", some (toString r.dekVersion)), ("aad", some (aad r.aad)),
    ("metadata", some (recordMetadata r.metadata)), ("deleted", r.deleted.map bool),
    ("deleted_at", r.deletedAt.map quote)]

def conflictPayload (p : ConflictPayload) : String :=
  object [("cloud_record", some (cloudRecord p.cloudRecord)), ("checksum", some (quote p.checksum))]

def versionInfo (i : RecordVersionInfo) : String :=
  object [("version", some (toString i.version)), ("updated_at", some (quote i.updatedAt)),
    ("updated_by", some (quote i.updatedBy)), ("checksum", some (quote i.checksum)),
    ("private_metadata_checksum", i.privateMetadataChecksum.map quote),
    ("deleted", some (bool i.deleted))]

def metadata (m : CloudMetadata) : String :=
  object [("version", some (toString m.version)), ("schema_version", some (quote m.schemaVersion)),
    ("current_dek_version", some (toString m.currentDekVersion)),
    ("min_supported_dek_version", some (toString m.minSupportedDekVersion)),
    ("vault_identity_token", some (quote m.vaultIdentityToken)),
    ("metadata_version", some (toString m.metadataVersion)),
    ("created_at", some (quote m.createdAt)), ("updated_at", some (quote m.updatedAt)),
    ("devices", some (array [])),
    ("records", some (object (m.records.entries.map fun e => (e.1, some (versionInfo e.2)))))]

/-- A field without a value is written as `null`. -/
def nullable (value : Option String) : Option String :=
  some ((value.map quote).getD "null")

def payload : EncryptedPayload → String
  | .Login name username password url notes =>
      object [("Login", some (object [("name", some (quote name)),
        ("username", some (quote username)), ("password", some (quote password)),
        ("url", nullable url), ("notes", nullable notes)]))]
  | .Api name appId secretKey url notes =>
      object [("Api", some (object [("name", some (quote name)), ("app_id", some (quote appId)),
        ("secret_key", some (quote secretKey)), ("url", nullable url),
        ("notes", nullable notes)]))]
  | .Ssh name publicKey privateKey passphrase notes =>
      object [("Ssh", some (object [("name", some (quote name)),
        ("public_key", some (quote publicKey)), ("private_key", nullable privateKey),
        ("passphrase", nullable passphrase), ("notes", nullable notes)]))]
  | .SecureNote name notes =>
      object [("SecureNote", some (object [("name", some (quote name)),
        ("notes", nullable notes)]))]

/-- The document whose text was printed. -/
def read {α β : Type} [BEq β] (print : α → β) (documents : List α) (text : β) :
    Except String α :=
  match documents.find? fun d => print d == text with
  | some d => .ok d
  | none => .error "expected value at line 1 column 1"

/-- Documents with different texts are told apart. -/
theorem read_of_nodup {α β : Type} [BEq β] [LawfulBEq β] {print : α → β} {documents : List α}
    {d : α} (hnodup : (documents.map print).Nodup) (hd : d ∈ documents) :
    read print documents (print d) = .ok d := by
  have hfind : documents.find? (fun e => print e == print d) = some d := by
    induction documents with
    | nil => cases hd
    | cons e documents ih =>
        rw [List.map_cons, List.nodup_cons] at hnodup
        rcases List.mem_cons.mp hd with heq | hrest
        · rw [heq, List.find?_cons_of_pos (by exact beq_self_eq_true _)]
        · have hne : print e ≠ print d := by
            intro heq
            rw [heq] at hnodup
            exact hnodup.1 (List.mem_map_of_mem hrest)
          rw [List.find?_cons_of_neg (by rwa [beq_iff_eq])]
          exact ih hnodup.2 hrest
  unfold read
  rw [hfind]

end Json

/-- JSON of the given documents. -/
@[reducible] def referenceSerde (privates : List CloudPrivateMetadata) (payloads : List ConflictPayload)
    (metadatas : List CloudMetadata) : Serde where
  encryptedMetadataToJson m := .ok (Json.bytes (Json.encryptedMetadata m))
  privateMetadataToJson m := .ok (Json.bytes (Json.privateMetadata m))
  privateMetadataFromJson := Json.read (fun m => Json.bytes (Json.privateMetadata m)) privates
  conflictPayloadToJson p := .ok (Json.bytes (Json.conflictPayload p))
  conflictPayloadFromJson := Json.read (fun p => Json.bytes (Json.conflictPayload p)) payloads
  metadataToJson m := .ok (Json.metadata m)
  metadataFromJson := Json.read Json.metadata metadatas
  aadToJson a := .ok (Json.aad a)

/-- The ciphers, and JSON of the given payloads. -/
@[reducible] def referenceCrypto (payloads : List EncryptedPayload) : Crypto where
  hkdf := Hkdf.derive
  aeadEncrypt := Aead.encrypt
  aeadDecrypt := Aead.decrypt
  payloadToJson p :=
    if p ∈ payloads then .ok (Json.bytes (Json.payload p)) else .error "not a sample payload"
  payloadFromJson := Json.read (fun p => Json.bytes (Json.payload p)) payloads
  textFields json :=
    (Json.read (fun p => Json.bytes (Json.payload p)) payloads json).map
      EncryptedPayload.textField

/-- Payloads with different texts are told apart. -/
theorem referenceCrypto_lawful {payloads : List EncryptedPayload}
    (h : ∀ p ∈ payloads,
      Json.read (fun p => Json.bytes (Json.payload p)) payloads (Json.bytes (Json.payload p)) =
        .ok p) : @LawfulCrypto (referenceCrypto payloads) :=
  letI : Crypto := referenceCrypto payloads
  { decrypt_encrypt := Aead.decrypt_encrypt
    fromJson_toJson := by
      intro p json hjson
      have hprinted : (if p ∈ payloads then Except.ok (Json.bytes (Json.payload p))
          else .error "not a sample payload") = (.ok json : Except String Bytes) := hjson
      by_cases hmem : p ∈ payloads
      · rw [if_pos hmem] at hprinted
        cases hprinted
        exact h p hmem
      · rw [if_neg hmem] at hprinted
        cases hprinted
    textFields_of_fromJson := by
      intro p json hjson
      refine ⟨p.textField, ?_, fun _ _ hfield => hfield⟩
      have hread : Json.read (fun p => Json.bytes (Json.payload p)) payloads json = .ok p := hjson
      exact congrArg (Except.map EncryptedPayload.textField) hread }

end OakKeyring
