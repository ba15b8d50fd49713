import OakKeyring.Cloud.Record

/-! # The metadata document -/

namespace OakKeyring

namespace CloudMetadata

def upsertRecord (m : CloudMetadata) (recordId : String) (info : RecordVersionInfo) :
    CloudMetadata :=
  { m with records := m.records.insert recordId info }

@[simp] theorem records_upsertRecord (m : CloudMetadata) (id : String)
    (info : RecordVersionInfo) :
    (m.upsertRecord id info).records = m.records.insert id info := rfl

@[simp] theorem metadataVersion_upsertRecord (m : CloudMetadata) (id : String)
    (info : RecordVersionInfo) :
    (m.upsertRecord id info).metadataVersion = m.metadataVersion := rfl

variable [Codec]

/-- A fresh document for a vault that has none in the cloud. -/
def new (vaultIdentityToken : String) (now : DateTime) : CloudMetadata where
  version := FORMAT_VERSION
  schemaVersion := SCHEMA_VERSION
  currentDekVersion := 1
  minSupportedDekVersion := 1
  vaultIdentityToken := vaultIdentityToken
  metadataVersion := 1
  createdAt := toRfc3339 now
  updatedAt := toRfc3339 now
  records := ∅

def validate (m : CloudMetadata) : Except SyncError Unit := do
  if m.version ≠ FORMAT_VERSION then
    throw (.DeserializationFailed
      s!"version mismatch: expected {FORMAT_VERSION}, got {m.version}")
  if m.schemaVersion ≠ SCHEMA_VERSION then
    throw (.DeserializationFailed
      s!"schema_version mismatch: expected {SCHEMA_VERSION}, got {m.schemaVersion}")
  if m.currentDekVersion < 1 then
    throw (.DeserializationFailed "current_dek_version must be >= 1")
  if m.minSupportedDekVersion < 1 then
    throw (.DeserializationFailed "min_supported_dek_version must be >= 1")
  if m.currentDekVersion < m.minSupportedDekVersion then
    throw (.DeserializationFailed
      s!"current_dek_version ({m.currentDekVersion}) must be >= min_supported_dek_version ({m.minSupportedDekVersion})")
  if m.metadataVersion < 1 then
    throw (.DeserializationFailed "metadata_version must be >= 1")
  if m.vaultIdentityToken = "" then
    throw (.DeserializationFailed "vault_identity_token must be non-empty")
  if (parseRfc3339 m.createdAt).isOk = false then
    throw (.DeserializationFailed s!"invalid created_at ISO 8601: {m.createdAt}")
  if (parseRfc3339 m.updatedAt).isOk = false then
    throw (.DeserializationFailed s!"invalid updated_at ISO 8601: {m.updatedAt}")

def incrementVersion (m : CloudMetadata) (now : DateTime) : CloudMetadata :=
  { m with
    metadataVersion := m.metadataVersion + 1
    updatedAt := toRfc3339 now }

@[simp] theorem records_new (token : String) (now : DateTime) :
    (new token now).records = ∅ := rfl

@[simp] theorem metadataVersion_new (token : String) (now : DateTime) :
    (new token now).metadataVersion = 1 := rfl

@[simp] theorem records_incrementVersion (m : CloudMetadata) (now : DateTime) :
    (m.incrementVersion now).records = m.records := rfl

@[simp] theorem metadataVersion_incrementVersion (m : CloudMetadata) (now : DateTime) :
    (m.incrementVersion now).metadataVersion = m.metadataVersion + 1 := rfl

end CloudMetadata

end OakKeyring
