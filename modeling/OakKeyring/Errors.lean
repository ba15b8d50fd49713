import Mathlib.Data.List.Basic

/-! # Errors, their messages, codes and contexts -/

namespace OakKeyring

inductive SyncError
  | NetworkTimeout (message : String)
  | NetworkUnreachable (message : String)
  | ConnectionRefused (endpoint : String)
  | AuthenticationFailed (reason : String)
  | TokenExpired
  | ChecksumMismatch (expected actual recordId : String)
  | AadInconsistent (field expected actual : String)
  | SerializationFailed (message : String)
  | DeserializationFailed (message : String)
  | InvalidStateTransition (source target : String)
  | LockAcquireFailed (reason : String)
  | LockReleaseFailed (reason : String)
  | ProviderNotSupported (provider : String)
  | ProviderError (provider message : String)
  | ConfigValidationFailed (field reason : String)
  | VaultIdentityMismatch (localToken remoteToken : String)
  | MetadataVersionConflict (localVersion remoteVersion : Nat)
  | RecordNotFound (recordId : String)
  | PermissionDenied (path : String)
  | QuotaExceeded (provider : String)
  | Cancelled (operation : String)
deriving DecidableEq, Repr

/-- The `Display` text of an error. -/
def SyncError.toText : SyncError → String
  | NetworkTimeout message => s!"Network timeout: {message}"
  | NetworkUnreachable message => s!"Network unreachable: {message}"
  | ConnectionRefused endpoint => s!"Connection refused: {endpoint}"
  | AuthenticationFailed reason => s!"Authentication failed: {reason}"
  | TokenExpired => "OAuth token expired"
  | ChecksumMismatch expected actual recordId =>
      s!"Checksum mismatch: expected {expected}, actual {actual} for record {recordId}"
  | AadInconsistent field expected actual =>
      s!"AAD inconsistent for field '{field}': expected {expected}, actual {actual}"
  | SerializationFailed message => s!"Serialization failed: {message}"
  | DeserializationFailed message => s!"Deserialization failed: {message}"
  | InvalidStateTransition source target =>
      s!"Invalid state transition: {source} -> {target}"
  | LockAcquireFailed reason => s!"Lock acquire failed: {reason}"
  | LockReleaseFailed reason => s!"Lock release failed: {reason}"
  | ProviderNotSupported provider => s!"Provider not supported: {provider}"
  | ProviderError provider message => s!"Provider error [{provider}]: {message}"
  | ConfigValidationFailed field reason =>
      s!"Config validation failed for '{field}': {reason}"
  | VaultIdentityMismatch localToken remoteToken =>
      s!"Vault identity mismatch: local={localToken}, remote={remoteToken}"
  | MetadataVersionConflict localVersion remoteVersion =>
      s!"Metadata version conflict: local={localVersion}, remote={remoteVersion}"
  | RecordNotFound recordId => s!"Record not found: {recordId}"
  | PermissionDenied path => s!"Permission denied: {path}"
  | QuotaExceeded provider => s!"Quota exceeded: {provider}"
  | Cancelled operation => s!"Cancelled: {operation}"

inductive RotationError
  | Offline
  | SyncBusy
  | ConflictDetected (cloudVersion localVersion : Nat)
  | RecordMigrationFailed (recordId reason : String)
  | PushFailed (message : String)
  | CheckpointCorrupted (message : String)
  | MaxVersionExceeded (current max : Nat)
  | VaultNotUnlocked
  | Internal (message : String)
deriving DecidableEq, Repr

def RotationError.toText : RotationError → String
  | Offline => "offline: cannot rotate without network"
  | SyncBusy => "sync busy: could not pause sync within 30s"
  | ConflictDetected cloudVersion localVersion =>
      s!"conflict detected: cloud version is {cloudVersion}, local version is {localVersion}"
  | RecordMigrationFailed recordId reason =>
      s!"record migration failed for {recordId}: {reason}"
  | PushFailed message => s!"push failed: {message}"
  | CheckpointCorrupted message => s!"checkpoint corrupted: {message}"
  | MaxVersionExceeded current max =>
      s!"max DEK version exceeded: current={current}, max={max}"
  | VaultNotUnlocked => "vault not unlocked"
  | Internal message => s!"internal error: {message}"

/-! ## Codes and contexts -/

inductive ErrorCode
  | VaultRecordNotFound
  | VaultNotUnlocked
  | SyncConnectionTimeout
  | SyncNetworkUnreachable
  | SyncAuthenticationFailed
  | SyncMetadataCorrupted
  | SyncProviderError
  | SyncVaultIdentityMismatch
  | SyncConflictDetected
  | SyncDiskFull
  | DekRotationFailed
  | RotationConflictDetected
  | ExecutorVaultLocked
  | CryptoEncryptionFailed
deriving DecidableEq, Repr

structure ErrorContext where
  recordName : Option String := none
  fieldName : Option String := none
  providerName : Option String := none
  filePath : Option String := none
  expectedVersion : Option Nat := none
  actualVersion : Option Nat := none
deriving DecidableEq, Repr

def SyncError.toErrorCode : SyncError → ErrorCode
  | NetworkTimeout _ | ConnectionRefused _ => .SyncConnectionTimeout
  | NetworkUnreachable _ => .SyncNetworkUnreachable
  | AuthenticationFailed _ | TokenExpired => .SyncAuthenticationFailed
  | ChecksumMismatch .. | AadInconsistent .. | SerializationFailed _ | DeserializationFailed _ =>
      .SyncMetadataCorrupted
  | InvalidStateTransition .. | LockAcquireFailed _ | LockReleaseFailed _
  | ProviderNotSupported _ | ProviderError .. | ConfigValidationFailed .. | Cancelled _
  | PermissionDenied _ => .SyncProviderError
  | VaultIdentityMismatch .. => .SyncVaultIdentityMismatch
  | MetadataVersionConflict .. => .SyncConflictDetected
  | RecordNotFound _ => .VaultRecordNotFound
  | QuotaExceeded _ => .SyncDiskFull

def SyncError.toErrorContext : SyncError → ErrorContext
  | ProviderNotSupported provider => { providerName := some provider }
  | ProviderError provider _ => { providerName := some provider }
  | QuotaExceeded provider => { providerName := some provider }
  | AadInconsistent field _ _ => { fieldName := some field }
  | ConfigValidationFailed field _ => { fieldName := some field }
  | MetadataVersionConflict localVersion remoteVersion =>
      { expectedVersion := some localVersion
        actualVersion := some remoteVersion }
  | ChecksumMismatch _ _ recordId => { recordName := some recordId }
  | RecordNotFound recordId => { recordName := some recordId }
  | PermissionDenied path => { filePath := some path }
  | _ => {}

def RotationError.toErrorCode : RotationError → ErrorCode
  | ConflictDetected .. => .RotationConflictDetected
  | VaultNotUnlocked => .ExecutorVaultLocked
  | _ => .DekRotationFailed

def RotationError.toErrorContext : RotationError → ErrorContext
  | ConflictDetected cloudVersion localVersion =>
      { expectedVersion := some cloudVersion
        actualVersion := some localVersion }
  | _ => {}

end OakKeyring
