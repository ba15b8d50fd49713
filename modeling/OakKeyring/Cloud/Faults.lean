import OakKeyring.Cloud.Storage
import OakKeyring.Lib.Checks
import OakKeyring.Security.Redaction

/-!
# The errors of cloud storage

What the storage operator reports is mapped to an error of sync by its kind. No kind is mapped to
an unreachable network, and neither is what the documents in the store can get wrong.
-/

namespace OakKeyring

open Checks

/-- The kinds of `opendal::Error` that the mapping tells apart. -/
inductive OpendalErrorKind
  | NotFound
  | PermissionDenied
  | RateLimited
  | other
deriving DecidableEq, Repr

/-- `opendal::Error`, with its `Display` text. -/
structure OpendalError where
  kind : OpendalErrorKind
  text : String
deriving DecidableEq, Repr

section

variable [Regex]

def mapOpendalError (err : OpendalError) (provider context : String) : SyncError :=
  match err.kind with
  | .NotFound => .RecordNotFound context
  | .PermissionDenied => .PermissionDenied context
  | .RateLimited => .NetworkTimeout context
  | .other => .ProviderError provider (redactSensitiveValues s!"{context}: {err.text}")

/-- The errors of a storage operation: those of the operator, and a document that cannot be
written as or read from JSON. -/
inductive CloudStorage.Reports : SyncError → Prop
  | operator (err : OpendalError) (provider context : String) :
      Reports (mapOpendalError err provider context)
  | serialization (message : String) : Reports (.SerializationFailed message)
  | deserialization (message : String) : Reports (.DeserializationFailed message)

/-- The error of an answer. -/
def StorageOp.failure : (op : StorageOp) → op.Answer → Option SyncError
  | .listRecords, .error e => some e
  | .readMetadata, .error e => some e
  | .writeMetadata _, .error e => some e
  | .readRecord _, .error e => some e
  | .writeRecord _ _, .error e => some e
  | _, _ => none

/-- If the operation failed, cloud storage reports such errors. -/
def CloudStorage.Reported (ev : Effect.Event StorageI) : Prop :=
  ∀ e, StorageOp.failure ev.call ev.answer = some e → CloudStorage.Reports e

end

/-! ## Unreachable networks -/

/-- The error that is retried for ever. -/
def SyncError.IsUnreachable : SyncError → Prop
  | .NetworkUnreachable _ => True
  | _ => False

abbrev SyncError.Reachable (e : SyncError) : Prop :=
  ¬ e.IsUnreachable

theorem CloudStorage.Reports.reachable [Regex] {e : SyncError} (h : CloudStorage.Reports e) :
    e.Reachable := by
  cases h with
  | operator err provider context =>
      unfold mapOpendalError
      cases err.kind <;> exact id
  | serialization message => exact id
  | deserialization message => exact id

section

variable [Codec]

theorem CloudMetadata.validate_reachable (m : CloudMetadata) :
    FailsIn SyncError.Reachable m.validate := by
  unfold CloudMetadata.validate
  -- one check after the other, each with an error of the document
  repeat' first
    | refine .unless_throw id ?_
    | exact .last_throw id failsIn_ok

theorem CloudStorage.metadataOfRead_reachable [Regex] {read : Except SyncError CloudMetadata}
    (h : FailsIn CloudStorage.Reports read) :
    FailsIn SyncError.Reachable (CloudStorage.metadataOfRead read) := by
  intro e he
  cases read with
  | ok m =>
      cases hvalid : m.validate with
      | ok u =>
          simp only [metadataOfRead, hvalid] at he
          cases he
      | error e' =>
          simp only [metadataOfRead, hvalid] at he
          cases he
          exact m.validate_reachable e hvalid
  | error e' =>
      have hreports : CloudStorage.Reports e' := h e' rfl
      cases e' with
      | RecordNotFound id => cases he
      | _ =>
          cases he
          exact hreports.reachable

end

end OakKeyring
