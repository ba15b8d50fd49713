import OakKeyring.Agent.Connection
import OakKeyring.Agent.Framing
import OakKeyring.Agent.Rfc5656
import OakKeyring.Agent.Served
import OakKeyring.Agent.Server
import OakKeyring.Agent.Signer
import OakKeyring.Agent.Signing
import OakKeyring.Agent.Wire
import OakKeyring.Cloud.MetadataSwap
import OakKeyring.Cloud.OAuthRequest
import OakKeyring.Cloud.Record
import OakKeyring.Cloud.Storage
import OakKeyring.Crypto.Keystore
import OakKeyring.Crypto.Manager
import OakKeyring.Crypto.Password
import OakKeyring.Crypto.PasswordChange
import OakKeyring.Crypto.PasswordClasses
import OakKeyring.Crypto.PasswordRequests
import OakKeyring.Crypto.Strength
import OakKeyring.Db.Audit
import OakKeyring.Db.Contents
import OakKeyring.Db.Frames
import OakKeyring.Db.Inserted
import OakKeyring.Db.Pages
import OakKeyring.Db.Queries
import OakKeyring.Db.Slices
import OakKeyring.Db.Tables
import OakKeyring.Executor.EditKeeps
import OakKeyring.Executor.EditRecord
import OakKeyring.Executor.Export
import OakKeyring.Executor.ExportScope
import OakKeyring.Executor.Health
import OakKeyring.Executor.HealthReload
import OakKeyring.Executor.Import
import OakKeyring.Executor.ImportConservation
import OakKeyring.Executor.ImportKeeps
import OakKeyring.Executor.ImportRuns
import OakKeyring.Executor.ImportTwice
import OakKeyring.Executor.LimitedRuns
import OakKeyring.Executor.PendingUploads
import OakKeyring.Executor.Rotation
import OakKeyring.Executor.RotationMutex
import OakKeyring.Executor.StoredRuns
import OakKeyring.Executor.SyncData
import OakKeyring.ImportExport.Calls
import OakKeyring.ImportExport.Carried
import OakKeyring.ImportExport.CsvParser
import OakKeyring.ImportExport.CsvRoundTrip
import OakKeyring.ImportExport.Export
import OakKeyring.ImportExport.Import
import OakKeyring.ImportExport.Okb
import OakKeyring.ImportExport.Opdata
import OakKeyring.ImportExport.OpdataSpec
import OakKeyring.ImportExport.Parsers
import OakKeyring.ImportExport.SessionRuns
import OakKeyring.ImportExport.Sessions
import OakKeyring.ImportExport.Validation
import OakKeyring.ImportExport.Values
import OakKeyring.Lib.Answers
import OakKeyring.Lib.Chaining
import OakKeyring.Lib.Checked
import OakKeyring.Lib.Checks
import OakKeyring.Lib.Chunked
import OakKeyring.Lib.Crash
import OakKeyring.Lib.Der
import OakKeyring.Lib.Embed
import OakKeyring.Lib.Endian
import OakKeyring.Lib.Fallible
import OakKeyring.Lib.FormData
import OakKeyring.Lib.Gregorian
import OakKeyring.Lib.Logged
import OakKeyring.Lib.Paging
import OakKeyring.Lib.Play
import OakKeyring.Lib.Pointwise
import OakKeyring.Lib.Pool
import OakKeyring.Lib.Prog
import OakKeyring.Lib.Quota
import OakKeyring.Lib.Recent
import OakKeyring.Lib.Replacing
import OakKeyring.Lib.Separated
import OakKeyring.Lib.Spaced
import OakKeyring.Lib.Stateful
import OakKeyring.Lib.TextCursor
import OakKeyring.Lib.Transition
import OakKeyring.Lib.Wp
import OakKeyring.Samples.Aead
import OakKeyring.Samples.Crates
import OakKeyring.Samples.Form
import OakKeyring.Samples.Import
import OakKeyring.Samples.Keystore
import OakKeyring.Samples.Rotation
import OakKeyring.Samples.Ssh
import OakKeyring.Samples.Store
import OakKeyring.Samples.Transfer
import OakKeyring.Samples.Vault
import OakKeyring.Security.Redaction
import OakKeyring.Services.Clipboard
import OakKeyring.Services.ClipboardTimers
import OakKeyring.Services.Migration
import OakKeyring.Services.Replies
import OakKeyring.Services.Resume
import OakKeyring.Services.Rotation
import OakKeyring.Services.RotationOutcome
import OakKeyring.Services.RotationRecovery
import OakKeyring.Sync.Answered
import OakKeyring.Sync.Conflict
import OakKeyring.Sync.ConflictPayload
import OakKeyring.Sync.ConflictQueue
import OakKeyring.Sync.Consistent
import OakKeyring.Sync.IdentityGate
import OakKeyring.Sync.KeepLocal
import OakKeyring.Sync.LockExclusion
import OakKeyring.Sync.Partition
import OakKeyring.Sync.Paused
import OakKeyring.Sync.Pipeline
import OakKeyring.Sync.PipelineSpec
import OakKeyring.Sync.PullOnly
import OakKeyring.Sync.PushRepair
import OakKeyring.Sync.PushedMetadata
import OakKeyring.Sync.RetryBudget
import OakKeyring.Sync.Settled
import OakKeyring.Sync.Snapshot
import OakKeyring.Sync.StateMachine
import OakKeyring.Sync.Task
import OakKeyring.Sync.TaskSpec
import OakKeyring.Tui.CreateRecord
import OakKeyring.Tui.DateEntry
import OakKeyring.Tui.DateKeys
import OakKeyring.Tui.DateScreens
import OakKeyring.Tui.EditFrame
import OakKeyring.Tui.EditRecord
import OakKeyring.Tui.FormState
import OakKeyring.Tui.FormValidation
import OakKeyring.Tui.Generator
import OakKeyring.Tui.OutputPath
import OakKeyring.Tui.RecordList
import OakKeyring.Tui.RecordListRuns
import OakKeyring.Tui.TagRename
import OakKeyring.Tui.TextSlices
import OakKeyring.Tui.Unlock
import OakKeyring.Tui.UnlockRate
import OakKeyring.Types.Contains
import OakKeyring.Types.Credential
import OakKeyring.Types.JsonValue
import OakKeyring.Types.Listing
import OakKeyring.Types.Rotation
import OakKeyring.Types.Transfer
import OakKeyring.Types.Uuid
import OakKeyring.Vault.AuditLog
import OakKeyring.Vault.AuditPages
import OakKeyring.Vault.Batch
import OakKeyring.Vault.BatchEqual
import OakKeyring.Vault.BatchRuns
import OakKeyring.Vault.BatchSpec
import OakKeyring.Vault.BatchTrash
import OakKeyring.Vault.Commands
import OakKeyring.Vault.Created
import OakKeyring.Vault.EditOutcome
import OakKeyring.Vault.Field
import OakKeyring.Vault.History
import OakKeyring.Vault.HistoryRuns
import OakKeyring.Vault.IndexRuns
import OakKeyring.Vault.IndexedWrites
import OakKeyring.Vault.LimitedWrites
import OakKeyring.Vault.Limits
import OakKeyring.Vault.List
import OakKeyring.Vault.ListIndex
import OakKeyring.Vault.PagedListing
import OakKeyring.Vault.Pages
import OakKeyring.Vault.PagesAgree
import OakKeyring.Vault.PendingMarks
import OakKeyring.Vault.PendingRuns
import OakKeyring.Vault.Readable
import OakKeyring.Vault.RecentPasswords
import OakKeyring.Vault.Record
import OakKeyring.Vault.Service
import OakKeyring.Vault.Touching
import OakKeyring.Vault.Transport
import OakKeyring.Vault.TrashRetention
