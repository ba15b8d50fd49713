import OakKeyring.Errors
import OakKeyring.Types.Record
import OakKeyring.Lib.Pool
import Mathlib.Order.Basic

/-!
# The sync lock

A file in the cloud names the device that holds the lock and the instant at which its hold
expires. Taking, renewing and giving back the lock are programs over that file and the clock of
the device; no two devices need to have the same time.
-/

namespace OakKeyring

open Effect

/-- `chrono::Duration`, in nanoseconds. -/
abbrev Duration := Int

namespace Duration

def seconds (n : Int) : Duration := n * 1000000000

def numSeconds (d : Duration) : Int := d.tdiv 1000000000

def numMilliseconds (d : Duration) : Int := d.tdiv 1000000

/-- The `Debug` text. -/
def debug (d : Duration) : String :=
  "TimeDelta \x7b secs: " ++ toString (d / 1000000000) ++ ", nanos: " ++
    toString (d % 1000000000) ++ " \x7d"

end Duration

/-- Nanoseconds since the epoch. -/
def DateTime.toNanos (t : DateTime) : Int :=
  t.seconds * 1000000000 + t.nanos

def DateTime.ofNanos (n : Int) : DateTime where
  seconds := n / 1000000000
  nanos := (n % 1000000000).toNat

@[simp] theorem DateTime.toNanos_ofNanos (n : Int) : (DateTime.ofNanos n).toNanos = n := by
  have hpos : 0 ≤ n % 1000000000 := Int.emod_nonneg n (by decide)
  have hcast : ((n % 1000000000).toNat : Int) = n % 1000000000 := Int.toNat_of_nonneg hpos
  rw [DateTime.toNanos, DateTime.ofNanos, hcast]
  exact Int.mul_comm .. ▸ Int.mul_ediv_add_emod n 1000000000

def DateTime.plus (t : DateTime) (d : Duration) : DateTime :=
  DateTime.ofNanos (t.toNanos + d)

@[simp] theorem DateTime.toNanos_plus (t : DateTime) (d : Duration) :
    (t.plus d).toNanos = t.toNanos + d :=
  DateTime.toNanos_ofNanos _

/-! ## The lock file -/

structure LockFileData where
  deviceId : String
  acquiredAt : String
  expiresAt : String
deriving DecidableEq, Repr

/-- The operations on the lock file, and the clock of a device. -/
inductive LockOp
  | downloadLock
  | uploadLock (data : LockFileData)
  | deleteLock
  | now (deviceId : String)
  | sleep (milliseconds : Nat)
deriving DecidableEq

/-- A file that is not lock data is reported as an error of the read. -/
def LockOp.Answer : LockOp → Type
  | downloadLock => Except SyncError (Option LockFileData)
  | uploadLock _ => Except SyncError Unit
  | deleteLock => Except SyncError Unit
  | now _ => DateTime
  | sleep _ => Unit

def LockI : Interface where
  Call := LockOp
  Answer := LockOp.Answer

abbrev LockProg := Prog LockI

def LockOp.answered (op : LockOp) (answer : op.Answer) : Event LockI :=
  ⟨op, answer⟩

/-- The lock file, and the clock of each device. -/
structure LockStore where
  file : Option LockFileData
  clock : String → Int

/-- One operation; no clock goes back. -/
inductive LockStoreStep : LockStore → (op : LockOp) → op.Answer → LockStore → Prop
  | download (s : LockStore) (clock : String → Int) (h : s.clock ≤ clock) :
      LockStoreStep s .downloadLock (.ok s.file) { s with clock := clock }
  | downloadFault (s : LockStore) (e : SyncError) (clock : String → Int) (h : s.clock ≤ clock) :
      LockStoreStep s .downloadLock (.error e) { s with clock := clock }
  | upload (s : LockStore) (data : LockFileData) (clock : String → Int) (h : s.clock ≤ clock) :
      LockStoreStep s (.uploadLock data) (.ok ()) { file := some data, clock := clock }
  | uploadFault (s : LockStore) (data : LockFileData) (e : SyncError) (clock : String → Int)
      (h : s.clock ≤ clock) :
      LockStoreStep s (.uploadLock data) (.error e) { s with clock := clock }
  | delete (s : LockStore) (clock : String → Int) (h : s.clock ≤ clock) :
      LockStoreStep s .deleteLock (.ok ()) { file := none, clock := clock }
  | deleteFault (s : LockStore) (e : SyncError) (clock : String → Int) (h : s.clock ≤ clock) :
      LockStoreStep s .deleteLock (.error e) { s with clock := clock }
  | now (s : LockStore) (deviceId : String) (t : DateTime) (clock : String → Int)
      (h : s.clock ≤ clock) (hread : clock deviceId = t.toNanos) :
      LockStoreStep s (.now deviceId) t { s with clock := clock }
  | sleep (s : LockStore) (milliseconds : Nat) (clock : String → Int) (h : s.clock ≤ clock) :
      LockStoreStep s (.sleep milliseconds) () { s with clock := clock }

def lockEnv : Env LockI LockStore := LockStoreStep

/-! ## The lock of a device -/

def LOCK_TTL_SECONDS : Int := 300

def LOCK_ACQUIRE_TIMEOUT_SECONDS : Int := 30

def LOCK_ACQUIRE_RETRY_INTERVAL_SECONDS : Int := 5

structure SyncLock where
  deviceId : String
  lockTtl : Duration
  acquireTimeout : Duration
  retryInterval : Duration
deriving DecidableEq, Repr

namespace SyncLock

def new (deviceId : String) : SyncLock where
  deviceId := deviceId
  lockTtl := Duration.seconds LOCK_TTL_SECONDS
  acquireTimeout := Duration.seconds LOCK_ACQUIRE_TIMEOUT_SECONDS
  retryInterval := Duration.seconds LOCK_ACQUIRE_RETRY_INTERVAL_SECONDS

def perform (op : LockOp) : LockProg op.Answer :=
  Prog.perform (I := LockI) op

variable [Codec]

/-- `create_lock_data` once the clock is read. -/
def lockDataAt (lock : SyncLock) (now : DateTime) : LockFileData where
  deviceId := lock.deviceId
  acquiredAt := toRfc3339 now
  expiresAt := toRfc3339 (now.plus lock.lockTtl)

def createLockData (lock : SyncLock) : LockProg LockFileData := do
  let now ← perform (.now lock.deviceId)
  return lock.lockDataAt now

/-- Whether lock data is expired at a time; an expiry that cannot be read counts as past. -/
def expiredAt (data : LockFileData) (now : Int) : Bool :=
  match parseRfc3339 data.expiresAt with
  | .ok expires => decide (expires.toNanos ≤ now)
  | .error _ => true

def isExpired (lock : SyncLock) (data : LockFileData) : LockProg Bool := do
  match parseRfc3339 data.expiresAt with
  | .ok expires =>
      let now ← perform (.now lock.deviceId)
      return decide (expires.toNanos ≤ now.toNanos)
  | .error _ => return true

/-- New lock data replaces the file. -/
def takeLock (lock : SyncLock) : LockProg (Except SyncError Unit) := do
  let data ← lock.createLockData
  perform (.uploadLock data)

def tryAcquire (lock : SyncLock) : LockProg (Except SyncError Unit) := do
  match ← perform .downloadLock with
  | .error e => return .error e
  | .ok none => lock.takeLock
  | .ok (some data) =>
      if ← lock.isExpired data then lock.takeLock
      else if data.deviceId = lock.deviceId then lock.takeLock
      else
        return .error (.LockAcquireFailed
          s!"lock held by device '{data.deviceId}' until {data.expiresAt}")

/-- The pause between two attempts. -/
def sleepDuration (lock : SyncLock) (elapsed : Duration) : Duration :=
  let remaining := lock.acquireTimeout - elapsed
  if remaining < lock.retryInterval then remaining else lock.retryInterval

/-- The loop of `acquire` for a number of rounds; no result means that it goes on. -/
def acquireLoop (lock : SyncLock) (start : DateTime) :
    Nat → LockProg (Option (Except SyncError Unit))
  | 0 => return none
  | rounds + 1 => do
      let now ← perform (.now lock.deviceId)
      let elapsed : Duration := now.toNanos - start.toNanos
      if lock.acquireTimeout.numSeconds ≤ elapsed.numSeconds then
        return some (.error (.LockAcquireFailed
          s!"timeout after {lock.acquireTimeout.debug} waiting for lock"))
      else
        match ← lock.tryAcquire with
        | .ok () => return some (.ok ())
        | .error (.LockAcquireFailed _) =>
            let pause := (lock.sleepDuration elapsed).numMilliseconds
            if 0 < pause then
              let _ ← perform (.sleep pause.toNat)
              lock.acquireLoop start rounds
            else lock.acquireLoop start rounds
        | .error e => return some (.error e)

def acquire (lock : SyncLock) (rounds : Nat) : LockProg (Option (Except SyncError Unit)) := do
  let start ← perform (.now lock.deviceId)
  lock.acquireLoop start rounds

def release (lock : SyncLock) : LockProg (Except SyncError Unit) := do
  match ← perform .downloadLock with
  | .error e => return .error e
  | .ok none => return .ok ()
  | .ok (some data) =>
      if data.deviceId = lock.deviceId then perform .deleteLock
      else return .ok ()

end SyncLock

/-! ## Devices that share the lock file -/

inductive LockRequest
  | tryAcquire
  | acquire (rounds : Nat)
  | release

inductive LockReply
  | acquired (r : Except SyncError Unit)
  | waiting
  | released (r : Except SyncError Unit)

variable [Codec]

/-- The program of a call. -/
def SyncLock.turn (lock : SyncLock) : LockRequest → LockProg (SyncLock × LockReply)
  | .tryAcquire => do
      let r ← lock.tryAcquire
      return (lock, .acquired r)
  | .acquire rounds => do
      match ← lock.acquire rounds with
      | some r => return (lock, .acquired r)
      | none => return (lock, .waiting)
  | .release => do
      let r ← lock.release
      return (lock, .released r)

/-- What the last read of a turn found in the lock file. -/
def noteLockRead (note : Option (Option LockFileData)) :
    Event LockI → Option (Option LockFileData)
  | ⟨.downloadLock, .ok file⟩ => some file
  | ⟨.downloadLock, .error _⟩ => none
  | _ => note

def lockDevices : Machine LockI where
  State := SyncLock
  Input := LockRequest
  Out := LockReply
  Note := Option (Option LockFileData)
  enabled _ _ := True
  turn := SyncLock.turn
  start := none
  note := noteLockRead

end OakKeyring
