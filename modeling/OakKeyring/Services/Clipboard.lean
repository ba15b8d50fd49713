import OakKeyring.Crypto.Manager
import OakKeyring.Lib.Stateful
import OakKeyring.Lib.Transition
import Mathlib.Data.List.AList

/-!
# The clipboard service

A copy is followed by a timer that clears the clipboard when it still holds the copied text,
which the service and the timer know by its hash. Other programs write to the clipboard whenever
they like, also between two calls of the backend, and every call of the backend may fail.
-/

namespace OakKeyring

open Effect Effect.Stateful

inductive ClipboardError
  | AccessDenied
  | ContentTooLong (maxBytes actualBytes : Nat)
  | PlatformUnavailable (reason : String)
  | LockPoisoned
  | Io (message : String)
deriving DecidableEq, Repr

def MAX_CONTENT_BYTES : Nat := 1024

/-- A task that sleeps until it compares the clipboard with a hash. -/
structure ClearTimer where
  timeout : Nat
  expectedHash : Option String
deriving DecidableEq, Repr

/-- `ClipboardServiceImpl`, the tasks it has spawned, and the clipboard. -/
structure ClipboardState where
  clearTimeout : Nat
  activeTimer : Option Nat
  lastHash : Option String
  timers : AList fun _ : Nat => ClearTimer
  spawned : Nat
  content : String
  /-- whether a copy has put the content there -/
  copied : Bool
  /-- whether the caller has asked for no timer for it -/
  waived : Bool

/-- What becomes of one call of the backend: another program may write first, and the call may
fail. -/
structure Served where
  written : Option String
  fault : Option ClipboardError
deriving DecidableEq, Repr

/-- A method of the service: what it changes stays changed when it stops with an error. -/
abbrev ClipboardM := Stateful ClipboardError ClipboardState

section Methods

variable [Codec]

def hashContent (content : String) : String :=
  sha256Hex (utf8 content)

namespace ClipboardState

/-- Another program's text. -/
def overwrite (s : ClipboardState) (text : String) : ClipboardState :=
  { s with
    content := text
    copied := false }

def interfere (s : ClipboardState) (x : Served) : ClipboardState :=
  match x.written with
  | some text => s.overwrite text
  | none => s

/-- `ClipboardBackend::get_text`. -/
def getText (s : ClipboardState) (x : Served) : Except ClipboardError String × ClipboardState :=
  match x.fault with
  | some e => (.error e, s.interfere x)
  | none => (.ok (s.interfere x).content, s.interfere x)

/-- `ClipboardBackend::set_text`. -/
def setText (s : ClipboardState) (text : String) (x : Served) :
    Except ClipboardError Unit × ClipboardState :=
  match x.fault with
  | some e => (.error e, s.interfere x)
  | none => (.ok (), (s.interfere x).overwrite text)

/-- The active timer is taken and aborted; the clipboard is left alone. -/
def cancelTimer (s : ClipboardState) : ClipboardState :=
  match s.activeTimer with
  | some handle =>
      { s with
        activeTimer := none
        timers := s.timers.erase handle }
  | none => s

/-- `start_clear_timer`: the new task keeps the hash that is tracked now. -/
def startClearTimer (s : ClipboardState) : ClipboardState :=
  { s with
    activeTimer := some s.spawned
    timers := s.timers.insert s.spawned
      { timeout := s.clearTimeout
        expectedHash := s.lastHash }
    spawned := s.spawned + 1 }

end ClipboardState

namespace ClipboardService

def getText (x : Served) : ClipboardM String :=
  command fun s => s.getText x

def setText (text : String) (x : Served) : ClipboardM Unit :=
  command fun s => s.setText text x

def copy (text : String) (write : Served) : ClipboardM Nat := do
  if MAX_CONTENT_BYTES < (utf8 text).length then
    throw (.ContentTooLong MAX_CONTENT_BYTES (utf8 text).length)
  modify ClipboardState.cancelTimer
  modify fun s => { s with lastHash := some (hashContent text) }
  setText text write
  let s ← get
  if 0 < s.clearTimeout then
    modify ClipboardState.startClearTimer
  return s.clearTimeout

def clear (write : Served) : ClipboardM Unit := do
  modify ClipboardState.cancelTimer
  setText "" write

/-- Clears the clipboard when it holds the tracked text, and tracks nothing any more. -/
def smartClear (read write : Served) : ClipboardM Bool := do
  match (← get).lastHash with
  | none => return false
  | some expectedHash =>
      let content ← getText read
      if hashContent content = expectedHash then
        setText "" write
        modify fun s => { s with lastHash := none }
        return true
      else
        modify fun s => { s with lastHash := none }
        return false

def setClearTimeout (seconds : Nat) : ClipboardM Unit := do
  modify fun s => { s with clearTimeout := seconds }
  if (← get).lastHash.isSome then
    modify ClipboardState.cancelTimer
    if 0 < seconds then
      modify ClipboardState.startClearTimer

def cancelTimer : ClipboardM Unit :=
  modify ClipboardState.cancelTimer

/-- The body of a timer's task once it has slept. -/
def clearExpired (expectedHash : Option String) (read write : Served) : ClipboardM Unit := do
  match expectedHash with
  | none => return ()
  | some hash =>
      let content ← getText read
      if hashContent content = hash then
        setText "" write

end ClipboardService

/-! ## Runs -/

inductive ClipboardOp
  | copy (text : String) (write : Served)
  | clear (write : Served)
  | smartClear (read write : Served)
  | setClearTimeout (seconds : Nat)
  | cancelTimer
  | expire (timer : Nat) (read write : Served)
  | overwrite (text : String)
deriving DecidableEq, Repr

namespace ClipboardState

/-- What an operation leaves behind; a successful copy has put its text on the clipboard. -/
def perform (s : ClipboardState) : ClipboardOp → ClipboardState
  | .copy text write =>
      match exec (ClipboardService.copy text write) s with
      | (.ok timeout, u) =>
          { u with
            copied := true
            waived := decide (timeout = 0) }
      | (.error _, u) => u
  | .clear write => (exec (ClipboardService.clear write) s).2
  | .smartClear read write => (exec (ClipboardService.smartClear read write) s).2
  | .setClearTimeout seconds =>
      { (exec (ClipboardService.setClearTimeout seconds) s).2 with
        waived := decide (seconds = 0) }
  | .cancelTimer => { (exec ClipboardService.cancelTimer s).2 with waived := true }
  | .expire timer read write =>
      match s.timers.lookup timer with
      | some task =>
          (exec (ClipboardService.clearExpired task.expectedHash read write)
            { s with timers := s.timers.erase timer }).2
      | none => s
  | .overwrite text => s.overwrite text

/-- A step of a run; a timer expires once, and only if nothing aborted it. -/
def opStep (s : ClipboardState) (op : ClipboardOp) (s' : ClipboardState) : Prop :=
  (∀ timer read write, op = .expire timer read write → timer ∈ s.timers) ∧ s' = s.perform op

/-- A new service beside a clipboard that holds something. -/
def fresh (clearTimeout : Nat) (content : String) : ClipboardState where
  clearTimeout := clearTimeout
  activeTimer := none
  lastHash := none
  timers := ∅
  spawned := 0
  content := content
  copied := false
  waived := false

end ClipboardState

end Methods

end OakKeyring
