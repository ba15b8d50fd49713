import OakKeyring.Lib.Spaced
import OakKeyring.Lib.Transition
import OakKeyring.Tui.EditRecord
import OakKeyring.Types.Listing

/-!
# The unlock screen

A master password or the words of a recovery key are typed and sent to the executor, which
answers one command after the other. The screen counts the refusals and takes no input for a
while after the fifth and each later one.
-/

namespace OakKeyring

open Spacing Transition

/-- An `Instant`, in nanoseconds. -/
abbrev Instant := Nat

/-- `Duration::from_secs`. -/
def Instant.fromSecs (secs : Nat) : Instant :=
  secs * 1000000000

/-! ## The recovery words -/

inductive RecoveryWordsError
  | InvalidWordCount (expected actual : Nat)
  | EmptyWord (index : Nat)
deriving DecidableEq, Repr

def RecoveryWords.WORD_COUNT : Nat := 24

structure RecoveryWords where
  inner : List String
  length_inner : inner.length = RecoveryWords.WORD_COUNT
  nonempty : ∀ word ∈ inner, word ≠ ""
deriving DecidableEq

def RecoveryWords.new (words : List String) : Except RecoveryWordsError RecoveryWords :=
  if hlength : words.length = WORD_COUNT then
    if hnonempty : ∀ word ∈ words, word ≠ "" then
      .ok { inner := words, length_inner := hlength, nonempty := hnonempty }
    else .error (.EmptyWord (words.findIdx fun word => word == ""))
  else .error (.InvalidWordCount WORD_COUNT words.length)

/-! ## The screen -/

inductive UnlockPhase
  | Idle
  | Verifying
  | Failed
  | LockedOut (lockedUntil : Instant)
  | Success
deriving DecidableEq, Repr

inductive UnlockMode
  | Password
  | RecoveryKey
deriving DecidableEq, Repr

/-- Seconds of lockout after so many failed attempts. -/
def lockoutDuration : Nat → Nat
  | 0 | 1 | 2 | 3 | 4 => 0
  | 5 => 30
  | 6 => 60
  | 7 => 300
  | _ => 900

/-- The messages of the screen, by their keys. -/
inductive UnlockError
  /-- "tui.entry.key_recovery_empty_error" -/
  | KeyRecoveryEmpty
  /-- "tui.error.command_dispatch_failed" -/
  | CommandDispatchFailed
  /-- "tui.entry.password_error_count" -/
  | PasswordErrorCount (n : Nat)
deriving DecidableEq, Repr

inductive UnlockCommand
  | UnlockVault (masterPassword : String)
  | UnlockWithRecoveryKey (words : RecoveryWords)
deriving DecidableEq

/-- The results that a screen is given; any but the first three it ignores. -/
inductive UnlockResult
  | VaultUnlocked
  | RecoveryKeyUnlocked
  | VaultUnlockFailed
  | Other
deriving DecidableEq, Repr

inductive UnlockRoute
  | Continue
  | ExitApp
  | NavigateToMain
  | NavigateToSetNewMasterPassword
deriving DecidableEq, Repr

structure UnlockScreen where
  state : UnlockPhase
  mode : UnlockMode
  passwordInput : String
  failedAttempts : Nat
  errorMessage : Option UnlockError
deriving DecidableEq, Repr

/-- What an event makes of the screen, where it leads, and the command that is sent. -/
structure UnlockReply where
  screen : UnlockScreen
  result : UnlockRoute
  sent : Option UnlockCommand

namespace UnlockScreen

/-- `on_mount`. -/
def mounted : UnlockScreen where
  state := .Idle
  mode := .Password
  passwordInput := ""
  failedAttempts := 0
  errorMessage := none

def stay (s : UnlockScreen) : UnlockReply :=
  { screen := s, result := .Continue, sent := none }

/-- `try_send`, on a channel that takes the command or is full. -/
def trySend (s : UnlockScreen) (accepts : Bool) (command : UnlockCommand) : UnlockReply :=
  if accepts then { screen := s, result := .Continue, sent := some command }
  else
    { s with
      state := .Failed
      errorMessage := some .CommandDispatchFailed }.stay

def handleEnter (s : UnlockScreen) (accepts : Bool) : UnlockReply :=
  if s.passwordInput = "" then s.stay
  else
    let s' : UnlockScreen :=
      { s with
        state := .Verifying
        errorMessage := none
        passwordInput := "" }
    match s.mode with
    | .Password => s'.trySend accepts (.UnlockVault s.passwordInput)
    | .RecoveryKey =>
        match RecoveryWords.new (splitWhitespace s.passwordInput) with
        | .ok words => s'.trySend accepts (.UnlockWithRecoveryKey words)
        | .error _ =>
            { s' with
              state := .Failed
              errorMessage := some .KeyRecoveryEmpty }.stay

def handleChar (s : UnlockScreen) (c : Char) : UnlockScreen :=
  let s' := { s with passwordInput := s.passwordInput.push c }
  if s.state = .Failed then
    { s' with
      state := .Idle
      errorMessage := none }
  else s'

/-- A key, where the screen takes input. -/
def handleInput (s : UnlockScreen) (accepts : Bool) : KeyCode → UnlockReply
  | .Enter => s.handleEnter accepts
  | .Esc => { s.stay with result := .ExitApp }
  | .Tab =>
      { s with
        mode :=
          match s.mode with
          | .Password => .RecoveryKey
          | .RecoveryKey => .Password }.stay
  | .Backspace => { s with passwordInput := popChar s.passwordInput }.stay
  | .Char c => (s.handleChar c).stay
  | _ => s.stay

def handleKey (s : UnlockScreen) (accepts : Bool) (key : KeyCode) : UnlockReply :=
  match s.state with
  | .LockedOut _ | .Verifying | .Success =>
      if key = .Esc then { s.stay with result := .ExitApp } else s.stay
  | .Idle | .Failed => s.handleInput accepts key

def handleTick (s : UnlockScreen) (now : Instant) : UnlockScreen :=
  match s.state with
  | .LockedOut lockedUntil =>
      if lockedUntil ≤ now then
        { s with
          state := .Idle
          errorMessage := none }
      else s
  | _ => s

/-- A refusal; the counter is a `u32`. -/
def refused (s : UnlockScreen) (now : Instant) : UnlockScreen :=
  let failedAttempts := (s.failedAttempts + 1) % 2 ^ 32
  let duration := lockoutDuration failedAttempts
  if 0 < duration then
    { s with
      failedAttempts := failedAttempts
      state := .LockedOut (now + Instant.fromSecs duration)
      errorMessage := none }
  else
    { s with
      failedAttempts := failedAttempts
      state := .Failed
      errorMessage := some (.PasswordErrorCount failedAttempts) }

def handleCommandResult (s : UnlockScreen) (now : Instant) : UnlockResult → UnlockReply
  | .VaultUnlocked => { { s with state := .Success }.stay with result := .NavigateToMain }
  | .RecoveryKeyUnlocked =>
      { { s with state := .Success }.stay with result := .NavigateToSetNewMasterPassword }
  | .VaultUnlockFailed => (s.refused now).stay
  | .Other => s.stay

end UnlockScreen

/-! ## The screen and the executor -/

inductive UnlockEvent
  | key (code : KeyCode) (accepts : Bool)
  | tick
  /-- the executor has dealt with the first command that waits for it -/
  | answered (result : UnlockResult)
  /-- a result of something else -/
  | unrelated
deriving DecidableEq, Repr

structure UnlockLabel where
  event : UnlockEvent
  time : Instant
deriving DecidableEq, Repr

structure UnlockWorld where
  screen : UnlockScreen
  /-- the commands that the executor has not answered -/
  outstanding : List UnlockCommand
  now : Instant
  left : Bool

namespace UnlockWorld

/-- The screen has just been mounted, and no command of an earlier visit is on its way. -/
def opened (now : Instant) : UnlockWorld where
  screen := UnlockScreen.mounted
  outstanding := []
  now := now
  left := false

/-- What an event makes of the screen. -/
def react (w : UnlockWorld) (l : UnlockLabel) : UnlockReply :=
  match l.event with
  | .key code accepts => w.screen.handleKey accepts code
  | .tick => (w.screen.handleTick l.time).stay
  | .answered result => w.screen.handleCommandResult l.time result
  | .unrelated => w.screen.handleCommandResult l.time .Other

def waiting (w : UnlockWorld) : UnlockEvent → List UnlockCommand
  | .answered _ => w.outstanding.tail
  | _ => w.outstanding

def after (w : UnlockWorld) (l : UnlockLabel) : UnlockWorld where
  screen := (w.react l).screen
  outstanding := w.waiting l.event ++ (w.react l).sent.toList
  now := l.time
  left := (w.react l).result ≠ .Continue

end UnlockWorld

/-- The clock never goes back, and only a command that waits is answered. -/
structure UnlockStep (w : UnlockWorld) (l : UnlockLabel) (w' : UnlockWorld) : Prop where
  here : w.left = false
  clock : w.now ≤ l.time
  asked : ∀ result, l.event = .answered result → w.outstanding ≠ []
  target : w' = w.after l

/-- When a step sends an attempt. -/
def attemptOf (e : Step UnlockWorld UnlockLabel) : Option Instant :=
  (e.source.react e.label).sent.map fun _ => e.label.time

/-- When the attempts of a run were sent. -/
def attempts (es : List (Step UnlockWorld UnlockLabel)) : List Instant :=
  es.filterMap attemptOf

end OakKeyring
