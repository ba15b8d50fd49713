import OakKeyring.Agent.Wire
import OakKeyring.Lib.Checked
import OakKeyring.Lib.Chunked

/-!
# Connections to the SSH agent

A client sends frames over a socket and the agent answers each before it reads the next. A
connection ends when the client closes it, when a frame cannot be read or when an answer cannot be
written.
-/

namespace OakKeyring

open Effect

namespace AgentServer

inductive IoError
  | UnexpectedEof
  | InvalidData (message : String)
  | Other (message : String)
deriving DecidableEq, Repr

/-- How the client's side of the socket ends. -/
inductive Ending
  | closed
  | failed (message : String)
deriving DecidableEq, Repr

def Ending.error : Ending → IoError
  | closed => .UnexpectedEof
  | failed message => .Other message

/-- What is still to be read from a socket. -/
structure Incoming where
  chunks : List (Chunked.Chunk UInt8)
  ending : Ending

def Incoming.bytes (incoming : Incoming) : Bytes :=
  Chunked.stream incoming.chunks

def Incoming.readExact (n : Nat) (incoming : Incoming) : Except IoError Bytes × Incoming :=
  match Chunked.readExact n incoming.chunks with
  | (some bytes, rest) => (.ok bytes, { incoming with chunks := rest })
  | (none, rest) => (.error incoming.ending.error, { incoming with chunks := rest })

def MAX_FRAME_LEN : Nat := 256 * 1024

/-- A frame, or `none` for the end of the stream. An end inside the length counts as one before
it. -/
def readFrame (incoming : Incoming) : Except IoError (Option Bytes) × Incoming :=
  match incoming.readExact 4 with
  | (.error .UnexpectedEof, incoming) => (.ok none, incoming)
  | (.error e, incoming) => (.error e, incoming)
  | (.ok lenBuf, incoming) =>
      let len := Endian.ofBig lenBuf
      if MAX_FRAME_LEN < len then
        (.error (.InvalidData s!"agent frame length {len} exceeds cap {MAX_FRAME_LEN}"), incoming)
      else if len = 0 then (.ok (some []), incoming)
      else
        match incoming.readExact len with
        | (.ok payload, incoming) => (.ok (some payload), incoming)
        | (.error e, incoming) => (.error e, incoming)

/-- What happens on a connection after it was accepted. -/
inductive SocketEvent
  | request (payload : Bytes)
  | reply (frame : Bytes)
deriving DecidableEq, Repr

inductive ConnectionEnd
  | closed
  | failed (e : IoError)
  | running
deriving DecidableEq, Repr

/-- The frames that the client takes: the error of each reply that cannot be written. -/
abbrev Writes :=
  Nat → Option IoError

variable [SshKeys] [Crypto]

/-- The inner loop of `accept_loop`, for so many turns at most. -/
def serveFrames (server : AgentServer) :
    Nat → Writes → Incoming → Prog VaultI (List SocketEvent × ConnectionEnd)
  | 0, _, _ => return ([], .running)
  | fuel + 1, writes, incoming =>
      match readFrame incoming with
      | (.ok none, _) => return ([], .closed)
      | (.error e, _) => return ([], .failed e)
      | (.ok (some request), incoming) => do
          let response ← server.dispatch request
          match writes 0 with
          | some e => return ([.request request], .failed e)
          | none =>
              let (events, ending) ← serveFrames server fuel (fun n => writes (n + 1)) incoming
              return (.request request :: .reply (writeString response) :: events, ending)

/-- Every turn takes four bytes at least. -/
def serveConnection (server : AgentServer) (writes : Writes) (incoming : Incoming) :
    Prog VaultI (List SocketEvent × ConnectionEnd) :=
  serveFrames server (incoming.bytes.length + 1) writes incoming

/-- One client after the other; whatever ends a connection, the next one is accepted. -/
def acceptLoop (server : AgentServer) :
    List (Writes × Incoming) → Prog VaultI (List (List SocketEvent × ConnectionEnd))
  | [] => return []
  | (writes, incoming) :: connections => do
      let served ← server.serveConnection writes incoming
      let rest ← acceptLoop server connections
      return served :: rest

end AgentServer

/-! ## The parsers with the checks of the language -/

namespace Slices

open AgentServer

variable {ε : Type}

def u32FromBeBytes (input : Bytes) : Checked ε Nat := do
  let a ← Checked.index input 0
  let b ← Checked.index input 1
  let c ← Checked.index input 2
  let d ← Checked.index input 3
  return u32OfBytes a b c d

def readString (input : Bytes) : Checked ε (Option (Bytes × Bytes)) := do
  if input.length < 4 then
    return none
  let len ← u32FromBeBytes input
  let stop ← Checked.add 4 len
  if input.length < stop then
    return none
  let value ← Checked.slice input 4 stop
  let rest ← Checked.slice input stop input.length
  return some (value, rest)

def decodeSignRequest (body : Bytes) : Checked ε (Option SignRequest) := do
  match ← readString body with
  | none => return none
  | some (keyBlob, rest) =>
      match ← readString rest with
      | none => return none
      | some (data, rest) => do
          if rest.length < 4 then
            return none
          let flags ← u32FromBeBytes rest
          return some {
            keyBlob := keyBlob
            data := data
            flags :=
              { rsaSha2256 := flags &&& SSH_AGENT_RSA_SHA2_256 ≠ 0
                rsaSha2512 := flags &&& SSH_AGENT_RSA_SHA2_512 ≠ 0 } }

end Slices

end OakKeyring
