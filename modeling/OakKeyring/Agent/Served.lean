import OakKeyring.Agent.Framing
import OakKeyring.Agent.Signing

/-!
# What a client is answered

A request that is not understood is answered with a failure, without a look at the vault and
without an index out of range. The list of identities can be read back when its numbers fit.
-/

namespace OakKeyring

open Effect

/-! ## The checks of the language -/

namespace Slices

open AgentServer

variable {ε : Type}

theorem u32FromBeBytes_cons (a b c d : UInt8) (rest : Bytes) :
    (u32FromBeBytes (a :: b :: c :: d :: rest) : Checked ε Nat) = pure (u32OfBytes a b c d) := rfl

/-- Four bytes are there once the length was checked. -/
theorem cons_of_length {input : Bytes} (h : ¬ input.length < 4) :
    ∃ a b c d rest, input = a :: b :: c :: d :: rest := by
  match input with
  | a :: b :: c :: d :: rest => exact ⟨a, b, c, d, rest, rfl⟩
  | [] | [_] | [_, _] | [_, _, _] => simp at h

theorem readString_eq (input : Bytes) :
    (readString input : Checked ε _) = pure (AgentServer.readString input) := by
  by_cases hshort : input.length < 4
  · simp [readString, hshort, AgentServer.readString, readU32_eq_none hshort]
  · obtain ⟨a, b, c, d, rest, rfl⟩ := cons_of_length hshort
    have hlt := u32OfBytes_lt a b c d
    have hlength : (a :: b :: c :: d :: rest).length = rest.length + 4 := rfl
    simp only [readString, hshort, if_false, u32FromBeBytes_cons, pure_bind,
      AgentServer.readString, readU32_cons]
    generalize u32OfBytes a b c d = len at hlt
    rw [Checked.add_eq (show 4 + len < 2 ^ 64 by omega), pure_bind]
    by_cases hcut : rest.length < len
    · have hstop : (a :: b :: c :: d :: rest).length < 4 + len := by omega
      simp only [hstop, if_true, hcut]
    · have hstop : ¬ (a :: b :: c :: d :: rest).length < 4 + len := by omega
      have hvalue : ((a :: b :: c :: d :: rest).take (4 + len)).drop 4 = rest.take len := by
        rw [Nat.add_comm]
        rfl
      have hrest : ((a :: b :: c :: d :: rest).take (a :: b :: c :: d :: rest).length).drop
          (4 + len) = rest.drop len := by
        rw [List.take_length, Nat.add_comm]
        rfl
      simp only [hstop, hcut, if_false]
      rw [Checked.slice_eq _ ⟨Nat.le_add_right .., Nat.not_lt.1 hstop⟩,
        Checked.slice_eq _ ⟨Nat.not_lt.1 hstop, le_rfl⟩, hvalue, hrest]
      rfl

/-- The parser never panics, and finds what the model finds. -/
theorem decodeSignRequest_eq (body : Bytes) :
    (decodeSignRequest body : Checked ε _) = pure (AgentServer.decodeSignRequest body) := by
  rw [decodeSignRequest, readString_eq, pure_bind]
  cases hblob : AgentServer.readString body with
  | none => simp [AgentServer.decodeSignRequest, hblob]
  | some read =>
      obtain ⟨keyBlob, rest⟩ := read
      simp only [readString_eq, pure_bind]
      cases hdata : AgentServer.readString rest with
      | none => simp [AgentServer.decodeSignRequest, hblob, hdata]
      | some read =>
          obtain ⟨data, rest⟩ := read
          by_cases hshort : rest.length < 4
          · simp [AgentServer.decodeSignRequest, hblob, hdata, hshort, readU32_eq_none hshort]
          · obtain ⟨a, b, c, d, rest, rfl⟩ := cons_of_length hshort
            simp [AgentServer.decodeSignRequest, hblob, hdata, u32FromBeBytes_cons, readU32_cons]

end Slices

namespace AgentServer

/-! ## Malformed requests -/

/-- A request of no or an unknown type, or one to sign that is not three fields. -/
def Malformed (request : Bytes) : Prop :=
  match request with
  | [] => True
  | msgType :: body =>
      msgType ≠ SSH_AGENTC_REQUEST_IDENTITIES ∧
        (msgType = SSH_AGENTC_SIGN_REQUEST → decodeSignRequest body = none)

theorem dispatch_malformed [SshKeys] [Crypto] (server : AgentServer) {request : Bytes}
    (h : Malformed request) : server.dispatch request = pure failure := by
  cases request with
  | nil => rfl
  | cons msgType body =>
      obtain ⟨hidentities, hsign⟩ := h
      by_cases htype : msgType = SSH_AGENTC_SIGN_REQUEST
      · subst htype
        simp only [dispatch, hidentities, if_false, if_true, handleSign, hsign rfl]
      · simp only [dispatch, hidentities, if_false, htype]

/-! ## The list of identities -/

/-- The strings of so many identities, read with `read_string`. -/
def readPairs : Nat → Bytes → Option (List (Bytes × Bytes) × Bytes)
  | 0, input => some ([], input)
  | n + 1, input =>
      match readString input with
      | none => none
      | some (blob, rest) =>
          match readString rest with
          | none => none
          | some (name, rest) =>
              (readPairs n rest).map fun read => ((blob, name) :: read.1, read.2)

/-- An answer with a list of identities. -/
def readIdentities (answer : Bytes) : Option (List (Bytes × Bytes)) :=
  match answer with
  | [] => none
  | msgType :: body =>
      if msgType = SSH_AGENT_IDENTITIES_ANSWER then
        match readU32 body with
        | none => none
        | some (n, rest) =>
            match readPairs n rest with
            | some (pairs, []) => some pairs
            | _ => none
      else none

/-- A reply as it is written, which is one frame. -/
def readListing (reply : Bytes) : Option (List (Bytes × Bytes)) :=
  match readString reply with
  | some (answer, []) => readIdentities answer
  | _ => none

/-- What an identity is listed with. -/
def identityPair (i : LoadedIdentity) : Bytes × Bytes :=
  (i.publicBlob, utf8 i.name)

/-- The length of the answer can be written in four bytes. -/
def Fits (identities : List LoadedIdentity) : Prop :=
  (answerIdentities identities).length < 2 ^ 32

/-- What the answer says of one identity. -/
def listedAs (i : LoadedIdentity) : Bytes :=
  writeString i.publicBlob ++ writeString (utf8 i.name)

theorem length_answerIdentities (identities : List LoadedIdentity) :
    (answerIdentities identities).length = (identities.flatMap listedAs).length + 5 := by
  change (SSH_AGENT_IDENTITIES_ANSWER :: u32Bytes identities.length ++
    identities.flatMap listedAs).length = _
  simp [u32Bytes]

theorem length_listedAs (i : LoadedIdentity) :
    (listedAs i).length = i.publicBlob.length + (utf8 i.name).length + 8 := by
  unfold listedAs
  rw [List.length_append, length_writeString, length_writeString]
  omega

/-- An answer that fits has no more identities and no longer strings than fit. -/
theorem Fits.strings {identities : List LoadedIdentity} (h : Fits identities) :
    identities.length < 2 ^ 32 ∧
      ∀ i ∈ identities, i.publicBlob.length < 2 ^ 32 ∧ (utf8 i.name).length < 2 ^ 32 := by
  have hsum : ∀ l : List LoadedIdentity, l.length ≤ (l.flatMap listedAs).length ∧
      ∀ i ∈ l, (listedAs i).length ≤ (l.flatMap listedAs).length := by
    intro l
    induction l with
    | nil => exact ⟨le_rfl, fun i hi => nomatch hi⟩
    | cons j l ih =>
        rcases ih with ⟨hcount, hall⟩
        have hfirst := length_listedAs j
        rw [List.flatMap_cons, List.length_append, List.length_cons]
        refine ⟨by omega, fun i hi => ?_⟩
        rcases List.mem_cons.mp hi with heq | hi
        · rw [heq]
          omega
        · have hle := hall i hi
          omega
  rcases hsum identities with ⟨hcount, hall⟩
  unfold Fits at h
  rw [length_answerIdentities] at h
  refine ⟨by omega, fun i hi => ?_⟩
  have hle := hall i hi
  rw [length_listedAs] at hle
  omega

theorem readPairs_written (identities : List LoadedIdentity)
    (h : ∀ i ∈ identities, i.publicBlob.length < 2 ^ 32 ∧ (utf8 i.name).length < 2 ^ 32) :
    readPairs identities.length
        (identities.flatMap fun i => writeString i.publicBlob ++ writeString (utf8 i.name)) =
      some (identities.map identityPair, []) := by
  induction identities with
  | nil => rfl
  | cons i identities ih =>
      obtain ⟨hblob, hname⟩ := h i List.mem_cons_self
      have hrest := ih fun j hj => h j (List.mem_cons_of_mem i hj)
      rw [List.length_cons, List.flatMap_cons, readPairs, List.append_assoc,
        readString_writeString hblob]
      simp only [readString_writeString hname, hrest, Option.map_some]
      rfl

theorem readIdentities_answerIdentities {identities : List LoadedIdentity}
    (h : Fits identities) :
    readIdentities (answerIdentities identities) = some (identities.map identityPair) := by
  rcases h.strings with ⟨hcount, hall⟩
  simp only [readIdentities, answerIdentities, List.cons_append, if_true,
    readU32_u32Bytes hcount, readPairs_written identities hall]

/-- The list is read back from the reply exactly when the reply fits into a frame. -/
theorem readListing_iff (identities : List LoadedIdentity) :
    readListing (writeString (answerIdentities identities)) =
        some (identities.map identityPair) ↔ Fits identities := by
  constructor
  · intro h
    unfold readListing at h
    cases hread : readString (writeString (answerIdentities identities)) with
    | none =>
        rw [hread] at h
        cases h
    | some read =>
        rcases read with ⟨answer, rest⟩
        rw [hread] at h
        cases rest with
        | cons b rest => cases h
        | nil =>
            rcases readString_eq_some hread with ⟨hframe, hshort⟩
            have hlength := congrArg List.length hframe
            rw [List.append_nil, length_writeString, length_writeString] at hlength
            unfold Fits
            omega
  · intro h
    have hread : readString (writeString (answerIdentities identities)) =
        some (answerIdentities identities, []) := by
      simpa using readString_writeString h []
    unfold readListing
    rw [hread]
    exact readIdentities_answerIdentities h

/-! ## A connection as a whole -/

section Connections

variable [SshKeys] [Crypto]

/-- What a client may expect of a connection over which it sent these requests and a rest. -/
structure ServedRight (server : AgentServer) (writes : Writes) (incoming : Incoming)
    (requests : List Bytes) (left : Bytes) (trace : List (Event VaultI))
    (events : List SocketEvent) (e : ConnectionEnd) : Prop where
  /-- Just these requests are dispatched, in order, each after the reply to the one before. -/
  answered : Replied server writes (answerable writes requests) trace events
  /-- Without an error the connection ends between two frames, and with one elsewhere. -/
  closed_iff : Delivered writes requests →
    (e = .closed ↔ left = [] ∧ incoming.ending = .closed)
  failed : e ≠ .closed → ∃ err, e = .failed err
  malformed : ∀ request, Malformed request → server.dispatch request = pure failure
  inRange : ∀ body, Checked.exec (Slices.decodeSignRequest body : Checked Empty _) =
    some (.ok (decodeSignRequest body))
  listed : readListing (writeString (answerIdentities server.identities)) =
    some (server.identities.map identityPair)

/-- The stream is not closed after a part of a length, unless a reply could not be written
before. -/
def WholeHeader (writes : Writes) (incoming : Incoming) (requests : List Bytes) (left : Bytes) :
    Prop :=
  Delivered writes requests → incoming.ending = .closed → left = [] ∨ 4 ≤ left.length

variable {server : AgentServer} {writes : Writes} {incoming : Incoming} {requests : List Bytes}
  {left : Bytes} {trace : List (Event VaultI)} {events : List SocketEvent} {e : ConnectionEnd}

omit [SshKeys] [Crypto] in
theorem EndsAt.failed (h : EndsAt writes requests left incoming.ending e) (hne : e ≠ .closed) :
    ∃ err, e = .failed err := by
  rcases h with ⟨-, -, -, rfl⟩ | ⟨-, herr⟩
  · exact absurd rfl hne
  · exact herr

omit [SshKeys] [Crypto] in
/-- A connection ends as it should when no length is cut. -/
theorem EndsAt.closed_iff (h : EndsAt writes requests left incoming.ending e) :
    (Delivered writes requests → (e = .closed ↔ left = [] ∧ incoming.ending = .closed)) ↔
      WholeHeader writes incoming requests left := by
  rcases h with ⟨hdelivered, hshort, hending, rfl⟩ | ⟨hother, err, rfl⟩
  · constructor
    · intro hright _ _
      exact Or.inl ((hright hdelivered).1 rfl).1
    · intro hwhole _
      refine iff_of_true rfl ⟨(hwhole hdelivered hending).resolve_right ?_, hending⟩
      omega
  · constructor
    · intro hright hdelivered hending
      rcases hother with hother | hlong | hfailed
      · exact absurd hdelivered hother
      · exact Or.inr hlong
      · exact absurd hending hfailed
    · intro _ hdelivered
      refine iff_of_false (by simp) fun ⟨hnil, hending⟩ => ?_
      rcases hother with hother | hlong | hfailed
      · exact hother hdelivered
      · simp [hnil] at hlong
      · exact hfailed hending

theorem servedRight_iff_of_served
    (hanswered : Replied server writes (answerable writes requests) trace events)
    (hends : EndsAt writes requests left incoming.ending e) :
    ServedRight server writes incoming requests left trace events e ↔
      WholeHeader writes incoming requests left ∧ Fits server.identities := by
  constructor
  · intro h
    exact ⟨hends.closed_iff.1 h.closed_iff,
      (readListing_iff server.identities).1 h.listed⟩
  · intro ⟨hwhole, hfits⟩
    exact {
      answered := hanswered
      closed_iff := hends.closed_iff.2 hwhole
      failed := hends.failed
      malformed := fun _ h => dispatch_malformed server h
      inRange := fun body => by rw [Slices.decodeSignRequest_eq]; rfl
      listed := (readListing_iff server.identities).2 hfits }

/-- Every connection that is accepted is served, one after the other. -/
theorem acceptLoop_runs {connections : List (Writes × Incoming)}
    {served : List (List SocketEvent × ConnectionEnd)}
    (hrun : (acceptLoop server connections).Returns trace served) :
    ∃ traces : List (List (Event VaultI)), trace = traces.flatten ∧
      traces.length = connections.length ∧ served.length = connections.length ∧
      ∀ i (hc : i < connections.length) (ht : i < traces.length) (hs : i < served.length),
        (server.serveConnection connections[i].1 connections[i].2).Returns traces[i] served[i] := by
  induction connections generalizing trace served with
  | nil =>
      obtain ⟨rfl, rfl⟩ := hrun
      exact ⟨[], rfl, rfl, rfl, fun i hc => absurd hc (Nat.not_lt_zero i)⟩
  | cons connection connections ih =>
      obtain ⟨t₁, t₂, first, rfl, hfirst, hrun⟩ := (Prog.returns_bind _ _ _ _).1 hrun
      obtain ⟨t₃, t₄, rest, rfl, hrest, hout⟩ := (Prog.returns_bind _ _ _ _).1 hrun
      obtain ⟨rfl, rfl⟩ := hout
      obtain ⟨traces, rfl, htraces, hserved, hall⟩ := ih hrest
      refine ⟨t₁ :: traces, by simp, by simp [htraces], by simp [hserved], fun i hc ht hs => ?_⟩
      cases i with
      | zero => exact hfirst
      | succ i =>
          exact hall i (Nat.lt_of_succ_lt_succ hc) (Nat.lt_of_succ_lt_succ ht)
            (Nat.lt_of_succ_lt_succ hs)

/-- A connection is served as a client may expect when its stream is not cut inside a length and
the list of identities fits into a frame, and only then. -/
theorem served_right_iff (hframed : Framed incoming.bytes requests left)
    (hrun : (server.serveConnection writes incoming).Returns trace (events, e)) :
    ServedRight server writes incoming requests left trace events e ↔
      WholeHeader writes incoming requests left ∧ Fits server.identities :=
  servedRight_iff_of_served (serveConnection_served hframed hrun).1
    (serveConnection_served hframed hrun).2

end Connections

/-! ## Two clients that ask for the identities -/

namespace Asked

def server : AgentServer :=
  Trashed.server

/-- The replies are taken. -/
def writes : Writes := fun _ => none

/-- The request comes in two reads. -/
def whole : Incoming where
  chunks := [⟨[0, 0], by decide⟩, ⟨[0, 1, 11], by decide⟩]
  ending := .closed

/-- The client goes away after half a length. -/
def cut : Incoming where
  chunks := [⟨[0, 0], by decide⟩]
  ending := .closed

theorem framed_whole : Framed whole.bytes [[11]] [] :=
  .frame [11] [] [] [] (by decide) (.done [] fun payload rest _ h => by
    have hlength := congrArg List.length h
    simp only [List.length_nil, List.length_append, length_writeString] at hlength
    omega)

section

attribute [local instance] OneKey.crypto OneKey.ssh

theorem serve_whole :
    (server.serveConnection writes whole).Returns []
      ([.request [11], .reply (writeString (answerIdentities server.identities))], .closed) :=
  ⟨rfl, rfl⟩

theorem fits : Fits server.identities := by
  unfold Fits
  decide +kernel

/-- The request is answered, and the connection ends without an error. -/
theorem served_right_whole :
    ServedRight server writes whole [[11]] [] []
      [.request [11], .reply (writeString (answerIdentities server.identities))] .closed :=
  (served_right_iff framed_whole serve_whole).2 ⟨fun _ _ => Or.inl rfl, fits⟩

/-- Half a length is taken for the end of the stream. -/
theorem served_cut_wrong :
    Framed cut.bytes [] [0, 0] ∧
      (server.serveConnection writes cut).Returns [] ([], .closed) ∧
      ¬ ServedRight server writes cut [] [0, 0] [] [] .closed := by
  refine ⟨?_, ⟨rfl, rfl⟩, ?_⟩
  · refine .done [0, 0] fun payload rest _ h => ?_
    have hlength := congrArg List.length h
    simp only [List.length_cons, List.length_nil, List.length_append, length_writeString] at hlength
    omega
  · intro h
    have hdelivered : Delivered writes [] := fun _ _ => rfl
    have hclosed := (h.closed_iff hdelivered).1 rfl
    exact absurd hclosed.1 (by simp)

end

end Asked

end AgentServer

end OakKeyring
