import OakKeyring.Agent.Connection

/-!
# What a connection serves

The stream of a client falls into frames and a rest that begins with none, in one way only. The
agent dispatches just these frames, in order, however the stream was cut. It takes a rest of one to
three bytes for the end of the stream.
-/

namespace OakKeyring

open Effect

namespace AgentServer

/-! ## Frames of a stream -/

/-- A stream falls into these payloads and a rest. -/
inductive Framed : Bytes → List Bytes → Bytes → Prop
  | done (left : Bytes)
      (h : ∀ payload rest, payload.length ≤ MAX_FRAME_LEN → left ≠ writeString payload ++ rest) :
      Framed left [] left
  | frame (payload rest : Bytes) (payloads : List Bytes) (left : Bytes)
      (hcap : payload.length ≤ MAX_FRAME_LEN) (h : Framed rest payloads left) :
      Framed (writeString payload ++ rest) (payload :: payloads) left

theorem max_frame_lt : MAX_FRAME_LEN < 2 ^ 32 := by decide

theorem Framed.rest {stream left : Bytes} {payloads : List Bytes}
    (h : Framed stream payloads left) (payload rest : Bytes)
    (hcap : payload.length ≤ MAX_FRAME_LEN) : left ≠ writeString payload ++ rest := by
  induction h with
  | done left h => exact h payload rest hcap
  | frame _ _ _ _ _ _ ih => exact ih

/-- A frame at the front is the only one there. -/
theorem writeString_append_inj {p q rest rest' : Bytes} (hp : p.length ≤ MAX_FRAME_LEN)
    (hq : q.length ≤ MAX_FRAME_LEN) (h : writeString p ++ rest = writeString q ++ rest') :
    p = q ∧ rest = rest' := by
  have hread := readString_writeString (hp.trans_lt max_frame_lt) rest
  rw [h, readString_writeString (hq.trans_lt max_frame_lt) rest'] at hread
  obtain ⟨rfl, rfl⟩ := Prod.mk.inj (Option.some.inj hread)
  exact ⟨rfl, rfl⟩

theorem Framed.unique {stream left left' : Bytes} {payloads payloads' : List Bytes}
    (h : Framed stream payloads left) (h' : Framed stream payloads' left') :
    payloads = payloads' ∧ left = left' := by
  induction h generalizing payloads' with
  | done left hleft =>
      cases h' with
      | done => exact ⟨rfl, rfl⟩
      | frame payload rest _ _ hcap => exact absurd rfl (hleft payload rest hcap)
  | frame payload rest payloads left hcap hframed ih =>
      generalize hstream : writeString payload ++ rest = stream at h'
      cases h' with
      | done _ hleft => exact absurd hstream.symm (hleft payload rest hcap)
      | frame payload' rest' payloads' _ hcap' hframed' =>
          obtain ⟨rfl, rfl⟩ := writeString_append_inj hcap hcap' hstream
          obtain ⟨rfl, rfl⟩ := ih hframed'
          exact ⟨rfl, rfl⟩

theorem exists_framed (stream : Bytes) : ∃ payloads left, Framed stream payloads left := by
  induction hn : stream.length using Nat.strong_induction_on generalizing stream with
  | _ n ih =>
      by_cases hframe : ∃ payload rest, payload.length ≤ MAX_FRAME_LEN ∧
          stream = writeString payload ++ rest
      · obtain ⟨payload, rest, hcap, rfl⟩ := hframe
        have hshorter : rest.length < n := by
          rw [List.length_append, length_writeString] at hn
          omega
        obtain ⟨payloads, left, hrest⟩ := ih rest.length hshorter rest rfl
        exact ⟨payload :: payloads, left, .frame payload rest payloads left hcap hrest⟩
      · exact ⟨[], stream, .done stream fun payload rest hcap h =>
          hframe ⟨payload, rest, hcap, h⟩⟩

theorem Framed.length_le {stream left : Bytes} {payloads : List Bytes}
    (h : Framed stream payloads left) : payloads.length ≤ stream.length := by
  induction h with
  | done => exact Nat.zero_le _
  | frame payload rest payloads left hcap h ih =>
      simp only [List.length_cons, List.length_append, length_writeString]
      omega

/-! ## Reading a frame -/

theorem readExact_append {incoming : Incoming} {xs ys : Bytes}
    (h : incoming.bytes = xs ++ ys) :
    ∃ rest, incoming.readExact xs.length = (.ok xs, rest) ∧ rest.bytes = ys ∧
      rest.ending = incoming.ending := by
  have hstream : Chunked.stream incoming.chunks = xs ++ ys := h
  have hle : xs.length ≤ (Chunked.stream incoming.chunks).length := by simp [hstream]
  obtain ⟨rest, hread, hrest⟩ := Chunked.readExact_of_le hle
  rw [hstream, List.take_left] at hread
  rw [hstream, List.drop_left] at hrest
  exact ⟨{ incoming with chunks := rest }, by simp [Incoming.readExact, hread], hrest, rfl⟩

theorem readExact_short {incoming : Incoming} {n : Nat} (h : incoming.bytes.length < n) :
    ∃ rest, incoming.readExact n = (.error incoming.ending.error, rest) := by
  have hread : Chunked.readExact n incoming.chunks = (none, []) := Chunked.readExact_of_lt h
  exact ⟨{ incoming with chunks := [] }, by simp [Incoming.readExact, hread]⟩

theorem ofBig_u32Bytes {n : Nat} (h : n < 2 ^ 32) : Endian.ofBig (u32Bytes n) = n := by
  simp only [Endian.ofBig, u32Bytes, List.reverse_cons, List.reverse_nil, List.nil_append,
    List.cons_append, Endian.ofLittle, List.map_cons, List.map_nil, Nat.ofDigits_cons,
    Nat.ofDigits_nil, UInt8.toNat_ofNat']
  omega

/-- A frame at the front of the stream is read, and nothing more. -/
theorem readFrame_frame {incoming : Incoming} {payload rest : Bytes}
    (hcap : payload.length ≤ MAX_FRAME_LEN)
    (h : incoming.bytes = writeString payload ++ rest) :
    ∃ after, readFrame incoming = (.ok (some payload), after) ∧ after.bytes = rest ∧
      after.ending = incoming.ending := by
  rw [writeString, List.append_assoc] at h
  obtain ⟨body, hheader, hbody, hending⟩ := readExact_append h
  rw [length_u32Bytes] at hheader
  have hlen : Endian.ofBig (u32Bytes payload.length) = payload.length :=
    ofBig_u32Bytes (hcap.trans_lt max_frame_lt)
  by_cases hzero : payload.length = 0
  · obtain rfl := List.length_eq_zero_iff.1 hzero
    refine ⟨body, ?_, hbody, hending⟩
    rw [List.length_nil] at hheader hlen
    simp [readFrame, hheader, hlen]
  · obtain ⟨after, hpayload, hrest, hending'⟩ := readExact_append hbody
    refine ⟨after, ?_, hrest, hending'.trans hending⟩
    simp [readFrame, hheader, hlen, Nat.not_lt.2 hcap, hzero, hpayload]

/-- Without a frame at the front nothing is read. A part of a length counts as no part of one
when the stream was closed after it. -/
theorem readFrame_rest (incoming : Incoming)
    (h : ∀ payload rest, payload.length ≤ MAX_FRAME_LEN →
      incoming.bytes ≠ writeString payload ++ rest) :
    (incoming.bytes.length < 4 ∧ incoming.ending = .closed ∧
        ∃ after, readFrame incoming = (.ok none, after)) ∨
      ((4 ≤ incoming.bytes.length ∨ incoming.ending ≠ .closed) ∧
        ∃ e after, readFrame incoming = (.error e, after)) := by
  by_cases hshort : incoming.bytes.length < 4
  -- no length arrives: a close counts as the end, a failure as an error
  · obtain ⟨after, hread⟩ := readExact_short hshort
    cases hending : incoming.ending with
    | closed => exact Or.inl ⟨hshort, rfl, after, by simp [readFrame, hread, hending, Ending.error]⟩
    | failed message =>
        exact Or.inr ⟨Or.inr (by simp), .Other message, after,
          by simp [readFrame, hread, hending, Ending.error]⟩
  -- a length arrives, and announces more than the cap or more than what follows
  · refine Or.inr ⟨Or.inl (Nat.not_lt.1 hshort), ?_⟩
    obtain ⟨a, b, c, d, body, hbytes⟩ : ∃ a b c d body, incoming.bytes = a :: b :: c :: d :: body := by
      match hbytes : incoming.bytes with
      | a :: b :: c :: d :: body => exact ⟨a, b, c, d, body, rfl⟩
      | [] | [_] | [_, _] | [_, _, _] => simp [hbytes] at hshort
    have hsplit : incoming.bytes = u32Bytes (u32OfBytes a b c d) ++ body := by
      rw [u32Bytes_u32OfBytes, hbytes]
      rfl
    obtain ⟨after, hheader, hbody, hending⟩ := readExact_append hsplit
    rw [length_u32Bytes] at hheader
    have hlen : Endian.ofBig (u32Bytes (u32OfBytes a b c d)) = u32OfBytes a b c d :=
      ofBig_u32Bytes (u32OfBytes_lt a b c d)
    by_cases hcap : MAX_FRAME_LEN < u32OfBytes a b c d
    · exact ⟨_, after, by simp [readFrame, hheader, hlen, hcap]; rfl⟩
    -- the body is cut, or there would be a frame
    · have hcut : after.bytes.length < u32OfBytes a b c d := by
        by_contra hwhole
        have htake : (body.take (u32OfBytes a b c d)).length = u32OfBytes a b c d := by
          rw [List.length_take, ← hbody]
          omega
        refine h (body.take (u32OfBytes a b c d)) (body.drop (u32OfBytes a b c d)) ?_ ?_
        · omega
        · rw [writeString, htake, List.append_assoc, List.take_append_drop, hsplit]
      obtain ⟨after', hread⟩ := readExact_short hcut
      have hzero : u32OfBytes a b c d ≠ 0 := by omega
      exact ⟨after.ending.error, after', by simp [readFrame, hheader, hlen, hcap, hzero, hread]⟩

/-! ## Serving a connection -/

/-- The requests up to the first whose reply cannot be written. -/
def answerable : Writes → List Bytes → List Bytes
  | _, [] => []
  | writes, request :: requests =>
      match writes 0 with
      | some _ => [request]
      | none => request :: answerable (fun n => writes (n + 1)) requests

/-- Every reply can be written. -/
def Delivered (writes : Writes) (requests : List Bytes) : Prop :=
  ∀ i < requests.length, writes i = none

theorem delivered_cons {writes : Writes} {request : Bytes} {requests : List Bytes} :
    Delivered writes (request :: requests) ↔
      writes 0 = none ∧ Delivered (fun n => writes (n + 1)) requests := by
  constructor
  · intro h
    exact ⟨h 0 (Nat.succ_pos _), fun i hi => h (i + 1) (Nat.succ_lt_succ hi)⟩
  · intro ⟨hzero, hrest⟩ i hi
    cases i with
    | zero => exact hzero
    | succ i => exact hrest i (Nat.lt_of_succ_lt_succ hi)

section Serving

variable [SshKeys] [Crypto] {server : AgentServer}

/-- Each request is dispatched after the reply to the one before was written. The last one may be
left without a reply, when that could not be written. -/
inductive Replied (server : AgentServer) :
    Writes → List Bytes → List (Event VaultI) → List SocketEvent → Prop
  | nil (writes : Writes) : Replied server writes [] [] []
  | unwritten (writes : Writes) (request response : Bytes) (e : IoError)
      (trace : List (Event VaultI)) (hwrite : writes 0 = some e)
      (h : (server.dispatch request).Returns trace response) :
      Replied server writes [request] trace [.request request]
  | reply (writes : Writes) (request response : Bytes) (requests : List Bytes)
      (trace trace' : List (Event VaultI)) (events : List SocketEvent)
      (hwrite : writes 0 = none) (h : (server.dispatch request).Returns trace response)
      (hrest : Replied server (fun n => writes (n + 1)) requests trace' events) :
      Replied server writes (request :: requests) (trace ++ trace')
        (.request request :: .reply (writeString response) :: events)

/-- How a connection ended, after so many replies. -/
def EndsAt (writes : Writes) (requests : List Bytes) (left : Bytes) (ending : Ending)
    (e : ConnectionEnd) : Prop :=
  (Delivered writes requests ∧ left.length < 4 ∧ ending = .closed ∧ e = .closed) ∨
    (¬ Delivered writes requests ∨ 4 ≤ left.length ∨ ending ≠ .closed) ∧
      ∃ err, e = .failed err

theorem serveFrames_served {stream left : Bytes} {requests : List Bytes}
    (hframed : Framed stream requests left) {fuel : Nat} (hfuel : requests.length < fuel)
    {writes : Writes} {incoming : Incoming} (hbytes : incoming.bytes = stream)
    {trace : List (Event VaultI)} {events : List SocketEvent} {e : ConnectionEnd}
    (hrun : (serveFrames server fuel writes incoming).Returns trace (events, e)) :
    Replied server writes (answerable writes requests) trace events ∧
      EndsAt writes requests left incoming.ending e := by
  induction hframed generalizing fuel writes incoming trace events with
  | done left hleft =>
      obtain ⟨fuel, rfl⟩ := Nat.exists_eq_succ_of_ne_zero (Nat.ne_of_gt hfuel)
      -- the connection ends with what is left
      have hdelivered : Delivered writes [] := fun i hi => absurd hi (Nat.not_lt_zero i)
      rcases readFrame_rest incoming (hbytes ▸ hleft) with
        ⟨hshort, hending, after, hread⟩ | ⟨hlong, err, after, hread⟩
      · rw [serveFrames, hread] at hrun
        obtain ⟨rfl, hout⟩ := hrun
        obtain ⟨rfl, rfl⟩ := Prod.mk.inj hout
        exact ⟨.nil writes, Or.inl ⟨hdelivered, hbytes ▸ hshort, hending, rfl⟩⟩
      · rw [serveFrames, hread] at hrun
        obtain ⟨rfl, hout⟩ := hrun
        obtain ⟨rfl, rfl⟩ := Prod.mk.inj hout
        exact ⟨.nil writes, Or.inr ⟨Or.inr (hbytes ▸ hlong), err, rfl⟩⟩
  | frame payload rest payloads left hcap hframed ih =>
      obtain ⟨fuel, rfl⟩ := Nat.exists_eq_succ_of_ne_zero (Nat.ne_of_gt (Nat.zero_lt_of_lt hfuel))
      obtain ⟨after, hread, hrest, hending⟩ := readFrame_frame hcap hbytes
      rw [serveFrames, hread] at hrun
      obtain ⟨t₁, t₂, response, rfl, hdispatch, hrun⟩ := (Prog.returns_bind _ _ _ _).1 hrun
      cases hwrite : writes 0 with
      | some err =>
          simp only [hwrite] at hrun
          obtain ⟨rfl, hout⟩ := hrun
          -- the reply cannot be written, and nothing more is read
          obtain ⟨rfl, rfl⟩ := Prod.mk.inj hout
          have hfailed : ¬ Delivered writes (payload :: payloads) := fun h => by
            simp [(delivered_cons.1 h).1] at hwrite
          rw [answerable, hwrite, List.append_nil]
          exact ⟨.unwritten writes payload response err t₁ hwrite hdispatch,
            Or.inr ⟨Or.inl hfailed, err, rfl⟩⟩
      | none =>
          simp only [hwrite] at hrun
          obtain ⟨t₃, t₄, ⟨events', e'⟩, rfl, hserved, hout⟩ :=
            (Prog.returns_bind _ _ _ _).1 hrun
          obtain ⟨rfl, hout⟩ := hout
          obtain ⟨rfl, rfl⟩ := Prod.mk.inj hout
          -- the reply is written, and the rest is served as a connection of its own
          have hless : payloads.length < fuel := Nat.lt_of_succ_lt_succ hfuel
          obtain ⟨hanswered, hends⟩ := ih hless hrest hserved
          rw [answerable, hwrite, List.append_nil]
          refine ⟨.reply writes payload response _ t₁ t₃ events' hwrite hdispatch hanswered, ?_⟩
          simp only [EndsAt, delivered_cons, hwrite, true_and, ← hending]
          exact hends

/-- A connection serves the frames of its stream. -/
theorem serveConnection_served {writes : Writes} {incoming : Incoming} {requests : List Bytes}
    {left : Bytes} (hframed : Framed incoming.bytes requests left) {trace : List (Event VaultI)}
    {events : List SocketEvent} {e : ConnectionEnd}
    (hrun : (server.serveConnection writes incoming).Returns trace (events, e)) :
    Replied server writes (answerable writes requests) trace events ∧
      EndsAt writes requests left incoming.ending e :=
  serveFrames_served hframed (Nat.lt_succ_of_le hframed.length_le) rfl hrun

end Serving

end AgentServer

end OakKeyring
