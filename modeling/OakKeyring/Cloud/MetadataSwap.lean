import OakKeyring.Cloud.Storage
import OakKeyring.Lib.Play
import OakKeyring.Samples.Store
import Mathlib.Data.List.Infix

/-!
# The compare-and-swap of the metadata file

Devices download the metadata file and push newer versions of what they downloaded. A push reads,
compares and writes in two operations, so another push can come between them. What holds of
the pushes whose write replaces just the metadata they read is shown for every interleaving.
-/

namespace OakKeyring

open Effect Transition

/-- The version a push has to expect of a downloaded metadata file. -/
def metadataVersionOf : Option CloudMetadata → Nat
  | some m => m.metadataVersion
  | none => 0

inductive MetadataRequest
  | download
  | push (metadata : CloudMetadata) (expectedVersion : Nat)

inductive MetadataReply
  | downloaded (r : Except SyncError (Option CloudMetadata))
  | pushed (metadata : CloudMetadata) (expectedVersion : Nat) (r : Except SyncError Unit)

/-- What a device has downloaded, the latest first. -/
structure MetadataClient where
  downloaded : List (Option CloudMetadata)

/-- The callers' discipline: the pushed metadata is newer than a downloaded one, and the expected
version is that of one downloaded at the same time or before. The first push of a vault has
version 2 and follows a download that found nothing. -/
def MetadataClient.MayPush (t : MetadataClient) (metadata : CloudMetadata)
    (expectedVersion : Nat) : Prop :=
  ∃ known before, (known :: before) <:+ t.downloaded ∧
    (∃ seen ∈ known :: before, metadataVersionOf seen = expectedVersion) ∧
    metadataVersionOf known < metadata.metadataVersion

/-- The head of a suffix of the downloads decides, so there are finitely many to look at. -/
theorem MetadataClient.mayPush_iff (t : MetadataClient) (metadata : CloudMetadata)
    (expectedVersion : Nat) :
    t.MayPush metadata expectedVersion ↔
      ∃ l ∈ t.downloaded.tails, (∃ seen ∈ l, metadataVersionOf seen = expectedVersion) ∧
        ∃ known ∈ l.head?, metadataVersionOf known < metadata.metadataVersion := by
  constructor
  · intro h
    rcases h with ⟨known, before, hsuffix, hseen, hnewer⟩
    exact ⟨known :: before, (List.mem_tails _ _).mpr hsuffix, hseen, known, rfl, hnewer⟩
  · intro h
    rcases h with ⟨l, hl, hseen, known, hhead, hnewer⟩
    cases l with
    | nil => cases hhead
    | cons first before =>
        have hfirst : first = known := Option.some.inj hhead
        rw [hfirst] at hl hseen
        exact ⟨known, before, (List.mem_tails _ _).mp hl, hseen, hnewer⟩

instance MetadataClient.decidableMayPush (t : MetadataClient) (metadata : CloudMetadata)
    (expectedVersion : Nat) : Decidable (t.MayPush metadata expectedVersion) :=
  decidable_of_iff _ (t.mayPush_iff metadata expectedVersion).symm

section

variable [Codec]

/-- The metadata a turn has read, as the read is understood. -/
def noteMetadataRead (note : Option (Option CloudMetadata)) :
    Event StorageI → Option (Option CloudMetadata)
  | ⟨.readMetadata, read⟩ =>
      match CloudStorage.metadataOfRead read with
      | .ok current => some current
      | .error _ => none
  | _ => note

def MetadataClient.turn (t : MetadataClient) :
    MetadataRequest → Cloud (MetadataClient × MetadataReply)
  | .download => do
      match ← CloudStorage.downloadMetadata with
      | .ok current =>
          return ({ downloaded := current :: t.downloaded }, .downloaded (.ok current))
      | .error e => return (t, .downloaded (.error e))
  | .push metadata expectedVersion => do
      let r ← CloudStorage.pushMetadataAtomic metadata expectedVersion
      return (t, .pushed metadata expectedVersion r)

/-- Devices that use the metadata file. -/
def metadataClients : Machine StorageI where
  State := MetadataClient
  Input := MetadataRequest
  Out := MetadataReply
  Note := Option (Option CloudMetadata)
  enabled t i :=
    match i with
    | .download => True
    | .push metadata expectedVersion => t.MayPush metadata expectedVersion
  turn := MetadataClient.turn
  start := none
  note := noteMetadataRead

instance : (t : metadataClients.State) → (i : metadataClients.Input) →
    Decidable (metadataClients.enabled t i)
  | _, .download => isTrue trivial
  | t, .push metadata expectedVersion =>
      MetadataClient.decidableMayPush t metadata expectedVersion

variable {D : Type}

abbrev MetadataPool (D : Type) :=
  metadataClients.Pool CloudStore D

abbrev MetadataStep (D : Type) :=
  Step (MetadataPool D) (metadataClients.Label D)

/-- One operation of one device, interleaved with those of the others. -/
def metadataStep [DecidableEq D] :
    MetadataPool D → metadataClients.Label D → MetadataPool D → Prop :=
  Machine.Pool.step storageEnv fun _ => True

/-- Devices that have not downloaded anything yet. -/
def MetadataPool.initial (s : CloudStore) : MetadataPool D where
  shared := s
  party _ := .idle { downloaded := [] }
  spoiler := none

/-- The step is the report of a successful push that was given this expected version. -/
def MetadataStep.pushedAt (expectedVersion : Nat) (e : MetadataStep D) : Bool :=
  match e.label with
  | .finish _ (.pushed _ v (.ok ())) => v == expectedVersion
  | _ => false

/-- At most one of the pushes with one expected version succeeds. -/
def SucceedsOnce (es : List (MetadataStep D)) : Prop :=
  ∀ expectedVersion, es.countP (MetadataStep.pushedAt expectedVersion) ≤ 1

/-- Whatever entry a successful write drops or replaces, its author had downloaded before. -/
def DropsOnlySeen (es : List (MetadataStep D)) : Prop :=
  ∀ done e rest d m, es = done ++ e :: rest →
    e.label = .op d ((StorageOp.writeMetadata m).answered (.ok ())) →
    ∀ id info, e.source.shared.entry id = some info → m.records.lookup id ≠ some info →
      ∃ e' ∈ done, ∃ known : CloudMetadata,
        e'.label = .finish d (.downloaded (.ok (some known))) ∧
          known.records.lookup id = some info

/-- If the step is a successful write of metadata, it replaces what its push has read. -/
def MetadataStep.Unbroken (e : MetadataStep D) : Prop :=
  ∀ d m, e.label = .op d ((StorageOp.writeMetadata m).answered (.ok ())) →
    ∃ p, e.source.party d = .busy (some e.source.shared.metadata) p

/-- The check of one step, computed. -/
def MetadataStep.unbroken (e : MetadataStep D) : Bool :=
  match e.label with
  | .op d ⟨.writeMetadata _, .ok _⟩ =>
      match e.source.party d with
      | .busy note _ => isNoted note e.source.shared
      | .idle _ => false
  | _ => true
where
  isNoted (note : Option (Option CloudMetadata)) (s : CloudStore) : Bool :=
    decide (note = some s.metadata)

omit [Codec] in
theorem MetadataStep.eq_of_isNoted {note : Option (Option CloudMetadata)} {s : CloudStore}
    (h : unbroken.isNoted note s = true) : note = some s.metadata :=
  of_decide_eq_true h

theorem MetadataStep.Unbroken.of_unbroken {e : MetadataStep D} (h : e.unbroken = true) :
    e.Unbroken := by
  intro d m hlabel
  simp only [MetadataStep.unbroken, hlabel, StorageOp.answered] at h
  cases hparty : e.source.party d with
  | idle t =>
      simp only [hparty] at h
      cases h
  | busy note p =>
      simp only [hparty] at h
      rw [eq_of_isNoted h]
      exact ⟨p, rfl⟩

/-! ## What a turn does -/

/-- A push, one operation at a time. -/
theorem turn_push (t : MetadataClient) (m : CloudMetadata) (v : Nat) :
    t.turn (.push m v) = .call .readMetadata fun read =>
      match CloudStorage.metadataOfRead read with
      | .error e => .ret (t, .pushed m v (.error e))
      | .ok current =>
          match CloudStorage.checkExpectedVersion v current with
          | .error e => .ret (t, .pushed m v (.error e))
          | .ok () => .call (.writeMetadata m) fun r => .ret (t, .pushed m v r) := by
  refine congrArg (Prog.call (I := StorageI) StorageOp.readMetadata) (funext fun read => ?_)
  cases hread : CloudStorage.metadataOfRead read with
  | error e => simp [Prog.bind, hread]
  | ok current =>
      cases hcheck : CloudStorage.checkExpectedVersion v current with
      | error e => simp [Prog.bind, hread, hcheck]
      | ok u =>
          simp [Prog.bind, hread, hcheck, CloudStorage.uploadMetadata, CloudStorage.perform,
            Prog.perform]

theorem turn_download (t : MetadataClient) :
    t.turn .download = .call .readMetadata fun read =>
      match CloudStorage.metadataOfRead read with
      | .error e => .ret (t, .downloaded (.error e))
      | .ok current => .ret ({ downloaded := current :: t.downloaded }, .downloaded (.ok current)) := by
  refine congrArg (Prog.call (I := StorageI) StorageOp.readMetadata) (funext fun read => ?_)
  cases hread : CloudStorage.metadataOfRead read <;> simp [Prog.bind, hread]

/-- Every turn starts with an operation. -/
theorem turn_ne_ret (t : MetadataClient) (i : MetadataRequest)
    (a : MetadataClient × MetadataReply) : t.turn i ≠ .ret a := by
  intro h
  cases i with
  | download =>
      rw [turn_download] at h
      cases h
  | push m v =>
      rw [turn_push] at h
      cases h

/-- A usable read gives what the file holds. -/
theorem metadata_eq_of_read {s s' : CloudStore} {read : Except SyncError CloudMetadata}
    {current : Option CloudMetadata} (hstep : StorageStep s .readMetadata read s')
    (hread : CloudStorage.metadataOfRead read = .ok current) : current = s.metadata := by
  cases hstep with
  | readMetadata m h =>
      cases hvalid : m.validate with
      | ok u =>
          simp only [CloudStorage.metadataOfRead, hvalid] at hread
          cases hread
          exact h.symm
      | error e =>
          simp only [CloudStorage.metadataOfRead, hvalid] at hread
          cases hread
  | noMetadata h =>
      cases hread
      exact h.symm
  | readMetadataFault e he =>
      cases e with
      | RecordNotFound _ => exact absurd he id
      | _ => cases hread

omit [Codec] in
theorem metadataVersionOf_of_check {v : Nat} {current : Option CloudMetadata}
    (hcheck : CloudStorage.checkExpectedVersion v current = .ok ()) :
    metadataVersionOf current = v := by
  cases current with
  | none =>
      by_contra hne
      have hv : v ≠ 0 := fun h => hne h.symm
      simp only [CloudStorage.checkExpectedVersion, if_pos hv] at hcheck
      cases hcheck
  | some m =>
      by_contra hne
      have hv : m.metadataVersion ≠ v := hne
      simp only [CloudStorage.checkExpectedVersion, if_pos hv] at hcheck
      cases hcheck

/-! ## The invariant -/

/-- Files only get newer. -/
def Newer (s s' : CloudStore) : Prop :=
  s'.metadata = s.metadata ∨ metadataVersionOf s.metadata < metadataVersionOf s'.metadata

/-- Downloaded metadata is the stored one or older than it. -/
def Known (s : CloudStore) (known : Option CloudMetadata) : Prop :=
  known = s.metadata ∨ metadataVersionOf known < metadataVersionOf s.metadata

omit [Codec] in
theorem Known.version_le {s : CloudStore} {known : Option CloudMetadata} (h : Known s known) :
    metadataVersionOf known ≤ metadataVersionOf s.metadata := by
  rcases h with h | h
  · rw [h]
  · exact le_of_lt h

omit [Codec] in
theorem Known.newer {s s' : CloudStore} {known : Option CloudMetadata} (h : Known s known)
    (hnewer : Newer s s') : Known s' known := by
  have hle := h.version_le
  rcases hnewer with hsame | hlt
  · rcases h with h | h
    · exact Or.inl (h.trans hsame.symm)
    · right
      rw [hsame]
      exact h
  · exact Or.inr (lt_of_le_of_lt hle hlt)

/-- What a device has downloaded is on record and in order of age. -/
structure ClientOk (done : List (MetadataStep D)) (s : CloudStore) (d : D)
    (t : MetadataClient) : Prop where
  reported : ∀ known ∈ t.downloaded,
    ∃ e ∈ done, e.label = .finish d (.downloaded (.ok known))
  ordered : t.downloaded.Pairwise fun newer older =>
    metadataVersionOf older ≤ metadataVersionOf newer
  known : ∀ known ∈ t.downloaded, Known s known

theorem ClientOk.mono {done : List (MetadataStep D)} {e : MetadataStep D} {s s' : CloudStore}
    {d : D} {t : MetadataClient} (h : ClientOk done s d t) (hnewer : Newer s s') :
    ClientOk (done ++ [e]) s' d t where
  reported known hknown := by
    rcases h.reported known hknown with ⟨e', he', hlabel⟩
    exact ⟨e', List.mem_append_left _ he', hlabel⟩
  ordered := h.ordered
  known known hknown := (h.known known hknown).newer hnewer

/-- The metadata a device may push follows the expected version, and when that is the stored
version, the device has downloaded what is stored. -/
theorem ClientOk.mayPush {done : List (MetadataStep D)} {s : CloudStore} {d : D}
    {t : MetadataClient} {m : CloudMetadata} {v : Nat} (h : ClientOk done s d t)
    (hpush : t.MayPush m v) :
    v < m.metadataVersion ∧ (metadataVersionOf s.metadata = v → s.metadata ∈ t.downloaded) := by
  rcases hpush with ⟨known, before, hsuffix, ⟨seen, hseen, hversion⟩, hnewer⟩
  have hmem : known ∈ t.downloaded := hsuffix.subset List.mem_cons_self
  have hordered := h.ordered.sublist hsuffix.sublist
  have hle : v ≤ metadataVersionOf known := by
    rcases List.mem_cons.mp hseen with heq | hbefore
    · rw [← heq, hversion]
    · have holder := List.rel_of_pairwise_cons hordered hbefore
      rw [hversion] at holder
      exact holder
  refine ⟨by omega, fun hstored => ?_⟩
  rcases h.known known hmem with hcurrent | hold
  · rw [← hcurrent]
    exact hmem
  · omega

/-- Where a device stands in its turn, or between two turns. -/
inductive PartyOk (done : List (MetadataStep D)) (s : CloudStore) (d : D) :
    metadataClients.Party → Prop
  | idle (t : MetadataClient) (h : ClientOk done s d t) : PartyOk done s d (.idle t)
  | started (t : MetadataClient) (i : MetadataRequest)
      (p : Cloud (MetadataClient × MetadataReply)) (h : ClientOk done s d t)
      (henabled : metadataClients.enabled t i) (hp : p = t.turn i) :
      PartyOk done s d (.busy none p)
  | writing (t : MetadataClient) (m : CloudMetadata) (v : Nat) (current : Option CloudMetadata)
      (h : ClientOk done s d t) (hpush : t.MayPush m v)
      (hcheck : CloudStorage.checkExpectedVersion v current = .ok ()) :
      PartyOk done s d (.busy (some current)
        (.call (.writeMetadata m) fun r => .ret (t, .pushed m v r)))
  | pushed (n : Option (Option CloudMetadata)) (t : MetadataClient) (m : CloudMetadata) (v : Nat)
      (r : Except SyncError Unit) (h : ClientOk done s d t) :
      PartyOk done s d (.busy n (.ret (t, .pushed m v r)))
  | downloaded (n : Option (Option CloudMetadata)) (t : MetadataClient)
      (current : Option CloudMetadata) (h : ClientOk done s d t) (hcurrent : Known s current)
      (hnewest : ∀ known ∈ t.downloaded, metadataVersionOf known ≤ metadataVersionOf current) :
      PartyOk done s d (.busy n
        (.ret ({ downloaded := current :: t.downloaded }, .downloaded (.ok current))))
  | failed (n : Option (Option CloudMetadata)) (t : MetadataClient) (e : SyncError)
      (h : ClientOk done s d t) :
      PartyOk done s d (.busy n (.ret (t, .downloaded (.error e))))

theorem PartyOk.mono {done : List (MetadataStep D)} {e : MetadataStep D} {s s' : CloudStore}
    {d : D} {party : metadataClients.Party} (h : PartyOk done s d party)
    (hnewer : Newer s s') : PartyOk (done ++ [e]) s' d party := by
  cases h with
  | idle t h => exact .idle t (h.mono hnewer)
  | started t i p h henabled hp => exact .started t i p (h.mono hnewer) henabled hp
  | writing t m v current h hpush hcheck =>
      exact .writing t m v current (h.mono hnewer) hpush hcheck
  | pushed n t m v r h => exact .pushed n t m v r (h.mono hnewer)
  | downloaded n t current h hcurrent hnewest =>
      exact .downloaded n t current (h.mono hnewer) (hcurrent.newer hnewer) hnewest
  | failed n t e h => exact .failed n t e (h.mono hnewer)

/-- What an operation of a device brings about when writes replace what was read. -/
structure OpEffect (done : List (MetadataStep D)) (d : D) (s s' : CloudStore)
    (n : Option (Option CloudMetadata)) (ev : Event StorageI)
    (p : Cloud (MetadataClient × MetadataReply)) : Prop where
  newer : Newer s s'
  party : ∀ e, PartyOk (done ++ [e]) s' d (.busy n p)
  succeeds : ∀ t m v, p = .ret (t, .pushed m v (.ok ())) →
    metadataVersionOf s.metadata = v ∧ v < metadataVersionOf s'.metadata
  seen : ∀ m, ev = (StorageOp.writeMetadata m).answered (.ok ()) →
    ∃ e ∈ done, e.label = .finish d (.downloaded (.ok s.metadata))

/-- The read that starts a turn. -/
theorem opEffect_read {done : List (MetadataStep D)} {s s' : CloudStore} {d : D}
    {t : MetadataClient} {i : MetadataRequest} {read : Except SyncError CloudMetadata}
    {k : Except SyncError CloudMetadata → Cloud (MetadataClient × MetadataReply)}
    (h : ClientOk done s d t) (henabled : metadataClients.enabled t i)
    (hturn : t.turn i = .call .readMetadata k) (hstep : StorageStep s .readMetadata read s') :
    OpEffect done d s s' (noteMetadataRead none (StorageOp.readMetadata.answered read))
      (StorageOp.readMetadata.answered read) (k read) := by
  -- a read changes nothing, and is no write
  have hsame : s' = s := by
    cases hstep with
    | readMetadata m h => rfl
    | noMetadata h => rfl
    | readMetadataFault e he => rfl
  have hnewer : Newer s s' := by
    rw [hsame]
    exact Or.inl rfl
  have hseen : ∀ m, StorageOp.readMetadata.answered read =
      (StorageOp.writeMetadata m).answered (.ok ()) →
      ∃ e ∈ done, e.label = .finish d (.downloaded (.ok s.metadata)) := by
    intro m heq
    injection heq with hcall
    cases hcall
  cases i with
  | download =>
      rw [turn_download] at hturn
      injection hturn with _ hk
      rw [← hk]
      cases hread : CloudStorage.metadataOfRead read with
      | error e =>
          refine ⟨hnewer, fun e' => ?_, ?_, hseen⟩
          · simp only [hread]
            exact .failed _ t e (h.mono hnewer)
          · intro t' m v hret
            simp only [hread] at hret
            cases hret
      | ok current =>
          -- what is downloaded is stored at that moment, so nothing known is newer
          have hcurrent : current = s.metadata := metadata_eq_of_read hstep hread
          refine ⟨hnewer, fun e' => ?_, ?_, hseen⟩
          · simp only [hread]
            refine .downloaded _ t current (h.mono hnewer) ?_ ?_
            · rw [hsame]
              exact Or.inl hcurrent
            · intro known hknown
              rw [hcurrent]
              exact (h.known known hknown).version_le
          · intro t' m v hret
            simp only [hread] at hret
            cases hret
  | push m v =>
      rw [turn_push] at hturn
      injection hturn with _ hk
      rw [← hk]
      cases hread : CloudStorage.metadataOfRead read with
      | error e =>
          refine ⟨hnewer, fun e' => ?_, ?_, hseen⟩
          · simp only [hread]
            exact .pushed _ t m v (.error e) (h.mono hnewer)
          · intro t' m' v' hret
            simp only [hread] at hret
            cases hret
      | ok current =>
          -- the version is compared with the one that was just read
          cases hcheck : CloudStorage.checkExpectedVersion v current with
          | error e =>
              refine ⟨hnewer, fun e' => ?_, ?_, hseen⟩
              · simp only [hread, hcheck]
                exact .pushed _ t m v (.error e) (h.mono hnewer)
              · intro t' m' v' hret
                simp only [hread, hcheck] at hret
                cases hret
          | ok u =>
              refine ⟨hnewer, fun e' => ?_, ?_, hseen⟩
              · have hnote : noteMetadataRead none (StorageOp.readMetadata.answered read) =
                    some current := by
                  simp only [noteMetadataRead, StorageOp.answered, hread]
                rw [hnote]
                simp only [hread, hcheck]
                exact .writing t m v current (h.mono hnewer) henabled hcheck
              · intro t' m' v' hret
                simp only [hread, hcheck] at hret
                cases hret

/-- The write that ends a push. -/
theorem opEffect_write {done : List (MetadataStep D)} {s s' : CloudStore} {d : D}
    {t : MetadataClient} {m : CloudMetadata} {v : Nat} {current : Option CloudMetadata}
    {r : Except SyncError Unit} (h : ClientOk done s d t) (hpush : t.MayPush m v)
    (hcheck : CloudStorage.checkExpectedVersion v current = .ok ())
    (hunbroken : r = .ok () → current = s.metadata)
    (hstep : StorageStep s (.writeMetadata m) r s') :
    OpEffect done d s s' (some current) ((StorageOp.writeMetadata m).answered r)
      (.ret (t, .pushed m v r)) := by
  have hfollows := h.mayPush hpush
  cases hstep with
  | writeMetadata =>
      -- what was read is still stored, so its version is the expected one
      have hstored : metadataVersionOf s.metadata = v := by
        rw [← hunbroken rfl]
        exact metadataVersionOf_of_check hcheck
      have hlater : v < metadataVersionOf (s.putMetadata m).metadata := hfollows.1
      have hnewer : Newer s (s.putMetadata m) := by
        right
        rw [hstored]
        exact hlater
      refine ⟨hnewer, fun e' => .pushed _ t m v _ (h.mono hnewer), ?_, ?_⟩
      · intro t' m' v' hret
        cases hret
        exact ⟨hstored, hlater⟩
      · intro m' _
        exact h.reported s.metadata (hfollows.2 hstored)
  | writeMetadataFault e =>
      have hnewer : Newer s s := Or.inl rfl
      refine ⟨hnewer, fun e' => .pushed _ t m v _ (h.mono hnewer), ?_, ?_⟩
      · intro t' m' v' hret
        cases hret
      · intro m' heq
        injection heq with hcall hanswer
        cases hcall
        cases hanswer

/-- Step lemma for operations. -/
theorem PartyOk.op {done : List (MetadataStep D)} {s s' : CloudStore} {d : D}
    {n : Option (Option CloudMetadata)} {c : StorageOp} {x : c.Answer}
    {k : c.Answer → Cloud (MetadataClient × MetadataReply)}
    (h : PartyOk done s d (.busy n (.call c k))) (hstep : StorageStep s c x s')
    (hunbroken : ∀ m, c.answered x = (StorageOp.writeMetadata m).answered (.ok ()) →
      n = some s.metadata) :
    OpEffect done d s s' (noteMetadataRead n (c.answered x)) (c.answered x) (k x) := by
  cases h with
  | started t i _ h henabled hturn =>
      cases i with
      | download =>
          have hcall := hturn.trans (turn_download t)
          injection hcall with hc hk
          subst hc
          exact opEffect_read h henabled hturn.symm hstep
      | push m v =>
          have hcall := hturn.trans (turn_push t m v)
          injection hcall with hc hk
          subst hc
          exact opEffect_read h henabled hturn.symm hstep
  | writing t m v current h hpush hcheck =>
      refine opEffect_write h hpush hcheck ?_ hstep
      intro hr
      rw [hr] at hunbroken
      exact Option.some.inj (hunbroken m rfl)

/-! ## Runs -/

/-- The device has written its metadata and is about to report success. -/
def MetadataPool.Written (σ : MetadataPool D) (v : Nat) (d : D) : Prop :=
  ∃ n t m, σ.party d = .busy n (.ret (t, .pushed m v (.ok ())))

theorem reply_of_pushedAt {e : MetadataStep D} {d : D} {o : MetadataReply} {v : Nat}
    (hlabel : e.label = .finish d o) (h : e.pushedAt v = true) :
    ∃ m, o = .pushed m v (.ok ()) := by
  rw [MetadataStep.pushedAt, hlabel] at h
  cases o with
  | downloaded r => cases h
  | pushed m v' r =>
      cases r with
      | error e => cases h
      | ok u =>
          have hv : v' = v := by simpa using h
          rw [hv]
          exact ⟨m, rfl⟩

/-- The reported turn leaves its client as it should be. -/
theorem PartyOk.finish {done : List (MetadataStep D)} {s : CloudStore} {d : D}
    {n : Option (Option CloudMetadata)} {t : MetadataClient} {o : MetadataReply}
    {e : MetadataStep D} (h : PartyOk done s d (.busy n (.ret (t, o))))
    (hlabel : e.label = .finish d o) : ClientOk (done ++ [e]) s d t := by
  have hnewer : Newer s s := Or.inl rfl
  cases h with
  | started t' i _ h henabled hturn => exact absurd hturn.symm (turn_ne_ret t' i _)
  | pushed _ _ m v r h => exact h.mono hnewer
  | downloaded _ t' current h hcurrent hnewest =>
      have hold := ClientOk.mono (e := e) h hnewer
      refine ⟨?_, ?_, ?_⟩
      · intro known hknown
        rcases List.mem_cons.mp hknown with heq | hknown
        · rw [heq]
          exact ⟨e, List.mem_append_right _ (List.mem_singleton_self e), hlabel⟩
        · exact hold.reported known hknown
      · exact List.Pairwise.cons hnewest hold.ordered
      · intro known hknown
        rcases List.mem_cons.mp hknown with heq | hknown
        · rw [heq]
          exact hcurrent
        · exact hold.known known hknown
  | failed _ _ e' h => exact h.mono hnewer

/-- The pushes with one expected version, counted. -/
structure Counted (done : List (MetadataStep D)) (σ : MetadataPool D) (v : Nat) : Prop where
  unique : ∀ d d', σ.Written v d → σ.Written v d' → d = d'
  passed : ∀ d, σ.Written v d → v < metadataVersionOf σ.shared.metadata
  once : done.countP (MetadataStep.pushedAt v) ≤ 1
  ahead : 0 < done.countP (MetadataStep.pushedAt v) →
    v < metadataVersionOf σ.shared.metadata ∧ ∀ d, ¬ σ.Written v d

structure SwapInv (done : List (MetadataStep D)) (σ : MetadataPool D) : Prop where
  parties : ∀ d, PartyOk done σ.shared d (σ.party d)
  counted : ∀ v, Counted done σ v

theorem swapInv_initial (s : CloudStore) :
    SwapInv [] (MetadataPool.initial s : MetadataPool D) where
  parties d := by
    refine .idle _ ⟨?_, List.Pairwise.nil, ?_⟩
    · intro known hknown
      cases hknown
    · intro known hknown
      cases hknown
  counted v := by
    have hnone : ∀ d, ¬ (MetadataPool.initial s : MetadataPool D).Written v d := by
      intro d hwritten
      rcases hwritten with ⟨n, t, m, hbusy⟩
      cases hbusy
    exact ⟨fun d _ h _ => absurd h (hnone d), fun d h => absurd h (hnone d), by simp,
      fun h => absurd h (by simp)⟩

theorem parties_update [DecidableEq D] {done : List (MetadataStep D)} {σ : MetadataPool D}
    {s : CloudStore} {d : D} {q : metadataClients.Party} {e : MetadataStep D}
    (h : ∀ d, PartyOk done σ.shared d (σ.party d)) (hnewer : Newer σ.shared s)
    (hq : PartyOk (done ++ [e]) s d q) :
    ∀ d', PartyOk (done ++ [e]) s d' (Function.update σ.party d q d') := by
  intro d'
  by_cases hd : d' = d
  · rw [hd, Function.update_self]
    exact hq
  · rw [Function.update_of_ne hd]
    exact (h d').mono hnewer

/-- A step changes one party; who else has written is as before. -/
theorem written_update [DecidableEq D] {σ : MetadataPool D} {s : CloudStore} {d d' : D}
    {q : metadataClients.Party} {spoiler : Option D} {v : Nat}
    (h : MetadataPool.Written
      { shared := s, party := Function.update σ.party d q, spoiler := spoiler } v d') :
    (d' = d ∧ ∃ n t m, q = .busy n (.ret (t, .pushed m v (.ok ())))) ∨
      (d' ≠ d ∧ σ.Written v d') := by
  rcases h with ⟨n, t, m, hbusy⟩
  by_cases hd : d' = d
  · left
    rw [hd] at hbusy
    have hq : q = .busy n (.ret (t, .pushed m v (.ok ()))) := by
      rw [← hbusy]
      exact (Function.update_self d q σ.party).symm
    exact ⟨hd, n, t, m, hq⟩
  · right
    have hold : σ.party d' = .busy n (.ret (t, .pushed m v (.ok ()))) := by
      rw [← hbusy]
      exact (Function.update_of_ne hd q σ.party).symm
    exact ⟨hd, n, t, m, hold⟩

/-- A step that reports no success and lets nobody write keeps the count. -/
theorem Counted.quiet {done : List (MetadataStep D)} {σ σ' : MetadataPool D} {v : Nat}
    {e : MetadataStep D} (h : Counted done σ v) (hlabel : e.pushedAt v = false)
    (hwritten : ∀ d, MetadataPool.Written σ' v d → σ.Written v d)
    (hnewer : Newer σ.shared σ'.shared) : Counted (done ++ [e]) σ' v := by
  have hcount : (done ++ [e]).countP (MetadataStep.pushedAt v) =
      done.countP (MetadataStep.pushedAt v) := by
    rw [List.countP_append, List.countP_singleton, hlabel]
    rfl
  have hle : metadataVersionOf σ.shared.metadata ≤ metadataVersionOf σ'.shared.metadata := by
    rcases hnewer with hsame | hlt
    · rw [hsame]
    · exact le_of_lt hlt
  refine ⟨?_, ?_, ?_, ?_⟩
  · intro d d' hd hd'
    exact h.unique d d' (hwritten d hd) (hwritten d' hd')
  · intro d hd
    exact lt_of_lt_of_le (h.passed d (hwritten d hd)) hle
  · rw [hcount]
    exact h.once
  · rw [hcount]
    intro hpos
    have hover := h.ahead hpos
    exact ⟨lt_of_lt_of_le hover.1 hle, fun d hd => hover.2 d (hwritten d hd)⟩

/-- The write that makes a push a success: it replaces the expected version, so nobody has
succeeded before. -/
theorem Counted.lands {done : List (MetadataStep D)} {σ σ' : MetadataPool D} {v : Nat}
    {e : MetadataStep D} (h : Counted done σ v) (d : D) (hlabel : e.pushedAt v = false)
    (hwritten : ∀ d', MetadataPool.Written σ' v d' → d' = d ∨ σ.Written v d')
    (hexpected : metadataVersionOf σ.shared.metadata = v)
    (hnewer : v < metadataVersionOf σ'.shared.metadata) : Counted (done ++ [e]) σ' v := by
  have hnobody : ∀ d', ¬ σ.Written v d' := by
    intro d' hd'
    have hpassed := h.passed d' hd'
    omega
  have hzero : done.countP (MetadataStep.pushedAt v) = 0 := by
    by_contra hne
    have hover := (h.ahead (Nat.pos_of_ne_zero hne)).1
    omega
  have hcount : (done ++ [e]).countP (MetadataStep.pushedAt v) = 0 := by
    rw [List.countP_append, hzero, List.countP_singleton, hlabel]
    rfl
  have honly : ∀ d', MetadataPool.Written σ' v d' → d' = d := fun d' hd' =>
    (hwritten d' hd').resolve_right (hnobody d')
  refine ⟨?_, fun _ _ => hnewer, ?_, ?_⟩
  · intro d₁ d₂ h₁ h₂
    rw [honly d₁ h₁, honly d₂ h₂]
  · rw [hcount]
    exact Nat.zero_le 1
  · rw [hcount]
    intro hpos
    exact absurd hpos (lt_irrefl 0)

/-- The report of the success, by the one device that has written. -/
theorem Counted.reports {done : List (MetadataStep D)} {σ σ' : MetadataPool D} {v : Nat}
    {e : MetadataStep D} {d : D} (h : Counted done σ v) (hlabel : e.pushedAt v = true)
    (hwritten : σ.Written v d)
    (hothers : ∀ d', MetadataPool.Written σ' v d' → d' ≠ d ∧ σ.Written v d')
    (hshared : σ'.shared = σ.shared) : Counted (done ++ [e]) σ' v := by
  have hnobody : ∀ d', ¬ MetadataPool.Written σ' v d' := by
    intro d' hd'
    have hother := hothers d' hd'
    exact hother.1 (h.unique d' d hother.2 hwritten)
  have hzero : done.countP (MetadataStep.pushedAt v) = 0 := by
    by_contra hne
    exact (h.ahead (Nat.pos_of_ne_zero hne)).2 d hwritten
  have hcount : (done ++ [e]).countP (MetadataStep.pushedAt v) = 1 := by
    rw [List.countP_append, hzero, List.countP_singleton, hlabel]
    rfl
  refine ⟨fun d₁ _ h₁ _ => absurd h₁ (hnobody d₁), fun d' hd' => absurd hd' (hnobody d'),
    ?_, fun _ => ⟨?_, hnobody⟩⟩
  · rw [hcount]
  · rw [hshared]
    exact h.passed d hwritten

/-- Step lemma: an unbroken step keeps the invariant. -/
theorem SwapInv.step [DecidableEq D] {done : List (MetadataStep D)} {e : MetadataStep D}
    (hinv : SwapInv done e.source) (hunbroken : e.Unbroken)
    (hstep : metadataStep e.source e.label e.target) : SwapInv (done ++ [e]) e.target := by
  rcases e with ⟨σ, label, σ'⟩
  replace hstep : Machine.Pool.step storageEnv (fun _ => True) σ label σ' := hstep
  have hparties := hinv.parties
  cases hstep with
  | begin d i t h henabled =>
      have hclient : ClientOk done σ.shared d t := by
        have hparty := hparties d
        simp only [h] at hparty
        cases hparty with
        | idle t h => exact h
      have hnewer : Newer σ.shared σ.shared := Or.inl rfl
      refine ⟨parties_update hparties hnewer (.started t i _ (hclient.mono hnewer) henabled rfl),
        fun v => (hinv.counted v).quiet rfl ?_ hnewer⟩
      intro d' hwritten
      rcases written_update hwritten with ⟨-, n, t', m, hbusy⟩ | ⟨-, hold⟩
      -- a turn starts with a read
      · injection hbusy with _ hturn
        exact absurd hturn (turn_ne_ret t i _)
      · exact hold
  | op d n c x k s' spoiler h hop hgood hspoilt =>
      have hparty := hparties d
      simp only [h] at hparty
      have hread : ∀ m, StorageOp.answered c x = (StorageOp.writeMetadata m).answered (.ok ()) →
          n = some σ.shared.metadata := by
        intro m heq
        rcases hunbroken d m (congrArg (Machine.Label.op d) heq) with ⟨p, hbusy⟩
        replace hbusy : σ.party d = .busy (some σ.shared.metadata) p := hbusy
        rw [h] at hbusy
        injection hbusy
      have heffect := PartyOk.op hparty hop hread
      refine ⟨parties_update hparties heffect.newer (heffect.party _), fun v => ?_⟩
      -- the write that ends a successful push, or any other operation
      by_cases hsuccess : ∃ t m, k x = .ret (t, .pushed m v (.ok ()))
      · rcases hsuccess with ⟨t, m, hret⟩
        have hversions := heffect.succeeds t m v hret
        refine (hinv.counted v).lands d rfl ?_ hversions.1 hversions.2
        intro d' hwritten
        rcases written_update hwritten with ⟨heq, -⟩ | ⟨-, hold⟩
        · exact Or.inl heq
        · exact Or.inr hold
      · refine (hinv.counted v).quiet rfl ?_ heffect.newer
        intro d' hwritten
        rcases written_update hwritten with ⟨-, n', t, m, hbusy⟩ | ⟨-, hold⟩
        · injection hbusy with _ hret
          exact absurd ⟨t, m, hret⟩ hsuccess
        · exact hold
  | finish d n t o h =>
      have hparty := hparties d
      simp only [h] at hparty
      have hnewer : Newer σ.shared σ.shared := Or.inl rfl
      have hclient : ∀ e : MetadataStep D, e.label = .finish d o →
          ClientOk (done ++ [e]) σ.shared d t := fun e hlabel => hparty.finish hlabel
      refine ⟨parties_update hparties hnewer (.idle t (hclient _ rfl)), fun v => ?_⟩
      have hothers : ∀ d', MetadataPool.Written
          { σ with party := Function.update σ.party d (.idle t) } v d' →
          d' ≠ d ∧ σ.Written v d' := by
        intro d' hwritten
        rcases written_update hwritten with ⟨-, n', t', m, hbusy⟩ | hold
        · cases hbusy
        · exact hold
      by_cases hreport : ∃ m, o = .pushed m v (.ok ())
      · rcases hreport with ⟨m, ho⟩
        rw [ho] at h
        have hpushed : ∀ e : MetadataStep D, e.label = .finish d o → e.pushedAt v = true := by
          intro e hlabel
          simp [MetadataStep.pushedAt, hlabel, ho]
        exact (hinv.counted v).reports (hpushed _ rfl) ⟨n, t, m, h⟩ hothers rfl
      · have hquiet : ∀ e : MetadataStep D, e.label = .finish d o → e.pushedAt v = false := by
          intro e hlabel
          cases htrue : e.pushedAt v with
          | false => rfl
          | true => exact absurd (reply_of_pushedAt hlabel htrue) hreport
        exact (hinv.counted v).quiet (hquiet _ rfl) (fun d' hwritten => (hothers d' hwritten).2)
          hnewer

/-- Run lemma: the invariant holds after every part of an unbroken run. -/
theorem swapInv_of_run [DecidableEq D] {s : CloudStore} {σ : MetadataPool D}
    {es : List (MetadataStep D)} (hrun : Run metadataStep (MetadataPool.initial s) es σ)
    (hunbroken : ∀ e ∈ es, MetadataStep.Unbroken e) : SwapInv es σ := by
  have hhistory := hrun.history
    (P := fun done σ => (∀ e ∈ done, MetadataStep.Unbroken e) → SwapInv done σ)
    (fun _ => swapInv_initial s) ?_
  · exact hhistory hunbroken
  · intro done e hstep hinv hall
    have hdone : ∀ e ∈ done, MetadataStep.Unbroken e :=
      fun e' he' => hall e' (List.mem_append_left _ he')
    exact (hinv hdone).step (hall e (List.mem_append_right _ (List.mem_singleton_self e))) hstep

/-- In every interleaving in which each successful write replaces what its push has read, at
most one of the pushes with one expected version succeeds, and none drops an entry that its
author had not downloaded. -/
theorem metadata_swap_safe [DecidableEq D] {s : CloudStore} {σ : MetadataPool D}
    {es : List (MetadataStep D)} (hrun : Run metadataStep (MetadataPool.initial s) es σ)
    (hunbroken : ∀ e ∈ es, MetadataStep.Unbroken e) : SucceedsOnce es ∧ DropsOnlySeen es := by
  constructor
  · intro v
    exact ((swapInv_of_run hrun hunbroken).counted v).once
  · intro done e rest d m hes hlabel id info hentry _
    rw [hes] at hrun hunbroken
    have hcut := hrun.of_append
    -- the author had downloaded what it read, and that is what it replaces
    have hinv := swapInv_of_run hcut.1 fun e' he' => hunbroken e' (List.mem_append_left _ he')
    have hwrite := hunbroken e (List.mem_append_right _ List.mem_cons_self)
    rcases e with ⟨σ₁, label, σ₂⟩
    replace hlabel : label = .op d ((StorageOp.writeMetadata m).answered (.ok ())) := hlabel
    have hstep : Machine.Pool.step storageEnv (fun _ => True) σ₁ label σ₂ := hcut.2
    rw [hlabel] at hstep
    cases hstep with
    | op _ n _ _ k s' spoiler h hop hgood hspoilt =>
        have hparty := hinv.parties d
        simp only [h] at hparty
        have hseen := (PartyOk.op hparty hop ?_).seen m rfl
        · rcases hseen with ⟨e', he', hreport⟩
          rcases Option.bind_eq_some_iff.mp hentry with ⟨stored, hstored, hlookup⟩
          replace hstored : σ₁.shared.metadata = some stored := hstored
          rw [hstored] at hreport
          exact ⟨e', he', stored, hreport, hlookup⟩
        · intro m' _
          rcases hwrite d m hlabel with ⟨p, hbusy⟩
          replace hbusy : σ₁.party d = .busy (some σ₁.shared.metadata) p := hbusy
          rw [h] at hbusy
          injection hbusy

end

/-! ### Two devices and an empty cloud -/

section

attribute [local instance] Sample.codec Sample.serde

namespace MetadataPool

/-- The steps that two devices take on an empty cloud when they move in a given order. -/
def emptyPlay (moves : List (metadataClients.Move Bool)) : List (MetadataStep Bool) :=
  (MetadataPool.initial CloudStore.empty : MetadataPool Bool).play
    (CloudStore.serve Sample.instant) (fun _ => True) moves

theorem emptyPlay_run (moves : List (metadataClients.Move Bool)) :
    ∃ σ, Run metadataStep (MetadataPool.initial CloudStore.empty) (emptyPlay moves) σ :=
  ⟨_, Machine.Pool.run_play (CloudStore.serve_storageStep Sample.instant) moves _⟩

def download (d : Bool) : List (metadataClients.Move Bool) :=
  [.begin d .download, .next d, .next d]

/-- The first metadata of a device that knows of none: a fresh document has version 1, and the
push counts it up. -/
def firstPush (d : Bool) (checksum : String) : metadataClients.Move Bool :=
  .begin d (.push (Sample.metadata 2 (Sample.info 1 checksum)) 0)

def secondPush (d : Bool) (checksum : String) : metadataClients.Move Bool :=
  .begin d (.push (Sample.metadata 3 (Sample.info 2 checksum)) 2)

/-- One device after the other: the push of the second finds version 2, so it downloads that and
pushes the next. -/
def inTurn : List (metadataClients.Move Bool) :=
  download false ++ download true ++
    [firstPush false "one", .next false, .next false, .next false,
      firstPush true "two", .next true, .next true] ++
    download true ++ [secondPush true "two", .next true, .next true, .next true]

/-- Both pushes read before one of them writes. -/
def atOnce : List (metadataClients.Move Bool) :=
  download false ++ download true ++
    [firstPush false "one", firstPush true "two", .next false, .next true,
      .next false, .next true, .next false, .next true]

/-- The rule at three pushes one after the other, of which two succeed. -/
theorem metadata_swap_safe_inTurn :
    SucceedsOnce (emptyPlay inTurn) ∧ DropsOnlySeen (emptyPlay inTurn) := by
  rcases emptyPlay_run inTurn with ⟨σ, hrun⟩
  have hunbroken : ∀ e ∈ emptyPlay inTurn, MetadataStep.unbroken e = true := by
    decide +kernel
  exact metadata_swap_safe hrun fun e he => .of_unbroken (hunbroken e he)

/-- Two pushes that overlap both succeed. -/
theorem overlapping_pushes_succeed :
    ¬ ∀ (s : CloudStore) (es : List (MetadataStep Bool)) (σ : MetadataPool Bool),
      Run metadataStep (MetadataPool.initial s) es σ → SucceedsOnce es ∧ DropsOnlySeen es := by
  intro hall
  rcases emptyPlay_run atOnce with ⟨σ, hrun⟩
  have honce := (hall _ _ _ hrun).1 0
  revert honce
  decide +kernel

end MetadataPool

end

end OakKeyring
