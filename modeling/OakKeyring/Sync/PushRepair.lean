import OakKeyring.Sync.TaskSpec
import OakKeyring.Sync.PipelineSpec
import OakKeyring.Lib.Checks
import OakKeyring.Lib.Pool

/-!
# A push that goes through repairs the metadata

A record file and its metadata entry are written by different operations, so between the two
the entry describes a file that is no longer there. The rest of a push enters every uploaded
file, provided the storage is calm and nobody else writes.
-/

namespace OakKeyring

open Effect Transition

section

variable [Codec] [Serde]

/-- The entry says of the record what readers check. -/
structure Describes (info : RecordVersionInfo) (r : CloudRecord) : Prop where
  version : r.version = info.version
  checksum : r.computeChecksum = .ok info.checksum
  privateChecksum : r.computePrivateMetadataChecksum = .ok info.privateMetadataChecksum

/-- The file of a record is there and is what the entry describes. -/
def CloudStore.Holds (s : CloudStore) (id : String) (info : RecordVersionInfo) : Prop :=
  ∃ r, s.records id = some r ∧ Describes info r

/-- Every metadata entry describes the stored record file. -/
def CloudStore.Consistent (s : CloudStore) : Prop :=
  ∀ id info, s.entry id = some info → s.Holds id info

instance (info : RecordVersionInfo) (r : CloudRecord) : Decidable (Describes info r) :=
  decidable_of_iff (r.version = info.version ∧ r.computeChecksum = .ok info.checksum ∧
      r.computePrivateMetadataChecksum = .ok info.privateMetadataChecksum)
    ⟨fun h => ⟨h.1, h.2.1, h.2.2⟩, fun h => ⟨h.version, h.checksum, h.privateChecksum⟩⟩

instance (s : CloudStore) (id : String) (info : RecordVersionInfo) :
    Decidable (s.Holds id info) :=
  decidable_of_iff (∃ r ∈ s.records id, Describes info r) Iff.rfl

/-- The entries are finitely many, so they can be looked at one by one. -/
theorem CloudStore.consistent_iff (s : CloudStore) :
    s.Consistent ↔ ∀ m ∈ s.metadata, ∀ e ∈ m.records.entries, s.Holds e.1 e.2 := by
  constructor
  · intro h m hm e he
    apply h e.1 e.2
    unfold CloudStore.entry
    rw [hm]
    exact AList.mem_lookup_iff.mpr he
  · intro h id info hentry
    rcases Option.bind_eq_some_iff.mp hentry with ⟨m, hm, hlookup⟩
    exact h m hm ⟨id, info⟩ (AList.mem_lookup_iff.mp hlookup)

instance : DecidablePred CloudStore.Consistent := fun s => decidable_of_iff _ s.consistent_iff.symm

/-- A record that can be uploaded and described: valid, with checksums that can be computed. -/
structure CloudRecord.Sound (r : CloudRecord) : Prop where
  valid : r.validate = .ok ()
  checksum : ∃ c, r.computeChecksum = .ok c
  privateChecksum : ∃ c, r.computePrivateMetadataChecksum = .ok c

/-- What the executor promises of the vault data it hands over. -/
structure SyncVaultData.WellBuilt (data : SyncVaultData) : Prop where
  ids : (data.uploads.map CloudRecord.id).Nodup
  sound : ∀ r ∈ data.uploads, r.Sound

instance : DecidablePred CloudRecord.Sound := fun r =>
  decidable_of_iff (r.validate = .ok () ∧ (∃ c, r.computeChecksum = .ok c) ∧
      ∃ c, r.computePrivateMetadataChecksum = .ok c)
    ⟨fun h => ⟨h.1, h.2.1, h.2.2⟩, fun h => ⟨h.valid, h.checksum, h.privateChecksum⟩⟩

instance : DecidablePred SyncVaultData.WellBuilt := fun data =>
  decidable_of_iff ((data.uploads.map CloudRecord.id).Nodup ∧ ∀ r ∈ data.uploads, r.Sound)
    ⟨fun h => ⟨h.1, h.2⟩, fun h => ⟨h.ids, h.sound⟩⟩

namespace PushStage

theorem describes_uploadedInfo {now : DateTime} {r : CloudRecord} {info : RecordVersionInfo}
    (h : uploadedInfo now r = .ok info) : Describes info r := by
  unfold uploadedInfo at h
  cases hchecksum : computeChecksum r.encryptedData with
  | error e =>
      rw [hchecksum] at h
      cases h
  | ok checksum =>
      cases hprivate : r.computePrivateMetadataChecksum with
      | error e =>
          rw [hchecksum, hprivate] at h
          cases h
      | ok privateChecksum =>
          rw [hchecksum, hprivate] at h
          cases h
          exact ⟨rfl, hchecksum, hprivate⟩

theorem uploadedInfo_of_sound (now : DateTime) {r : CloudRecord} (h : r.Sound) :
    ∃ info, uploadedInfo now r = .ok info := by
  rcases h.checksum with ⟨c, hc⟩
  rcases h.privateChecksum with ⟨p, hp⟩
  have hchecksum : computeChecksum r.encryptedData = .ok c := hc
  unfold uploadedInfo
  rw [hchecksum, hp]
  exact ⟨_, rfl⟩

/-- A sound record that is read back as it was written passes the checks. -/
theorem checkUploaded_self {r : CloudRecord} (h : r.Sound) : checkUploaded r r = .ok () := by
  rcases h.checksum with ⟨c, hc⟩
  rcases h.privateChecksum with ⟨p, hp⟩
  unfold checkUploaded
  rw [h.valid, hc, hp]
  simp [bind, Except.bind, pure, Except.pure]

end PushStage

/-! ## Turns of the sync task and their notes -/

/-- What a turn has pulled and which record files it has written. -/
structure PushNote where
  pulled : Option (Option CloudMetadata)
  written : List (String × CloudRecord)

/-- The first readable metadata of a turn is what it works with; accepted uploads are noted. -/
def PushNote.add (n : PushNote) : (op : StorageOp) → op.Answer → PushNote
  | .readMetadata, read =>
      match n.pulled with
      | some _ => n
      | none => { n with pulled := (CloudStorage.metadataOfRead read).toOption }
  | .writeRecord id r, answer =>
      match answer with
      | .ok () => { n with written := n.written ++ [(id, r)] }
      | .error _ => n
  | _, _ => n

/-- The sync tasks of the devices; a turn handles one command or the retry timer. -/
def syncMachine : Machine StorageI where
  State := SyncTask
  Input := TaskInput
  Out := List SyncEvent
  Note := PushNote
  enabled t i := t.state ≠ .ShuttingDown ∧ (i = .timer → t.nextRetry = true)
  turn t i :=
    match i with
    | .command c => t.handleCommand c
    | .timer => t.handleTimer
  start :=
    { pulled := none
      written := [] }
  note n e := n.add e.call e.answer

/-! ## Calm storage -/

/-- Operations that do not write. -/
def StorageOp.IsRead : StorageOp → Prop
  | .writeMetadata _ => False
  | .writeRecord _ _ => False
  | _ => True

/-- Operations that neither write nor read the metadata. -/
def StorageOp.IsAside : StorageOp → Prop
  | .listRecords => True
  | .readRecord _ => True
  | .now => True
  | _ => False

/-- Nobody writes the metadata or replaces a record file. -/
structure CloudStore.Undisturbed (s u : CloudStore) : Prop where
  metadata : u.metadata = s.metadata
  records : ∀ id r, s.records id = some r → u.records id = some r

/-- The answers a push depends on are no faults: those about the metadata, and the reads of
the record files it has written. -/
def PushNote.Calm (n : PushNote) : (op : StorageOp) → op.Answer → Prop
  | .readMetadata, answer => ∀ e, answer = .error e → ¬ e.IsFault
  | .writeMetadata _, answer => answer = .ok ()
  | .readRecord id, answer =>
      (∃ p ∈ n.written, p.1 = id) → ∀ e, answer = .error e → ¬ e.IsFault
  | _, _ => True

instance StorageOp.decidableIsRead : DecidablePred StorageOp.IsRead
  | .writeMetadata _ => isFalse id
  | .writeRecord _ _ => isFalse id
  | .listRecords => isTrue trivial
  | .readMetadata => isTrue trivial
  | .readRecord _ => isTrue trivial
  | .now => isTrue trivial

instance : DecidablePred SyncError.IsFault
  | .RecordNotFound _ => isFalse id
  | .NetworkTimeout _ | .NetworkUnreachable _ | .ConnectionRefused _ => isTrue trivial
  | .AuthenticationFailed _ | .TokenExpired | .PermissionDenied _ => isTrue trivial
  | .ChecksumMismatch .. | .AadInconsistent .. | .VaultIdentityMismatch .. => isTrue trivial
  | .SerializationFailed _ | .DeserializationFailed _ => isTrue trivial
  | .InvalidStateTransition .. | .MetadataVersionConflict .. | .Cancelled _ => isTrue trivial
  | .LockAcquireFailed _ | .LockReleaseFailed _ | .QuotaExceeded _ => isTrue trivial
  | .ProviderNotSupported _ | .ProviderError .. | .ConfigValidationFailed .. => isTrue trivial

instance (n : PushNote) (op : StorageOp) (answer : op.Answer) : Decidable (n.Calm op answer) :=
  match op, answer with
  | .readMetadata, .ok _ => isTrue fun _ h => nomatch h
  | .readMetadata, .error e =>
      decidable_of_iff (¬ e.IsFault)
        ⟨fun h _ heq => Except.error.inj heq ▸ h, fun h => h e rfl⟩
  | .writeMetadata _, .ok () => isTrue rfl
  | .writeMetadata _, .error _ => isFalse fun h => nomatch h
  | .readRecord _, .ok _ => isTrue fun _ _ h => nomatch h
  | .readRecord id, .error e =>
      decidable_of_iff ((∃ p ∈ n.written, p.1 = id) → ¬ e.IsFault)
        ⟨fun h hwritten _ heq => Except.error.inj heq ▸ h hwritten, fun h hwritten => h hwritten e rfl⟩
  | .listRecords, _ => isTrue trivial
  | .writeRecord _ _, _ => isTrue trivial
  | .now, _ => isTrue trivial

/-- A calm operation, after whatever others did without disturbing. -/
def calmEnv (n : PushNote) : Env StorageI CloudStore :=
  fun s op answer s' => ∃ u, s.Undisturbed u ∧ StorageStep u op answer s' ∧ n.Calm op answer

section

omit [Codec] [Serde]

theorem StorageOp.IsAside.isRead {op : StorageOp} (h : op.IsAside) : op.IsRead := by
  cases op with
  | writeMetadata m => exact h
  | writeRecord id r => exact h
  | _ => trivial

theorem StorageStep.eq_of_isRead {s s' : CloudStore} (op : StorageOp) {answer : op.Answer}
    (h : StorageStep s op answer s') (hread : op.IsRead) : s' = s := by
  cases h with
  | writeMetadata => exact absurd hread id
  | writeMetadataFault => exact absurd hread id
  | writeRecord => exact absurd hread id
  | writeRecordFault => exact absurd hread id
  | _ => rfl

theorem CloudStore.Undisturbed.refl (s : CloudStore) : s.Undisturbed s :=
  ⟨rfl, fun _ _ h => h⟩

theorem CloudStore.Undisturbed.trans {s u v : CloudStore} (h : s.Undisturbed u)
    (h' : u.Undisturbed v) : s.Undisturbed v :=
  ⟨h'.metadata.trans h.metadata, fun id r hr => h'.records id r (h.records id r hr)⟩

theorem calmEnv_absorb (n : PushNote) (s u : CloudStore) (op : StorageOp) (answer : op.Answer)
    (s' : CloudStore) (hu : s.Undisturbed u) (h : calmEnv n u op answer s') :
    calmEnv n s op answer s' := by
  rcases h with ⟨v, hv, hstep⟩
  exact ⟨v, hu.trans hv, hstep⟩

end

/-- The environment of the rest of a push. -/
abbrev restEnv : Env StorageI (PushNote × CloudStore) :=
  syncMachine.noted calmEnv

variable {n : PushNote} {s : CloudStore} {q : PushNote × CloudStore}

/-- A read leaves the note, and finds the store undisturbed at most. -/
theorem restEnv_read (op : StorageOp) {answer : op.Answer} (hread : op.IsRead)
    (hpulled : n.pulled.isSome = true) (h : restEnv (n, s) op answer q) :
    q.1 = n ∧ s.Undisturbed q.2 := by
  rcases h with ⟨hnote, u, hu, hstep, -⟩
  constructor
  · rw [hnote]
    rcases Option.isSome_iff_exists.mp hpulled with ⟨m?, hm⟩
    cases op with
    | writeMetadata m => exact absurd hread id
    | writeRecord id r => exact absurd hread fun h => h
    | readMetadata => simp [syncMachine, PushNote.add, hm]
    | _ => rfl
  · have hsame : q.2 = u := hstep.eq_of_isRead _ hread
    rw [hsame]
    exact hu

/-- A record file the push has written is read back as it was written. -/
theorem restEnv_readRecord {id : String} {r : CloudRecord}
    {answer : Except SyncError CloudRecord} (hwritten : (id, r) ∈ n.written)
    (hr : s.records id = some r) (h : restEnv (n, s) (.readRecord id) answer q) :
    answer = .ok r ∧ q.1 = n ∧ s.Undisturbed q.2 := by
  rcases h with ⟨hnote, u, hu, hstep, hcalm⟩
  have hsame : q.2 = u := hstep.eq_of_isRead _ trivial
  refine ⟨?_, hnote, by rw [hsame]; exact hu⟩
  have hr' : u.records id = some r := hu.records id r hr
  rw [hsame] at hstep
  cases hstep with
  | readRecord _ r' h =>
      rw [hr'] at h
      cases h
      rfl
  | noRecord _ hnone =>
      rw [hr'] at hnone
      cases hnone
  | readRecordFault _ e he => exact absurd he (hcalm ⟨_, hwritten, rfl⟩ e rfl)

/-- Valid metadata is read as it is stored. -/
theorem restEnv_readMetadata {answer : Except SyncError CloudMetadata}
    (hvalid : ∀ m, s.metadata = some m → m.validate = .ok ())
    (hpulled : n.pulled.isSome = true) (h : restEnv (n, s) .readMetadata answer q) :
    CloudStorage.metadataOfRead answer = .ok s.metadata ∧ q.1 = n ∧ s.Undisturbed q.2 := by
  have hread := restEnv_read .readMetadata trivial hpulled h
  refine ⟨?_, hread⟩
  rcases h with ⟨-, u, hu, hstep, hcalm⟩
  have hsame : q.2 = u := hstep.eq_of_isRead _ trivial
  rw [hsame] at hstep
  rw [← hu.metadata]
  cases hstep with
  | readMetadata m hm =>
      rw [hm]
      refine (CloudStorage.metadataOfRead_eq_some_iff _ m).mpr ⟨rfl, hvalid m ?_⟩
      rw [← hu.metadata, hm]
  | noMetadata hnone =>
      rw [hnone]
      rfl
  | readMetadataFault e he => exact absurd he (hcalm e rfl)

/-- A write of a record file is accepted and noted, or it fails and nothing happens. -/
theorem restEnv_writeRecord {id : String} {r : CloudRecord} {answer : Except SyncError Unit}
    (h : restEnv (n, s) (.writeRecord id r) answer q) :
    ∃ u, s.Undisturbed u ∧
      ((answer = .ok () ∧ q = (n.add (.writeRecord id r) (.ok ()), u.putRecord id r)) ∨
        ∃ e, answer = .error e ∧ q = (n, u)) := by
  rcases q with ⟨n', s'⟩
  rcases h with ⟨hnote, u, hu, hstep, -⟩
  replace hnote : n' = n.add (.writeRecord id r) answer := hnote
  refine ⟨u, hu, ?_⟩
  cases hstep with
  | writeRecord =>
      rw [hnote]
      exact Or.inl ⟨rfl, rfl⟩
  | writeRecordFault _ _ e =>
      rw [hnote]
      exact Or.inr ⟨e, rfl, rfl⟩

theorem restEnv_writeMetadata {m : CloudMetadata} {answer : Except SyncError Unit}
    (h : restEnv (n, s) (.writeMetadata m) answer q) :
    answer = .ok () ∧ ∃ u, s.Undisturbed u ∧ q.2 = u.putMetadata m := by
  rcases q with ⟨n', s'⟩
  rcases h with ⟨-, u, hu, hstep, hcalm⟩
  cases hstep with
  | writeMetadata => exact ⟨rfl, u, hu, rfl⟩
  | writeMetadataFault _ e => cases hcalm

/-- A program of reads ends where it started, undisturbed. -/
theorem wp_of_reads {α : Type} {p : Cloud α} {Q : α → PushNote × CloudStore → Prop}
    (hcalls : p.CallsOnly StorageOp.IsRead) (hpulled : n.pulled.isSome = true)
    (hQ : ∀ t a u, s.Undisturbed u → p.Returns t a → Q a (n, u)) :
    wp restEnv Q p (n, s) := by
  induction p generalizing s with
  | ret a => exact hQ [] a s (CloudStore.Undisturbed.refl s) ⟨rfl, rfl⟩
  | call c k ih =>
      intro x q hstep
      rcases q with ⟨n', s'⟩
      rcases restEnv_read c hcalls.1 hpulled hstep with ⟨rfl, hu⟩
      refine ih x (hcalls.2 x) ?_
      intro t a u hu' hret
      exact hQ (⟨c, x⟩ :: t) a u (hu.trans hu') ⟨x, t, rfl, hret⟩

/-! ## The metadata of a push -/

/-- The entries of the entered metadata: made for an uploaded record, or of the base. -/
def EntersUploads (now : DateTime) (uploaded : List CloudRecord) (base m : CloudMetadata) : Prop :=
  ∀ id info, m.records.lookup id = some info →
    (∃ r ∈ uploaded, r.id = id ∧ PushStage.uploadedInfo now r = .ok info) ∨
      (base.records.lookup id = some info ∧ ∀ r ∈ uploaded, r.id ≠ id)

theorem entersUploads_cons {now : DateTime} {r : CloudRecord} {rest : List CloudRecord}
    {base m : CloudMetadata} {info : RecordVersionInfo}
    (hinfo : PushStage.uploadedInfo now r = .ok info)
    (h : EntersUploads now rest (base.upsertRecord r.id info) m) :
    EntersUploads now (r :: rest) base m := by
  intro id i hi
  rcases h id i hi with ⟨r', hr', hid, hmade⟩ | ⟨hbase, hother⟩
  · exact Or.inl ⟨r', List.mem_cons_of_mem _ hr', hid, hmade⟩
  · by_cases hid : r.id = id
    · subst hid
      rw [CloudMetadata.records_upsertRecord, AList.lookup_insert] at hbase
      cases hbase
      exact Or.inl ⟨r, List.mem_cons_self, rfl, hinfo⟩
    · right
      rw [CloudMetadata.records_upsertRecord, AList.lookup_insert_ne (Ne.symm hid)] at hbase
      refine ⟨hbase, ?_⟩
      intro r' hr'
      rcases List.mem_cons.mp hr' with rfl | hr'
      · exact hid
      · exact hother r' hr'

namespace PushStage

/-- Whatever the reads answer, metadata that comes out has the uploads entered. -/
theorem returns_enterUploads {now : DateTime} {uploaded : List CloudRecord}
    {base m : CloudMetadata} {tr : StorageTrace}
    (h : (enterUploads now uploaded base).Returns tr (.ok m)) :
    EntersUploads now uploaded base m := by
  induction uploaded generalizing base tr with
  | nil =>
      rcases h with ⟨-, hm⟩
      cases hm
      intro id info hinfo
      exact Or.inr ⟨hinfo, by simp⟩
  | cons r rest ih =>
      unfold enterUploads at h
      rw [Prog.returns_bind] at h
      rcases h with ⟨t₁, t₂, verified, rfl, -, h⟩
      cases verified with
      | error e => cases h.2
      | ok u =>
          cases hinfo : uploadedInfo now r with
          | error e =>
              simp only [hinfo] at h
              cases h.2
          | ok info =>
              simp only [hinfo] at h
              exact entersUploads_cons hinfo (ih h)

omit [Codec] [Serde] in
theorem callsOnly_downloadRecord (id : String) :
    (CloudStorage.downloadRecord id).CallsOnly StorageOp.IsAside :=
  ⟨trivial, fun _ => trivial⟩

theorem callsOnly_verifyUploadedRecord (r : CloudRecord) :
    (verifyUploadedRecord r).CallsOnly StorageOp.IsAside := by
  unfold verifyUploadedRecord
  refine (callsOnly_downloadRecord r.id).bind fun read => ?_
  rcases read with e | _ | r' <;> trivial

theorem callsOnly_enterUploads (now : DateTime) (uploaded : List CloudRecord)
    (base : CloudMetadata) : (enterUploads now uploaded base).CallsOnly StorageOp.IsAside := by
  induction uploaded generalizing base with
  | nil => trivial
  | cons r rest ih =>
      unfold enterUploads
      refine (callsOnly_verifyUploadedRecord r).bind fun verified => ?_
      cases verified with
      | error e => trivial
      | ok u =>
          cases uploadedInfo now r with
          | error e => trivial
          | ok info => exact ih _

end PushStage

/-! ## The rest of a push -/

/-- The note of a turn that is at its uploads with this context. -/
structure Noted (n : PushNote) (ctx : PipelineContext) : Prop where
  valid : ∀ m, ctx.remoteMetadata = some m → m.validate = .ok ()
  pulled : n.pulled = some ctx.remoteMetadata
  ids : (ctx.uploads.map CloudRecord.id).Nodup
  sound : ∀ r ∈ ctx.uploads, r.Sound
  written : ∀ r ∈ ctx.uploads, r.id ∈ ctx.uploadedIds → (r.id, r) ∈ n.written
  made : ∀ p ∈ n.written, p.2 ∈ ctx.uploads ∧ p.2.id = p.1 ∧ p.1 ∈ ctx.uploadedIds

/-- The record files of the turn are as it wrote them. -/
def PushNote.Intact (n : PushNote) (s : CloudStore) : Prop :=
  ∀ p ∈ n.written, s.records p.1 = some p.2

/-- A state in which the rest of a push mends the metadata: it is the pulled one, the files
written are in place, and the entries of other records describe theirs. -/
structure InPush (n : PushNote) (s : CloudStore) : Prop where
  current : n.pulled = some s.metadata
  intact : n.Intact s
  rest : ∀ id info, s.entry id = some info → (∀ p ∈ n.written, p.1 ≠ id) → s.Holds id info

theorem InPush.undisturbed {u : CloudStore} (h : InPush n s) (hu : s.Undisturbed u) :
    InPush n u where
  current := by
    rw [hu.metadata]
    exact h.current
  intact := by
    intro p hp
    exact hu.records p.1 p.2 (h.intact p hp)
  rest := by
    intro id info hentry hother
    have hentry' : s.entry id = some info := by
      unfold CloudStore.entry at hentry ⊢
      rw [← hu.metadata]
      exact hentry
    rcases h.rest id info hentry' hother with ⟨r, hr, hdescribes⟩
    exact ⟨r, hu.records id r hr, hdescribes⟩

/-- One more accepted upload, of a record not uploaded before. -/
theorem InPush.upload {id : String} {r : CloudRecord} (h : InPush n s)
    (hnew : ∀ p ∈ n.written, p.1 ≠ id) :
    InPush (n.add (.writeRecord id r) (.ok ())) (s.putRecord id r) where
  current := h.current
  intact := by
    intro p hp
    rcases List.mem_append.mp hp with hp | hp
    · rw [CloudStore.records_putRecord_of_ne _ _ (hnew p hp)]
      exact h.intact p hp
    · rw [List.mem_singleton.mp hp]
      exact CloudStore.records_putRecord_self _ _ _
  rest := by
    intro id' info hentry hother
    have hne : id' ≠ id := by
      intro heq
      exact hother (id, r) (List.mem_append_right _ List.mem_cons_self) heq.symm
    have hold : ∀ p ∈ n.written, p.1 ≠ id' := fun p hp =>
      hother p (List.mem_append_left _ hp)
    rcases h.rest id' info hentry hold with ⟨r', hr', hdescribes⟩
    refine ⟨r', ?_, hdescribes⟩
    rw [CloudStore.records_putRecord_of_ne _ _ hne]
    exact hr'

theorem InPush.consistent (h : InPush n s) (hnone : n.written = []) : s.Consistent := by
  intro id info hentry
  refine h.rest id info hentry ?_
  simp [hnone]

theorem Noted.pulled_isSome {ctx : PipelineContext} (h : Noted n ctx) :
    n.pulled.isSome = true := by
  rw [h.pulled]
  rfl

/-- Without uploads nothing was written. -/
theorem Noted.written_eq_nil {ctx : PipelineContext} (h : Noted n ctx)
    (hnone : ctx.uploadedIds = []) : n.written = [] := by
  cases hwritten : n.written with
  | nil => rfl
  | cons p ps =>
      have hmade := h.made p (by simp [hwritten])
      rw [hnone] at hmade
      cases hmade.2.2

namespace PushStage

theorem noted_of_samePush {ctx ctx' : PipelineContext} (h : Noted n ctx)
    (hsame : SamePush ctx ctx') : Noted n ctx' := by
  rcases hsame with ⟨hremote, huploads, hids⟩
  rcases h with ⟨hvalid, hpulled, hnodup, hsound, hwritten, hmade⟩
  rw [← hremote] at hvalid hpulled
  rw [← huploads] at hnodup hsound
  rw [← huploads, ← hids] at hwritten hmade
  exact ⟨hvalid, hpulled, hnodup, hsound, hwritten, hmade⟩

/-- The records a push enters. -/
def entered (ctx : PipelineContext) : List CloudRecord :=
  ctx.uploads.filter fun r => ctx.uploadedIds.contains r.id

omit [Codec] [Serde] in
theorem mem_entered {ctx : PipelineContext} {r : CloudRecord} :
    r ∈ entered ctx ↔ r ∈ ctx.uploads ∧ r.id ∈ ctx.uploadedIds := by
  simp [entered]

theorem written_of_entered {ctx : PipelineContext} (h : Noted n ctx) {r : CloudRecord}
    (hr : r ∈ entered ctx) : (r.id, r) ∈ n.written :=
  h.written r (mem_entered.mp hr).1 (mem_entered.mp hr).2

theorem not_written_of_not_entered {ctx : PipelineContext} (h : Noted n ctx) {id : String}
    (hother : ∀ r ∈ entered ctx, r.id ≠ id) : ∀ p ∈ n.written, p.1 ≠ id := by
  intro p hp heq
  rcases h.made p hp with ⟨hupload, hid, hids⟩
  exact hother p.2 (mem_entered.mpr ⟨hupload, hid ▸ hids⟩) (hid.trans heq)

/-- The base a push starts from, at a given time. -/
def baseAt (ctx : PipelineContext) (now : DateTime) : CloudMetadata :=
  ctx.remoteMetadata.getD (CloudMetadata.new ctx.localVaultToken now)

omit [Serde] in
theorem lookup_baseAt {ctx : PipelineContext} {now : DateTime} {id : String}
    {info : RecordVersionInfo} (h : (baseAt ctx now).records.lookup id = some info) :
    ctx.remoteInfo id = some info := by
  unfold baseAt at h
  unfold PipelineContext.remoteInfo
  cases hremote : ctx.remoteMetadata with
  | none => simp [hremote] at h
  | some m => simpa [hremote] using h

/-- The metadata with the uploads entered describes the store, if what was pulled still
describes the files of the other records. -/
theorem consistent_putMetadata {ctx : PipelineContext} {now at₀ at₁ : DateTime}
    {m : CloudMetadata} (hnoted : Noted n ctx) (hintact : n.Intact s)
    (hpulled : ∀ id info, ctx.remoteInfo id = some info → (∀ p ∈ n.written, p.1 ≠ id) →
      s.Holds id info)
    (hm : EntersUploads now (entered ctx) (baseAt ctx at₀) m) :
    (s.putMetadata (m.incrementVersion at₁)).Consistent := by
  intro id info hentry
  have hlookup : m.records.lookup id = some info := hentry
  rcases hm id info hlookup with ⟨r, hr, rfl, hmade⟩ | ⟨hold, hother⟩
  · have hstored : s.records r.id = some r := hintact _ (written_of_entered hnoted hr)
    exact ⟨r, hstored, describes_uploadedInfo hmade⟩
  · exact hpulled id info (lookup_baseAt hold) (not_written_of_not_entered hnoted hother)

/-! ## The rest of a push goes through -/

/-- With the uploads in place, every upload is verified and entered. -/
theorem wp_enterUploads (now : DateTime) {uploaded : List CloudRecord} (base : CloudMetadata)
    (hsound : ∀ r ∈ uploaded, r.Sound) (hwritten : ∀ r ∈ uploaded, (r.id, r) ∈ n.written)
    (hs : InPush n s) :
    wp restEnv (fun result q => q.1 = n ∧ InPush n q.2 ∧ ∃ m, result = .ok m ∧
      EntersUploads now uploaded base m) (enterUploads now uploaded base) (n, s) := by
  induction uploaded generalizing base s with
  | nil =>
      refine ⟨rfl, hs, base, rfl, ?_⟩
      intro id info hinfo
      exact Or.inr ⟨hinfo, by simp⟩
  | cons r rest ih =>
      have hr : r.Sound := hsound r List.mem_cons_self
      have hnote : (r.id, r) ∈ n.written := hwritten r List.mem_cons_self
      unfold enterUploads
      rw [wp_bind]
      -- the file read back is the one uploaded, so the checks pass
      have hverify : wp restEnv (fun result q => result = .ok () ∧ q.1 = n ∧ InPush n q.2)
          (verifyUploadedRecord r) (n, s) := by
        unfold verifyUploadedRecord CloudStorage.downloadRecord
        intro answer q hstep
        rcases restEnv_readRecord hnote (hs.intact _ hnote) hstep with ⟨rfl, hn, hu⟩
        exact ⟨checkUploaded_self hr, hn, hs.undisturbed hu⟩
      refine wp_mono ?_ hverify
      intro result q hdone
      rcases q with ⟨n', s'⟩
      rcases hdone with ⟨rfl, hn, hs'⟩
      replace hn : n' = n := hn
      subst hn
      rcases uploadedInfo_of_sound now hr with ⟨info, hinfo⟩
      simp only [hinfo]
      refine wp_mono ?_ (ih (base.upsertRecord r.id info)
        (fun r' hr' => hsound r' (List.mem_cons_of_mem _ hr'))
        (fun r' hr' => hwritten r' (List.mem_cons_of_mem _ hr')) hs')
      intro result u hrest
      rcases hrest with ⟨hn, hu, m, hresult, hm⟩
      exact ⟨hn, hu, m, hresult, entersUploads_cons hinfo hm⟩

omit [Serde] in
theorem callsOnly_baseMetadata (ctx : PipelineContext) :
    (baseMetadata ctx).CallsOnly StorageOp.IsAside := by
  unfold baseMetadata
  cases ctx.remoteMetadata with
  | some m => trivial
  | none => exact ⟨trivial, fun _ => trivial⟩

omit [Serde] in
theorem returns_baseMetadata {ctx : PipelineContext} {tr : StorageTrace}
    {base : CloudMetadata × Nat} (h : (baseMetadata ctx).Returns tr base) :
    (∃ now, base.1 = baseAt ctx now) ∧
      base.2 = (ctx.remoteMetadata.map CloudMetadata.metadataVersion).getD 0 := by
  unfold baseMetadata at h
  unfold baseAt
  cases hremote : ctx.remoteMetadata with
  | some m =>
      rw [hremote] at h
      rw [h.2]
      exact ⟨⟨{ seconds := 0, nanos := 0 }, rfl⟩, rfl⟩
  | none =>
      rw [hremote] at h
      rcases h with ⟨now, rest, -, -, rfl⟩
      exact ⟨⟨now, rfl⟩, rfl⟩

omit [Codec] [Serde] in
/-- The version check passes on the metadata the version was taken from. -/
theorem checkExpectedVersion_self (m? : Option CloudMetadata) :
    CloudStorage.checkExpectedVersion ((m?.map CloudMetadata.metadataVersion).getD 0) m? =
      .ok () := by
  cases m? <;> simp [CloudStorage.checkExpectedVersion]

theorem wp_pushMetadataAtomic (m : CloudMetadata) {expectedVersion : Nat}
    (hvalid : ∀ m, s.metadata = some m → m.validate = .ok ())
    (hversion : expectedVersion = (s.metadata.map CloudMetadata.metadataVersion).getD 0)
    (hpulled : n.pulled.isSome = true) :
    wp restEnv (fun result q => result = .ok () ∧ ∃ u, s.Undisturbed u ∧ q.2 = u.putMetadata m)
      (CloudStorage.pushMetadataAtomic m expectedVersion) (n, s) := by
  unfold CloudStorage.pushMetadataAtomic
  rw [wp_bind]
  have hdownload : wp restEnv (fun result q => result = .ok s.metadata ∧ q.1 = n ∧
      s.Undisturbed q.2) CloudStorage.downloadMetadata (n, s) := by
    intro read q hread
    exact restEnv_readMetadata hvalid hpulled hread
  refine wp_mono ?_ hdownload
  intro current q hdone
  rcases q with ⟨n', s'⟩
  rcases hdone with ⟨rfl, -, hu⟩
  have hcheck : CloudStorage.checkExpectedVersion expectedVersion s.metadata = .ok () := by
    rw [hversion]
    exact checkExpectedVersion_self _
  simp only [hcheck]
  intro answer q hwrite
  rcases restEnv_writeMetadata hwrite with ⟨hok, v, hv, hq⟩
  exact ⟨hok, v, hu.trans hv, hq⟩

theorem wp_pushUpdatedMetadata {ctx : PipelineContext} (hnoted : Noted n ctx)
    (hs : InPush n s) :
    wp restEnv (fun _ q => q.2.Consistent) (pushUpdatedMetadata ctx) (n, s) := by
  have hpulled := hnoted.pulled_isSome
  unfold pushUpdatedMetadata
  rw [wp_bind]
  refine wp_of_reads ⟨trivial, fun _ => trivial⟩ hpulled ?_
  intro _ now s₁ hu₁ _
  have hs₁ := hs.undisturbed hu₁
  rw [wp_bind]
  refine wp_of_reads ((callsOnly_baseMetadata ctx).mono fun _ h => h.isRead) hpulled ?_
  intro _ base s₂ hu₂ hbase
  have hs₂ := hs₁.undisturbed hu₂
  rcases returns_baseMetadata hbase with ⟨⟨at₀, hbaseAt⟩, hversion⟩
  rw [wp_bind]
  have hsound : ∀ r ∈ entered ctx, r.Sound := fun r hr => hnoted.sound r (mem_entered.mp hr).1
  refine wp_mono ?_ (wp_enterUploads now base.1 hsound
    (fun r hr => written_of_entered hnoted hr) hs₂)
  intro result q hdone
  rcases q with ⟨n', s₃⟩
  rcases hdone with ⟨hn, hs₃, m, rfl, hm⟩
  replace hn : n' = n := hn
  subst hn
  simp only [wp_bind]
  refine wp_of_reads ⟨trivial, fun _ => trivial⟩ hpulled ?_
  intro _ incrementedAt s₄ hu₄ _
  have hs₄ := hs₃.undisturbed hu₄
  -- the stored metadata is the one pulled, so the push finds the version it expects
  have hcurrent : s₄.metadata = ctx.remoteMetadata := by
    have heq := hs₄.current
    rw [hnoted.pulled] at heq
    exact (Option.some.inj heq).symm
  have hvalid : ∀ m, s₄.metadata = some m → m.validate = .ok () := by
    rw [hcurrent]
    exact hnoted.valid
  have hexpected : base.2 = (s₄.metadata.map CloudMetadata.metadataVersion).getD 0 := by
    rw [hversion, hcurrent]
  refine wp_mono ?_ (wp_pushMetadataAtomic _ hvalid hexpected hpulled)
  intro result q hdone
  rcases q with ⟨n'', s₅⟩
  rcases hdone with ⟨rfl, u, hu, hq⟩
  have hend := hs₄.undisturbed hu
  rw [hbaseAt] at hm
  replace hq : s₅ = u.putMetadata (m.incrementVersion incrementedAt) := hq
  have hconsistent : (u.putMetadata (m.incrementVersion incrementedAt)).Consistent := by
    refine consistent_putMetadata hnoted hend.intact ?_ hm
    intro id info hinfo hother
    refine hend.rest id info ?_ hother
    unfold CloudStore.entry
    rw [hu.metadata, hcurrent]
    exact hinfo
  rw [← hq] at hconsistent
  exact hconsistent

theorem wp_finish {ctx : PipelineContext} (hnoted : Noted n ctx) (hs : InPush n s) :
    wp restEnv (fun _ q => q.2.Consistent) (finish ctx) (n, s) := by
  unfold finish
  by_cases hnone : ctx.uploadedIds = []
  · rw [if_pos hnone]
    exact hs.consistent (hnoted.written_eq_nil hnone)
  · rw [if_neg hnone, wp_bind]
    refine wp_mono ?_ (wp_pushUpdatedMetadata hnoted hs)
    intro result q hdone
    cases result <;> exact hdone

/-! ## The downloads in between -/

theorem callsOnly_downloadRecords (ctx : PipelineContext) :
    (downloadRecords ctx).CallsOnly StorageOp.IsAside := by
  unfold downloadRecords CloudStorage.batchDownloadRecords
  refine Prog.CallsOnly.bind (Prog.CallsOnly.mapM ?_ _) fun _ => trivial
  intro id
  exact (callsOnly_downloadRecord id).bind fun _ => trivial

theorem callsOnly_fetchConflicts (ctx : PipelineContext) :
    (fetchConflicts ctx).CallsOnly StorageOp.IsAside := by
  refine Prog.CallsOnly.foldlM ?_ _ _
  intro c id
  unfold fetchConflict
  cases c.remoteInfo id with
  | none => trivial
  | some info => exact (callsOnly_downloadRecord id).bind fun _ => trivial

theorem samePush_downloadRecords {ctx ctx' : PipelineContext} {tr : StorageTrace}
    (h : (downloadRecords ctx).Returns tr ctx') : SamePush ctx ctx' := by
  rcases (returns_downloadRecords _ _ _).mp h with ⟨ds, -, -, rfl⟩
  rw [afterDownloads_eq]
  exact ⟨rfl, rfl, rfl⟩

theorem samePush_receiveConflict (ctx : PipelineContext) (id : String)
    (result : Except SyncError (Option CloudRecord)) :
    SamePush ctx (receiveConflict ctx id result) := by
  unfold receiveConflict
  repeat' split
  all_goals exact ⟨rfl, rfl, rfl⟩

theorem samePush_fetchConflicts {ctx ctx' : PipelineContext} {tr : StorageTrace}
    (h : (fetchConflicts ctx).Returns tr ctx') : SamePush ctx ctx' := by
  refine Prog.returns_foldlM (P := fun _ _ c => SamePush ctx c) h ⟨rfl, rfl, rfl⟩ ?_
  intro done id rest t₁ t₂ c₁ c₂ _ hc hbody
  unfold fetchConflict at hbody
  cases hinfo : c₁.remoteInfo id with
  | none =>
      simp only [hinfo] at hbody
      rw [hbody.2]
      exact hc
  | some info =>
      simp only [hinfo] at hbody
      rw [CloudStorage.returns_downloadRecord] at hbody
      rcases hbody with ⟨read, rest', -, -, rfl⟩
      have hsame := samePush_receiveConflict c₁ id (CloudStorage.recordOfRead read)
      exact ⟨hsame.1.trans hc.1, hsame.2.1.trans hc.2.1, hsame.2.2.trans hc.2.2⟩

/-- What is left of the stage after the uploads. -/
def afterUploading (ctx : PipelineContext) : Cloud (PipelineContext × StageOutcome) := do
  let downloaded ← downloadRecords ctx
  let fetched ← fetchConflicts downloaded
  finish fetched

theorem wp_afterUploading {ctx : PipelineContext} (hnoted : Noted n ctx) (hs : InPush n s) :
    wp restEnv (fun _ q => q.2.Consistent) (afterUploading ctx) (n, s) := by
  have hpulled := hnoted.pulled_isSome
  unfold afterUploading
  rw [wp_bind]
  refine wp_of_reads ((callsOnly_downloadRecords ctx).mono fun _ h => h.isRead) hpulled ?_
  intro t₁ c₁ s₁ hu₁ hdownload
  rw [wp_bind]
  refine wp_of_reads ((callsOnly_fetchConflicts c₁).mono fun _ h => h.isRead) hpulled ?_
  intro t₂ c₂ s₂ hu₂ hfetch
  have hnoted₁ := noted_of_samePush hnoted (samePush_downloadRecords hdownload)
  have hnoted₂ := noted_of_samePush hnoted₁ (samePush_fetchConflicts hfetch)
  exact wp_finish hnoted₂ ((hs.undisturbed hu₁).undisturbed hu₂)

/-! ## The uploads -/

/-- The uploads still to be made. -/
structure StillToUpload (ctx : PipelineContext) (rest : List CloudRecord) : Prop where
  mem : ∀ r ∈ rest, r ∈ ctx.uploads
  new : ∀ r ∈ rest, r.id ∉ ctx.uploadedIds
  ids : (rest.map CloudRecord.id).Nodup

omit [Codec] [Serde] in
theorem StillToUpload.tail {ctx : PipelineContext} {r : CloudRecord} {rest : List CloudRecord}
    (h : StillToUpload ctx (r :: rest)) (answer : Except SyncError Unit) :
    StillToUpload (receiveUpload ctx r answer) rest := by
  have hids : r.id ∉ rest.map CloudRecord.id ∧ (rest.map CloudRecord.id).Nodup := by
    simpa using h.ids
  refine ⟨?_, ?_, hids.2⟩
  · intro r' hr'
    have hmem := h.mem r' (List.mem_cons_of_mem _ hr')
    cases answer <;> exact hmem
  · intro r' hr'
    have hnew := h.new r' (List.mem_cons_of_mem _ hr')
    cases answer with
    | error e => exact hnew
    | ok u =>
        intro hid
        rcases List.mem_append.mp hid with hid | hid
        · exact hnew hid
        · have hsame : r'.id = r.id := List.mem_singleton.mp hid
          exact hids.1 (hsame ▸ List.mem_map_of_mem hr')

/-- The next upload goes to a file the turn has not written. -/
theorem StillToUpload.not_written {ctx : PipelineContext} {r : CloudRecord}
    {rest : List CloudRecord} (h : StillToUpload ctx (r :: rest)) (hnoted : Noted n ctx) :
    ∀ p ∈ n.written, p.1 ≠ r.id := by
  intro p hp heq
  exact h.new r List.mem_cons_self (heq ▸ (hnoted.made p hp).2.2)

/-- The note keeps up with the answer to an upload. -/
theorem noted_receiveUpload {ctx : PipelineContext} {r : CloudRecord} (hnoted : Noted n ctx)
    (hr : r ∈ ctx.uploads) (answer : Except SyncError Unit) :
    Noted (n.add (.writeRecord r.id r) answer) (receiveUpload ctx r answer) := by
  cases answer with
  | error e => exact ⟨hnoted.valid, hnoted.pulled, hnoted.ids, hnoted.sound, hnoted.written, hnoted.made⟩
  | ok u =>
      refine ⟨hnoted.valid, hnoted.pulled, hnoted.ids, hnoted.sound, ?_, ?_⟩
      · intro r' hr' hid
        rcases List.mem_append.mp hid with hid | hid
        · exact List.mem_append_left _ (hnoted.written r' hr' hid)
        · have hsame : r'.id = r.id := List.mem_singleton.mp hid
          have heq : r' = r := List.inj_on_of_nodup_map hnoted.ids hr' hr hsame
          rw [heq]
          exact List.mem_append_right _ List.mem_cons_self
      · intro p hp
        rcases List.mem_append.mp hp with hp | hp
        · have hmade := hnoted.made p hp
          exact ⟨hmade.1, hmade.2.1, List.mem_append_left _ hmade.2.2⟩
        · rw [List.mem_singleton.mp hp]
          exact ⟨hr, rfl, List.mem_append_right _ List.mem_cons_self⟩

/-- From any point of the uploads on, a push mends the metadata. -/
theorem wp_restOfPush {ctx : PipelineContext} {rest : List CloudRecord} (hnoted : Noted n ctx)
    (hs : InPush n s) (hrest : StillToUpload ctx rest) :
    wp restEnv (fun _ q => q.2.Consistent) (rest.foldlM uploadOne ctx >>= afterUploading)
      (n, s) := by
  induction rest generalizing ctx n s with
  | nil => exact wp_afterUploading hnoted hs
  | cons r rest ih =>
      rw [List.foldlM_cons]
      intro answer q hstep
      have hr : r ∈ ctx.uploads := hrest.mem r List.mem_cons_self
      have hnext := noted_receiveUpload hnoted hr answer
      rcases restEnv_writeRecord hstep with ⟨u, hu, ⟨rfl, rfl⟩ | ⟨e, rfl, rfl⟩⟩
      · exact ih hnext ((hs.undisturbed hu).upload (hrest.not_written hnoted)) (hrest.tail _)
      · exact ih hnext (hs.undisturbed hu) (hrest.tail _)

end PushStage

end

end OakKeyring
