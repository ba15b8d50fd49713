import OakKeyring.Sync.PushRepair
import OakKeyring.Lib.Checks
import OakKeyring.Samples.Store

/-!
# The metadata a push writes

Only the entries of uploaded records change, and each of these records is read back and
compared before anything is written. The comparison leaves out whether the record is deleted.
-/

namespace OakKeyring

open Effect

section

variable [Codec] [Serde]

/-- The file that is read back passes for the uploaded record. -/
structure CloudRecord.ConfirmedBy (r file : CloudRecord) : Prop where
  valid : file.validate = .ok ()
  id : file.id = r.id
  version : file.version = r.version
  checksum : ∃ c, r.computeChecksum = .ok c ∧ file.computeChecksum = .ok c
  privateChecksum : ∃ c, r.computePrivateMetadataChecksum = .ok c ∧
    file.computePrivateMetadataChecksum = .ok c

/-- The read-back of the uploaded record succeeded. -/
def CloudRecord.Confirms (r : CloudRecord) (read : Except SyncError CloudRecord) : Prop :=
  ∃ file, read = .ok file ∧ r.ConfirmedBy file

/-- The last record of the list with the id. -/
def LastBody (records : List CloudRecord) (id : String) (r : CloudRecord) : Prop :=
  ∃ front back, records = front ++ r :: back ∧ r.id = id ∧ ∀ r' ∈ back, r'.id ≠ id

/-- The upload of the record was accepted. -/
def UploadedIn (tr : StorageTrace) (id : String) : Prop :=
  ∃ record, (StorageOp.writeRecord id record).answered (.ok ()) ∈ tr

/-- The record was read after a clock reading: in a push stage, to compare it with its upload. -/
def ReadBackIn (tr : StorageTrace) (id : String) (read : Except SyncError CloudRecord) : Prop :=
  ∃ before t after, tr = before ++ StorageOp.now.answered t :: after ∧ readEvent (id, read) ∈ after

/-- The metadata extends the base by the entries of the uploads, and nothing else. -/
structure PushedExactly (ctx : PipelineContext) (before : StorageTrace) (m : CloudMetadata) :
    Prop where
  document : ∃ createdAt pushedAt, StorageOp.now.answered pushedAt ∈ before ∧
    (ctx.remoteMetadata = none → StorageOp.now.answered createdAt ∈ before) ∧
    m = { PushStage.baseAt ctx createdAt with
          metadataVersion := (PushStage.baseAt ctx createdAt).metadataVersion + 1
          updatedAt := toRfc3339 pushedAt
          records := m.records }
  others : ∀ id, ¬ UploadedIn before id → m.records.lookup id = ctx.remoteInfo id
  uploaded : ∀ id, UploadedIn before id → ∃ r info, LastBody ctx.uploads id r ∧
    m.records.lookup id = some info ∧ Describes info r ∧ info.deleted = r.deleted.getD false
  confirmed : ∀ r ∈ ctx.uploads, UploadedIn before r.id →
    ∃ file, ReadBackIn before r.id (.ok file) ∧ r.ConfirmedBy file

namespace PushStage

/-! ## Verifying and entering -/

theorem checkUploaded_eq_ok_iff (r file : CloudRecord) :
    checkUploaded r file = .ok () ↔ r.ConfirmedBy file := by
  unfold checkUploaded
  simp only [Checks.bind_eq_ok_iff, Checks.unless_throw_eq_ok_iff, Checks.last_throw_eq_ok_iff,
    not_not]
  constructor
  · rintro ⟨u, hvalid, hid, hversion, c, hexpected, c', hactual, heq, p, hexpected', p', hactual',
      heq', -⟩
    rw [heq] at hactual
    rw [heq'] at hactual'
    exact ⟨hvalid, hid, hversion, ⟨c, hexpected, hactual⟩, ⟨p, hexpected', hactual'⟩⟩
  · intro h
    rcases h.checksum with ⟨c, hexpected, hactual⟩
    rcases h.privateChecksum with ⟨p, hexpected', hactual'⟩
    exact ⟨(), h.valid, h.id, h.version, c, hexpected, c, hactual, rfl, p, hexpected', p, hactual',
      rfl, rfl⟩

theorem returns_verifyUploadedRecord {r : CloudRecord} {tr : StorageTrace}
    {result : Except SyncError Unit} (h : (verifyUploadedRecord r).Returns tr result) :
    ∃ read, tr = [readEvent (r.id, read)] ∧ (result = .ok () ↔ r.Confirms read) := by
  unfold verifyUploadedRecord at h
  rw [CloudStorage.returns_downloadRecord] at h
  rcases h with ⟨read, rest, htr, h⟩
  refine ⟨read, ?_, ?_⟩
  · rcases hread : CloudStorage.recordOfRead read with e | _ | file
    all_goals
      rw [hread] at h
      rw [htr, h.1]
      rfl
  · cases read with
    | ok file =>
        have hresult : result = checkUploaded r file := h.2
        rw [hresult, checkUploaded_eq_ok_iff]
        constructor
        · intro hconfirmed
          exact ⟨file, rfl, hconfirmed⟩
        · rintro ⟨file', hfile, hconfirmed⟩
          cases hfile
          exact hconfirmed
    | error e =>
        have hfails : result ≠ .ok () := by
          cases e <;> simp [CloudStorage.recordOfRead] at h <;> simp [h.2]
        refine iff_of_false hfails ?_
        rintro ⟨file, hfile, -⟩
        cases hfile

/-- What entering the uploads makes of the base. -/
structure Entered (now : DateTime) (uploaded : List CloudRecord) (base m : CloudMetadata) :
    Prop where
  document : m = { base with records := m.records }
  others : ∀ id, (∀ r ∈ uploaded, r.id ≠ id) → m.records.lookup id = base.records.lookup id
  entry : ∀ id r, LastBody uploaded id r →
    ∃ info, m.records.lookup id = some info ∧ uploadedInfo now r = .ok info

theorem entered_cons {now : DateTime} {r : CloudRecord} {rest : List CloudRecord}
    {base m : CloudMetadata} {info : RecordVersionInfo} (hinfo : uploadedInfo now r = .ok info)
    (h : Entered now rest (base.upsertRecord r.id info) m) : Entered now (r :: rest) base m := by
  refine ⟨?_, ?_, ?_⟩
  · calc
      m = { base.upsertRecord r.id info with records := m.records } := h.document
      _ = { base with records := m.records } := rfl
  · intro id hother
    rw [h.others id fun r' hr' => hother r' (List.mem_cons_of_mem _ hr')]
    exact AList.lookup_insert_ne (Ne.symm (hother r List.mem_cons_self))
  · rintro id last ⟨front, back, hlist, hid, hback⟩
    cases front with
    | nil =>
        cases hlist
        refine ⟨info, ?_, hinfo⟩
        rw [h.others id hback, ← hid]
        exact AList.lookup_insert _
    | cons r' front =>
        cases hlist
        exact h.entry id last ⟨front, back, rfl, hid, hback⟩

/-- Metadata comes out exactly when every read-back confirms its upload. -/
theorem entered_of_enterUploads {now : DateTime} {uploaded : List CloudRecord}
    {base m : CloudMetadata} {tr : StorageTrace}
    (h : (enterUploads now uploaded base).Returns tr (.ok m)) :
    Entered now uploaded base m ∧
      (∀ r ∈ uploaded, ∃ file, readEvent (r.id, .ok file) ∈ tr ∧ r.ConfirmedBy file) ∧
      ∀ id read, readEvent (id, read) ∈ tr → ∃ r ∈ uploaded, r.id = id ∧ r.Confirms read := by
  induction uploaded generalizing base tr with
  | nil =>
      rcases h with ⟨htr, hm⟩
      cases hm
      refine ⟨⟨rfl, fun _ _ => rfl, ?_⟩, by simp, by simp [htr]⟩
      rintro id r ⟨front, back, hlist, -⟩
      simp at hlist
  -- the record is verified, and then its entry is made
  | cons r rest ih =>
      unfold enterUploads at h
      rw [Prog.returns_bind] at h
      rcases h with ⟨t₁, t₂, verified, htr, hverify, h⟩
      rcases returns_verifyUploadedRecord hverify with ⟨read, ht₁, hok⟩
      cases verified with
      | error e => cases h.2
      | ok u =>
          rcases hok.mp rfl with ⟨file, hread, hconfirmed⟩
          cases hinfo : uploadedInfo now r with
          | error e =>
              simp only [hinfo] at h
              cases h.2
          -- the entry of the record, and those of the others after it
          | ok info =>
              simp only [hinfo] at h
              rcases ih h with ⟨hentered, hall, hreads⟩
              rw [htr, ht₁, hread]
              refine ⟨entered_cons hinfo hentered, ?_, ?_⟩
              · intro r' hr'
                rcases List.mem_cons.mp hr' with heq | hr'
                · rw [heq]
                  exact ⟨file, List.mem_cons_self, hconfirmed⟩
                · rcases hall r' hr' with ⟨file', hmem, hconfirmed'⟩
                  exact ⟨file', List.mem_cons_of_mem _ hmem, hconfirmed'⟩
              · intro id read' hmem
                rcases List.mem_cons.mp hmem with heq | hmem
                · cases readEvent_injective heq
                  exact ⟨r, List.mem_cons_self, rfl, file, rfl, hconfirmed⟩
                · rcases hreads id read' hmem with ⟨r', hr', hid, hconfirms⟩
                  exact ⟨r', List.mem_cons_of_mem _ hr', hid, hconfirms⟩

/-! ## The events of a push -/

omit [Serde] in
theorem baseMetadata_cases {ctx : PipelineContext} {tr : StorageTrace}
    {base : CloudMetadata × Nat} (h : (baseMetadata ctx).Returns tr base) :
    ∃ createdAt, base.1 = baseAt ctx createdAt ∧
      (∀ e ∈ tr, e = StorageOp.now.answered createdAt) ∧
      (ctx.remoteMetadata = none → StorageOp.now.answered createdAt ∈ tr) := by
  unfold baseMetadata at h
  unfold baseAt
  cases hremote : ctx.remoteMetadata with
  | some m =>
      rw [hremote] at h
      rw [h.1, h.2]
      exact ⟨{ seconds := 0, nanos := 0 }, rfl, by simp, by simp⟩
  | none =>
      rw [hremote] at h
      rcases h with ⟨createdAt, rest, htr, hrest, hbase⟩
      rw [htr, hrest, hbase]
      exact ⟨createdAt, rfl, fun e he => List.mem_singleton.mp he, fun _ => List.mem_singleton_self _⟩

/-- The operations that push the metadata. -/
def Pushes (m : CloudMetadata) : StorageOp → Prop
  | .readMetadata => True
  | .writeMetadata m' => m' = m
  | _ => False

omit [Serde] in
theorem callsOnly_pushMetadataAtomic (m : CloudMetadata) (expectedVersion : Nat) :
    (CloudStorage.pushMetadataAtomic m expectedVersion).CallsOnly (Pushes m) := by
  unfold CloudStorage.pushMetadataAtomic
  refine Prog.CallsOnly.bind ⟨trivial, fun _ => trivial⟩ fun read => ?_
  rcases read with e | current
  · trivial
  · cases hcheck : CloudStorage.checkExpectedVersion expectedVersion current with
    | error e =>
        simp only [hcheck]
        trivial
    | ok u =>
        simp only [hcheck]
        exact ⟨rfl, fun _ => trivial⟩

/-- The clock readings, the read-backs, and then the push of what was entered, if anything. -/
theorem pushUpdatedMetadata_cases {ctx : PipelineContext} {tr : StorageTrace}
    {result : Except SyncError CloudMetadata} (h : (pushUpdatedMetadata ctx).Returns tr result) :
    ∃ (now createdAt : DateTime) (clocks reads rest : StorageTrace)
      (entering : Except SyncError CloudMetadata),
      tr = StorageOp.now.answered now :: (clocks ++ (reads ++ rest)) ∧
      (∀ e ∈ clocks, e = StorageOp.now.answered createdAt) ∧
      (ctx.remoteMetadata = none → StorageOp.now.answered createdAt ∈ clocks) ∧
      (enterUploads now (entered ctx) (baseAt ctx createdAt)).Returns reads entering ∧
      ((∃ e, entering = .error e ∧ rest = [] ∧ result = .error e) ∨
        ∃ m pushedAt tail, entering = .ok m ∧ rest = StorageOp.now.answered pushedAt :: tail ∧
          ∀ e ∈ tail, Pushes (m.incrementVersion pushedAt) e.call) := by
  unfold pushUpdatedMetadata at h
  rw [CloudStorage.returns_perform] at h
  rcases h with ⟨now, tr', htr, h⟩
  rw [Prog.returns_bind] at h
  rcases h with ⟨clocks, tr'', base, htr', hbase, h⟩
  -- the base is what was downloaded, or new metadata
  rcases baseMetadata_cases hbase with ⟨createdAt, hat, hclocks, hnone⟩
  rw [Prog.returns_bind] at h
  rcases h with ⟨reads, rest, entering, htr'', henter, h⟩
  rw [hat] at henter
  refine ⟨now, createdAt, clocks, reads, rest, entering, ?_, hclocks, hnone, henter, ?_⟩
  · rw [htr, htr', htr'']
  · cases entering with
    | error e => exact Or.inl ⟨e, rfl, h.1, h.2⟩
    | ok m =>
        -- the metadata are pushed under the next version
        rcases (CloudStorage.returns_perform _ _).mp h with ⟨pushedAt, tail, hrest, h⟩
        refine Or.inr ⟨m, pushedAt, tail, rfl, hrest, ?_⟩
        rw [Prog.returns_bind] at h
        rcases h with ⟨t₁, t₂, pushed, htail, hpush, h⟩
        have hend : t₂ = [] := by
          cases pushed with
          | error e => exact h.1
          | ok u => exact h.1
        rw [htail, hend, List.append_nil]
        exact (callsOnly_pushMetadataAtomic _ _).of_returns hpush

/-- Conflicts are read, and change what is counted and stored for them. -/
theorem fetchConflicts_frame {ctx ctx' : PipelineContext} {tr : StorageTrace}
    (h : (fetchConflicts ctx).Returns tr ctx') :
    (∃ failed stored, ctx' = { ctx with
      failedIds := failed
      conflictDataMap := stored }) ∧ ∃ files : ReadAnswers, tr = files.map readEvent := by
  refine Prog.returns_foldlM (P := fun _ t c => (∃ failed stored, c = { ctx with
      failedIds := failed
      conflictDataMap := stored }) ∧ ∃ files : ReadAnswers, t = files.map readEvent) h
    ⟨⟨ctx.failedIds, ctx.conflictDataMap, rfl⟩, [], rfl⟩ ?_
  rintro done id rest t₁ t₂ c₁ c₂ - ⟨⟨failed, stored, hc₁⟩, files, ht₁⟩ hbody
  unfold fetchConflict at hbody
  cases hinfo : c₁.remoteInfo id with
  -- without an entry nothing is read
  | none =>
      simp only [hinfo] at hbody
      rw [hbody.1, hbody.2, List.append_nil]
      exact ⟨⟨failed, stored, hc₁⟩, files, ht₁⟩
  | some info =>
      simp only [hinfo] at hbody
      rw [CloudStorage.returns_downloadRecord] at hbody
      rcases hbody with ⟨answer, rest', ht₂, hrest', hc₂⟩
      let read : Except SyncError CloudRecord := answer
      refine ⟨?_, files ++ [(id, read)], ?_⟩
      · have hc : c₂ = _ := hc₂.trans (receiveConflict_eq c₁ id read)
        rw [hc, hc₁]
        split
        · exact ⟨failed, _, rfl⟩
        · split
          · exact ⟨_, stored, rfl⟩
          · exact ⟨failed, stored, rfl⟩
      · rw [ht₁, ht₂, hrest', List.map_append]
        rfl

/-- A push stage uploads, reads record files, and finishes. -/
theorem execute_phases {ctx ctx' : PipelineContext} {outcome : StageOutcome} {tr : StorageTrace}
    (h : (execute ctx).Returns tr (ctx', outcome)) :
    ∃ (us : UploadAnswers) (files : ReadAnswers) (rest : StorageTrace) (c : PipelineContext),
      us.map Prod.fst = selectedUploads ctx ∧
      tr = (us.map uploadEvent ++ files.map readEvent) ++ rest ∧
      (finish c).Returns rest (ctx', outcome) ∧ c.remoteMetadata = ctx.remoteMetadata ∧
      c.localVaultToken = ctx.localVaultToken ∧ c.uploads = ctx.uploads ∧
      c.finalMetadata = ctx.finalMetadata ∧
      c.uploadedIds = ctx.uploadedIds ++ acceptedUploads us := by
  unfold execute at h
  simp only [Prog.returns_bind, returns_uploadRecords, returns_downloadRecords] at h
  rcases h with ⟨t₁, t₂, c₁, htr, ⟨us, hus, ht₁, hc₁⟩, t₃, t₄, c₂, ht₂, ⟨ds, -, ht₃, hc₂⟩,
    t₅, rest, c₃, ht₄, hfetch, hfinish⟩
  rcases fetchConflicts_frame hfetch with ⟨⟨failed, stored, hc₃⟩, cs, ht₅⟩
  refine ⟨us, ds ++ cs, rest, c₃, hus, ?_, hfinish, ?_⟩
  · rw [htr, ht₁, ht₂, ht₃, ht₄, ht₅, List.map_append]
    simp
  · rw [hc₃, hc₂, afterDownloads_eq, hc₁, afterUploads_eq]
    exact ⟨rfl, rfl, rfl, rfl, rfl⟩

/-! ## What is pushed -/

omit [Codec] [Serde] in
/-- An element outside the first part of a list stands in the second. -/
theorem after_of_notMem {α : Type} {x : α} {before after p tail : List α}
    (h : before ++ x :: after = p ++ tail) (hx : x ∉ p) :
    ∃ t, before = p ++ t ∧ tail = t ++ x :: after := by
  rcases List.append_eq_append_iff.mp h with ⟨t, hp, htail⟩ | ⟨t, hbefore, htail⟩
  · cases t with
    | nil => exact ⟨[], by simpa using hp.symm, by simpa using htail.symm⟩
    | cons y t =>
        cases htail
        exact absurd (by rw [hp]; simp) hx
  · exact ⟨t, hbefore, htail⟩

omit [Codec] [Serde] in
/-- The last body of an id that is kept by a choice among the ids is the last of all. -/
theorem lastBody_filter {records : List CloudRecord} {p : String → Bool} {id : String}
    {r : CloudRecord} (hp : p id = true)
    (h : LastBody (records.filter fun r => p r.id) id r) : LastBody records id r := by
  rcases h with ⟨front, back, hlist, hid, hback⟩
  rcases List.filter_eq_append_iff.mp hlist with ⟨l₁, l₂, hrecords, -, h₂⟩
  rcases List.filter_eq_cons_iff.mp h₂ with ⟨l₃, l₄, hl₂, -, -, h₄⟩
  refine ⟨l₁ ++ l₃, l₄, by rw [hrecords, hl₂, List.append_assoc], hid, ?_⟩
  intro r' hr' hr'id
  refine hback r' ?_ hr'id
  rw [← h₄]
  exact List.mem_filter.mpr ⟨hr', by rw [hr'id]; exact hp⟩

omit [Codec] [Serde] in
theorem exists_lastBody {records : List CloudRecord} {id : String}
    (h : ∃ r ∈ records, r.id = id) : ∃ r, LastBody records id r := by
  induction records with
  | nil =>
      rcases h with ⟨r, hr, -⟩
      cases hr
  | cons r rest ih =>
      by_cases hrest : ∃ r' ∈ rest, r'.id = id
      · rcases ih hrest with ⟨last, front, back, hlist, hlast⟩
        exact ⟨last, r :: front, back, by rw [hlist]; rfl, hlast⟩
      · rcases h with ⟨r', hr', hid⟩
        rcases List.mem_cons.mp hr' with heq | hr'
        · refine ⟨r, [], rest, rfl, heq ▸ hid, ?_⟩
          intro r'' hr'' hr''id
          exact hrest ⟨r'', hr'', hr''id⟩
        · exact absurd ⟨r', hr', hid⟩ hrest

omit [Codec] [Serde] in
/-- Among uploads and reads of record files, the accepted uploads are those of the stage. -/
theorem uploadedIn_phases {us : UploadAnswers} {files : ReadAnswers} {rest : StorageTrace}
    (hrest : ∀ e ∈ rest, ∀ id r, e.call ≠ .writeRecord id r) (id : String) :
    UploadedIn ((us.map uploadEvent ++ files.map readEvent) ++ rest) id ↔
      id ∈ acceptedUploads us := by
  unfold acceptedUploads UploadedIn
  constructor
  -- a write of a record that succeeded is one of the uploads
  · rintro ⟨r, hmem⟩
    rcases List.mem_append.mp hmem with hmem | hmem
    · rcases List.mem_append.mp hmem with hmem | hmem
      · rcases List.mem_map.mp hmem with ⟨⟨r', answer⟩, ha, heq⟩
        have hcall : StorageOp.writeRecord r'.id r' = .writeRecord id r := congrArg Event.call heq
        injection hcall with hid hr
        cases hid
        cases hr
        injection heq with _ hanswer
        cases hanswer
        exact List.mem_map.mpr ⟨(_, .ok ()), List.mem_filter.mpr ⟨ha, rfl⟩, rfl⟩
      · rcases List.mem_map.mp hmem with ⟨a, -, heq⟩
        have hcall : StorageOp.readRecord a.1 = .writeRecord id r := congrArg Event.call heq
        cases hcall
    · exact absurd rfl (hrest _ hmem id r)
  · intro hid
    rcases List.mem_map.mp hid with ⟨⟨r, answer⟩, ha, heq⟩
    rcases List.mem_filter.mp ha with ⟨hmem, hok⟩
    -- only the uploads that succeeded are taken over
    cases answer with
    | error e => cases hok
    | ok u =>
        cases heq
        refine ⟨r, List.mem_append_left _ (List.mem_append_left _ ?_)⟩
        exact List.mem_map.mpr ⟨(r, .ok ()), hmem, rfl⟩

omit [Serde] in
theorem lookup_baseAt_eq (ctx : PipelineContext) (now : DateTime) (id : String) :
    (baseAt ctx now).records.lookup id = ctx.remoteInfo id := by
  unfold baseAt PipelineContext.remoteInfo
  cases ctx.remoteMetadata with
  | some m => rfl
  | none => exact AList.lookup_empty id

theorem deleted_uploadedInfo {now : DateTime} {r : CloudRecord} {info : RecordVersionInfo}
    (h : uploadedInfo now r = .ok info) : info.deleted = r.deleted.getD false := by
  unfold uploadedInfo at h
  rcases Checks.bind_eq_ok_iff.mp h with ⟨checksum, -, h⟩
  rcases Checks.bind_eq_ok_iff.mp h with ⟨privateChecksum, -, h⟩
  cases h
  rfl

omit [Codec] [Serde] in
theorem isRecordOp_files {us : UploadAnswers} {files : ReadAnswers} {e : Event StorageI}
    (he : e ∈ us.map uploadEvent ++ files.map readEvent) :
    (∃ id r, e.call = .writeRecord id r) ∨ ∃ id, e.call = .readRecord id := by
  rcases List.mem_append.mp he with he | he
  · rcases List.mem_map.mp he with ⟨a, -, heq⟩
    exact Or.inl ⟨a.1.id, a.1, by rw [← heq]; rfl⟩
  · rcases List.mem_map.mp he with ⟨a, -, heq⟩
    exact Or.inr ⟨a.1, by rw [← heq]; rfl⟩

/-- The phases of a push stage that went on to its metadata. -/
structure PushRun (ctx c : PipelineContext) where
  us : UploadAnswers
  files : ReadAnswers
  now : DateTime
  createdAt : DateTime
  clocks : StorageTrace
  reads : StorageTrace
  tail : StorageTrace
  entering : Except SyncError CloudMetadata
  uploads_eq : us.map Prod.fst = selectedUploads ctx
  clocks_eq : ∀ e ∈ clocks, e = StorageOp.now.answered createdAt
  created : ctx.remoteMetadata = none → StorageOp.now.answered createdAt ∈ clocks
  enters : (enterUploads now (entered c) (baseAt ctx createdAt)).Returns reads entering
  entered_eq : entered c = ctx.uploads.filter fun r => (acceptedUploads us).contains r.id

namespace PushRun

variable {ctx c : PipelineContext}

/-- What comes before the push neither writes nor reads the metadata. -/
def early (run : PushRun ctx c) : StorageTrace :=
  (run.us.map uploadEvent ++ run.files.map readEvent) ++
    StorageOp.now.answered run.now :: (run.clocks ++ run.reads)

def trace (run : PushRun ctx c) : StorageTrace :=
  run.early ++ run.tail

theorem trace_eq (run : PushRun ctx c) :
    run.trace = (run.us.map uploadEvent ++ run.files.map readEvent) ++
      StorageOp.now.answered run.now :: (run.clocks ++ (run.reads ++ run.tail)) := by
  unfold trace early
  simp

theorem not_write_early (run : PushRun ctx c) {m : CloudMetadata}
    {answer : Except SyncError Unit} :
    (StorageOp.writeMetadata m).answered answer ∉ run.early := by
  intro he
  rcases List.mem_append.mp he with he | he
  · rcases isRecordOp_files he with ⟨id, r, hcall⟩ | ⟨id, hcall⟩ <;> cases hcall
  · rcases List.mem_cons.mp he with heq | he
    · have hcall : StorageOp.writeMetadata m = .now := congrArg Event.call heq
      cases hcall
    · rcases List.mem_append.mp he with he | he
      · have hcall : StorageOp.writeMetadata m = .now :=
          congrArg Event.call (run.clocks_eq _ he)
        cases hcall
      · exact (callsOnly_enterUploads _ _ _).of_returns run.enters _ he

theorem mem_entered_iff (run : PushRun ctx c) (r : CloudRecord) :
    r ∈ entered c ↔ r ∈ ctx.uploads ∧ r.id ∈ acceptedUploads run.us := by
  rw [run.entered_eq]
  simp

/-- The accepted uploads have bodies. -/
theorem exists_entered (run : PushRun ctx c) {id : String}
    (hid : id ∈ acceptedUploads run.us) : ∃ r ∈ entered c, r.id = id := by
  rcases List.mem_map.mp hid with ⟨a, ha, heq⟩
  have hselected : a.1 ∈ selectedUploads ctx := by
    rw [← run.uploads_eq]
    exact List.mem_map_of_mem (List.mem_filter.mp ha).1
  refine ⟨a.1, (run.mem_entered_iff a.1).mpr ⟨(List.mem_filter.mp hselected).1, ?_⟩, heq⟩
  rw [heq]
  exact hid

/-- The record files read after a clock reading are the read-backs. -/
theorem mem_reads (run : PushRun ctx c) {id : String} {read : Except SyncError CloudRecord}
    (htail : ∀ e ∈ run.tail, ∀ id, e.call ≠ .readRecord id) (h : ReadBackIn run.trace id read) :
    readEvent (id, read) ∈ run.reads := by
  rcases h with ⟨before, t, after, htr, hmem⟩
  have hnow : StorageOp.now.answered t ∉ run.us.map uploadEvent ++ run.files.map readEvent := by
    intro he
    rcases isRecordOp_files he with ⟨id, r, hcall⟩ | ⟨id, hcall⟩ <;> cases hcall
  rcases after_of_notMem (htr.symm.trans run.trace_eq) hnow with ⟨front, -, hrest⟩
  have hlater : readEvent (id, read) ∈
      StorageOp.now.answered run.now :: (run.clocks ++ (run.reads ++ run.tail)) := by
    rw [hrest]
    exact List.mem_append_right _ (List.mem_cons_of_mem _ hmem)
  rcases List.mem_cons.mp hlater with heq | hlater
  · have hcall : StorageOp.readRecord id = .now := congrArg Event.call heq
    cases hcall
  · rcases List.mem_append.mp hlater with hclock | hlater
    · have hcall : StorageOp.readRecord id = .now := congrArg Event.call (run.clocks_eq _ hclock)
      cases hcall
    · rcases List.mem_append.mp hlater with hread | hlast
      · exact hread
      · exact absurd rfl (htail _ hlast id)

/-- What is written after the read-backs is the entered metadata. -/
theorem pushedExactly (run : PushRun ctx c) {m : CloudMetadata} {pushedAt : DateTime}
    {t : StorageTrace} (hentering : run.entering = .ok m)
    (ht : ∀ e ∈ t, Pushes (m.incrementVersion pushedAt) e.call) :
    PushedExactly ctx (run.early ++ StorageOp.now.answered pushedAt :: t)
      (m.incrementVersion pushedAt) := by
  have henters := run.enters
  rw [hentering] at henters
  rcases entered_of_enterUploads henters with ⟨hentered, hconfirmed, -⟩
  -- between the uploads and the write no record is written
  have huploaded : ∀ id, UploadedIn (run.early ++ StorageOp.now.answered pushedAt :: t) id ↔
      id ∈ acceptedUploads run.us := by
    intro id
    unfold early
    rw [List.append_assoc]
    refine uploadedIn_phases ?_ id
    intro e he id' r hcall
    rcases List.mem_cons.mp he with heq | he
    · rw [heq] at hcall
      cases hcall
    · rcases List.mem_append.mp he with he | he
      · rcases List.mem_append.mp he with he | he
        · rw [run.clocks_eq e he] at hcall
          cases hcall
        · have haside := (callsOnly_enterUploads _ _ _).of_returns run.enters e he
          rw [hcall] at haside
          exact haside
      · rcases List.mem_cons.mp he with heq | he
        · rw [heq] at hcall
          cases hcall
        · have hpushes := ht e he
          rw [hcall] at hpushes
          exact hpushes
  refine ⟨⟨run.createdAt, pushedAt, ?_, ?_, ?_⟩, ?_, ?_, ?_⟩
  · exact List.mem_append_right _ List.mem_cons_self
  · intro hremote
    refine List.mem_append_left _ (List.mem_append_right _ (List.mem_cons_of_mem _ ?_))
    exact List.mem_append_left _ (run.created hremote)
  · have hdocument := hentered.document
    -- the document is the base with the entries and the next version
    calc
      m.incrementVersion pushedAt
          = { m with
              metadataVersion := m.metadataVersion + 1
              updatedAt := toRfc3339 pushedAt } := rfl
      _ = { baseAt ctx run.createdAt with
            metadataVersion := (baseAt ctx run.createdAt).metadataVersion + 1
            updatedAt := toRfc3339 pushedAt
            records := m.records } := by rw [hdocument]
  · intro id hid
    rw [CloudMetadata.records_incrementVersion, ← lookup_baseAt_eq ctx run.createdAt id]
    refine hentered.others id ?_
    intro r hr hrid
    have haccepted := ((run.mem_entered_iff r).mp hr).2
    rw [hrid] at haccepted
    exact hid ((huploaded id).mpr haccepted)
  · intro id hid
    have haccepted := (huploaded id).mp hid
    -- the last body that was uploaded is the one that is entered
    rcases exists_lastBody (run.exists_entered haccepted) with ⟨r, hlast⟩
    rcases hentered.entry id r hlast with ⟨info, hlookup, hinfo⟩
    rw [run.entered_eq] at hlast
    refine ⟨r, info, ?_, hlookup, describes_uploadedInfo hinfo, deleted_uploadedInfo hinfo⟩
    exact lastBody_filter (p := (acceptedUploads run.us).contains) (by simpa using haccepted) hlast
  · intro r hr hid
    have hmem := (run.mem_entered_iff r).mpr ⟨hr, (huploaded r.id).mp hid⟩
    -- it was read back before the write
    rcases hconfirmed r hmem with ⟨file, hread, hfile⟩
    refine ⟨file, ⟨run.us.map uploadEvent ++ run.files.map readEvent, run.now,
      run.clocks ++ run.reads ++ StorageOp.now.answered pushedAt :: t, ?_, ?_⟩, hfile⟩
    · unfold early
      simp
    · exact List.mem_append_left _ (List.mem_append_right _ hread)

end PushRun

variable {ctx ctx' : PipelineContext} {outcome : StageOutcome} {tr : StorageTrace}

/-- A push stage uploads nothing and ends, or it goes on to its metadata: then it stops at an
error, or pushes what it entered. -/
theorem pushRun_cases (hnone : ctx.uploadedIds = [])
    (hrun : (execute ctx).Returns tr (ctx', outcome)) :
    (∀ e ∈ tr, (∃ id r, e.call = .writeRecord id r) ∨ ∃ id, e.call = .readRecord id) ∨
      ∃ c, ∃ run : PushRun ctx c, tr = run.trace ∧
        ((run.tail = [] ∧ (∃ e, outcome = .Error e) ∧ ctx'.finalMetadata = ctx.finalMetadata) ∨
          ∃ m pushedAt t, run.entering = .ok m ∧
            run.tail = StorageOp.now.answered pushedAt :: t ∧
            ∀ e ∈ t, Pushes (m.incrementVersion pushedAt) e.call) := by
  rcases execute_phases hrun with ⟨us, files, rest, c, hus, htr, hfinish, hremote, htoken, huploads,
    hfinal, hids⟩
  rw [hnone, List.nil_append] at hids
  -- without an upload the metadata are not written
  rcases returns_finish hfinish with ⟨-, hrest, -, -⟩ | ⟨hsome, result, hpush, hresult⟩
  · left
    rw [htr, hrest, List.append_nil]
    exact fun e he => isRecordOp_files he
  · right
    rcases pushUpdatedMetadata_cases hpush with ⟨now, createdAt, clocks, reads, tail, entering,
      hrest, hclocks, hcreated, henter, hend⟩
    have hbase : baseAt c createdAt = baseAt ctx createdAt := by
      unfold baseAt
      rw [hremote, htoken]
    let run : PushRun ctx c :=
      { us := us
        files := files
        now := now
        createdAt := createdAt
        clocks := clocks
        reads := reads
        tail := tail
        entering := entering
        uploads_eq := hus
        clocks_eq := hclocks
        created := by rwa [hremote] at hcreated
        enters := by rw [← hbase]; exact henter
        entered_eq := by unfold entered; rw [huploads, hids] }
    refine ⟨c, run, by rw [run.trace_eq, htr, hrest], ?_⟩
    rcases hend with ⟨e, hentering, hnil, herror⟩ | ⟨m, pushedAt, t, hentering, htail, hpushes⟩
    · rw [herror] at hresult
      exact Or.inl ⟨hnil, ⟨e, hresult.2⟩, by rw [hresult.1, hfinal]⟩
    · exact Or.inr ⟨m, pushedAt, t, hentering, htail, hpushes⟩

/-- Whatever is written as metadata is exact. -/
theorem pushedExactly_of_write (hnone : ctx.uploadedIds = [])
    (hrun : (execute ctx).Returns tr (ctx', outcome)) {before after : StorageTrace}
    {m : CloudMetadata} {answer : Except SyncError Unit}
    (htr : tr = before ++ (StorageOp.writeMetadata m).answered answer :: after) :
    PushedExactly ctx before m := by
  have hmem : (StorageOp.writeMetadata m).answered answer ∈ tr := by
    rw [htr]
    simp
  rcases pushRun_cases hnone hrun with hrecords | ⟨c, run, htrace, hend⟩
  · rcases hrecords _ hmem with ⟨id, r, hcall⟩ | ⟨id, hcall⟩ <;> cases hcall
  · rcases hend with ⟨htail, -⟩ | ⟨m', pushedAt, t, hentering, htail, hpushes⟩
    · rw [htrace, PushRun.trace, htail, List.append_nil] at hmem
      exact absurd hmem run.not_write_early
    · have hall : tr = (run.early ++ [StorageOp.now.answered pushedAt]) ++ t := by
        rw [htrace, PushRun.trace, htail]
        simp
      -- the write comes after everything that was read
      have hnot : (StorageOp.writeMetadata m).answered answer ∉
          run.early ++ [StorageOp.now.answered pushedAt] := by
        intro he
        rcases List.mem_append.mp he with he | he
        · exact run.not_write_early he
        · have hcall : StorageOp.writeMetadata m = .now :=
            congrArg Event.call (List.mem_singleton.mp he)
          cases hcall
      rcases after_of_notMem (htr.symm.trans hall) hnot with ⟨t', hbefore, ht'⟩
      have hm : m = m'.incrementVersion pushedAt :=
        hpushes ((StorageOp.writeMetadata m).answered answer) (by rw [ht']; simp)
      rw [hm, hbefore, List.append_assoc]
      refine run.pushedExactly hentering ?_
      intro e he
      exact hpushes e (by rw [ht']; exact List.mem_append_left _ he)

/-- A read-back that confirms no upload of its id keeps anything from being written. -/
theorem not_pushed_of_readBack (hnone : ctx.uploadedIds = [])
    (hrun : (execute ctx).Returns tr (ctx', outcome)) {id : String}
    {read : Except SyncError CloudRecord} (hback : ReadBackIn tr id read)
    (hother : ∀ r ∈ ctx.uploads, r.id = id → ¬ r.Confirms read) :
    (∀ m answer, (StorageOp.writeMetadata m).answered answer ∉ tr) ∧
      (∃ e, outcome = .Error e) ∧ ctx'.finalMetadata = ctx.finalMetadata := by
  rcases pushRun_cases hnone hrun with hrecords | ⟨c, run, htrace, hend⟩
  · rcases hback with ⟨before, t, after, htr, -⟩
    have hmem : StorageOp.now.answered t ∈ tr := by
      rw [htr]
      simp
    rcases hrecords _ hmem with ⟨id, r, hcall⟩ | ⟨id, hcall⟩ <;> cases hcall
  · rcases hend with ⟨htail, herror, hfinal⟩ | ⟨m, pushedAt, t, hentering, htail, hpushes⟩
    · refine ⟨?_, herror, hfinal⟩
      intro m answer
      rw [htrace, PushRun.trace, htail, List.append_nil]
      exact run.not_write_early
    -- what follows the reads reads no record
    · have hnoread : ∀ e ∈ run.tail, ∀ id, e.call ≠ .readRecord id := by
        intro e he id' hcall
        rw [htail] at he
        rcases List.mem_cons.mp he with heq | he
        · rw [heq] at hcall
          cases hcall
        · have hpushed := hpushes e he
          rw [hcall] at hpushed
          exact hpushed
      have henters := run.enters
      rw [hentering] at henters
      have hreads := run.mem_reads hnoread (htrace ▸ hback)
      rcases (entered_of_enterUploads henters).2.2 id read hreads with ⟨r, hr, hid, hconfirms⟩
      exact absurd hconfirms (hother r ((run.mem_entered_iff r).mp hr).1 hid)

/-- Whatever the storage answers, what a push stage writes is the remote metadata with the
entries of the accepted uploads replaced; and a read-back that confirms no upload of its id ends
the stage in an error with nothing written. -/
theorem pushed_metadata_exact (hnone : ctx.uploadedIds = [])
    (hrun : (execute ctx).Returns tr (ctx', outcome)) :
    (∀ before m answer after,
        tr = before ++ (StorageOp.writeMetadata m).answered answer :: after →
        PushedExactly ctx before m) ∧
      ∀ id read, ReadBackIn tr id read → (∀ r ∈ ctx.uploads, r.id = id → ¬ r.Confirms read) →
        (∀ m answer, (StorageOp.writeMetadata m).answered answer ∉ tr) ∧
          (∃ e, outcome = .Error e) ∧ ctx'.finalMetadata = ctx.finalMetadata :=
  ⟨fun _ _ _ _ htr => pushedExactly_of_write hnone hrun htr,
    fun _ _ hback hother => not_pushed_of_readBack hnone hrun hback hother⟩

end PushStage

end

/-! ### An upload that is read back deleted -/

/-- The metadata was written, with an entry for the record. -/
def StorageOp.writesEntry (id : String) : StorageOp → Bool
  | .writeMetadata m => (m.records.lookup id).isSome
  | _ => false

namespace CloudStore

/-- A store in which every file is marked deleted before it is read. -/
def serveDeleted (now : DateTime) : Handler StorageI CloudStore
  | s, .readRecord id =>
      match s.records id with
      | some r => (.ok { r with deleted := some true }, s)
      | none => (.error (.RecordNotFound s!"{RECORDS_DIR}/{id}.json"), s)
  | s, op => serve now s op

/-- Its reads find nothing but deleted records. -/
theorem deleted_of_serveDeleted {α : Type} (now : DateTime) (p : Cloud α) (s : CloudStore)
    {id : String} {file : CloudRecord}
    (h : readEvent (id, .ok file) ∈ runTrace (serveDeleted now) p s) :
    file.deleted = some true := by
  have hall := forall_runTrace (h := serveDeleted now)
    (P := fun e => ∀ id file, e = readEvent (id, .ok file) → file.deleted = some true) (by
      intro u op id file heq
      cases op with
      | readRecord id' =>
          have hcall : StorageOp.readRecord id' = .readRecord id := congrArg Event.call heq
          injection hcall with hid
          subst hid
          injection heq with _ hanswer
          simp only [serveDeleted] at hanswer
          cases hfile : u.records id' with
          | none =>
              rw [hfile] at hanswer
              cases hanswer
          | some r =>
              rw [hfile] at hanswer
              cases hanswer
              rfl
      | _ =>
          have hcall := congrArg Event.call heq
          cases hcall) p s
  exact hall _ h id file rfl

end CloudStore

namespace PushStage

section

attribute [local instance] Sample.codec Sample.serde

/-- A push stage with one record to upload. -/
def uploadingOne : PipelineContext :=
  { PipelineContext.new 0 "token" with
    toUpload := [Sample.recordId]
    uploads := [Sample.record 1 "BAUG"] }

def deletedRun (ctx : PipelineContext) : PipelineContext × StageOutcome :=
  (run (CloudStore.serveDeleted Sample.instant) (execute ctx) CloudStore.empty).1

def deletedTrace (ctx : PipelineContext) : StorageTrace :=
  runTrace (CloudStore.serveDeleted Sample.instant) (execute ctx) CloudStore.empty

theorem returns_deleted (ctx : PipelineContext) :
    (execute ctx).Returns (deletedTrace ctx) ((deletedRun ctx).1, (deletedRun ctx).2) :=
  returns_runTrace _ _ _

/-- The rule at that push. -/
theorem pushed_metadata_exact_deleted :
    (∀ before m answer after,
        deletedTrace uploadingOne =
          before ++ (StorageOp.writeMetadata m).answered answer :: after →
        PushedExactly uploadingOne before m) ∧
      ∀ id read, ReadBackIn (deletedTrace uploadingOne) id read →
        (∀ r ∈ uploadingOne.uploads, r.id = id → ¬ r.Confirms read) →
        (∀ m answer, (StorageOp.writeMetadata m).answered answer ∉ deletedTrace uploadingOne) ∧
          (∃ e, (deletedRun uploadingOne).2 = .Error e) ∧
          (deletedRun uploadingOne).1.finalMetadata = uploadingOne.finalMetadata :=
  pushed_metadata_exact rfl (returns_deleted uploadingOne)

/-- The read-back differs from the upload in that it is deleted, and the metadata is pushed. -/
theorem deleted_read_back_pushed :
    ¬ ∀ (ctx ctx' : PipelineContext) outcome tr, ctx.uploadedIds = [] →
      (execute ctx).Returns tr (ctx', outcome) →
      ∀ before m answer after,
        tr = before ++ (StorageOp.writeMetadata m).answered answer :: after →
        ∀ r ∈ ctx.uploads, UploadedIn before r.id →
          ∀ read, ReadBackIn before r.id read →
            ∃ file, read = .ok file ∧ r.ConfirmedBy file ∧
              file.deleted.getD false = r.deleted.getD false := by
  intro hall
  have hwrites : ((deletedTrace uploadingOne).any fun e =>
      StorageOp.writesEntry Sample.recordId e.call) = true := by decide +kernel
  rcases List.any_eq_true.mp hwrites with ⟨⟨op, answer⟩, hmem, hentry⟩
  cases op with
  | writeMetadata m =>
      rcases List.append_of_mem hmem with ⟨before, after, htr⟩
      have hexact := pushedExactly_of_write rfl (returns_deleted uploadingOne) htr
      have huploaded : UploadedIn before Sample.recordId := by
        -- the entry is there because the record was uploaded
        by_contra hnot
        have hnone := hexact.others _ hnot
        have hsome : (m.records.lookup Sample.recordId).isSome = true := hentry
        rw [hnone] at hsome
        cases hsome
      have hr : Sample.record 1 "BAUG" ∈ uploadingOne.uploads := List.mem_singleton_self _
      rcases hexact.confirmed _ hr huploaded with ⟨file, hread, -⟩
      rcases hall _ _ _ _ rfl (returns_deleted uploadingOne) before m answer after htr _ hr huploaded
        _ hread with ⟨file', hfile, -, hdeleted⟩
      cases hfile
      have hmarked : file.deleted = some true := by
        -- what was read back before the write is the deleted record
        rcases hread with ⟨front, t, back, hbefore, hlater⟩
        have hevent : readEvent ((Sample.record 1 "BAUG").id, .ok file) ∈
            deletedTrace uploadingOne := by
          rw [htr, hbefore]
          exact List.mem_append_left _ (List.mem_append_right _ (List.mem_cons_of_mem _ hlater))
        exact CloudStore.deleted_of_serveDeleted Sample.instant _ _ hevent
      rw [hmarked] at hdeleted
      cases hdeleted
  | _ => cases hentry

end

end PushStage

end OakKeyring
