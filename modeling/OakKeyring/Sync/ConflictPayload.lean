import OakKeyring.Sync.ConflictQueue
import OakKeyring.Lib.Checks

/-!
# The record kept for a conflict

A downloaded record should be the one its metadata entry describes. The push stage compares
only the ciphertext of a conflicting record with the entry, not its id, its version or its
private metadata.
-/

namespace OakKeyring

open Effect

/-- What is read of a stored conflict is what was written, and an AAD can be written. -/
class LawfulConflictJson [Serde] : Prop where
  conflictPayload_fromJson_toJson : ∀ {p : ConflictPayload} {b : Bytes},
    conflictPayloadToJson p = .ok b → conflictPayloadFromJson b = .ok p
  aadToJson_isOk : ∀ aad : AadFields, ∃ json, aadToJson aad = .ok json

section

variable [Codec] [Serde]

/-- The record file is the one a metadata entry describes. -/
structure CloudRecord.MatchesEntry (r : CloudRecord) (id : String) (info : RecordVersionInfo) :
    Prop where
  id : r.id = id
  describes : Describes info r

/-- The fields that overwrite the local row are those of the record. -/
structure KeepRemoteData.Shows (data : KeepRemoteData) (r : CloudRecord) : Prop where
  cloudRecord : data.cloudRecord = r
  encryptedData : data.encryptedDataBase64 = r.encryptedData
  nonce : data.nonceBase64 = r.nonce
  dekVersion : data.dekVersion = r.dekVersion
  aad : aadToJson r.aad = .ok data.aadJson
  version : data.version = r.version
  updatedAt : data.updatedAt = r.metadata.updatedAt

/-- The record is valid, its ciphertext has the checksum, and both can be written as JSON. -/
structure CloudRecord.Storable (r : CloudRecord) (checksum : String) : Prop where
  validate : r.validate = .ok ()
  ciphertext : r.computeChecksum = .ok checksum
  serialize : (conflictPayloadToJson { cloudRecord := r, checksum := checksum }).isOk = true

/-! ## Storing and reading back -/

omit [Serde] in
theorem ConflictPayload.validate_eq_ok_iff (p : ConflictPayload) :
    p.validate = .ok () ↔
      p.cloudRecord.validate = .ok () ∧ p.cloudRecord.computeChecksum = .ok p.checksum := by
  unfold ConflictPayload.validate
  simp only [Checks.bind_eq_ok_iff, Checks.last_throw_eq_ok_iff, not_not]
  constructor
  · rintro ⟨u, hvalid, computed, hchecksum, heq, -⟩
    rw [heq] at hchecksum
    exact ⟨hvalid, hchecksum⟩
  · intro h
    exact ⟨(), h.1, p.checksum, h.2, rfl, rfl⟩

theorem storeConflict_eq_ok_iff (r : CloudRecord) (checksum : String) (b : Bytes) :
    storeConflict r checksum = .ok b ↔
      r.validate = .ok () ∧ r.computeChecksum = .ok checksum ∧
        conflictPayloadToJson { cloudRecord := r, checksum := checksum } = .ok b := by
  unfold storeConflict ConflictPayload.serialize
  simp only [Checks.bind_eq_ok_iff, Checks.mapError_eq_ok_iff]
  constructor
  · rintro ⟨u, hvalid, hjson⟩
    have hboth := (ConflictPayload.validate_eq_ok_iff _).mp hvalid
    exact ⟨hboth.1, hboth.2, hjson⟩
  · rintro ⟨hvalid, hchecksum, hjson⟩
    exact ⟨(), (ConflictPayload.validate_eq_ok_iff _).mpr ⟨hvalid, hchecksum⟩, hjson⟩

theorem isOk_storeConflict_iff (r : CloudRecord) (checksum : String) :
    (storeConflict r checksum).isOk = true ↔ r.Storable checksum := by
  constructor
  · intro hok
    cases hstore : storeConflict r checksum with
    | error e =>
        rw [hstore] at hok
        cases hok
    | ok b =>
        rcases (storeConflict_eq_ok_iff r checksum b).mp hstore with ⟨hvalid, hchecksum, hjson⟩
        exact ⟨hvalid, hchecksum, by rw [hjson]; rfl⟩
  · intro hstorable
    cases hjson : conflictPayloadToJson { cloudRecord := r, checksum := checksum } with
    | error e =>
        have hserialize := hstorable.serialize
        rw [hjson] at hserialize
        cases hserialize
    | ok b =>
        have hstore := (storeConflict_eq_ok_iff r checksum b).mpr
          ⟨hstorable.validate, hstorable.ciphertext, hjson⟩
        rw [hstore]
        rfl

/-- The stored record comes back with all its fields. -/
theorem resolveKeepRemote_storeConflict [LawfulConflictJson] {r : CloudRecord} {checksum : String}
    {b : Bytes} (h : storeConflict r checksum = .ok b) :
    ∃ data, resolveKeepRemote b = .ok data ∧ data.Shows r := by
  rcases (storeConflict_eq_ok_iff r checksum b).mp h with ⟨hvalid, hchecksum, hjson⟩
  have hread : ConflictPayload.deserialize b = .ok { cloudRecord := r, checksum := checksum } := by
    unfold ConflictPayload.deserialize
    rw [LawfulConflictJson.conflictPayload_fromJson_toJson hjson]
    rfl
  have hvalidate :=
    (ConflictPayload.validate_eq_ok_iff { cloudRecord := r, checksum := checksum }).mpr
      ⟨hvalid, hchecksum⟩
  rcases LawfulConflictJson.aadToJson_isOk r.aad with ⟨json, haad⟩
  refine ⟨{ cloudRecord := r
            encryptedDataBase64 := r.encryptedData
            nonceBase64 := r.nonce
            dekVersion := r.dekVersion
            aadJson := json
            version := r.version
            updatedAt := r.metadata.updatedAt }, ?_, rfl, rfl, rfl, rfl, haad, rfl, rfl⟩
  simp [resolveKeepRemote, hread, hvalidate, haad, Bind.bind, Except.bind, Except.mapError, pure,
    Except.pure]

namespace PushStage

theorem storedConflict_eq_some_iff {info? : Option RecordVersionInfo}
    {read : Except SyncError CloudRecord} {b : Bytes} :
    storedConflict info? read = some b ↔ ∃ info r, info? = some info ∧ read = .ok r ∧
      storeConflict r info.checksum = .ok b := by
  cases info? with
  | none => simp [storedConflict]
  | some info =>
      cases read with
      | error e => simp [storedConflict]
      | ok r => cases hstore : storeConflict r info.checksum <;>
          simp [storedConflict, hstore, Except.toOption]

theorem isSome_storedConflict_iff (info : RecordVersionInfo) (r : CloudRecord) :
    (storedConflict (some info) (.ok r)).isSome = true ↔ r.Storable info.checksum := by
  refine Iff.trans ?_ (isOk_storeConflict_iff r info.checksum)
  cases hstore : storeConflict r info.checksum <;>
    simp [storedConflict, hstore, Except.toOption, Except.isOk, Except.toBool]

end PushStage

/-! ## The conflicts of a run -/

namespace PushPhases

variable {ctx : PipelineContext} {tr : StorageTrace}

/-- The answer to the read of a conflicting record, with the entry the conflict was detected
from. -/
def ReadsConflict (ph : PushPhases ctx tr) (id : String) (info : RecordVersionInfo)
    (read : Except SyncError CloudRecord) : Prop :=
  (id, read) ∈ ph.conflicts ∧ ph.detected.remoteInfo id = some info

omit [Serde] in
theorem ReadsConflict.of_trace {ph' : PushPhases ctx tr} {id : String} {info : RecordVersionInfo}
    {read : Except SyncError CloudRecord} (h : ph'.ReadsConflict id info read)
    (ph : PushPhases ctx tr) : ph.ReadsConflict id info read := by
  have hsame := eq_of_trace ph' ph
  refine ⟨hsame.2.2.2 ▸ h.1, ?_⟩
  have hinfo := h.2
  rw [detected, hsame.1] at hinfo
  exact hinfo

omit [Serde] in
/-- The entry is in the metadata that the run read. -/
theorem ReadsConflict.metadata {ph : PushPhases ctx tr} {id : String} {info : RecordVersionInfo}
    {read : Except SyncError CloudRecord} (h : ph.ReadsConflict id info read) :
    ∃ m, ph.read = .ok m ∧ m.records.lookup id = some info := by
  have hinfo := h.2
  unfold detected at hinfo
  rcases SyncPipeline.prepare_cases ctx ph.read with
    ⟨outcome, hstop, hp⟩ | ⟨m, hread, -, -, hp⟩ | ⟨-, hp⟩
  · have hcontinues := ph.continues
    rw [hp] at hcontinues
    exact absurd hcontinues hstop
  · refine ⟨m, hread, ?_⟩
    rw [hp] at hinfo
    unfold PipelineContext.remoteInfo at hinfo
    rw [(DetectStage.remoteMetadata_execute _).1] at hinfo
    exact hinfo
  · rw [hp] at hinfo
    unfold PipelineContext.remoteInfo at hinfo
    rw [(DetectStage.remoteMetadata_execute _).1] at hinfo
    cases hinfo

/-- No record that passes for the conflicting one is another than its entry describes. -/
def ConflictsMatch (ph : PushPhases ctx tr) : Prop :=
  ∀ id info r, ph.ReadsConflict id info (.ok r) → r.Storable info.checksum →
    r.MatchesEntry id info

end PushPhases

/-- What a run keeps for its conflicts: each stored record is the downloaded one, resolves to
it and is the one of the entry; a file with anything else is stored nowhere and counted as
failed. -/
structure ConflictsFaithful (ctx : PipelineContext) (tr : StorageTrace) (ctx' : PipelineContext) :
    Prop where
  stored : ∀ id b, ctx'.conflictDataMap.lookup id = some b →
    ∃ (ph : PushPhases ctx tr) (info : RecordVersionInfo) (r : CloudRecord) (data : KeepRemoteData),
      ph.ReadsConflict id info (.ok r) ∧ r.MatchesEntry id info ∧
        resolveKeepRemote b = .ok data ∧ data.Shows r
  refused : ∀ (ph : PushPhases ctx tr) id info read, ph.ReadsConflict id info read →
    readAbsent read = false → (∀ r, read = .ok r → ¬ r.MatchesEntry id info) →
    ctx'.conflictDataMap.lookup id = none ∧ id ∈ ctx'.failedIds

namespace SyncPipeline

variable {ctx ctx' : PipelineContext} {tr : StorageTrace} {outcome : StageOutcome}
  {ph : PushPhases ctx tr}

/-- The data a finished push stage leaves for the conflicts of a fresh context. -/
theorem conflictDataMap_of_finish (hfresh : ctx.Fresh)
    (hfinish : (PushStage.finish (PushStage.afterAnswers ph.detected ph.uploads ph.downloads
      ph.conflicts)).Returns ph.rest (ctx', outcome)) :
    ctx'.conflictDataMap = AList.collect
        (fun a => PushStage.storedConflict (ph.detected.remoteInfo a.1) a.2) ph.conflicts ∅ ∧
      ∀ id ∈ PushStage.rejectedConflicts ph.detected.remoteInfo ph.conflicts,
        id ∈ ctx'.failedIds := by
  rcases PushStage.finish_frame hfinish with ⟨final, hctx', -⟩
  have hempty : ph.detected.conflictDataMap = ∅ := (prepare_fresh hfresh ph.read).2.2.1
  rw [hctx', ← hempty]
  exact ⟨rfl, fun id hid => List.mem_append_right _ hid⟩

/-- What is stored under an id was read for the conflict of that id. -/
theorem conflict_of_stored (hfresh : ctx.Fresh)
    (hfinish : (PushStage.finish (PushStage.afterAnswers ph.detected ph.uploads ph.downloads
      ph.conflicts)).Returns ph.rest (ctx', outcome))
    {id : String} {b : Bytes} (hb : ctx'.conflictDataMap.lookup id = some b) :
    ∃ info r, ph.ReadsConflict id info (.ok r) ∧ storeConflict r info.checksum = .ok b := by
  rw [(conflictDataMap_of_finish hfresh hfinish).1] at hb
  rcases AList.lookup_collect hb with hold | ⟨⟨id', read⟩, ha, hid, hstored⟩
  · cases hold
  · cases hid
    rcases PushStage.storedConflict_eq_some_iff.mp hstored with ⟨info, r, hinfo, hr, hstore⟩
    cases hr
    exact ⟨info, r, ⟨ha, hinfo⟩, hstore⟩

/-- Among conflicts of distinct ids, the one read of an id decides what is stored under it. -/
theorem lookup_conflictDataMap (hfresh : ctx.Fresh)
    (hnodup : (ph.conflicts.map Prod.fst).Nodup)
    (hfinish : (PushStage.finish (PushStage.afterAnswers ph.detected ph.uploads ph.downloads
      ph.conflicts)).Returns ph.rest (ctx', outcome))
    {id : String} {info : RecordVersionInfo} {read : Except SyncError CloudRecord}
    (hread : ph.ReadsConflict id info read) :
    ctx'.conflictDataMap.lookup id = PushStage.storedConflict (some info) read ∧
      (PushStage.storedConflict (some info) read = none → readAbsent read = false →
        id ∈ ctx'.failedIds) := by
  have hfinal := conflictDataMap_of_finish hfresh hfinish
  refine ⟨?_, ?_⟩
  · rw [hfinal.1]
    -- what is stored for the conflict is what was made of its record
    have hfound : ∀ b, (AList.collect (fun a => PushStage.storedConflict
        (ph.detected.remoteInfo a.1) a.2) ph.conflicts ∅).lookup id = some b →
        PushStage.storedConflict (some info) read = some b := by
      intro b hb
      rcases AList.lookup_collect hb with hold | ⟨a, ha, hid, hstored⟩
      · cases hold
      · rw [List.inj_on_of_nodup_map hnodup ha hread.1 hid, hread.2] at hstored
        exact hstored
    cases hlookup : (AList.collect (fun a => PushStage.storedConflict
        (ph.detected.remoteInfo a.1) a.2) ph.conflicts ∅).lookup id with
    | some b => exact (hfound b hlookup).symm
    -- a record that could be stored is not missing from the map
    | none =>
        by_contra hsome
        have hkept := AList.isSome_lookup_collect_of_mem
          (f := fun a => PushStage.storedConflict (ph.detected.remoteInfo a.1) a.2) (m := ∅)
          hread.1 (by
            rw [hread.2]
            exact Option.isSome_iff_ne_none.mpr (Ne.symm hsome))
        rw [hlookup] at hkept
        cases hkept
  · intro hnone hpresent
    apply hfinal.2
    refine List.mem_map.mpr ⟨(id, read), List.mem_filter.mpr ⟨hread.1, ?_⟩, rfl⟩
    simp [hread.2, hnone, hpresent]

/-- In every run over distinct rows, the conflicts are kept faithfully exactly when each record
that passes the checks on its form and ciphertext also has the id, the version and the private
metadata of the entry. -/
theorem conflicts_faithful_iff [LawfulConflictJson] {t : SyncTask} {ctx' : PipelineContext}
    {result : PipelineResult} {tr : StorageTrace}
    (hrows : (t.pipelineContext.localRecords.map LocalRecordInfo.recordId).Nodup)
    (hrun : (execute t.pipelineContext).Returns tr (ctx', result)) :
    ConflictsFaithful t.pipelineContext tr ctx' ↔
      ∀ ph : PushPhases t.pipelineContext tr, ph.ConflictsMatch := by
  have hfresh := t.pipelineContext_fresh
  rcases stops_or_pushes hfresh hrun with ⟨read, htr, hstop, hctx', -⟩ | ⟨ph, outcome, -, hfinish⟩
  -- nothing was downloaded, so nothing was stored
  · have hno : PushPhases t.pipelineContext tr → False := PushPhases.not_of_stopped htr hstop
    have hempty : ctx'.conflictDataMap = ∅ := by
      rw [hctx']
      exact (prepare_fresh hfresh read).2.2.1
    refine ⟨fun _ ph => (hno ph).elim, fun _ => ⟨?_, fun ph => (hno ph).elim⟩⟩
    intro id b hb
    rw [hempty] at hb
    cases hb
  · have hnodup : (ph.conflicts.map Prod.fst).Nodup := by
      rw [ph.conflicts_eq]
      exact nodup_conflicts_prepare t.pipelineContext_undetected.1 hrows ph.read
    have hdecides := fun (ph' : PushPhases t.pipelineContext tr) {id info read}
        (h : ph'.ReadsConflict id info read) =>
      lookup_conflictDataMap hfresh hnodup hfinish (h.of_trace ph)
    constructor
    · intro hfaithful ph' id info r hread hstorable
      by_contra hother
      have hrefused := hfaithful.refused ph' id info (.ok r) hread rfl (by
        intro r' hr'
        cases hr'
        exact hother)
      have hstored := (PushStage.isSome_storedConflict_iff info r).mpr hstorable
      rw [← (hdecides ph' hread).1, hrefused.1] at hstored
      cases hstored
    · intro hmatch
      refine ⟨?_, ?_⟩
      · intro id b hb
        rcases conflict_of_stored hfresh hfinish hb with ⟨info, r, hread, hstore⟩
        have hstorable := (isOk_storeConflict_iff r info.checksum).mp (by rw [hstore]; rfl)
        rcases resolveKeepRemote_storeConflict hstore with ⟨data, hdata, hshows⟩
        exact ⟨ph, info, r, data, hread, hmatch ph id info r hread hstorable, hdata, hshows⟩
      · intro ph' id info read hread hpresent hother
        -- a record that does not match its checksum is not stored
        have hnone : PushStage.storedConflict (some info) read = none := by
          by_contra hsome
          rcases Option.ne_none_iff_exists'.mp hsome with ⟨b, hb⟩
          rcases PushStage.storedConflict_eq_some_iff.mp hb with ⟨i, r, hi, hr, hstore⟩
          cases hi
          have hstorable := (isOk_storeConflict_iff r info.checksum).mp (by rw [hstore]; rfl)
          exact hother r hr (hmatch ph' id info r (hr ▸ hread) hstorable)
        have hkept := hdecides ph' hread
        exact ⟨hkept.1.trans hnone, hkept.2 hnone hpresent⟩

end SyncPipeline

end

/-! ### A file that is already newer than its entry -/

/-- The metadata was read, and lists the record with the version. -/
def StorageOp.lists (id : String) (version : Nat) : (op : StorageOp) → op.Answer → Bool
  | .readMetadata, answer =>
      match answer with
      | .ok m => (m.records.lookup id).any fun info => info.version == version
      | .error _ => false
  | _, _ => false

/-- The version of the entry that a conflict was detected from. -/
theorem PushPhases.ReadsConflict.version [Codec] {ctx : PipelineContext} {tr : StorageTrace}
    {ph : PushPhases ctx tr} {id : String} {info : RecordVersionInfo}
    {read : Except SyncError CloudRecord} {version : Nat} (h : ph.ReadsConflict id info read)
    (hlists : (tr.head?.any fun e => StorageOp.lists id version e.call e.answer) = true) :
    info.version = version := by
  rcases h.metadata with ⟨m, hm, hentry⟩
  have hhead : tr.head? = some (StorageOp.readMetadata.answered (.ok m)) := by
    rw [← hm]
    exact congrArg List.head? ph.trace_eq
  rw [hhead] at hlists
  have hversion : ((m.records.lookup id).any fun info => info.version == version) = true := hlists
  rw [hentry] at hversion
  exact beq_iff_eq.mp hversion

/-- A record file that was read has the version. -/
def StorageOp.readsVersion (version : Nat) : (op : StorageOp) → op.Answer → Bool
  | .readRecord _, answer =>
      match answer with
      | .ok r => r.version == version
      | .error _ => true
  | _, _ => true

/-- The version of a file that was read for a conflict. -/
theorem PushPhases.ReadsConflict.fileVersion [Codec] {ctx : PipelineContext} {tr : StorageTrace}
    {ph : PushPhases ctx tr} {id : String} {info : RecordVersionInfo} {r : CloudRecord}
    {version : Nat} (h : ph.ReadsConflict id info (.ok r))
    (hreads : (tr.all fun e => StorageOp.readsVersion version e.call e.answer) = true) :
    r.version = version := by
  have hmem : readEvent (id, .ok r) ∈ tr := by
    rw [ph.trace_eq]
    refine List.mem_cons_of_mem _ (List.mem_append_right _ (List.mem_append_right _ ?_))
    exact List.mem_append_left _ (List.mem_map_of_mem h.1)
  have hversion : (r.version == version) = true := List.all_eq_true.mp hreads _ hmem
  exact beq_iff_eq.mp hversion

/-- JSON of conflict payloads, for one payload. -/
@[reducible] def payloadSerde (p : ConflictPayload) : Serde :=
  { referenceSerde [] [p] [] with
    conflictPayloadToJson := fun q =>
      if q = p then .ok (Json.bytes (Json.conflictPayload q)) else .error "not a sample payload" }

theorem payloadSerde_lawful (p : ConflictPayload) : @LawfulConflictJson (payloadSerde p) :=
  letI : Serde := payloadSerde p
  { conflictPayload_fromJson_toJson := by
      intro q b hjson
      have hprinted : (if q = p then Except.ok (Json.bytes (Json.conflictPayload q))
          else .error "not a sample payload") = (.ok b : Except String Bytes) := hjson
      by_cases hq : q = p
      · rw [if_pos hq] at hprinted
        rw [← Except.ok.inj hprinted, hq]
        exact Json.read_of_nodup (List.nodup_singleton _) (List.mem_singleton_self _)
      · rw [if_neg hq] at hprinted
        cases hprinted
    aadToJson_isOk := fun aad => ⟨_, rfl⟩ }

namespace SyncPipeline

section

attribute [local instance] Sample.codec

/-- A store whose record file has version 4 while the metadata still lists version 3. -/
def overtakenStore : CloudStore :=
  DeviceState.newerStore.putRecord Sample.recordId (Sample.record 4 "AQID")

@[reducible] def overtakenSerde : Serde :=
  payloadSerde
    { cloudRecord := Sample.record 4 "AQID"
      checksum := "039058c6f2c0cb492c533b0a4d14ef77cc0f78abccced5287d84a1a2011cfb81" }

attribute [local instance] overtakenSerde

theorem overtaken_lawful : LawfulConflictJson :=
  payloadSerde_lawful _

attribute [local instance] overtaken_lawful

/-- A device with a pending edit of version 1. -/
def editedDevice : SyncTask :=
  { SyncTask.new (SyncStateMachine.new 5) with vaultData := some DeviceState.editedRow }

/-- A run of the pipeline over a store without faults. -/
def servedRun (s : CloudStore) (t : SyncTask) : PipelineContext × PipelineResult :=
  (run (CloudStore.serve Sample.instant) (execute t.pipelineContext) s).1

def servedTrace (s : CloudStore) (t : SyncTask) : StorageTrace :=
  runTrace (CloudStore.serve Sample.instant) (execute t.pipelineContext) s

theorem returns_served (s : CloudStore) (t : SyncTask) :
    (execute t.pipelineContext).Returns (servedTrace s t)
      ((servedRun s t).1, (servedRun s t).2) :=
  returns_runTrace _ _ _

theorem editedDevice_rows :
    (editedDevice.pipelineContext.localRecords.map LocalRecordInfo.recordId).Nodup := by
  decide

/-- The rule at that run. -/
theorem conflicts_faithful_iff_overtaken :
    ConflictsFaithful editedDevice.pipelineContext (servedTrace overtakenStore editedDevice)
        (servedRun overtakenStore editedDevice).1 ↔
      ∀ ph : PushPhases editedDevice.pipelineContext (servedTrace overtakenStore editedDevice),
        ph.ConflictsMatch :=
  conflicts_faithful_iff editedDevice_rows (returns_served _ _)

/-- Version 4 is stored for a conflict with version 3. -/
theorem overtaken_conflict_stored :
    ¬ ∀ (t : SyncTask) tr ctx' result,
      (t.pipelineContext.localRecords.map LocalRecordInfo.recordId).Nodup →
      (execute t.pipelineContext).Returns tr (ctx', result) →
      ConflictsFaithful t.pipelineContext tr ctx' := by
  intro hall
  have hfaithful := hall editedDevice _ _ _ editedDevice_rows (returns_served overtakenStore _)
  have hkept : ((servedRun overtakenStore editedDevice).1.conflictDataMap.lookup
      Sample.recordId).isSome = true := by decide +kernel
  rcases Option.isSome_iff_exists.mp hkept with ⟨b, hlookup⟩
  rcases hfaithful.stored _ _ hlookup with ⟨ph, info, r, data, hread, hmatch, -, -⟩
  have hentry : info.version = 3 := hread.version (by decide +kernel)
  have hfile : r.version = 4 := hread.fileVersion (by decide +kernel)
  have hsame := hmatch.describes.version
  rw [hentry, hfile] at hsame
  cases hsame

end

end SyncPipeline

end OakKeyring
