import OakKeyring.Cloud.Faults
import OakKeyring.Sync.Settled

/-!
# The errors of a cycle

A cycle ends in an error of cloud storage, or in one that the pipeline makes itself of the
documents it has read. None of them is an unreachable network.
-/

namespace OakKeyring

open Effect Checks

variable [Regex]

/-- Any answer that cloud storage can give; there is no state to keep. -/
def reportedEnv : Env StorageI Unit :=
  fun _ op answer _ => CloudStorage.Reported ⟨op, answer⟩

theorem path_reportedEnv {tr : StorageTrace} (h : ∀ ev ∈ tr, CloudStorage.Reported ev) :
    Path reportedEnv () tr () := by
  induction tr with
  | nil => rfl
  | cons ev tr ih =>
      exact ⟨(), h ev List.mem_cons_self, ih fun e he => h e (List.mem_cons_of_mem ev he)⟩

/-- On the answers of cloud storage the program ends in `Q`. -/
abbrev Yields {α : Type} (Q : α → Prop) (p : Cloud α) : Prop :=
  wp reportedEnv (fun a _ => Q a) p ()

theorem Yields.of_returns {α : Type} {Q : α → Prop} {p : Cloud α} {tr : StorageTrace} {a : α}
    (h : Yields Q p) (hreports : ∀ ev ∈ tr, CloudStorage.Reported ev) (hret : p.Returns tr a) :
    Q a :=
  (wp_iff _ _ _ _).mp h tr a () hret (path_reportedEnv hreports)

theorem Yields.bind {α β : Type} {P : α → Prop} {Q : β → Prop} {p : Cloud α} {f : α → Cloud β}
    (hp : Yields P p) (hf : ∀ a, P a → Yields Q (f a)) : Yields Q (p >>= f) := by
  unfold Yields
  rw [wp_bind]
  exact wp_mono (fun a _ ha => hf a ha) hp

theorem yields_any {α : Type} (p : Cloud α) : Yields (fun _ => True) p := by
  unfold Yields
  rw [wp_iff]
  intro _ _ _ _ _
  trivial

variable [Codec] [Serde]

/-! ## Records -/

omit [Serde] [Regex] in
theorem CloudRecord.validateNonce_reachable (r : CloudRecord) :
    FailsIn SyncError.Reachable r.validateNonce := by
  unfold CloudRecord.validateNonce
  split
  · exact failsIn_error_iff.mpr not_false
  · split
    · exact failsIn_error_iff.mpr not_false
    · split
      · exact failsIn_error_iff.mpr not_false
      · exact failsIn_ok

omit [Serde] [Regex] in
theorem CloudRecord.validate_reachable (r : CloudRecord) :
    FailsIn SyncError.Reachable r.validate := by
  unfold CloudRecord.validate
  -- the checks before the nonce, the nonce, and those after it
  iterate 4 refine .unless_throw not_false ?_
  refine .bind r.validateNonce_reachable fun _ => ?_
  iterate 4 refine .unless_throw not_false ?_
  exact .last_throw not_false failsIn_ok

omit [Serde] [Regex] in
theorem computeChecksum_reachable (data : String) :
    FailsIn SyncError.Reachable (computeChecksum data) := by
  unfold computeChecksum
  split
  · exact failsIn_error_iff.mpr not_false
  · exact failsIn_ok

omit [Regex] in
theorem CloudRecord.computePrivateMetadataChecksum_reachable (r : CloudRecord) :
    FailsIn SyncError.Reachable r.computePrivateMetadataChecksum := by
  unfold CloudRecord.computePrivateMetadataChecksum
  split
  · exact failsIn_ok
  · split
    · exact failsIn_error_iff.mpr not_false
    · exact failsIn_ok

/-! ## The push -/

namespace PushStage

omit [Regex] in
theorem checkUploaded_reachable (expected downloaded : CloudRecord) :
    FailsIn SyncError.Reachable (checkUploaded expected downloaded) := by
  unfold checkUploaded
  refine .bind downloaded.validate_reachable fun _ => ?_
  refine .unless_throw not_false (.unless_throw not_false ?_)
  refine .bind (computeChecksum_reachable _) fun _ => ?_
  refine .bind (computeChecksum_reachable _) fun _ => .unless_throw not_false ?_
  refine .bind expected.computePrivateMetadataChecksum_reachable fun _ => ?_
  refine .bind downloaded.computePrivateMetadataChecksum_reachable fun _ => ?_
  exact .last_throw not_false failsIn_ok

omit [Regex] in
theorem uploadedInfo_reachable (now : DateTime) (record : CloudRecord) :
    FailsIn SyncError.Reachable (uploadedInfo now record) := by
  unfold uploadedInfo
  refine .bind (computeChecksum_reachable _) fun _ => ?_
  exact .bind record.computePrivateMetadataChecksum_reachable fun _ => failsIn_ok

omit [Codec] [Serde] [Regex] in
theorem checkExpectedVersion_reachable (expectedVersion : Nat) (current : Option CloudMetadata) :
    FailsIn SyncError.Reachable (CloudStorage.checkExpectedVersion expectedVersion current) := by
  unfold CloudStorage.checkExpectedVersion
  split
  · split
    · exact failsIn_error_iff.mpr not_false
    · exact failsIn_ok
  · split
    · exact failsIn_error_iff.mpr not_false
    · exact failsIn_ok

theorem yields_verifyUploadedRecord (expected : CloudRecord) :
    Yields (FailsIn SyncError.Reachable) (verifyUploadedRecord expected) := by
  rintro (read : Except SyncError CloudRecord) ⟨⟩ hreported
  cases read with
  | ok record => exact checkUploaded_reachable expected record
  | error e =>
      have hreports : CloudStorage.Reports e := hreported e rfl
      cases e with
      | RecordNotFound id => exact failsIn_error_iff.mpr not_false
      | _ => exact failsIn_error_iff.mpr hreports.reachable

theorem yields_enterUploads (now : DateTime) (records : List CloudRecord) (m : CloudMetadata) :
    Yields (FailsIn SyncError.Reachable) (enterUploads now records m) := by
  induction records generalizing m with
  | nil => exact failsIn_ok
  | cons record rest ih =>
      refine (yields_verifyUploadedRecord record).bind ?_
      intro verified hverified
      cases verified with
      | error e => exact failsIn_error_iff.mpr (hverified e rfl)
      | ok _ =>
          dsimp only
          cases hinfo : uploadedInfo now record with
          | error e => exact failsIn_error_iff.mpr (uploadedInfo_reachable now record e hinfo)
          | ok info => exact ih _

omit [Serde] in
theorem yields_downloadMetadata :
    Yields (FailsIn SyncError.Reachable) CloudStorage.downloadMetadata := by
  rintro (read : Except SyncError CloudMetadata) ⟨⟩ hreported
  refine CloudStorage.metadataOfRead_reachable ?_
  intro e he
  rw [he] at hreported
  exact hreported e rfl

omit [Codec] [Serde] in
theorem yields_uploadMetadata (m : CloudMetadata) :
    Yields (FailsIn SyncError.Reachable) (CloudStorage.uploadMetadata m) := by
  rintro (answer : Except SyncError Unit) ⟨⟩ hreported
  intro e he
  rw [he] at hreported
  exact CloudStorage.Reports.reachable (hreported e rfl)

omit [Serde] in
theorem yields_pushMetadataAtomic (m : CloudMetadata) (expectedVersion : Nat) :
    Yields (FailsIn SyncError.Reachable) (CloudStorage.pushMetadataAtomic m expectedVersion) := by
  refine yields_downloadMetadata.bind ?_
  intro downloaded hdownloaded
  cases downloaded with
  | error e => exact failsIn_error_iff.mpr (hdownloaded e rfl)
  | ok current =>
      dsimp only
      -- the check is about the version that was just downloaded
      cases hcheck : CloudStorage.checkExpectedVersion expectedVersion current with
      | error e => exact failsIn_error_iff.mpr (checkExpectedVersion_reachable _ _ e hcheck)
      | ok _ => exact yields_uploadMetadata m

theorem yields_pushUpdatedMetadata (ctx : PipelineContext) :
    Yields (FailsIn SyncError.Reachable) (pushUpdatedMetadata ctx) := by
  refine (yields_any _).bind fun now _ => (yields_any _).bind fun base _ => ?_
  refine (yields_enterUploads now _ base.1).bind ?_
  intro entered hentered
  cases entered with
  | error e => exact hentered
  | ok entered =>
      refine (yields_any _).bind fun incrementedAt _ => ?_
      refine (yields_pushMetadataAtomic _ base.2).bind ?_
      intro pushed hpushed
      cases pushed with
      | error e => exact failsIn_error_iff.mpr (hpushed e rfl)
      | ok _ => exact failsIn_ok

end PushStage

/-! ## The stages -/

/-- If the stage ends the pipeline with an error, the error is no unreachable network. -/
def StageOutcome.Reachable : StageOutcome → Prop
  | .Error e => e.Reachable
  | _ => True

theorem yields_push (ctx : PipelineContext) :
    Yields (fun out => out.2.Reachable) (PushStage.execute ctx) := by
  refine (yields_any _).bind fun uploaded _ => (yields_any _).bind fun downloaded _ => ?_
  refine (yields_any _).bind fun fetched _ => ?_
  have hsettled : (PushStage.outcome fetched).Reachable := by
    unfold PushStage.outcome
    split <;> trivial
  change Yields _ (if fetched.uploadedIds = [] then _ else _)
  split
  · exact hsettled
  · refine (PushStage.yields_pushUpdatedMetadata fetched).bind ?_
    intro pushed hpushed
    cases pushed with
    | error e => exact hpushed e rfl
    | ok updated => exact hsettled

omit [Serde] in
theorem yields_pull (ctx : PipelineContext) :
    Yields (fun out => out.2.Reachable) (PullMetadataStage.execute ctx) := by
  rintro (read : Except SyncError CloudMetadata) ⟨⟩ hreported
  have hread : FailsIn SyncError.Reachable (CloudStorage.metadataOfRead read) := by
    refine CloudStorage.metadataOfRead_reachable ?_
    intro e he
    rw [he] at hreported
    exact hreported e rfl
  change (PullMetadataStage.receive ctx (CloudStorage.metadataOfRead read)).2.Reachable
  cases hcurrent : CloudStorage.metadataOfRead read with
  | error e => exact hread e hcurrent
  | ok current =>
      cases current with
      | none => trivial
      | some m =>
          change (PullMetadataStage.receiveMetadata ctx m).2.Reachable
          unfold PullMetadataStage.receiveMetadata
          split
          · trivial
          · split
            · exact not_false
            · trivial

theorem yields_stage (stage : Stage) (ctx : PipelineContext) :
    Yields (fun out => out.2.Reachable) (stage.execute ctx) := by
  cases stage with
  | PullMetadata => exact yields_pull ctx
  | Push => exact yields_push ctx
  | Detect =>
      change (DetectStage.execute ctx).2.Reachable
      unfold DetectStage.execute
      split
      · trivial
      · dsimp only
        split <;> trivial
  | Resolve =>
      change (ResolveStage.execute ctx).2.Reachable
      unfold ResolveStage.execute
      dsimp only
      split <;> trivial

/-- Run lemma: whatever stages are run, none ends them with an unreachable network. -/
theorem yields_runStages (stages : List Stage) (ctx : PipelineContext) :
    Yields (fun out => ∀ e, out.2 = .Error e → e.Reachable)
      (SyncPipeline.runStages stages ctx) := by
  induction stages generalizing ctx with
  | nil =>
      intro e he
      cases he
  | cons stage rest ih =>
      refine (yields_stage stage ctx).bind ?_
      rintro ⟨next, outcome⟩ houtcome
      cases outcome with
      | Continue => exact ih next
      | NoChanges =>
          intro e he
          cases he
      | ConflictDetected ids =>
          intro e he
          cases he
      | Error e =>
          intro e' he
          cases he
          exact houtcome

/-- On the answers of cloud storage, no cycle ends in an unreachable network. -/
theorem SyncTask.CycleError.reachable {ctx : PipelineContext} {tr : StorageTrace} {e : SyncError}
    (h : SyncTask.CycleError ctx tr e) (hreports : ∀ ev ∈ tr, CloudStorage.Reported ev) :
    e.Reachable := by
  rcases h with htr | ⟨rest, ctx', htr, hrun⟩
  -- the connectivity check
  · rw [htr] at hreports
    have hreported := hreports _ List.mem_cons_self
    exact CloudStorage.Reports.reachable (hreported e rfl)
  · rw [htr] at hreports
    have hrest : ∀ ev ∈ rest, CloudStorage.Reported ev :=
      fun ev hev => hreports ev (List.mem_cons_of_mem _ hev)
    exact (yields_runStages _ ctx).of_returns hrest hrun e rfl

end OakKeyring
