import OakKeyring.Sync.KeepLocal
import OakKeyring.Sync.PullOnly

/-!
# The queue of pending conflicts

The queue should hold what the last pipeline run found, less what was resolved since. A run
replaces the queue only when it found a conflict, and queues a conflict only when its data was
obtained. Resolutions take exactly the resolved items out.
-/

namespace OakKeyring

open Effect Transition

/-- The rows are records of a vault, each once, under the text of its id. -/
def OfVault (rows : List LocalRecordInfo) : Prop :=
  ∃ ids : List Uuid, ids.Nodup ∧ rows.map LocalRecordInfo.recordId = ids.map Uuid.toText

theorem OfVault.nodup {rows : List LocalRecordInfo} (h : OfVault rows) :
    (rows.map LocalRecordInfo.recordId).Nodup := by
  rcases h with ⟨ids, hnodup, hrows⟩
  rw [hrows]
  exact hnodup.map Uuid.toText_injective

theorem OfVault.parse {rows : List LocalRecordInfo} (h : OfVault rows) {row : LocalRecordInfo}
    (hrow : row ∈ rows) : ∃ id, row.recordId = id.toText ∧ Uuid.parseStr row.recordId = some id := by
  rcases h with ⟨ids, -, hrows⟩
  have hmem : row.recordId ∈ ids.map Uuid.toText := hrows ▸ List.mem_map_of_mem hrow
  rcases List.mem_map.mp hmem with ⟨id, -, hid⟩
  exact ⟨id, hid.symm, by rw [← hid, Uuid.parseStr_toText]⟩

/-- The row of the id is pending and behind its entry in the metadata. -/
def SyncVaultData.Behind (data : SyncVaultData) (m : CloudMetadata) (id : String) : Prop :=
  ∃ row ∈ data.localRecords, row.recordId = id ∧ row.syncStatus = .Pending ∧
    ∃ info, m.records.lookup id = some info ∧ row.version < info.version

/-- The upload of the record was refused. -/
def StorageOp.refusesUpload (id : String) : (op : StorageOp) → op.Answer → Bool
  | .writeRecord recordId _, answer =>
      match answer with
      | .ok () => false
      | .error _ => recordId == id
  | _, _ => false

section

variable [Codec] [Serde]

/-- Whether a strategy settles an item: the upload of the local record is not refused, or the
stored remote record can be read. -/
def ConflictItem.settledBy (item : ConflictItem) (strategy : ResolutionStrategy)
    (tr : StorageTrace) : Bool :=
  match strategy with
  | .KeepLocal =>
      !tr.any fun e => StorageOp.refusesUpload item.recordId.toText e.call e.answer
  | .KeepRemote => (resolveKeepRemote item.conflictData).isOk

namespace SyncTask

omit [Codec] [Serde] in
def pendingIds (t : SyncTask) : List Uuid :=
  t.pendingConflicts.map ConflictItem.recordId

/-! ## The batch -/

/-- One item of a batch: counted when it is settled, else kept; what it writes is its own. -/
theorem returns_resolveBatchItem_settled {strategy : ResolutionStrategy}
    {acc out : SyncTask × Nat} {x : ResolveOutcome × ConflictItem} {tr : StorageTrace}
    (hx : x ∈ (resolveAllBatch [x.2] strategy).zip [x.2])
    (hrun : (resolveBatchItem strategy acc x).Returns tr out) :
    (out = if x.2.settledBy strategy tr = true then (acc.1, acc.2 + 1)
        else ({ acc.1 with pendingConflicts := acc.1.pendingConflicts ++ [x.2] }, acc.2)) ∧
      ∀ e ∈ tr, ∀ id, StorageOp.refusesUpload id e.call e.answer = true →
        id = x.2.recordId.toText := by
  rcases x with ⟨outcome, item⟩
  cases strategy with
  | KeepLocal =>
      -- the local record is uploaded under the next version, and its item goes when that succeeds
      have houtcome : outcome = ⟨item.recordId, .ok (resolveKeepLocal item.currentVersion)⟩ :=
        congrArg Prod.fst (List.mem_singleton.mp hx)
      rw [houtcome] at hrun
      simp only [resolveBatchItem, Prog.returns_bind] at hrun
      rcases hrun with ⟨t₁, t₂, r, htr, hupload, hrest⟩
      have hkept : t₂ = [] ∧ out = if r.isOk = true then (acc.1, acc.2 + 1) else
          ({ acc.1 with pendingConflicts := acc.1.pendingConflicts ++ [item] }, acc.2) := by
        cases r with
        | ok u => exact hrest
        | error e => exact hrest
      rw [htr, hkept.1, List.append_nil, hkept.2]
      rcases (returns_uploadResolved _ _ _ _ _).mp hupload with ⟨-, hnil, hr⟩ | ⟨record, -, hwrite⟩
      · rw [hnil, hr]
        refine ⟨by simp [ConflictItem.settledBy, Except.isOk, Except.toBool], ?_⟩
        simp
      · rw [hwrite]
        cases r with
        | ok u =>
            refine ⟨by simp [ConflictItem.settledBy, StorageOp.refusesUpload,
              StorageOp.answered, Except.isOk, Except.toBool], ?_⟩
            intro e he id hrefuses
            rw [List.mem_singleton.mp he] at hrefuses
            cases hrefuses
        | error err =>
            refine ⟨by simp [ConflictItem.settledBy, StorageOp.refusesUpload,
              StorageOp.answered, Except.isOk, Except.toBool], ?_⟩
            intro e he id hrefuses
            rw [List.mem_singleton.mp he] at hrefuses
            exact (beq_iff_eq.mp hrefuses).symm
  | KeepRemote =>
      -- the remote record is taken as it was stored, without any upload
      have houtcome : outcome.result = (resolveKeepRemote item.conflictData).map fun keepRemote =>
          { newVersion := keepRemote.version
            action := .KeepRemote } :=
        congrArg (fun p => ResolveOutcome.result p.1) (List.mem_singleton.mp hx)
      unfold resolveBatchItem at hrun
      dsimp only at hrun
      rw [houtcome] at hrun
      cases hremote : resolveKeepRemote item.conflictData with
      | error e =>
          rw [hremote] at hrun
          rw [hrun.1, hrun.2]
          exact ⟨by simp [ConflictItem.settledBy, hremote, Except.isOk, Except.toBool], by simp⟩
      | ok keepRemote =>
          rw [hremote] at hrun
          rw [hrun.1, hrun.2]
          exact ⟨by simp [ConflictItem.settledBy, hremote, Except.isOk, Except.toBool], by simp⟩

/-- The items that stay in the queue. -/
def unsettled (strategy : ResolutionStrategy) (tr : StorageTrace) (items : List ConflictItem) :
    List ConflictItem :=
  items.filter fun item => !item.settledBy strategy tr

/-- The operations refuse no upload of the item. -/
def Spares (item : ConflictItem) (tr : StorageTrace) : Prop :=
  ∀ e ∈ tr, StorageOp.refusesUpload item.recordId.toText e.call e.answer = false

theorem settledBy_append_left {item : ConflictItem} {strategy : ResolutionStrategy}
    {tr₁ tr₂ : StorageTrace} (h : Spares item tr₂) :
    item.settledBy strategy (tr₁ ++ tr₂) = item.settledBy strategy tr₁ := by
  cases strategy with
  | KeepRemote => rfl
  | KeepLocal =>
      have hnone : (tr₂.any fun e =>
          StorageOp.refusesUpload item.recordId.toText e.call e.answer) = false := by
        simpa [Spares] using h
      simp [ConflictItem.settledBy, List.any_append, hnone]

theorem settledBy_append_right {item : ConflictItem} {strategy : ResolutionStrategy}
    {tr₁ tr₂ : StorageTrace} (h : Spares item tr₁) :
    item.settledBy strategy (tr₁ ++ tr₂) = item.settledBy strategy tr₂ := by
  cases strategy with
  | KeepRemote => rfl
  | KeepLocal =>
      have hnone : (tr₁.any fun e =>
          StorageOp.refusesUpload item.recordId.toText e.call e.answer) = false := by
        simpa [Spares] using h
      simp [ConflictItem.settledBy, List.any_append, hnone]

/-- Where a batch stands after some of its items: the unsettled ones are back in the queue, the
others are counted, and what was refused is theirs. -/
structure BatchSoFar (t : SyncTask) (strategy : ResolutionStrategy) (items : List ConflictItem)
    (tr : StorageTrace) (acc : SyncTask × Nat) : Prop where
  pending : acc.1 = { t with pendingConflicts := unsettled strategy tr items }
  count : acc.2 = items.countP fun item => item.settledBy strategy tr
  own : ∀ e ∈ tr, ∀ id, StorageOp.refusesUpload id e.call e.answer = true →
    ∃ item ∈ items, id = item.recordId.toText

theorem BatchSoFar.next {t : SyncTask} {strategy : ResolutionStrategy}
    {items : List ConflictItem} {tr₁ tr₂ : StorageTrace} {acc out : SyncTask × Nat}
    {x : ResolveOutcome × ConflictItem} (h : BatchSoFar t strategy items tr₁ acc)
    (hx : x ∈ (resolveAllBatch [x.2] strategy).zip [x.2])
    (hnew : ∀ item ∈ items, item.recordId ≠ x.2.recordId)
    (hrun : (resolveBatchItem strategy acc x).Returns tr₂ out) :
    BatchSoFar t strategy (items ++ [x.2]) (tr₁ ++ tr₂) out := by
  have hone := returns_resolveBatchItem_settled hx hrun
  -- an upload of the new item says nothing about the others, and theirs nothing about it
  have hothers : ∀ item ∈ items, Spares item tr₂ := by
    intro item hitem e he
    cases hrefuses : StorageOp.refusesUpload item.recordId.toText e.call e.answer with
    | false => rfl
    | true =>
        have heq := Uuid.toText_injective (hone.2 e he _ hrefuses)
        exact absurd heq (hnew item hitem)
  have hthis : Spares x.2 tr₁ := by
    intro e he
    cases hrefuses : StorageOp.refusesUpload x.2.recordId.toText e.call e.answer with
    | false => rfl
    | true =>
        rcases h.own e he _ hrefuses with ⟨item, hitem, heq⟩
        exact absurd (Uuid.toText_injective heq).symm (hnew item hitem)
  have hold : ∀ item ∈ items, item.settledBy strategy (tr₁ ++ tr₂) =
      item.settledBy strategy tr₁ :=
    fun item hitem => settledBy_append_left (hothers item hitem)
  have hlast : x.2.settledBy strategy (tr₁ ++ tr₂) = x.2.settledBy strategy tr₂ :=
    settledBy_append_right hthis
  have hfilter : unsettled strategy (tr₁ ++ tr₂) (items ++ [x.2]) =
      unsettled strategy tr₁ items ++ if x.2.settledBy strategy tr₂ = true then [] else [x.2] := by
    unfold unsettled
    rw [List.filter_append]
    congr 1
    · exact List.filter_congr fun item hitem => by rw [hold item hitem]
    · rw [List.filter_singleton, hlast]
      cases x.2.settledBy strategy tr₂ <;> rfl
  have hcount : (items ++ [x.2]).countP (fun item => item.settledBy strategy (tr₁ ++ tr₂)) =
      items.countP (fun item => item.settledBy strategy tr₁) +
        if x.2.settledBy strategy tr₂ = true then 1 else 0 := by
    rw [List.countP_append, List.countP_singleton, hlast]
    congr 1
    exact List.countP_congr fun item hitem => by rw [hold item hitem]
  constructor
  · rw [hfilter, hone.1]
    split
    · rw [List.append_nil, h.pending]
    · rw [h.pending]
  · rw [hcount, hone.1, ← h.count]
    split <;> rfl
  · intro e he id hrefuses
    rcases List.mem_append.mp he with he | he
    · rcases h.own e he id hrefuses with ⟨item, hitem, heq⟩
      exact ⟨item, List.mem_append_left _ hitem, heq⟩
    · exact ⟨x.2, List.mem_append_right _ (List.mem_singleton_self _), hone.2 e he id hrefuses⟩

/-- The batch takes the settled items out, keeps the others as they are and in their order, and
reports how many it took out. -/
theorem returns_handleResolveAll_settled {t t' : SyncTask} {strategy : ResolutionStrategy}
    {tr : StorageTrace} {events : List SyncEvent} (hnodup : t.pendingIds.Nodup)
    (hrun : (t.handleResolveAll strategy).Returns tr (t', events)) :
    t' = { t with pendingConflicts := unsettled strategy tr t.pendingConflicts } ∧
      events = [.AllConflictsResolved
        (t.pendingConflicts.countP fun item => item.settledBy strategy tr)] := by
  unfold handleResolveAll at hrun
  by_cases hitems : t.pendingConflicts = []
  -- nothing is pending, so the answer is immediate
  · simp only [hitems, if_true] at hrun
    rcases hrun with ⟨-, hout⟩
    cases hout
    rw [hitems]
    exact ⟨congrArg (fun items => { t with pendingConflicts := items }) hitems, rfl⟩
  · simp only [hitems, if_false, Prog.returns_bind] at hrun
    rcases hrun with ⟨t₁, t₂, ⟨u, succeeded⟩, htr, hloop, hnil, hout⟩
    cases hout
    have hsame : tr = t₁ := by
      rw [htr, hnil, List.append_nil]
    have hzip : ((resolveAllBatch t.pendingConflicts strategy).zip t.pendingConflicts).map
        Prod.snd = t.pendingConflicts := by
      apply List.map_snd_zip
      simp [resolveAllBatch]
    -- the batch so far: what was uploaded is settled, and the rest is still pending
    have hdone : BatchSoFar t strategy
        (((resolveAllBatch t.pendingConflicts strategy).zip t.pendingConflicts).map Prod.snd)
        t₁ (u, succeeded) := by
      refine Prog.returns_foldlM
        (P := fun done tr s => BatchSoFar t strategy (done.map Prod.snd) tr s)
        hloop ⟨rfl, rfl, by simp⟩ ?_
      intro done x rest tr₁ tr₂ s₁ s₂ hxs hP hbody
      have hx : x ∈ (resolveAllBatch t.pendingConflicts strategy).zip t.pendingConflicts := by
        rw [hxs]
        simp
      have hids : (done.map Prod.snd ++ x.2 :: rest.map Prod.snd).map ConflictItem.recordId =
          t.pendingIds := by
        have hpending := congrArg (List.map Prod.snd) hxs
        rw [hzip, List.map_append, List.map_cons] at hpending
        rw [← hpending]
        rfl
      have hnew : ∀ item ∈ done.map Prod.snd, item.recordId ≠ x.2.recordId := by
        rw [← hids, List.map_append, List.map_cons, List.nodup_append] at hnodup
        intro item hitem
        exact hnodup.2.2 _ (List.mem_map_of_mem hitem) _ List.mem_cons_self
      rw [List.map_append, List.map_singleton]
      exact hP.next (mem_resolveAllBatch_zip hx) hnew hbody
    rw [hzip] at hdone
    rw [hsame]
    exact ⟨hdone.pending, congrArg (fun n => [SyncEvent.AllConflictsResolved n]) hdone.count⟩

end SyncTask

/-! ## A run of the pipeline -/

namespace SyncPipeline

/-- What a finished run found, and the data it got for it. -/
structure Found (ctx ctx' : PipelineContext) (tr : StorageTrace)
    (read : Except SyncError CloudMetadata) : Prop where
  conflicts : ctx'.conflicts = (prepare ctx read).1.conflicts
  rows : ctx'.localRecords = ctx.localRecords
  reached : ctx'.conflicts = [] ∨ Nonempty (PushPhases ctx tr)
  data : ∀ ph : PushPhases ctx tr, ph.read = read ∧ ctx'.conflictDataMap =
    AList.collect (fun a => PushStage.storedConflict (ph.detected.remoteInfo a.1) a.2)
      ph.conflicts ∅

theorem found_of_run {ctx ctx' : PipelineContext} {result : PipelineResult} {tr : StorageTrace}
    (hfresh : ctx.Fresh) (hrun : (execute ctx).Returns tr (ctx', result)) :
    ∃ read rest, tr = StorageOp.readMetadata.answered read :: rest ∧
      Found ctx ctx' tr read := by
  rcases (returns_execute _ _ _ _).mp hrun with ⟨read, rest, htr, h⟩
  have hready := prepare_fresh hfresh read
  have hrows : (prepare ctx read).1.localRecords = ctx.localRecords := by
    rcases prepare_cases ctx read with ⟨outcome, -, hp⟩ | ⟨m, -, -, -, hp⟩ | ⟨-, hp⟩
    · rw [hp]
    · rw [hp, (DetectStage.remoteMetadata_execute _).2.2.1]
      rfl
    · rw [hp, (DetectStage.remoteMetadata_execute _).2.2.1]
  refine ⟨read, rest, htr, ?_⟩
  by_cases hcontinue : (prepare ctx read).2 = .Continue
  · rw [if_pos hcontinue] at h
    rcases h with ⟨outcome, hpush, -⟩
    rcases (PushStage.returns_execute _ _ _ _ hready.2.2.2).mp hpush with
      ⟨us, ds, cs, rest', hus, hds, hcs, hrest, hfinish⟩
    rcases PushStage.finish_frame hfinish with ⟨final, hctx', -⟩
    have hmap : ctx'.conflictDataMap = AList.collect
        (fun a => PushStage.storedConflict ((prepare ctx read).1.remoteInfo a.1) a.2) cs ∅ := by
      rw [hctx', ← hready.2.2.1]
      rfl
    let ph : PushPhases ctx tr :=
      { read := read
        uploads := us
        downloads := ds
        conflicts := cs
        rest := rest'
        continues := hcontinue
        uploads_eq := hus
        downloads_eq := hds
        conflicts_eq := hcs
        trace_eq := by rw [htr, hrest] }
    refine ⟨by rw [hctx']; rfl, by rw [hctx']; exact hrows, Or.inr ⟨ph⟩, ?_⟩
    intro ph'
    have hsame := PushPhases.eq_of_trace ph' ph
    refine ⟨hsame.1, ?_⟩
    rw [hmap, hsame.2.2.2, PushPhases.detected, hsame.1]
  · rw [if_neg hcontinue] at h
    have hnone : (prepare ctx read).1.conflicts = [] := by
      rcases prepare_cases ctx read with ⟨outcome, -, hp⟩ | ⟨m, -, -, -, hp⟩ | ⟨-, hp⟩
      · rw [hp]
        exact hfresh.conflicts
      · rw [hp] at hcontinue ⊢
        exact (DetectStage.toDownload_of_noChanges hcontinue).2
      · rw [hp] at hcontinue ⊢
        exact (DetectStage.toDownload_of_noChanges hcontinue).2
    refine ⟨by rw [h.2.1], by rw [h.2.1]; exact hrows, Or.inl (by rw [h.2.1]; exact hnone), ?_⟩
    -- a run that stopped has no push stage
    intro ph
    have htrace := htr.symm.trans ph.trace_eq
    injection htrace with hread
    injection hread with _ hread
    have hcontinues := ph.continues
    rw [← hread] at hcontinues
    exact absurd hcontinues hcontinue

omit [Serde] in
/-- The conflicts of a run, by its inputs: the rows behind the metadata that it goes on with. -/
theorem mem_conflicts_prepare_iff {ctx : PipelineContext} (hfresh : ctx.Undetected)
    (read : Except SyncError CloudMetadata) (id : String) :
    id ∈ (prepare ctx read).1.conflicts ↔ ∃ m, GoesOn ctx read (some m) ∧
      PipelineContext.Conflicting { ctx with remoteMetadata := some m } id := by
  constructor
  · intro hid
    -- the run ends before the detection, it goes on with remote metadata, or there is none
    rcases prepare_cases ctx read with ⟨outcome, -, hp⟩ | ⟨m, hread, hvalid, htoken, hp⟩ | ⟨-, hp⟩
    · rw [hp, hfresh.conflicts] at hid
      cases hid
    · have hundetected : (pulled ctx m).Undetected :=
        ⟨hfresh.toUpload, hfresh.toDownload, hfresh.conflicts⟩
      have hsome := (CloudStorage.metadataOfRead_eq_some_iff read m).mpr ⟨hread, hvalid⟩
      rw [hp, DetectStage.mem_conflicts_execute hundetected rfl] at hid
      refine ⟨m, ⟨hsome, ?_⟩, hid⟩
      intro m' hm'
      cases hm'
      exact htoken
    · rw [hp, DetectStage.execute_eq_of_none rfl] at hid
      rw [hfresh.conflicts] at hid
      cases hid
  · rintro ⟨m, hgoes, hconflict⟩
    rcases prepare_goesOn hgoes with ⟨-, hnone⟩ | ⟨final, hp⟩
    -- without remote metadata a pending row would be uploaded first
    · rcases hconflict with ⟨row, hrow, -, hpending, -⟩
      have hpendings : ctx.hasPendingUploads = true := hasPendingUploads_of_row hrow hpending
      rw [hnone] at hpendings
      cases hpendings
    · have hundetected : PipelineContext.Undetected
          { ctx with remoteMetadata := some m, finalMetadata := final } :=
        ⟨hfresh.toUpload, hfresh.toDownload, hfresh.conflicts⟩
      rw [hp, DetectStage.mem_conflicts_execute hundetected rfl]
      exact hconflict

omit [Serde] in
theorem nodup_conflicts_prepare {ctx : PipelineContext} (hfresh : ctx.Undetected)
    (hrows : (ctx.localRecords.map LocalRecordInfo.recordId).Nodup)
    (read : Except SyncError CloudMetadata) : (prepare ctx read).1.conflicts.Nodup := by
  rcases prepare_cases ctx read with ⟨outcome, -, hp⟩ | ⟨m, -, -, -, hp⟩ | ⟨-, hp⟩
  · rw [hp, hfresh.conflicts]
    exact List.nodup_nil
  · have hundetected : (pulled ctx m).Undetected :=
      ⟨hfresh.toUpload, hfresh.toDownload, hfresh.conflicts⟩
    rw [hp]
    exact (DetectStage.nodup_execute hundetected rfl hrows).of_append_right
  · rw [hp, DetectStage.execute_eq_of_none rfl]
    rw [hfresh.conflicts]
    exact List.nodup_nil

end SyncPipeline

/-! ## The queue after a run -/

namespace SyncTask

/-- The turn ran the pipeline, which ended with this context. -/
def RunsPipeline (e : Step SyncTask TaskLabel) (ctx : PipelineContext) : Prop :=
  e.label.input.runsCycle = true ∧ ∃ rest result,
    e.label.trace = StorageOp.listRecords.answered (.ok ()) :: rest ∧
    (SyncPipeline.execute (e.source.receive e.label.input).pipelineContext).Returns rest
      (ctx, result)

theorem runsPipeline_unique {e : Step SyncTask TaskLabel} {ctx ctx' : PipelineContext}
    (h : RunsPipeline e ctx) (h' : RunsPipeline e ctx') : ctx' = ctx := by
  rcases h with ⟨-, rest, result, htr, hrun⟩
  rcases h' with ⟨-, rest', result', htr', hrun'⟩
  rw [htr] at htr'
  cases htr'
  exact congrArg Prod.fst (Prog.Returns.value_eq hrun' hrun)

/-- The queue is left as it was, without a run of the pipeline, or it is what such a run makes
of it. -/
def Requeues (t : SyncTask) (tr : StorageTrace) (t' : SyncTask) : Prop :=
  (t'.pendingConflicts = t.pendingConflicts ∧
      ∀ rest, tr ≠ StorageOp.listRecords.answered (.ok ()) :: rest) ∨
    ∃ rest ctx result, tr = StorageOp.listRecords.answered (.ok ()) :: rest ∧
      (SyncPipeline.execute t.pipelineContext).Returns rest (ctx, result) ∧
      t'.pendingConflicts = (t.storeConflicts ctx).pendingConflicts

theorem requeues_nil (t : SyncTask) : t.Requeues [] t :=
  Or.inl ⟨rfl, fun _ h => by cases h⟩

/-- What a turn makes of the queue depends on the queue and the vault data it starts with. -/
theorem Requeues.of_same {t u t' : SyncTask} {tr : StorageTrace} (h : u.Requeues tr t')
    (hpending : u.pendingConflicts = t.pendingConflicts) (hdata : u.vaultData = t.vaultData) :
    t.Requeues tr t' := by
  have hctx : u.pipelineContext = t.pipelineContext := by
    unfold pipelineContext
    rw [hdata]
  have hstored : ∀ ctx, (u.storeConflicts ctx).pendingConflicts =
      (t.storeConflicts ctx).pendingConflicts := by
    intro ctx
    unfold storeConflicts
    split
    · exact hpending
    · rfl
  rcases h with ⟨hsame, hnone⟩ | ⟨rest, ctx, result, htr, hpipe, hqueue⟩
  · exact Or.inl ⟨hsame.trans hpending, hnone⟩
  · rw [hctx] at hpipe
    exact Or.inr ⟨rest, ctx, result, htr, hpipe, hqueue.trans (hstored ctx)⟩

/-- A cycle replaces the queue by what its run found, if that is anything. -/
theorem runCycle_queue {t t' : SyncTask} {tr : StorageTrace} {events : List SyncEvent}
    (hrun : (t.runCycle).Returns tr (t', events)) :
    t.Requeues tr t' := by
  rcases (t.returns_runCycle tr _).mp hrun with ⟨e, htr, hout⟩ | ⟨rest, ctx, result, htr, hpipe, hout⟩
  · have htask : t' = (t.handleError e).1 := congrArg Prod.fst hout
    refine Or.inl ⟨by rw [htask]; exact (t.handleError_keeps e).2, ?_⟩
    intro rest hrest
    rw [htr] at hrest
    cases hrest
  · have htask : t' = ((t.storeConflicts ctx).handlePipelineResult
        (executionOutcome ctx result)).1 := congrArg Prod.fst hout
    refine Or.inr ⟨rest, ctx, result, htr, hpipe, ?_⟩
    rw [htask]
    exact ((t.storeConflicts ctx).handlePipelineResult_keeps _).2

theorem transitionAndRun_queue {t t' : SyncTask} {trigger : SyncTrigger} {tr : StorageTrace}
    {events : List SyncEvent} (hrun : (t.transitionAndRun trigger).Returns tr (t', events)) :
    t.Requeues tr t' := by
  rcases (t.returns_transitionAndRun trigger tr _).mp hrun with
    ⟨e, -, hnil, hout⟩ | ⟨machine, u, evs, -, hcycle, hout⟩
  · cases hout
    rw [hnil]
    exact requeues_nil t
  · cases hout
    exact (runCycle_queue hcycle).of_same rfl rfl

theorem startCycle_queue {t t' : SyncTask} {trigger : SyncTrigger} {tr : StorageTrace}
    {events : List SyncEvent} (hrun : (t.startCycle trigger).Returns tr (t', events)) :
    t.Requeues tr t' := by
  rcases (t.returns_startCycle trigger tr _).mp hrun with ⟨-, hnil, hout⟩ | ⟨-, -, hcycle⟩
  · cases hout
    rw [hnil]
    exact requeues_nil t
  · exact transitionAndRun_queue hcycle

/-- A turn with a cycle. -/
theorem loopStep_queue {e : Step SyncTask TaskLabel}
    (hstep : loopStep e.source e.label e.target) (hcycle : e.label.input.runsCycle = true) :
    (e.source.receive e.label.input).Requeues e.label.trace e.target := by
  rcases e with ⟨t, ⟨input, tr, events⟩, t'⟩
  rcases hstep with ⟨-, hstep⟩
  cases input with
  | timer => exact (transitionAndRun_queue hstep.2).of_same rfl rfl
  | command c =>
      cases c with
      | TriggerSync data => exact startCycle_queue hstep
      | PullOnly => exact startCycle_queue hstep
      | _ => cases hcycle

/-! ## The queue that a run stores -/

omit [Codec] [Serde] in
/-- An item is made for a row with data, and it stands for that row. -/
theorem conflictItem_of_row {ctx : PipelineContext} (hrows : OfVault ctx.localRecords)
    {row : LocalRecordInfo} (hrow : row ∈ ctx.localRecords) :
    (conflictItem ctx row.recordId).map (fun item => item.recordId.toText) =
      (ctx.conflictDataMap.lookup row.recordId).map fun _ => row.recordId := by
  rcases hrows.parse hrow with ⟨id, hid, hparsed⟩
  have hfound := find?_row hrows.nodup hrow
  unfold conflictItem
  cases hdata : ctx.conflictDataMap.lookup row.recordId with
  | none => simp
  | some data =>
      rw [hfound, hparsed, hid]
      rfl

omit [Codec] [Serde] in
/-- Of the conflicts of a run, those with data are queued. -/
theorem mem_stored_iff {ctx : PipelineContext} (hrows : OfVault ctx.localRecords)
    (hconflicts : ∀ id ∈ ctx.conflicts, ∃ row ∈ ctx.localRecords, row.recordId = id) (id : Uuid) :
    id ∈ (ctx.conflicts.filterMap (conflictItem ctx)).map ConflictItem.recordId ↔
      id.toText ∈ ctx.conflicts ∧ (ctx.conflictDataMap.lookup id.toText).isSome = true := by
  simp only [List.mem_map, List.mem_filterMap]
  constructor
  · rintro ⟨item, ⟨text, htext, hitem⟩, rfl⟩
    rcases hconflicts text htext with ⟨row, hrow, rfl⟩
    have hmade := conflictItem_of_row hrows hrow
    rw [hitem] at hmade
    cases hdata : ctx.conflictDataMap.lookup row.recordId with
    | none => simp [hdata] at hmade
    | some data =>
        have heq : item.recordId.toText = row.recordId := by simpa [hdata] using hmade
        rw [heq, hdata]
        exact ⟨htext, rfl⟩
  · rintro ⟨htext, hdata⟩
    rcases hconflicts _ htext with ⟨row, hrow, hid⟩
    have hmade := conflictItem_of_row hrows hrow
    rw [hid] at hmade
    rcases Option.isSome_iff_exists.mp hdata with ⟨data, hdata⟩
    rw [hdata] at hmade
    rcases Option.map_eq_some_iff.mp hmade with ⟨item, hitem, heq⟩
    exact ⟨item, ⟨_, htext, hitem⟩, Uuid.toText_injective heq⟩

omit [Codec] [Serde] in
theorem nodup_stored {ctx : PipelineContext} (hrows : OfVault ctx.localRecords)
    (hconflicts : ∀ id ∈ ctx.conflicts, ∃ row ∈ ctx.localRecords, row.recordId = id)
    (hnodup : ctx.conflicts.Nodup) :
    ((ctx.conflicts.filterMap (conflictItem ctx)).map ConflictItem.recordId).Nodup := by
  -- the item of a conflict is named after its row
  have hmade : ∀ id ∈ ctx.conflicts, ∀ item, conflictItem ctx id = some item →
      item.recordId.toText = id := by
    intro id hid item hitem
    rcases hconflicts id hid with ⟨row, hrow, rfl⟩
    have h := conflictItem_of_row hrows hrow
    rw [hitem] at h
    cases hdata : ctx.conflictDataMap.lookup row.recordId with
    | none => simp [hdata] at h
    | some data => simpa [hdata] using h
  -- the items are made in the order of the conflicts, so their texts are part of them
  have htexts : List.Sublist ((ctx.conflicts.filterMap (conflictItem ctx)).map
      fun item => item.recordId.toText) ctx.conflicts := by
    generalize ctx.conflicts = ids at hmade
    clear hconflicts hnodup
    induction ids with
    | nil => exact List.Sublist.refl []
    | cons id ids ih =>
        have htail := ih fun id' hid' => hmade id' (List.mem_cons_of_mem _ hid')
        cases hitem : conflictItem ctx id with
        | none =>
            rw [List.filterMap_cons_none hitem]
            exact htail.cons id
        | some item =>
            rw [List.filterMap_cons_some hitem, List.map_cons,
              hmade id List.mem_cons_self item hitem]
            exact htail.cons_cons id
  have hids : (((ctx.conflicts.filterMap (conflictItem ctx)).map ConflictItem.recordId).map
      Uuid.toText).Nodup := by
    rw [List.map_map]
    exact hnodup.sublist htexts
  exact hids.of_map

/-! ## Turns that find conflicts -/

/-- The run of the turn found the record behind the metadata: it went on with metadata in which
the row of the vault data, which is pending, has a newer entry. -/
def FindsBehind (e : Step SyncTask TaskLabel) (id : String) : Prop :=
  ∃ data read rest m, (e.source.receive e.label.input).vaultData = some data ∧
    e.label.trace = StorageOp.listRecords.answered (.ok ()) ::
      StorageOp.readMetadata.answered read :: rest ∧
    CloudStorage.metadataOfRead read = .ok (some m) ∧
    m.vaultIdentityToken = data.localVaultToken ∧ data.Behind m id

theorem mem_conflicts_iff {e : Step SyncTask TaskLabel} {ctx : PipelineContext}
    (h : RunsPipeline e ctx) (id : String) : id ∈ ctx.conflicts ↔ FindsBehind e id := by
  rcases h with ⟨-, rest, result, htr, hrun⟩
  have hundetected := (e.source.receive e.label.input).pipelineContext_undetected
  rcases SyncPipeline.found_of_run (pipelineContext_fresh _) hrun with ⟨read, rest', hrest, hfound⟩
  rw [hfound.conflicts]
  refine (SyncPipeline.mem_conflicts_prepare_iff hundetected.1 read id).trans ?_
  cases hdata : (e.source.receive e.label.input).vaultData with
  -- no data, so no rows to be in conflict
  | none =>
      have hnone : (e.source.receive e.label.input).pipelineContext.localRecords = [] := by
        unfold pipelineContext
        rw [hdata]
        rfl
      constructor
      · rintro ⟨m, -, row, hrow, -⟩
        rw [hnone] at hrow
        cases hrow
      · rintro ⟨data, read', rest'', m, hdata', -⟩
        rw [hdata] at hdata'
        cases hdata'
  | some data =>
      -- the rows of the context are those of the data
      have hctx : (e.source.receive e.label.input).pipelineContext =
          { PipelineContext.new data.localMetadataVersion data.localVaultToken with
            lastRemoteMetadata := data.lastRemoteMetadata
            localRecords := data.localRecords
            uploads := data.uploads } := by
        unfold pipelineContext
        rw [hdata]
      rw [hctx]
      constructor
      · rintro ⟨m, ⟨hread, htoken⟩, hconflict⟩
        exact ⟨data, read, rest', m, hdata, by rw [htr, hrest], hread, htoken m rfl, hconflict⟩
      · rintro ⟨data', read', rest'', m, hdata', htr', hread, htoken, hbehind⟩
        rw [hdata] at hdata'
        cases hdata'
        rw [htr, hrest] at htr'
        cases htr'
        refine ⟨m, ⟨hread, ?_⟩, hbehind⟩
        intro m' hm'
        cases hm'
        exact htoken

/-! ## Turns without a cycle -/

/-- The turn resolved the record's conflict. -/
def Resolves (e : Step SyncTask TaskLabel) (id : Uuid) : Prop :=
  match e.label.input with
  | .command (.ResolveConflict recordId _) =>
      Uuid.parseStr recordId = some id ∧ SyncEvent.ConflictResolved recordId ∈ e.label.events
  | .command (.ResolveAllConflicts strategy) =>
      ∃ item ∈ e.source.pendingConflicts, item.recordId = id ∧
        item.settledBy strategy e.label.trace = true
  | _ => False

/-- The command of the turn is to resolve the record's conflict. -/
def Addresses (e : Step SyncTask TaskLabel) (id : Uuid) : Prop :=
  match e.label.input with
  | .command (.ResolveConflict recordId _) => Uuid.parseStr recordId = some id
  | .command (.ResolveAllConflicts _) => True
  | _ => False

/-- The turn keeps some items, takes the resolved ones out, and a batch counts these. -/
structure Sifts (e : Step SyncTask TaskLabel) (keeps : ConflictItem → Bool) : Prop where
  queue : e.target.pendingConflicts = e.source.pendingConflicts.filter keeps
  resolved : ∀ item ∈ e.source.pendingConflicts,
    keeps item = false ↔ Resolves e item.recordId
  count : ∀ n, SyncEvent.AllConflictsResolved n ∈ e.label.events →
    n = e.source.pendingConflicts.countP fun item => !keeps item

theorem sifts_of_same {e : Step SyncTask TaskLabel}
    (hqueue : e.target.pendingConflicts = e.source.pendingConflicts)
    (hresolved : ∀ item ∈ e.source.pendingConflicts, ¬ Resolves e item.recordId)
    (hcount : ∀ n, SyncEvent.AllConflictsResolved n ∉ e.label.events) :
    Sifts e fun _ => true where
  queue := by rw [hqueue, List.filter_true]
  resolved item hitem := by simpa using hresolved item hitem
  count n hn := absurd hn (hcount n)

theorem sifts_of_resolveConflict {t t' : SyncTask} {recordId : String}
    {strategy : ResolutionStrategy} {tr : StorageTrace} {events : List SyncEvent}
    (hrun : (t.handleResolveConflict recordId strategy).Returns tr (t', events)) :
    ∃ keeps, Sifts ⟨t, ⟨.command (.ResolveConflict recordId strategy), tr, events⟩, t'⟩ keeps := by
  rcases (t.returns_handleResolveConflict _ _ _ _).mp hrun with
    ⟨message, -, hout, -⟩ | ⟨id, item, r, hid, -, -, hout⟩
  -- no item is pending under that id
  · cases hout
    refine ⟨_, sifts_of_same rfl ?_ ?_⟩
    · rintro item - ⟨-, hresolved⟩
      simp at hresolved
    · simp
  · cases r with
    | error e =>
        -- the upload failed, and the item stays
        cases hout
        refine ⟨_, sifts_of_same rfl ?_ ?_⟩
        · rintro item - ⟨-, hresolved⟩
          simp at hresolved
        · simp
    | ok u =>
        -- the item that was named is gone, and no other
        cases hout
        refine ⟨fun c => c.recordId != id, rfl, ?_, ?_⟩
        · intro c _
          rw [bne_eq_false_iff_eq]
          constructor
          · intro heq
            exact ⟨by rw [hid, heq], List.mem_singleton_self _⟩
          · rintro ⟨hparsed, -⟩
            have hboth : some id = some c.recordId := hid.symm.trans hparsed
            exact (Option.some.inj hboth).symm
        · simp

theorem sifts_of_resolveAll {t t' : SyncTask} {strategy : ResolutionStrategy}
    {tr : StorageTrace} {events : List SyncEvent} (hnodup : t.pendingIds.Nodup)
    (hrun : (t.handleResolveAll strategy).Returns tr (t', events)) :
    ∃ keeps, Sifts ⟨t, ⟨.command (.ResolveAllConflicts strategy), tr, events⟩, t'⟩ keeps := by
  rcases returns_handleResolveAll_settled hnodup hrun with ⟨htask, hevents⟩
  refine ⟨fun item => !item.settledBy strategy tr, by rw [htask]; rfl, ?_, ?_⟩
  · intro item hitem
    simp only [Bool.not_eq_false']
    constructor
    · intro hsettled
      exact ⟨item, hitem, rfl, hsettled⟩
    · rintro ⟨other, hother, hid, hsettled⟩
      have heq : other = item := List.inj_on_of_nodup_map hnodup hother hitem hid
      rw [← heq]
      exact hsettled
  · intro n hn
    have hn' : SyncEvent.AllConflictsResolved n ∈ events := hn
    rw [hevents, List.mem_singleton] at hn'
    cases hn'
    simp

theorem handleCommand_sifts {t t' : SyncTask} {c : SyncCommand} {tr : StorageTrace}
    {events : List SyncEvent} (hrun : (t.handleCommand c).Returns tr (t', events))
    (hnone : TaskInput.runsCycle (.command c) = false) (hnodup : t.pendingIds.Nodup) :
    ∃ keeps, Sifts ⟨t, ⟨.command c, tr, events⟩, t'⟩ keeps := by
  cases c with
  | TriggerSync data => cases hnone
  | PullOnly => cases hnone
  | ResolveConflict recordId strategy => exact sifts_of_resolveConflict hrun
  | ResolveAllConflicts strategy => exact sifts_of_resolveAll hnodup hrun
  | Pause =>
      rcases hrun with ⟨-, hout⟩
      cases hout
      exact ⟨_, sifts_of_same rfl (fun _ _ h => h) (by simp)⟩
  | Resume =>
      rcases hrun with ⟨-, hout⟩
      cases hout
      exact ⟨_, sifts_of_same rfl (fun _ _ h => h) (by simp)⟩
  | PushMetadataAtomic m v =>
      rcases (returns_handlePushMetadataAtomic _ _ _ _ _).mp hrun with ⟨r, -, hout⟩
      cases r <;> cases hout <;> exact ⟨_, sifts_of_same rfl (fun _ _ h => h) (by simp)⟩
  | DownloadMetadata =>
      rcases (returns_handleDownloadMetadata _ _ _).mp hrun with ⟨read, -, hout⟩
      cases hread : CloudStorage.metadataOfRead read <;> rw [hread] at hout <;> cases hout <;>
        exact ⟨_, sifts_of_same rfl (fun _ _ h => h) (by simp)⟩
  | Shutdown =>
      rcases hrun with ⟨-, hout⟩
      cases hout
      refine ⟨_, sifts_of_same ?_ (fun _ _ h => h) (by simp)⟩
      cases hshut : t.stateMachine.transition .Shutdown <;> rfl

/-- A turn without a cycle sifts the queue. -/
theorem loopStep_sifts {e : Step SyncTask TaskLabel}
    (hstep : loopStep e.source e.label e.target) (hnone : e.label.input.runsCycle = false)
    (hnodup : e.source.pendingIds.Nodup) : ∃ keeps, Sifts e keeps := by
  rcases e with ⟨t, ⟨input, tr, events⟩, t'⟩
  cases input with
  | timer => cases hnone
  | command c => exact handleCommand_sifts hstep.2 hnone hnodup

/-! ## Runs -/

/-- The ids that should be in the queue after a turn. -/
def outstandingAfter (ids : Set Uuid) (e : Step SyncTask TaskLabel) : Set Uuid :=
  { id | (∃ ctx, RunsPipeline e ctx ∧ id.toText ∈ ctx.conflicts) ∨
    (¬ ∃ ctx, RunsPipeline e ctx) ∧ id ∈ ids ∧ ¬ Resolves e id }

/-- The records that the last pipeline run found in conflict, less those resolved since. -/
def outstanding (es : List (Step SyncTask TaskLabel)) : Set Uuid :=
  es.foldl outstandingAfter ∅

/-- What a turn does to the queue: a batch counts the ids it takes out, and a record whose
resolution fails stays as it is. -/
structure Conserves (e : Step SyncTask TaskLabel) : Prop where
  count : ∀ strategy n, e.label.input = .command (.ResolveAllConflicts strategy) →
    SyncEvent.AllConflictsResolved n ∈ e.label.events →
    n = (e.source.pendingIds.filter fun id => id ∉ e.target.pendingIds).length
  failed : ∀ item ∈ e.source.pendingConflicts, Addresses e item.recordId →
    ¬ Resolves e item.recordId → item ∈ e.target.pendingConflicts

/-- A pipeline run finds a conflict or meets an empty queue, and gets the data of every conflict
it finds. -/
structure RenewsQueue (e : Step SyncTask TaskLabel) : Prop where
  found : (∃ ctx, RunsPipeline e ctx) → e.source.pendingConflicts ≠ [] → ∃ id, FindsBehind e id
  obtained : ∀ ctx, RunsPipeline e ctx → ∀ rest,
    e.label.trace = StorageOp.listRecords.answered (.ok ()) :: rest →
    ∀ ph : PushPhases (e.source.receive e.label.input).pipelineContext rest,
      ∀ a ∈ ph.conflicts,
        (PushStage.storedConflict (ph.detected.remoteInfo a.1) a.2).isSome = true

/-- The queue has no id twice, and the vault data is that of a vault. -/
structure WellFormed (t : SyncTask) : Prop where
  nodup : t.pendingIds.Nodup
  rows : ∀ data, t.vaultData = some data → OfVault data.localRecords

omit [Codec] [Serde] in
theorem WellFormed.receive {t : SyncTask} {input : TaskInput} (h : t.WellFormed)
    (hinput : ∀ data, input = .command (.TriggerSync (some data)) → OfVault data.localRecords) :
    (t.receive input).WellFormed := by
  cases input with
  | timer => exact h
  | command c =>
      cases c with
      | TriggerSync data =>
          refine ⟨h.nodup, ?_⟩
          intro data' hdata'
          have heq : data = some data' := hdata'
          exact hinput data' (by rw [heq])
      | _ => exact h

omit [Codec] [Serde] in
theorem WellFormed.context {t : SyncTask} (h : t.WellFormed) :
    OfVault t.pipelineContext.localRecords := by
  unfold pipelineContext
  cases hdata : t.vaultData with
  | none => exact ⟨[], List.nodup_nil, rfl⟩
  | some data => exact h.rows data hdata

/-- What a run found: rows of the vault, no id twice, and data for those whose read gave it. -/
theorem found_of_runsPipeline {e : Step SyncTask TaskLabel} {ctx : PipelineContext}
    (hrun : RunsPipeline e ctx) (hform : (e.source.receive e.label.input).WellFormed) :
    OfVault ctx.localRecords ∧ ctx.conflicts.Nodup ∧
      (∀ id ∈ ctx.conflicts, ∃ row ∈ ctx.localRecords, row.recordId = id) ∧
      ∃ rest, e.label.trace = StorageOp.listRecords.answered (.ok ()) :: rest ∧
        (ctx.conflicts = [] ∨
          Nonempty (PushPhases (e.source.receive e.label.input).pipelineContext rest)) ∧
        ∀ ph : PushPhases (e.source.receive e.label.input).pipelineContext rest,
          ph.conflicts.map Prod.fst = ctx.conflicts ∧ ∀ a ∈ ph.conflicts,
            ((ctx.conflictDataMap.lookup a.1).isSome = true ↔
              (PushStage.storedConflict (ph.detected.remoteInfo a.1) a.2).isSome = true) := by
  rcases hrun with ⟨-, rest, result, htr, hrun⟩
  -- the context of a run starts without conflicts
  have hundetected := (e.source.receive e.label.input).pipelineContext_undetected
  have hfresh := (e.source.receive e.label.input).pipelineContext_fresh
  rcases SyncPipeline.found_of_run hfresh hrun with ⟨read, rest', -, hfound⟩
  have hrows := hform.context
  have hnodup : ctx.conflicts.Nodup := by
    rw [hfound.conflicts]
    exact SyncPipeline.nodup_conflicts_prepare hundetected.1 hrows.nodup read
  refine ⟨by rw [hfound.rows]; exact hrows, hnodup, ?_, ?_⟩
  · intro id hid
    rcases SyncPipeline.conflict_detected hfresh hrun with ⟨hsame, hconflicts⟩
    rcases hconflicts id hid with ⟨row, hrow, -, heq, -⟩
    exact ⟨row, by rw [hsame]; exact hrow, heq⟩
  · refine ⟨rest, htr, hfound.reached, ?_⟩
    intro ph
    rcases hfound.data ph with ⟨hread, hmap⟩
    -- a conflict was stored for what the push has read of it
    have hids : ph.conflicts.map Prod.fst = ctx.conflicts := by
      rw [ph.conflicts_eq, hread, hfound.conflicts]
    refine ⟨hids, ?_⟩
    intro a ha
    rw [hmap, AList.isSome_lookup_collect_empty]
    constructor
    · rintro ⟨b, hb, hid, hstored⟩
      have heq : b = a := List.inj_on_of_nodup_map (hids ▸ hnodup) hb ha hid
      rw [← heq]
      exact hstored
    · intro hstored
      exact ⟨a, ha, rfl, hstored⟩

omit [Codec] [Serde] in
theorem pendingConflicts_receive (t : SyncTask) (input : TaskInput) :
    (t.receive input).pendingConflicts = t.pendingConflicts := by
  unfold receive
  split <;> rfl

/-- What the turn with a run of the pipeline leaves in the queue. -/
theorem queue_of_runsPipeline {e : Step SyncTask TaskLabel} {ctx : PipelineContext}
    (hstep : loopStep e.source e.label e.target) (hrun : RunsPipeline e ctx) :
    e.target.pendingConflicts = if ctx.conflicts = [] then e.source.pendingConflicts
      else ctx.conflicts.filterMap (conflictItem ctx) := by
  have hqueue : e.target.pendingConflicts =
      ((e.source.receive e.label.input).storeConflicts ctx).pendingConflicts := by
    rcases loopStep_queue hstep hrun.1 with ⟨-, hnone⟩ | ⟨rest, ctx', result, htr, hpipe, hqueue⟩
    · rcases hrun with ⟨-, rest, result, htr, -⟩
      exact absurd htr (hnone rest)
    · have heq := runsPipeline_unique hrun ⟨hrun.1, rest, result, htr, hpipe⟩
      rw [heq] at hqueue
      exact hqueue
  rw [hqueue, storeConflicts]
  split
  · exact pendingConflicts_receive _ _
  · rfl

/-- A turn with a cycle that does not get to the pipeline leaves the queue alone. -/
theorem queue_of_no_run {e : Step SyncTask TaskLabel}
    (hstep : loopStep e.source e.label e.target) (hcycle : e.label.input.runsCycle = true)
    (hnone : ¬ ∃ ctx, RunsPipeline e ctx) :
    e.target.pendingConflicts = e.source.pendingConflicts := by
  rcases loopStep_queue hstep hcycle with ⟨hsame, -⟩ | ⟨rest, ctx, result, htr, hpipe, -⟩
  · rw [hsame, pendingConflicts_receive]
  · exact absurd ⟨ctx, hcycle, rest, result, htr, hpipe⟩ hnone

theorem not_resolves {e : Step SyncTask TaskLabel} (hcycle : e.label.input.runsCycle = true)
    (id : Uuid) : ¬ Resolves e id := by
  unfold Resolves
  split
  · rename_i h
    rw [h] at hcycle
    cases hcycle
  · rename_i h
    rw [h] at hcycle
    cases hcycle
  · exact fun h => h

theorem wellFormed_step {e : Step SyncTask TaskLabel}
    (hstep : loopStep e.source e.label e.target) (hform : e.source.WellFormed)
    (hinput : ∀ data, e.label.input = .command (.TriggerSync (some data)) →
      OfVault data.localRecords) : e.target.WellFormed := by
  have hreceived := hform.receive hinput
  have hdata : e.target.vaultData = (e.source.receive e.label.input).vaultData :=
    (loopStep_keepsItems hstep).1
  refine ⟨?_, by rw [hdata]; exact hreceived.rows⟩
  unfold pendingIds
  cases hcycle : e.label.input.runsCycle with
  | false =>
      rcases loopStep_sifts hstep hcycle hform.nodup with ⟨keeps, hsifts⟩
      rw [hsifts.queue]
      exact hform.nodup.sublist (List.filter_sublist.map _)
  | true =>
      by_cases hrun : ∃ ctx, RunsPipeline e ctx
      · rcases hrun with ⟨ctx, hrun⟩
        have hfound := found_of_runsPipeline hrun hreceived
        rw [queue_of_runsPipeline hstep hrun]
        split
        · exact hform.nodup
        · exact nodup_stored hfound.1 hfound.2.2.1 hfound.2.1
      · rw [queue_of_no_run hstep hcycle hrun]
        exact hform.nodup

omit [Codec] [Serde] in
/-- The ids that leave a queue without repetitions are those of the items not kept. -/
theorem removed_count {items : List ConflictItem} {keeps : ConflictItem → Bool}
    (hnodup : (items.map ConflictItem.recordId).Nodup) :
    ((items.map ConflictItem.recordId).filter fun id =>
        id ∉ (items.filter keeps).map ConflictItem.recordId).length =
      items.countP fun item => !keeps item := by
  rw [List.filter_map, List.length_map, ← List.countP_eq_length_filter]
  refine List.countP_congr fun item hitem => ?_
  simp only [Function.comp_apply, decide_eq_true_eq, List.mem_map, List.mem_filter,
    Bool.not_eq_true']
  constructor
  · intro hgone
    cases hkeeps : keeps item with
    | false => rfl
    | true => exact absurd ⟨item, ⟨hitem, hkeeps⟩, rfl⟩ hgone
  · rintro hkeeps ⟨other, ⟨hother, hkept⟩, hid⟩
    have heq : other = item := List.inj_on_of_nodup_map hnodup hother hitem hid
    rw [heq, hkeeps] at hkept
    cases hkept

/-- Step lemma: resolutions take out what they resolve. -/
theorem conserves_step {e : Step SyncTask TaskLabel}
    (hstep : loopStep e.source e.label e.target) (hnodup : e.source.pendingIds.Nodup) :
    Conserves e := by
  cases hcycle : e.label.input.runsCycle with
  | true =>
      -- a cycle resolves nothing
      constructor
      · intro strategy n hinput
        rw [hinput] at hcycle
        cases hcycle
      · intro item hitem haddressed
        unfold Addresses at haddressed
        split at haddressed
        · rename_i h
          rw [h] at hcycle
          cases hcycle
        · rename_i h
          rw [h] at hcycle
          cases hcycle
        · exact absurd haddressed id
  | false =>
      -- a resolution takes out what it has resolved, and keeps the rest
      rcases loopStep_sifts hstep hcycle hnodup with ⟨keeps, hsifts⟩
      constructor
      · intro strategy n _ hn
        rw [hsifts.count n hn, pendingIds, pendingIds, hsifts.queue]
        exact (removed_count hnodup).symm
      · intro item hitem _ hunresolved
        rw [hsifts.queue, List.mem_filter]
        refine ⟨hitem, ?_⟩
        cases hkeeps : keeps item with
        | true => rfl
        | false => exact absurd ((hsifts.resolved item hitem).mp hkeeps) hunresolved

/-- Step lemma: a turn without a run takes the resolved ids out of what is outstanding. -/
theorem mem_pendingIds_of_no_run {e : Step SyncTask TaskLabel}
    (hstep : loopStep e.source e.label e.target) (hnodup : e.source.pendingIds.Nodup)
    (hnone : ¬ ∃ ctx, RunsPipeline e ctx) (id : Uuid) :
    id ∈ e.target.pendingIds ↔ id ∈ e.source.pendingIds ∧ ¬ Resolves e id := by
  cases hcycle : e.label.input.runsCycle with
  | true =>
      rw [pendingIds, queue_of_no_run hstep hcycle hnone]
      exact ⟨fun h => ⟨h, not_resolves hcycle id⟩, And.left⟩
  | false =>
      rcases loopStep_sifts hstep hcycle hnodup with ⟨keeps, hsifts⟩
      rw [pendingIds, pendingIds, hsifts.queue]
      simp only [List.mem_map, List.mem_filter]
      constructor
      · rintro ⟨item, ⟨hitem, hkeeps⟩, rfl⟩
        refine ⟨⟨item, hitem, rfl⟩, ?_⟩
        rw [← hsifts.resolved item hitem, hkeeps]
        simp
      · rintro ⟨⟨item, hitem, rfl⟩, hunresolved⟩
        rw [← hsifts.resolved item hitem, Bool.not_eq_false] at hunresolved
        exact ⟨item, ⟨hitem, hunresolved⟩, rfl⟩

/-- The queue holds what is outstanding. -/
def QueueHolds (done : List (Step SyncTask TaskLabel)) (t : SyncTask) : Prop :=
  ∀ id, id ∈ t.pendingIds ↔ id ∈ outstanding done

theorem mem_outstanding_append {done : List (Step SyncTask TaskLabel)}
    {e : Step SyncTask TaskLabel} {id : Uuid} :
    id ∈ outstanding (done ++ [e]) ↔
      (∃ ctx, RunsPipeline e ctx ∧ id.toText ∈ ctx.conflicts) ∨
        (¬ ∃ ctx, RunsPipeline e ctx) ∧ id ∈ outstanding done ∧ ¬ Resolves e id := by
  unfold outstanding
  rw [List.foldl_append]
  rfl

theorem mem_outstanding_of_run {done : List (Step SyncTask TaskLabel)}
    {e : Step SyncTask TaskLabel} {ctx : PipelineContext} (hrun : RunsPipeline e ctx) {id : Uuid} :
    id ∈ outstanding (done ++ [e]) ↔ id.toText ∈ ctx.conflicts := by
  rw [mem_outstanding_append]
  constructor
  · rintro (⟨ctx', hrun', hid⟩ | ⟨hnone, -⟩)
    · rw [runsPipeline_unique hrun hrun'] at hid
      exact hid
    · exact absurd ⟨ctx, hrun⟩ hnone
  · intro hid
    exact Or.inl ⟨ctx, hrun, hid⟩

/-- Step lemma: a turn that renews the queue keeps it right. -/
theorem holds_of_renews {done : List (Step SyncTask TaskLabel)} {e : Step SyncTask TaskLabel}
    (hstep : loopStep e.source e.label e.target) (hform : e.source.WellFormed)
    (hreceived : (e.source.receive e.label.input).WellFormed)
    (hholds : QueueHolds done e.source) (hrenews : RenewsQueue e) :
    QueueHolds (done ++ [e]) e.target := by
  intro id
  by_cases hran : ∃ ctx, RunsPipeline e ctx
  · rcases hran with ⟨ctx, hrun⟩
    have hfound := found_of_runsPipeline hrun hreceived
    rw [mem_outstanding_of_run hrun, pendingIds, queue_of_runsPipeline hstep hrun]
    by_cases hnone : ctx.conflicts = []
    -- nothing was found, so there was nothing in the queue either
    · rw [if_pos hnone, hnone]
      have hempty : e.source.pendingConflicts = [] := by
        by_contra hsome
        rcases hrenews.found ⟨ctx, hrun⟩ hsome with ⟨text, hbehind⟩
        have hmem := (mem_conflicts_iff hrun text).mpr hbehind
        rw [hnone] at hmem
        cases hmem
      rw [hempty]
      simp
    · rw [if_neg hnone, mem_stored_iff hfound.1 hfound.2.2.1]
      -- what was found has been read, or the run did not get so far
      rcases hfound.2.2.2 with ⟨rest, htr, hempty | ⟨⟨ph⟩⟩, hdata⟩
      · exact absurd hempty hnone
      · refine ⟨And.left, fun hid => ⟨hid, ?_⟩⟩
        rw [← (hdata ph).1] at hid
        rcases List.mem_map.mp hid with ⟨a, ha, htext⟩
        rw [← htext]
        exact ((hdata ph).2 a ha).mpr (hrenews.obtained ctx hrun rest htr ph a ha)
  · rw [mem_pendingIds_of_no_run hstep hform.nodup hran, hholds, mem_outstanding_append]
    constructor
    · intro h
      exact Or.inr ⟨hran, h⟩
    · rintro (⟨ctx, hrun, -⟩ | ⟨-, h⟩)
      · exact absurd ⟨ctx, hrun⟩ hran
      · exact h

/-- Step lemma: any other turn leaves a stale id, or misses one. -/
theorem not_holds_of_stale {done : List (Step SyncTask TaskLabel)} {e : Step SyncTask TaskLabel}
    (hstep : loopStep e.source e.label e.target)
    (hreceived : (e.source.receive e.label.input).WellFormed) (hstale : ¬ RenewsQueue e) :
    ¬ QueueHolds (done ++ [e]) e.target := by
  intro hholds
  refine hstale ⟨?_, ?_⟩
  · rintro ⟨ctx, hrun⟩ hsome
    -- something was in the queue that the run did not find again
    rcases List.exists_mem_of_ne_nil _ hsome with ⟨item, hitem⟩
    by_cases hnone : ctx.conflicts = []
    · have hmem : item.recordId ∈ e.target.pendingIds := by
        rw [pendingIds, queue_of_runsPipeline hstep hrun, if_pos hnone]
        exact List.mem_map_of_mem hitem
      have hout := (mem_outstanding_of_run hrun).mp ((hholds _).mp hmem)
      rw [hnone] at hout
      cases hout
    · rcases List.exists_mem_of_ne_nil _ hnone with ⟨text, htext⟩
      exact ⟨text, (mem_conflicts_iff hrun text).mp htext⟩
  · intro ctx hrun rest htr ph a ha
    have hfound := found_of_runsPipeline hrun hreceived
    rcases hfound.2.2.2 with ⟨rest', htr', -, hdata⟩
    rw [htr] at htr'
    cases htr'
    -- what could not be stored is missing from the queue
    have hconflict : a.1 ∈ ctx.conflicts := (hdata ph).1 ▸ List.mem_map_of_mem ha
    rcases hfound.2.2.1 a.1 hconflict with ⟨row, hrow, hid⟩
    rcases hfound.1.parse hrow with ⟨uuid, htext, -⟩
    have heq : uuid.toText = a.1 := htext.symm.trans hid
    have hmem : uuid ∈ e.target.pendingIds := by
      rw [hholds, mem_outstanding_of_run hrun, heq]
      exact hconflict
    have hsome : ctx.conflicts ≠ [] := List.ne_nil_of_mem hconflict
    rw [pendingIds, queue_of_runsPipeline hstep hrun, if_neg hsome,
      mem_stored_iff hfound.1 hfound.2.2.1, heq] at hmem
    exact ((hdata ph).2 a ha).mp hmem.2

/-- In every run of a task, the queue has no id twice, a batch counts what it takes out, and a
record whose resolution fails stays with its payload; and the queue is always what is
outstanding exactly when every pipeline run renews it. -/
theorem conflict_queue_conserved_iff {maxRetries : Nat} {es : List (Step SyncTask TaskLabel)}
    {t : SyncTask} (hrun : Run loopStep (new (SyncStateMachine.new maxRetries)) es t)
    (hdata : ∀ e ∈ es, ∀ data, e.label.input = .command (.TriggerSync (some data)) →
      OfVault data.localRecords) :
    (∀ u ∈ visited (new (SyncStateMachine.new maxRetries)) es, u.pendingIds.Nodup) ∧
      (∀ e ∈ es, Conserves e) ∧
      ((∀ done rest u, es = done ++ rest →
          Run loopStep (new (SyncStateMachine.new maxRetries)) done u → QueueHolds done u) ↔
        ∀ e ∈ es, RenewsQueue e) := by
  have hinit : WellFormed (new (SyncStateMachine.new maxRetries)) :=
    ⟨List.nodup_nil, fun data hnone => by cases hnone⟩
  have hkeep : ∀ e : Step SyncTask TaskLabel, loopStep e.source e.label e.target →
      (∀ data, e.label.input = .command (.TriggerSync (some data)) → OfVault data.localRecords) →
      e.source.WellFormed → e.target.WellFormed :=
    fun e hstep hinput hform => wellFormed_step hstep hform hinput
  refine ⟨?_, ?_, ?_⟩
  · intro u hu
    exact (hrun.invariant hinit hdata hkeep u hu).nodup
  · intro e he
    have hform := hrun.invariant_source hinit hdata hkeep e he
    exact conserves_step (hrun.step_of_mem he) hform.nodup
  · have hrestricted := hrun.restrict hdata
    have hiff := hrestricted.history_iff (P := QueueHolds) (C := RenewsQueue) hinit
      (fun id => iff_of_false (by simp [pendingIds, new]) fun h => h)
      (fun e hstep hform => hkeep e hstep.1 hstep.2 hform)
      (fun done e hstep hform hholds hrenews =>
        holds_of_renews hstep.1 hform (hform.receive hstep.2) hholds hrenews)
      (fun done e hstep hform _ hstale =>
        not_holds_of_stale hstep.1 (hform.receive hstep.2) hstale)
    rw [← hiff]
    constructor
    · intro hall done rest u hes hdone
      exact hall done rest u hes (hdone.mono fun u l u' h => h.1)
    · intro hall done rest u hes hdone
      exact hall done rest u hes
        (hdone.restrict fun e he => hdata e (hes ▸ List.mem_append_left rest he))

end SyncTask

end

/-! ### A conflict of a destroyed record -/

/-- The connectivity check succeeded. -/
def StorageOp.connects : (op : StorageOp) → op.Answer → Bool
  | .listRecords, answer =>
      match answer with
      | .ok () => true
      | .error _ => false
  | _, _ => false

theorem connected_of_head {tr : StorageTrace}
    (h : (tr.head?.any fun e => StorageOp.connects e.call e.answer) = true) :
    ∃ rest, tr = StorageOp.listRecords.answered (.ok ()) :: rest := by
  cases tr with
  | nil => cases h
  | cons e rest =>
      rcases e with ⟨op, answer⟩
      have hconnects : StorageOp.connects op answer = true := h
      cases op with
      | listRecords =>
          cases answer with
          | ok u => exact ⟨rest, rfl⟩
          | error e => cases hconnects
      | _ => cases hconnects

namespace SyncTask

section

attribute [local instance] Sample.codec Sample.serde

/-- The vault after its only record was destroyed. -/
def destroyedRow : SyncVaultData where
  localRecords := []
  uploads := []
  localMetadataVersion := 2
  lastRemoteMetadata := none
  localVaultToken := "token"

/-- The sync that finds the conflict, and the one after the record was destroyed. -/
def conflictTurn : Step SyncTask TaskLabel :=
  taskTurn DeviceState.newerStore (new (SyncStateMachine.new 5))
    (.TriggerSync (some DeviceState.editedRow))

def destroyedTurn : Step SyncTask TaskLabel :=
  taskTurn DeviceState.newerStore conflictTurn.target (.TriggerSync (some destroyedRow))

theorem vaultData_taskTurn (s : CloudStore) (t : SyncTask) (data : Option SyncVaultData) :
    ((taskTurn s t (.TriggerSync data)).source.receive
      (taskTurn s t (.TriggerSync data)).label.input).vaultData = data := rfl

/-- The first run leaves a conflict and a task that goes on, and the second one connects. -/
theorem conflictTurn_leaves :
    conflictTurn.target.state ≠ .ShuttingDown ∧
      conflictTurn.target.pendingConflicts.isEmpty = false ∧
      conflictTurn.target.pendingIds.Nodup ∧
      (destroyedTurn.label.trace.head?.any fun e => StorageOp.connects e.call e.answer) = true := by
  decide +kernel

theorem destroyed_steps :
    loopStep conflictTurn.source conflictTurn.label conflictTurn.target ∧
      loopStep destroyedTurn.source destroyedTurn.label destroyedTurn.target ∧
      destroyedTurn.source = conflictTurn.target :=
  ⟨loopStep_taskTurn _ _ (by decide), loopStep_taskTurn _ _ conflictTurn_leaves.1,
    source_taskTurn _ _ _⟩

theorem destroyed_run :
    Run loopStep (new (SyncStateMachine.new 5)) ([conflictTurn] ++ [destroyedTurn])
      destroyedTurn.target := by
  have htail : Run loopStep conflictTurn.target [destroyedTurn] destroyedTurn.target := by
    rw [← destroyed_steps.2.2]
    exact Run.of_step destroyed_steps.2.1 (Run.nil _)
  exact Run.of_step destroyed_steps.1 htail

theorem destroyed_data : ∀ e ∈ [conflictTurn] ++ [destroyedTurn], ∀ data,
    e.label.input = .command (.TriggerSync (some data)) → OfVault data.localRecords := by
  intro e he data hinput
  rcases List.mem_cons.mp he with heq | he
  · rw [heq] at hinput
    cases hinput
    refine ⟨[(Uuid.parseStr Sample.recordId).getD Uuid.nil], List.nodup_singleton _, ?_⟩
    decide
  · rw [List.mem_singleton.mp he] at hinput
    cases hinput
    exact ⟨[], List.nodup_nil, rfl⟩

/-- The rule at that run. -/
theorem conflict_queue_conserved_iff_destroyed :
    (∀ u ∈ visited (new (SyncStateMachine.new 5)) ([conflictTurn] ++ [destroyedTurn]),
        u.pendingIds.Nodup) ∧
      (∀ e ∈ [conflictTurn] ++ [destroyedTurn], Conserves e) ∧
      ((∀ done rest u, [conflictTurn] ++ [destroyedTurn] = done ++ rest →
          Run loopStep (new (SyncStateMachine.new 5)) done u → QueueHolds done u) ↔
        ∀ e ∈ [conflictTurn] ++ [destroyedTurn], RenewsQueue e) :=
  conflict_queue_conserved_iff destroyed_run destroyed_data

/-- The second run finds nothing, and the conflict of the first is still in the queue. -/
theorem destroyed_conflict_stays :
    ¬ ∀ maxRetries es t, Run loopStep (new (SyncStateMachine.new maxRetries)) es t →
      (∀ e ∈ es, ∀ data, e.label.input = .command (.TriggerSync (some data)) →
        OfVault data.localRecords) → QueueHolds es t := by
  intro hall
  have hholds := hall 5 _ _ destroyed_run destroyed_data
  have hsource : destroyedTurn.source.pendingConflicts ≠ [] := by
    have hsome := conflictTurn_leaves.2.1
    rw [destroyed_steps.2.2]
    intro hnone
    rw [hnone] at hsome
    cases hsome
  have hreceived : (destroyedTurn.source.receive destroyedTurn.label.input).WellFormed := by
    have hnodup := conflictTurn_leaves.2.2.1
    rw [← destroyed_steps.2.2] at hnodup
    refine ⟨?_, ?_⟩
    · unfold pendingIds
      rw [pendingConflicts_receive]
      exact hnodup
    · intro data hdata
      rw [destroyedTurn, vaultData_taskTurn] at hdata
      cases hdata
      exact ⟨[], List.nodup_nil, rfl⟩
  have hconnected := connected_of_head conflictTurn_leaves.2.2.2
  refine not_holds_of_stale destroyed_steps.2.1 hreceived ?_ hholds
  intro hrenews
  have hran : ∃ ctx, RunsPipeline destroyedTurn ctx := by
    rcases loopStep_queue destroyed_steps.2.1 rfl with ⟨-, hnone⟩ | ⟨rest, ctx, result, htr, hpipe, -⟩
    · rcases hconnected with ⟨rest, htr⟩
      exact absurd htr (hnone rest)
    · exact ⟨ctx, rfl, rest, result, htr, hpipe⟩
  rcases hrenews.found hran hsource with ⟨id, data, read, rest, m, hdata, -, -, -, row, hrow, -⟩
  rw [destroyedTurn, vaultData_taskTurn] at hdata
  cases hdata
  cases hrow

end

end SyncTask

end OakKeyring
