import OakKeyring.Executor.Health
import OakKeyring.Db.Frames
import OakKeyring.Samples.Vault

/-!
# A report after a restart

The rows keep the flags of a report and lose which duplicates belong together: the report made
of the rows has them all in one group.
-/

namespace OakKeyring

open Effect

/-! ## The sizes of groups -/

section Sizes

variable {sizes : AList fun _ : Uuid => Nat} {groups : List (List Uuid)} {id : Uuid}

theorem lookup_insertAll (group : List Uuid) (size : Nat) :
    (group.foldl (fun sizes id => sizes.insert id size) sizes).lookup id =
      if id ∈ group then some size else sizes.lookup id := by
  induction group generalizing sizes with
  | nil => simp
  | cons head group ih =>
      rw [List.foldl_cons, ih]
      by_cases hlater : id ∈ group
      · simp [hlater]
      · by_cases hhead : id = head
        · subst hhead
          simp [hlater]
        · simp [hlater, hhead]

/-- A size found was there before, or is that of a group which has the record. -/
theorem lookup_insertGroups {size : Nat}
    (h : (groups.foldl (fun sizes group =>
      group.foldl (fun sizes id => sizes.insert id group.length) sizes) sizes).lookup id =
        some size) :
    sizes.lookup id = some size ∨ ∃ group ∈ groups, id ∈ group ∧ size = group.length := by
  induction groups generalizing sizes with
  | nil => exact Or.inl h
  | cons group groups ih =>
      rcases ih h with hold | ⟨later, hlater, hmem, hsize⟩
      · rw [lookup_insertAll] at hold
        by_cases hmem : id ∈ group
        · rw [if_pos hmem] at hold
          exact Or.inr ⟨group, List.mem_cons_self, hmem, (Option.some.inj hold).symm⟩
        · rw [if_neg hmem] at hold
          exact Or.inl hold
      · exact Or.inr ⟨later, List.mem_cons_of_mem _ hlater, hmem, hsize⟩

theorem lookup_insertGroups_eq_none
    (h : (groups.foldl (fun sizes group =>
      group.foldl (fun sizes id => sizes.insert id group.length) sizes) sizes).lookup id = none) :
    sizes.lookup id = none ∧ id ∉ groups.flatten := by
  induction groups generalizing sizes with
  | nil => exact ⟨h, by simp⟩
  | cons group groups ih =>
      rcases ih h with ⟨hgroup, hrest⟩
      rw [lookup_insertAll] at hgroup
      by_cases hmem : id ∈ group
      · rw [if_pos hmem] at hgroup
        cases hgroup
      · rw [if_neg hmem] at hgroup
        exact ⟨hgroup, by simpa [hmem] using hrest⟩

/-- With groups of at least two, the records with a size of at least two are their members. -/
theorem any_lookup_dupSizeMap (hsize : ∀ group ∈ groups, 2 ≤ group.length) :
    ((dupSizeMap groups).lookup id).any (fun size => decide (2 ≤ size)) =
      decide (id ∈ groups.flatten) := by
  cases hlookup : (dupSizeMap groups).lookup id with
  | none =>
      have habsent : id ∉ groups.flatten := (lookup_insertGroups_eq_none hlookup).2
      simp only [Option.any_none, habsent, decide_false]
  | some size =>
      rcases lookup_insertGroups hlookup with hold | ⟨group, hgroup, hmem, rfl⟩
      · simp at hold
      · have hin : id ∈ groups.flatten := List.mem_flatten.mpr ⟨group, hgroup, hmem⟩
        simp only [Option.any_some, hsize group hgroup, hin, decide_true]

end Sizes

/-! ## Reports that agree -/

/-- A report about some records, with groups that share no member and have two or more. -/
structure HealthReport.Over (ids : List Uuid) (report : HealthReport) : Prop where
  weak : report.weakPasswords ⊆ ids
  compromised : report.compromised ⊆ ids
  expired : report.expired ⊆ ids
  duplicate : report.duplicatePasswords.flatten ⊆ ids
  disjoint : report.duplicatePasswords.Pairwise List.Disjoint
  distinct : ∀ group ∈ report.duplicatePasswords, group.Nodup
  sizes : ∀ group ∈ report.duplicatePasswords, 2 ≤ group.length

/-- The same issue, a duplicate in a group of `size`. -/
def HealthIssue.resized (size : Nat) : HealthIssue → HealthIssue
  | Duplicate _ => Duplicate size
  | issue => issue

def TuiRecord.resized (size : Nat) (record : TuiRecord) : TuiRecord :=
  { record with duplicateGroupSize := record.duplicateGroupSize.map fun _ => size }

/-- Two reports say the same of every record, whatever their groups. -/
structure HealthReport.SameIssues (reloaded report : HealthReport) : Prop where
  weak : ∀ id, id ∈ reloaded.weakPasswords ↔ id ∈ report.weakPasswords
  compromised : ∀ id, id ∈ reloaded.compromised ↔ id ∈ report.compromised
  expired : ∀ id, id ∈ reloaded.expired ↔ id ∈ report.expired
  duplicate : ∀ id, id ∈ reloaded.duplicatePasswords.flatten ↔
    id ∈ report.duplicatePasswords.flatten

/-- Two reports show the same of every record. -/
structure HealthReport.Agrees (reloaded report : HealthReport) : Prop where
  issue : ∀ id, reloaded.getIssueFor id = report.getIssueFor id
  fields : ∀ records,
    populateHealthFields records (some reloaded) = populateHealthFields records (some report)

/-- Two reports show the same, but one shows duplicates in a group of `size`. -/
structure HealthReport.AgreesResized (size : Nat) (reloaded report : HealthReport) : Prop where
  issue : ∀ id, reloaded.getIssueFor id = (report.getIssueFor id).map (HealthIssue.resized size)
  fields : ∀ records, populateHealthFields records (some reloaded) =
    (populateHealthFields records (some report)).map (TuiRecord.resized size)

namespace HealthReport

variable {reloaded report : HealthReport} {id : Uuid}

theorem Over.nodup {ids : List Uuid} (h : report.Over ids) :
    report.duplicatePasswords.flatten.Nodup :=
  List.nodup_flatten.mpr ⟨h.distinct, h.disjoint⟩

theorem groupSize_eq_none :
    report.groupSize id = none ↔ id ∉ report.duplicatePasswords.flatten := by
  simp [groupSize]

theorem groupSize_single {group : List Uuid} (h : report.duplicatePasswords = [group]) :
    report.groupSize id = if id ∈ group then some group.length else none := by
  by_cases hmem : id ∈ group <;> simp [groupSize, h, hmem]

/-- Reports with the same issues show the same when their sizes correspond. -/
theorem SameIssues.agreesResized {size : Nat} (h : SameIssues reloaded report)
    (hsize : ∀ id, reloaded.groupSize id = (report.groupSize id).map fun _ => size) :
    AgreesResized size reloaded report where
  issue := by
    intro id
    simp only [getIssueFor, h.compromised id, h.weak id, h.expired id, hsize id]
    split
    · rfl
    split
    · rfl
    cases report.groupSize id with
    | some _ => rfl
    | none =>
        simp only [Option.map_none]
        split <;> rfl
  fields := by
    intro records
    simp only [populateHealthFields, List.map_map]
    apply List.map_congr_left
    intro record _
    simp only [Function.comp, populate, TuiRecord.resized, h.weak, h.compromised, h.expired,
      hsize]

theorem SameIssues.agrees (h : SameIssues reloaded report)
    (hsize : ∀ id, reloaded.groupSize id = report.groupSize id) : Agrees reloaded report where
  issue := by
    intro id
    simp only [getIssueFor, h.compromised id, h.weak id, h.expired id, hsize id]
  fields := by
    intro records
    simp only [populateHealthFields]
    apply List.map_congr_left
    intro record _
    simp only [populate, h.weak, h.compromised, h.expired, hsize]

/-- Reports that agree give every record the same size. -/
theorem Agrees.groupSize (h : Agrees reloaded report) (id : Uuid) :
    reloaded.groupSize id = report.groupSize id := by
  let row : TuiRecord :=
    { id := id, credentialType := .Login, name := "", subtitle := "", isFavorite := false
      isExpired := false, expiresAt := none, hasWeakPassword := false, isCompromised := false
      duplicateGroupSize := none, createdAt := ⟨0, 0⟩, updatedAt := ⟨0, 0⟩, deleted := false
      deletedAt := none, tags := [], syncStatus := none }
  have hrow : reloaded.populate row = report.populate row := by
    simpa [populateHealthFields] using h.fields [row]
  exact congrArg TuiRecord.duplicateGroupSize hrow

/-! ## All duplicates in one group -/

/-- The issues of a report, with its duplicates in a single group. -/
structure Merged (reloaded report : HealthReport) : Prop extends SameIssues reloaded report where
  group : reloaded.duplicatePasswords = [] ∨ ∃ all, reloaded.duplicatePasswords = [all]
  nodup : reloaded.duplicatePasswords.flatten.Nodup

section

variable {ids : List Uuid}

theorem Merged.groupSize (h : Merged reloaded report) (hreport : report.Over ids) (id : Uuid) :
    reloaded.groupSize id =
      (report.groupSize id).map fun _ => report.duplicatePasswords.flatten.length := by
  have hperm : reloaded.duplicatePasswords.flatten.Perm report.duplicatePasswords.flatten :=
    (List.perm_ext_iff_of_nodup h.nodup hreport.nodup).mpr h.duplicate
  by_cases hmem : id ∈ report.duplicatePasswords.flatten
  -- a duplicate is in the group of all
  · have hall : id ∈ reloaded.duplicatePasswords.flatten := (h.duplicate id).mpr hmem
    rcases h.group with hnone | ⟨all, hone⟩
    · simp [hnone] at hall
    · rw [hone, List.flatten_singleton] at hall hperm
      obtain ⟨size, hsize⟩ := Option.ne_none_iff_exists'.mp
        (mt groupSize_eq_none.mp (not_not.mpr hmem))
      rw [groupSize_single hone, if_pos hall, hsize, hperm.length_eq]
      rfl
  · have hreloaded : id ∉ reloaded.duplicatePasswords.flatten := mt (h.duplicate id).mp hmem
    rw [groupSize_eq_none.mpr hmem, groupSize_eq_none.mpr hreloaded]
    rfl

theorem Merged.agreesResized (h : Merged reloaded report) (hreport : report.Over ids) :
    AgreesResized report.duplicatePasswords.flatten.length reloaded report :=
  h.toSameIssues.agreesResized (h.groupSize hreport)

/-- A single group keeps its size. -/
theorem Merged.agrees_of_length_le_one (h : Merged reloaded report) (hreport : report.Over ids)
    (hlength : report.duplicatePasswords.length ≤ 1) : Agrees reloaded report := by
  apply h.toSameIssues.agrees
  intro id
  rw [h.groupSize hreport]
  cases hgroups : report.duplicatePasswords with
  | nil => simp [HealthReport.groupSize, hgroups]
  | cons group rest =>
      rw [hgroups] at hlength
      have hrest : rest = [] := List.length_eq_zero_iff.mp (by simpa using hlength)
      subst hrest
      rw [groupSize_single hgroups, List.flatten_singleton]
      by_cases hmem : id ∈ group <;> simp [hmem]

/-- Of two groups, the first is smaller than both together. -/
theorem Merged.length_le_one_of_agrees (h : Merged reloaded report) (hreport : report.Over ids)
    (hagrees : Agrees reloaded report) : report.duplicatePasswords.length ≤ 1 := by
  cases hgroups : report.duplicatePasswords with
  | nil => simp
  | cons first rest =>
      cases rest with
      | nil => simp
      | cons second rest =>
          exfalso
          have hfirst : 2 ≤ first.length := hreport.sizes first (by simp [hgroups])
          have hsecond : 2 ≤ second.length := hreport.sizes second (by simp [hgroups])
          obtain ⟨id, hid⟩ := List.exists_mem_of_length_pos (lt_of_lt_of_le Nat.two_pos hfirst)
          have hsize : report.groupSize id = some first.length := by
            simp [HealthReport.groupSize, hgroups, hid]
          have hmerged := h.groupSize hreport id
          rw [hagrees.groupSize id, hsize, hgroups, Option.map_some, Option.some.injEq] at hmerged
          simp only [List.flatten_cons, List.length_append] at hmerged
          omega

theorem Merged.agrees_iff (h : Merged reloaded report) (hreport : report.Over ids) :
    Agrees reloaded report ↔ report.duplicatePasswords.length ≤ 1 :=
  ⟨h.length_le_one_of_agrees hreport, h.agrees_of_length_le_one hreport⟩

end

end HealthReport

/-! ## The rows of a report -/

/-- A row as a reader finds it: the time of the evaluation is cut to seconds. -/
def RecordHealthState.asStored (state : RecordHealthState) : RecordHealthState :=
  state.toRow.toHealthState state.recordId

/-- The rows that persisting a report leaves, in some order. -/
def RowsOf (records : List StoredRecord) (report : HealthReport) (evaluatedAt : DateTime)
    (rows : List RecordHealthState) : Prop :=
  rows.Perm ((projectHealthReportToStates records report evaluatedAt).map
    RecordHealthState.asStored)

section Rows

variable {records : List StoredRecord} {report : HealthReport} {evaluatedAt : DateTime}
  {rows : List RecordHealthState}

/-- The flagged rows are those of the records that the report flags. -/
theorem RowsOf.flaggedIds_perm (h : RowsOf records report evaluatedAt rows)
    {flag : RecordHealthState → Bool} {among : List Uuid}
    (hflag : ∀ record : StoredRecord,
      flag (projectedState report evaluatedAt record).asStored = decide (record.id ∈ among)) :
    (flaggedIds flag rows).Perm
      ((records.map StoredRecord.id).filter fun id => decide (id ∈ among)) := by
  have hrows := (h.filter flag).map RecordHealthState.recordId
  have hsame : ((projectHealthReportToStates records report evaluatedAt).map
      RecordHealthState.asStored |>.filter flag).map RecordHealthState.recordId =
        (records.map StoredRecord.id).filter fun id => decide (id ∈ among) := by
    simp only [projectHealthReportToStates, List.map_map, List.filter_map]
    have hflags : (flag ∘ RecordHealthState.asStored ∘ projectedState report evaluatedAt) =
        (fun id => decide (id ∈ among)) ∘ StoredRecord.id := by
      funext record
      exact hflag record
    rw [hflags]
    rfl
  rw [hsame] at hrows
  exact hrows

theorem RowsOf.mem_flaggedIds (h : RowsOf records report evaluatedAt rows)
    {flag : RecordHealthState → Bool} {among : List Uuid}
    (hflag : ∀ record : StoredRecord,
      flag (projectedState report evaluatedAt record).asStored = decide (record.id ∈ among))
    (hamong : among ⊆ records.map StoredRecord.id) (id : Uuid) :
    id ∈ flaggedIds flag rows ↔ id ∈ among := by
  rw [(h.flaggedIds_perm hflag).mem_iff, List.mem_filter, decide_eq_true_iff]
  exact ⟨And.right, fun hmem => ⟨hamong hmem, hmem⟩⟩

theorem flatten_cachedReport :
    (cachedReport rows).duplicatePasswords.flatten = flaggedIds isDuplicate rows := by
  unfold cachedReport
  dsimp only
  split
  · rename_i hnone
    rw [hnone]
    rfl
  · exact List.flatten_singleton

/-- The rows of a report give it back with its duplicates in one group. -/
theorem RowsOf.merged (h : RowsOf records report evaluatedAt rows)
    (hnodup : (records.map StoredRecord.id).Nodup)
    (hreport : report.Over (records.map StoredRecord.id)) :
    HealthReport.Merged (cachedReport rows) report where
  weak := h.mem_flaggedIds (fun record => by
    simp [RecordHealthState.asStored, RecordHealthState.toRow, HealthRow.toHealthState,
      projectedState]) hreport.weak
  compromised := h.mem_flaggedIds (fun record => by
    simp [RecordHealthState.asStored, RecordHealthState.toRow, HealthRow.toHealthState,
      projectedState]) hreport.compromised
  expired := h.mem_flaggedIds (fun record => by
    simp [RecordHealthState.asStored, RecordHealthState.toRow, HealthRow.toHealthState,
      projectedState]) hreport.expired
  duplicate := by
    intro id
    rw [flatten_cachedReport]
    exact h.mem_flaggedIds (fun _ => any_lookup_dupSizeMap hreport.sizes) hreport.duplicate id
  group := by
    unfold cachedReport
    dsimp only
    split
    · exact Or.inl rfl
    · exact Or.inr ⟨_, rfl⟩
  nodup := by
    rw [flatten_cachedReport, (h.flaggedIds_perm fun _ =>
      any_lookup_dupSizeMap hreport.sizes).nodup_iff]
    exact hnodup.filter _

theorem RowsOf.eq_nil_iff (h : RowsOf records report evaluatedAt rows) :
    rows = [] ↔ records = [] := by
  have hlength := h.length_eq
  simp only [projectHealthReportToStates, List.length_map] at hlength
  rw [← List.length_eq_zero_iff, hlength, List.length_eq_zero_iff]

end Rows

/-! ## Persisting and loading -/

namespace Tables

variable {t t' : Tables}

theorem entries_insertHealth {state : RecordHealthState} (h : t.insertHealth state = .ok t') :
    t'.healthState.entries = ⟨state.recordId, state.toRow⟩ :: t.healthState.entries := by
  unfold insertHealth at h
  split at h
  · cases h
  · rename_i hfresh
    rw [(referring_ok h).2]
    exact AList.entries_insert_of_notMem hfresh

theorem entries_insertHealths {states : List RecordHealthState}
    (h : states.foldlM insertHealth t = .ok t') :
    t'.healthState.entries =
      (states.map fun state => ⟨state.recordId, state.toRow⟩).reverse ++ t.healthState.entries := by
  induction states generalizing t with
  | nil =>
      cases h
      rfl
  | cons state states ih =>
      rw [List.foldlM_cons] at h
      rcases ok_of_bind h with ⟨u, hu, hrest⟩
      rw [ih hrest, entries_insertHealth hu]
      simp

/-- The active records. -/
def active (t : Tables) : List StoredRecord :=
  t.storedRecords.filter RecordQuery.active.selects

def activeIds (t : Tables) : List Uuid :=
  t.active.map StoredRecord.id

theorem activeIds_nodup : t.activeIds.Nodup := by
  have hall : (t.storedRecords.map StoredRecord.id).Nodup := by
    rw [storedRecords_ids]
    exact t.records.keys_nodup
  exact hall.sublist (List.filter_sublist.map _)

end Tables

section Runs

variable {t t' t'' : Tables} {report : HealthReport} {evaluatedAt : DateTime}

/-- Persisting leaves a row for each active record, and no other. -/
theorem wpe_persistHealthReport :
    wpe vaultEnv (fun _ u => ∃ records, records.Perm t.active ∧
        (u.healthState.entries.map fun e => e.2.toHealthState e.1).Perm
          ((projectHealthReportToStates records report evaluatedAt).map
            RecordHealthState.asStored))
      (fun _ u => u = t) (persistHealthReport report evaluatedAt) t := by
  unfold persistHealthReport Vault.listAllStoredRecords Vault.listRecordHealthStates
    Vault.replaceRecordHealthStates
  have hlist : DbOp.run (.listRecords .active) t = .ok (t.active, t) := rfl
  refine (wpe_bind _ _).mpr (Vault.wpe_query_of_run hlist ?_ fun _ => rfl)
  intro records hrecords
  have hstates : DbOp.run .listRecordHealthStates t =
      .ok (t.healthState.entries.map fun e => e.2.toHealthState e.1, t) := rfl
  refine (wpe_bind _ _).mpr (Vault.wpe_query_of_run hstates ?_ fun _ => rfl)
  intro oldStates _
  refine (wpe_bind _ _).mpr (Vault.wpe_query ?_ fun _ => rfl)
  intro expected result u hrun _
  rcases Tables.ok_of_bind hrun with ⟨written, hwritten, hend⟩
  cases hend
  refine ⟨records, hrecords, ?_⟩
  rw [Tables.entries_insertHealths hwritten]
  -- every row stands for its state, the last one first
  rw [List.map_append, List.map_reverse, List.map_map]
  calc
    _ = ((projectHealthReportToStates records report evaluatedAt).map
          RecordHealthState.asStored).reverse := List.append_nil _
    List.Perm _ ((projectHealthReportToStates records report evaluatedAt).map
          RecordHealthState.asStored) := List.reverse_perm _

theorem wpe_loadCachedHealthReport :
    wpe vaultEnv (fun loaded u => u = t ∧ ∃ rows : List RecordHealthState,
        rows.Perm (t.healthState.entries.map fun e => e.2.toHealthState e.1) ∧
          loaded = if rows = [] then none else some (cachedReport rows))
      (fun _ u => u = t) loadCachedHealthReport t := by
  unfold loadCachedHealthReport Vault.listRecordHealthStates
  have hstates : DbOp.run .listRecordHealthStates t =
      .ok (t.healthState.entries.map fun e => e.2.toHealthState e.1, t) := rfl
  refine (wpe_bind _ _).mpr (Vault.wpe_query_of_run hstates ?_ fun _ => rfl)
  intro (rows : List RecordHealthState) hrows
  by_cases hnone : rows = []
  · rw [if_pos hnone]
    exact ⟨rfl, rows, hrows, (if_pos hnone).symm⟩
  · rw [if_neg hnone]
    exact ⟨rfl, rows, hrows, (if_neg hnone).symm⟩

/-- What is loaded is made of the rows that were persisted. -/
theorem exists_rowsOf {deltas : List HealthStateDelta} {loaded : Option HealthReport}
    (hpersist : Answers vaultEnv t (persistHealthReport report evaluatedAt) deltas t')
    (hload : Answers vaultEnv t' loadCachedHealthReport loaded t'') :
    ∃ records rows, records.Perm t.active ∧ RowsOf records report evaluatedAt rows ∧
      loaded = if rows = [] then none else some (cachedReport rows) := by
  rcases hpersist.of_wpe wpe_persistHealthReport with ⟨records, hrecords, hentries⟩
  rcases hload.of_wpe wpe_loadCachedHealthReport with ⟨-, rows, hrows, hloaded⟩
  exact ⟨records, rows, hrecords, hrows.trans hentries, hloaded⟩

/-- A report that is loaded again has its duplicates in one group; without active records there
is none. -/
theorem merged_of_answers {deltas : List HealthStateDelta} {loaded : Option HealthReport}
    (hreport : report.Over t.activeIds)
    (hpersist : Answers vaultEnv t (persistHealthReport report evaluatedAt) deltas t')
    (hload : Answers vaultEnv t' loadCachedHealthReport loaded t'') :
    (loaded = none ↔ t.active = []) ∧ ∀ reloaded, loaded = some reloaded →
      reloaded.Merged report := by
  rcases exists_rowsOf hpersist hload with ⟨records, rows, hrecords, hrows, hloaded⟩
  have hids : (records.map StoredRecord.id).Perm t.activeIds := hrecords.map StoredRecord.id
  have hover : report.Over (records.map StoredRecord.id) :=
    { hreport with
      weak := List.Subset.trans hreport.weak hids.symm.subset
      compromised := List.Subset.trans hreport.compromised hids.symm.subset
      expired := List.Subset.trans hreport.expired hids.symm.subset
      duplicate := List.Subset.trans hreport.duplicate hids.symm.subset }
  have hmerged : (cachedReport rows).Merged report :=
    hrows.merged (hids.nodup_iff.mpr Tables.activeIds_nodup) hover
  have hempty : rows = [] ↔ t.active = [] := by
    rw [hrows.eq_nil_iff]
    exact ⟨fun h => by simpa [h] using hrecords, fun h => by simpa [h] using hrecords⟩
  by_cases hnone : rows = []
  · rw [if_pos hnone] at hloaded
    subst hloaded
    exact ⟨by simp [hempty.mp hnone], by simp⟩
  · rw [if_neg hnone] at hloaded
    subst hloaded
    refine ⟨by simp [mt hempty.mpr hnone], ?_⟩
    rintro _ ⟨⟩
    exact hmerged

/-- A report that is loaded again flags the same records and shows the same of each, but for
the sizes of groups: they become the number of all duplicates, and stay what they were exactly
when there is at most one group. -/
theorem loadCachedHealthReport_persisted {deltas : List HealthStateDelta}
    {loaded : Option HealthReport} (hreport : report.Over t.activeIds)
    (hpersist : Answers vaultEnv t (persistHealthReport report evaluatedAt) deltas t')
    (hload : Answers vaultEnv t' loadCachedHealthReport loaded t'') :
    (loaded = none ↔ t.active = []) ∧
      ∀ reloaded, loaded = some reloaded →
        reloaded.SameIssues report ∧
          reloaded.AgreesResized report.duplicatePasswords.flatten.length report ∧
          (reloaded.Agrees report ↔ report.duplicatePasswords.length ≤ 1) := by
  rcases merged_of_answers hreport hpersist hload with ⟨hnone, hsome⟩
  refine ⟨hnone, ?_⟩
  intro reloaded hloaded
  have hmerged : reloaded.Merged report := hsome reloaded hloaded
  exact ⟨hmerged.toSameIssues, hmerged.agreesResized hreport, hmerged.agrees_iff hreport⟩

/-! ## Both go through -/

theorem Tables.insertHealths_ok {states : List RecordHealthState}
    (hrecords : ∀ state ∈ states, state.recordId ∈ t.records)
    (hfresh : ∀ state ∈ states, state.recordId ∉ t.healthState)
    (hnodup : (states.map RecordHealthState.recordId).Nodup) :
    ∃ u, states.foldlM Tables.insertHealth t = .ok u := by
  induction states generalizing t with
  | nil => exact ⟨t, rfl⟩
  | cons state states ih =>
      rw [List.map_cons, List.nodup_cons] at hnodup
      let next : Tables :=
        { t with healthState := t.healthState.insert state.recordId state.toRow }
      have hstep : t.insertHealth state = .ok next := by
        simp [Tables.insertHealth, Tables.upsertHealth, Tables.referring,
          hfresh state List.mem_cons_self, hrecords state List.mem_cons_self, next]
      have hnext : ∃ u, states.foldlM Tables.insertHealth next = .ok u := by
        apply ih
        · intro other hother
          exact hrecords other (List.mem_cons_of_mem _ hother)
        · intro other hother hmem
          rcases (AList.mem_insert _).mp hmem with hsame | hold
          · exact hnodup.1 (hsame ▸ List.mem_map_of_mem hother)
          · exact hfresh other (List.mem_cons_of_mem _ hother) hold
        · exact hnodup.2
      rcases hnext with ⟨u, hu⟩
      refine ⟨u, ?_⟩
      rw [List.foldlM_cons, hstep]
      exact hu

/-- Persisting a report goes through when no fault prevents it. -/
theorem exists_answers_persistHealthReport (t : Tables) (report : HealthReport)
    (evaluatedAt : DateTime) :
    ∃ deltas t', Answers vaultEnv t (persistHealthReport report evaluatedAt) deltas t' := by
  let states := projectHealthReportToStates t.active report evaluatedAt
  have hids : states.map RecordHealthState.recordId = t.activeIds := by
    simp [states, projectHealthReportToStates, Tables.activeIds, Function.comp_def,
      projectedState]
  -- the states have different records, which are all in the vault
  have hwritten : ∃ u, states.foldlM Tables.insertHealth { t with healthState := ∅ } = .ok u := by
    apply Tables.insertHealths_ok
    · intro state hstate
      have hid : state.recordId ∈ t.activeIds := hids ▸ List.mem_map_of_mem hstate
      have hall : state.recordId ∈ t.storedRecords.map StoredRecord.id :=
        (List.filter_sublist.map StoredRecord.id).subset hid
      rw [Tables.storedRecords_ids] at hall
      exact hall
    · intro state _
      exact AList.notMem_empty _
    · rw [hids]
      exact Tables.activeIds_nodup
  rcases hwritten with ⟨u, hu⟩
  -- so the statement replaces all states by them
  have hreplace : DbOp.run (.replaceRecordHealthStates states) t = .ok ((), u) := by
    change (states.foldlM Tables.insertHealth { t with healthState := ∅ } >>= fun u =>
      Except.ok ((), u)) = _
    rw [hu]
    rfl
  have hrecords : DbOp.run (.listRecords .active) t = .ok (t.active, t) := rfl
  apply exists_answers_bind (Vault.answers_query hrecords (DbOp.Same.refl _ _))
  apply exists_answers_bind (Vault.answers_query rfl (DbOp.Same.refl _ _))
  apply exists_answers_bind (Vault.answers_query hreplace rfl)
  exact ⟨_, u, answers_pure _⟩

theorem exists_answers_loadCachedHealthReport (t : Tables) :
    ∃ loaded, Answers vaultEnv t loadCachedHealthReport loaded t := by
  let rows := t.healthState.entries.map fun e => e.2.toHealthState e.1
  have hlist : Answers vaultEnv t Vault.listRecordHealthStates rows t :=
    Vault.answers_query rfl (List.Perm.refl _)
  by_cases hnone : rows = []
  · refine ⟨none, hlist.bind ?_⟩
    rw [if_pos hnone]
    exact answers_pure none
  · refine ⟨some (cachedReport rows), hlist.bind ?_⟩
    rw [if_neg hnone]
    exact answers_pure _

end Runs

/-! ## Two pairs -/

namespace TwoPairs

def idOf (digit : Fin 16) : Uuid :=
  Uuid.filled digit

def row : RecordRow where
  credentialType := .Login
  encryptedData := []
  nonce := Nonce.filled 0
  dekVersion := 1
  aad := []
  isFavorite := false
  expiresAt := none
  createdAt := 0
  updatedAt := 0
  updatedBy := "device"
  version := 1
  deleted := false
  deletedAt := none

/-- A vault with four logins. -/
def tables : Tables :=
  { Tables.fresh Sample.seed with
    records := [1, 2, 3, 4].foldl (fun records digit => records.insert (idOf digit) row) ∅ }

/-- The first two logins share a password, and so do the others. -/
def report : HealthReport where
  weakPasswords := [idOf 1]
  duplicatePasswords := [[idOf 1, idOf 2], [idOf 3, idOf 4]]
  compromised := []
  expired := [idOf 2]
  totalChecked := 4

/-- The same with one pair. -/
def onePair : HealthReport :=
  { report with duplicatePasswords := [[idOf 1, idOf 2]] }

theorem activeOnly : report.Over tables.activeIds ∧ onePair.Over tables.activeIds := by
  have hapart : List.Disjoint [idOf 1, idOf 2] [idOf 3, idOf 4] := by
    rw [List.disjoint_left]
    decide
  constructor
  · constructor <;> first | decide | exact List.pairwise_pair.mpr hapart
  · constructor <;> first | decide | exact List.pairwise_singleton _ _

theorem active_ne_nil : tables.active ≠ [] := by
  decide

/-- A report that is persisted is loaded again. -/
theorem exists_reloaded {report : HealthReport} (hreport : report.Over tables.activeIds) :
    ∃ deltas t' reloaded,
      Answers vaultEnv tables (persistHealthReport report ⟨0, 0⟩) deltas t' ∧
        Answers vaultEnv t' loadCachedHealthReport (some reloaded) t' ∧
        reloaded.Merged report := by
  rcases exists_answers_persistHealthReport tables report ⟨0, 0⟩ with ⟨deltas, t', hpersist⟩
  rcases exists_answers_loadCachedHealthReport t' with ⟨loaded, hload⟩
  have hmerged := merged_of_answers hreport hpersist hload
  cases loaded with
  | none => exact absurd (hmerged.1.mp rfl) active_ne_nil
  | some reloaded => exact ⟨deltas, t', reloaded, hpersist, hload, hmerged.2 reloaded rfl⟩

/-- After a restart every one of the four is a duplicate in a group of four. -/
theorem report_regrouped :
    report.Over tables.activeIds ∧ ∃ deltas t' reloaded,
      Answers vaultEnv tables (persistHealthReport report ⟨0, 0⟩) deltas t' ∧
        Answers vaultEnv t' loadCachedHealthReport (some reloaded) t' ∧
        report.getIssueFor (idOf 3) = some (.Duplicate 2) ∧
        reloaded.getIssueFor (idOf 3) = some (.Duplicate 4) ∧ ¬ reloaded.Agrees report := by
  rcases exists_reloaded activeOnly.1 with ⟨deltas, t', reloaded, hpersist, hload, hmerged⟩
  have hissue : report.getIssueFor (idOf 3) = some (.Duplicate 2) := by decide
  have hreloaded : reloaded.getIssueFor (idOf 3) = some (.Duplicate 4) := by
    rw [(hmerged.agreesResized activeOnly.1).issue, hissue]
    rfl
  refine ⟨activeOnly.1, deltas, t', reloaded, hpersist, hload, hissue, hreloaded, ?_⟩
  intro hagrees
  have hlength := (hmerged.agrees_iff activeOnly.1).mp hagrees
  exact absurd hlength (by decide)

/-- One pair is the same after a restart. -/
theorem onePair_reloaded :
    ∃ deltas t' reloaded,
      Answers vaultEnv tables (persistHealthReport onePair ⟨0, 0⟩) deltas t' ∧
        Answers vaultEnv t' loadCachedHealthReport (some reloaded) t' ∧
        reloaded.SameIssues onePair ∧ reloaded.Agrees onePair := by
  rcases exists_reloaded activeOnly.2 with ⟨deltas, t', reloaded, hpersist, hload, -⟩
  have hsame := (loadCachedHealthReport_persisted activeOnly.2 hpersist hload).2 reloaded rfl
  exact ⟨deltas, t', reloaded, hpersist, hload, hsame.1, hsame.2.2.mpr (by decide)⟩

end TwoPairs

end OakKeyring
