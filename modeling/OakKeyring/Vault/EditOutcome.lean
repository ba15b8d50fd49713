import OakKeyring.Db.Inserted
import OakKeyring.Lib.Logged
import OakKeyring.Samples.Crates
import OakKeyring.Samples.Vault
import OakKeyring.Vault.Field
import OakKeyring.Vault.PendingMarks

/-!
# What an edit leaves behind

The statements of `update_record` are not in one transaction. An edit that fails has changed the
record as soon as one of its statements has written the history or the row.
-/

namespace OakKeyring

open Effect Tables Transition

/-! ## The state of a record -/

/-- What an edit may change of a record. -/
structure RecordState where
  row : Option RecordRow
  tags : List String
  history : List (Nat × HistoryRow)
  health : Option HealthRow
  sync : Option SyncRow
deriving DecidableEq

namespace Tables

def stateOf (t : Tables) (id : Uuid) : RecordState where
  row := t.records.lookup id
  tags := t.tagsOf id
  history := t.historyOf id
  health := t.healthState.lookup id
  sync := t.syncState.lookup id

/-- No entry of the history has a number that was not given yet. -/
def HistoryNumbered (t : Tables) : Prop :=
  ∀ entry ∈ t.passwordHistory, entry.1 ≤ t.lastHistoryId

variable {t t' u : Tables} {id : Uuid}

theorem Outside.tagsOf {written : List Table} (h : Outside written t t')
    (htags : .tags ∉ written) (hlinks : .recordTags ∉ written) (id : Uuid) :
    t'.tagsOf id = t.tagsOf id := by
  have hnames : t'.tags = t.tags := congrArg Prod.fst (h .tags htags)
  have hlinked : t'.recordTags = t.recordTags := h .recordTags hlinks
  unfold Tables.tagsOf
  rw [hnames, hlinked]

theorem Outside.historyOf {written : List Table} (h : Outside written t t')
    (hout : Table.passwordHistory ∉ written) (id : Uuid) : t'.historyOf id = t.historyOf id := by
  have hrows : t'.passwordHistory = t.passwordHistory := congrArg Prod.fst (h .passwordHistory hout)
  unfold Tables.historyOf
  rw [hrows]

theorem historyOf_of_stateOf (h : t'.stateOf id = t.stateOf id) : t'.historyOf id = t.historyOf id :=
  congrArg RecordState.history h

/-! ## The history -/

/-- An entry that is added is a new one. -/
theorem historyOf_addHistory (entry : HistoryRow) (id : Uuid) :
    (t.addHistory entry).historyOf id =
      t.historyOf id ++ if entry.recordId = id then [(t.lastHistoryId + 1, entry)] else [] := by
  unfold Tables.historyOf addHistory
  rw [List.filter_append]
  by_cases heq : entry.recordId = id
  · rw [if_pos heq]
    simp [heq]
  · rw [if_neg heq]
    simp [heq]

theorem fresh_not_mem_historyOf (hnumbered : t.HistoryNumbered) (entry : HistoryRow) :
    (t.lastHistoryId + 1, entry) ∉ t.historyOf id := by
  intro hmem
  have hle := hnumbered _ (List.mem_of_mem_filter hmem)
  exact absurd hle (by simp)

theorem historyOf_deletePasswordHistoryEntry (id : Uuid) {number : Nat}
    (hrun : DbOp.run (.deletePasswordHistoryEntry number) t = .ok ((), u)) :
    u.historyOf id = ((t.historyOf id).filter fun entry => entry.1 ≠ number) ∧
      u.lastHistoryId = t.lastHistoryId := by
  have hu : u = { t with
      passwordHistory := t.passwordHistory.filter fun entry => entry.1 ≠ number } :=
    (congrArg Prod.snd (Except.ok.inj hrun)).symm
  rw [hu]
  refine ⟨?_, rfl⟩
  unfold Tables.historyOf
  rw [List.filter_filter, List.filter_filter]
  apply List.filter_congr
  intro entry _
  exact Bool.and_comm _ _

theorem mem_oldestHistory {entry : Nat × HistoryRow} :
    entry ∈ t.oldestHistory id ↔ entry ∈ t.historyOf id ∧
      ∀ other ∈ t.historyOf id, entry.2.changedAt ≤ other.2.changedAt := by
  unfold oldestHistory
  simp

/-- Some entry of a history has its least second. -/
theorem oldestHistory_ne_nil (h : t.historyOf id ≠ []) : t.oldestHistory id ≠ [] := by
  have hleast : ∃ entry ∈ t.historyOf id, ∀ other ∈ t.historyOf id,
      ¬ other.2.changedAt < entry.2.changedAt := by
    let second : Nat × HistoryRow → Int := fun entry => entry.2.changedAt
    cases hfirst : (t.historyOf id).argmin second with
    | none => exact absurd (List.argmin_eq_none.mp hfirst) h
    | some entry =>
        refine ⟨entry, List.argmin_mem hfirst, ?_⟩
        exact fun other hother => List.not_lt_of_mem_argmin (f := second) hother hfirst
  rcases hleast with ⟨entry, hmem, hleast⟩
  refine List.ne_nil_of_mem (mem_oldestHistory.mpr ⟨hmem, ?_⟩)
  exact fun other hother => not_lt.mp (hleast other hother)

/-- What the database gives first is the number of an entry of the least second. -/
theorem head_oldest {numbers : List Nat}
    (hsame : numbers.Perm ((t.oldestHistory id).map Prod.fst)) (hne : t.historyOf id ≠ []) :
    ∃ oldest ∈ t.oldestHistory id, numbers.head? = some oldest.1 := by
  cases numbers with
  | nil =>
      have hnone : t.oldestHistory id = [] := List.map_eq_nil_iff.mp hsame.nil_eq.symm
      exact absurd hnone (oldestHistory_ne_nil hne)
  | cons number rest =>
      rcases List.mem_map.mp (hsame.subset List.mem_cons_self) with ⟨oldest, holdest, hnumber⟩
      exact ⟨oldest, holdest, by rw [hnumber]; rfl⟩

/-- A new entry, and those before it but for what is pruned from a full history. -/
def Extended (id : Uuid) (t u : Tables) : Prop :=
  ∃ kept entry, kept.Sublist (t.historyOf id) ∧
    ((t.historyOf id).length < 10 → kept = t.historyOf id) ∧
      u.historyOf id = kept ++ [entry] ∧ entry ∉ t.historyOf id

theorem Extended.ne (h : Extended id t u) : u.historyOf id ≠ t.historyOf id := by
  rcases h with ⟨kept, entry, -, -, hhistory, hnew⟩
  intro hsame
  rw [← hsame, hhistory] at hnew
  exact hnew (by simp)

theorem outside_addHistory (entry : HistoryRow) :
    Outside [.passwordHistory] u (u.addHistory entry) := by
  intro table hnot
  cases table <;> first | rfl | exact absurd List.mem_cons_self hnot

theorem extended_addHistory (hnumbered : t.HistoryNumbered) {entry : HistoryRow}
    (hentry : entry.recordId = id) (hsub : (u.historyOf id).Sublist (t.historyOf id))
    (hall : (t.historyOf id).length < 10 → u.historyOf id = t.historyOf id)
    (hlast : u.lastHistoryId = t.lastHistoryId) : Extended id t (u.addHistory entry) := by
  refine ⟨u.historyOf id, (t.lastHistoryId + 1, entry), hsub, hall, ?_, ?_⟩
  · calc (u.addHistory entry).historyOf id
        = u.historyOf id ++ if entry.recordId = id then [(u.lastHistoryId + 1, entry)] else [] :=
          historyOf_addHistory entry id
      _ = u.historyOf id ++ [(t.lastHistoryId + 1, entry)] := by rw [if_pos hentry, hlast]
  · exact fresh_not_mem_historyOf hnumbered entry

end Tables

/-- Every statement keeps the numbers of the history. -/
theorem DbOp.historyNumbered_run {op : DbOp} {t t' : Tables} {result : op.Result}
    (hnumbered : t.HistoryNumbered) (h : op.run t = .ok (result, t')) : t'.HistoryNumbered := by
  -- fewer entries are numbered as before
  have hsub : ∀ {u : Tables}, (∀ entry ∈ u.passwordHistory, entry ∈ t.passwordHistory) →
      u.lastHistoryId = t.lastHistoryId → u.HistoryNumbered := by
    intro u hentries hlast entry hmem
    rw [hlast]
    exact hnumbered entry (hentries entry hmem)
  cases op with
  | hardDeleteRecord id =>
      cases h
      exact hsub (fun _ hmem => List.mem_of_mem_filter hmem) rfl
  | batchHardDeleteRecords ids =>
      cases h
      -- each row of the batch takes its entries with it
      have hgen : ∀ (rest : List Uuid) (u : Tables), u.HistoryNumbered →
          (rest.foldl deleteRow u).HistoryNumbered := by
        intro rest
        induction rest with
        | nil => exact fun _ hu => hu
        | cons id rest ih =>
            intro u hu
            exact ih _ fun entry hmem => hu entry (List.mem_of_mem_filter hmem)
      exact hgen _ t hnumbered
  | deletePasswordHistoryEntry number =>
      cases h
      exact hsub (fun _ hmem => List.mem_of_mem_filter hmem) rfl
  | insertPasswordHistory entry =>
      rcases ok_of_bind h with ⟨u, hu, hvalue⟩
      cases hvalue
      rcases referring_ok hu with ⟨-, hrow⟩
      rw [hrow]
      intro other hmem
      -- an old entry is below the old number, the new one has the new number
      rcases List.mem_append.mp hmem with hold | hnew
      · exact Nat.le_succ_of_le (hnumbered other hold)
      · exact Nat.le_of_eq (congrArg Prod.fst (List.mem_singleton.mp hnew))
  | _ =>
      -- no other statement touches the history
      have hout := DbOp.outside_run h .passwordHistory (by simp [DbOp.writes])
      have hentries : t'.passwordHistory = t.passwordHistory := congrArg Prod.fst hout
      have hlast : t'.lastHistoryId = t.lastHistoryId := congrArg Prod.snd hout
      exact hsub (fun entry hmem => hentries ▸ hmem) hlast

/-! ## Statements that cannot be taken back -/

/-- The statements of an edit that write the history or the row. -/
def DbOp.commits : DbOp → Bool
  | deletePasswordHistoryEntry _ => true
  | insertPasswordHistory _ => true
  | updateRecord _ _ => true
  | _ => false

/-- A statement that writes to the given tables only. -/
def DbOp.Follows (written : List Table) (op : DbOp) : Prop :=
  op.writes ⊆ written

namespace Vault

/-- A program that writes some tables leaves the others alone. -/
theorem ensures_outside {α : Type} {p : VaultM α} {written : List Table} {t : Tables}
    (hp : MakesOnly (DbOp.Follows written) p) : Ensures (Outside written t) p t := by
  refine ensures_keep hp ?_ (.refl _ t)
  intro op result u u' hop hrun hu
  exact hu.trans ((DbOp.outside_run hrun).mono hop)

end Vault

/-- Statements on other tables commit nothing. -/
theorem commits_of_follows {op : DbOp} {written : List Table} (h : op.Follows written)
    (hwritten : Table.records ∉ written ∧ Table.passwordHistory ∉ written) :
    op.commits = false := by
  cases op with
  | updateRecord record version => exact absurd (h List.mem_cons_self) hwritten.1
  | deletePasswordHistoryEntry number => exact absurd (h List.mem_cons_self) hwritten.2
  | insertPasswordHistory entry => exact absurd (h List.mem_cons_self) hwritten.2
  | _ => rfl

def VaultCall.committed : (c : VaultCall) → c.Answer → Bool
  | .db op, .ok _ => op.commits
  | .db _, .error _ => false
  | .now, _ => false
  | .newUuid, _ => false
  | .newNonce, _ => false

def noteCommit (committed : Bool) (e : Event VaultI) : Bool :=
  committed || VaultCall.committed e.call e.answer

/-- A statement of the run has written the history or the row. -/
def Committed (trace : List (Event VaultI)) : Prop :=
  trace.foldl noteCommit false = true

instance (trace : List (Event VaultI)) : Decidable (Committed trace) :=
  inferInstanceAs (Decidable (trace.foldl noteCommit false = true))

namespace Vault

abbrev editEnv : Env VaultI (Tables × Bool) :=
  observing vaultEnv noteCommit

section Rules

variable {α : Type} {t : Tables} {committed : Bool}

theorem noteCommit_quiet (committed : Bool) {c : VaultCall} {x : c.Answer}
    (h : c.Within fun op => op.commits = false) : noteCommit committed ⟨c, x⟩ = committed := by
  have hquiet : VaultCall.committed c x = false := by
    cases c with
    | db op =>
        cases x with
        | ok result => exact h
        | error e => rfl
    | now => rfl
    | newUuid => rfl
    | newNonce => rfl
  unfold noteCommit
  simp [hquiet]

/-- What writes neither the history nor the row. -/
theorem wpe_uncommitted (committed : Bool) {p : VaultM α} {Q : α → Tables → Prop}
    {E : VaultError → Tables → Prop}
    (hp : MakesOnly (fun op => op.commits = false) p) (h : wpe vaultEnv Q E p t) :
    wpe editEnv (fun a s => Q a s.1 ∧ s.2 = committed) (fun e s => E e s.1 ∧ s.2 = committed) p
      (t, committed) := by
  have hquiet := wp_quiet hp (fun n c x hc => noteCommit_quiet n (x := x) hc) h
    (m := committed)
  refine wp_mono ?_ hquiet
  intro outcome s hend
  cases outcome with
  | ok a => exact hend
  | error e => exact hend

/-- A statement that writes the history or the row. -/
theorem wpe_commit {op : DbOp} {Q : op.Result → Tables × Bool → Prop}
    {E : VaultError → Tables × Bool → Prop} (hop : op.commits = true)
    (hok : ∀ result u, op.run t = .ok (result, u) → Q result (u, true))
    (hsame : ∀ expected result, op.Same expected result → result = expected)
    (herror : ∀ e, E e (t, committed)) : wpe editEnv Q E (query op) (t, committed) := by
  refine wpe_call ?_ ?_
  · rintro answer result ⟨u, noted⟩ hanswer ⟨hstep, hnote⟩
    have hvalue : answer = .ok result := hanswer
    -- the statement succeeds, so the run has committed
    rcases hstep with ⟨expected, result', hrun, hresult, heq⟩ | ⟨⟨e, heq⟩, -⟩
    · rw [heq] at hvalue
      cases hvalue
      have hnoted : noted = (committed || op.commits) := by
        rw [heq] at hnote
        exact hnote
      have htrue : noted = true := by simp [hnoted, hop]
      rw [htrue, hsame expected result hresult]
      exact hok expected u hrun
    · rw [heq] at hvalue
      cases hvalue
  · rintro answer e ⟨u, noted⟩ hanswer ⟨hstep, hnote⟩
    have hvalue : answer = .error e := hanswer
    -- the statement fails and commits nothing
    rcases hstep with ⟨expected, result', hrun, hresult, heq⟩ | ⟨⟨e', heq⟩, hu⟩
    · rw [heq] at hvalue
      cases hvalue
    · have hnoted : noted = (committed || false) := by
        rw [heq] at hnote
        exact hnote
      have hkept : noted = committed := by simp [hnoted]
      have hu : u = t := hu
      rw [hkept, hu]
      exact herror _

/-- A statement that only reads. -/
theorem wpe_read_noted {op : DbOp} {expected : op.Result} {Q : op.Result → Tables × Bool → Prop}
    {E : VaultError → Tables × Bool → Prop} (hop : op.commits = false)
    (hrun : op.run t = .ok (expected, t))
    (hok : ∀ result, op.Same expected result → Q result (t, committed))
    (herror : ∀ e, E e (t, committed)) : wpe editEnv Q E (query op) (t, committed) := by
  refine wpe_mono ?_ ?_ (wpe_uncommitted committed
    (Q := fun result w => w = t ∧ op.Same expected result) (E := fun _ w => w = t)
    (makesOnly_query hop) (wpe_query_of_run hrun (fun _ hsame => ⟨rfl, hsame⟩) fun _ => rfl))
  · rintro result ⟨w, noted⟩ ⟨⟨hw, hsame⟩, hnoted⟩
    have hstart : (w, noted) = (t, committed) := Prod.ext hw hnoted
    rw [hstart]
    exact hok result hsame
  · rintro e ⟨w, noted⟩ ⟨hw, hnoted⟩
    have hstart : (w, noted) = (t, committed) := Prod.ext hw hnoted
    rw [hstart]
    exact herror e

end Rules

/-! ## The stages of an edit -/

section Stages

variable {α : Type} {t u : Tables} {id : Uuid} {replaced : Prop}

/-- How an edit that fails leaves the record: changed exactly if it committed something. -/
def Stopped (id : Uuid) (t : Tables) (s : Tables × Bool) : Prop :=
  s.2 = true ↔ s.1.stateOf id ≠ t.stateOf id

/-- Up to the statement that writes the row: the history has its entry if the password is
replaced, and nothing else of the record is changed. -/
structure Ready (id : Uuid) (replaced : Prop) (t : Tables) (s : Tables × Bool) : Prop where
  outside : Outside [.passwordHistory, .metadata] t s.1
  unchanged : ¬ replaced → s.2 = false ∧ s.1.historyOf id = t.historyOf id
  extended : replaced → s.2 = true ∧ Extended id t s.1

theorem stopped_of_same {s : Tables × Bool} (hnote : s.2 = false)
    (h : s.1.stateOf id = t.stateOf id) : Stopped id t s := by
  constructor
  · intro htrue
    rw [hnote] at htrue
    cases htrue
  · exact fun hne => absurd h hne

theorem stopped_of_history {s : Tables × Bool} (hnote : s.2 = true)
    (h : s.1.historyOf id ≠ t.historyOf id) : Stopped id t s := by
  constructor
  · intro _ hsame
    exact h (congrArg RecordState.history hsame)
  · exact fun _ => hnote

theorem stopped_of_row {s : Tables × Bool} (hnote : s.2 = true)
    (h : s.1.records.lookup id ≠ t.records.lookup id) : Stopped id t s := by
  constructor
  · intro _ hsame
    exact h (congrArg RecordState.row hsame)
  · exact fun _ => hnote

theorem stopped_start : Stopped id t (t, false) :=
  stopped_of_same rfl rfl

/-- Beside the history, a record that is not written yet is as it was. -/
theorem stateOf_ready (hout : Outside [.passwordHistory, .metadata] t u)
    (hhistory : u.historyOf id = t.historyOf id) : u.stateOf id = t.stateOf id := by
  have hrecords : u.records = t.records := hout .records (by decide)
  have hlinks : u.recordTags = t.recordTags := hout .recordTags (by decide)
  have htags : u.tags = t.tags := congrArg Prod.fst (hout .tags (by decide))
  have hhealth : u.healthState = t.healthState := hout .healthState (by decide)
  have hsync : u.syncState = t.syncState := hout .syncState (by decide)
  unfold stateOf Tables.tagsOf
  rw [hrecords, hlinks, htags, hhistory, hhealth, hsync]

theorem Ready.stopped {s : Tables × Bool} (h : Ready id replaced t s) : Stopped id t s := by
  by_cases hreplaced : replaced
  · rcases h.extended hreplaced with ⟨hnote, hextended⟩
    exact stopped_of_history hnote hextended.ne
  · rcases h.unchanged hreplaced with ⟨hnote, hhistory⟩
    exact stopped_of_same hnote (stateOf_ready h.outside hhistory)

theorem Ready.then {noted : Bool} (h : Ready id replaced t (u, noted)) {u' : Tables}
    (hout : Outside [.metadata] u u') : Ready id replaced t (u', noted) where
  outside := h.outside.trans (hout.mono (by decide))
  unchanged := by
    intro hnot
    rcases h.unchanged hnot with ⟨hnote, hhistory⟩
    exact ⟨hnote, (hout.historyOf (by decide) id).trans hhistory⟩
  extended := by
    intro hreplaced
    rcases h.extended hreplaced with ⟨hnote, kept, entry, hsub, hall, hhistory, hnew⟩
    exact ⟨hnote, kept, entry, hsub, hall, (hout.historyOf (by decide) id).trans hhistory, hnew⟩

/-- The old password goes into the history. -/
theorem wpe_savePasswordHistory_noted (hnumbered : t.HistoryNumbered) (data : Bytes)
    (nonce : Nonce) (version : Nat) :
    wpe editEnv
      (fun _ s => s.2 = true ∧ Outside [.passwordHistory] t s.1 ∧ Extended id t s.1)
      (fun _ => Stopped id t) (savePasswordHistory id data nonce version) (t, false) := by
  -- the second half, after the oldest entry of a full history has gone
  have hinsert : ∀ (u : Tables) (noted : Bool), Outside [.passwordHistory] t u →
      (u.historyOf id).Sublist (t.historyOf id) →
      ((t.historyOf id).length < 10 → u.historyOf id = t.historyOf id) →
      u.lastHistoryId = t.lastHistoryId → Stopped id t (u, noted) →
      wpe editEnv
        (fun _ s => s.2 = true ∧ Outside [.passwordHistory] t s.1 ∧ Extended id t s.1)
        (fun _ => Stopped id t) (do
          let time ← now
          query (.insertPasswordHistory
            { recordId := id
              encryptedPassword := data
              nonce := nonce
              dekVersion := version
              changedAt := datetimeToTimestamp time })) (u, noted) := by
    intro u noted hout hsub hall hlast hstopped
    refine (wpe_bind _ _).mpr ?_
    refine wpe_mono ?_ (fun _ s hs => hs.1.elim) (wpe_uncommitted noted
      (Q := fun _ w => w = u) (E := fun _ _ => False) makesOnly_now (wpe_now fun _ => rfl))
    rintro time ⟨w, noted'⟩ ⟨hw, hnoted⟩
    have hw : w = u := hw
    have hnoted : noted' = noted := hnoted
    rw [hw, hnoted]
    refine wpe_commit rfl ?_ (fun _ _ hsame => hsame) fun _ => hstopped
    intro _ x hrun
    rcases Tables.ok_of_bind hrun with ⟨added, hadded, hvalue⟩
    have hx : x = added := (congrArg Prod.snd (Except.ok.inj hvalue)).symm
    rcases referring_ok hadded with ⟨-, hrow⟩
    rw [hx, hrow]
    exact ⟨rfl, hout.trans (outside_addHistory _),
      extended_addHistory hnumbered rfl hsub hall hlast⟩
  refine (wpe_bind _ _).mpr (wpe_read_noted rfl rfl ?_ fun _ => stopped_start)
  intro (count : Nat) (hvalue : count = (t.historyOf id).length)
  refine wpe_ite (fun hfull => ?_) fun hfew => ?_
  · have hfull : 10 ≤ (t.historyOf id).length := by
      rw [← hvalue]
      exact hfull
    have hne : t.historyOf id ≠ [] := by
      intro hnil
      rw [hnil] at hfull
      cases hfull
    refine (wpe_bind _ _).mpr ((wpe_bind _ _).mpr (wpe_read_noted rfl rfl ?_ fun _ => stopped_start))
    intro (numbers : List Nat) hsame
    rcases head_oldest hsame hne with ⟨oldest, holdest, hhead⟩
    rw [hhead]
    refine wpe_commit rfl ?_ (fun _ _ hsame => hsame) fun _ => stopped_start
    intro _ u hrun
    rcases historyOf_deletePasswordHistoryEntry id hrun with ⟨hkept, hlast⟩
    refine hinsert u true (DbOp.outside_run hrun) ?_ (fun hfew => by omega) hlast ?_
    · rw [hkept]
      exact List.filter_sublist
    -- the oldest entry is not among those that are kept
    · refine stopped_of_history rfl fun hall => ?_
      have hmem := (mem_oldestHistory.mp holdest).1
      rw [← hall, hkept] at hmem
      simp at hmem
  · exact hinsert t false (.refl _ t) (List.Sublist.refl _) (fun _ => rfl) rfl stopped_start

/-- The tags of a record are those it is given, once they are replaced. -/
theorem wpe_replaceTags_exact (hkeyed : t.Keyed) (hid : id ∈ t.records) (tags : List String) :
    wpe vaultEnv
      (fun _ u => Outside [.tags, .recordTags] t u ∧ ∀ name, name ∈ u.tagsOf id ↔ name ∈ tags)
      (fun _ u => Outside [.tags, .recordTags] t u) (replaceTags id tags) t := by
  have hstart : Outside [.tags, .recordTags] t t := .refl _ t
  refine (wpe_bind _ _).mpr (wpe_query (fun _ _ u hrun _ => ?_) fun _ => hstart)
  have hout : Outside [.tags, .recordTags] t u := (DbOp.outside_run hrun).mono (by simp [DbOp.writes])
  rcases detached hkeyed hrun with ⟨hkeyed', hrecords, hnone⟩
  refine wpe_mono ?_ (fun _ _ h => h) (wpe_forM
    (P := fun (done : List String) w => Outside [.tags, .recordTags] t w ∧ Tagged id done u w)
    ⟨hout, hkeyed', rfl, fun _ => by simp, fun _ _ => rfl⟩ ?_)
  -- every tag of the request is linked to the record
  · rintro _ w ⟨hw, htagged⟩
    refine ⟨hw, ?_⟩
    intro name
    rw [htagged.own, hnone]
    simp
  -- one name of the request: its tag is found or made, and then linked
  · rintro done name rest w - ⟨hw, htagged⟩
    have hmem : id ∈ w.records := by
      rw [htagged.records, hrecords]
      exact hid
    refine (wpe_bind _ _).mpr (wpe_query (fun (expected tag : Tag) x hrun hsame => ?_) fun _ => hw)
    have htag : tag = expected := hsame
    have hx : Outside [.tags, .recordTags] t x :=
      hw.trans ((DbOp.outside_run hrun).mono (by simp [DbOp.writes]))
    have hnamed := named_getOrCreateTag htagged.keyed hrun
    refine wpe_query (fun _ _ y hrun' _ => ?_) fun _ => hx
    have hy : Outside [.tags, .recordTags] t y :=
      hx.trans ((DbOp.outside_run hrun').mono (by simp [DbOp.writes]))
    rcases ok_of_bind hrun' with ⟨linked, hlinked, hvalue⟩
    have hlast : y = linked := (congrArg Prod.snd (Except.ok.inj hvalue)).symm
    rw [htag] at hlinked
    have hadded := tagged_attachTag hnamed.keyed (hnamed.records ▸ hmem) hnamed.lookup hlinked
    rw [← hlast] at hadded
    refine ⟨hy, hadded.keyed, hadded.records.trans (hnamed.records.trans htagged.records), ?_, ?_⟩
    · intro other
      rw [hadded.own, hnamed.tagsOf, htagged.own]
      simp
      tauto
    · intro other hne
      rw [hadded.others other hne, hnamed.tagsOf, htagged.others other hne]

/-- A part of an edit that changes nothing leaves the record stopped where it was. -/
theorem wpe_still {p : VaultM α} {noted : Bool} (hstopped : Stopped id t (u, noted))
    (honly : MakesOnly (fun op => op.commits = false) p)
    (h : wpe vaultEnv (fun _ w => w = u) (fun _ w => w = u) p u) :
    wpe editEnv (fun _ s => s = (u, noted)) (fun _ => Stopped id t) p (u, noted) := by
  refine wpe_mono ?_ ?_ (wpe_uncommitted noted honly h)
  · rintro _ s ⟨hs, hnote⟩
    exact Prod.ext hs hnote
  · rintro _ s ⟨hs, hnote⟩
    have hsame : s = (u, noted) := Prod.ext hs hnote
    rw [hsame]
    exact hstopped

/-- The index is marked as dirty, and the record is still stopped where it was. -/
theorem wpe_markDirty_noted {noted : Bool} (hstopped : Stopped id t (u, noted)) :
    wpe editEnv (fun _ s => ∃ w, s = (w, noted) ∧ Outside [.metadata] u w)
      (fun _ => Stopped id t) markRecordListIndexDirty (u, noted) := by
  refine wpe_mono ?_ ?_ (wpe_uncommitted noted
    (Q := fun _ w => Outside [.metadata] u w) (E := fun _ w => w = u) (makesOnly_query rfl)
    (wpe_query (fun _ _ w hrun _ => DbOp.outside_run hrun) fun _ => rfl))
  · rintro _ ⟨w, noted'⟩ ⟨hw, hnote⟩
    exact ⟨w, Prod.ext rfl hnote, hw⟩
  · rintro _ s ⟨hs, hnote⟩
    have hsame : s = (u, noted) := Prod.ext hs hnote
    rw [hsame]
    exact hstopped

/-- The row that is written belongs to a vault that is keyed as before. -/
theorem Ready.keyed_updateRow {noted : Bool} (h : Ready id replaced t (u, noted))
    (hkeyed : t.Keyed) (f : RecordRow → RecordRow) : (u.updateRow id f).Keyed := by
  have hout : Outside [.records] u (u.updateRow id f) := outside_updateRow u _ _
  have hlinks : (u.updateRow id f).recordTags = t.recordTags :=
    (hout .recordTags (by decide)).trans (h.outside .recordTags (by decide))
  have htags : ((u.updateRow id f).tags, (u.updateRow id f).lastTagId) = (t.tags, t.lastTagId) :=
    (hout .tags (by decide)).trans (h.outside .tags (by decide))
  refine hkeyed.of_rows hlinks htags ?_
  intro other hmem
  have hrecords : u.records = t.records := h.outside .records (by decide)
  rw [mem_updateRow, hrecords]
  exact hmem

end Stages

/-! ## The outcome of an edit -/

section Outcome

variable [Crypto] {v : VaultService} {t t' : Tables} {params : UpdateRecordParams}

/-- The record that is edited, as it is stored. -/
def storedRow (t : Tables) (id : Uuid) (row : RecordRow) : StoredRecord :=
  row.toStoredRecord id (t.tagsOf id)

/-- The edit replaces the password of a login. -/
def PasswordReplaced (v : VaultService) (t : Tables) (params : UpdateRecordParams) : Prop :=
  ∃ row old, t.records.lookup params.id = some row ∧ row.credentialType = .Login ∧
    payloadOf v (storedRow t params.id row) = .ok old ∧
      passwordChanged old params.payload = true

/-- What an edit is to leave behind. -/
structure Edited (v : VaultService) (params : UpdateRecordParams) (t t' : Tables) : Prop where
  row : ∃ old new, t.records.lookup params.id = some old ∧
    t'.records.lookup params.id = some new ∧ new.version = old.version + 1 ∧
      payloadOf v (storedRow t' params.id new) = .ok params.payload
  tags : ∀ name, name ∈ t'.tagsOf params.id ↔ name ∈ params.tags
  unreplaced : ¬ PasswordReplaced v t params → t'.historyOf params.id = t.historyOf params.id
  replaced : PasswordReplaced v t params → Extended params.id t t'

/-- An edit that succeeds is made as a whole, and one that fails is not made at all. -/
def AllOrNothing (v : VaultService) (params : UpdateRecordParams) (t t' : Tables)
    (outcome : Except VaultError Unit) : Prop :=
  match outcome with
  | .ok _ => Edited v params t t'
  | .error _ => t'.stateOf params.id = t.stateOf params.id

/-- The statements that follow the tags of an edit. -/
def afterTags (params : UpdateRecordParams) (version : Nat) (stale : Bool) : VaultM Unit := do
  upsertRecordListIndexForPayload params.id params.payload
  markRecordListIndexClean
  carryHealthState params.id version stale
  query (.insertAuditEntry .RecordUpdate (some params.id) (some params.payload.name) none)
  markRecordsPendingSync [params.id]

/-- The tables of the statements after the row and the tags. -/
def tagFollowers : List Table :=
  [.listIndex, .metadata, .healthState, .syncState]

omit [Crypto] in
theorem makesOnly_afterTags (version : Nat) (stale : Bool) :
    MakesOnly (DbOp.Follows tagFollowers) (afterTags params version stale) := by
  have hquery : ∀ {op : DbOp}, op.writes ⊆ tagFollowers →
      MakesOnly (DbOp.Follows tagFollowers) (query op) := fun h => makesOnly_query h
  refine makesOnly_bind (hquery (by simp [DbOp.writes, tagFollowers])) fun _ => ?_
  refine makesOnly_bind (hquery (by simp [DbOp.writes, tagFollowers])) fun _ => ?_
  refine makesOnly_bind ?_ fun _ => ?_
  · refine makesOnly_ite ?_ ?_
    · exact makesOnly_bind (hquery (by simp [DbOp.writes, tagFollowers])) fun _ => makesOnly_pure _
    · exact makesOnly_bind (hquery (by simp [DbOp.writes, tagFollowers])) fun _ => makesOnly_pure _
  · refine makesOnly_bind (hquery (by simp [DbOp.writes])) fun _ => ?_
    refine makesOnly_forM fun id => makesOnly_bind makesOnly_now fun _ => ?_
    exact hquery (by simp [DbOp.writes, tagFollowers])

omit [Crypto] in
theorem makesOnly_replaceTags_follows (id : Uuid) (tags : List String) :
    MakesOnly (DbOp.Follows [.tags, .recordTags]) (replaceTags id tags) := by
  refine makesOnly_bind (makesOnly_query (by simp [DbOp.Follows, DbOp.writes])) fun _ => ?_
  refine makesOnly_forM fun name => ?_
  refine makesOnly_bind (makesOnly_query (by simp [DbOp.Follows, DbOp.writes])) fun (tag : Tag) => ?_
  exact makesOnly_query (by simp [DbOp.Follows, DbOp.writes])

/-- What the statements after the row do to the tables. -/
def afterRow (params : UpdateRecordParams) (version : Nat) (stale : Bool) : VaultM Unit := do
  replaceTags params.id params.tags
  afterTags params version stale

omit [Crypto] in
theorem wpe_afterRow (hkeyed : t.Keyed) (hid : params.id ∈ t.records) (version : Nat)
    (stale : Bool) :
    wpe vaultEnv
      (fun _ u => Outside ([.tags, .recordTags] ++ tagFollowers) t u ∧
        ∀ name, name ∈ u.tagsOf params.id ↔ name ∈ params.tags)
      (fun _ u => Outside ([.tags, .recordTags] ++ tagFollowers) t u)
      (afterRow params version stale) t := by
  refine (wpe_bind _ _).mpr (wpe_mono ?_ ?_ (wpe_replaceTags_exact hkeyed hid params.tags))
  · rintro _ u ⟨hu, htags⟩
    have hu : Outside ([.tags, .recordTags] ++ tagFollowers) t u :=
      hu.mono (List.subset_append_left _ _)
    have hrest : Ensures (Outside tagFollowers u) (afterTags params version stale) u :=
      ensures_outside (makesOnly_afterTags version stale)
    refine wpe_mono ?_ ?_ hrest
    · intro _ w hw
      refine ⟨hu.trans (hw.mono (List.subset_append_right _ _)), ?_⟩
      have hsame : w.tagsOf params.id = u.tagsOf params.id :=
        hw.tagsOf (by decide) (by decide) params.id
      rw [hsame]
      exact htags
    · intro _ w hw
      exact hu.trans (hw.mono (List.subset_append_right _ _))
  · intro _ u hu
    exact hu.mono (List.subset_append_left _ _)

omit [Crypto] in
/-- Once the row is written, a failure leaves it written. -/
theorem wpe_afterRow_noted {old new : RecordRow} {u : Tables} (hkeyed : u.Keyed)
    (hold : t.records.lookup params.id = some old) (hnew : u.records.lookup params.id = some new)
    (hversion : new.version = old.version + 1) (version : Nat) (stale : Bool) :
    wpe editEnv
      (fun _ s => Outside ([.tags, .recordTags] ++ tagFollowers) u s.1 ∧
        ∀ name, name ∈ s.1.tagsOf params.id ↔ name ∈ params.tags)
      (fun _ => Stopped params.id t) (afterRow params version stale) (u, true) := by
  have hid : params.id ∈ u.records := AList.lookup_isSome.mp (by rw [hnew]; rfl)
  have hquiet : MakesOnly (fun op => op.commits = false) (afterRow params version stale) :=
    makesOnly_bind
      (makesOnly_mono (makesOnly_replaceTags_follows _ _) fun _ h =>
        commits_of_follows h (by decide)) fun _ =>
      makesOnly_mono (makesOnly_afterTags version stale) fun _ h =>
        commits_of_follows h (by decide)
  refine wpe_mono ?_ ?_ (wpe_uncommitted true hquiet
    (wpe_afterRow hkeyed hid version stale))
  · intro _ s hs
    exact hs.1
  · rintro _ s ⟨hout, hnote⟩
    refine stopped_of_row hnote ?_
    have hrecords : s.1.records = u.records := hout .records (by decide)
    rw [hrecords, hnew, hold]
    intro heq
    have hsame : new = old := Option.some.inj heq
    rw [hsame] at hversion
    omega

/-- Once the row is written and the tags are replaced, the edit is made. -/
theorem Ready.edited {noted : Bool} {w x : Tables} {old new : RecordRow}
    (h : Ready params.id replaced t (u, noted)) (hreplaced : replaced ↔ PasswordReplaced v t params)
    (hold : t.records.lookup params.id = some old) (hnew : w.records.lookup params.id = some new)
    (hversion : new.version = old.version + 1)
    (hpayload : payloadOf v (storedRow x params.id new) = .ok params.payload)
    (hw : Outside [.records] u w) (hx : Outside ([.tags, .recordTags] ++ tagFollowers) w x)
    (htags : ∀ name, name ∈ x.tagsOf params.id ↔ name ∈ params.tags) : Edited v params t x := by
  have hhistory : x.historyOf params.id = u.historyOf params.id :=
    (hx.historyOf (by decide) _).trans (hw.historyOf (by decide) _)
  refine ⟨⟨old, new, hold, ?_, hversion, hpayload⟩, htags, ?_, ?_⟩
  · have hrecords : x.records = w.records := hx .records (by decide)
    rw [hrecords]
    exact hnew
  · intro hnot
    rcases h.unchanged (fun hyes => hnot (hreplaced.mp hyes)) with ⟨-, hkept⟩
    exact hhistory.trans hkept
  · intro hpassword
    rcases h.extended (hreplaced.mpr hpassword) with ⟨-, kept, entry, hsub, hall, hentry, hfresh⟩
    exact ⟨kept, entry, hsub, hall, hhistory.trans hentry, hfresh⟩

variable [LawfulCrypto]

/-- The statement that writes the row, and those that follow it. -/
theorem wpe_writeRow (replaced : Prop) {row : RecordRow} {u : Tables} {noted stale : Bool}
    {encryptedData : Bytes} {nonce : Nonce} (time : DateTime) (hkeyed : t.Keyed)
    (hrow : t.records.lookup params.id = some row) (hversion : row.version = params.expectedVersion)
    (hencrypted : v.crypto.encryptPayload params.payload (recordAad params.id) nonce =
      .ok encryptedData)
    (hready : Ready params.id replaced t (u, noted))
    (hreplaced : replaced ↔ PasswordReplaced v t params) :
    wpe editEnv (fun _ s => Edited v params t s.1) (fun _ => Stopped params.id t)
      (do
        let updated : Bool ← query
          (.updateRecord
            (editedRecord v (storedRow t params.id row) params encryptedData nonce time)
            params.expectedVersion)
        if updated = false then
          throw (.VersionConflict params.expectedVersion row.version)
        afterRow params (row.version + 1) stale) (u, noted) := by
  have hlookup : u.records.lookup params.id = some row := by
    have hrecords : u.records = t.records := hready.outside .records (by decide)
    rw [hrecords]
    exact hrow
  refine (wpe_bind _ _).mpr (wpe_commit rfl ?_ (fun _ _ hsame => hsame) fun _ => hready.stopped)
  intro (updated : Bool) w hrun
  -- the update that ran is the one of the edit
  have hend : u.updateRecord
      (editedRecord v (storedRow t params.id row) params encryptedData nonce time)
      params.expectedVersion = (updated, w) := Except.ok.inj hrun
  rcases updateRecord_cases u
    (editedRecord v (storedRow t params.id row) params encryptedData nonce time)
    params.expectedVersion with ⟨row', -, -, hdone⟩ | ⟨hmissing, -⟩
  · have hupdated : updated = true := congrArg Prod.fst (hend.symm.trans hdone)
    have hw : w = u.updateRow params.id (updatedRow
        (editedRecord v (storedRow t params.id row) params encryptedData nonce time)) :=
      congrArg Prod.snd (hend.symm.trans hdone)
    rw [if_neg (by rw [hupdated]; exact Bool.noConfusion), hw]
    have hnew := lookup_updateRow u params.id params.id (updatedRow
      (editedRecord v (storedRow t params.id row) params encryptedData nonce time))
    rw [if_pos rfl, hlookup] at hnew
    refine wpe_mono ?_ (fun _ _ h => h)
      (wpe_afterRow_noted (hready.keyed_updateRow hkeyed _) hrow hnew rfl _ _)
    rintro _ ⟨x, noted'⟩ ⟨hx, htags⟩
    exact hready.edited hreplaced hrow hnew rfl
      (CryptoManager.decryptPayload_encryptPayload hencrypted) (outside_updateRow u _ _) hx htags
  -- the row is there with the version that was read
  · exact absurd hversion (hmissing row hlookup)

/-- The statements from the new ciphertext on. -/
theorem wpe_writeEdit (replaced : Prop) {stored : StoredRecord} {row : RecordRow} {u : Tables}
    {noted stale : Bool} (hkeyed : t.Keyed) (hrow : t.records.lookup params.id = some row)
    (hstored : stored = storedRow t params.id row)
    (hversion : stored.version = params.expectedVersion)
    (hready : Ready params.id replaced t (u, noted))
    (hreplaced : replaced ↔ PasswordReplaced v t params) :
    wpe editEnv (fun _ s => Edited v params t s.1) (fun _ => Stopped params.id t)
      (do
        let nonce ← newNonce
        let encryptedData ← crypto
          (v.crypto.encryptPayload params.payload (recordAad params.id) nonce)
        let time ← now
        markRecordListIndexDirty
        let updated : Bool ← query
          (.updateRecord (editedRecord v stored params encryptedData nonce time)
            params.expectedVersion)
        if updated = false then
          throw (.VersionConflict params.expectedVersion stored.version)
        afterRow params (stored.version + 1) stale) (u, noted) := by
  have hstopped : Stopped params.id t (u, noted) := hready.stopped
  rw [hstored] at hversion ⊢
  refine (wpe_bind _ _).mpr (wpe_mono ?_ (fun _ _ h => h)
    (wpe_still hstopped makesOnly_newNonce (wpe_newNonce fun _ => rfl)))
  rintro nonce s hs
  rw [hs]
  refine (wpe_bind _ _).mpr (wpe_crypto (fun encryptedData hencrypted => ?_) fun _ _ => hstopped)
  refine (wpe_bind _ _).mpr (wpe_mono ?_ (fun _ _ h => h)
    (wpe_still hstopped makesOnly_now (wpe_now fun _ => rfl)))
  rintro time s hs
  rw [hs]
  refine (wpe_bind _ _).mpr (wpe_mono ?_ (fun _ _ h => h) (wpe_markDirty_noted hstopped))
  rintro _ s ⟨w, hs, hw⟩
  rw [hs]
  exact wpe_writeRow replaced time hkeyed hrow hversion hencrypted (hready.then hw) hreplaced

theorem wpe_updateRecord_noted (hkeyed : t.Keyed) (hnumbered : t.HistoryNumbered) :
    wpe editEnv (fun _ s => Edited v params t s.1) (fun _ => Stopped params.id t)
      (updateRecord v params) (t, false) := by
  have hstart : Stopped params.id t (t, false) := stopped_start
  refine (wpe_bind _ _).mpr (wpe_requireUnlocked (fun _ => ?_) hstart)
  have hread : wpe editEnv
      (fun stored s => s = (t, false) ∧ ∃ row, t.records.lookup params.id = some row ∧
        stored = storedRow t params.id row)
      (fun _ s => s = (t, false)) (getStoredRecord params.id) (t, false) := by
    refine wpe_mono ?_ ?_ (wpe_uncommitted false
      (Q := fun stored w => w = t ∧ ∃ row, t.records.lookup params.id = some row ∧
        stored = storedRow t params.id row) (E := fun _ w => w = t)
      (makesOnly_bind (makesOnly_query rfl) fun found => makesOnly_required found _)
      (wpe_getStoredRecord (fun row hrow => ⟨rfl, row, hrow, rfl⟩) fun _ => rfl))
    · rintro stored s ⟨⟨hs, hrow⟩, hnote⟩
      exact ⟨Prod.ext hs hnote, hrow⟩
    · rintro _ s ⟨hs, hnote⟩
      exact Prod.ext hs hnote
  refine (wpe_bind _ _).mpr (wpe_mono ?_ (fun _ s hs => by rw [hs]; exact hstart) hread)
  rintro stored s ⟨hs, row, hrow, hstored⟩
  rw [hs]
  refine wpe_ite (fun _ => hstart) fun hsame => ?_
  have hversion : stored.version = params.expectedVersion := not_not.mp hsame
  refine (wpe_bind _ _).mpr (wpe_checked (fun _ _ => ?_) fun _ _ => hstart)
  refine (wpe_bind _ _).mpr (wpe_checked (fun _ _ => ?_) fun _ _ => hstart)
  refine (wpe_bind _ _).mpr (wpe_crypto (fun oldPayload hold => ?_) fun _ _ => hstart)
  -- whether the old password goes into the history
  have hreplaced : (stored.credentialType = .Login ∧
      passwordChanged oldPayload params.payload = true) ↔ PasswordReplaced v t params := by
    constructor
    · rintro ⟨htype, hchanged⟩
      refine ⟨row, oldPayload, hrow, ?_, ?_, hchanged⟩
      · rw [hstored] at htype
        exact htype
      · rw [hstored] at hold
        exact hold
    · rintro ⟨row', old, hrow', htype, hpayload, hchanged⟩
      have hsame : row' = row := Option.some.inj (hrow'.symm.trans hrow)
      rw [hsame] at htype hpayload
      rw [hstored] at hold ⊢
      have hvalue : old = oldPayload := Except.ok.inj (hpayload.symm.trans hold)
      rw [← hvalue]
      exact ⟨htype, hchanged⟩
  refine wpe_ite (fun hchanged => ?_) fun hkept => ?_
  · refine (wpe_bind _ _).mpr (wpe_mono ?_ (fun _ _ h => h)
      (wpe_savePasswordHistory_noted hnumbered _ _ _))
    rintro _ ⟨u, noted⟩ ⟨hnote, hout, hextended⟩
    refine wpe_writeEdit True hkeyed hrow hstored hversion ?_ ?_
    · exact ⟨hout.mono (by decide), fun hnot => absurd trivial hnot, fun _ => ⟨hnote, hextended⟩⟩
    · exact ⟨fun _ => hreplaced.mp hchanged, fun _ => trivial⟩
  · refine wpe_writeEdit False hkeyed hrow hstored hversion ?_ ?_
    · exact ⟨.refl _ t, fun _ => ⟨rfl, rfl⟩, fun hfalse => hfalse.elim⟩
    · exact ⟨fun hfalse => hfalse.elim, fun h => hkept (hreplaced.mpr h)⟩

/-- An edit is all or nothing exactly if no statement fails after one has written the history or
the row. -/
theorem updateRecord_allOrNothing_iff {trace : List (Event VaultI)}
    {outcome : Except VaultError Unit} (hkeyed : t.Keyed) (hnumbered : t.HistoryNumbered)
    (hret : (updateRecord v params).run.Returns trace outcome) (hpath : Path vaultEnv t trace t') :
    AllOrNothing v params t t' outcome ↔
      (∀ e, outcome = .error e → ¬ Committed trace) := by
  have hend := wpe_observing (wpe_updateRecord_noted hkeyed hnumbered) hret hpath
  cases outcome with
  | ok a =>
      have hedited : Edited v params t t' := hend
      exact ⟨fun _ _ heq => (nomatch heq), fun _ => hedited⟩
  | error e =>
      have hstopped : Committed trace ↔ t'.stateOf params.id ≠ t.stateOf params.id := hend
      constructor
      · intro hsame _ _ hcommitted
        exact hstopped.mp hcommitted hsame
      · intro hnone
        by_contra hne
        exact hnone e rfl (hstopped.mpr hne)

end Outcome

end Vault

/-! ## Runs -/

section Runs

variable [Codec] [Serde] [Crypto] {es : List (Step Tables VaultLabel)} {t t' : Tables}

theorem vaultStep.numbered {l : VaultLabel} (hstep : vaultStep t l t') (hkeyed : t.Keyed)
    (hnumbered : t.HistoryNumbered) : t'.Keyed ∧ t'.HistoryNumbered := by
  refine hstep.2.invariant (P := fun u => u.Keyed ∧ u.HistoryNumbered) ?_ ⟨hkeyed, hnumbered⟩
  intro u c answer u' hcall hinv
  have hwithin : c.Within fun _ => True := by
    cases c <;> trivial
  have hkeep : ∀ (op : DbOp) result x x', True → op.run x = .ok (result, x') →
      x.Keyed ∧ x.HistoryNumbered → x'.Keyed ∧ x'.HistoryNumbered := by
    intro op result x x' _ hrun hx
    exact ⟨DbOp.keyed_run hx.1 hrun, DbOp.historyNumbered_run hx.2 hrun⟩
  exact Vault.vaultEnv_keep hkeep hwithin hcall hinv

/-- Every state of a vault has its links and its history numbered. -/
theorem numbered_of_run {seed : VaultSeed} (hrun : Run vaultStep (Tables.fresh seed) es t) :
    ∀ u ∈ visited (Tables.fresh seed) es, u.Keyed ∧ u.HistoryNumbered := by
  refine hrun.invariant (C := fun _ => True) ⟨keyed_fresh seed, ?_⟩ (fun _ _ => trivial) ?_
  · intro entry hmem
    cases hmem
  · intro e hstep _ hinv
    exact hstep.numbered hinv.1 hinv.2

end Runs

/-! ## An edit that stops half way -/

namespace HalfEdited

def payload (password : String) : EncryptedPayload :=
  .Login "mail" "user" password none none

abbrev crypto : Crypto :=
  referenceCrypto [payload "old", payload "new"]

def kek : Bytes :=
  List.replicate 32 7

def service : VaultService where
  crypto := .fromUnlockedKeystore
    { kek := some kek
      currentDekVersion := 1 }
  deviceId := "device"

def recordId : Uuid :=
  Uuid.filled 1

def start : Bench where
  tables := .fresh Sample.seed
  uuids := [recordId]
  nonces := [Nonce.filled 1, Nonce.filled 2]
  fault := none

def create : VaultCommand :=
  .createRecord
    { credentialType := .Login
      payload := payload "old"
      isFavorite := false
      expiresAt := none
      tags := ["work"] }

def edit : UpdateRecordParams where
  id := recordId
  payload := payload "new"
  isFavorite := false
  expiresAt := none
  tags := ["private"]
  expectedVersion := 1

section

attribute [local instance] Sample.codec Sample.serde crypto

/-- The vault with the login. -/
def created : Bench :=
  (start.perform Sample.instant service create none).2

def after (fault : Option Nat) : Bench :=
  (created.perform Sample.instant service (.updateRecord edit) fault).2

def label (fault : Option Nat) : VaultLabel :=
  created.label Sample.instant service (.updateRecord edit) fault

theorem lawful : LawfulCrypto :=
  referenceCrypto_lawful (by decide +kernel)

theorem numbered_created : created.tables.Keyed ∧ created.tables.HistoryNumbered := by
  have hrun : Run vaultStep (Tables.fresh Sample.seed)
      [{ source := .fresh Sample.seed
         label := start.label Sample.instant service create none
         target := created.tables }] created.tables :=
    Run.cons (start.vaultStep_perform Sample.instant service create none) (Run.nil _)
  exact numbered_of_run hrun _ hrun.last_mem

/-- What an edit does that returns `outcome`. -/
theorem step_after {fault : Option Nat} {outcome : Except VaultError Unit}
    (houtcome : (created.perform Sample.instant service (.updateRecord edit) fault).1 = outcome) :
    (Vault.updateRecord service edit).run.Returns (label fault).trace outcome ∧
      Path vaultEnv created.tables (label fault).trace (after fault).tables := by
  have hstep := created.vaultStep_perform Sample.instant service (.updateRecord edit) fault
  rw [← houtcome]
  exact hstep

def diskError : VaultError :=
  .DatabaseError { message := "disk I/O error" }

/-- An edit in which nothing fails, and one in which the fifth statement does. That is the `UPDATE`
of the row; the history is written before it. -/
theorem edits :
    (created.perform Sample.instant service (.updateRecord edit) none).1 = .ok () ∧
      (created.perform Sample.instant service (.updateRecord edit) (some 4)).1 = .error diskError ∧
      (after (some 4)).tables.historyOf recordId ≠ created.tables.historyOf recordId := by
  decide +kernel

/-- An edit in which nothing fails. -/
theorem updateRecord_allOrNothing_edited :
    Vault.AllOrNothing service edit created.tables (after none).tables (.ok ()) := by
  have hlawful := lawful
  have hstep := step_after edits.1
  have hiff := Vault.updateRecord_allOrNothing_iff numbered_created.1 numbered_created.2 hstep.1
    hstep.2
  exact hiff.mpr fun e herror => (nomatch herror)

/-- Not every edit is all or nothing: here one fails and has changed the history. -/
theorem updateRecord_not_allOrNothing :
    ¬ ∀ (t t' : Tables) (trace : List (Event VaultI)) (outcome : Except VaultError Unit),
      (Vault.updateRecord service edit).run.Returns trace outcome →
        Path vaultEnv t trace t' → Vault.AllOrNothing service edit t t' outcome := by
  intro hall
  have hstep := step_after edits.2.1
  have hstate : (after (some 4)).tables.stateOf recordId = created.tables.stateOf recordId :=
    hall _ _ _ _ hstep.1 hstep.2
  exact edits.2.2 (historyOf_of_stateOf hstate)

end

end HalfEdited

end OakKeyring
