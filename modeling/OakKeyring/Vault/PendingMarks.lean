import OakKeyring.Db.Contents
import OakKeyring.Vault.Commands

/-!
# Marking changed records Pending

The mark is the last statement of an operation, outside any transaction. When nothing fails
between the change of a record and its mark, the operation leaves no record Synced whose content
it changed.
-/

namespace OakKeyring

open Effect Transition Tables

/-! ## Databases that do not fail late -/

/-- Whether an operation writes to the tables that hold contents. -/
def DbOp.writesContent (op : DbOp) : Bool :=
  op.writes.any fun table => decide (table ∈ [Table.records, .tags, .recordTags])

def VaultCall.wrote : VaultCall → Bool
  | .db op => op.writesContent
  | .now => false
  | .newUuid => false
  | .newNonce => false

def VaultCall.succeeded : (c : VaultCall) → c.Answer → Prop
  | .db _, answer => ∃ result, answer = .ok result
  | .now, _ => True
  | .newUuid, _ => True
  | .newNonce, _ => True

def VaultCall.decidableSucceeded : (c : VaultCall) → (answer : c.Answer) →
    Decidable (VaultCall.succeeded c answer)
  | .db _, .ok result => .isTrue ⟨result, rfl⟩
  | .db _, .error _ => .isFalse fun h => by rcases h with ⟨_, h⟩; cases h
  | .now, _ => .isTrue trivial
  | .newUuid, _ => .isTrue trivial
  | .newNonce, _ => .isTrue trivial

/-- Whether a failure of the call would leave a changed record without its mark: every statement
once content is written, and a read of a record where the marks depend on what was read. -/
def VaultCall.critical (reads written : Bool) : VaultCall → Bool
  | .db (.getRecord _) => reads
  | .db _ => written
  | .now => false
  | .newUuid => false
  | .newNonce => false

/-- No critical call of the trace fails. -/
def Unfailing (reads : Bool) : Bool → List (Event VaultI) → Prop
  | _, [] => True
  | written, e :: trace =>
      (VaultCall.critical reads written e.call = true → VaultCall.succeeded e.call e.answer) ∧
        Unfailing reads (written || VaultCall.wrote e.call) trace

def decidableUnfailing (reads : Bool) :
    (written : Bool) → (trace : List (Event VaultI)) → Decidable (Unfailing reads written trace)
  | _, [] => .isTrue trivial
  | written, e :: trace =>
      have := VaultCall.decidableSucceeded e.call e.answer
      have := decidableUnfailing reads (written || VaultCall.wrote e.call) trace
      inferInstanceAs (Decidable
        ((VaultCall.critical reads written e.call = true →
            VaultCall.succeeded e.call e.answer) ∧
          Unfailing reads (written || VaultCall.wrote e.call) trace))

instance (reads written : Bool) (trace : List (Event VaultI)) :
    Decidable (Unfailing reads written trace) :=
  decidableUnfailing reads written trace

/-- The vault environment with a note whether content was written; under `strict` no critical
call fails. -/
def carefulEnv (strict : Prop) (reads : Bool) : Env VaultI (Tables × Bool) :=
  fun s c answer s' => vaultEnv s.1 c answer s'.1 ∧ s'.2 = (s.2 || VaultCall.wrote c) ∧
    (strict → VaultCall.critical reads s.2 c = true → VaultCall.succeeded c answer)

theorem path_careful {strict : Prop} {reads written : Bool} {t t' : Tables}
    {trace : List (Event VaultI)} (hpath : Path vaultEnv t trace t')
    (hunfailing : strict → Unfailing reads written trace) :
    ∃ written', Path (carefulEnv strict reads) (t, written) trace (t', written') := by
  induction trace generalizing t written with
  | nil =>
      rw [path_nil] at hpath
      rw [hpath]
      exact ⟨written, rfl⟩
  | cons e trace ih =>
      rcases hpath with ⟨u, hstep, hpath⟩
      rcases ih hpath fun hstrict => (hunfailing hstrict).2 with ⟨written', hrest⟩
      refine ⟨written', (u, written || VaultCall.wrote e.call), ⟨hstep, rfl, ?_⟩, hrest⟩
      intro hstrict
      exact (hunfailing hstrict).1

namespace Vault

section Rules

variable {strict : Prop} {reads written : Bool} {t₀ t : Tables} {targets touched : Set Uuid}
  {α : Type} {Q : α → Tables × Bool → Prop}

/-- The end of an operation on `targets`: the content of the other records, and under `strict` of
all of them, is as it was, or they are not Synced. -/
def Marked (strict : Prop) (t₀ : Tables) (targets : Set Uuid) (s : Tables × Bool) : Prop :=
  Moved {id | ¬ strict ∧ id ∈ targets} t₀ s.1

theorem marked_of_untouched (h : Moved ∅ t₀ t) : Marked strict t₀ targets (t, written) :=
  h.mono (Set.empty_subset _)

/-- Where records are touched a failure is possible only when nothing is promised. -/
theorem marked_of_fault {c : VaultCall} (h : Moved touched t₀ t) (hsub : touched ⊆ targets)
    (hlate : touched = ∅ ∨ VaultCall.critical reads written c = true)
    (hfault : strict → VaultCall.critical reads written c = false) :
    Marked strict t₀ targets (t, written) := by
  rcases hlate with hnone | hcritical
  · rw [hnone] at h
    exact marked_of_untouched h
  · refine h.mono ?_
    intro id hid
    refine ⟨fun hstrict => ?_, hsub hid⟩
    have hclear := hfault hstrict
    rw [hcritical] at hclear
    cases hclear

/-- Rule for a query: what it touches is touched afterwards. -/
theorem wpe_touch {op : DbOp} {Q : op.Result → Tables × Bool → Prop} (h : Moved touched t₀ t)
    (hop : op.marksSynced = false) (hsub : touched ⊆ targets)
    (hlate : touched = ∅ ∨ VaultCall.critical reads written (.db op) = true)
    (hok : ∀ expected result u, op.run t = .ok (expected, u) → op.Same expected result →
      Moved (touched ∪ op.touches t) t₀ u → Q result (u, written || op.writesContent)) :
    wpe (carefulEnv strict reads) Q (fun _ => Marked strict t₀ targets) (query op)
      (t, written) := by
  refine wpe_call ?_ ?_
  -- the operation succeeds: its rows are those it touches
  · intro answer result s' hanswer hstep
    rcases s' with ⟨u, written'⟩
    rcases hstep with ⟨henv, hwritten, -⟩
    have hvalue : answer = .ok result := hanswer
    have hnote : written' = (written || op.writesContent) := hwritten
    rcases henv with ⟨expected, result', hrun, hsame, heq⟩ | ⟨⟨e, heq⟩, -⟩
    · rw [heq] at hvalue
      cases hvalue
      rw [hnote]
      refine hok expected result u hrun hsame ?_
      have hmoved := DbOp.moved_run h.ruled hop hrun
      exact (h.mono Set.subset_union_left).trans (hmoved.mono Set.subset_union_right)
    · rw [heq] at hvalue
      cases hvalue
  -- the operation fails, and the tables are as they were
  · intro answer e s' hanswer hstep
    rcases s' with ⟨u, written'⟩
    rcases hstep with ⟨henv, hwritten, hcareful⟩
    have hvalue : answer = .error e := hanswer
    -- a fault is only allowed where nothing has been written yet
    have hfault : strict → VaultCall.critical reads written (.db op) = false := by
      intro hstrict
      cases hcase : VaultCall.critical reads written (.db op) with
      | false => rfl
      | true =>
          rcases hcareful hstrict hcase with ⟨result, hresult⟩
          have hok : answer = .ok result := hresult
          rw [hvalue] at hok
          cases hok
    have hstill : u = t := by
      rcases henv with ⟨expected, result', -, -, heq⟩ | ⟨-, hsame⟩
      · rw [heq] at hvalue
        cases hvalue
      · exact hsame
    have hmarked : Marked strict t₀ targets (t, written) := marked_of_fault h hsub hlate hfault
    rw [hstill]
    exact hmarked

/-- The first query of an operation that touches anything. -/
theorem wpe_first {op : DbOp} {Q : op.Result → Tables × Bool → Prop} (h : Moved ∅ t₀ t)
    (hop : op.marksSynced = false)
    (hok : ∀ expected result u, op.run t = .ok (expected, u) → op.Same expected result →
      Moved (op.touches t) t₀ u → Q result (u, written || op.writesContent)) :
    wpe (carefulEnv strict reads) Q (fun _ => Marked strict t₀ targets) (query op)
      (t, written) := by
  refine wpe_touch h hop (Set.empty_subset _) (Or.inl rfl) ?_
  intro expected result u hrun hsame hu
  rw [Set.empty_union] at hu
  exact hok expected result u hrun hsame hu

theorem wpe_careful_now {Q : DateTime → Tables × Bool → Prop}
    {E : VaultError → Tables × Bool → Prop} (h : ∀ time, Q time (t, written)) :
    wpe (carefulEnv strict reads) Q E now (t, written) := by
  refine wpe_ask ?_
  rintro time ⟨u, written'⟩ ⟨henv, hwritten, -⟩
  have hstill : u = t := henv
  have hnote : written' = written := hwritten.trans (Bool.or_false written)
  rw [hstill, hnote]
  exact h time

theorem wpe_careful_newNonce {Q : Nonce → Tables × Bool → Prop}
    {E : VaultError → Tables × Bool → Prop} (h : ∀ nonce, Q nonce (t, written)) :
    wpe (carefulEnv strict reads) Q E newNonce (t, written) := by
  refine wpe_ask ?_
  rintro nonce ⟨u, written'⟩ ⟨henv, hwritten, -⟩
  have hstill : u = t := henv
  have hnote : written' = written := hwritten.trans (Bool.or_false written)
  rw [hstill, hnote]
  exact h nonce

/-- Rule for a query that touches nothing new. -/
theorem wpe_quiet {op : DbOp} {Q : op.Result → Tables × Bool → Prop} (h : Moved touched t₀ t)
    (hop : op.marksSynced = false) (htouches : op.touches t ⊆ touched) (hsub : touched ⊆ targets)
    (hlate : touched = ∅ ∨ VaultCall.critical reads written (.db op) = true)
    (hok : ∀ result u, Moved touched t₀ u → Q result (u, written || op.writesContent)) :
    wpe (carefulEnv strict reads) Q (fun _ => Marked strict t₀ targets) (query op)
      (t, written) := by
  refine wpe_touch h hop hsub hlate ?_
  intro expected result u _ _ hmoved
  refine hok result u (hmoved.mono ?_)
  exact Set.union_subset (subset_refl _) htouches

/-- A record that is marked Pending is touched no longer. -/
theorem wpe_pending {id : Uuid} {time : Int} {Q : Unit → Tables × Bool → Prop}
    (h : Moved touched t₀ t) (hsub : touched ⊆ targets) (hlate : touched = ∅ ∨ written = true)
    (hok : ∀ u, Moved (touched \ {id}) t₀ u → Q () (u, written)) :
    wpe (carefulEnv strict reads) Q (fun _ => Marked strict t₀ targets)
      (query (.upsertSyncStatePending id time)) (t, written) := by
  refine wpe_touch h rfl hsub hlate ?_
  intro expected result u hrun _ hmoved
  have hnote : (written || (DbOp.upsertSyncStatePending id time).writesContent) = written := by
    rw [show (DbOp.upsertSyncStatePending id time).writesContent = false from rfl, Bool.or_false]
  rw [hnote]
  refine hok u ?_
  rcases ok_of_bind hrun with ⟨w, hw, hvalue⟩
  cases hvalue
  have hpending := (moved_upsertSyncState h.ruled (fun _ => by simp) hw : Moved touched t u ∧ _).2
  constructor
  · exact hmoved.ruled
  · intro other hsynced
    have hkept := hmoved.kept other hsynced
    refine ⟨hkept.1, fun hout => hkept.2 ?_⟩
    intro hmem
    have htouched : other ∈ touched := by
      rcases hmem with hmem | hmem
      · exact hmem
      · exact absurd hmem (Set.notMem_empty other)
    refine hout ⟨htouched, ?_⟩
    intro heq
    rw [Set.mem_singleton_iff.mp heq] at hsynced
    exact hpending hsynced

/-- The marks at the end of an operation. -/
theorem wpe_marks {ids : List Uuid} (h : Moved touched t₀ t) (hsub : touched ⊆ targets)
    (hlate : touched = ∅ ∨ written = true) :
    wpe (carefulEnv strict reads)
      (fun _ s => Moved (touched \ {id | id ∈ ids}) t₀ s.1)
      (fun _ => Marked strict t₀ targets) (markRecordsPendingSync ids) (t, written) := by
  -- the records marked so far stay marked
  have hloop : wpe (carefulEnv strict reads)
      (fun _ s => Moved (touched \ {id | id ∈ ids}) t₀ s.1 ∧ s.2 = written)
      (fun _ => Marked strict t₀ targets) (markRecordsPendingSync ids) (t, written) := by
    refine wpe_forM (P := fun (done : List Uuid) (s : Tables × Bool) =>
      Moved (touched \ {id | id ∈ done}) t₀ s.1 ∧ s.2 = written) ?_ ?_
    · refine ⟨h.mono ?_, rfl⟩
      intro id hid
      exact ⟨hid, by simp⟩
    · rintro done id rest ⟨u, written'⟩ - ⟨hu, hnote⟩
      have hnote : written' = written := hnote
      rw [hnote]
      refine (wpe_bind _ _).mpr (wpe_careful_now fun time => ?_)
      refine wpe_pending hu (Set.sdiff_subset.trans hsub) ?_ ?_
      · rcases hlate with hnone | hwritten
        · left
          rw [hnone]
          exact Set.empty_sdiff _
        · exact Or.inr hwritten
      · intro w hw
        refine ⟨hw.mono ?_, rfl⟩
        -- what is still unmarked after this mark was so before it, and is another record
        rintro other ⟨⟨htouched, hbefore⟩, hne⟩
        refine ⟨htouched, ?_⟩
        intro hmem
        rcases List.mem_append.mp hmem with hdone | hlast
        · exact hbefore hdone
        · exact hne (List.mem_singleton.mp hlast)
  exact wpe_mono (fun _ _ hend => hend.1) (fun _ _ hend => hend) hloop

/-- An operation whose touched records are all marked at its end. -/
theorem wpe_marks_all {ids : List Uuid} (h : Moved touched t₀ t) (hsub : touched ⊆ targets)
    (hids : ∀ id ∈ touched, id ∈ ids) (hlate : touched = ∅ ∨ written = true) :
    wpe (carefulEnv strict reads) (fun _ => Marked strict t₀ targets)
      (fun _ => Marked strict t₀ targets) (markRecordsPendingSync ids) (t, written) := by
  refine wpe_mono ?_ (fun _ _ hend => hend) (wpe_marks h hsub hlate)
  rintro - ⟨u, written'⟩ hu
  refine marked_of_untouched (hu.mono ?_)
  rintro id ⟨htouched, hout⟩
  exact absurd (hids id htouched) hout

/-- Rule for reading a record. -/
theorem wpe_careful_getRecord {id : Uuid} {Q : Option StoredRecord → Tables × Bool → Prop}
    {E : VaultError → Tables × Bool → Prop} (hok : Q (t.storedRecord id) (t, written))
    (hfault : ∀ e, (strict → reads = false) → E e (t, written)) :
    wpe (carefulEnv strict reads) Q E (query (.getRecord id)) (t, written) := by
  refine wpe_call ?_ ?_
  -- the read succeeds with the row as it is
  · rintro answer result ⟨u, written'⟩ hanswer ⟨henv, hwritten, -⟩
    have hvalue : answer = .ok result := hanswer
    have hnote : written' = written := hwritten.trans (Bool.or_false written)
    rcases henv with ⟨expected, result', hrun, hsame, heq⟩ | ⟨⟨e, heq⟩, -⟩
    · rw [heq] at hvalue
      cases hvalue
      cases hrun
      have hread : result = t.storedRecord id := hsame
      rw [hread, hnote]
      exact hok
    · rw [heq] at hvalue
      cases hvalue
  -- the read faults, which a careful run rules out once it counts
  · rintro answer e ⟨u, written'⟩ hanswer ⟨henv, hwritten, hcareful⟩
    have hvalue : answer = .error e := hanswer
    have hnote : written' = written := hwritten.trans (Bool.or_false written)
    have hstill : u = t := by
      rcases henv with ⟨expected, result', -, -, heq⟩ | ⟨-, hsame⟩
      · rw [heq] at hvalue
        cases hvalue
      · exact hsame
    rw [hstill, hnote]
    refine hfault _ ?_
    intro hstrict
    cases hreads : reads with
    | false => rfl
    | true =>
        rcases hcareful hstrict hreads with ⟨result, hresult⟩
        have hok : answer = .ok result := hresult
        rw [hvalue] at hok
        cases hok

theorem wpe_careful_getStoredRecord {id : Uuid} {Q : StoredRecord → Tables × Bool → Prop}
    {E : VaultError → Tables × Bool → Prop}
    (hok : ∀ stored, t.storedRecord id = some stored → Q stored (t, written))
    (herror : ∀ e, E e (t, written)) :
    wpe (carefulEnv strict reads) Q E (getStoredRecord id) (t, written) := by
  refine (wpe_bind _ _).mpr (wpe_careful_getRecord ?_ fun e _ => herror e)
  exact wpe_required hok fun _ => herror _

end Rules

/-! ## The operations -/

section Operations

variable {strict : Prop} {reads : Bool} {t₀ : Tables} {targets : Set Uuid} {α : Type}

/-- However the operation ends, what it changed is marked. -/
def Marks (strict : Prop) (reads : Bool) (t₀ : Tables) (targets : Set Uuid) (p : VaultM α)
    (s : Tables × Bool) : Prop :=
  wpe (carefulEnv strict reads) (fun _ => Marked strict t₀ targets)
    (fun _ => Marked strict t₀ targets) p s

theorem marks_bind {β : Type} {p : VaultM α} {f : α → VaultM β} {s : Tables × Bool}
    (h : wpe (carefulEnv strict reads) (fun a u => Marks strict reads t₀ targets (f a) u)
      (fun _ => Marked strict t₀ targets) p s) :
    Marks strict reads t₀ targets (p >>= f) s :=
  (wpe_bind p f).mpr h

theorem marks_pure {a : α} {t : Tables} {written : Bool} (h : Moved ∅ t₀ t) :
    Marks strict reads t₀ targets (pure a : VaultM α) (t, written) :=
  marked_of_untouched h

theorem marks_throw {e : VaultError} {t : Tables} {written : Bool} (h : Moved ∅ t₀ t) :
    Marks strict reads t₀ targets (throw e : VaultM α) (t, written) :=
  marked_of_untouched h

theorem marks_ite {c : Prop} [Decidable c] {p q : VaultM α} {s : Tables × Bool}
    (hp : c → Marks strict reads t₀ targets p s) (hq : ¬ c → Marks strict reads t₀ targets q s) :
    Marks strict reads t₀ targets (if c then p else q) s :=
  wpe_ite hp hq

variable [Crypto] (v : VaultService)

theorem marks_toggleFavorite (hruled : t₀.Ruled) (id : Uuid) (isFavorite : Bool) :
    Marks strict reads t₀ {id} (toggleFavorite v id isFavorite) (t₀, false) := by
  have hstart : Moved ∅ t₀ t₀ := .refl hruled
  refine marks_bind (wpe_requireUnlocked (fun _ => ?_) (marked_of_untouched hstart))
  refine marks_bind (wpe_careful_getStoredRecord (fun stored _ => ?_)
    fun _ => marked_of_untouched hstart)
  refine marks_bind (wpe_first hstart rfl fun _ _ u _ _ hu => ?_)
  exact wpe_marks_all hu (subset_refl _) (by simp [DbOp.touches]) (Or.inr rfl)

theorem marks_softDeleteRecord (hruled : t₀.Ruled) (id : Uuid) :
    Marks strict reads t₀ {id} (softDeleteRecord v id) (t₀, false) := by
  have hstart : Moved ∅ t₀ t₀ := .refl hruled
  refine marks_bind (wpe_requireUnlocked (fun _ => ?_) (marked_of_untouched hstart))
  refine marks_bind (wpe_careful_getStoredRecord (fun stored _ => ?_)
    fun _ => marked_of_untouched hstart)
  refine marks_bind ((wpe_bind _ _).mpr (wpe_crypto (fun payload _ => ?_)
    fun _ _ => marked_of_untouched hstart))
  refine marks_bind (wpe_careful_now fun time => ?_)
  refine marks_bind (wpe_first hstart rfl fun _ _ u _ _ hu => ?_)
  refine marks_bind (wpe_quiet hu rfl (Set.empty_subset _) (subset_refl _) (Or.inr rfl) ?_)
  intro _ w hw
  refine marks_bind (wpe_quiet hw rfl (Set.empty_subset _) (subset_refl _) (Or.inr rfl) ?_)
  intro _ x hx
  exact wpe_marks_all hx (subset_refl _) (by simp [DbOp.touches]) (Or.inr rfl)

theorem marks_restoreRecord (hruled : t₀.Ruled) (id : Uuid) :
    Marks strict reads t₀ {id} (restoreRecord v id) (t₀, false) := by
  have hstart : Moved ∅ t₀ t₀ := .refl hruled
  refine marks_bind (wpe_requireUnlocked (fun _ => ?_) (marked_of_untouched hstart))
  refine marks_bind (wpe_careful_getStoredRecord (fun stored _ => ?_)
    fun _ => marked_of_untouched hstart)
  refine marks_bind ((wpe_bind _ _).mpr (wpe_crypto (fun payload _ => ?_)
    fun _ _ => marked_of_untouched hstart))
  refine marks_bind (wpe_first hstart rfl fun _ _ u _ _ hu => ?_)
  refine marks_bind (wpe_quiet hu rfl (Set.empty_subset _) (subset_refl _) (Or.inr rfl) ?_)
  intro _ w hw
  exact wpe_marks_all hw (subset_refl _) (by simp [DbOp.touches]) (Or.inr rfl)

/-! ### Many records -/

omit [Crypto] in
/-- The marks that are left out when no row was changed. -/
theorem marks_optional {t : Tables} {touched : Set Uuid} {ids : List Uuid} {n : Nat}
    (h : Moved touched t₀ t) (hnone : n = 0 → touched = ∅) (hsub : touched ⊆ targets)
    (hids : ∀ id ∈ touched, id ∈ ids) :
    Marks strict reads t₀ targets
      (if 0 < n then do
        markRecordsPendingSync ids
        pure n
      else pure n) (t, true) := by
  refine marks_ite (fun _ => ?_) fun hzero => ?_
  · exact marks_bind (wpe_marks_all h hsub hids (Or.inr rfl))
  · have hempty : touched = ∅ := hnone (by omega)
    rw [hempty] at h
    exact marks_pure h

omit [Crypto] in
/-- An `UPDATE` that counts no row changes none. -/
theorem updateRows_touched {t u : Tables} {ids : List Uuid} {selects : RecordRow → Bool}
    {f : RecordRow → RecordRow} {n : Nat} (h : t.updateRows ids selects f = (n, u))
    (hruled : t.Ruled) {touched : Set Uuid} (hmoved : Moved touched t u) :
    ∃ touched' ⊆ touched, Moved touched' t u ∧ (n = 0 → touched' = ∅) := by
  by_cases hzero : n = 0
  · have hcount : (ids.dedup.filter fun id => (t.records.lookup id).any selects).length = n :=
      congrArg Prod.fst h
    have hnil : (ids.dedup.filter fun id => (t.records.lookup id).any selects) = [] :=
      List.eq_nil_of_length_eq_zero (hcount.trans hzero)
    have hend : (t.updateRows ids selects f).2 = u := congrArg Prod.snd h
    have hstill : u = t := by
      rw [← hend]
      unfold Tables.updateRows
      simp only [hnil, List.foldl_nil]
    rw [hstill]
    exact ⟨∅, Set.empty_subset _, .refl hruled, fun _ => rfl⟩
  · exact ⟨touched, subset_refl _, hmoved, fun h => absurd h hzero⟩

theorem marks_batchSoftDelete (hruled : t₀.Ruled) (ids : List Uuid) :
    Marks strict false t₀ {id | id ∈ ids} (batchSoftDelete v ids) (t₀, false) := by
  have hstart : Moved ∅ t₀ t₀ := .refl hruled
  refine marks_bind (wpe_requireUnlocked (fun _ => ?_) (marked_of_untouched hstart))
  refine marks_ite (fun _ => marks_pure hstart) fun _ => ?_
  refine marks_bind (wpe_careful_now fun time => ?_)
  refine marks_bind (wpe_first hstart rfl fun (expected affected : Nat) u hrun hsame hu => ?_)
  have hresult : affected = expected := hsame
  rw [hresult]
  rcases updateRows_touched (Except.ok.inj hrun) hruled hu with ⟨touched, hsub, hmoved, hnone⟩
  -- the audit entries are written before the marks
  have hloop : wpe (carefulEnv strict false)
      (fun _ s => Moved touched t₀ s.1 ∧ s.2 = true) (fun _ => Marked strict t₀ {id | id ∈ ids})
      (ids.forM fun id => do
        let found ← Fallible.attempt (getStoredRecord id)
        query (.insertAuditEntry .RecordDelete (some id) (some (auditName v found)) none))
      (u, true) := by
    refine wpe_forM (P := fun (_ : List Uuid) (s : Tables × Bool) =>
      Moved touched t₀ s.1 ∧ s.2 = true) ⟨hmoved, rfl⟩ ?_
    rintro done id rest ⟨w, written⟩ - ⟨hw, hnote⟩
    have hnote : written = true := hnote
    rw [hnote]
    have haudit : ∀ found : Except VaultError StoredRecord,
        wpe (carefulEnv strict false)
          (fun _ s => Moved touched t₀ s.1 ∧ s.2 = true)
          (fun _ => Marked strict t₀ {id | id ∈ ids})
          (query (.insertAuditEntry .RecordDelete (some id) (some (auditName v found)) none))
          (w, true) := by
      intro found
      refine wpe_quiet hw rfl (Set.empty_subset _) hsub (Or.inr rfl) ?_
      intro _ x hx
      exact ⟨hx, rfl⟩
    refine (wpe_bind _ _).mpr (wpe_attempt ?_)
    exact wpe_careful_getStoredRecord (fun stored _ => haudit (.ok stored))
      fun e => haudit (.error e)
  refine marks_bind (wpe_mono ?_ (fun _ _ h => h) hloop)
  rintro - ⟨w, written⟩ ⟨hw, hnote⟩
  have hnote : written = true := hnote
  rw [hnote]
  exact marks_optional hw hnone hsub fun id hid => hsub hid

omit [Crypto] in
/-- The audit entries of a batch. -/
theorem wpe_auditEach {t : Tables} {touched : Set Uuid} (operation : AuditOperation)
    (names : List (Uuid × String)) (h : Moved touched t₀ t) (hsub : touched ⊆ targets) :
    wpe (carefulEnv strict reads) (fun _ s => Moved touched t₀ s.1 ∧ s.2 = true)
      (fun _ => Marked strict t₀ targets) (auditEach operation names) (t, true) := by
  refine wpe_forM (P := fun (_ : List (Uuid × String)) (s : Tables × Bool) =>
    Moved touched t₀ s.1 ∧ s.2 = true) ⟨h, rfl⟩ ?_
  rintro done entry rest ⟨w, written⟩ - ⟨hw, hnote⟩
  have hnote : written = true := hnote
  rw [hnote]
  refine wpe_quiet hw rfl (Set.empty_subset _) hsub (Or.inr rfl) ?_
  intro _ x hx
  exact ⟨hx, rfl⟩

/-- What reading a record gives when nothing fails. -/
def readOf (t : Tables) (id : Uuid) : Except VaultError StoredRecord :=
  match t.storedRecord id with
  | some stored => .ok stored
  | none => .error (.RecordNotFound id)

/-- Under `strict` every deleted record of the list is found. -/
theorem wpe_deletedWithNames (ids : List Uuid) (t : Tables) :
    wpe (carefulEnv strict true)
      (fun names s => s = (t, false) ∧
        (strict → ∀ id ∈ ids, (t.records.lookup id).any RecordRow.deleted = true →
          id ∈ names.map Prod.fst))
      (fun _ _ => False) (deletedWithNames v ids) (t, false) := by
  have hloop : wpe (carefulEnv strict true)
      (fun found s => s = (t, false) ∧ (strict → found = ids.map fun id => (id, readOf t id)))
      (fun _ _ => False)
      (ids.mapM fun id => do
        let record ← Fallible.attempt (getStoredRecord id)
        return (id, record))
      (t, false) := by
    refine wpe_mapM (P := fun (done : List Uuid) (found : List (Uuid × _)) (s : Tables × Bool) =>
      s = (t, false) ∧ (strict → found = done.map fun id => (id, readOf t id)))
      ⟨rfl, fun _ => rfl⟩ ?_
    -- the deleted rows read so far, with their names
    rintro done id rest found s - ⟨hs, hfound⟩
    rw [hs]
    refine (wpe_bind _ _).mpr (wpe_attempt ((wpe_bind _ _).mpr (wpe_careful_getRecord ?_ ?_)))
    · cases hread : t.storedRecord id with
      | none =>
          refine ⟨rfl, fun hstrict => ?_⟩
          rw [hfound hstrict, List.map_append]
          simp [readOf, hread]
      | some stored =>
          refine ⟨rfl, fun hstrict => ?_⟩
          rw [hfound hstrict, List.map_append]
          simp [readOf, hread]
    · intro e hlate
      refine ⟨rfl, fun hstrict => ?_⟩
      cases hlate hstrict
  refine (wpe_bind _ _).mpr (wpe_mono ?_ (fun _ _ h => h) hloop)
  rintro found s ⟨hs, hfound⟩
  refine ⟨hs, ?_⟩
  intro hstrict id hid hdeleted
  rw [hfound hstrict]
  -- a row that is not there cannot be deleted
  cases hlookup : t.records.lookup id with
  | none =>
      rw [hlookup] at hdeleted
      cases hdeleted
  | some row =>
      rw [hlookup] at hdeleted
      have hread : readOf t id = .ok (row.toStoredRecord id (t.tagsOf id)) := by
        unfold readOf Tables.storedRecord
        rw [hlookup]
        rfl
      have hgone : (row.toStoredRecord id (t.tagsOf id)).deleted = true := hdeleted
      refine List.mem_map.mpr ⟨(id, auditName v (readOf t id)), ?_, rfl⟩
      refine List.mem_filterMap.mpr ⟨(id, readOf t id), List.mem_map_of_mem hid, ?_⟩
      simp only [hread, hgone, if_true]

theorem marks_batchRestore (hruled : t₀.Ruled) (ids : List Uuid) :
    Marks strict true t₀ {id | id ∈ ids} (batchRestore v ids) (t₀, false) := by
  have hstart : Moved ∅ t₀ t₀ := .refl hruled
  refine marks_bind (wpe_requireUnlocked (fun _ => ?_) (marked_of_untouched hstart))
  refine marks_ite (fun _ => marks_pure hstart) fun _ => ?_
  refine marks_bind (wpe_mono ?_ (fun _ _ h => h.elim) (wpe_deletedWithNames v ids t₀))
  rintro names s ⟨hs, hfound⟩
  rw [hs]
  refine marks_bind (wpe_first hstart rfl fun (expected affected : Nat) u hrun hsame hu => ?_)
  have hresult : affected = expected := hsame
  rw [hresult]
  rcases updateRows_touched (Except.ok.inj hrun) hruled hu with ⟨touched, hsub, hmoved, hnone⟩
  have hids : touched ⊆ {id | id ∈ ids} := fun id hid => (hsub hid).1
  refine marks_bind (wpe_mono ?_ (fun _ _ h => h) (wpe_auditEach _ names hmoved hids))
  rintro - ⟨w, written⟩ ⟨hw, hnote⟩
  have hnote : written = true := hnote
  rw [hnote]
  by_cases hstrict : strict
  · refine marks_optional hw hnone hids ?_
    intro id hid
    exact hfound hstrict id (hsub hid).1 (hsub hid).2
  · have hallowed : touched ⊆ {id | ¬ strict ∧ id ∈ {id | id ∈ ids}} :=
      fun id hid => ⟨hstrict, hids hid⟩
    refine marks_ite (fun _ => ?_) fun _ => hw.mono hallowed
    refine marks_bind (wpe_mono ?_ (fun _ _ h => h) (wpe_marks hw hids (Or.inr rfl)))
    intro _ x hx
    exact hx.mono (Set.sdiff_subset.trans hallowed)

/-! ### Tags -/

omit [Crypto] in
theorem marks_renameTag (hruled : t₀.Ruled) (oldName newName : String) :
    Marks strict reads t₀ {id | id ∈ t₀.recordIdsForTag oldName} (renameTag oldName newName)
      (t₀, false) := by
  have hstart : Moved ∅ t₀ t₀ := .refl hruled
  refine marks_bind (wpe_first hstart rfl fun _ (ids : List Uuid) u hrun hsame _ => ?_)
  cases hrun
  have hids : ids.Perm (t₀.recordIdsForTag oldName) := hsame
  refine marks_bind (wpe_first hstart rfl fun _ (taken : Option Tag) w hrun _ _ => ?_)
  cases hrun
  refine marks_ite (fun _ => marks_throw hstart) fun _ => ?_
  refine marks_bind (wpe_first hstart rfl fun (expected updated : Bool) x hrun hsame hx => ?_)
  refine marks_ite (fun hfalse => ?_) fun _ => ?_
  -- there is no such tag
  · have hresult : updated = expected := hsame
    have hmissing : t₀.renameTag oldName newName = .ok (false, x) := by
      rw [← hfalse, hresult]
      exact hrun
    rw [renameTag_missing hmissing]
    exact marks_throw hstart
  · refine marks_ite (fun _ => ?_) fun hnil => ?_
    · exact wpe_marks_all hx (subset_refl _) (fun id hid => hids.mem_iff.mpr hid) (Or.inr rfl)
    · have hempty : ids = [] := not_not.mp hnil
      refine marks_pure (hx.mono ?_)
      intro id hid
      rw [hempty] at hids
      have hnone : id ∈ ([] : List Uuid) := hids.mem_iff.mpr hid
      cases hnone

omit [Crypto] in
theorem marks_deleteTag (hruled : t₀.Ruled) (name : String) :
    Marks strict reads t₀ {id | id ∈ t₀.recordIdsForTag name} (deleteTag name) (t₀, false) := by
  have hstart : Moved ∅ t₀ t₀ := .refl hruled
  refine marks_bind (wpe_first hstart rfl fun _ (ids : List Uuid) u hrun hsame _ => ?_)
  cases hrun
  have hids : ids.Perm (t₀.recordIdsForTag name) := hsame
  refine marks_bind (wpe_first hstart rfl fun (expected deleted : Bool) x hrun hsame hx => ?_)
  refine marks_ite (fun hfalse => ?_) fun _ => ?_
  -- there is no such tag
  · have hresult : deleted = expected := hsame
    have hmissing : t₀.deleteTagByName name = (false, x) := by
      rw [← hfalse, hresult]
      exact Except.ok.inj hrun
    rw [deleteTagByName_missing hmissing]
    exact marks_throw hstart
  · refine marks_ite (fun _ => ?_) fun hnil => ?_
    · exact wpe_marks_all hx (subset_refl _) (fun id hid => hids.mem_iff.mpr hid) (Or.inr rfl)
    · have hempty : ids = [] := not_not.mp hnil
      refine marks_pure (hx.mono ?_)
      intro id hid
      rw [hempty] at hids
      have hnone : id ∈ ([] : List Uuid) := hids.mem_iff.mpr hid
      cases hnone

omit [Crypto] in
/-- What is touched when a count may be zero. -/
theorem moved_counted {t u : Tables} {touched : Set Uuid} {n : Nat} (h : Moved touched t u)
    (hzero : n = 0 → Moved ∅ t u) :
    ∃ touched' ⊆ touched, Moved touched' t u ∧ (n = 0 → touched' = ∅) := by
  by_cases hn : n = 0
  · exact ⟨∅, Set.empty_subset _, hzero hn, fun _ => rfl⟩
  · exact ⟨touched, subset_refl _, h, fun h => absurd h hn⟩

omit [Crypto] in
theorem marks_batchAddTag (hruled : t₀.Ruled) (ids : List Uuid) (tagName : String) :
    Marks strict reads t₀ {id | id ∈ ids} (batchAddTag ids tagName) (t₀, false) := by
  have hstart : Moved ∅ t₀ t₀ := .refl hruled
  refine marks_bind (wpe_first hstart rfl fun (expected added : Nat) u hrun hsame hu => ?_)
  have hresult : added = expected := hsame
  rw [hresult]
  have hboth := moved_batchAddTag hruled hrun
  rcases moved_counted hboth.1 hboth.2 with ⟨touched, hsub, hmoved, hnone⟩
  exact marks_optional hmoved hnone hsub fun id hid => hsub hid

omit [Crypto] in
theorem marks_batchRemoveTag (hruled : t₀.Ruled) (ids : List Uuid) (tagName : String) :
    Marks strict reads t₀ {id | id ∈ ids} (batchRemoveTag ids tagName) (t₀, false) := by
  have hstart : Moved ∅ t₀ t₀ := .refl hruled
  refine marks_bind (wpe_first hstart rfl fun (expected found : Option Nat) u hrun hsame hu => ?_)
  have hresult : found = expected := hsame
  have hend : t₀.batchRemoveTag ids tagName = (expected, u) := Except.ok.inj hrun
  have hparts := moved_batchRemoveTag hruled ids tagName
  rw [hend] at hparts
  rw [hresult]
  refine marks_bind (wpe_required (fun removed hremoved => ?_) fun hmissing => ?_)
  · have hcounted := moved_counted hparts.1 (hparts.2.1 removed hremoved)
    rcases hcounted with ⟨touched, hsub, hmoved, hnone⟩
    exact marks_optional hmoved hnone hsub fun id hid => hsub hid
  · have hstill : u = t₀ := hparts.2.2 hmissing
    rw [hstill]
    exact marked_of_untouched hstart

/-! ### Editing -/

omit [Crypto] in
/-- Nothing is touched before the row is written. -/
theorem wpe_savePasswordHistory {t : Tables} (h : Moved ∅ t₀ t) (id : Uuid) (data : Bytes)
    (nonce : Nonce) (version : Nat) :
    wpe (carefulEnv strict reads) (fun _ s => Moved ∅ t₀ s.1 ∧ s.2 = false)
      (fun _ => Marked strict t₀ targets) (savePasswordHistory id data nonce version)
      (t, false) := by
  -- the insert touches neither a record nor its mark
  have hinsert : ∀ u, Moved ∅ t₀ u →
      wpe (carefulEnv strict reads) (fun _ s => Moved ∅ t₀ s.1 ∧ s.2 = false)
        (fun _ => Marked strict t₀ targets) (do
          let time ← now
          query (.insertPasswordHistory
            { recordId := id
              encryptedPassword := data
              nonce := nonce
              dekVersion := version
              changedAt := datetimeToTimestamp time })) (u, false) := by
    intro u hu
    refine (wpe_bind _ _).mpr (wpe_careful_now fun time => ?_)
    refine wpe_quiet hu rfl (subset_refl _) (Set.empty_subset _) (Or.inl rfl) ?_
    intro _ w hw
    exact ⟨hw, rfl⟩
  refine (wpe_bind _ _).mpr
    (wpe_quiet h rfl (subset_refl _) (Set.empty_subset _) (Or.inl rfl) fun (count : Nat) u hu => ?_)
  refine wpe_ite (fun _ => ?_) fun _ => hinsert u hu
  refine (wpe_bind _ _).mpr ((wpe_bind _ _).mpr (wpe_quiet hu rfl (subset_refl _)
    (Set.empty_subset _) (Or.inl rfl) fun (oldest : List Nat) w hw => ?_))
  cases oldest.head? with
  | none => exact hinsert w hw
  | some number =>
      refine wpe_quiet hw rfl (subset_refl _) (Set.empty_subset _) (Or.inl rfl) fun _ x hx => ?_
      exact hinsert x hx

omit [Crypto] in
/-- The tags of a record that is touched already. -/
theorem wpe_replaceTags {t : Tables} {id : Uuid} (h : Moved {id} t₀ t) (tags : List String) :
    wpe (carefulEnv strict reads) (fun _ s => Moved {id} t₀ s.1 ∧ s.2 = true)
      (fun _ => Marked strict t₀ {id}) (replaceTags id tags) (t, true) := by
  refine (wpe_bind _ _).mpr
    (wpe_quiet h rfl (subset_refl _) (subset_refl _) (Or.inr rfl) fun _ u hu => ?_)
  refine wpe_forM (P := fun (_ : List String) (s : Tables × Bool) =>
    Moved {id} t₀ s.1 ∧ s.2 = true) ⟨hu, rfl⟩ ?_
  rintro done name rest ⟨w, written⟩ - ⟨hw, hnote⟩
  have hnote : written = true := hnote
  rw [hnote]
  refine (wpe_bind _ _).mpr
    (wpe_quiet hw rfl (Set.empty_subset _) (subset_refl _) (Or.inr rfl) fun (tag : Tag) x hx => ?_)
  refine wpe_quiet hx rfl (subset_refl _) (subset_refl _) (Or.inr rfl) ?_
  intro _ y hy
  exact ⟨hy, rfl⟩

omit [Crypto] in
theorem wpe_carryHealthState {t : Tables} {id : Uuid} (h : Moved {id} t₀ t) (version : Nat)
    (stale : Bool) :
    wpe (carefulEnv strict reads) (fun _ s => Moved {id} t₀ s.1 ∧ s.2 = true)
      (fun _ => Marked strict t₀ {id}) (carryHealthState id version stale) (t, true) := by
  refine wpe_ite (fun _ => ?_) fun _ => ?_
  · refine (wpe_bind _ _).mpr
      (wpe_quiet h rfl (Set.empty_subset _) (subset_refl _) (Or.inr rfl) fun _ u hu => ?_)
    exact ⟨hu, rfl⟩
  · refine (wpe_bind _ _).mpr
      (wpe_quiet h rfl (Set.empty_subset _) (subset_refl _) (Or.inr rfl) fun _ u hu => ?_)
    exact ⟨hu, rfl⟩

omit [Crypto] in
/-- An optimistic update that misses leaves the tables alone. -/
theorem updateRecord_missed {t u : Tables} {record : StoredRecord} {version : Nat}
    (h : t.updateRecord record version = (false, u)) : u = t := by
  rcases updateRecord_cases t record version with ⟨row, -, -, hdone⟩ | ⟨-, hmissed⟩
  · rw [h] at hdone
    cases congrArg Prod.fst hdone
  · exact congrArg Prod.snd (h.symm.trans hmissed)

omit [Crypto] in
/-- The history entry that is made when the password changed. -/
theorem marks_history {t : Tables} {c : Prop} [Decidable c] {rest : VaultM α} (h : Moved ∅ t₀ t)
    (id : Uuid) (data : Bytes) (nonce : Nonce) (version : Nat)
    (hrest : ∀ u, Moved ∅ t₀ u → Marks strict reads t₀ targets rest (u, false)) :
    Marks strict reads t₀ targets
      (if c then do
        savePasswordHistory id data nonce version
        rest
      else rest) (t, false) := by
  refine marks_ite (fun _ => ?_) fun _ => hrest t h
  refine marks_bind (wpe_mono ?_ (fun _ _ h => h) (wpe_savePasswordHistory h id data nonce version))
  rintro - ⟨u, written⟩ ⟨hu, hnote⟩
  have hnote : written = false := hnote
  rw [hnote]
  exact hrest u hu

omit [Crypto] in
theorem storedRecord_id {t : Tables} {id : Uuid} {stored : StoredRecord}
    (h : t.storedRecord id = some stored) : stored.id = id := by
  rcases Option.map_eq_some_iff.mp h with ⟨row, -, hvalue⟩
  rw [← hvalue]
  rfl

theorem marks_updateRecord (hruled : t₀.Ruled) (params : UpdateRecordParams) :
    Marks strict reads t₀ {params.id} (updateRecord v params) (t₀, false) := by
  have hstart : Moved ∅ t₀ t₀ := .refl hruled
  refine marks_bind (wpe_requireUnlocked (fun _ => ?_) (marked_of_untouched hstart))
  refine marks_bind (wpe_careful_getStoredRecord (fun stored hstored => ?_)
    fun _ => marked_of_untouched hstart)
  refine marks_ite (fun _ => marks_throw hstart) fun _ => ?_
  refine marks_bind (wpe_checked (fun _ _ => ?_) fun _ _ => marked_of_untouched hstart)
  refine marks_bind (wpe_checked (fun _ _ => ?_) fun _ _ => marked_of_untouched hstart)
  refine marks_bind (wpe_crypto (fun oldPayload _ => ?_) fun _ _ => marked_of_untouched hstart)
  refine marks_history hstart _ _ _ _ fun u hu => ?_
  refine marks_bind (wpe_careful_newNonce fun nonce => ?_)
  refine marks_bind (wpe_crypto (fun encryptedData _ => ?_) fun _ _ => marked_of_untouched hu)
  refine marks_bind (wpe_careful_now fun time => ?_)
  refine marks_bind
    (wpe_quiet hu rfl (Set.empty_subset _) (Set.empty_subset _) (Or.inl rfl) fun _ w hw => ?_)
  refine marks_bind (wpe_first hw rfl fun (expected updated : Bool) x hrun hsame hx => ?_)
  refine marks_ite (fun hfalse => ?_) fun _ => ?_
  -- the row had another version: nothing was written
  · have hresult : updated = expected := hsame
    have hmissed : w.updateRecord (editedRecord v stored params encryptedData nonce time)
        params.expectedVersion = (false, x) := by
      rw [← hfalse, hresult]
      exact Except.ok.inj hrun
    rw [updateRecord_missed hmissed]
    exact marks_throw hw
  -- the row is written, and the mark follows
  · have hx : Moved {params.id} t₀ x := by
      rw [← storedRecord_id hstored]
      exact hx
    refine marks_bind (wpe_mono ?_ (fun _ _ h => h) (wpe_replaceTags hx params.tags))
    rintro - ⟨y, written⟩ ⟨hy, hnote⟩
    have hnote : written = true := hnote
    rw [hnote]
    refine marks_bind
      (wpe_quiet hy rfl (Set.empty_subset _) (subset_refl _) (Or.inr rfl) fun _ z hz => ?_)
    refine marks_bind
      (wpe_quiet hz rfl (Set.empty_subset _) (subset_refl _) (Or.inr rfl) fun _ z hz => ?_)
    refine marks_bind (wpe_mono ?_ (fun _ _ h => h) (wpe_carryHealthState hz _ _))
    rintro - ⟨z', written⟩ ⟨hz', hnote⟩
    have hnote : written = true := hnote
    rw [hnote]
    refine marks_bind
      (wpe_quiet hz' rfl (Set.empty_subset _) (subset_refl _) (Or.inr rfl) fun _ x' hx' => ?_)
    exact wpe_marks_all hx' (subset_refl _) (by simp) (Or.inr rfl)

end Operations

end Vault

end OakKeyring
