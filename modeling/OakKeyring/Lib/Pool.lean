import OakKeyring.Lib.Wp
import OakKeyring.Lib.Transition
import Mathlib.Logic.Function.Basic

/-!
# Parties that share an environment

Any number of parties take turns. A turn is a program, and between any two of its calls other
parties may act. A call can spoil a property of the shared state that the rest of the turn
restores, so the property is wanted only while no party is in a turn. The rule at the end says
when it holds there: what spoils it was begun by a party whose own remaining program repairs
it, and until it is repaired the others leave the shared state alone.
-/

namespace Effect

open Transition

/-- The parties of a pool: when a turn may begin, what it does, and the note a party keeps of the calls of its
turn. Notes are there for reasoning only, no program sees them. -/
structure Machine (I : Interface) where
  State : Type
  Input : Type
  Out : Type
  Note : Type
  enabled : State → Input → Prop
  turn : State → Input → Prog I (State × Out)
  start : Note
  note : Note → Event I → Note

namespace Machine

variable {I : Interface} {α β S D : Type} (M : Machine I)

inductive Party
  | idle (t : M.State)
  | busy (n : M.Note) (p : Prog I (M.State × M.Out))

inductive Label (D : Type)
  | begin (d : D) (i : M.Input)
  | op (d : D) (e : Event I)
  | finish (d : D) (o : M.Out)

/-- The shared state, the parties, and the party that spoiled the shared state, if it is
spoiled. -/
structure Pool (S D : Type) where
  shared : S
  party : D → M.Party
  spoiler : Option D

variable {M}

def Pool.Quiet (σ : M.Pool S D) : Prop :=
  ∀ d, ∃ t, σ.party d = .idle t

/-- One step of one party. -/
inductive Pool.step [DecidableEq D] (env : Env I S) (Good : S → Prop) :
    M.Pool S D → M.Label D → M.Pool S D → Prop
  | begin (σ : M.Pool S D) (d : D) (i : M.Input) (t : M.State) (h : σ.party d = .idle t)
      (henabled : M.enabled t i) :
      step env Good σ (.begin d i)
        { σ with party := Function.update σ.party d (.busy M.start (M.turn t i)) }
  | op (σ : M.Pool S D) (d : D) (n : M.Note) (c : I.Call) (x : I.Answer c)
      (k : I.Answer c → Prog I (M.State × M.Out)) (s' : S) (spoiler : Option D)
      (h : σ.party d = .busy n (.call c k)) (hstep : env σ.shared c x s')
      (hgood : Good s' → spoiler = none)
      (hspoilt : ¬ Good s' → spoiler = some (σ.spoiler.getD d)) :
      step env Good σ (.op d ⟨c, x⟩)
        { shared := s'
          party := Function.update σ.party d (.busy (M.note n ⟨c, x⟩) (k x))
          spoiler := spoiler }
  | finish (σ : M.Pool S D) (d : D) (n : M.Note) (t : M.State) (o : M.Out)
      (h : σ.party d = .busy n (.ret (t, o))) :
      step env Good σ (.finish d o)
        { σ with party := Function.update σ.party d (.idle t) }

/-! ## A turn without interruption -/

section Alone

variable [DecidableEq D] {env : Env I S} {Good : S → Prop}

/-- A busy party that nobody interrupts finishes its turn. -/
theorem run_rest {d : D} {n : M.Note} {p : Prog I (M.State × M.Out)} {tr : List (Event I)}
    {t : M.State} {o : M.Out} {s : S} (hret : p.Returns tr (t, o)) :
    ∀ σ : M.Pool S D, σ.party d = .busy n p → Path env σ.shared tr s →
      ∃ es σ', Run (Pool.step env Good) σ es σ' ∧ σ'.shared = s ∧
        σ'.party = Function.update σ.party d (.idle t) ∧
        ∀ e ∈ es, ∀ d' i, e.label ≠ .begin d' i := by
  induction p generalizing n tr with
  | ret a =>
      intro σ hbusy hpath
      rcases hret with ⟨rfl, rfl⟩
      have hs : s = σ.shared := hpath
      refine ⟨_, _, Run.cons (.finish σ d n t o hbusy) (Run.nil _), hs.symm, rfl, ?_⟩
      intro e he d' i hbegin
      rw [List.mem_singleton.mp he] at hbegin
      cases hbegin
  | call c k ih =>
      intro σ hbusy hpath
      rcases hret with ⟨x, tr', rfl, hret⟩
      rcases hpath with ⟨u, hstep, hpath⟩
      -- the step names a spoiler exactly when the operation is not good
      have hspoiler : ∃ spoiler : Option D, (Good u → spoiler = none) ∧
          (¬ Good u → spoiler = some (σ.spoiler.getD d)) := by
        by_cases hgood : Good u
        · exact ⟨none, fun _ => rfl, fun h => absurd hgood h⟩
        · exact ⟨_, fun h => absurd h hgood, fun _ => rfl⟩
      rcases hspoiler with ⟨spoiler, hgood, hspoilt⟩
      rcases ih x hret
        { shared := u
          party := Function.update σ.party d (.busy (M.note n ⟨c, x⟩) (k x))
          spoiler := spoiler } (Function.update_self ..) hpath with
        ⟨es, σ', hrun, hshared, hparty, hlabels⟩
      refine ⟨_, σ', Run.cons (.op σ d n c x k u spoiler hbusy hstep hgood hspoilt) hrun, hshared,
        ?_, ?_⟩
      · rw [hparty]
        exact Function.update_idem _ _ _
      · intro e he d' i hbegin
        rcases List.mem_cons.mp he with rfl | he
        · cases hbegin
        · exact hlabels e he d' i hbegin

/-- A turn that nobody interrupts is a run of the pool. -/
theorem run_turn {σ : M.Pool S D} {d : D} {t t' : M.State} {i : M.Input} {o : M.Out}
    {tr : List (Event I)} {s : S} (hidle : σ.party d = .idle t) (henabled : M.enabled t i)
    (hret : (M.turn t i).Returns tr (t', o)) (hpath : Path env σ.shared tr s) :
    ∃ es σ', Run (Pool.step env Good) σ es σ' ∧ σ'.shared = s ∧
      σ'.party = Function.update σ.party d (.idle t') ∧
      ∀ e ∈ es, ∀ d' i', e.label = .begin d' i' → i' = i := by
  rcases run_rest hret
    { σ with party := Function.update σ.party d (.busy M.start (M.turn t i)) }
    (Function.update_self ..) hpath with ⟨es, σ', hrun, hshared, hparty, hlabels⟩
  refine ⟨_, σ', Run.cons (.begin σ d i t hidle henabled) hrun, hshared, ?_, ?_⟩
  · rw [hparty]
    exact Function.update_idem _ _ _
  · intro e he d' i' hbegin
    rcases List.mem_cons.mp he with rfl | he
    · cases hbegin
      rfl
    · exact absurd hbegin (hlabels e he d' i')

end Alone

/-! ## Programs that mend what they spoil -/

section Guarded

variable (M)

/-- An environment that may look at the note of the party, and the party's note with it. -/
def noted (calm : M.Note → Env I S) : Env I (M.Note × S) :=
  fun q c x q' => q'.1 = M.note q.1 ⟨c, x⟩ ∧ calm q.1 q.2 c x q'.2

/-- The program ends in a good state, provided its calls are calm. -/
def Mends (calm : M.Note → Env I S) (Good : S → Prop) (n : M.Note) (p : Prog I α) (s : S) : Prop :=
  wp (M.noted calm) (fun _ q => Good q.2) p (n, s)

variable (env : Env I S) (calm : M.Note → Env I S) (Good : S → Prop)
  (Allowed : M.Note → S → I.Call → Prop)

/-- At every call that is allowed in a good state, the state stays good or the rest of the
program mends it. -/
def Guarded : M.Note → Prog I α → Prop
  | _, .ret _ => True
  | n, .call c k =>
      (∀ s x s', Good s → Allowed n s c → env s c x s' →
        Good s' ∨ M.Mends calm Good (M.note n ⟨c, x⟩) (k x) s') ∧
      ∀ x, Guarded (M.note n ⟨c, x⟩) (k x)

/-- Calls that keep a good state good and leave the note alone. -/
def Neutral (n : M.Note) (c : I.Call) : Prop :=
  (∀ x, M.note n ⟨c, x⟩ = n) ∧ ∀ s x s', Good s → env s c x s' → Good s'

variable {M env calm Good Allowed}

/-- A program without calls mends nothing and spoils nothing. -/
theorem guarded_of_no_calls {n : M.Note} {p : Prog I α} (hp : p.CallsOnly fun _ => False) :
    M.Guarded env calm Good Allowed n p := by
  cases p with
  | ret a => trivial
  | call c k => exact hp.1.elim

theorem mends_bind_of_no_calls {n : M.Note} {p : Prog I α} {f : α → Prog I β} {s : S}
    (hp : M.Mends calm Good n p s) (hf : ∀ a, (f a).CallsOnly fun _ => False) :
    M.Mends calm Good n (p >>= f) s := by
  unfold Mends
  rw [wp_bind]
  refine wp_mono ?_ hp
  intro a q hgood
  exact wp_of_callsOnly (hf a) (fun _ _ _ h => h.elim) fun _ _ _ => hgood

/-- What follows a program without making calls does not matter. -/
theorem guarded_bind_of_no_calls {n : M.Note} {p : Prog I α} {f : α → Prog I β}
    (hp : M.Guarded env calm Good Allowed n p) (hf : ∀ a, (f a).CallsOnly fun _ => False) :
    M.Guarded env calm Good Allowed n (p >>= f) := by
  induction p generalizing n with
  | ret a => exact guarded_of_no_calls (hf a)
  | call c k ih =>
      refine ⟨?_, fun x => ih x (hp.2 x)⟩
      intro s x s' hs hallowed hstep
      rcases hp.1 s x s' hs hallowed hstep with hgood | hmends
      · exact Or.inl hgood
      · exact Or.inr (mends_bind_of_no_calls hmends hf)

/-- Neutral calls before a program do not change what it has to mend. -/
theorem guarded_bind {n : M.Note} {p : Prog I α} {f : α → Prog I β}
    (hp : p.CallsOnly (M.Neutral env Good n))
    (hf : ∀ t a, p.Returns t a → M.Guarded env calm Good Allowed n (f a)) :
    M.Guarded env calm Good Allowed n (p >>= f) := by
  induction p with
  | ret a => exact hf [] a ⟨rfl, rfl⟩
  | call c k ih =>
      refine ⟨fun s x s' hs _ hstep => Or.inl (hp.1.2 s x s' hs hstep), ?_⟩
      intro x
      have htail := ih x (hp.2 x) fun t a hret => hf (⟨c, x⟩ :: t) a ⟨x, t, rfl, hret⟩
      rw [hp.1.1 x]
      exact htail

end Guarded

/-! ## The rule -/

section Window

variable [DecidableEq D] {env : Env I S} {calm : M.Note → Env I S} {Good : S → Prop}
  {Allowed : M.Note → S → I.Call → Prop} {Harmless : S → I.Call → Prop}
  {Undisturbed : S → S → Prop} {Idle : M.State → Prop} {Fit : M.Input → Prop}

/-- The step is taken with care: turns have fit inputs; in a good state a call that changes
the state is harmless or allowed; in a spoilt one its spoiler makes calm calls and the others
do not disturb it. -/
def Careful (calm : M.Note → Env I S) (Allowed : M.Note → S → I.Call → Prop)
    (Harmless : S → I.Call → Prop) (Undisturbed : S → S → Prop) (Fit : M.Input → Prop)
    (e : Step (M.Pool S D) (M.Label D)) : Prop :=
  match e.label with
  | .begin _ i => Fit i
  | .op d ev =>
      match e.source.spoiler with
      | none =>
          e.target.shared = e.source.shared ∨ Harmless e.source.shared ev.call ∨
            ∃ n p, e.source.party d = .busy n p ∧ Allowed n e.source.shared ev.call
      | some d' =>
          if d = d' then
            ∃ n p, e.source.party d = .busy n p ∧
              calm n e.source.shared ev.call ev.answer e.target.shared
          else Undisturbed e.source.shared e.target.shared
  | .finish _ _ => True

/-- What holds of each party at any time. -/
def PartyOk (env : Env I S) (calm : M.Note → Env I S) (Good : S → Prop)
    (Allowed : M.Note → S → I.Call → Prop) (Idle : M.State → Prop) : M.Party → Prop
  | .idle t => Idle t
  | .busy n p => M.Guarded env calm Good Allowed n p ∧ ∀ tr a, p.Returns tr a → Idle a.1

/-- The shared state is good, or it has a spoiler whose remaining program mends it. -/
def Mendable (calm : M.Note → Env I S) (Good : S → Prop) (σ : M.Pool S D) : Prop :=
  match σ.spoiler with
  | none => Good σ.shared
  | some d => ¬ Good σ.shared ∧
      ∃ n p, σ.party d = .busy n p ∧ M.Mends calm Good n p σ.shared

def PoolOk (env : Env I S) (calm : M.Note → Env I S) (Good : S → Prop)
    (Allowed : M.Note → S → I.Call → Prop) (Idle : M.State → Prop) (σ : M.Pool S D) : Prop :=
  (∀ d, PartyOk env calm Good Allowed Idle (σ.party d)) ∧ Mendable calm Good σ

theorem partyOk_update {σ : M.Pool S D} {d : D} {q : M.Party}
    (hσ : ∀ d, PartyOk env calm Good Allowed Idle (σ.party d))
    (hq : PartyOk env calm Good Allowed Idle q) :
    ∀ d', PartyOk env calm Good Allowed Idle (Function.update σ.party d q d') := by
  intro d'
  by_cases hd : d' = d
  · rw [hd, Function.update_self]
    exact hq
  · rw [Function.update_of_ne hd]
    exact hσ d'

/-- A spoiler that still has something to do can be left undisturbed. -/
theorem mends_of_undisturbed {n : M.Note} {p : Prog I α} {s u : S}
    (habsorb : ∀ n s u c x s', Undisturbed s u → calm n u c x s' → calm n s c x s')
    (hmends : M.Mends calm Good n p s) (hbad : ¬ Good s) (hu : Undisturbed s u) :
    M.Mends calm Good n p u := by
  cases p with
  | ret a => exact absurd hmends hbad
  | call c k =>
      intro x q' hstep
      exact hmends x q' ⟨hstep.1, habsorb _ _ _ _ _ _ hu hstep.2⟩

/-- A careful step keeps the pool as it should be. -/
theorem poolOk_step
    (hturn : ∀ t i, M.enabled t i → Idle t → Fit i →
      M.Guarded env calm Good Allowed M.start (M.turn t i) ∧
        ∀ tr a, (M.turn t i).Returns tr a → Idle a.1)
    (hharmless : ∀ s c x s', Good s → Harmless s c → env s c x s' → Good s')
    (habsorb : ∀ n s u c x s', Undisturbed s u → calm n u c x s' → calm n s c x s')
    (e : Step (M.Pool S D) (M.Label D)) (hstep : Pool.step env Good e.source e.label e.target)
    (hcare : Careful calm Allowed Harmless Undisturbed Fit e)
    (hok : PoolOk env calm Good Allowed Idle e.source) :
    PoolOk env calm Good Allowed Idle e.target := by
  rcases e with ⟨σ, label, σ'⟩
  rcases hok with ⟨hparties, hmend⟩
  unfold Mendable at hmend
  replace hstep : Pool.step env Good σ label σ' := hstep
  cases hstep with
  | begin d i t h henabled =>
      have hidle : Idle t := by
        have hparty := hparties d
        simpa only [h, PartyOk] using hparty
      refine ⟨partyOk_update hparties (hturn t i henabled hidle hcare), ?_⟩
      unfold Mendable
      cases hspoiler : σ.spoiler with
      | none => simpa only [hspoiler] using hmend
      | some d' =>
          simp only [hspoiler] at hmend ⊢
          rcases hmend with ⟨hbad, n, p, hbusy, hmends⟩
          have hne : d' ≠ d := by
            intro heq
            rw [heq, h] at hbusy
            cases hbusy
          exact ⟨hbad, n, p, by rw [Function.update_of_ne hne]; exact hbusy, hmends⟩
  | op d n c x k s' spoiler h hstep hgood hspoilt =>
      have hparty := hparties d
      simp only [h, PartyOk] at hparty
      have hreturns : ∀ tr a, (k x).Returns tr a → Idle a.1 := by
        intro tr a hret
        exact hparty.2 (⟨c, x⟩ :: tr) a ⟨x, tr, rfl, hret⟩
      refine ⟨partyOk_update hparties ⟨hparty.1.2 x, hreturns⟩, ?_⟩
      unfold Mendable
      by_cases hs' : Good s'
      · rw [hgood hs']
        exact hs'
      · rw [hspoilt hs']
        simp only [Careful] at hcare
        refine ⟨hs', ?_⟩
        cases hspoiler : σ.spoiler with
        | none =>
            -- the call that spoils: the rest of this very program mends
            simp only [hspoiler] at hmend hcare
            refine ⟨M.note n ⟨c, x⟩, k x, by simp, ?_⟩
            rcases hcare with hsame | hharm | ⟨n', p', hbusy, hallowed⟩
            · exact absurd (hsame ▸ hmend) hs'
            · exact absurd (hharmless _ c x s' hmend hharm hstep) hs'
            · rw [h] at hbusy
              cases hbusy
              exact (hparty.1.1 _ x s' hmend hallowed hstep).resolve_left hs'
        | some d' =>
            simp only [hspoiler] at hmend hcare
            rcases hmend with ⟨hbad, n', p', hbusy, hmends⟩
            by_cases hd : d = d'
            · rw [if_pos hd] at hcare
              subst hd
              rw [h] at hbusy
              cases hbusy
              rcases hcare with ⟨n'', p'', hbusy', hcalm⟩
              rw [h] at hbusy'
              cases hbusy'
              exact ⟨M.note n ⟨c, x⟩, k x, by simp, hmends x (_, s') ⟨rfl, hcalm⟩⟩
            · rw [if_neg hd] at hcare
              have hne : d' ≠ d := fun heq => hd heq.symm
              refine ⟨n', p', ?_, mends_of_undisturbed habsorb hmends hbad hcare⟩
              simp only [Option.getD_some]
              rw [Function.update_of_ne hne]
              exact hbusy
  | finish d n t o h =>
      have hparty := hparties d
      simp only [h, PartyOk] at hparty
      have hidle : Idle t := hparty.2 [] (t, o) ⟨rfl, rfl⟩
      refine ⟨partyOk_update hparties hidle, ?_⟩
      unfold Mendable
      cases hspoiler : σ.spoiler with
      | none => simpa only [hspoiler] using hmend
      | some d' =>
          simp only [hspoiler] at hmend ⊢
          rcases hmend with ⟨hbad, n', p', hbusy, hmends⟩
          have hne : d' ≠ d := by
            intro heq
            rw [heq, h] at hbusy
            cases hbusy
            exact hbad hmends
          exact ⟨hbad, n', p', by rw [Function.update_of_ne hne]; exact hbusy, hmends⟩

/-- In a run of careful steps the shared state is good whenever no party is in a turn. -/
theorem good_of_quiet
    (hturn : ∀ t i, M.enabled t i → Idle t → Fit i →
      M.Guarded env calm Good Allowed M.start (M.turn t i) ∧
        ∀ tr a, (M.turn t i).Returns tr a → Idle a.1)
    (hharmless : ∀ s c x s', Good s → Harmless s c → env s c x s' → Good s')
    (habsorb : ∀ n s u c x s', Undisturbed s u → calm n u c x s' → calm n s c x s')
    {σ₀ σ : M.Pool S D} {es : List (Step (M.Pool S D) (M.Label D))}
    (hrun : Run (Pool.step env Good) σ₀ es σ)
    (hinit : PoolOk env calm Good Allowed Idle σ₀)
    (hcare : ∀ e ∈ es, Careful calm Allowed Harmless Undisturbed Fit e) :
    ∀ u ∈ visited σ₀ es, u.Quiet → Good u.shared := by
  have hall := hrun.invariant hinit hcare (poolOk_step hturn hharmless habsorb)
  intro u hu hquiet
  have hmend := (hall u hu).2
  unfold Mendable at hmend
  cases hspoiler : u.spoiler with
  | none => simpa only [hspoiler] using hmend
  | some d =>
      simp only [hspoiler] at hmend
      rcases hmend with ⟨-, n, p, hbusy, -⟩
      rcases hquiet d with ⟨t, ht⟩
      rw [ht] at hbusy
      cases hbusy

end Window

end Machine

end Effect
