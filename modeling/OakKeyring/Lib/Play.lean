import OakKeyring.Lib.Pool

/-!
# Playing a schedule

A schedule says which party moves next. Against a handler it determines a run of the pool, and
the steps of that run can be computed.
-/

namespace Effect

namespace Machine

open Transition

variable {I : Interface} {S D : Type} {M : Machine I}

/-- A party begins a turn, or makes the next move of the turn it is in. -/
inductive Move (M : Machine I) (D : Type)
  | begin (d : D) (i : M.Input)
  | next (d : D)

variable [DecidableEq D] [∀ t i, Decidable (M.enabled t i)] (h : Handler I S) (Good : S → Prop)
  [DecidablePred Good]

/-- The step of a move, if the move is possible. -/
def Pool.move (σ : M.Pool S D) : M.Move D → Option (Step (M.Pool S D) (M.Label D))
  | .begin d i =>
      match σ.party d with
      | .idle t =>
          if M.enabled t i then
            some
              { source := σ
                label := .begin d i
                target :=
                  { σ with party := Function.update σ.party d (.busy M.start (M.turn t i)) } }
          else none
      | .busy _ _ => none
  | .next d =>
      match σ.party d with
      | .idle _ => none
      | .busy n (.call c k) =>
          some
            { source := σ
              label := .op d ⟨c, (h σ.shared c).1⟩
              target :=
                { shared := (h σ.shared c).2
                  party := Function.update σ.party d
                    (.busy (M.note n ⟨c, (h σ.shared c).1⟩) (k (h σ.shared c).1))
                  spoiler := if Good (h σ.shared c).2 then none else some (σ.spoiler.getD d) } }
      | .busy _ (.ret (t, o)) =>
          some
            { source := σ
              label := .finish d o
              target := { σ with party := Function.update σ.party d (.idle t) } }

/-- The steps of a schedule; a move that is not possible is skipped. -/
def Pool.play : M.Pool S D → List (M.Move D) → List (Step (M.Pool S D) (M.Label D))
  | _, [] => []
  | σ, m :: ms =>
      match σ.move h Good m with
      | some e => e :: play e.target ms
      | none => play σ ms

/-- Where a schedule ends. -/
def Pool.playEnd : M.Pool S D → List (M.Move D) → M.Pool S D
  | σ, [] => σ
  | σ, m :: ms =>
      match σ.move h Good m with
      | some e => playEnd e.target ms
      | none => playEnd σ ms

variable {h Good} {env : Env I S}

theorem Pool.step_of_move {σ : M.Pool S D} {m : M.Move D}
    {e : Step (M.Pool S D) (M.Label D)}
    (henv : ∀ s c, env s c (h s c).1 (h s c).2) (hmove : σ.move h Good m = some e) :
    e.source = σ ∧ Pool.step env Good e.source e.label e.target := by
  cases m with
  | begin d i =>
      cases hparty : σ.party d with
      | idle t =>
          by_cases henabled : M.enabled t i
          · simp only [Pool.move, hparty, if_pos henabled] at hmove
            cases hmove
            exact ⟨rfl, .begin σ d i t hparty henabled⟩
          · simp only [Pool.move, hparty, if_neg henabled] at hmove
            cases hmove
      | busy n p =>
          simp only [Pool.move, hparty] at hmove
          cases hmove
  | next d =>
      cases hparty : σ.party d with
      | idle t =>
          simp only [Pool.move, hparty] at hmove
          cases hmove
      | busy n p =>
          cases p with
          -- the turn is over, and its reply is due
          | ret a =>
              rcases a with ⟨t, o⟩
              simp only [Pool.move, hparty] at hmove
              cases hmove
              exact ⟨rfl, .finish σ d n t o hparty⟩
          | call c k =>
              -- the environment answers, and says whether the operation was good
              simp only [Pool.move, hparty] at hmove
              cases hmove
              refine ⟨rfl, .op σ d n c _ k _ _ hparty (henv σ.shared c) ?_ ?_⟩
              · intro hgood
                exact if_pos hgood
              · intro hspoilt
                exact if_neg hspoilt

/-- A schedule is a run. -/
theorem Pool.run_play (henv : ∀ s c, env s c (h s c).1 (h s c).2) (ms : List (M.Move D)) :
    ∀ σ : M.Pool S D, Run (Pool.step env Good) σ (σ.play h Good ms) (σ.playEnd h Good ms) := by
  induction ms with
  | nil => exact Run.nil
  | cons m ms ih =>
      intro σ
      cases hmove : σ.move h Good m with
      | none =>
          simp only [Pool.play, Pool.playEnd, hmove]
          exact ih σ
      | some e =>
          have hstep := Pool.step_of_move henv hmove
          simp only [Pool.play, Pool.playEnd, hmove]
          have hrun := Run.of_step hstep.2 (ih e.target)
          rw [hstep.1] at hrun
          exact hrun

end Machine

end Effect
