import Mathlib.Data.List.Basic
import Mathlib.Data.List.Induction

/-!
# Runs of a labelled transition system

A run is the list of its steps, each with the state before and the state after, so that a
condition on the steps of a run can speak about the states they are taken in.
-/

namespace Transition

variable {S L : Type}

/-- A step with its label and its two states. -/
structure Step (S L : Type) where
  source : S
  label : L
  target : S

/-- `Run step s es s'`: the steps `es` lead from `s` to `s'`. -/
inductive Run (step : S → L → S → Prop) : S → List (Step S L) → S → Prop
  | nil (s : S) : Run step s [] s
  | cons {s u s' : S} {l : L} {es : List (Step S L)} (hstep : step s l u)
      (hrun : Run step u es s') : Run step s ({ source := s, label := l, target := u } :: es) s'

/-- The states of a run, from its first to its last. -/
def visited (s : S) (es : List (Step S L)) : List S :=
  s :: es.map Step.target

@[simp] theorem mem_visited {s u : S} {es : List (Step S L)} :
    u ∈ visited s es ↔ u = s ∨ ∃ e ∈ es, e.target = u := by
  simp [visited]

variable {step : S → L → S → Prop} {s s' u : S} {es es' : List (Step S L)}

theorem Run.last_mem (hrun : Run step s es s') : s' ∈ visited s es := by
  induction hrun with
  | nil s => simp
  | cons hstep hrun ih =>
      rw [mem_visited] at ih
      rw [mem_visited]
      rcases ih with rfl | ⟨e, he, rfl⟩
      · exact Or.inr ⟨_, List.mem_cons_self, rfl⟩
      · exact Or.inr ⟨e, List.mem_cons_of_mem _ he, rfl⟩

theorem Run.of_step {e : Step S L} (hstep : step e.source e.label e.target)
    (hrun : Run step e.target es s') : Run step e.source (e :: es) s' :=
  Run.cons hstep hrun

theorem Run.append (h₁ : Run step s es u) (h₂ : Run step u es' s') :
    Run step s (es ++ es') s' := by
  induction h₁ with
  | nil s => exact h₂
  | cons hstep hrun ih => exact Run.cons hstep (ih h₂)

/-- Every step of a run is a step of the system. -/
theorem Run.step_of_mem (hrun : Run step s es s') {e : Step S L} (he : e ∈ es) :
    step e.source e.label e.target := by
  induction hrun with
  | nil s => cases he
  | cons hstep hrun ih =>
      rcases List.mem_cons.mp he with rfl | he
      · exact hstep
      · exact ih he

/-- An invariant kept by the steps that meet a condition holds in every state of a run whose
steps all meet it. -/
theorem Run.invariant {Inv : S → Prop} {C : Step S L → Prop} (hrun : Run step s es s')
    (hinit : Inv s) (hC : ∀ e ∈ es, C e)
    (hstep : ∀ e : Step S L, step e.source e.label e.target → C e → Inv e.source →
      Inv e.target) :
    ∀ u ∈ visited s es, Inv u := by
  induction hrun with
  | nil s => simpa [visited] using hinit
  | cons h hrun ih =>
      have hnext := hstep _ h (hC _ List.mem_cons_self) hinit
      have htail := ih hnext fun e he => hC e (List.mem_cons_of_mem _ he)
      intro v hv
      rw [visited, List.mem_cons] at hv
      rcases hv with rfl | hv
      · exact hinit
      · exact htail v hv

/-- An invariant holds before each step of such a run, too. -/
theorem Run.invariant_source {Inv : S → Prop} {C : Step S L → Prop} (hrun : Run step s es s')
    (hinit : Inv s) (hC : ∀ e ∈ es, C e)
    (hstep : ∀ e : Step S L, step e.source e.label e.target → C e → Inv e.source →
      Inv e.target) :
    ∀ e ∈ es, Inv e.source := by
  induction hrun with
  | nil s => simp
  | cons h hrun ih =>
      have hnext := hstep _ h (hC _ List.mem_cons_self) hinit
      have htail := ih hnext fun e he => hC e (List.mem_cons_of_mem _ he)
      intro e he
      rcases List.mem_cons.mp he with rfl | he
      · exact hinit
      · exact htail e he

/-- When a good step keeps the invariant, the invariant makes a state good, and a bad step
ends in a state that is not good, the states of a run are good exactly when its steps are. -/
theorem Run.forall_visited_iff {Inv Good : S → Prop} {C : Step S L → Prop}
    (hrun : Run step s es s') (hinit : Inv s)
    (hgood : ∀ u, Inv u → Good u)
    (hstep : ∀ e : Step S L, step e.source e.label e.target → C e → Inv e.source →
      Inv e.target)
    (hbad : ∀ e : Step S L, step e.source e.label e.target → Inv e.source → ¬ C e →
      ¬ Good e.target) :
    (∀ u ∈ visited s es, Good u) ↔ ∀ e ∈ es, C e := by
  constructor
  · intro hall
    induction hrun with
    | nil s => simp
    | @cons s u s' l es h hrun ih =>
        have hC : C { source := s, label := l, target := u } := by
          by_contra hC
          exact hbad _ h hinit hC (hall _ (by simp))
        have hnext := hstep _ h hC hinit
        have htail := ih hnext fun v hv => hall v (by
          rw [visited, List.mem_cons]
          exact Or.inr hv)
        intro e he
        rcases List.mem_cons.mp he with rfl | he
        · exact hC
        · exact htail e he
  · intro hC u hu
    exact hgood u (hrun.invariant hinit hC hstep u hu)

/-- A run whose steps all meet a condition is a run of the steps that meet it. -/
theorem Run.restrict {C : Step S L → Prop} (hrun : Run step s es s') (hC : ∀ e ∈ es, C e) :
    Run (fun u l u' => step u l u' ∧ C { source := u, label := l, target := u' }) s es s' := by
  induction hrun with
  | nil s => exact Run.nil s
  | cons h hrun ih =>
      have hfirst := hC _ List.mem_cons_self
      exact Run.cons ⟨h, hfirst⟩ (ih fun e he => hC e (List.mem_cons_of_mem _ he))

/-- A run of some of the steps of a system is a run of the system. -/
theorem Run.mono {step' : S → L → S → Prop} (hrun : Run step s es s')
    (hstep : ∀ u l u', step u l u' → step' u l u') : Run step' s es s' := by
  induction hrun with
  | nil s => exact Run.nil s
  | cons h hrun ih => exact Run.cons (hstep _ _ _ h) ih

/-- History rule: a property of a state and of the steps that led to it, kept by appending a
step, holds at the end of every run. -/
theorem Run.history {P : List (Step S L) → S → Prop} (hrun : Run step s es s')
    (hinit : P [] s)
    (hstep : ∀ (done : List (Step S L)) (e : Step S L), step e.source e.label e.target →
      P done e.source → P (done ++ [e]) e.target) :
    P es s' := by
  suffices hgen : ∀ (u v : S) (rest : List (Step S L)), Run step u rest v →
      ∀ done, P done u → P (done ++ rest) v by
    exact hgen s s' es hrun [] hinit
  intro u v rest hrest
  induction hrest with
  | nil u =>
      intro done hP
      simpa using hP
  | @cons u w v l rest h hrest ih =>
      intro done hP
      have hnext := hstep done { source := u, label := l, target := w } h hP
      have hlast := ih _ hnext
      simpa using hlast

/-- What is left of a run after its first part. -/
theorem Run.rest {done rest : List (Step S L)} (hdone : Run step s done u)
    (hrun : Run step s (done ++ rest) s') : Run step u rest s' := by
  induction hdone with
  | nil s => exact hrun
  | cons h hdone ih =>
      cases hrun with
      | cons h' hrun => exact ih hrun

/-- A run is cut at any of its steps. -/
theorem Run.of_append {done rest : List (Step S L)} {e : Step S L}
    (hrun : Run step s (done ++ e :: rest) s') :
    Run step s done e.source ∧ step e.source e.label e.target := by
  induction done generalizing s with
  | nil =>
      cases hrun with
      | cons h hrun => exact ⟨Run.nil _, h⟩
  | cons d done ih =>
      cases hrun with
      | cons h hrun =>
          have hcut := ih hrun
          exact ⟨Run.cons h hcut.1, hcut.2⟩

/-- A property of a state and of the steps that led to it holds after every part of a run
exactly when all its steps meet a condition, if such a step keeps the property and any other
step breaks it. -/
theorem Run.history_iff {P : List (Step S L) → S → Prop} {Inv : S → Prop}
    {C : Step S L → Prop} (hrun : Run step s es s') (hinv : Inv s) (hinit : P [] s)
    (hkeep : ∀ e : Step S L, step e.source e.label e.target → Inv e.source → Inv e.target)
    (hgood : ∀ (done : List (Step S L)) (e : Step S L), step e.source e.label e.target →
      Inv e.source → P done e.source → C e → P (done ++ [e]) e.target)
    (hbad : ∀ (done : List (Step S L)) (e : Step S L), step e.source e.label e.target →
      Inv e.source → P done e.source → ¬ C e → ¬ P (done ++ [e]) e.target) :
    (∀ done rest u, es = done ++ rest → Run step s done u → P done u) ↔ ∀ e ∈ es, C e := by
  have hinvs : ∀ (done : List (Step S L)) (u : S), Run step s done u → Inv u := by
    intro done u hdone
    exact hdone.history (P := fun _ u => Inv u) hinv fun _ e hstep h => hkeep e hstep h
  constructor
  · intro hall e he
    rcases List.append_of_mem he with ⟨done, rest, hes⟩
    rw [hes] at hrun
    have hcut := hrun.of_append
    have hbefore := hall done (e :: rest) e.source hes hcut.1
    have hafter := hall (done ++ [e]) rest e.target (by simp [hes])
      (hcut.1.append (Run.of_step hcut.2 (Run.nil _)))
    by_contra hC
    exact hbad done e hcut.2 (hinvs done _ hcut.1) hbefore hC hafter
  · intro hC done rest u hes hdone
    have hgoods : ∀ e ∈ done, C e := fun e he => hC e (hes ▸ List.mem_append_left rest he)
    refine (hdone.restrict hgoods).history (P := fun done u => Inv u ∧ P done u)
      ⟨hinv, hinit⟩ ?_ |>.2
    intro done e hstep hP
    exact ⟨hkeep e hstep.1 hP.1, hgood done e hstep.1 hP.1 hP.2 hstep.2⟩

/-- A property holds after every part of a run exactly when all its steps meet a condition, if it
follows from a stronger one that such a step keeps, and that any other step leaves it broken. -/
theorem Run.history_iff_of_strong {P Strong : List (Step S L) → S → Prop} {C : Step S L → Prop}
    (hrun : Run step s es s') (hinit : Strong [] s) (hP : ∀ done u, Strong done u → P done u)
    (hgood : ∀ (done : List (Step S L)) (e : Step S L), step e.source e.label e.target →
      Strong done e.source → C e → Strong (done ++ [e]) e.target)
    (hbad : ∀ (done : List (Step S L)) (e : Step S L), step e.source e.label e.target →
      Strong done e.source → ¬ C e → ¬ P (done ++ [e]) e.target) :
    (∀ done rest u, es = done ++ rest → Run step s done u → P done u) ↔ ∀ e ∈ es, C e := by
  -- the conditions on the run so far give the stronger invariant
  have hstrong : ∀ (done : List (Step S L)) (u : S), Run step s done u → (∀ e ∈ done, C e) →
      Strong done u := by
    intro done u hdone hC
    exact (hdone.restrict hC).history (P := Strong) hinit
      fun done e hstep h => hgood done e hstep.1 h hstep.2
  constructor
  · intro hall
    have hparts : ∀ done rest, es = done ++ rest → ∀ e ∈ done, C e := by
      intro done
      induction done using List.reverseRecOn with
      | nil => simp
      | append_singleton done e ih =>
          intro rest hes d hd
          rw [List.append_assoc] at hes
          have hbefore := ih _ hes
          rcases List.mem_append.mp hd with hd | hd
          · exact hbefore d hd
          · rw [List.mem_singleton.mp hd]
            -- a step without the condition would break the property right after it
            rw [hes] at hrun
            have hcut := hrun.of_append
            have hafter := hall (done ++ [e]) rest e.target (by rw [hes, List.append_assoc])
              (hcut.1.append (Run.of_step hcut.2 (Run.nil _)))
            by_contra hC
            exact hbad done e hcut.2 (hstrong done _ hcut.1 hbefore) hC hafter
    exact hparts es [] (List.append_nil es).symm
  · intro hC done rest u hes hdone
    exact hP done u (hstrong done u hdone fun e he => hC e (hes ▸ List.mem_append_left rest he))

end Transition
