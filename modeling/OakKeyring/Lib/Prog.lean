import Mathlib.Data.List.Basic

/-!
# Programs over an interface of calls

A program is a tree: it returns, or it makes one call and continues with the answer.
Nothing is said here about what the calls do. `Returns` is the program's own view (which
traces of calls and answers it can take), `Path` is the environment's view (how a trace
moves the state), and `wp` is the weakest precondition that combines the two.
-/

namespace Effect

/-- An interface fixes the calls a program may make and the type of each answer. -/
structure Interface where
  Call : Type
  Answer : Call → Type

variable {I : Interface} {α β γ σ S : Type}

/-- One call together with the answer it got. -/
structure Event (I : Interface) where
  call : I.Call
  answer : I.Answer call

/-- Programs that make calls of `I` and return an `α`. -/
inductive Prog (I : Interface) (α : Type) : Type
  | ret (a : α)
  | call (c : I.Call) (k : I.Answer c → Prog I α)

namespace Prog

/-- Sequential composition. -/
def bind : Prog I α → (α → Prog I β) → Prog I β
  | ret a, f => f a
  | call c k, f => call c (fun x => (k x).bind f)

instance : Monad (Prog I) where
  pure := ret
  bind := bind

/-- The program that makes one call and returns its answer. -/
def perform (c : I.Call) : Prog I (I.Answer c) :=
  call c ret

@[simp] theorem pure_eq (a : α) : (pure a : Prog I α) = ret a := rfl

@[simp] theorem ret_bind (a : α) (f : α → Prog I β) : (ret a >>= f) = f a := rfl

@[simp] theorem call_bind (c : I.Call) (k : I.Answer c → Prog I α) (f : α → Prog I β) :
    (call c k >>= f) = call c (fun x => k x >>= f) := rfl

@[simp] theorem perform_bind (c : I.Call) (f : I.Answer c → Prog I β) :
    (perform c >>= f) = call c f := rfl

theorem bind_ret (p : Prog I α) : (p >>= ret) = p := by
  induction p with
  | ret a => rfl
  | call c k ih =>
      simp only [call_bind]
      congr
      funext x
      exact ih x

theorem bind_assoc (p : Prog I α) (f : α → Prog I β) (g : β → Prog I γ) :
    (p >>= f >>= g) = (p >>= fun a => f a >>= g) := by
  induction p with
  | ret a => rfl
  | call c k ih =>
      simp only [call_bind]
      congr
      funext x
      exact ih x

instance : LawfulMonad (Prog I) :=
  LawfulMonad.mk' (Prog I) bind_ret (fun _ _ => rfl) bind_assoc

/-! ## Traces of a program -/

/-- `Returns p t a`: on the calls and answers of `t`, the program `p` returns `a`. -/
def Returns : Prog I α → List (Event I) → α → Prop
  | ret a, t, b => t = [] ∧ b = a
  | call c k, t, b => ∃ x t', t = ⟨c, x⟩ :: t' ∧ (k x).Returns t' b

@[simp] theorem returns_ret (a b : α) (t : List (Event I)) :
    (ret a : Prog I α).Returns t b ↔ t = [] ∧ b = a := Iff.rfl

@[simp] theorem returns_call (c : I.Call) (k : I.Answer c → Prog I α)
    (t : List (Event I)) (b : α) :
    (call c k).Returns t b ↔ ∃ x t', t = ⟨c, x⟩ :: t' ∧ (k x).Returns t' b := Iff.rfl

theorem returns_perform (c : I.Call) (t : List (Event I)) (x : I.Answer c) :
    (perform c).Returns t x ↔ t = [⟨c, x⟩] := by
  constructor
  · rintro ⟨y, t', rfl, rfl, rfl⟩
    rfl
  · rintro rfl
    exact ⟨x, [], rfl, rfl, rfl⟩

/-- A run of a composition is a run of the first program followed by one of the second. -/
theorem returns_bind (p : Prog I α) (f : α → Prog I β) (t : List (Event I)) (b : β) :
    (p >>= f).Returns t b ↔
      ∃ t₁ t₂ a, t = t₁ ++ t₂ ∧ p.Returns t₁ a ∧ (f a).Returns t₂ b := by
  induction p generalizing t with
  | ret a =>
      constructor
      · intro h
        exact ⟨[], t, a, rfl, ⟨rfl, rfl⟩, h⟩
      · rintro ⟨t₁, t₂, a', rfl, ⟨rfl, rfl⟩, h⟩
        exact h
  | call c k ih =>
      constructor
      · rintro ⟨x, t', rfl, h⟩
        rcases (ih x t').mp h with ⟨t₁, t₂, a, rfl, h₁, h₂⟩
        exact ⟨⟨c, x⟩ :: t₁, t₂, a, rfl, ⟨x, t₁, rfl, h₁⟩, h₂⟩
      · rintro ⟨_, t₂, a, rfl, ⟨x, t₁, rfl, h₁⟩, h₂⟩
        exact ⟨x, t₁ ++ t₂, rfl, (ih x _).mpr ⟨t₁, t₂, a, rfl, h₁, h₂⟩⟩

/-- Two runs of one program on beginnings of the same answers are the same run. -/
theorem Returns.unique {p : Prog I α} {t t' rest rest' : List (Event I)} {a b : α}
    (ha : p.Returns t a) (hb : p.Returns t' b) (heq : t ++ rest = t' ++ rest') :
    t = t' ∧ a = b := by
  induction p generalizing t t' with
  | ret c =>
      rw [ha.1, hb.1, ha.2, hb.2]
      exact ⟨rfl, rfl⟩
  | call c k ih =>
      rcases ha with ⟨x, u, rfl, ha⟩
      rcases hb with ⟨y, u', rfl, hb⟩
      -- the first answers agree, so both runs go on with the same program
      rw [List.cons_append, List.cons_append] at heq
      injection heq with hevent hrest
      cases hevent
      rcases ih x ha hb hrest with ⟨rfl, rfl⟩
      exact ⟨rfl, rfl⟩

theorem Returns.value_eq {p : Prog I α} {t : List (Event I)} {a b : α}
    (ha : p.Returns t a) (hb : p.Returns t b) : a = b := by
  have heq : t ++ [] = t ++ [] := rfl
  exact (ha.unique hb heq).2

/-- Invariant rule for a loop: what every pass extends, the whole loop establishes. -/
theorem returns_foldlM {f : σ → β → Prog I σ} {P : List β → List (Event I) → σ → Prop}
    {xs : List β} {s s' : σ} {t : List (Event I)}
    (hrun : (xs.foldlM f s).Returns t s')
    (hinit : P [] [] s)
    (hstep : ∀ done x rest t₁ t₂ s₁ s₂, xs = done ++ x :: rest → P done t₁ s₁ →
      (f s₁ x).Returns t₂ s₂ → P (done ++ [x]) (t₁ ++ t₂) s₂) :
    P xs t s' := by
  suffices hgen : ∀ (rest done : List β) (t₁ t₂ : List (Event I)) (s₁ : σ),
      xs = done ++ rest → P done t₁ s₁ → (rest.foldlM f s₁).Returns t₂ s' →
      P xs (t₁ ++ t₂) s' by
    exact hgen xs [] [] t s rfl hinit hrun
  intro rest
  induction rest with
  | nil =>
      rintro done t₁ t₂ s₁ rfl hP ⟨rfl, rfl⟩
      simpa using hP
  | cons x rest ih =>
      intro done t₁ t₂ s₁ hxs hP h
      rw [List.foldlM_cons, returns_bind] at h
      rcases h with ⟨u₁, u₂, s₂, rfl, h₁, h₂⟩
      have hnext := hstep done x rest t₁ u₁ s₁ s₂ hxs hP h₁
      have := ih (done ++ [x]) (t₁ ++ u₁) u₂ s₂ (by simpa using hxs) hnext h₂
      simpa using this

/-! ## Which calls a program can make -/

/-- Whatever the answers are, every call of the program is one that `P` allows. -/
def CallsOnly (P : I.Call → Prop) : Prog I α → Prop
  | ret _ => True
  | call c k => P c ∧ ∀ x, (k x).CallsOnly P

theorem CallsOnly.bind {P : I.Call → Prop} {p : Prog I α} {f : α → Prog I β}
    (hp : p.CallsOnly P) (hf : ∀ a, (f a).CallsOnly P) : (p >>= f).CallsOnly P := by
  induction p with
  | ret a => exact hf a
  | call c k ih => exact ⟨hp.1, fun x => ih x (hp.2 x)⟩

theorem CallsOnly.mono {P Q : I.Call → Prop} {p : Prog I α} (hp : p.CallsOnly P)
    (hsub : ∀ c, P c → Q c) : p.CallsOnly Q := by
  induction p with
  | ret a => trivial
  | call c k ih => exact ⟨hsub c hp.1, fun x => ih x (hp.2 x)⟩

theorem callsOnly_true (p : Prog I α) : p.CallsOnly fun _ => True := by
  induction p with
  | ret a => trivial
  | call c k ih => exact ⟨trivial, ih⟩

theorem CallsOnly.ite {P : I.Call → Prop} {c : Prop} [Decidable c] {p q : Prog I α}
    (hp : p.CallsOnly P) (hq : q.CallsOnly P) : (if c then p else q).CallsOnly P := by
  by_cases h : c
  · rw [if_pos h]
    exact hp
  · rw [if_neg h]
    exact hq

/-- The calls of a run are among those of the program. -/
theorem CallsOnly.of_returns {P : I.Call → Prop} {p : Prog I α} {t : List (Event I)} {a : α}
    (hp : p.CallsOnly P) (hret : p.Returns t a) : ∀ e ∈ t, P e.call := by
  induction p generalizing t with
  | ret b =>
      rw [hret.1]
      intro e he
      cases he
  | call c k ih =>
      rcases hret with ⟨x, rest, ht, hrest⟩
      rw [ht]
      intro e he
      rcases List.mem_cons.mp he with hfirst | hlater
      · rw [hfirst]
        exact hp.1
      · exact ih x (hp.2 x) hrest e hlater

theorem CallsOnly.foldlM {P : I.Call → Prop} {f : σ → β → Prog I σ}
    (hf : ∀ s x, (f s x).CallsOnly P) (xs : List β) (s : σ) : (xs.foldlM f s).CallsOnly P := by
  induction xs generalizing s with
  | nil => trivial
  | cons x xs ih =>
      rw [List.foldlM_cons]
      exact (hf s x).bind fun s' => ih s'

theorem CallsOnly.mapM {P : I.Call → Prop} {f : β → Prog I γ}
    (hf : ∀ x, (f x).CallsOnly P) (xs : List β) : (xs.mapM f).CallsOnly P := by
  induction xs with
  | nil => trivial
  | cons x xs ih =>
      rw [List.mapM_cons]
      refine (hf x).bind fun y => ih.bind fun ys => ?_
      trivial

/-! ## Loops that make one call for each element -/

section Sweep

variable {A : Type} {p : β → Prog I A} {e : β → A → Event I}

/-- A loop over one-call programs runs on any choice of answers, and its state is the fold of
the elements with their answers. -/
theorem returns_sweep (hp : ∀ x t a, (p x).Returns t a ↔ t = [e x a])
    (g : σ → β → A → σ) (xs : List β) (s s' : σ) (t : List (Event I)) :
    (xs.foldlM (fun s x => p x >>= fun a => ret (g s x a)) s).Returns t s' ↔
      ∃ as : List (β × A), as.map Prod.fst = xs ∧ t = as.map (fun a => e a.1 a.2) ∧
        s' = as.foldl (fun s a => g s a.1 a.2) s := by
  induction xs generalizing s t with
  | nil =>
      constructor
      · rintro ⟨rfl, rfl⟩
        exact ⟨[], rfl, rfl, rfl⟩
      · rintro ⟨as, has, rfl, rfl⟩
        rw [List.map_eq_nil_iff] at has
        subst has
        exact ⟨rfl, rfl⟩
  | cons x xs ih =>
      simp only [List.foldlM_cons, returns_bind, hp, returns_ret, ih]
      constructor
      · rintro ⟨t₁, t₂, s₁, rfl, ⟨t₃, t₄, a, rfl, rfl, rfl, rfl⟩, as, rfl, rfl, rfl⟩
        exact ⟨(x, a) :: as, rfl, rfl, rfl⟩
      · rintro ⟨as, has, rfl, rfl⟩
        rcases as with _ | ⟨⟨y, a⟩, as⟩
        · cases has
        · cases has
          exact ⟨[e y a], as.map (fun a => e a.1 a.2), g s y a, rfl,
            ⟨[e y a], [], a, rfl, rfl, rfl, rfl⟩, as, rfl, rfl, rfl⟩

/-- The same for a loop that collects a result for each element. -/
theorem returns_mapM_sweep (hp : ∀ x t a, (p x).Returns t a ↔ t = [e x a])
    (g : β → A → γ) (xs : List β) (ys : List γ) (t : List (Event I)) :
    (xs.mapM (fun x => p x >>= fun a => ret (g x a))).Returns t ys ↔
      ∃ as : List (β × A), as.map Prod.fst = xs ∧ t = as.map (fun a => e a.1 a.2) ∧
        ys = as.map (fun a => g a.1 a.2) := by
  induction xs generalizing ys t with
  | nil =>
      rw [List.mapM_nil]
      constructor
      · rintro ⟨rfl, rfl⟩
        exact ⟨[], rfl, rfl, rfl⟩
      · rintro ⟨as, has, rfl, rfl⟩
        rw [List.map_eq_nil_iff] at has
        subst has
        exact ⟨rfl, rfl⟩
  | cons x xs ih =>
      simp only [List.mapM_cons, returns_bind, hp, returns_ret, ih, pure_eq]
      constructor
      · rintro ⟨t₁, t₂, y, rfl, ⟨t₃, t₄, a, rfl, rfl, rfl, rfl⟩, t₅, t₆, ys', rfl,
          ⟨as, rfl, rfl, rfl⟩, rfl, rfl⟩
        exact ⟨(x, a) :: as, rfl, by simp, rfl⟩
      · rintro ⟨as, has, rfl, rfl⟩
        rcases as with _ | ⟨⟨y, a⟩, as⟩
        · cases has
        · cases has
          exact ⟨[e y a], as.map (fun a => e a.1 a.2), g y a, rfl,
            ⟨[e y a], [], a, rfl, rfl, rfl, rfl⟩, as.map (fun a => e a.1 a.2), [],
            as.map (fun a => g a.1 a.2), by simp, ⟨as, rfl, rfl, rfl⟩, rfl, rfl⟩

end Sweep

end Prog

end Effect
