import Mathlib.Data.Int.LeastGreatest

/-!
# The Gregorian calendar

Dates are numbered by days, with 1970-01-01 as day zero. The order of dates is the order of their
numbers, and every day has a date.
-/

namespace Gregorian

def isLeap (y : Int) : Bool :=
  (y % 4 = 0 ∧ y % 100 ≠ 0) ∨ y % 400 = 0

def yearLength (y : Int) : Nat :=
  if isLeap y then 366 else 365

def monthLength (y : Int) (m : Nat) : Nat :=
  match m with
  | 0 => 0
  | 4 | 6 | 9 | 11 => 30
  | 2 => if isLeap y then 29 else 28
  | _ => 31

def Valid (y : Int) (m d : Nat) : Prop :=
  1 ≤ m ∧ m ≤ 12 ∧ 1 ≤ d ∧ d ≤ monthLength y m

/-- The days from 0001-01-01 to the first day of a year. -/
def daysBeforeYear (y : Int) : Int :=
  365 * (y - 1) + (y - 1) / 4 - (y - 1) / 100 + (y - 1) / 400

def daysBeforeMonth (y : Int) : Nat → Nat
  | 0 => 0
  | m + 1 => daysBeforeMonth y m + monthLength y m

/-- The days from 1970-01-01 to a date. -/
def dayNumber (y : Int) (m d : Nat) : Int :=
  daysBeforeYear y + daysBeforeMonth y m + d - 719163

example : dayNumber 1970 1 1 = 0 := by decide

def Before (y : Int) (m d : Nat) (y' : Int) (m' d' : Nat) : Prop :=
  y < y' ∨ y = y' ∧ (m < m' ∨ m = m' ∧ d < d')

variable {y y' : Int} {m m' d d' : Nat}

/-! ## Years and months -/

theorem daysBeforeYear_succ (y : Int) :
    daysBeforeYear (y + 1) = daysBeforeYear y + yearLength y := by
  unfold daysBeforeYear yearLength isLeap
  by_cases h : (y % 4 = 0 ∧ y % 100 ≠ 0) ∨ y % 400 = 0
  · simp only [h, decide_true, if_true]
    omega
  · simp only [h, decide_false, Bool.false_eq_true, if_false]
    omega

theorem daysBeforeYear_le (h : y ≤ y') : daysBeforeYear y ≤ daysBeforeYear y' := by
  unfold daysBeforeYear
  omega

theorem daysBeforeMonth_le (y : Int) (h : m ≤ m') : daysBeforeMonth y m ≤ daysBeforeMonth y m' := by
  induction h with
  | refl => exact Nat.le_refl _
  | step _ ih => exact ih.trans (Nat.le_add_right _ _)

theorem daysBeforeMonth_end (y : Int) : daysBeforeMonth y 13 = yearLength y := by
  cases h : isLeap y <;> simp [daysBeforeMonth, monthLength, yearLength, h]

/-- A valid date lies within its month. -/
theorem Valid.le_next (h : Valid y m d) :
    daysBeforeMonth y m + d ≤ daysBeforeMonth y (m + 1) :=
  Nat.add_le_add_left h.2.2.2 _

/-- A valid date lies within its year. -/
theorem Valid.le_yearLength (h : Valid y m d) : daysBeforeMonth y m + d ≤ yearLength y :=
  calc daysBeforeMonth y m + d
      ≤ daysBeforeMonth y (m + 1) := h.le_next
    _ ≤ daysBeforeMonth y 13 := daysBeforeMonth_le y (Nat.succ_le_succ h.2.1)
    _ = yearLength y := daysBeforeMonth_end y

/-! ## The order -/

theorem dayNumber_lt_of_before (h : Valid y m d) (h' : Valid y' m' d')
    (hbefore : Before y m d y' m' d') : dayNumber y m d < dayNumber y' m' d' := by
  have hfirst : 1 ≤ d' := h'.2.2.1
  rcases hbefore with hyear | ⟨hyear, hmonth | ⟨hmonth, hday⟩⟩
  · have hnext := daysBeforeYear_le (show y + 1 ≤ y' from hyear)
    have hlength := h.le_yearLength
    rw [daysBeforeYear_succ] at hnext
    unfold dayNumber
    omega
  · have hnext := daysBeforeMonth_le y (show m + 1 ≤ m' from hmonth)
    have hlength := h.le_next
    unfold dayNumber
    rw [← hyear]
    omega
  · unfold dayNumber
    rw [← hyear, ← hmonth]
    omega

theorem before_trichotomy (y y' : Int) (m d m' d' : Nat) :
    Before y m d y' m' d' ∨ (y = y' ∧ m = m' ∧ d = d') ∨ Before y' m' d' y m d := by
  unfold Before
  omega

/-- The order of dates is the order of their numbers. -/
theorem before_iff (h : Valid y m d) (h' : Valid y' m' d') :
    Before y m d y' m' d' ↔ dayNumber y m d < dayNumber y' m' d' := by
  refine ⟨dayNumber_lt_of_before h h', fun hlt => ?_⟩
  rcases before_trichotomy y y' m d m' d' with hbefore | ⟨hy, hm, hd⟩ | hafter
  · exact hbefore
  · rw [hy, hm, hd] at hlt
    exact absurd hlt (lt_irrefl _)
  · exact absurd hlt (lt_asymm (dayNumber_lt_of_before h' h hafter))

/-! ## Every day has a date -/

theorem exists_year (n : Int) : ∃ y, daysBeforeYear y < n ∧ n ≤ daysBeforeYear (y + 1) := by
  have hbound : ∀ y, daysBeforeYear y < n → y ≤ n.natAbs + 1 := by
    intro y hy
    unfold daysBeforeYear at hy
    omega
  have hsmall : daysBeforeYear (-n.natAbs) < n := by
    unfold daysBeforeYear
    omega
  obtain ⟨y, hy, hgreatest⟩ := Int.exists_greatest_of_bdd ⟨_, hbound⟩ ⟨_, hsmall⟩
  refine ⟨y, hy, ?_⟩
  by_contra hnext
  have hle := hgreatest (y + 1) (not_le.mp hnext)
  omega

theorem exists_month {n : Nat} (hpos : 1 ≤ n) (hlength : n ≤ yearLength y) :
    ∃ m, 1 ≤ m ∧ m ≤ 12 ∧ daysBeforeMonth y m < n ∧ n ≤ daysBeforeMonth y (m + 1) := by
  have hfind : ∀ k, n ≤ daysBeforeMonth y k →
      ∃ m < k, daysBeforeMonth y m < n ∧ n ≤ daysBeforeMonth y (m + 1) := by
    intro k
    induction k with
    | zero =>
        intro hle
        exact absurd (hpos.trans hle) (Nat.not_succ_le_zero 0)
    | succ k ih =>
        intro hle
        by_cases hearlier : n ≤ daysBeforeMonth y k
        · obtain ⟨m, hm, hmonth⟩ := ih hearlier
          exact ⟨m, Nat.lt_succ_of_lt hm, hmonth⟩
        · exact ⟨k, Nat.lt_succ_self k, Nat.not_le.mp hearlier, hle⟩
  obtain ⟨m, hm, hbefore, hnext⟩ := hfind 13 (daysBeforeMonth_end y ▸ hlength)
  refine ⟨m, ?_, Nat.le_of_lt_succ hm, hbefore, hnext⟩
  -- month zero has no days
  apply Nat.pos_of_ne_zero
  intro hzero
  rw [hzero] at hnext
  exact absurd (hpos.trans hnext) (Nat.not_succ_le_zero 0)

theorem exists_date (n : Int) : ∃ y m d, Valid y m d ∧ dayNumber y m d = n := by
  obtain ⟨y, hbefore, hnext⟩ := exists_year (n + 719163)
  rw [daysBeforeYear_succ] at hnext
  obtain ⟨m, hm, hm', hless, hle⟩ := exists_month (y := y)
    (n := (n + 719163 - daysBeforeYear y).toNat) (by omega) (by omega)
  have hsucc : daysBeforeMonth y (m + 1) = daysBeforeMonth y m + monthLength y m := rfl
  refine ⟨y, m, (n + 719163 - daysBeforeYear y).toNat - daysBeforeMonth y m, ?_, ?_⟩
  · exact ⟨hm, hm', by omega, by omega⟩
  · unfold dayNumber
    omega

end Gregorian
