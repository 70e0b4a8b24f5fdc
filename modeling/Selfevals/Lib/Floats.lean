import Mathlib.Tactic

/-!
# Python's `float`

A float is a number, an infinity or NaN; numbers are exact rationals. No comparison with NaN holds,
so that `min` and `max` depend on the order of their arguments: they keep the first one unless the
second is less, or greater.

* `pyMax_pyMin`: what is clamped to an interval is a number in it;
-/

namespace Selfevals.Lib.Floats

/-- A `float`, with exact finite values. -/
inductive PyFloat
  | finite (q : ℚ)
  | inf
  | negInf
  | nan
deriving DecidableEq, Repr

namespace PyFloat

/-- `x < y`. -/
def lt : PyFloat → PyFloat → Bool
  | .nan, _ | _, .nan => false
  | .inf, _ | _, .negInf => false
  | .negInf, _ | _, .inf => true
  | .finite a, .finite b => a < b

/-- `min(x, y)`. -/
def pyMin (x y : PyFloat) : PyFloat := if lt y x then y else x

/-- `max(x, y)`. -/
def pyMax (x y : PyFloat) : PyFloat := if lt x y then y else x

/-- The number that a finite float is. -/
def value : PyFloat → ℚ
  | .finite q => q
  | .inf | .negInf | .nan => 0

@[simp] theorem value_finite (q : ℚ) : (finite q).value = q := rfl

@[simp] theorem lt_finite (a b : ℚ) : lt (.finite a) (.finite b) = decide (a < b) := rfl

theorem pyMin_finite (a b : ℚ) : pyMin (.finite a) (.finite b) = .finite (min a b) := by
  unfold pyMin
  rw [lt_finite]
  by_cases h : b < a
  · rw [decide_eq_true h, if_pos rfl, min_eq_right h.le]
  · rw [decide_eq_false h, if_neg Bool.false_ne_true, min_eq_left (not_lt.mp h)]

theorem pyMax_finite (a b : ℚ) : pyMax (.finite a) (.finite b) = .finite (max a b) := by
  unfold pyMax
  rw [lt_finite]
  by_cases h : a < b
  · rw [decide_eq_true h, if_pos rfl, max_eq_right h.le]
  · rw [decide_eq_false h, if_neg Bool.false_ne_true, max_eq_left (not_lt.mp h)]

theorem pyMax_pyMin {lo hi : ℚ} (h : lo ≤ hi) (x : PyFloat) :
    ∃ q, pyMax (.finite lo) (pyMin (.finite hi) x) = .finite q ∧ lo ≤ q ∧ q ≤ hi := by
  cases x with
  | finite q =>
    rw [pyMin_finite, pyMax_finite]
    exact ⟨_, rfl, le_max_left _ _, max_le h (min_le_left _ _)⟩
  | inf => exact ⟨_, pyMax_finite lo hi, le_max_left _ _, max_le h le_rfl⟩
  | negInf => exact ⟨lo, rfl, le_rfl, h⟩
  | nan => exact ⟨_, pyMax_finite lo hi, le_max_left _ _, max_le h le_rfl⟩

/-- `min(cap, max(q, floor))`: at most the cap, and not less than the floor, nor than the number,
as far as the cap allows. -/
theorem pyMin_pyMax (cap q : ℚ) (floor : PyFloat) :
    ∃ p, pyMin (.finite cap) (pyMax (.finite q) floor) = .finite p ∧ p ≤ cap ∧ min cap q ≤ p ∧
      lt (.finite p) (pyMin floor (.finite cap)) = false := by
  cases floor with
  | finite a =>
    rw [pyMax_finite, pyMin_finite, pyMin_finite]
    refine ⟨_, rfl, min_le_left _ _, min_le_min_left _ (le_max_left _ _), ?_⟩
    rw [lt_finite, decide_eq_false_iff_not, not_lt, min_comm a cap]
    exact min_le_min_left _ (le_max_right _ _)
  | inf => exact ⟨cap, rfl, le_rfl, min_le_left _ _, by simp [pyMin, lt]⟩
  | negInf => exact ⟨_, pyMin_finite cap q, min_le_left _ _, le_rfl, rfl⟩
  | nan => exact ⟨_, pyMin_finite cap q, min_le_left _ _, le_rfl, rfl⟩

end PyFloat

end Selfevals.Lib.Floats
