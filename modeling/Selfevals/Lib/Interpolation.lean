import Mathlib.Tactic
import Mathlib.Algebra.Order.Floor.Semiring

/-!
# Interpolation between the values of a sequence

`lerp f` extends a sequence `f : ℕ → K` to the points between two indexes, linearly on each piece.

* `lerp_mem_Icc`: it stays where the sequence stays;
* `lerp_mono`: it is monotone where the sequence is, across the indexes as within a piece.
-/

namespace Selfevals.Lib.Interpolation

variable {K : Type*} [Field K] [LinearOrder K] [IsStrictOrderedRing K] [FloorSemiring K]

/-- The value at `r`, on the line from the index below it to the next one. -/
def lerp (f : ℕ → K) (r : K) : K := f ⌊r⌋₊ + (r - ⌊r⌋₊) * (f (⌊r⌋₊ + 1) - f ⌊r⌋₊)

variable {f : ℕ → K} {r s : K}

theorem frac_nonneg (hr : 0 ≤ r) : 0 ≤ r - ⌊r⌋₊ := sub_nonneg.mpr (Nat.floor_le hr)

theorem frac_le_one (r : K) : r - ⌊r⌋₊ ≤ 1 := by
  have h := (Nat.lt_floor_add_one r).le
  linarith

omit [IsStrictOrderedRing K] in
theorem lerp_eq_mean (f : ℕ → K) (r : K) :
    lerp f r = (1 - (r - ⌊r⌋₊)) * f ⌊r⌋₊ + (r - ⌊r⌋₊) * f (⌊r⌋₊ + 1) := by
  unfold lerp
  ring

theorem lerp_mem_Icc {a b : K} (hf : ∀ i, f i ∈ Set.Icc a b) (hr : 0 ≤ r) :
    lerp f r ∈ Set.Icc a b := by
  have h0 := frac_nonneg hr
  have h1 : 0 ≤ 1 - (r - ⌊r⌋₊) := sub_nonneg.mpr (frac_le_one r)
  have hlow := hf ⌊r⌋₊
  have hnext := hf (⌊r⌋₊ + 1)
  rw [lerp_eq_mean]
  constructor
  · calc a = (1 - (r - ⌊r⌋₊)) * a + (r - ⌊r⌋₊) * a := by ring
      _ ≤ _ := add_le_add (mul_le_mul_of_nonneg_left hlow.1 h1)
        (mul_le_mul_of_nonneg_left hnext.1 h0)
  · calc _ ≤ (1 - (r - ⌊r⌋₊)) * b + (r - ⌊r⌋₊) * b :=
        add_le_add (mul_le_mul_of_nonneg_left hlow.2 h1) (mul_le_mul_of_nonneg_left hnext.2 h0)
      _ = b := by ring

theorem lerp_mem_piece (hf : Monotone f) (hr : 0 ≤ r) :
    lerp f r ∈ Set.Icc (f ⌊r⌋₊) (f (⌊r⌋₊ + 1)) := by
  have hstep : 0 ≤ f (⌊r⌋₊ + 1) - f ⌊r⌋₊ := sub_nonneg.mpr (hf (Nat.le_succ _))
  have h0 := mul_nonneg (frac_nonneg hr) hstep
  have h1 := mul_le_mul_of_nonneg_right (frac_le_one r) hstep
  unfold lerp
  constructor
  · linarith
  · linarith

theorem lerp_mono (hf : Monotone f) (hr : 0 ≤ r) (hrs : r ≤ s) : lerp f r ≤ lerp f s := by
  obtain heq | hlt := (Nat.floor_mono hrs).eq_or_lt
  · -- one piece: the line rises
    have hstep : 0 ≤ f (⌊s⌋₊ + 1) - f ⌊s⌋₊ := sub_nonneg.mpr (hf (Nat.le_succ _))
    unfold lerp
    rw [heq]
    have h := mul_le_mul_of_nonneg_right (sub_le_sub_right hrs (⌊s⌋₊ : K)) hstep
    linarith
  · -- two pieces: the end of the first is not above the start of the second
    calc lerp f r ≤ f (⌊r⌋₊ + 1) := (lerp_mem_piece hf hr).2
      _ ≤ f ⌊s⌋₊ := hf hlt
      _ ≤ lerp f s := (lerp_mem_piece hf (hr.trans hrs)).1

end Selfevals.Lib.Interpolation
