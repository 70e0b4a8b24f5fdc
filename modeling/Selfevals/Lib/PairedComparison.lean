import Mathlib.Algebra.BigOperators.Field
import Mathlib.Algebra.Order.BigOperators.Group.Finset
import Mathlib.Data.Fintype.BigOperators
import Mathlib.Tactic.Positivity

/-!
# Strengths from paired comparisons

Players meet in pairs, and every meeting credits at least one of the two with a part of a win. From
strengths that are `Viable`, an update sets each player's strength to the wins over the `demand`,
the meetings weighed by the strengths of the two; the strengths are then normalized. All
denominators on the way are positive, whatever the graph of the meetings.

* `viable_mmStep`, `viable_normalize`: the steps keep the strengths viable.
-/

namespace Selfevals.Lib.PairedComparison

open Finset

variable {K ι : Type*} [Field K] [LinearOrder K] {wins : ι → K} {games : ι → ι → K} {p : ι → K}

/-- Credits and meetings: none is negative, and who met shares a credit. -/
structure Comparisons (wins : ι → K) (games : ι → ι → K) : Prop where
  wins_nonneg : ∀ i, 0 ≤ wins i
  games_nonneg : ∀ i j, 0 ≤ games i j
  credited : ∀ i j, games i j ≠ 0 → 0 < wins i ∨ 0 < wins j

variable [Fintype ι]

/-- Strengths to go on from: none is negative, one that won has some, and so has someone. -/
structure Viable (wins p : ι → K) : Prop where
  nonneg : ∀ i, 0 ≤ p i
  pos_of_wins : ∀ i, 0 < wins i → 0 < p i
  pos_sum : 0 < ∑ i, p i

/-! ### Normalizing -/

/-- The strengths divided by their sum. -/
def normalize (p : ι → K) (i : ι) : K := p i / ∑ j, p j

/-- **Normalized strengths sum to one.** -/
theorem sum_normalize (hp : Viable wins p) : ∑ i, normalize p i = 1 := by
  unfold normalize
  rw [← sum_div]
  exact div_self hp.pos_sum.ne'

variable [IsStrictOrderedRing K]

theorem viable_normalize (hp : Viable wins p) : Viable wins (normalize p) where
  nonneg i := div_nonneg (hp.nonneg i) hp.pos_sum.le
  pos_of_wins i hi := div_pos (hp.pos_of_wins i hi) hp.pos_sum
  pos_sum := by
    rw [sum_normalize hp]
    exact one_pos

theorem viable_const [Nonempty ι] (wins : ι → K) : Viable wins fun _ => 1 where
  nonneg _ := zero_le_one
  pos_of_wins _ _ := one_pos
  pos_sum := sum_pos (fun _ _ => one_pos) univ_nonempty

/-! ### The update -/

/-- **Two that met** are not both without strength. -/
theorem Viable.pos_add (hc : Comparisons wins games) (hp : Viable wins p) {i j : ι}
    (hmet : games i j ≠ 0) : 0 < p i + p j := by
  obtain hi | hj := hc.credited i j hmet
  · exact add_pos_of_pos_of_nonneg (hp.pos_of_wins i hi) (hp.nonneg j)
  · exact add_pos_of_nonneg_of_pos (hp.nonneg i) (hp.pos_of_wins j hj)

variable [DecidableEq ι]

/-- The meetings of a player, each over the strengths of the two. -/
def demand (games : ι → ι → K) (p : ι → K) (i : ι) : K :=
  ∑ j ∈ univ.filter (i ≠ ·), games i j / (p i + p j)

/-- One update of all strengths. -/
def mmStep (wins : ι → K) (games : ι → ι → K) (p : ι → K) (i : ι) : K :=
  if 0 < demand games p i then wins i / demand games p i else p i

theorem demand_nonneg (hc : Comparisons wins games) (hp : Viable wins p) (i : ι) :
    0 ≤ demand games p i :=
  sum_nonneg fun j _ => div_nonneg (hc.games_nonneg i j) (add_nonneg (hp.nonneg i) (hp.nonneg j))

theorem mmStep_nonneg (hc : Comparisons wins games) (hp : Viable wins p) (i : ι) :
    0 ≤ mmStep wins games p i := by
  unfold mmStep
  split_ifs
  · exact div_nonneg (hc.wins_nonneg i) (demand_nonneg hc hp i)
  · exact hp.nonneg i

theorem mmStep_pos (hp : Viable wins p) {i : ι} (hi : 0 < wins i) : 0 < mmStep wins games p i := by
  unfold mmStep
  split_ifs with hdemand
  · exact div_pos hi hdemand
  · exact hp.pos_of_wins i hi

/-- **The update** keeps strengths viable. -/
theorem viable_mmStep (hc : Comparisons wins games) (hp : Viable wins p) :
    Viable wins (mmStep wins games p) where
  nonneg := mmStep_nonneg hc hp
  pos_of_wins _ := mmStep_pos hp
  pos_sum := by
    by_cases hwon : ∃ i, 0 < wins i
    · obtain ⟨i, hi⟩ := hwon
      exact sum_pos' (fun j _ => mmStep_nonneg hc hp j) ⟨i, mem_univ i, mmStep_pos hp hi⟩
    · -- nobody was credited, so nobody met, and all keep their strengths
      push Not at hwon
      have hkeep : mmStep wins games p = p := by
        funext i
        refine if_neg fun hdemand => hdemand.ne' (sum_eq_zero fun j _ => ?_)
        have hnone : games i j = 0 := by
          by_contra hmet
          exact (hc.credited i j hmet).elim (hwon i).not_gt (hwon j).not_gt
        rw [hnone, zero_div]
      rw [hkeep]
      exact hp.pos_sum

end Selfevals.Lib.PairedComparison
