import Selfevals.Lib.Interpolation
import Selfevals.Optimization.Aggregator

/-!
# Percentiles

`percentile` reads a list in ascending order at the rank `q * (n - 1)`, on the line between the two
values around it. `percentile_eq_lerp` says so for every list, the last value standing for the ones
past the end, and the laws are those of that line.
-/

namespace Selfevals.Optimization.Percentiles

open Lib.Mapping Lib.Interpolation Optimization.Aggregator

/-- The values of a list, the last one standing for those past its end. -/
def valueAt (values : List ℚ) (i : ℕ) : ℚ := values.getD (min i (values.length - 1)) 0

variable {values : List ℚ}

theorem valueAt_mem (hne : values ≠ []) (i : ℕ) : valueAt values i ∈ values := by
  have hpos := List.length_pos_iff.mpr hne
  have hlt : min i (values.length - 1) < values.length := by omega
  rw [valueAt, List.getD_eq_getElem?_getD, List.getElem?_eq_getElem hlt, Option.getD_some]
  exact List.getElem_mem hlt

theorem valueAt_mono (hsorted : values.Pairwise (· ≤ ·)) : Monotone (valueAt values) := by
  intro i j hij
  by_cases hne : values = []
  · rw [hne]
    rfl
  have hpos := List.length_pos_iff.mpr hne
  have hi : min i (values.length - 1) < values.length := by omega
  have hj : min j (values.length - 1) < values.length := by omega
  rw [valueAt, valueAt, List.getD_eq_getElem?_getD, List.getD_eq_getElem?_getD,
    List.getElem?_eq_getElem hi, List.getElem?_eq_getElem hj]
  exact hsorted.sortedLE.getElem_le_getElem_of_le (min_le_min_right _ hij)

/-- The rank of a quantile in a list. -/
def rank (values : List ℚ) (q : ℚ) : ℚ := q * (values.length - 1)

theorem length_sub_one_nonneg (hne : values ≠ []) : (0 : ℚ) ≤ values.length - 1 := by
  have h : (1 : ℚ) ≤ values.length := by exact_mod_cast List.length_pos_iff.mpr hne
  linarith

theorem rank_nonneg (hne : values ≠ []) {q : ℚ} (hq : 0 ≤ q) : 0 ≤ rank values q :=
  mul_nonneg hq (length_sub_one_nonneg hne)

theorem rank_mono (hne : values ≠ []) {p q : ℚ} (hpq : p ≤ q) : rank values p ≤ rank values q :=
  mul_le_mul_of_nonneg_right hpq (length_sub_one_nonneg hne)

theorem percentile_of_two_le (h : 2 ≤ values.length) (q : ℚ) :
    percentile values q =
      if values.length ≤ ⌊rank values q⌋.toNat + 1 then values.getD (values.length - 1) 0
      else values.getD ⌊rank values q⌋.toNat 0 +
        (rank values q - ⌊rank values q⌋.toNat) *
          (values.getD (⌊rank values q⌋.toNat + 1) 0 - values.getD ⌊rank values q⌋.toNat 0) := by
  match values, h with
  | _ :: _ :: _, _ => rfl

theorem percentile_eq_lerp (hne : values ≠ []) (q : ℚ) :
    percentile values q = lerp (valueAt values) (rank values q) := by
  have hpos := List.length_pos_iff.mpr hne
  obtain hone | htwo : values.length = 1 ∨ 2 ≤ values.length := by omega
  · obtain ⟨value, rfl⟩ := List.length_eq_one_iff.mp hone
    simp [percentile, lerp, rank, valueAt]
  have hfloor : ⌊rank values q⌋.toNat = ⌊rank values q⌋₊ := Int.floor_toNat _
  rw [percentile_of_two_le htwo, hfloor, lerp]
  have hmin : ∀ i, i ≤ values.length - 1 → values.getD i 0 = valueAt values i := by
    intro i hi
    rw [valueAt, min_eq_left hi]
  split_ifs with hend
  · -- the rank is the last index, past which the values stay
    have hlast : ∀ i, values.length - 1 ≤ i →
        valueAt values i = values.getD (values.length - 1) 0 := by
      intro i hi
      rw [valueAt, min_eq_right hi]
    rw [hlast _ (by omega), hlast _ (by omega), sub_self, mul_zero, add_zero]
  · rw [hmin _ (by omega), hmin _ (by omega)]

/-! ### The laws -/

theorem percentile_mem_Icc {a b q : ℚ} (hne : values ≠ []) (hvalues : ∀ x ∈ values, x ∈ Set.Icc a b)
    (hq : 0 ≤ q) : percentile values q ∈ Set.Icc a b := by
  rw [percentile_eq_lerp hne]
  exact lerp_mem_Icc (fun i => hvalues _ (valueAt_mem hne i)) (rank_nonneg hne hq)

theorem percentile_between (hne : values ≠ []) {q : ℚ} (hq : 0 ≤ q) :
    ∃ least greatest, IsLeast {x | x ∈ values} least ∧ IsGreatest {x | x ∈ values} greatest ∧
      percentile values q ∈ Set.Icc least greatest := by
  have hfinite : {x | x ∈ values}.Finite := values.finite_toSet
  have hnonempty : {x | x ∈ values}.Nonempty := List.exists_mem_of_ne_nil values hne
  obtain ⟨least, hleast, hle⟩ := Set.exists_min_image _ id hfinite hnonempty
  obtain ⟨greatest, hgreatest, hge⟩ := Set.exists_max_image _ id hfinite hnonempty
  exact ⟨least, greatest, ⟨hleast, hle⟩, ⟨hgreatest, hge⟩,
    percentile_mem_Icc hne (fun x hx => ⟨hle x hx, hge x hx⟩) hq⟩

theorem percentile_mono (hsorted : values.Pairwise (· ≤ ·)) {p q : ℚ} (hp : 0 ≤ p) (hpq : p ≤ q) :
    percentile values p ≤ percentile values q := by
  by_cases hne : values = []
  · rw [hne]
    rfl
  rw [percentile_eq_lerp hne, percentile_eq_lerp hne]
  exact lerp_mono (valueAt_mono hsorted) (rank_nonneg hne hp) (rank_mono hne hpq)

theorem sorted_ne_nil (hne : values ≠ []) : sorted values ≠ [] := fun h =>
  hne ((h ▸ sorted_perm values).nil_eq).symm

/-- **A percentile** lies between the least and the greatest value, whatever the order of the list;
of the values in ascending order it is monotone in the quantile, and the order they came in does
not show. -/
theorem percentile_laws {p q : ℚ} (hne : values ≠ []) (hp : 0 ≤ p) (hpq : p ≤ q) :
    (∃ least greatest, IsLeast {x | x ∈ values} least ∧ IsGreatest {x | x ∈ values} greatest ∧
        percentile values q ∈ Set.Icc least greatest ∧
        percentile (sorted values) q ∈ Set.Icc least greatest) ∧
      percentile (sorted values) p ≤ percentile (sorted values) q ∧
      (values.Pairwise (· ≤ ·) → percentile values p ≤ percentile values q) ∧
      ∀ others, others.Perm values →
        percentile (sorted others) q = percentile (sorted values) q := by
  have h0 := hp.trans hpq
  refine ⟨?_, percentile_mono (List.pairwise_insertionSort _ _) hp hpq,
    fun hsorted => percentile_mono hsorted hp hpq, fun others hperm => ?_⟩
  · obtain ⟨least, greatest, hleast, hgreatest, hmem⟩ := percentile_between hne h0
    refine ⟨least, greatest, hleast, hgreatest, hmem,
      percentile_mem_Icc (sorted_ne_nil hne) (fun x hx => ?_) h0⟩
    have hvalue := (sorted_perm values).mem_iff.mp hx
    exact ⟨hleast.2 hvalue, hgreatest.2 hvalue⟩
  · rw [sorted_congr hperm]

theorem percentile_laws_three :
    percentile (sorted [9, 3, 4]) (1 / 2) ≤ percentile (sorted [9, 3, 4]) (19 / 20) :=
  have hne : [(9 : ℚ), 3, 4] ≠ [] := List.cons_ne_nil _ _
  (percentile_laws hne (by norm_num) (by norm_num)).2.1

/-- Of values out of order, it is neither monotone nor blind to the order. -/
theorem percentile_unsorted :
    percentile [1, 0] 1 < percentile [1, 0] 0 ∧ [1, 0].Perm [0, 1] ∧
      percentile [1, 0] 0 ≠ percentile [0, 1] 0 := by
  refine ⟨?_, .swap 0 1 [], ?_⟩
  · norm_num [percentile]
  · norm_num [percentile]

/-! ### The latency guardrails -/

theorem guardrailsOf_latencies (n : ℕ) (totalCost : ℚ) {totalDuration : ℤ} (h : 0 < totalDuration)
    (latencies : List ℚ) (weighted : ℤ) (critical : ℕ) :
    let guardrails := guardrailsOf n totalCost totalDuration latencies weighted critical
    guardrails.get? "latency_ms_p50" = some (percentile latencies (1 / 2)) ∧
      guardrails.get? "latency_ms_p95" = some (percentile latencies (19 / 20)) ∧
      guardrails.get? "latency_ms_p99" = some (percentile latencies (99 / 100)) := by
  unfold guardrailsOf
  refine ⟨?_, ?_, ?_⟩ <;> split_ifs <;> simp [Dict.get?_set]

/-- The latencies an aggregate reports rise with their quantile, and lie between the shortest and
the longest of its cases. -/
theorem latency_percentiles_ordered {caseOutcomes : List CaseOutcome} (primaryMetric : String)
    (primaryGrader : Option String) (primaryValue : ℚ) (reliability : Dict String ℚ)
    (hduration : 0 < (caseOutcomes.map (·.durationMs)).sum) {a b : ℚ}
    (hcases : ∀ o ∈ caseOutcomes, (o.durationMs : ℚ) ∈ Set.Icc a b) :
    ∃ p50 p95 p99,
      let guardrails :=
        (assemble caseOutcomes primaryMetric primaryGrader primaryValue reliability).guardrails
      guardrails.get? "latency_ms_p50" = some p50 ∧ guardrails.get? "latency_ms_p95" = some p95 ∧
        guardrails.get? "latency_ms_p99" = some p99 ∧
        a ≤ p50 ∧ p50 ≤ p95 ∧ p95 ≤ p99 ∧ p99 ≤ b := by
  obtain ⟨h50, h95, h99⟩ := guardrailsOf_latencies caseOutcomes.length
    (caseOutcomes.map (·.costUsd)).sum hduration
    (sorted (caseOutcomes.map fun o => (o.durationMs : ℚ)))
    (caseOutcomes.map (·.weightedFailures)).sum (caseOutcomes.map (·.criticalFailures)).sum
  have hne : sorted (caseOutcomes.map fun o => (o.durationMs : ℚ)) ≠ [] := by
    refine sorted_ne_nil fun hnil => ?_
    rw [List.map_eq_nil_iff.mp hnil] at hduration
    exact absurd hduration (by simp)
  have hrange : ∀ x ∈ sorted (caseOutcomes.map fun o => (o.durationMs : ℚ)), x ∈ Set.Icc a b := by
    intro x hx
    obtain ⟨o, ho, rfl⟩ := List.mem_map.mp ((sorted_perm _).mem_iff.mp hx)
    exact hcases o ho
  have hordered := List.pairwise_insertionSort (· ≤ ·)
    (caseOutcomes.map fun o => (o.durationMs : ℚ))
  exact ⟨_, _, _, h50, h95, h99,
    (percentile_mem_Icc hne hrange (by norm_num)).1,
    percentile_mono hordered (by norm_num) (by norm_num),
    percentile_mono hordered (by norm_num) (by norm_num),
    (percentile_mem_Icc hne hrange (by norm_num)).2⟩

/-- A passed case of this duration. -/
def caseLasting (caseId : String) (durationMs : ℤ) : CaseOutcome :=
  ⟨caseId, [.pass], [1], [], 0, durationMs, 0, 0, [], .empty, .empty, []⟩

/-- Three cases, the longest first. -/
def threeCases : List CaseOutcome := [caseLasting "c1" 30, caseLasting "c2" 10, caseLasting "c3" 20]

theorem latency_percentiles_ordered_three : ∃ p50 p95 p99,
    let guardrails := (assemble threeCases "pass@1" none 1 .empty).guardrails
    guardrails.get? "latency_ms_p50" = some p50 ∧ guardrails.get? "latency_ms_p95" = some p95 ∧
      guardrails.get? "latency_ms_p99" = some p99 ∧
      10 ≤ p50 ∧ p50 ≤ p95 ∧ p95 ≤ p99 ∧ p99 ≤ 30 :=
  latency_percentiles_ordered "pass@1" none 1 .empty (by decide) fun o ho => by
    simp only [threeCases, List.mem_cons, List.not_mem_nil, or_false] at ho
    rcases ho with rfl | rfl | rfl <;> norm_num [caseLasting]

end Selfevals.Optimization.Percentiles
