import Selfevals.Arena.Rounds
import Selfevals.Schemas.IterationRecords

/-!
# The cost of a round

`estimateRoundCost` takes what a variant's past rounds cost on average, for all of their
repetitions, and multiplies it by the repetitions of the round to come.
-/

namespace Selfevals.Arena.CostEstimate

open Arena.Rounds Lib.Mapping Schemas.Arenas Schemas.IterationRecords

/-- `_latest_iteration_cost`, of the stored iterations of an experiment. -/
def latestIterationCost (records : List IterationRecord) : Option ℚ := do
  (← (← records.head?).metrics).costUsd

/-- Every round ran each of its variants with `r` repetitions per case, at a cost of `c`. -/
structure Uniform (rounds : List ArenaRound) (recordsOf : String → List IterationRecord) (r : ℤ)
    (c : ℚ) : Prop where
  reps : ∀ round ∈ rounds, round.reps = r
  cost : ∀ round ∈ rounds, ∀ entry ∈ round.entries,
    (entry.experimentId.bind fun id => latestIterationCost (recordsOf id)) = some c

theorem average_of_all {costs : List ℚ} {c : ℚ} (hne : costs ≠ []) (h : ∀ x ∈ costs, x = c) :
    average costs = c := by
  have hlength : (costs.length : ℚ) ≠ 0 := by simpa using hne
  rw [average, List.eq_replicate_of_mem h, List.sum_replicate, List.length_replicate, nsmul_eq_mul,
    mul_div_cancel_left₀ c hlength]

section History
variable {rounds : List ArenaRound} {recordsOf : String → List IterationRecord} {r : ℤ} {c : ℚ}

/-- The costs that are known, a variant each. -/
def knownCosts (rounds : List ArenaRound) (recordsOf : String → List IterationRecord) :
    List (String × ℚ) :=
  (rounds.flatMap (·.entries)).filterMap fun entry =>
    (entry.experimentId.bind fun id => latestIterationCost (recordsOf id)).map fun cost =>
      (entry.variantId, cost)

theorem perVariantCosts_eq : perVariantCosts rounds (fun id => latestIterationCost (recordsOf id)) =
    .gather (knownCosts rounds recordsOf) := rfl

variable (h : Uniform rounds recordsOf r c)
include h

theorem mem_knownCosts_iff {item : String × ℚ} : item ∈ knownCosts rounds recordsOf ↔
    item.2 = c ∧ ∃ round ∈ rounds, ∃ entry ∈ round.entries, entry.variantId = item.1 := by
  obtain ⟨variantId, cost⟩ := item
  simp only [knownCosts, List.mem_filterMap, List.mem_flatMap]
  constructor
  · rintro ⟨entry, ⟨round, hround, hentry⟩, hitem⟩
    rw [h.cost round hround entry hentry] at hitem
    obtain ⟨rfl, rfl⟩ := Prod.mk.inj (Option.some.inj hitem)
    exact ⟨rfl, round, hround, entry, hentry, rfl⟩
  · rintro ⟨rfl, round, hround, entry, hentry, rfl⟩
    exact ⟨entry, ⟨round, hround, hentry⟩, by rw [h.cost round hround entry hentry]; rfl⟩

theorem gathered_eq {variantId : String} {costs : List ℚ}
    (hcosts : (Dict.gather (knownCosts rounds recordsOf)).get? variantId = some costs) :
    costs ≠ [] ∧ ∀ x ∈ costs, x = c := by
  rw [Dict.get?_gather] at hcosts
  split_ifs at hcosts with hnil
  obtain rfl := Option.some.inj hcosts
  refine ⟨hnil, fun x hx => ?_⟩
  obtain ⟨item, hitem, rfl⟩ := List.mem_map.mp hx
  exact ((mem_knownCosts_iff h).mp (List.mem_of_mem_filter hitem)).1

/-- All costs there are. -/
def allCosts (rounds : List ArenaRound) (recordsOf : String → List IterationRecord) : List ℚ :=
  ((Dict.gather (knownCosts rounds recordsOf)).items.map Prod.snd).flatten

theorem eq_of_mem_allCosts : ∀ x ∈ allCosts rounds recordsOf, x = c := by
  intro x hx
  obtain ⟨costs, hcosts, hx⟩ := List.mem_flatten.mp hx
  obtain ⟨item, hitem, rfl⟩ := List.mem_map.mp hcosts
  exact (gathered_eq h ((Dict.mem_items_iff _ _ _).mp hitem)).2 x hx

theorem allCosts_ne_nil_iff :
    allCosts rounds recordsOf ≠ [] ↔ ∃ round ∈ rounds, round.entries ≠ [] := by
  constructor
  · intro hne
    obtain ⟨x, hx⟩ := List.exists_mem_of_ne_nil _ hne
    obtain ⟨costs, hcosts, -⟩ := List.mem_flatten.mp hx
    obtain ⟨⟨variantId, costs⟩, hitem, rfl⟩ := List.mem_map.mp hcosts
    have hget := (Dict.mem_items_iff _ _ _).mp hitem
    rw [Dict.get?_gather] at hget
    split_ifs at hget with hnil
    obtain ⟨cost, hcost⟩ := List.exists_mem_of_ne_nil _ hnil
    obtain ⟨item, hmem, -⟩ := List.mem_map.mp hcost
    obtain ⟨-, round, hround, entry, hentry, -⟩ :=
      (mem_knownCosts_iff h).mp (List.mem_of_mem_filter hmem)
    exact ⟨round, hround, List.ne_nil_of_mem hentry⟩
  · rintro ⟨round, hround, hne⟩
    obtain ⟨entry, hentry⟩ := List.exists_mem_of_ne_nil _ hne
    have hitem : (entry.variantId, c) ∈ knownCosts rounds recordsOf :=
      (mem_knownCosts_iff h).mpr ⟨rfl, round, hround, entry, hentry, rfl⟩
    have hunder : c ∈ Dict.under entry.variantId (knownCosts rounds recordsOf) :=
      List.mem_map.mpr ⟨_, List.mem_filter.mpr ⟨hitem, by simp⟩, rfl⟩
    have hget : (Dict.gather (knownCosts rounds recordsOf)).get? entry.variantId =
        some (Dict.under entry.variantId (knownCosts rounds recordsOf)) := by
      rw [Dict.get?_gather, if_neg (List.ne_nil_of_mem hunder)]
    exact List.ne_nil_of_mem (List.mem_flatten.mpr
      ⟨_, List.mem_map.mpr ⟨_, (Dict.mem_items_iff _ _ _).mpr hget, rfl⟩, hunder⟩)

/-- **What is estimated**: the cost of the past rounds, once for each repetition to come. -/
theorem estimateRoundCost_uniform (variantIds : List String) (reps : ℤ) :
    (estimateRoundCost rounds (fun id => latestIterationCost (recordsOf id)) variantIds
        reps).estimatedUsd =
      if ∃ round ∈ rounds,
        round.entries ≠ [] then some (variantIds.length * c * reps) else none := by
  unfold estimateRoundCost
  dsimp only
  rw [perVariantCosts_eq]
  change (if allCosts rounds recordsOf = [] then _ else _ : RoundCostEstimate).estimatedUsd = _
  by_cases hnil : allCosts rounds recordsOf = []
  · rw [if_pos hnil, if_neg fun hsome => (allCosts_ne_nil_iff h).mpr hsome hnil]
  · rw [if_neg hnil, if_pos ((allCosts_ne_nil_iff h).mp hnil)]
    have hperRound : ∀ variantId, average
        (((Dict.gather (knownCosts rounds recordsOf)).get? variantId).getD
          (allCosts rounds recordsOf)) = c := by
      intro variantId
      cases hget : (Dict.gather (knownCosts rounds recordsOf)).get? variantId with
      | none => exact average_of_all hnil (eq_of_mem_allCosts h)
      | some costs => exact average_of_all (gathered_eq h hget).1 (gathered_eq h hget).2
    have hmap : (variantIds.map fun variantId => average
        (((Dict.gather (knownCosts rounds recordsOf)).get? variantId).getD
          (allCosts rounds recordsOf)) * (reps : ℚ)) = variantIds.map fun _ => c * reps :=
      List.map_congr_left fun variantId _ => by rw [hperRound]
    show some (variantIds.map fun variantId => average
        (((Dict.gather (knownCosts rounds recordsOf)).get? variantId).getD
          (allCosts rounds recordsOf)) * (reps : ℚ)).sum = _
    rw [hmap, List.map_const', List.sum_replicate, nsmul_eq_mul, mul_assoc]

/-- **The estimate is the cost of the repetitions that are asked for** exactly where some round ran,
and it ran one repetition; or where there is nothing to pay for. -/
theorem homogeneous_iff (variantIds : List String) (reps : ℤ) :
    (estimateRoundCost rounds (fun id => latestIterationCost (recordsOf id)) variantIds
        reps).estimatedUsd = some (variantIds.length * c * reps / r) ↔
      (∃ round ∈ rounds, round.entries ≠ []) ∧ (r = 1 ∨ variantIds = [] ∨ c = 0 ∨ reps = 0) := by
  rw [estimateRoundCost_uniform h]
  split_ifs with hsome
  · rw [Option.some_inj, and_iff_right hsome]
    have hzero : (variantIds.length * c * reps : ℚ) = 0 ↔ variantIds = [] ∨ c = 0 ∨ reps = 0 := by
      rw [mul_eq_zero, mul_eq_zero, Nat.cast_eq_zero, List.length_eq_zero_iff, Int.cast_eq_zero,
        or_assoc]
    rw [← hzero]
    constructor
    · intro heq
      by_contra hnot
      push Not at hnot
      obtain ⟨hr, hpos⟩ := hnot
      have hr0 : (r : ℚ) ≠ 0 := by
        intro hr0
        rw [hr0, div_zero] at heq
        exact hpos heq
      rw [eq_div_iff hr0] at heq
      have hone : (r : ℚ) = 1 := mul_left_cancel₀ hpos (heq.trans (mul_one _).symm)
      exact hr (by exact_mod_cast hone)
    · rintro (rfl | hzero)
      · rw [Int.cast_one, div_one]
      · rw [hzero, zero_div]
  · exact iff_of_false (fun heq => nomatch heq) fun hiff => hsome hiff.1

end History

/-! ### One past round -/

/-- A record of an iteration that cost three tenths of a dollar. -/
def costed : IterationRecord :=
  { IterationRecord.minimal with
    metrics := some { primary := { name := "pass_rate", value := 1 }, costUsd := some (3 / 10) } }

/-- A round of one variant. -/
def pastRound (reps : ℤ) : ArenaRound where
  id := "rnd_0"
  arenaId := "arn_0"
  index := 0
  reps := reps
  entries := [{ variantId := "var_0", experimentId := some "exp_0" }]

theorem uniform_pastRound (reps : ℤ) :
    Uniform [pastRound reps] (fun _ => [costed]) reps (3 / 10) := by
  refine ⟨by simp [pastRound], ?_⟩
  simp [pastRound, latestIterationCost, costed]

/-- From a round of one repetition, four are estimated at four times its cost. -/
theorem homogeneous_once :
    (estimateRoundCost [pastRound 1] (fun _ => latestIterationCost [costed]) ["var_0"]
    4).estimatedUsd = some (6 / 5) :=
  ((homogeneous_iff (uniform_pastRound 1) ["var_0"] 4).mpr
    ⟨⟨pastRound 1, List.mem_singleton_self _, by simp [pastRound]⟩, Or.inl rfl⟩).trans (by norm_num)

/-- A round like the last, of three repetitions, is estimated at three times its cost. -/
theorem not_homogeneous_thrice :
    ¬∀ (rounds : List ArenaRound) (recordsOf : String → List IterationRecord) (r : ℤ) (c : ℚ),
      Uniform rounds recordsOf r c → (∃ round ∈ rounds, round.entries ≠ []) → ∀ variantIds reps,
        (estimateRoundCost rounds (fun id => latestIterationCost (recordsOf id)) variantIds
          reps).estimatedUsd = some (variantIds.length * c * reps / r) := by
  intro h
  have hestimate := h [pastRound 3] (fun _ => [costed]) 3 (3 / 10) (uniform_pastRound 3)
    ⟨pastRound 3, List.mem_singleton_self _, by simp [pastRound]⟩ ["var_0"] 3
  rw [estimateRoundCost_uniform (uniform_pastRound 3),
    if_pos ⟨pastRound 3, List.mem_singleton_self _,
    by simp [pastRound]⟩] at hestimate
  norm_num at hestimate

end Selfevals.Arena.CostEstimate
