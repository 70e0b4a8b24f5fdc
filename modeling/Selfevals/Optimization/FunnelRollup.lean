import Mathlib.Tactic.Linarith
import Selfevals.Optimization.AggregateOrder

/-!
# What a rolled-up funnel says of its nodes

The node at the end of a path of keys stands for all breakdown nodes that the path leads to, of
all cases: it counts them, by label too, and its score is their weighted mean. So the roll-up of two
lists of cases is the sum of their roll-ups, path by path.
-/

namespace Selfevals.Optimization.FunnelRollup

open Lib.Mapping Schemas.Enums Graders.Base Optimization.Aggregator Optimization.AggregateOrder

/-! ### Paths -/

/-- The nodes that a path of keys leads to. -/
def reached (key : String) : List String → List BreakdownNode → List BreakdownNode
  | [], nodes => nodesOf key nodes
  | key' :: path, nodes => reached key' path ((nodesOf key nodes).flatMap (·.children))

/-- The last key of a path. -/
def lastKey (key : String) : List String → String
  | [] => key
  | key' :: path => lastKey key' path

/-- The accumulator at the end of a path. -/
def accAt (accs : List (String × FunnelAccumulator)) (key : String) :
    List String → Option FunnelAccumulator
  | [] => accs.lookup key
  | key' :: path => (accs.lookup key).bind fun acc => accAt acc.children key' path

/-- The accumulators of `_rollup_funnel`. -/
def accumulators (outcomes : List CaseOutcome) : List (String × FunnelAccumulator) :=
  addAll [] (outcomes.flatMap (·.breakdowns))

theorem nodeAt_freezeAll (accs : List (String × FunnelAccumulator)) (key : String)
    (path : List String) :
    nodeAt (freezeAll accs) key path = (accAt accs key path).map FunnelAccumulator.freeze := by
  induction path generalizing accs key with
  | nil => exact lookup_freezeAll accs key
  | cons key' path ih =>
    unfold nodeAt accAt
    rw [lookup_freezeAll]
    cases accs.lookup key with
    | none => rfl
    | some acc =>
      show nodeAt acc.freeze.children key' path = _
      rw [freeze_children]
      exact ih acc.children key'

theorem lookup_addAll_nil (nodes : List BreakdownNode) (key : String) :
    (addAll [] nodes).lookup key =
      if (nodesOf key nodes).isEmpty then none else some (rolled key (nodesOf key nodes)) := by
  rw [lookup_addAll]
  rfl

@[simp] theorem reached_nil (key : String) (path : List String) : reached key path [] = [] := by
  induction path generalizing key with
  | nil => rfl
  | cons key' path ih => exact ih key'

theorem reached_append (key : String) (path : List String) (nodes nodes' : List BreakdownNode) :
    reached key path (nodes ++ nodes') = reached key path nodes ++ reached key path nodes' := by
  induction path generalizing key nodes nodes' with
  | nil => exact List.filter_append _ _
  | cons key' path ih =>
    unfold reached nodesOf
    rw [List.filter_append, List.flatMap_append, ih]

/-- **The accumulator at a path** rolls up the nodes that the path leads to. -/
theorem accAt_addAll (nodes : List BreakdownNode) (key : String) (path : List String) :
    accAt (addAll [] nodes) key path =
      if (reached key path nodes).isEmpty then none
      else some (rolled (lastKey key path) (reached key path nodes)) := by
  induction path generalizing nodes key with
  | nil => exact lookup_addAll_nil nodes key
  | cons key' path ih =>
    unfold accAt reached lastKey
    rw [lookup_addAll_nil]
    by_cases hnone : (nodesOf key nodes).isEmpty
    · rw [if_pos hnone, List.isEmpty_iff.mp hnone]
      simp
    · rw [if_neg hnone, Option.bind_some, rolled_children]
      exact ih _ key'

/-! ### Weighted means -/

section Means
variable {nodes : List BreakdownNode}

/-- The mean of the scores, by weight; none where no score has weight. -/
def weightedMean (nodes : List BreakdownNode) : Option ℚ :=
  if (nodes.map weightIfScored).sum = 0 then none
  else some ((nodes.map weightedScore).sum / (nodes.map weightIfScored).sum)

/-- A node that counts for the mean. -/
def Counts (node : BreakdownNode) (score : ℚ) : Prop := node.score = some score ∧ 0 < node.weight

/-- A mean between two scores that count. -/
def Between (nodes : List BreakdownNode) (m : ℚ) : Prop :=
  (∃ node ∈ nodes, ∃ score, Counts node score ∧ score ≤ m) ∧
    ∃ node ∈ nodes, ∃ score, Counts node score ∧ m ≤ score

theorem weightIfScored_nonneg (hweight : ∀ node ∈ nodes, 0 ≤ node.weight) :
    ∀ node ∈ nodes, 0 ≤ weightIfScored node := by
  intro node hnode
  unfold weightIfScored
  cases node.score with
  | none => exact le_rfl
  | some score => exact hweight node hnode

theorem exists_counts (hweight : ∀ node ∈ nodes, 0 ≤ node.weight)
    (hne : (nodes.map weightIfScored).sum ≠ 0) : ∃ node ∈ nodes, ∃ score, Counts node score := by
  by_contra hnone
  push Not at hnone
  refine hne (List.sum_eq_zero fun w hw => ?_)
  obtain ⟨node, hnode, rfl⟩ := List.mem_map.mp hw
  have hpos := weightIfScored_nonneg hweight node hnode
  unfold weightIfScored at hpos ⊢
  cases hscore : node.score with
  | none => rfl
  | some score =>
    rw [hscore] at hpos
    refine le_antisymm (not_lt.mp fun hlt => hnone node hnode score ⟨hscore, hlt⟩) hpos

theorem lt_sum_of_lt (hweight : ∀ node ∈ nodes, 0 ≤ node.weight)
    (hne : (nodes.map weightIfScored).sum ≠ 0) {m : ℚ}
    (hbound : ∀ node ∈ nodes, ∀ score, Counts node score → m < score) :
    m * (nodes.map weightIfScored).sum < (nodes.map weightedScore).sum := by
  obtain ⟨node, hnode, score, hcounts⟩ := exists_counts hweight hne
  rw [← List.sum_map_mul_left]
  refine List.sum_lt_sum _ _ (fun n hn => ?_) ⟨node, hnode, ?_⟩
  · unfold weightIfScored weightedScore
    cases hscore : n.score with
    | none => simp
    | some s =>
      obtain hzero | hpos := (hweight n hn).eq_or_lt
      · simp [← hzero]
      · exact mul_le_mul_of_nonneg_right (hbound n hn s ⟨hscore, hpos⟩).le hpos.le
  · unfold weightIfScored weightedScore
    rw [hcounts.1]
    exact mul_lt_mul_of_pos_right (hbound node hnode score hcounts) hcounts.2

/-- The node with the opposite score. -/
def negated (node : BreakdownNode) : BreakdownNode := { node with score := node.score.map (-·) }

theorem weightIfScored_negated (node : BreakdownNode) :
    weightIfScored (negated node) = weightIfScored node := by
  unfold weightIfScored
  show ((node.score.map (-·)).map fun _ => node.weight).getD 0 = _
  cases node.score <;> rfl

theorem weightedScore_negated (node : BreakdownNode) :
    weightedScore (negated node) = -weightedScore node := by
  unfold weightedScore
  show ((node.score.map (-·)).map (· * node.weight)).getD 0 = _
  cases node.score with
  | none => exact neg_zero.symm
  | some score => exact neg_mul score node.weight

theorem sum_lt_of_lt (hweight : ∀ node ∈ nodes, 0 ≤ node.weight)
    (hne : (nodes.map weightIfScored).sum ≠ 0) {m : ℚ}
    (hbound : ∀ node ∈ nodes, ∀ score, Counts node score → score < m) :
    (nodes.map weightedScore).sum < m * (nodes.map weightIfScored).sum := by
  have hweights : (nodes.map negated).map weightIfScored = nodes.map weightIfScored := by
    rw [List.map_map]
    exact List.map_congr_left fun node _ => weightIfScored_negated node
  have hscores : ((nodes.map negated).map weightedScore).sum = -(nodes.map weightedScore).sum := by
    rw [List.map_map]
    calc (nodes.map fun node => weightedScore (negated node)).sum
        = (nodes.map fun node => -1 * weightedScore node).sum := by
          refine congrArg List.sum (List.map_congr_left fun node _ => ?_)
          rw [weightedScore_negated, neg_one_mul]
      _ = -(nodes.map weightedScore).sum := by rw [List.sum_map_mul_left, neg_one_mul]
  have hlt : -m * ((nodes.map negated).map weightIfScored).sum <
      ((nodes.map negated).map weightedScore).sum := lt_sum_of_lt
    (fun node hnode => by
      obtain ⟨node', hnode', rfl⟩ := List.mem_map.mp hnode
      exact hweight node' hnode')
    (by rwa [hweights])
    (fun node hnode score hcounts => by
      obtain ⟨node', hnode', rfl⟩ := List.mem_map.mp hnode
      obtain ⟨score', hscore', hneg⟩ := Option.map_eq_some_iff.mp hcounts.1
      have hle := hbound node' hnode' score' ⟨hscore', hcounts.2⟩
      rw [← hneg]
      exact neg_lt_neg hle)
  rw [hweights, hscores] at hlt
  linarith

/-- **A weighted mean is between scores that count.** -/
theorem weightedMean_between (hweight : ∀ node ∈ nodes, 0 ≤ node.weight) {m : ℚ}
    (hm : weightedMean nodes = some m) : Between nodes m := by
  unfold weightedMean at hm
  split_ifs at hm with hne
  have hmul : m * (nodes.map weightIfScored).sum = (nodes.map weightedScore).sum := by
    rw [← Option.some.inj hm, div_mul_cancel₀ _ hne]
  constructor
  · by_contra hnone
    push Not at hnone
    exact (lt_sum_of_lt hweight hne hnone).ne hmul
  · by_contra hnone
    push Not at hnone
    exact (sum_lt_of_lt hweight hne hnone).ne' hmul

theorem sum_map_filter_of_zero {α : Type} {p : α → Bool} {f : α → ℚ} {xs : List α}
    (h : ∀ x ∈ xs, p x = false → f x = 0) : ((xs.filter p).map f).sum = (xs.map f).sum := by
  induction xs with
  | nil => rfl
  | cons x xs ih =>
    obtain ⟨hx, hxs⟩ := List.forall_mem_cons.mp h
    rw [List.map_cons, List.sum_cons, ← ih hxs, List.filter_cons]
    cases hp : p x with
    | true => simp
    | false => simp [hx hp]

/-- **Nodes without weight do not count.** -/
theorem weightedMean_filter (nodes : List BreakdownNode) :
    weightedMean (nodes.filter fun node => node.weight ≠ 0) = weightedMean nodes := by
  have hweights : ((nodes.filter fun node => node.weight ≠ 0).map weightIfScored).sum =
      (nodes.map weightIfScored).sum := sum_map_filter_of_zero fun node _ hzero => by
      unfold weightIfScored
      cases node.score with
      | none => rfl
      | some score => simpa using hzero
  have hscores : ((nodes.filter fun node => node.weight ≠ 0).map weightedScore).sum =
      (nodes.map weightedScore).sum := sum_map_filter_of_zero fun node _ hzero => by
      unfold weightedScore
      cases node.score with
      | none => rfl
      | some score =>
        have hweight : node.weight = 0 := by simpa using hzero
        simp [hweight]
  unfold weightedMean
  rw [hweights, hscores]

end Means

/-! ### Frozen fields -/

section Frozen
variable (acc : FunnelAccumulator)

theorem freeze_count : acc.freeze.count = acc.count := by
  cases acc
  rfl

theorem freeze_totalWeight : acc.freeze.totalWeight = acc.totalWeight := by
  cases acc
  rfl

theorem freeze_labelCounts : acc.freeze.labelCounts = acc.labelCounts := by
  cases acc
  rfl

theorem freeze_failureModeCounts : acc.freeze.failureModeCounts = acc.failureModeCounts := by
  cases acc
  rfl

end Frozen

/-! ### What is rolled up -/

/-- What a rolled-up node says of the nodes it stands for. -/
structure SumsUp (node : FunnelNode) (nodes : List BreakdownNode) : Prop where
  count : node.count = nodes.length
  /-- Split by verdict, the skipped among them. -/
  labelCounts : ∀ label : GradeLabel,
    (node.labelCounts.get? (Coded.value label)).getD 0 = nodes.countP fun n => n.label = some label
  failureModeCounts : ∀ mode,
    (node.failureModeCounts.get? mode).getD 0 = (nodes.flatMap (·.failureModes)).count mode
  totalWeight : node.totalWeight = (nodes.map (·.weight)).sum
  /-- The mean score is that of the nodes with weight. -/
  advisory : node.meanScore = weightedMean (nodes.filter fun n => n.weight ≠ 0)
  /-- Where no weight is negative, it is between scores that count. -/
  between : (∀ n ∈ nodes, 0 ≤ n.weight) → ∀ m, node.meanScore = some m →
    Between nodes m
  /-- Only where no score has weight is there no mean. -/
  noMean : node.meanScore = none ↔ (nodes.map weightIfScored).sum = 0

section Rolled
variable (nodes : List BreakdownNode) (key : String)

theorem count_rolled : (rolled key nodes).count = nodes.length := by
  rw [rolled, foldl_add_eq]
  exact Nat.zero_add _

theorem meanScore_freeze_rolled : (rolled key nodes).freeze.meanScore = weightedMean nodes := by
  rw [rolled, foldl_add_eq]
  simp only [FunnelAccumulator.freeze, zero_add]
  rfl

theorem getD_labelCounts_rolled (value : String) :
    ((rolled key nodes).labelCounts.get? value).getD 0 =
      (nodes.flatMap labelValues).count value := by
  rw [rolled, foldl_add_eq]
  dsimp only
  rw [foldl_count, Dict.get?_count]
  split_ifs with hmem
  · rfl
  · exact (List.count_eq_zero.mpr hmem).symm

theorem getD_failureModeCounts_rolled (mode : String) :
    ((rolled key nodes).failureModeCounts.get? mode).getD 0 =
      (nodes.flatMap (·.failureModes)).count mode := by
  rw [rolled, foldl_add_eq]
  dsimp only
  rw [foldl_count, Dict.get?_count]
  split_ifs with hmem
  · rfl
  · exact (List.count_eq_zero.mpr hmem).symm

theorem count_labelValues (label : GradeLabel) :
    (nodes.flatMap labelValues).count (Coded.value label) =
      nodes.countP fun node => node.label = some label := by
  induction nodes with
  | nil => rfl
  | cons node nodes ih =>
    rw [List.flatMap_cons, List.count_append, ih, List.countP_cons, add_comm]
    congr 1
    unfold labelValues
    cases hlabel : node.label with
    | none => rfl
    | some label' =>
      show [Coded.value label'].count (Coded.value label) = _
      rw [List.count_singleton]
      by_cases heq : label' = label
      · simp [heq]
      · have hne : Coded.value label' ≠ Coded.value label := fun h => heq (Coded.value_injective h)
        simp [heq, hne]

theorem sumsUp_rolled : SumsUp (rolled key nodes).freeze nodes := by
  have hmean := meanScore_freeze_rolled nodes key
  have hadvisory : (rolled key nodes).freeze.meanScore =
      weightedMean (nodes.filter fun n => n.weight ≠ 0) := by
    rw [hmean, weightedMean_filter]
  refine ⟨?_, ?_, ?_, ?_, hadvisory, ?_, ?_⟩
  · rw [freeze_count, count_rolled]
  · intro label
    rw [freeze_labelCounts, getD_labelCounts_rolled, count_labelValues]
  · intro mode
    rw [freeze_failureModeCounts, getD_failureModeCounts_rolled]
  · rw [freeze_totalWeight, rolled, foldl_add_eq]
    exact zero_add _
  · intro hweight m hm
    exact weightedMean_between hweight (hmean.symm.trans hm)
  · rw [hmean]
    unfold weightedMean
    split_ifs with hzero
    · simpa using hzero
    · simpa using hzero

end Rolled

/-! ### Two roll-ups merged -/

/-- An accumulator that holds what two others hold. -/
structure Merges (a b c : FunnelAccumulator) : Prop where
  count : c.count = a.count + b.count
  weightedScoreSum : c.weightedScoreSum = a.weightedScoreSum + b.weightedScoreSum
  scoredWeight : c.scoredWeight = a.scoredWeight + b.scoredWeight
  totalWeight : c.totalWeight = a.totalWeight + b.totalWeight
  labelCounts : ∀ value, (c.labelCounts.get? value).getD 0 =
    (a.labelCounts.get? value).getD 0 + (b.labelCounts.get? value).getD 0
  failureModeCounts : ∀ mode, (c.failureModeCounts.get? mode).getD 0 =
    (a.failureModeCounts.get? mode).getD 0 + (b.failureModeCounts.get? mode).getD 0

theorem merges_rolled (key : String) (nodes nodes' : List BreakdownNode) :
    Merges (rolled key nodes) (rolled key nodes') (rolled key (nodes ++ nodes')) where
  count := by rw [count_rolled, count_rolled, count_rolled, List.length_append]
  weightedScoreSum := by
    simp only [rolled, foldl_add_eq, List.map_append, List.sum_append, zero_add]
  scoredWeight := by
    simp only [rolled, foldl_add_eq, List.map_append, List.sum_append, zero_add]
  totalWeight := by
    simp only [rolled, foldl_add_eq, List.map_append, List.sum_append, zero_add]
  labelCounts value := by
    rw [getD_labelCounts_rolled, getD_labelCounts_rolled, getD_labelCounts_rolled,
      List.flatMap_append, List.count_append]
  failureModeCounts mode := by
    rw [getD_failureModeCounts_rolled, getD_failureModeCounts_rolled, getD_failureModeCounts_rolled,
      List.flatMap_append, List.count_append]

/-- The accumulator at a path, one that holds nothing where there is none. -/
def accOr (accs : List (String × FunnelAccumulator)) (key : String) (path : List String) :
    FunnelAccumulator :=
  (accAt accs key path).getD { key := lastKey key path }

theorem accOr_addAll (nodes : List BreakdownNode) (key : String) (path : List String) :
    accOr (addAll [] nodes) key path = rolled (lastKey key path) (reached key path nodes) := by
  unfold accOr
  rw [accAt_addAll]
  by_cases hnone : (reached key path nodes).isEmpty
  · rw [if_pos hnone, List.isEmpty_iff.mp hnone]
    rfl
  · rw [if_neg hnone]
    rfl

/-! ### The roll-up -/

/-- The nodes that a path leads to, of all cases. -/
def reachedIn (outcomes : List CaseOutcome) (key : String) (path : List String) :
    List BreakdownNode :=
  reached key path (outcomes.flatMap (·.breakdowns))

/-- What holds of the roll-up of a list of cases. -/
structure RollupLaws (outcomes : List CaseOutcome) : Prop where
  /-- A path has a node where it leads to one in some case. -/
  absent : ∀ key path, nodeAt (rollupFunnel outcomes) key path = none ↔
    reachedIn outcomes key path = []
  /-- The node sums up all nodes that the path leads to. -/
  sums : ∀ key path, ∀ node ∈ nodeAt (rollupFunnel outcomes) key path,
    SumsUp node (reachedIn outcomes key path)
  /-- The order of the cases does not show. -/
  order : ∀ outcomes', outcomes.Perm outcomes' →
    SameFunnel (rollupFunnel outcomes) (rollupFunnel outcomes')
  /-- Each node is an accumulator's, and the accumulators of more cases merge theirs. -/
  frozen : ∀ key path, nodeAt (rollupFunnel outcomes) key path =
    (accAt (accumulators outcomes) key path).map FunnelAccumulator.freeze
  merged : ∀ outcomes' key path, Merges (accOr (accumulators outcomes) key path)
    (accOr (accumulators outcomes') key path)
    (accOr (accumulators (outcomes ++ outcomes')) key path)

theorem nodeAt_rollupFunnel (outcomes : List CaseOutcome) (key : String) (path : List String) :
    nodeAt (rollupFunnel outcomes) key path =
      if (reachedIn outcomes key path).isEmpty then none
      else some (rolled (lastKey key path) (reachedIn outcomes key path)).freeze := by
  unfold rollupFunnel
  rw [nodeAt_freezeAll, accAt_addAll]
  unfold reachedIn
  split_ifs <;> rfl

/-- **The roll-up** counts and averages the nodes of every path, in any order of the cases. -/
theorem rollupFunnel_laws (outcomes : List CaseOutcome) : RollupLaws outcomes where
  absent key path := by
    rw [nodeAt_rollupFunnel]
    split_ifs with hnone
    · exact iff_of_true rfl (List.isEmpty_iff.mp hnone)
    · exact iff_of_false id fun h => hnone (List.isEmpty_iff.mpr h)
  sums key path node hnode := by
    rw [nodeAt_rollupFunnel] at hnode
    split_ifs at hnode
    · exact nomatch hnode
    · obtain rfl := Option.some.inj hnode
      exact sumsUp_rolled _ _
  order _ h := rollupFunnel_same h
  frozen key path := nodeAt_freezeAll _ key path
  merged outcomes' key path := by
    unfold accumulators
    rw [accOr_addAll, accOr_addAll, accOr_addAll, List.flatMap_append, reached_append]
    exact merges_rolled _ _ _

/-- One case, with two nodes of a key: one counts double, the other against it. -/
def skewed : CaseOutcome :=
  { caseId := "ec_1", perRepetitionLabel := [.pass], perRepetitionScore := [1]
    breakdowns := [{ key := "tone", score := some 1, weight := 2 },
      { key := "tone", score := some 0, weight := -1 }] }

/-- **A negative weight** takes the mean beyond every score: it is 2, of the scores 1 and 0. -/
theorem not_mean_between :
    ¬∀ outcomes key path, ∀ node ∈ nodeAt (rollupFunnel outcomes) key path,
      ∀ m, node.meanScore = some m → Between (reachedIn outcomes key path) m := by
  intro hall
  have hnode : nodeAt (rollupFunnel [skewed]) "tone" [] =
      some (rolled "tone" skewed.breakdowns).freeze := by
    rw [nodeAt_rollupFunnel, if_neg (by decide)]
    rfl
  have hmean : (rolled "tone" skewed.breakdowns).freeze.meanScore = some 2 := by
    rw [meanScore_freeze_rolled]
    decide +kernel
  obtain ⟨-, node, hmem, score, ⟨hscore, hpos⟩, hle⟩ := hall [skewed] "tone" [] _ hnode 2 hmean
  have hcases : node = { key := "tone", score := some 1, weight := 2 } ∨
      node = { key := "tone", score := some 0, weight := -1 } := by
    simpa [reachedIn, reached, nodesOf, skewed] using hmem
  obtain rfl | rfl := hcases
  · obtain rfl := Option.some.inj hscore
    norm_num at hle
  · norm_num at hpos

end Selfevals.Optimization.FunnelRollup
