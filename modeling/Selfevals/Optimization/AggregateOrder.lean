import Selfevals.Optimization.Aggregator

/-!
# The order of the outcomes does not show in the aggregate

Every metric of an aggregate is read off sums, counts and sorted lists of the outcomes, so outcomes
in another order give the `SameMetrics`: all fields agree, dicts compared as maps, except the list
of outcomes itself, which stays in the order it was given.

* `lookup_addAll` : a key's accumulator is the fold of the nodes with that key;
* `computeMetric_congr`, `perGraderPassRate_same`, `rollupConfusion_same` : the other reducers;
-/

namespace Selfevals.Optimization.AggregateOrder

open Lib.Mapping Graders.Base Graders.Confusion Optimization.Aggregator

/-! ### Funnels as maps -/

/-- The node at the end of a path of keys. -/
def nodeAt (funnel : List (String × FunnelNode)) (key : String) : List String → Option FunnelNode
  | [] => funnel.lookup key
  | key' :: path => (funnel.lookup key).bind fun node => nodeAt node.children key' path

/-- Equal nodes, their children aside. -/
structure SameFields (a b : FunnelNode) : Prop where
  key : a.key = b.key
  count : a.count = b.count
  meanScore : a.meanScore = b.meanScore
  totalWeight : a.totalWeight = b.totalWeight
  labelCounts : a.labelCounts.Same b.labelCounts
  failureModeCounts : a.failureModeCounts.Same b.failureModeCounts

/-- Equal funnels, dicts compared as maps at every level. -/
def SameFunnel (f f' : List (String × FunnelNode)) : Prop :=
  ∀ key path, Option.Rel SameFields (nodeAt f key path) (nodeAt f' key path)

/-! ### What an accumulator holds -/

section Accumulators
variable (acc : FunnelAccumulator) (nodes : List BreakdownNode)

/-- What a node adds to the sum of weighted scores. -/
def weightedScore (node : BreakdownNode) : ℚ := (node.score.map (· * node.weight)).getD 0

/-- What a node adds to the weight of the scored. -/
def weightIfScored (node : BreakdownNode) : ℚ := (node.score.map fun _ => node.weight).getD 0

def labelValues (node : BreakdownNode) : List String :=
  node.label.toList.map Schemas.Enums.Coded.value

theorem add_eq (node : BreakdownNode) :
    acc.add node =
      { key := acc.key
        count := acc.count + 1
        weightedScoreSum := acc.weightedScoreSum + weightedScore node
        scoredWeight := acc.scoredWeight + weightIfScored node
        totalWeight := acc.totalWeight + node.weight
        labelCounts := (labelValues node).foldl (·.add · 1) acc.labelCounts
        failureModeCounts := node.failureModes.foldl (·.add · 1) acc.failureModeCounts
        children := addAll acc.children node.children } := by
  cases node
  rfl

theorem addAll_append (accs : List (String × FunnelAccumulator))
    (nodes nodes' : List BreakdownNode) :
    addAll accs (nodes ++ nodes') = addAll (addAll accs nodes) nodes' := by
  induction nodes generalizing accs with
  | nil => rfl
  | cons node nodes ih => rw [List.cons_append, addAll, addAll, ih]

/-- **All nodes added**: every field is a sum, a count or a roll-up over them. -/
theorem foldl_add_eq :
    nodes.foldl FunnelAccumulator.add acc =
      { key := acc.key
        count := acc.count + nodes.length
        weightedScoreSum := acc.weightedScoreSum + (nodes.map weightedScore).sum
        scoredWeight := acc.scoredWeight + (nodes.map weightIfScored).sum
        totalWeight := acc.totalWeight + (nodes.map (·.weight)).sum
        labelCounts := (nodes.flatMap labelValues).foldl (·.add · 1) acc.labelCounts
        failureModeCounts :=
          (nodes.flatMap (·.failureModes)).foldl (·.add · 1) acc.failureModeCounts
        children := addAll acc.children (nodes.flatMap (·.children)) } := by
  induction nodes generalizing acc with
  | nil => cases acc; simp [addAll]
  | cons node nodes ih =>
    rw [List.foldl_cons, ih, add_eq]
    simp only [List.length_cons, List.map_cons, List.sum_cons, List.flatMap_cons,
      List.foldl_append, addAll_append, add_assoc, Nat.add_comm nodes.length]

end Accumulators

/-- The nodes of one key. -/
def nodesOf (key : String) (nodes : List BreakdownNode) : List BreakdownNode :=
  nodes.filter fun node => node.key = key

/-- The nodes of a key rolled up. -/
def rolled (key : String) (nodes : List BreakdownNode) : FunnelAccumulator :=
  nodes.foldl FunnelAccumulator.add { key }

theorem lookup_addAll (accs : List (String × FunnelAccumulator)) (nodes : List BreakdownNode)
    (key : String) :
    (addAll accs nodes).lookup key =
      if (nodesOf key nodes).isEmpty then accs.lookup key
      else some ((nodesOf key nodes).foldl FunnelAccumulator.add
        ((accs.lookup key).getD { key })) := by
  induction nodes generalizing accs with
  | nil => simp [addAll, nodesOf]
  | cons node nodes ih =>
    rw [addAll, ih]
    by_cases hkey : node.key = key
    · subst hkey
      have hcons : nodesOf node.key (node :: nodes) = node :: nodesOf node.key nodes := by
        simp [nodesOf]
      rw [hcons, lookup_setItem, if_pos rfl]
      by_cases hnil : (nodesOf node.key nodes).isEmpty
      · rw [List.isEmpty_iff.mp hnil]
        simp
      · rw [if_neg hnil]
        simp
    · have hskip : nodesOf key (node :: nodes) = nodesOf key nodes := by simp [nodesOf, hkey]
      have hne : key ≠ node.key := fun h => hkey h.symm
      rw [hskip, lookup_setItem, if_neg hne]

theorem lookup_freezeAll (accs : List (String × FunnelAccumulator)) (key : String) :
    (freezeAll accs).lookup key = (accs.lookup key).map FunnelAccumulator.freeze := by
  induction accs with
  | nil => rfl
  | cons item accs ih =>
    obtain ⟨key', acc⟩ := item
    by_cases h : key = key'
    · subst h
      simp [freezeAll]
    · have hne : (key == key') = false := by simpa using h
      simp [freezeAll, List.lookup_cons, hne, ih]

theorem lookup_rollup (nodes : List BreakdownNode) (key : String) :
    (freezeAll (addAll [] nodes)).lookup key =
      if (nodesOf key nodes).isEmpty then none
      else some (rolled key (nodesOf key nodes)).freeze := by
  rw [lookup_freezeAll, lookup_addAll]
  split_ifs <;> rfl

theorem freeze_children (acc : FunnelAccumulator) :
    acc.freeze.children = freezeAll acc.children := by
  cases acc
  rfl

theorem rolled_children (key : String) (nodes : List BreakdownNode) :
    (rolled key nodes).children = addAll [] (nodes.flatMap (·.children)) := by
  rw [rolled, foldl_add_eq]

theorem foldl_count (modes : List String) :
    modes.foldl (·.add · 1) (.empty : Dict String ℕ) = Dict.count modes := by
  rw [Dict.count, Dict.tally, List.foldl_map]

/-! ### The funnel of rearranged nodes -/

section Funnel
variable {nodes nodes' : List BreakdownNode}

theorem rolled_sameFields (h : nodes.Perm nodes') (key : String) :
    SameFields (rolled key nodes).freeze (rolled key nodes').freeze := by
  have hweighted := (h.map weightedScore).sum_eq
  have hscored := (h.map weightIfScored).sum_eq
  have htotal := (h.map (·.weight)).sum_eq
  have hlabels := Dict.count_same (h.flatMap_right labelValues)
  have hmodes := Dict.count_same (h.flatMap_right (·.failureModes))
  rw [rolled, rolled, foldl_add_eq, foldl_add_eq]
  simp only [foldl_count, FunnelAccumulator.freeze, h.length_eq, hweighted, hscored, htotal]
  exact ⟨rfl, rfl, rfl, rfl, hlabels, hmodes⟩

theorem rollup_same (h : nodes.Perm nodes') :
    SameFunnel (freezeAll (addAll [] nodes)) (freezeAll (addAll [] nodes')) := by
  intro key path
  -- down the path, the nodes at hand are the children of the nodes of the last key
  induction path generalizing nodes nodes' key with
  | nil =>
    have hkey : (nodesOf key nodes).Perm (nodesOf key nodes') := h.filter _
    simp only [nodeAt, lookup_rollup, hkey.isEmpty_eq]
    split_ifs
    · exact .none
    · exact .some (rolled_sameFields hkey key)
  | cons key' path ih =>
    have hkey : (nodesOf key nodes).Perm (nodesOf key nodes') := h.filter _
    simp only [nodeAt, lookup_rollup, hkey.isEmpty_eq]
    split_ifs
    · exact .none
    · simp only [Option.bind_some, freeze_children, rolled_children]
      exact ih (hkey.flatMap_right _) key'

end Funnel

/-- **The funnel** does not show the order of the outcomes. -/
theorem rollupFunnel_same {outcomes outcomes' : List CaseOutcome} (h : outcomes.Perm outcomes') :
    SameFunnel (rollupFunnel outcomes) (rollupFunnel outcomes') :=
  rollup_same (h.flatMap_right _)

/-! ### The other reducers -/

section Reducers
variable {outcomes outcomes' : List CaseOutcome}

theorem share_congr {α : Type} {xs ys : List α} (h : xs.Perm ys) (p : α → Bool) :
    share p xs = share p ys := by
  rw [share, share, h.countP_eq, h.length_eq]

theorem mean_congr {xs ys : List ℚ} (h : xs.Perm ys) : mean xs = mean ys := by
  rw [mean, mean, h.sum_eq, h.length_eq]

theorem computePassMetricForGrader_congr (h : outcomes.Perm outcomes') (metric grader : String) :
    computePassMetricForGrader metric outcomes grader =
      computePassMetricForGrader metric outcomes' grader := by
  have hwindows := h.filterMap fun o => (o.perGraderLabel.get? grader).filter (!·.isEmpty)
  simp only [computePassMetricForGrader, hwindows.isEmpty_eq, share_congr hwindows]

/-- **Metrics**: primary or reliability, the value or the error is the same. -/
theorem computeMetric_congr (h : outcomes.Perm outcomes') (metric : String)
    (primaryGrader : Option String) :
    computeMetric metric outcomes primaryGrader = computeMetric metric outcomes' primaryGrader := by
  have hscored := h.filter fun o => !o.errored
  have hfailed := h.filter failedFirst
  have hpass := mean_congr (hscored.map (·.passAt1))
  have hrate := mean_congr (h.map (·.consistencyRate))
  simp only [computeMetric, h.isEmpty_eq, computePassMetricForGrader_congr h, hscored.isEmpty_eq,
    hfailed.isEmpty_eq, hpass, hrate, share_congr h, share_congr hfailed]

theorem reliabilityOf_congr (h : outcomes.Perm outcomes') :
    reliabilityOf outcomes = reliabilityOf outcomes' := by
  funext metrics
  simp only [reliabilityOf, computeMetric_congr h]

theorem perGraderPassRate_same (h : outcomes.Perm outcomes') :
    (perGraderPassRate outcomes).Same (perGraderPassRate outcomes') := by
  have hverdicts : (graderVerdicts outcomes).Perm (graderVerdicts outcomes') := h.flatMap_right _
  have hcounts := Dict.count_same (hverdicts.map Prod.fst)
  refine (Dict.tally_same hverdicts).filterMap fun grader total => ?_
  rw [hcounts grader]

/-- Equal reports, or none on either side. -/
def SameReport : Option ConfusionReport → Option ConfusionReport → Prop :=
  Option.Rel ConfusionReport.Same

theorem rollupConfusion_same (h : outcomes.Perm outcomes') :
    SameReport (rollupConfusion outcomes) (rollupConfusion outcomes') := by
  have hpairs := (h.flatMap_right (·.breakdowns)).flatMap_right collectCellPairs
  unfold rollupConfusion
  simp only [hpairs.isEmpty_eq]
  split_ifs
  · exact .none
  · exact .some (confusionFromPairs_same hpairs)

end Reducers

/-! ### The aggregate -/

/-- Equal in every field but `caseOutcomes`, dicts compared as maps. -/
structure SameMetrics (a b : IterationAggregate) : Prop where
  primaryMetric : a.primaryMetric = b.primaryMetric
  primaryValue : a.primaryValue = b.primaryValue
  guardrails : a.guardrails.Same b.guardrails
  reliability : a.reliability.Same b.reliability
  failureModeCounts : a.failureModeCounts.Same b.failureModeCounts
  totalCostUsd : a.totalCostUsd = b.totalCostUsd
  totalDurationMs : a.totalDurationMs = b.totalDurationMs
  cacheHitCount : a.cacheHitCount = b.cacheHitCount
  llmCallCount : a.llmCallCount = b.llmCallCount
  caseCount : a.caseCount = b.caseCount
  funnel : SameFunnel a.funnel b.funnel
  perGraderPassRate : a.perGraderPassRate.Same b.perGraderPassRate
  primaryGrader : a.primaryGrader = b.primaryGrader
  errorRate : a.errorRate = b.errorRate
  confusion : SameReport a.confusion b.confusion

/-- The same error, or aggregates in a relation. -/
def OutcomeRel {ε : Type} (R : IterationAggregate → IterationAggregate → Prop) :
    Except ε IterationAggregate → Except ε IterationAggregate → Prop
  | .ok a, .ok b => R a b
  | .error e, .error e' => e = e'
  | _, _ => False

section Aggregate
variable {outcomes outcomes' : List CaseOutcome}

theorem assemble_sameMetrics (h : outcomes.Perm outcomes') (primaryMetric : String)
    (primaryGrader : Option String) (primaryValue : ℚ) (reliability : Dict String ℚ) :
    SameMetrics (assemble outcomes primaryMetric primaryGrader primaryValue reliability)
      (assemble outcomes' primaryMetric primaryGrader primaryValue reliability) := by
  have hlen := h.length_eq
  have hcost := (h.map (·.costUsd)).sum_eq
  have hduration := (h.map (·.durationMs)).sum_eq
  have hlatencies := sorted_congr (h.map fun o => (o.durationMs : ℚ))
  have hweighted := (h.map (·.weightedFailures)).sum_eq
  have hcritical := (h.map (·.criticalFailures)).sum_eq
  have hhits := (h.map (·.cacheHitCount)).sum_eq
  have hcalls := (h.map (·.llmCallCount)).sum_eq
  have hguardrails : (assemble outcomes primaryMetric primaryGrader primaryValue
      reliability).guardrails = (assemble outcomes' primaryMetric primaryGrader primaryValue
      reliability).guardrails := by
    simp only [assemble, hlen, hcost, hduration, hlatencies, hweighted, hcritical]
  exact {
    primaryMetric := rfl
    primaryValue := rfl
    guardrails := fun k => congrArg (·.get? k) hguardrails
    reliability := .refl _
    failureModeCounts := Dict.count_same (h.flatMap_right _)
    totalCostUsd := hcost
    totalDurationMs := hduration
    cacheHitCount := hhits
    llmCallCount := hcalls
    caseCount := hlen
    funnel := rollupFunnel_same h
    perGraderPassRate := perGraderPassRate_same h
    primaryGrader := rfl
    errorRate := share_congr h _
    confusion := rollupConfusion_same h }

/-- **The order of the outcomes shows in nothing but the list of outcomes itself.** -/
theorem aggregateIteration_sameMetrics (h : outcomes.Perm outcomes') (primaryMetric : String)
    (reliabilityMetrics : Option (List String)) (primaryGrader : Option String) :
    OutcomeRel (fun a b => SameMetrics a b ∧ a.caseOutcomes = outcomes ∧ b.caseOutcomes = outcomes')
      (aggregateIteration outcomes primaryMetric reliabilityMetrics primaryGrader)
      (aggregateIteration outcomes' primaryMetric reliabilityMetrics primaryGrader) := by
  by_cases hne : outcomes'.length = 0
  · obtain rfl := List.length_eq_zero_iff.mp hne
    obtain rfl := h.eq_nil
    refine ⟨⟨rfl, rfl, .refl _, .refl _, .refl _, rfl, rfl, rfl, rfl, rfl, ?_, .refl _, rfl, rfl,
      .none⟩, rfl, rfl⟩
    exact rollup_same (.refl [])
  · have hne' : outcomes.length ≠ 0 := by rwa [h.length_eq]
    rw [aggregateIteration_eq hne', aggregateIteration_eq hne, computeMetric_congr h,
      reliabilityOf_congr h]
    cases computeMetric primaryMetric outcomes' primaryGrader with
    | error e => rfl
    | ok primaryValue =>
      cases reliabilityOf outcomes' (reliabilityMetrics.getD []) with
      | error e => rfl
      | ok reliability => exact ⟨assemble_sameMetrics h _ _ _ _, rfl, rfl⟩

end Aggregate

end Selfevals.Optimization.AggregateOrder
