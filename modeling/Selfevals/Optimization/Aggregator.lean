import Selfevals.Graders.Base
import Selfevals.Graders.Confusion
import Selfevals.Lib.PyInt

/-!
# Rolling case outcomes up into an iteration's aggregate

`aggregateIteration` turns a list of `CaseOutcome`s into an `IterationAggregate`: the primary and
reliability metrics, guardrails, failure modes, totals, per-grader pass rates, the funnel and the
confusion matrix. Floats are exact rationals, dicts keep their insertion order, and a metric name
the code cannot score is a `MetricError`.

* `caseOutcomes_of_ok` : an aggregate keeps and counts the outcomes it was made from.
-/

namespace Selfevals.Optimization.Aggregator

open Lib.Mapping Lib.PyInt Graders.Base Graders.Confusion

/-! ### Outcomes -/

/-- What the repetitions of a case come to. -/
structure CaseOutcome where
  caseId : String
  perRepetitionLabel : List GradeLabel
  perRepetitionScore : List ℚ
  failureModes : List String := []
  costUsd : ℚ := 0
  durationMs : ℤ := 0
  cacheHitCount : ℤ := 0
  llmCallCount : ℤ := 0
  breakdowns : List BreakdownNode := []
  perGraderLabel : Dict String (List GradeLabel) := .empty
  failureWeights : Dict String ℤ := .empty
  criticalFailureModes : List String := []

namespace CaseOutcome

/-- The first repetition's label is ERROR. -/
def errored (o : CaseOutcome) : Bool := o.perRepetitionLabel.head? == some .error

/-- `pass_at_1`: the first repetition passes. -/
def passAt1 (o : CaseOutcome) : ℚ := if o.perRepetitionLabel.head? = some .pass then 1 else 0

/-- `none` when the grader did not run on the case. -/
def passAt1ForGrader (o : CaseOutcome) (grader : String) : Option ℚ :=
  match o.perGraderLabel.get? grader with
  | none | some [] => none
  | some (label :: _) => some (if label = .pass then 1 else 0)

/-- `consistency_rate`: the share of the repetitions that pass. -/
def consistencyRate (o : CaseOutcome) : ℚ :=
  if o.perRepetitionLabel = [] then 0
  else o.perRepetitionLabel.count .pass / o.perRepetitionLabel.length

/-- Each failure mode's count times its weight, summed. -/
def weightedFailures (o : CaseOutcome) : ℤ :=
  ((Dict.count o.failureModes).items.map fun item =>
    item.2 * (o.failureWeights.get? item.1).getD 0).sum

/-- How often a zero-tolerance mode occurred. -/
def criticalFailures (o : CaseOutcome) : ℕ :=
  (((Dict.count o.failureModes).items.filter fun item =>
    item.1 ∈ o.criticalFailureModes).map Prod.snd).sum

end CaseOutcome

/-! ### Labels of a repetition -/

/-- The order of severity of `_pick_label`. -/
def severity : GradeLabel → ℕ
  | .error => 4
  | .fail => 3
  | .partialPass => 2
  | .skipped => 1
  | .pass => 0

/-- `_pick_label`, of the graders' labels: the first of the most severe. -/
def pickLabel : List GradeLabel → GradeLabel
  | [] => .skipped
  | label :: labels =>
    labels.foldl (fun worst l => if severity worst < severity l then l else worst) label

/-- The labels `_outcome_for` gives the repetitions; `errors` says which of them failed. -/
def repetitionLabels (errors : List Bool) (graded : List (List GradeLabel)) : List GradeLabel :=
  graded.mapIdx fun idx labels => if errors.getD idx false then .error else pickLabel labels

/-! ### The funnel -/

/-- The rolled-up node of one key. -/
structure FunnelNode where
  key : String
  count : ℕ := 0
  meanScore : Option ℚ := none
  totalWeight : ℚ := 0
  labelCounts : Dict String ℕ := .empty
  failureModeCounts : Dict String ℕ := .empty
  children : List (String × FunnelNode) := []

/-- What is gathered at a key of the funnel. -/
structure FunnelAccumulator where
  key : String
  count : ℕ := 0
  weightedScoreSum : ℚ := 0
  scoredWeight : ℚ := 0
  totalWeight : ℚ := 0
  labelCounts : Dict String ℕ := .empty
  failureModeCounts : Dict String ℕ := .empty
  children : List (String × FunnelAccumulator) := []

mutual

/-- One more node at a key. -/
def FunnelAccumulator.add (acc : FunnelAccumulator) : BreakdownNode → FunnelAccumulator
  | .mk _ label score weight _ failureModes children =>
    { acc with
      count := acc.count + 1
      totalWeight := acc.totalWeight + weight
      -- a node without a score counts, but not towards the mean
      weightedScoreSum := acc.weightedScoreSum + (score.map (· * weight)).getD 0
      scoredWeight := acc.scoredWeight + (score.map fun _ => weight).getD 0
      labelCounts := (label.toList.map Schemas.Enums.Coded.value).foldl (·.add · 1) acc.labelCounts
      failureModeCounts := failureModes.foldl (·.add · 1) acc.failureModeCounts
      children := addAll acc.children children }

/-- Adds each node to the accumulator of its key, made where there is none. -/
def addAll (accs : List (String × FunnelAccumulator)) :
    List BreakdownNode → List (String × FunnelAccumulator)
  | [] => accs
  | node :: nodes =>
    addAll (setItem node.key (((accs.lookup node.key).getD { key := node.key }).add node) accs)
      nodes

end

mutual

/-- The node of what is gathered. -/
def FunnelAccumulator.freeze : FunnelAccumulator → FunnelNode
  | .mk key count weightedScoreSum scoredWeight totalWeight labelCounts failureModeCounts
    children =>
    { key, count, totalWeight, labelCounts, failureModeCounts
      meanScore := if scoredWeight = 0 then none else some (weightedScoreSum / scoredWeight)
      children := freezeAll children }

/-- The nodes of what is gathered at some keys. -/
def freezeAll : List (String × FunnelAccumulator) → List (String × FunnelNode)
  | [] => []
  | (key, acc) :: accs => (key, acc.freeze) :: freezeAll accs

end

/-- `_rollup_funnel`. -/
def rollupFunnel (outcomes : List CaseOutcome) : List (String × FunnelNode) :=
  freezeAll (addAll [] (outcomes.flatMap (·.breakdowns)))

/-! ### Classification cells -/

/-- The prefix of the key of a cell. -/
def cellPrefix : String := "cell:"

/-- What stands before and after the first occurrence of `sep`; `none` where there is none. -/
def partition (sep : List Char) : List Char → Option (List Char × List Char)
  | [] => none
  | c :: cs =>
    if sep.isPrefixOf (c :: cs) then some ([], (c :: cs).drop sep.length)
    else (partition sep cs).map fun parts => (c :: parts.1, parts.2)

/-- `parse_cell_key`. -/
def parseCellKey (key : String) : Option (String × String) :=
  if cellPrefix.toList.isPrefixOf key.toList then
    match partition "->".toList (key.toList.drop cellPrefix.toList.length) with
    | none => none
    | some (expected, predicted) =>
      if expected = [] ∨ predicted = [] then none
      else some (String.ofList expected, String.ofList predicted)
  else none

mutual

/-- `_collect_cell_pairs`. -/
def collectCellPairs : BreakdownNode → List (String × String)
  | .mk key _ _ _ _ _ children => (parseCellKey key).toList ++ collectAllCellPairs children

/-- The pairs of all the cells in some trees. -/
def collectAllCellPairs : List BreakdownNode → List (String × String)
  | [] => []
  | node :: nodes => collectCellPairs node ++ collectAllCellPairs nodes

end

/-- `_rollup_confusion`. -/
def rollupConfusion (outcomes : List CaseOutcome) : Option ConfusionReport :=
  let pairs := (outcomes.flatMap (·.breakdowns)).flatMap collectCellPairs
  if pairs.isEmpty then none else some (confusionFromPairs pairs)

/-! ### Metrics -/

/-- A `ValueError` while scoring a metric. -/
inductive MetricError
  /-- `unsupported aggregate metric: {metric!r}` -/
  | unsupported (metric : String)
  /-- `int()` of what follows the separator fails. -/
  | invalidInt (text : String)
deriving DecidableEq, Repr

/-- `xs[:k]`; a negative bound counts from the end. -/
def sliceTo {α : Type} (k : ℤ) (xs : List α) : List α :=
  if 0 ≤ k then xs.take k.toNat else xs.take (xs.length - k.natAbs)

/-- `s.split(c, 1)[1]`. -/
def afterFirst (c : Char) (s : String) : String :=
  String.ofList ((s.toList.dropWhile (· ≠ c)).drop 1)

def startsWith (start s : String) : Bool := start.toList.isPrefixOf s.toList

/-- The `k` of `pass@k` or `pass^k`. -/
def repetitionBound (c : Char) (metric : String) : Except MetricError ℤ :=
  match parseInt (afterFirst c metric) with
  | none => .error (.invalidInt (afterFirst c metric))
  | some k => .ok k

/-- The share of a list that passes a test. -/
def share {α : Type} (p : α → Bool) (xs : List α) : ℚ := xs.countP p / xs.length

/-- `mean`. -/
def mean (xs : List ℚ) : ℚ := xs.sum / xs.length

/-- One of the first repetitions passes. -/
def passInFirst (k : ℤ) (labels : List GradeLabel) : Bool := (sliceTo k labels).contains .pass

/-- All of the first repetitions pass. -/
def allPassInFirst (k : ℤ) (labels : List GradeLabel) : Bool :=
  k ≤ labels.length && (sliceTo k labels).all (· == .pass)

/-- `_compute_pass_metric_for_grader`. -/
def computePassMetricForGrader (metric : String) (outcomes : List CaseOutcome) (grader : String) :
    Except MetricError ℚ :=
  let windows := outcomes.filterMap fun o => (o.perGraderLabel.get? grader).filter (!·.isEmpty)
  if windows.isEmpty then .ok 0
  else if metric = "pass@1" then .ok (share (fun w => w.head? == some .pass) windows)
  else if startsWith "pass@" metric then
    (repetitionBound '@' metric).map fun k => share (passInFirst k) windows
  else (repetitionBound '^' metric).map fun k => share (allPassInFirst k) windows

/-- The first repetition ran and did not pass. -/
def failedFirst (o : CaseOutcome) : Bool :=
  !o.perRepetitionLabel.isEmpty && o.perRepetitionLabel.head? != some .pass

/-- `_compute_metric`. -/
def computeMetric (metric : String) (outcomes : List CaseOutcome) (primaryGrader : Option String) :
    Except MetricError ℚ :=
  if outcomes.isEmpty then .ok 0
  else
    match primaryGrader.filter fun _ =>
        metric == "pass@1" || startsWith "pass@" metric || startsWith "pass^" metric with
    | some grader => computePassMetricForGrader metric outcomes grader
    | none =>
      if metric = "pass@1" then
        let scored := outcomes.filter fun o => !o.errored
        if scored.isEmpty then .ok 0 else .ok (mean (scored.map (·.passAt1)))
      else if startsWith "pass@" metric then
        (repetitionBound '@' metric).map fun k =>
          share (fun o => passInFirst k o.perRepetitionLabel) outcomes
      else if startsWith "pass^" metric then
        (repetitionBound '^' metric).map fun k =>
          -- the window of the first `k` is what is measured against `k`
          share (fun o => k ≤ (sliceTo k o.perRepetitionLabel).length &&
            (sliceTo k o.perRepetitionLabel).all (· == .pass)) outcomes
      else if metric = "consistency_rate" then .ok (mean (outcomes.map (·.consistencyRate)))
      else if metric = "stability_score" then .ok (mean (outcomes.map (·.consistencyRate)))
      else if metric = "recovery_rate" then
        let failed := outcomes.filter failedFirst
        if failed.isEmpty then .ok 0
        else .ok (share (fun o => (o.perRepetitionLabel.drop 1).contains .pass) failed)
      else .error (.unsupported metric)

/-- The first-repetition verdict of each grader on each case it ran on. -/
def graderVerdicts (outcomes : List CaseOutcome) : List (String × ℚ) :=
  outcomes.flatMap fun o =>
    o.perGraderLabel.keys.filterMap fun grader =>
      (o.passAt1ForGrader grader).map fun value => (grader, value)

/-- `_per_grader_pass_rate`. -/
def perGraderPassRate (outcomes : List CaseOutcome) : Dict String ℚ :=
  let sums := Dict.tally (graderVerdicts outcomes)
  let counts := Dict.count ((graderVerdicts outcomes).map Prod.fst)
  sums.filterMap fun grader total =>
    let n := (counts.get? grader).getD 0
    if 0 < n then some (total / n) else none

/-- `_percentile`, of values in order. -/
def percentile (sortedValues : List ℚ) (q : ℚ) : ℚ :=
  match sortedValues with
  | [] => 0
  | [value] => value
  | values =>
    let rank := q * (values.length - 1)
    let low := ⌊rank⌋.toNat
    let frac := rank - low
    let at' i := values.getD i 0
    if values.length ≤ low + 1 then at' (values.length - 1)
    else at' low + frac * (at' (low + 1) - at' low)

/-! ### The aggregate -/

/-- What the outcomes of an iteration come to. -/
structure IterationAggregate where
  primaryMetric : String
  primaryValue : ℚ
  guardrails : Dict String ℚ := .empty
  reliability : Dict String ℚ := .empty
  failureModeCounts : Dict String ℕ := .empty
  totalCostUsd : ℚ := 0
  totalDurationMs : ℤ := 0
  cacheHitCount : ℤ := 0
  llmCallCount : ℤ := 0
  caseCount : ℕ := 0
  caseOutcomes : List CaseOutcome := []
  funnel : List (String × FunnelNode) := []
  perGraderPassRate : Dict String ℚ := .empty
  primaryGrader : Option String := none
  errorRate : ℚ := 0
  confusion : Option ConfusionReport := none

/-- `{m: _compute_metric(m, case_outcomes) for m in reliability_metrics}`. -/
def reliabilityOf (outcomes : List CaseOutcome) (metrics : List String) :
    Except MetricError (Dict String ℚ) :=
  metrics.foldlM (fun reliability m =>
    (computeMetric m outcomes none).map fun value => reliability.set m value) .empty

/-- The guardrails, from the number of cases, the totals and the durations in order. -/
def guardrailsOf (n : ℕ) (totalCost : ℚ) (totalDuration : ℤ) (latencies : List ℚ)
    (weightedFailureTotal : ℤ) (criticalFailureCount : ℕ) : Dict String ℚ :=
  let guardrails : Dict String ℚ := .empty
  let guardrails :=
    if 0 < totalCost then guardrails.set "cost_usd_per_case" (totalCost / n) else guardrails
  let guardrails :=
    if 0 < totalDuration then
      (((guardrails.set "latency_ms_per_case_avg" (totalDuration / n)).set
        "latency_ms_p50" (percentile latencies (1 / 2))).set
        "latency_ms_p95" (percentile latencies (19 / 20))).set
        "latency_ms_p99" (percentile latencies (99 / 100))
    else guardrails
  let guardrails :=
    if 0 < weightedFailureTotal then
      (guardrails.set "weighted_failure_total" weightedFailureTotal).set
        "weighted_failure_per_case" (weightedFailureTotal / n)
    else guardrails
  guardrails.set "critical_failure_count" criticalFailureCount

/-- The aggregate of some outcomes, given what was scored. -/
def assemble (caseOutcomes : List CaseOutcome) (primaryMetric : String)
    (primaryGrader : Option String) (primaryValue : ℚ) (reliability : Dict String ℚ) :
    IterationAggregate where
  primaryMetric
  primaryValue
  guardrails := guardrailsOf caseOutcomes.length (caseOutcomes.map (·.costUsd)).sum
    (caseOutcomes.map (·.durationMs)).sum (sorted (caseOutcomes.map fun o => (o.durationMs : ℚ)))
    (caseOutcomes.map (·.weightedFailures)).sum (caseOutcomes.map (·.criticalFailures)).sum
  reliability
  failureModeCounts := .count (caseOutcomes.flatMap (·.failureModes))
  totalCostUsd := (caseOutcomes.map (·.costUsd)).sum
  totalDurationMs := (caseOutcomes.map (·.durationMs)).sum
  cacheHitCount := (caseOutcomes.map (·.cacheHitCount)).sum
  llmCallCount := (caseOutcomes.map (·.llmCallCount)).sum
  caseCount := caseOutcomes.length
  caseOutcomes
  funnel := rollupFunnel caseOutcomes
  perGraderPassRate := Aggregator.perGraderPassRate caseOutcomes
  primaryGrader
  errorRate := share (·.errored) caseOutcomes
  confusion := rollupConfusion caseOutcomes

/-- `aggregate_iteration`. -/
def aggregateIteration (caseOutcomes : List CaseOutcome) (primaryMetric : String)
    (reliabilityMetrics : Option (List String)) (primaryGrader : Option String) :
    Except MetricError IterationAggregate :=
  if caseOutcomes.length = 0 then .ok { primaryMetric, primaryValue := 0, primaryGrader }
  else do
    let primaryValue ← computeMetric primaryMetric caseOutcomes primaryGrader
    let reliability ← reliabilityOf caseOutcomes (reliabilityMetrics.getD [])
    return assemble caseOutcomes primaryMetric primaryGrader primaryValue reliability

theorem aggregateIteration_eq {caseOutcomes : List CaseOutcome} (hne : caseOutcomes.length ≠ 0)
    (primaryMetric : String) (reliabilityMetrics : Option (List String))
    (primaryGrader : Option String) :
    aggregateIteration caseOutcomes primaryMetric reliabilityMetrics primaryGrader = do
      let primaryValue ← computeMetric primaryMetric caseOutcomes primaryGrader
      let reliability ← reliabilityOf caseOutcomes (reliabilityMetrics.getD [])
      return assemble caseOutcomes primaryMetric primaryGrader primaryValue reliability := by
  rw [aggregateIteration, if_neg hne]

theorem aggregateIteration_eq_ok {caseOutcomes : List CaseOutcome} {primaryMetric : String}
    {reliabilityMetrics : Option (List String)} {primaryGrader : Option String}
    {a : IterationAggregate}
    (h : aggregateIteration caseOutcomes primaryMetric reliabilityMetrics primaryGrader = .ok a) :
    caseOutcomes = [] ∧ a = { primaryMetric, primaryValue := 0, primaryGrader } ∨
      ∃ primaryValue reliability,
        a = assemble caseOutcomes primaryMetric primaryGrader primaryValue reliability := by
  by_cases hne : caseOutcomes.length = 0
  · rw [aggregateIteration, if_pos hne] at h
    exact Or.inl ⟨List.length_eq_zero_iff.mp hne, (Except.ok.inj h).symm⟩
  · rw [aggregateIteration_eq hne] at h
    cases hvalue : computeMetric primaryMetric caseOutcomes primaryGrader with
    | error e => rw [hvalue] at h; cases h
    | ok primaryValue =>
      cases hreliability : reliabilityOf caseOutcomes (reliabilityMetrics.getD []) with
      | error e => rw [hvalue, hreliability] at h; cases h
      | ok reliability =>
        rw [hvalue, hreliability] at h
        exact Or.inr ⟨primaryValue, reliability, (Except.ok.inj h).symm⟩

theorem caseOutcomes_of_ok {caseOutcomes : List CaseOutcome} {primaryMetric : String}
    {reliabilityMetrics : Option (List String)} {primaryGrader : Option String}
    {a : IterationAggregate}
    (h : aggregateIteration caseOutcomes primaryMetric reliabilityMetrics primaryGrader = .ok a) :
    a.caseOutcomes = caseOutcomes ∧ a.caseCount = caseOutcomes.length := by
  obtain ⟨rfl, rfl⟩ | ⟨primaryValue, reliability, rfl⟩ := aggregateIteration_eq_ok h
  · exact ⟨rfl, rfl⟩
  · exact ⟨rfl, rfl⟩

theorem calls_of_ok {caseOutcomes : List CaseOutcome} {primaryMetric : String}
    {reliabilityMetrics : Option (List String)} {primaryGrader : Option String}
    {a : IterationAggregate}
    (h : aggregateIteration caseOutcomes primaryMetric reliabilityMetrics primaryGrader = .ok a) :
    a.cacheHitCount = (caseOutcomes.map (·.cacheHitCount)).sum ∧
      a.llmCallCount = (caseOutcomes.map (·.llmCallCount)).sum := by
  obtain ⟨rfl, rfl⟩ | ⟨primaryValue, reliability, rfl⟩ := aggregateIteration_eq_ok h
  · exact ⟨rfl, rfl⟩
  · exact ⟨rfl, rfl⟩

end Selfevals.Optimization.Aggregator
