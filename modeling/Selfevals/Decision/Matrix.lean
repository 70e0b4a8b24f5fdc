import Selfevals.Lib.Result
import Selfevals.Optimization.Aggregator
import Selfevals.Schemas.Experiments

/-!
# The decision matrix

`evaluateIteration` decides about an iteration: guardrails first, then the target and the baseline.
A guardrail is looked up by name in what the aggregate publishes; one without a value is passed over
with a warning.

A `GuardrailKey` is a name the aggregator publishes a guardrail under, some of them only when there
is something to report. `metricValue` is what a metric is worth over some outcomes, whether or not
it is published.
-/

namespace Selfevals.Decision.Matrix

open Lib.Mapping Lib.Result Schemas.Enums Schemas.Experiments Optimization.Aggregator

/-! ### The evaluator -/

/-- A piece of a text: what stands there, or a number as `:.6g` or `:+.6g` prints it. -/
inductive Piece
  | text (s : String)
  | general (q : ℚ)
  | signed (q : ℚ)
deriving DecidableEq, Repr

/-- A guardrail with the value that fails it. -/
structure Violation where
  guardrail : MetricTarget
  value : ℚ
deriving DecidableEq, Repr

/-- `f"{g.name}={value:.6g} fails {g.operator}{g.value:.6g}"`. -/
def Violation.pieces (v : Violation) : List Piece :=
  [.text (v.guardrail.name ++ "="), .general v.value,
    .text (" fails " ++ Coded.value v.guardrail.operator), .general v.guardrail.value]

/-- The decision on an iteration, with its reasons. -/
structure DecisionEvaluation where
  outcome : DecisionOutcome
  rationale : List Piece
  violatedGuardrails : List Violation := []
  primaryDelta : Option ℚ := none

/-- `_OUTCOME_FOR_REGRESSION`. -/
def outcomeForRegression : RegressionFails → DecisionOutcome
  | .reject => .reject
  | .investigate => .investigate
  | .spawnSubexperiment => .spawnSubexperiment

/-- `_OUTCOME_FOR_GUARDRAIL`. -/
def outcomeForGuardrail : GuardrailFails → DecisionOutcome
  | .reject => .reject
  | .requireTradeoffReview => .requireTradeoffReview

/-- `_check_operator`. -/
def checkOperator (value : ℚ) (op : ComparisonOp) (threshold : ℚ) : Bool :=
  match op with
  | .gt => threshold < value
  | .ge => threshold ≤ value
  | .lt => value < threshold
  | .le => value ≤ threshold
  | .eq => value = threshold

/-- The value a guardrail is held against: among the guardrails, else among the reliability metrics.
-/
def observedValue (aggregate : IterationAggregate) (name : String) : Option ℚ :=
  match aggregate.guardrails.get? name with
  | some value => some value
  | none => aggregate.reliability.get? name

/-- `_guardrails_violated`. -/
def guardrailsViolated (aggregate : IterationAggregate) (guardrails : List MetricTarget) :
    List Violation :=
  guardrails.filterMap fun g =>
    match observedValue aggregate g.name with
    | none => none
    | some value => if checkOperator value g.operator g.value then none else some ⟨g, value⟩

/-- What is logged of a guardrail that has no value: its name, and the names that have one. -/
structure GuardrailWarning where
  guardrail : String
  known : List String

/-- The warnings of `_guardrails_violated`. -/
def guardrailWarnings (aggregate : IterationAggregate) (guardrails : List MetricTarget) :
    List GuardrailWarning :=
  guardrails.filterMap fun g =>
    match observedValue aggregate g.name with
    | none => some ⟨g.name, sortedSet (aggregate.guardrails.keys ++ aggregate.reliability.keys)⟩
    | some _ => none

/-- What is decided when no guardrail is violated. -/
def evaluatePrimary (experiment : Experiment) (aggregate : IterationAggregate)
    (baseline : Option IterationAggregate) : DecisionEvaluation :=
  let target := experiment.target.primary
  let value := aggregate.primaryValue
  let meets := checkOperator value target.operator target.value
  let op := Coded.value target.operator
  match baseline with
  | none =>
    if meets then
      { outcome := .keepCandidate
        rationale :=
          [.text ("first iteration meets target: " ++ target.name ++ "="), .general value,
          .text (" " ++ op ++ " "), .general target.value] }
    else
      { outcome := .investigate
        rationale :=
          [.text ("first iteration below target: " ++ target.name ++ "="), .general value,
          .text (" vs target " ++ op ++ " "), .general target.value,
          .text "; investigate before bailing"] }
  | some baseline =>
    let delta := value - baseline.primaryValue
    if delta ≤ 0 then
      if meets then
        { outcome := .reject
          rationale := [.text ("no improvement: Δ" ++ target.name ++ "="), .signed delta,
            .text " vs baseline ", .general baseline.primaryValue, .text " (still meets target)"]
          primaryDelta := some delta }
      else
        let policy := experiment.decision.ifRegressionFails
        { outcome := outcomeForRegression policy
          rationale := [.text ("regression below target: " ++ target.name ++ "="), .general value,
            .text (" " ++ op ++ " "), .general target.value, .text "; Δ=", .signed delta,
            .text ("; policy=" ++ Coded.value policy)]
          primaryDelta := some delta }
    else
      { outcome := .keepCandidate
        rationale := [.text ("improvement: " ++ target.name ++ "="), .general value, .text " (Δ",
          .signed delta, .text "); guardrails ok"]
        primaryDelta := some delta }

/-- `evaluate_iteration`. -/
def evaluateIteration (experiment : Experiment) (aggregate : IterationAggregate)
    (baseline : Option IterationAggregate) : DecisionEvaluation :=
  let violations := guardrailsViolated aggregate experiment.target.guardrails
  let policy := experiment.decision.ifGuardrailFails
  if violations ≠ [] then
    { outcome := outcomeForGuardrail policy
      rationale := .text "guardrail(s) violated: " ::
        ((violations.map Violation.pieces).intersperse [.text "; "]).flatten ++
        [.text ("; policy=" ++ Coded.value policy)]
      violatedGuardrails := violations
      primaryDelta := baseline.map fun b => aggregate.primaryValue - b.primaryValue }
  else evaluatePrimary experiment aggregate baseline

/-- **The violated guardrails are reported**, whatever is decided. -/
theorem violatedGuardrails_evaluateIteration (experiment : Experiment)
    (aggregate : IterationAggregate) (baseline : Option IterationAggregate) :
    (evaluateIteration experiment aggregate baseline).violatedGuardrails =
      guardrailsViolated aggregate experiment.target.guardrails := by
  unfold evaluateIteration
  dsimp only
  split_ifs with hviolations
  · rfl
  · rw [not_not] at hviolations
    rw [hviolations]
    unfold evaluatePrimary
    dsimp only
    rcases baseline with _ | baseline
    · dsimp only
      split_ifs <;> rfl
    · dsimp only
      split_ifs <;> rfl

/-- The evaluation names the guardrail among those violated. -/
def Reported (evaluation : DecisionEvaluation) (g : MetricTarget) : Prop :=
  ∃ v ∈ evaluation.violatedGuardrails, v.guardrail = g

/-- The evaluation logs that the guardrail cannot be enforced. -/
def Warned (aggregate : IterationAggregate) (guardrails : List MetricTarget) (g : MetricTarget) :
    Prop :=
  ∃ w ∈ guardrailWarnings aggregate guardrails, w.guardrail = g.name

theorem reported_iff_observed {experiment : Experiment} {aggregate : IterationAggregate}
    {baseline : Option IterationAggregate} {g : MetricTarget}
    (hg : g ∈ experiment.target.guardrails) :
    Reported (evaluateIteration experiment aggregate baseline) g ↔
      ∃ value, observedValue aggregate g.name = some value ∧
        checkOperator value g.operator g.value = false := by
  unfold Reported
  rw [violatedGuardrails_evaluateIteration]
  constructor
  · rintro ⟨v, hv, rfl⟩
    obtain ⟨g', -, hg'⟩ := List.mem_filterMap.mp hv
    rcases hvalue : observedValue aggregate g'.name with _ | value
    · rw [hvalue] at hg'
      cases hg'
    · rw [hvalue] at hg'
      dsimp only at hg'
      split_ifs at hg' with hcheck
      obtain rfl := Option.some.inj hg'
      exact ⟨value, hvalue, by simpa using hcheck⟩
  · rintro ⟨value, hvalue, hcheck⟩
    exact ⟨⟨g, value⟩, List.mem_filterMap.mpr ⟨g, hg, by simp [hvalue, hcheck]⟩, rfl⟩

theorem warned_iff_observed {aggregate : IterationAggregate} {guardrails : List MetricTarget}
    {g : MetricTarget} (hg : g ∈ guardrails) :
    Warned aggregate guardrails g ↔ observedValue aggregate g.name = none := by
  constructor
  · rintro ⟨w, hw, hname⟩
    obtain ⟨g', -, hg'⟩ := List.mem_filterMap.mp hw
    rcases hvalue : observedValue aggregate g'.name with _ | value
    · rw [hvalue] at hg'
      obtain rfl := Option.some.inj hg'
      dsimp only at hname
      rw [← hname, hvalue]
    · rw [hvalue] at hg'
      cases hg'
  · intro hvalue
    exact ⟨_, List.mem_filterMap.mpr ⟨g, hg, by rw [hvalue]⟩, rfl⟩

/-! ### What is published -/

/-- The names under which guardrails are published. -/
inductive GuardrailKey
  | costUsdPerCase | latencyMsPerCaseAvg | latencyMsP50 | latencyMsP95 | latencyMsP99
  | weightedFailureTotal | weightedFailurePerCase | criticalFailureCount
deriving DecidableEq, Repr

instance : Coded GuardrailKey where
  value
    | .costUsdPerCase => "cost_usd_per_case"
    | .latencyMsPerCaseAvg => "latency_ms_per_case_avg"
    | .latencyMsP50 => "latency_ms_p50"
    | .latencyMsP95 => "latency_ms_p95"
    | .latencyMsP99 => "latency_ms_p99"
    | .weightedFailureTotal => "weighted_failure_total"
    | .weightedFailurePerCase => "weighted_failure_per_case"
    | .criticalFailureCount => "critical_failure_count"
  members := [.costUsdPerCase, .latencyMsPerCaseAvg, .latencyMsP50, .latencyMsP95, .latencyMsP99,
    .weightedFailureTotal, .weightedFailurePerCase, .criticalFailureCount]

section Outcomes
variable (outcomes : List CaseOutcome)

/-- The cost of all cases. -/
def totalCost : ℚ := (outcomes.map (·.costUsd)).sum

/-- The duration of all cases. -/
def totalDuration : ℤ := (outcomes.map (·.durationMs)).sum

/-- The weighted failures of all cases. -/
def weightedTotal : ℤ := (outcomes.map (·.weightedFailures)).sum

/-- The critical failures of all cases. -/
def criticalCount : ℕ := (outcomes.map (·.criticalFailures)).sum

/-- The durations of the cases, in order. -/
def latencies : List ℚ := sorted (outcomes.map fun o => (o.durationMs : ℚ))

namespace GuardrailKey

/-- There is something to report under the key. -/
def Published : GuardrailKey → Prop
  | .costUsdPerCase => 0 < totalCost outcomes
  | .latencyMsPerCaseAvg | .latencyMsP50 | .latencyMsP95 | .latencyMsP99 =>
    0 < totalDuration outcomes
  | .weightedFailureTotal | .weightedFailurePerCase => 0 < weightedTotal outcomes
  | .criticalFailureCount => True

instance (key : GuardrailKey) : Decidable (key.Published outcomes) := by
  cases key <;> unfold Published <;> infer_instance

/-- The number under the key. -/
def number : GuardrailKey → ℚ
  | .costUsdPerCase => totalCost outcomes / outcomes.length
  | .latencyMsPerCaseAvg => totalDuration outcomes / outcomes.length
  | .latencyMsP50 => percentile (latencies outcomes) (1 / 2)
  | .latencyMsP95 => percentile (latencies outcomes) (19 / 20)
  | .latencyMsP99 => percentile (latencies outcomes) (99 / 100)
  | .weightedFailureTotal => weightedTotal outcomes
  | .weightedFailurePerCase => weightedTotal outcomes / outcomes.length
  | .criticalFailureCount => criticalCount outcomes

end GuardrailKey

/-- What a metric is worth over some outcomes: a guardrail key is worth 0 when nothing was spent or
weighted. -/
def metricValue (name : String) : Except MetricError ℚ :=
  match (Coded.ofValue name : Option GuardrailKey) with
  | some key => .ok (if key.Published outcomes then key.number outcomes else 0)
  | none => computeMetric name outcomes none

/-- The iteration publishes the metric: as a reliability metric, or as a guardrail that has
something to report. -/
def Published (reliabilityMetrics : List String) (name : String) : Prop :=
  name ∈ reliabilityMetrics ∨ ∃ key : GuardrailKey, Coded.value key = name ∧ key.Published outcomes

end Outcomes

section Aggregate
variable {outcomes : List CaseOutcome} {primaryMetric : String} {primaryGrader : Option String}
  {primaryValue : ℚ} {reliability : Dict String ℚ}

theorem get?_guardrails_key (key : GuardrailKey) :
    (assemble outcomes primaryMetric primaryGrader primaryValue reliability).guardrails.get?
        (Coded.value key) =
      if key.Published outcomes then some (key.number outcomes) else none := by
  have hcost : (outcomes.map (·.costUsd)).sum = totalCost outcomes := rfl
  have hduration : (outcomes.map (·.durationMs)).sum = totalDuration outcomes := rfl
  have hweighted : (outcomes.map (·.weightedFailures)).sum = weightedTotal outcomes := rfl
  have hlatencies : sorted (outcomes.map fun o => (o.durationMs : ℚ)) = latencies outcomes := rfl
  have hcritical : (outcomes.map (·.criticalFailures)).sum = criticalCount outcomes := rfl
  simp only [assemble, guardrailsOf, hcost, hduration, hweighted, hlatencies, hcritical]
  by_cases hc : 0 < totalCost outcomes <;> by_cases hd : 0 < totalDuration outcomes <;>
    by_cases hw : 0 < weightedTotal outcomes <;>
    simp only [hc, hd, hw, if_true, if_false] <;> cases key <;>
    simp [Coded.value, Dict.get?_set, GuardrailKey.Published, GuardrailKey.number, hc, hd, hw]

theorem get?_guardrails_of_not_key {name : String}
    (hname : (Coded.ofValue name : Option GuardrailKey) = none) :
    (assemble outcomes primaryMetric primaryGrader primaryValue reliability).guardrails.get? name =
      none := by
  have hne : ∀ key : GuardrailKey, name ≠ Coded.value key := by
    rintro key rfl
    rw [Coded.ofValue_value] at hname
    cases hname
  simp only [assemble, guardrailsOf]
  have h1 : name ≠ "cost_usd_per_case" := hne .costUsdPerCase
  have h2 : name ≠ "latency_ms_per_case_avg" := hne .latencyMsPerCaseAvg
  have h3 : name ≠ "latency_ms_p50" := hne .latencyMsP50
  have h4 : name ≠ "latency_ms_p95" := hne .latencyMsP95
  have h5 : name ≠ "latency_ms_p99" := hne .latencyMsP99
  have h6 : name ≠ "weighted_failure_total" := hne .weightedFailureTotal
  have h7 : name ≠ "weighted_failure_per_case" := hne .weightedFailurePerCase
  have h8 : name ≠ "critical_failure_count" := hne .criticalFailureCount
  split_ifs <;> simp [Dict.get?_set, h1, h2, h3, h4, h5, h6, h7, h8]

end Aggregate

theorem get?_reliabilityOf {outcomes : List CaseOutcome} {metrics : List String}
    {reliability : Dict String ℚ} (h : reliabilityOf outcomes metrics = .ok reliability)
    (m : String) :
    if m ∈ metrics then
      ∃ value, computeMetric m outcomes none = .ok value ∧ reliability.get? m = some value
    else reliability.get? m = none := by
  have hfold : ∀ (ms : List String) (d d' : Dict String ℚ),
      ms.foldlM (fun d m => (computeMetric m outcomes none).map fun value => d.set m value) d =
          .ok d' →
        if m ∈ ms then ∃ value, computeMetric m outcomes none = .ok value ∧ d'.get? m = some value
        else d'.get? m = d.get? m := by
    intro ms
    induction ms with
    | nil =>
      intro d d' h
      obtain rfl := Except.ok.inj h
      rw [if_neg List.not_mem_nil]
    | cons m' ms ih =>
      intro d d' h
      rw [List.foldlM_cons] at h
      obtain ⟨d₁, hd₁, hrest⟩ := bind_eq_ok.mp h
      obtain ⟨value, hvalue, rfl⟩ := map_eq_ok.mp hd₁
      have htail := ih _ _ hrest
      by_cases hin : m ∈ ms
      · rw [if_pos hin] at htail
        rw [if_pos (List.mem_cons_of_mem _ hin)]
        exact htail
      · rw [if_neg hin] at htail
        by_cases hm : m = m'
        · subst hm
          rw [if_pos List.mem_cons_self]
          exact ⟨value, hvalue, htail.trans (Dict.get?_set_self _ _ _)⟩
        · rw [if_neg fun h => (List.mem_cons.mp h).elim hm hin, htail, Dict.get?_set, if_neg hm]
  have hempty := hfold metrics .empty reliability h
  rwa [Dict.get?_empty] at hempty

theorem isReliabilityMetric_key (key : GuardrailKey) :
    isReliabilityMetric (Coded.value key) = false := by
  cases key <;> decide

theorem published_of_not_key {outcomes : List CaseOutcome} {metrics : List String} {name : String}
    (hkey : (Coded.ofValue name : Option GuardrailKey) = none) :
    Published outcomes metrics name ↔ name ∈ metrics := by
  refine ⟨fun h => h.resolve_right ?_, .inl⟩
  rintro ⟨key, rfl, -⟩
  rw [Coded.ofValue_value] at hkey
  cases hkey

/-- **What an aggregate has under a name** is the value of the metric, where it is published. -/
theorem observedValue_of_ok {outcomes : List CaseOutcome} (hne : outcomes ≠ [])
    {primaryMetric : String} {primaryGrader : Option String} {metrics : List String}
    (hmetrics : ∀ m ∈ metrics, isReliabilityMetric m = true) {aggregate : IterationAggregate}
    (h : aggregateIteration outcomes primaryMetric (some metrics) primaryGrader = .ok aggregate)
    {name : String} {value : ℚ} (hvalue : metricValue outcomes name = .ok value) :
    (Published outcomes metrics name → observedValue aggregate name = some value) ∧
      (¬Published outcomes metrics name → observedValue aggregate name = none) := by
  rw [aggregateIteration_eq (by simpa using hne), Option.getD_some] at h
  obtain ⟨primaryValue, -, h⟩ := bind_eq_ok.mp h
  obtain ⟨reliability, hreliability, h⟩ := bind_eq_ok.mp h
  obtain rfl := Except.ok.inj h
  have hread := get?_reliabilityOf hreliability name
  unfold observedValue
  rcases hkey : (Coded.ofValue name : Option GuardrailKey) with _ | key
  · rw [metricValue, hkey] at hvalue
    rw [get?_guardrails_of_not_key hkey, published_of_not_key hkey]
    constructor
    · intro hin
      rw [if_pos hin] at hread
      obtain ⟨value', hvalue', hread⟩ := hread
      obtain rfl := Except.ok.inj (hvalue.symm.trans hvalue')
      exact hread
    · intro hin
      rw [if_neg hin] at hread
      exact hread
  · obtain rfl := Coded.value_of_ofValue hkey
    have hout : Coded.value key ∉ metrics := fun hin => by
      have hmetric := hmetrics _ hin
      rw [isReliabilityMetric_key] at hmetric
      exact Bool.noConfusion hmetric
    have hpublished : Published outcomes metrics (Coded.value key) ↔ key.Published outcomes := by
      refine ⟨?_, fun h => .inr ⟨key, rfl, h⟩⟩
      rintro (hin | ⟨key', hname, h⟩)
      · exact absurd hin hout
      · exact Coded.value_injective hname ▸ h
    rw [metricValue, hkey] at hvalue
    obtain rfl := Except.ok.inj hvalue
    rw [if_neg hout] at hread
    rw [get?_guardrails_key, hpublished]
    constructor
    · intro hpub
      rw [if_pos hpub, if_pos hpub]
    · intro hpub
      rw [if_neg hpub]
      exact hread

/-- **A guardrail is reported as violated when its value is published and fails its comparison**;
one whose value is not published is taken to pass, with a warning. -/
theorem reported_iff (experiment : Experiment) (hvalid : experiment.Valid) (g : MetricTarget)
    (hg : g ∈ experiment.target.guardrails) (outcomes : List CaseOutcome) (hne : outcomes ≠ [])
    (value : ℚ) (hvalue : metricValue outcomes g.name = .ok value) (aggregate : IterationAggregate)
    (haggregate : aggregateIteration outcomes experiment.target.primary.name
      (some experiment.reliability.metrics) experiment.target.primaryGrader = .ok aggregate)
    (baseline : Option IterationAggregate) :
    (Reported (evaluateIteration experiment aggregate baseline) g ↔
        Published outcomes experiment.reliability.metrics g.name ∧
          checkOperator value g.operator g.value = false) ∧
      (Warned aggregate experiment.target.guardrails g ↔
        ¬Published outcomes experiment.reliability.metrics g.name) := by
  have hmetrics : ∀ m ∈ experiment.reliability.metrics, isReliabilityMetric m = true := fun m hm =>
    (hvalid.reliability.2 m hm).2
  obtain ⟨hpublished, hnot⟩ := observedValue_of_ok hne hmetrics haggregate hvalue
  rw [reported_iff_observed hg, warned_iff_observed hg]
  by_cases hpub : Published outcomes experiment.reliability.metrics g.name
  · rw [hpublished hpub]
    simp [hpub]
  · rw [hnot hpub]
    simp [hpub]

/-! ### A guardrail that nothing publishes -/

/-- An experiment with the guardrail `pass^1 >= 1`, which asks for no reliability metric. -/
def gated : Experiment :=
  { Experiment.minimal with
    target := { primary := ⟨"pass@1", .ge, 9 / 10⟩, guardrails := [⟨"pass^1", .ge, 1⟩] } }

/-- One case, whose one repetition failed. -/
def failing : CaseOutcome where
  caseId := "case_1"
  perRepetitionLabel := [.fail]
  perRepetitionScore := [0]

/-- An experiment with a guardrail that it also asks for. -/
def gatedReliably : Experiment :=
  { gated with reliability := { metrics := ["pass^1"] } }

/-- What the failing case is rolled up into, with `pass^1` among the reliability metrics. -/
def failingAggregate : IterationAggregate :=
  assemble [failing] "pass@1" none 0 (Dict.empty.set "pass^1" 0)

theorem aggregateIteration_failing :
    aggregateIteration [failing] "pass@1" (some ["pass^1"]) none = .ok failingAggregate := by
  have hprimary : computeMetric "pass@1" [failing] none = .ok 0 := by decide +kernel
  have hreliability : computeMetric "pass^1" [failing] none = .ok 0 := by decide +kernel
  rw [aggregateIteration_eq (by decide), hprimary]
  simp only [reliabilityOf, Option.getD_some, List.foldlM_cons, List.foldlM_nil, hreliability]
  rfl

/-- Asked for as a reliability metric, the guardrail is enforced. -/
theorem reported_pass_hat :
    Reported (evaluateIteration gatedReliably failingAggregate none) ⟨"pass^1", .ge, 1⟩ :=
  (reported_iff gatedReliably (by decide +kernel) ⟨"pass^1", .ge, 1⟩ (by decide) [failing]
    (by simp) 0 (by decide +kernel) failingAggregate aggregateIteration_failing none).1.mpr
      ⟨.inl (by decide), by decide +kernel⟩

/-- Where nothing asks for it, no value fails it. -/
theorem not_reported_pass_hat : ¬∀ (experiment : Experiment) (g : MetricTarget)
    (outcomes : List CaseOutcome) (value : ℚ) (aggregate : IterationAggregate)
    (baseline : Option IterationAggregate), experiment.Valid →
    g ∈ experiment.target.guardrails → outcomes ≠ [] → metricValue outcomes g.name = .ok value →
    aggregateIteration outcomes experiment.target.primary.name
      (some experiment.reliability.metrics) experiment.target.primaryGrader = .ok aggregate →
    (Reported (evaluateIteration experiment aggregate baseline) g ↔
      checkOperator value g.operator g.value = false) := by
  intro h
  have haggregate : ∃ aggregate,
      aggregateIteration [failing] "pass@1" (some []) none = .ok aggregate := ⟨_, rfl⟩
  obtain ⟨aggregate, haggregate⟩ := haggregate
  have hreported := (h gated ⟨"pass^1", .ge, 1⟩ [failing] 0 aggregate none (by decide +kernel)
    (by decide) (by simp) (by decide +kernel) haggregate).mpr (by decide +kernel)
  obtain ⟨value, hobserved, -⟩ := (reported_iff_observed (by decide)).mp hreported
  have hvalue : metricValue [failing] "pass^1" = .ok 0 := by decide +kernel
  have hnone := (observedValue_of_ok (by simp) (by simp) haggregate hvalue).2 (by
    rw [published_of_not_key (by decide)]
    exact List.not_mem_nil)
  have hsome : observedValue aggregate "pass^1" = some value := hobserved
  rw [hnone] at hsome
  cases hsome

end Selfevals.Decision.Matrix
