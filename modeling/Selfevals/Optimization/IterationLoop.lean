import Selfevals.Optimization.Coordinator
import Selfevals.Schemas.Iterations

/-!
# The iterations of a run

`OptimizationLoop._run_iterations` runs one iteration after the other and stores a record and a
decision of each. What an iteration runs is in hand (`OptimizationLoop`) or in the outcome rows its
workers left (`RunCoordinator`), which then has no case runs in hand. The proposer, the agents, the
graders and the evaluator are the input of the iteration.

* `fromDict_toDict`: a funnel reads back from its dicts.
-/

namespace Selfevals.Optimization.IterationLoop

open Graders.Confusion Lib.Mapping Optimization.Aggregator Optimization.Coordinator Schemas.Enums
  Schemas.Experiments Schemas.Iterations Storage.ScenarioQueries Worker.ScenarioRunner

/-! ### Funnels as dicts -/

mutual

/-- `to_dict`. -/
def FunnelNode.toDict : FunnelNode → FunnelDict
  | .mk key count meanScore totalWeight labelCounts failureModeCounts children =>
    { key, count := some count, meanScore, totalWeight := some totalWeight, labelCounts,
      failureModeCounts, children := toDicts children }

def toDicts : List (String × FunnelNode) → List (String × FunnelDict)
  | [] => []
  | (key, node) :: nodes => (key, FunnelNode.toDict node) :: toDicts nodes

end

mutual

/-- `from_dict`. -/
def FunnelNode.fromDict : FunnelDict → FunnelNode
  | .mk key count meanScore totalWeight labelCounts failureModeCounts children =>
    { key, count := count.getD 0, meanScore, totalWeight := totalWeight.getD 0, labelCounts,
      failureModeCounts, children := fromDicts children }

def fromDicts : List (String × FunnelDict) → List (String × FunnelNode)
  | [] => []
  | (key, dict) :: dicts => (key, FunnelNode.fromDict dict) :: fromDicts dicts

end

mutual

theorem fromDict_toDict : ∀ node : FunnelNode, FunnelNode.fromDict (FunnelNode.toDict node) = node
  | .mk key count meanScore totalWeight labelCounts failureModeCounts children => by
    have hchildren := fromDicts_toDicts children
    simp [FunnelNode.toDict, FunnelNode.fromDict, hchildren]

/-- **A funnel reads back from its dicts.** -/
theorem fromDicts_toDicts : ∀ nodes : List (String × FunnelNode), fromDicts (toDicts nodes) = nodes
  | [] => rfl
  | (key, node) :: nodes => by
    rw [toDicts, fromDicts, fromDict_toDict node, fromDicts_toDicts nodes]

end

/-! ### One iteration -/

/-- The run of a case, whose traces are left out. -/
structure CaseRun where
  caseId : String
deriving DecidableEq, Repr

/-- What an iteration aggregates: the case runs and their outcomes, or the rows of a run job. -/
inductive Execution
  | inProcess (results : List (CaseRun × CaseOutcome))
  | coordinated (store : Store) (runJobId : String)

/-- `_run_iteration`: the aggregate, and the case runs in hand; `none` where it raises. -/
def runIteration (e : Experiment) (iteration : ℕ) :
    Execution → Option (IterationAggregate × List CaseRun)
  | .inProcess results =>
    match aggregateIteration (results.map Prod.snd) e.target.primary.name
        (some e.reliability.metrics) e.target.primaryGrader with
    | .ok aggregate => some (aggregate, results.map Prod.fst)
    | .error _ => none
  | .coordinated store runJobId =>
    match aggregateIterationFromStorage store runJobId iteration e.target.primary.name
        (some e.reliability.metrics) e.target.primaryGrader with
    | some (.ok aggregate) => some (aggregate, [])
    | _ => none

/-- The metrics of an aggregate; `none` for the `ValidationError`. -/
def iterationMetrics (aggregate : IterationAggregate) (baseline : Option IterationAggregate) :
    Option IterationMetrics :=
  let primary : MetricObservation := {
    name := aggregate.primaryMetric
    value := aggregate.primaryValue
    deltaVsBaseline := baseline.map fun b => aggregate.primaryValue - b.primaryValue }
  let guardrails : List MetricObservation :=
    aggregate.guardrails.items.map fun item => { name := item.1, value := item.2 }
  let costUsd := if aggregate.totalCostUsd = 0 then none else some aggregate.totalCostUsd
  let durationSeconds : Option ℚ :=
    if aggregate.totalDurationMs = 0 then none else some (aggregate.totalDurationMs / 1000)
  if h : (∀ observation ∈ primary :: guardrails, observation.name ≠ "") ∧
      (∀ cost ∈ costUsd, 0 ≤ cost) ∧ (∀ duration ∈ durationSeconds, 0 ≤ duration) ∧
      0 ≤ aggregate.errorRate ∧ aggregate.errorRate ≤ 1 then
    some {
      primary
      guardrails
      reliability := aggregate.reliability
      costUsd
      durationSeconds
      errorRate := aggregate.errorRate
      failureModeCounts := aggregate.failureModeCounts
      funnel := toDicts aggregate.funnel
      confusion := aggregate.confusion
      names_ne := h.1
      costUsd_nonneg := h.2.1
      durationSeconds_nonneg := h.2.2.1
      errorRate_bounds := h.2.2.2 }
  else none

/-- `_build_iteration_record`. -/
def buildIterationRecord (e : Experiment) (iteration : ℕ) (proposal : Proposal)
    (aggregate : IterationAggregate) (caseRuns : List CaseRun) (outcome : DecisionOutcome)
    (rationale : String) (baseline : Option IterationAggregate) : Option IterationRecord := do
  let metrics ← iterationMetrics aggregate baseline
  if h : rationale ≠ "" then
    return {
      experimentId := e.id
      iteration
      hypothesis := proposal.hypothesis
      proposedParameters := proposal.parameters
      ranAgainst := Dict.empty.set "case_count" caseRuns.length
      metrics := some metrics
      decision := some ⟨outcome, rationale, h⟩ }
  else none

/-- `_build_decision_record`. -/
def buildDecisionRecord (e : Experiment) (iteration : ℕ) (outcome : DecisionOutcome)
    (rationale : String) : DecisionRecord where
  experimentId := e.id
  iteration
  outcome
  rationale

/-! ### The run -/

/-- What the loop remembers of an iteration. -/
structure IterationOutcome where
  iteration : ℕ
  proposal : Proposal
  aggregate : IterationAggregate
  iterationRecord : IterationRecord
  decisionRecord : DecisionRecord

/-- What comes from outside: the proposal, what is run, and the evaluator's verdict. -/
structure IterationInput where
  proposal : Proposal
  execution : Execution
  outcome : DecisionOutcome
  rationale : String

/-- One round of `_run_iterations`. -/
def runRound (e : Experiment) (iteration : ℕ) (baseline : Option IterationAggregate)
    (input : IterationInput) : Option IterationOutcome := do
  let (aggregate, caseRuns) ← runIteration e iteration input.execution
  let iterationRecord ← buildIterationRecord e iteration input.proposal aggregate caseRuns
    input.outcome input.rationale baseline
  return {
    iteration
    proposal := input.proposal
    aggregate
    iterationRecord
    decisionRecord := buildDecisionRecord e iteration input.outcome input.rationale }

/-- The best aggregate so far. -/
def nextBaseline (baseline : Option IterationAggregate) (aggregate : IterationAggregate) :
    Option IterationAggregate :=
  match baseline with
  | none => some aggregate
  | some best => if best.primaryValue < aggregate.primaryValue then some aggregate else some best

/-- The rounds of `_run_iterations`, from one on; when they end is up to the input. -/
def runIterations (e : Experiment) (iteration : ℕ) (baseline : Option IterationAggregate) :
    List IterationInput → Option (List IterationOutcome)
  | [] => some []
  | input :: inputs => do
    let outcome ← runRound e iteration baseline input
    let outcomes ← runIterations e (iteration + 1) (nextBaseline baseline outcome.aggregate) inputs
    return outcome :: outcomes

/-- **Each iteration of a run** is a round, with its own number and input. -/
theorem runIterations_getElem? {e : Experiment} {inputs : List IterationInput} :
    ∀ {start : ℕ} {baseline : Option IterationAggregate} {live : List IterationOutcome},
      runIterations e start baseline inputs = some live → live.length = inputs.length ∧
        ∀ i it, live[i]? = some it → ∃ input baseline, inputs[i]? = some input ∧
          runRound e (start + i) baseline input = some it := by
  induction inputs with
  | nil =>
    intro start baseline live h
    obtain rfl := Option.some.inj h
    exact ⟨rfl, fun i it hit => by simp at hit⟩
  | cons input inputs ih =>
    intro start baseline live h
    simp only [runIterations, Option.bind_eq_bind, Option.bind_eq_some_iff] at h
    obtain ⟨outcome, hround, outcomes, hrest, hlive⟩ := h
    obtain rfl := Option.some.inj hlive
    obtain ⟨hlen, hrounds⟩ := ih hrest
    refine ⟨by rw [List.length_cons, List.length_cons, hlen], fun i it hit => ?_⟩
    cases i with
    | zero =>
      obtain rfl := Option.some.inj hit
      exact ⟨input, baseline, rfl, hround⟩
    | succ i =>
      obtain ⟨input', baseline', hinput, hround'⟩ := hrounds i it hit
      refine ⟨input', baseline', hinput, ?_⟩
      rw [← hround']
      congr 1
      omega

theorem runRound_records {e : Experiment} {iteration : ℕ} {baseline : Option IterationAggregate}
    {input : IterationInput} {it : IterationOutcome}
    (h : runRound e iteration baseline input = some it) :
    it.iterationRecord.experimentId = e.id ∧ it.iterationRecord.iteration = iteration ∧
      it.iterationRecord.metrics.isSome ∧ it.decisionRecord.experimentId = e.id ∧
      it.decisionRecord.iteration = iteration := by
  simp only [runRound, Option.bind_eq_bind, Option.bind_eq_some_iff] at h
  obtain ⟨⟨agg, caseRuns⟩, -, record, hrecord, hit⟩ := h
  obtain rfl := Option.some.inj hit
  simp only [buildIterationRecord, Option.bind_eq_bind, Option.bind_eq_some_iff] at hrecord
  obtain ⟨metrics, -, hrecord⟩ := hrecord
  split_ifs at hrecord
  obtain rfl := Option.some.inj hrecord
  exact ⟨rfl, rfl, rfl, rfl, rfl⟩

theorem pairwise_records {e : Experiment} {inputs : List IterationInput}
    {live : List IterationOutcome} (hrun : runIterations e 0 none inputs = some live) :
    (live.map (·.iterationRecord)).Pairwise fun a b => a.iteration < b.iteration := by
  have hnumber : ∀ i (hi : i < live.length), live[i].iterationRecord.iteration = i := by
    intro i hi
    obtain ⟨input, baseline, -, hround⟩ :=
      (runIterations_getElem? hrun).2 i live[i] (List.getElem?_eq_getElem hi)
    rw [(runRound_records hround).2.1, Nat.zero_add]
  rw [List.pairwise_map, List.pairwise_iff_getElem]
  intro i j hi hj hij
  rw [hnumber i hi, hnumber j hj]
  exact hij

end Selfevals.Optimization.IterationLoop
