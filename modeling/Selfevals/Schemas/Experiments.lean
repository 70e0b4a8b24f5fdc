import Selfevals.Lib.JsonValue
import Selfevals.Lib.PyInt
import Selfevals.Schemas.Base
import Selfevals.Schemas.Enums

/-!
# Experiments

The contract that drives an optimization run, with all its nested blocks. Integers that a field
bounds below by zero or one are natural numbers, floats are rationals. `Valid` says of each block
what its field constraints and validators say, `Experiment.Valid` of the whole; `legalTransitions`
is the state machine.
-/

namespace Selfevals.Schemas.Experiments

open Lib.JsonValue Lib.PyInt Schemas.Base Schemas.Enums

/-! ### Targets -/

inductive ComparisonOp
  | gt | ge | lt | le | eq
deriving DecidableEq, Repr

instance : Coded ComparisonOp where
  value
    | .gt => ">"
    | .ge => ">="
    | .lt => "<"
    | .le => "<="
    | .eq => "=="
  members := [.gt, .ge, .lt, .le, .eq]

/-- A scalar metric expectation. -/
structure MetricTarget where
  name : String
  operator : ComparisonOp
  value : ℚ
deriving DecidableEq, Repr

/-- The primary metric to optimize, and guardrails that must not regress. -/
structure TargetSpec where
  primary : MetricTarget
  guardrails : List MetricTarget := []
  primaryGrader : Option String := none
deriving DecidableEq, Repr

/-! ### What may change -/

/-- What an experiment is allowed to change. -/
structure EditableContract where
  prompt : Bool := true
  modelParams : Bool := true
  modelChoice : Bool := false
  toolDescriptions : Bool := false
  toolCode : Bool := false
  workflowGraph : Bool := false
  skills : Bool := false
  dataset : Bool := false
  graders : Bool := false
deriving DecidableEq, Repr

def EditableContract.fieldsRequiringAgentLoop (c : EditableContract) : List String :=
  (if c.toolCode then ["tool_code"] else []) ++
    (if c.workflowGraph then ["workflow_graph"] else []) ++ (if c.skills then ["skills"] else [])

/-- The parameter spaces of the proposer; `agents` is the binding axis. -/
structure SearchSpace where
  modelParams : Object := []
  promptVariables : Object := []
  toolParams : Object := []
  agents : List Object := []
deriving Repr

/-- The references pinned for the duration of the experiment. -/
structure FrozenSnapshot where
  fleet : EntityRef
  agents : List EntityRef
  tools : List EntityRef := []
  datasets : List EntityRef
  graders : List EntityRef := []
  riskRegistry : Option EntityRef := none
  featureRegistry : Option EntityRef := none
deriving DecidableEq, Repr

/-- Who proposes, and how. -/
structure ProposerSpec where
  strategy : ProposerStrategy
  allowSearchSpaceExpansion : Bool := false
  parameters : Object := []
deriving Repr

/-- Which datasets are used, and for what. -/
structure DatasetUsage where
  optimization : EntityRef
  gates : List EntityRef := []
deriving DecidableEq, Repr

/-! ### How to run -/

/-- When a run has converged. -/
structure ConvergenceSpec where
  minDelta : ℚ := 5 / 1000
  patience : ℕ := 3
  earlyStop : Option Bool := none
deriving DecidableEq, Repr

/-- How transient agent-call failures are retried. -/
structure RetrySpec where
  maxRetries : ℕ := 2
  baseDelaySeconds : ℚ := 1 / 2
  maxDelaySeconds : ℚ := 30
  multiplier : ℚ := 2
  jitter : ℚ := 1 / 2
deriving DecidableEq, Repr

/-- The request throttle shared by the concurrent cases; off by default. -/
structure RateLimitSpec where
  requestsPerMinute : Option ℕ := none
  burst : Option ℕ := none
deriving DecidableEq, Repr

/-- Which cases are run. -/
inductive SampleStrategy
  | full | stratified | randomSubset
deriving DecidableEq, Repr

instance : Coded SampleStrategy where
  value
    | .full => "full"
    | .stratified => "stratified"
    | .randomSubset => "random_subset"
  members := [.full, .stratified, .randomSubset]

/-- Which traces are stored. -/
inductive PersistTraces
  | none | all | failed
deriving DecidableEq, Repr

instance : Coded PersistTraces where
  value
    | .none => "none"
    | .all => "all"
    | .failed => "failed"
  members := [.none, .all, .failed]

/-- `RunSpec`. -/
structure RunSpec where
  sandbox : SandboxMode
  runtime : RuntimeLocation := .offline
  sampleStrategy : SampleStrategy := .full
  maxIterations : ℕ := 20
  repetitionsPerCase : ℕ := 1
  parallelism : ℕ := 8
  convergence : ConvergenceSpec := {}
  retry : RetrySpec := {}
  rateLimit : RateLimitSpec := {}
  seed : Option ℤ := none
  persistTraces : PersistTraces := .failed
deriving DecidableEq, Repr

/-! ### How judges are defended -/

inductive ConsensusRule
  | majority | unanimous | weighted
deriving DecidableEq, Repr

instance : Coded ConsensusRule where
  value
    | .majority => "majority"
    | .unanimous => "unanimous"
    | .weighted => "weighted"
  members := [.majority, .unanimous, .weighted]

structure JudgePanel where
  panelMembers : List String := []
  consensusRule : ConsensusRule := .majority
deriving DecidableEq, Repr

inductive GenerationStrategy
  | paraphrase | manual
deriving DecidableEq, Repr

instance : Coded GenerationStrategy where
  value
    | .paraphrase => "paraphrase"
    | .manual => "manual"
  members := [.paraphrase, .manual]

structure CounterfactualSpec where
  enabled : Bool := false
  generationStrategy : GenerationStrategy := .paraphrase
  pairsPerCase : ℕ := 3
  maxScoreVariance : ℚ := 5 / 100
deriving DecidableEq, Repr

structure HumanSpotCheckSpec where
  enabled : Bool := false
  sampleRate : ℚ := 5 / 100
  triggerOnJump : ℚ := 1 / 10
deriving DecidableEq, Repr

/-- Real-world outcome signals, required for `live_canary` runs. -/
structure OutcomeMetricsSpec where
  metrics : List String
deriving DecidableEq, Repr

/-- `JudgeDefenses`. -/
structure JudgeDefenses where
  holdoutVisibleToProposer : Bool := false
  overfitPenaltyMaxDelta : ℚ := 5 / 100
  panel : Option JudgePanel := none
  counterfactuals : CounterfactualSpec := {}
  humanSpotCheck : HumanSpotCheckSpec := {}
  adversarialDataset : Option EntityRef := none
  outcomeMetrics : Option OutcomeMetricsSpec := none
deriving DecidableEq, Repr

/-! ### Reliability, decisions, error analysis -/

/-- The reliability metrics that are asked for. -/
structure ReliabilitySpec where
  repetitionsPerCase : ℕ := 1
  metrics : List String := []
deriving DecidableEq, Repr

inductive RegressionFails
  | reject | investigate | spawnSubexperiment
deriving DecidableEq, Repr

instance : Coded RegressionFails where
  value
    | .reject => "reject"
    | .investigate => "investigate"
    | .spawnSubexperiment => "spawn_subexperiment"
  members := [.reject, .investigate, .spawnSubexperiment]

inductive GuardrailFails
  | reject | requireTradeoffReview
deriving DecidableEq, Repr

instance : Coded GuardrailFails where
  value
    | .reject => "reject"
    | .requireTradeoffReview => "require_tradeoff_review"
  members := [.reject, .requireTradeoffReview]

inductive JudgeHumanDisagree
  | escalateToCalibration | investigate
deriving DecidableEq, Repr

instance : Coded JudgeHumanDisagree where
  value
    | .escalateToCalibration => "escalate_to_calibration"
    | .investigate => "investigate"
  members := [.escalateToCalibration, .investigate]

/-- `DecisionPolicy`. -/
structure DecisionPolicy where
  ifRegressionFails : RegressionFails := .reject
  ifGuardrailFails : GuardrailFails := .requireTradeoffReview
  ifJudgeHumanDisagree : JudgeHumanDisagree := .escalateToCalibration
deriving DecidableEq, Repr

inductive AnalysisTrigger
  | failRateAbove
deriving DecidableEq, Repr

instance : Coded AnalysisTrigger where
  value _ := "fail_rate_above"
  members := [.failRateAbove]

/-- When failures are analysed. -/
structure AnalysisTriggerSpec where
  when : AnalysisTrigger := .failRateAbove
  threshold : ℚ := 1 / 10
deriving DecidableEq, Repr

inductive AnalysisTaxonomy
  | workspace
deriving DecidableEq, Repr

instance : Coded AnalysisTaxonomy where
  value _ := "workspace"
  members := [.workspace]

inductive AnalysisScope
  | failedOnly | all
deriving DecidableEq, Repr

instance : Coded AnalysisScope where
  value
    | .failedOnly => "failed_only"
    | .all => "all"
  members := [.failedOnly, .all]

/-- How failures are analysed. -/
structure ErrorAnalysisSpec where
  enabled : Bool := false
  taxonomy : AnalysisTaxonomy := .workspace
  trigger : AnalysisTriggerSpec := {}
  scope : AnalysisScope := .failedOnly
deriving DecidableEq, Repr

structure ExperimentTaxonomy where
  targetFeatures : List String
  targetLevels : List String := []
  datasetTypes : List DatasetType
deriving DecidableEq, Repr

/-! ### The experiment -/

/-- `Experiment`. -/
structure Experiment extends BaseEntity where
  name : String
  goal : String
  mode : Mode
  taxonomy : ExperimentTaxonomy
  datasets : DatasetUsage
  target : TargetSpec
  editable : EditableContract := {}
  searchSpace : SearchSpace := {}
  frozen : FrozenSnapshot
  proposer : ProposerSpec
  run : RunSpec
  judgeDefenses : JudgeDefenses := {}
  reliability : ReliabilitySpec := {}
  decision : DecisionPolicy := {}
  errorAnalysis : ErrorAnalysisSpec := {}
  state : ExperimentState := .draft
  contentHash : Option String := none
deriving Repr

instance : Entity Experiment where
  base e := e.toBaseEntity
  withCreatedAt e t := { e with createdAt := t }
  base_withCreatedAt _ _ := rfl

/-! ### Field constraints and validators -/

/-- A rate: `ge=0.0, le=1.0`. -/
def IsRate (q : ℚ) : Prop := 0 ≤ q ∧ q ≤ 1
deriving Decidable

/-- `NonEmptyStr`. -/
def NonEmpty (s : String) : Prop := s ≠ ""
deriving Decidable

/-- What a reference meets. -/
def EntityRef.Valid (r : EntityRef) : Prop := NonEmpty r.id ∧ ∀ v ∈ r.version, 1 ≤ v
deriving Decidable

/-- What the fields of an entity have to meet. -/
def BaseEntity.Valid (b : BaseEntity) : Prop :=
  NonEmpty b.id ∧ NonEmpty b.workspaceId ∧ 1 ≤ b.version
deriving Decidable

def TargetSpec.Valid (t : TargetSpec) : Prop :=
  NonEmpty t.primary.name ∧ ∀ g ∈ t.guardrails, NonEmpty g.name
deriving Decidable

def FrozenSnapshot.Valid (f : FrozenSnapshot) : Prop :=
  f.agents ≠ [] ∧ f.datasets ≠ [] ∧
    ∀ r ∈ f.fleet :: f.agents ++ f.tools ++ f.datasets ++ f.graders ++ f.riskRegistry.toList ++
      f.featureRegistry.toList, EntityRef.Valid r
deriving Decidable

def DatasetUsage.Valid (d : DatasetUsage) : Prop :=
  ∀ r ∈ d.optimization :: d.gates, EntityRef.Valid r
deriving Decidable

/-- What the retry settings meet. -/
def RetrySpec.Valid (r : RetrySpec) : Prop :=
  r.maxRetries ≤ 10 ∧ (0 < r.baseDelaySeconds ∧ r.baseDelaySeconds ≤ 60) ∧
    (0 < r.maxDelaySeconds ∧ r.maxDelaySeconds ≤ 300) ∧ (1 ≤ r.multiplier ∧ r.multiplier ≤ 10) ∧
    IsRate r.jitter
deriving Decidable

def RateLimitSpec.Valid (r : RateLimitSpec) : Prop :=
  (∀ n ∈ r.requestsPerMinute, 1 ≤ n ∧ n ≤ 100000) ∧ ∀ n ∈ r.burst, 1 ≤ n ∧ n ≤ 100000
deriving Decidable

/-- What the fields of a run have to meet. -/
def RunSpec.Valid (r : RunSpec) : Prop :=
  (1 ≤ r.maxIterations ∧ r.maxIterations ≤ 10000) ∧
    (1 ≤ r.repetitionsPerCase ∧ r.repetitionsPerCase ≤ 100) ∧
    (1 ≤ r.parallelism ∧ r.parallelism ≤ 64) ∧
    (0 ≤ r.convergence.minDelta ∧ 1 ≤ r.convergence.patience) ∧ RetrySpec.Valid r.retry ∧
    RateLimitSpec.Valid r.rateLimit
deriving Decidable

def JudgeDefenses.Valid (j : JudgeDefenses) : Prop :=
  IsRate j.overfitPenaltyMaxDelta ∧ (∀ p ∈ j.panel, ∀ m ∈ p.panelMembers, NonEmpty m) ∧
    (1 ≤ j.counterfactuals.pairsPerCase ∧ IsRate j.counterfactuals.maxScoreVariance) ∧
    (IsRate j.humanSpotCheck.sampleRate ∧ IsRate j.humanSpotCheck.triggerOnJump) ∧
    (∀ r ∈ j.adversarialDataset, EntityRef.Valid r) ∧
    ∀ o ∈ j.outcomeMetrics, o.metrics ≠ [] ∧ ∀ m ∈ o.metrics, NonEmpty m
deriving Decidable

/-- `_RELIABILITY_METRIC_RE`; its `$` also matches before a final line feed. -/
def isReliabilityMetric (m : String) : Bool :=
  let cs := m.toList
  let cs := if cs.getLast? = some '\n' then cs.dropLast else cs
  let isDigits (ds : List Char) := ds ≠ [] && ds.all fun c => (digitValue c).isSome
  ("pass@".toList.isPrefixOf cs && isDigits (cs.drop 5)) ||
    ("pass^".toList.isPrefixOf cs && isDigits (cs.drop 5)) ||
    ["consistency_rate", "stability_score", "recovery_rate"].contains (String.ofList cs)

def ReliabilitySpec.Valid (r : ReliabilitySpec) : Prop :=
  (1 ≤ r.repetitionsPerCase ∧ r.repetitionsPerCase ≤ 100) ∧
    ∀ m ∈ r.metrics, NonEmpty m ∧ isReliabilityMetric m = true
deriving Decidable

def ExperimentTaxonomy.Valid (t : ExperimentTaxonomy) : Prop :=
  (t.targetFeatures ≠ [] ∧ (∀ f ∈ t.targetFeatures, NonEmpty f) ∧ t.targetFeatures.Nodup) ∧
    ((∀ l ∈ t.targetLevels, NonEmpty l) ∧ t.targetLevels.Nodup) ∧
    (t.datasetTypes ≠ [] ∧ t.datasetTypes.Nodup)
deriving Decidable

namespace Experiment

/-- The metrics that `_pass_hat_k_is_reachable` looks at. -/
def declaredMetrics (e : Experiment) : List String :=
  e.target.primary.name :: e.target.guardrails.map (·.name) ++ e.reliability.metrics

/-- The `k` of `pass^k`, as `int(name.split("^", 1)[1])` reads it. -/
def passHatK (name : String) : Option ℤ :=
  if "pass^".toList.isPrefixOf name.toList then parseInt (String.ofList (name.toList.drop 5))
  else none

/-- The strategies that have a proposer. -/
def implementedStrategies : List ProposerStrategy := [.manual, .grid, .random, .llmProposer]

/-- What the model accepts: the constraints of every block, and the validators across blocks. -/
@[mk_iff]
structure Valid (e : Experiment) : Prop where
  base : BaseEntity.Valid e.toBaseEntity
  names : NonEmpty e.name ∧ NonEmpty e.goal
  taxonomy : ExperimentTaxonomy.Valid e.taxonomy
  datasets : DatasetUsage.Valid e.datasets
  target : TargetSpec.Valid e.target
  frozen : FrozenSnapshot.Valid e.frozen
  run : RunSpec.Valid e.run
  judgeDefenses : JudgeDefenses.Valid e.judgeDefenses
  reliability : ReliabilitySpec.Valid e.reliability
  errorAnalysis : IsRate e.errorAnalysis.trigger.threshold
  editableRequiresAgentLoop : e.editable.fieldsRequiringAgentLoop ≠ [] → e.mode = .agentLoop
  liveCanaryRequiresOutcomeMetrics :
    e.run.sandbox = .liveCanary → e.judgeDefenses.outcomeMetrics.isSome
  passHatKIsReachable :
    ∀ name ∈ e.declaredMetrics, ∀ k ∈ passHatK name, k ≤ e.run.repetitionsPerCase
  proposerStrategyIsImplemented : e.proposer.strategy ∈ implementedStrategies

instance (e : Experiment) : Decidable e.Valid := decidable_of_iff' _ e.valid_iff

/-- An experiment that leaves every optional field at its default. -/
def minimal : Experiment where
  id := "exp_1"
  workspaceId := "ws_1"
  createdAt := 0
  updatedAt := 0
  name := "refunds"
  goal := "answer refund questions"
  mode := .agentLoop
  taxonomy := { targetFeatures := ["refunds"], datasetTypes := [.smoke] }
  datasets := { optimization := ⟨"ds_1", some 1⟩ }
  target := { primary := ⟨"pass@1", .ge, 9 / 10⟩ }
  frozen := {
    fleet := ⟨"fleet_1", none⟩
    agents := [⟨"agent_1", none⟩]
    datasets := [⟨"ds_1", none⟩] }
  proposer := { strategy := .grid }
  run := { sandbox := .mock }

theorem minimal_valid : minimal.Valid := by decide +kernel

/-! ### The state machine -/

/-- `_LEGAL_TRANSITIONS`. -/
def legalTransitions : ExperimentState → List ExperimentState
  | .draft => [.queued, .aborted]
  | .queued => [.running, .aborted, .draft]
  | .running => [.paused, .completed, .aborted]
  | .paused => [.running, .aborted, .completed]
  | .completed => [.superseded]
  | .aborted => []
  | .superseded => []

/-- `IllegalStateTransitionError`. -/
structure IllegalStateTransition where
  state : ExperimentState
  newState : ExperimentState
deriving DecidableEq, Repr

/-- `transition_to`. -/
def transitionTo (e : Experiment) (newState : ExperimentState) :
    Except IllegalStateTransition Experiment :=
  if newState ∈ legalTransitions e.state then .ok { e with state := newState }
  else .error ⟨e.state, newState⟩

/-- `is_terminal`. -/
def isTerminal (e : Experiment) : Bool :=
  match e.state with
  | .completed | .aborted | .superseded => true
  | _ => false

theorem transitionTo_of_legal {e : Experiment} {newState : ExperimentState}
    (h : newState ∈ legalTransitions e.state) :
    e.transitionTo newState = .ok { e with state := newState } := by
  unfold transitionTo
  rw [if_pos h]

theorem aborted_mem_legalTransitions {e : Experiment} (h : e.isTerminal = false) :
    .aborted ∈ legalTransitions e.state := by
  unfold isTerminal at h
  cases hs : e.state <;> simp [hs] at h <;> simp [legalTransitions]

end Experiment

end Selfevals.Schemas.Experiments
