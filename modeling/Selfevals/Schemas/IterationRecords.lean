import Selfevals.Schemas.Experiments
import Selfevals.Schemas.Iterations

/-!
# Iteration records as they are stored

An iteration record with all its fields. Free-form dicts are kept as JSON objects; the two dicts
that go into tables of their own, `reliability` and `failure_mode_counts`, are dicts, and two
records are the `Same` if they differ in the order of these alone. `Valid` says of each block what
its field constraints and validators say.
-/

namespace Selfevals.Schemas.IterationRecords

open Lib.JsonValue Lib.Mapping Schemas.Base Schemas.Enums Schemas.Experiments
open Schemas.Iterations (MetricObservation)

inductive IterationState
  | completed | failed | paused
deriving DecidableEq, Repr

instance : Coded IterationState where
  value
    | .completed => "completed"
    | .failed => "failed"
    | .paused => "paused"
  members := [.completed, .failed, .paused]

/-- What the proposer was looking at when it proposed. -/
structure ProposerInputs where
  type : ProposerStrategy
  strategyParameters : Object := []
  iterationsConsulted : List ℤ := []
  failureModesConsulted : List String := []

structure ExecutionInfo where
  variantId : String
  ranAgainst : Object := []
  traceRunIds : List String := []

/-- `IterationMetrics`. -/
structure IterationMetrics where
  primary : MetricObservation
  guardrails : List MetricObservation := []
  reliability : Dict String ℚ := .empty
  costUsd : Option ℚ := none
  durationSeconds : Option ℚ := none
  errorRate : ℚ := 0
  failureModeCounts : Dict String ℤ := .empty
  funnel : Object := []
  confusion : Option Object := none

structure IterationDecision where
  outcome : DecisionOutcome
  rationale : String
  nextAction : Option String := none
deriving DecidableEq, Repr

/-- `IterationRecord`. -/
structure IterationRecord extends BaseEntity where
  experimentId : String
  iteration : ℕ
  parentIteration : Option ℕ := none
  state : IterationState
  proposer : ProposerInputs
  hypothesis : String
  proposedParameters : Object := []
  execution : ExecutionInfo
  metrics : Option IterationMetrics := none
  decision : Option IterationDecision := none
  durationSeconds : Option ℚ := none
  costUsd : Option ℚ := none

instance : Entity IterationRecord where
  base r := r.toBaseEntity
  withCreatedAt r createdAt := { r with createdAt := createdAt }
  base_withCreatedAt _ _ := rfl

/-! ### Equality -/

/-- Equal metrics; the order of a dict does not count. -/
def IterationMetrics.Same (m m' : IterationMetrics) : Prop :=
  m.reliability.Same m'.reliability ∧ m.failureModeCounts.Same m'.failureModeCounts ∧
    { m with reliability := m'.reliability, failureModeCounts := m'.failureModeCounts } = m'

/-- Equal records; the order of a dict does not count. -/
def IterationRecord.Same (r r' : IterationRecord) : Prop :=
  Option.Rel IterationMetrics.Same r.metrics r'.metrics ∧ { r with metrics := r'.metrics } = r'

/-! ### Field constraints and validators -/

def ExecutionInfo.Valid (e : ExecutionInfo) : Prop :=
  NonEmpty e.variantId ∧ ∀ id ∈ e.traceRunIds, NonEmpty id
deriving Decidable

def IterationMetrics.Valid (m : IterationMetrics) : Prop :=
  (∀ observation ∈ m.primary :: m.guardrails, NonEmpty observation.name) ∧
    (∀ cost ∈ m.costUsd, 0 ≤ cost) ∧ (∀ duration ∈ m.durationSeconds, 0 ≤ duration) ∧
    IsRate m.errorRate
deriving Decidable

def IterationDecision.Valid (d : IterationDecision) : Prop :=
  NonEmpty d.rationale ∧ ∀ action ∈ d.nextAction, NonEmpty action
deriving Decidable

namespace IterationRecord

/-- What the model accepts. -/
@[mk_iff]
structure Valid (r : IterationRecord) : Prop where
  base : BaseEntity.Valid r.toBaseEntity
  names : NonEmpty r.experimentId ∧ NonEmpty r.hypothesis
  execution : ExecutionInfo.Valid r.execution
  metrics : ∀ m ∈ r.metrics, IterationMetrics.Valid m
  decision : ∀ d ∈ r.decision, IterationDecision.Valid d
  durationSeconds : ∀ duration ∈ r.durationSeconds, 0 ≤ duration
  costUsd : ∀ cost ∈ r.costUsd, 0 ≤ cost
  completedRequiresMetricsAndDecision :
    r.state = .completed → r.metrics.isSome ∧ r.decision.isSome
  parentIterationIsEarlier : ∀ p ∈ r.parentIteration, p < r.iteration

instance (r : IterationRecord) : Decidable r.Valid := decidable_of_iff' _ r.valid_iff

theorem Valid.withCreatedAt {r : IterationRecord} (h : r.Valid) (createdAt : Time) :
    ({ r with createdAt := createdAt } : IterationRecord).Valid :=
  ⟨h.base, h.names, h.execution, h.metrics, h.decision, h.durationSeconds, h.costUsd,
    h.completedRequiresMetricsAndDecision, h.parentIterationIsEarlier⟩

/-- A record that leaves every optional field at its default. -/
def minimal : IterationRecord where
  id := "itr_1"
  workspaceId := "ws_1"
  createdAt := 0
  updatedAt := 0
  experimentId := "exp_1"
  iteration := 0
  state := .paused
  proposer := { type := .grid }
  hypothesis := "baseline"
  execution := { variantId := "v_0" }

theorem minimal_valid : minimal.Valid := by decide +kernel

end IterationRecord

end Selfevals.Schemas.IterationRecords
