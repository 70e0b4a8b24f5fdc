import Selfevals.Graders.Confusion
import Selfevals.Lib.JsonValue
import Selfevals.Schemas.Base
import Selfevals.Schemas.Enums

/-!
# Iteration and decision records

What is stored of an iteration: the metrics, what it ran against, and what was decided. The
constraints of `IterationMetrics` are fields of the structure. The proposer's inputs and the ids of
the traces are left out; so are the nested dicts of the confusion report, which is kept as it is.
-/

namespace Selfevals.Schemas.Iterations

open Graders.Confusion Lib.JsonValue Lib.Mapping Schemas.Enums

/-- What is proposed for an iteration. -/
structure Proposal where
  parameters : Object := []
  hypothesis : String

/-- A metric, and its value. -/
structure MetricObservation where
  name : String
  value : ℚ
  deltaVsBaseline : Option ℚ := none
deriving DecidableEq, Repr

/-- A funnel node as a dict. A key that may be missing is an `Option`; a missing dict reads as an
empty one. -/
structure FunnelDict where
  key : String
  count : Option ℕ := none
  meanScore : Option ℚ := none
  totalWeight : Option ℚ := none
  labelCounts : Dict String ℕ := .empty
  failureModeCounts : Dict String ℕ := .empty
  children : List (String × FunnelDict) := []

structure IterationMetrics where
  primary : MetricObservation
  guardrails : List MetricObservation := []
  reliability : Dict String ℚ := .empty
  costUsd : Option ℚ := none
  durationSeconds : Option ℚ := none
  errorRate : ℚ := 0
  failureModeCounts : Dict String ℕ := .empty
  funnel : List (String × FunnelDict) := []
  confusion : Option ConfusionReport := none
  names_ne : ∀ observation ∈ primary :: guardrails, observation.name ≠ ""
  costUsd_nonneg : ∀ cost ∈ costUsd, 0 ≤ cost
  durationSeconds_nonneg : ∀ duration ∈ durationSeconds, 0 ≤ duration
  errorRate_bounds : 0 ≤ errorRate ∧ errorRate ≤ 1

structure IterationDecision where
  outcome : DecisionOutcome
  rationale : String
  rationale_ne : rationale ≠ ""

/-- A record, as far as the loop reads it. -/
structure IterationRecord where
  experimentId : String
  iteration : ℕ
  hypothesis : String
  proposedParameters : Object := []
  /-- `execution.ran_against`. -/
  ranAgainst : Dict String ℕ := .empty
  metrics : Option IterationMetrics := none
  decision : Option IterationDecision := none

/-- A decision, as it is stored. -/
structure DecisionRecord where
  experimentId : String
  iteration : ℕ
  outcome : DecisionOutcome
  rationale : String

end Selfevals.Schemas.Iterations
