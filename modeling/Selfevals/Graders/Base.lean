import Selfevals.Runner.Executors
import Selfevals.Schemas.EvalCases

/-!
# Grades, contexts and breakdown trees

A `BreakdownNode` is one node of a grader's funnel tree. `toDict` writes the tree as a JSON payload
and `fromDict` rebuilds it, `none` being the `ValueError` of a label that is none. Scores and
weights are exact rationals.
-/

namespace Selfevals.Graders.Base

open Lib.JsonValue Schemas.Enums
open Runner.Executors (AdapterResponse)
open Schemas.EvalCases (EvalCase)
open Schemas.TraceRecords (Trace)

/-- `GradeLabel`. -/
inductive GradeLabel
  | pass | fail | partialPass | error | skipped
deriving DecidableEq, Repr

instance : Coded GradeLabel where
  value
    | .pass => "pass"
    | .fail => "fail"
    | .partialPass => "partial"
    | .error => "error"
    | .skipped => "skipped"
  members := [.pass, .fail, .partialPass, .error, .skipped]

/-- A node of a breakdown tree. -/
structure BreakdownNode where
  key : String
  label : Option GradeLabel := none
  score : Option ℚ := none
  weight : ℚ := 1
  reason : String := ""
  failureModes : List String := []
  children : List BreakdownNode := []
deriving Repr

/-- `GradeResult`; `label` and `score` decide, the breakdown informs. -/
structure GradeResult where
  grader : String
  label : GradeLabel
  reason : String
  score : Option ℚ := none
  confidence : Option ℚ := none
  failureModes : List String := []
  details : Object := []
  breakdown : Option BreakdownNode := none

/-- What graders are given; the case has been validated. -/
structure GraderContext where
  case : EvalCase
  trace : Trace
  response : Option AdapterResponse := none
  case_valid : case.Valid

/-- A context with what it has to have alone. -/
def GraderContext.minimal : GraderContext where
  case := .minimal
  trace := .minimal
  case_valid := EvalCase.minimal_valid

/-- The structured output of the response, if there is one. -/
def GraderContext.structuredOutput (context : GraderContext) : Option Object :=
  context.response.bind (·.structuredOutput)

/-- The payload `to_dict` returns. A key that may be missing is an `Option`; a missing list of
failure modes or children reads as an empty one. -/
structure BreakdownDict where
  key : String
  label : Option String := none
  score : Option ℚ := none
  weight : Option ℚ := none
  reason : Option String := none
  failureModes : List String := []
  children : List BreakdownDict := []
deriving Repr

mutual

/-- `to_dict`. -/
def BreakdownNode.toDict : BreakdownNode → BreakdownDict
  | .mk key label score weight reason failureModes children =>
    { key, label := label.map Coded.value, score, weight := some weight, reason := some reason,
      failureModes, children := toDicts children }

/-- `to_dict`, of children. -/
def toDicts : List BreakdownNode → List BreakdownDict
  | [] => []
  | child :: children => child.toDict :: toDicts children

end

/-- `GradeLabel(raw) if raw is not None else None`, with `none` for the `ValueError`. -/
def optionalLabel : Option String → Option (Option GradeLabel)
  | none => some none
  | some raw => (Coded.ofValue raw).map some

mutual

/-- `from_dict`. -/
def BreakdownNode.fromDict : BreakdownDict → Option BreakdownNode
  | .mk key rawLabel score weight reason failureModes children => do
    let label ← optionalLabel rawLabel
    let children ← fromDicts children
    return { key, label, score, weight := weight.getD 1, reason := reason.getD "", failureModes,
             children }

/-- `from_dict`, of children. -/
def fromDicts : List BreakdownDict → Option (List BreakdownNode)
  | [] => some []
  | child :: children => do
    let child ← BreakdownNode.fromDict child
    let children ← fromDicts children
    return child :: children

end

@[simp] theorem optionalLabel_value (label : Option GradeLabel) :
    optionalLabel (label.map Coded.value) = some label := by
  cases label with
  | none => rfl
  | some label => simp [optionalLabel]

mutual

/-- **A breakdown tree reads back as it was written.** -/
theorem fromDict_toDict : ∀ node : BreakdownNode, BreakdownNode.fromDict node.toDict = some node
  | .mk key label score weight reason failureModes children => by
    have hchildren := fromDicts_toDicts children
    simp [BreakdownNode.toDict, BreakdownNode.fromDict, hchildren]

theorem fromDicts_toDicts : ∀ nodes : List BreakdownNode, fromDicts (toDicts nodes) = some nodes
  | [] => rfl
  | node :: nodes => by
    have hnode := fromDict_toDict node
    have hnodes := fromDicts_toDicts nodes
    simp [toDicts, fromDicts, hnode, hnodes]

end

end Selfevals.Graders.Base
