import Mathlib.Data.String.Basic
import Selfevals.Graders.Base
import Selfevals.Lib.Scans

/-!
# Grading a trajectory

The verdict on a trajectory is the one of an output grader. What the checks find in the trace is
attached to it as advice, under nodes without weight; only the hard invariants, a forbidden tool and
the number of tool calls, turn the verdict into a failure.

* `checkHardInvariants_ne_nil_iff`: what violates a hard invariant;
-/

namespace Selfevals.Graders.Trajectory

open Lib.JsonValue Lib.Mapping Lib.Scans Graders.Base Schemas.Enums Schemas.TraceRecords

/-! ### The checks -/

def fmWrongToolOrder : String := "trajectory_wrong_tool_order"
def fmToolLoopOverrun : String := "trajectory_tool_loop_overrun"
def fmMissingRoutingDecision : String := "trajectory_missing_routing_decision"
def fmRedundantRetrieval : String := "trajectory_redundant_retrieval"
def fmHardForbiddenTool : String := "trajectory_hard_forbidden_tool"
def fmHardMaxToolCalls : String := "trajectory_hard_max_tool_calls"

/-- What a check reports. -/
structure Diagnostic where
  key : String
  failureMode : String
  reason : String
deriving DecidableEq, Repr

/-- `repr`, of a string and of a list of strings. -/
structure Library where
  reprText : String → String
  reprTexts : List String → String

/-- The tool of a tool call. -/
def toolName? : Span → Option String
  | .toolCall span => some span.toolName
  | _ => none

def isDecision : Span → Bool
  | .decision _ => true
  | _ => false

def isHandoff : Span → Bool
  | .handoff _ => true
  | _ => false

/-- `s.query_hash or s.query_pointer`, of a retrieval. -/
def queryKey : Span → Option String
  | .retrieval span =>
    match span.queryHash with
    | some hash => if hash ≠ "" then some hash else span.queryPointer
    | none => span.queryPointer
  | _ => none

/-- Tool names in span order. -/
def toolsInvoked (spans : List Span) : List String := spans.filterMap toolName?

variable (lib : Library)

/-- `check_tool_order`. -/
def checkToolOrder (invoked expectedToolOrder : List String) : Option Diagnostic :=
  if expectedToolOrder = [] then none
  else if isOrderedSubsequence expectedToolOrder invoked then none
  else some {
    key := "wrong_tool_order"
    failureMode := fmWrongToolOrder
    reason := "expected tool order " ++ lib.reprTexts expectedToolOrder ++
      " is not an ordered subsequence of invoked tools " ++ lib.reprTexts invoked }

/-- `check_tool_loop`. -/
def checkToolLoop (invoked : List String) (maxConsecutive : ℤ) (maxTotal : Option ℤ) :
    Option Diagnostic :=
  match overrun maxConsecutive invoked with
  | some (tool, runLen) => some {
      key := "tool_loop_overrun"
      failureMode := fmToolLoopOverrun
      reason := "tool " ++ lib.reprText tool ++ " invoked " ++ toString runLen ++
        " times consecutively (max_consecutive=" ++ toString maxConsecutive ++ ")" }
  | none =>
    match maxTotal with
    | none => none
    | some maxTotal =>
      ((Dict.count invoked).items.find? fun item => maxTotal < (item.2 : ℤ)).map fun item => {
        key := "tool_loop_overrun"
        failureMode := fmToolLoopOverrun
        reason := "tool " ++ lib.reprText item.1 ++ " invoked " ++ toString item.2 ++
          " times total (max_total=" ++ toString maxTotal ++ ")" }

/-- `check_missing_routing`. -/
def checkMissingRouting (spans : List Span) (expectRoutingDecision : Bool) : Option Diagnostic :=
  let hasHandoff := spans.any isHandoff
  if spans.any isDecision then none
  else if hasHandoff || expectRoutingDecision then some {
    key := "missing_routing_decision"
    failureMode := fmMissingRoutingDecision
    reason := "no DecisionSpan recorded (" ++
      (if hasHandoff then "handoff present" else "routing decision expected") ++ ")" }
  else none

/-- The first query that was issued before; a span without one is passed over. -/
def repeatedQuery (seen : Finset String) : List Span → Option String
  | [] => none
  | s :: spans =>
    match queryKey s with
    | none => repeatedQuery seen spans
    | some key => if key ∈ seen then some key else repeatedQuery (insert key seen) spans

/-- `check_redundant_retrieval`. -/
def checkRedundantRetrieval (spans : List Span) : Option Diagnostic :=
  (repeatedQuery ∅ spans).map fun key => {
    key := "redundant_retrieval"
    failureMode := fmRedundantRetrieval
    reason := "retrieval query " ++ lib.reprText key ++ " issued more than once" }

/-- What fails a trajectory whatever its output. -/
structure HardInvariants where
  forbiddenTools : Finset String := ∅
  maxToolCalls : Option ℤ := none

/-- `check_hard_invariants`. -/
def checkHardInvariants (spans : List Span) (hard : HardInvariants) : List Diagnostic :=
  let invoked := toolsInvoked spans
  let forbiddenHit := sortedSet (invoked.filter (· ∈ hard.forbiddenTools))
  let overCalled := hard.maxToolCalls.toList.filter fun maxToolCalls =>
    maxToolCalls < (invoked.length : ℤ)
  forbiddenHit.map (fun tool => {
    key := "hard_forbidden_tool:" ++ tool
    failureMode := fmHardForbiddenTool
    reason := "forbidden tool " ++ lib.reprText tool ++ " invoked" }) ++
  overCalled.map fun maxToolCalls => {
    key := "hard_max_tool_calls"
    failureMode := fmHardMaxToolCalls
    reason := toString invoked.length ++ " tool calls exceed max_tool_calls=" ++
      toString maxToolCalls }

/-! ### The grader -/

/-- A grader: its name, and what `grade` returns or raises. -/
structure Grader (ε : Type) where
  name : String
  grade : GraderContext → Except ε GradeResult

/-- A configuration that the constructor accepts. -/
structure TrajectoryGrader (ε : Type) where
  name : String := "trajectory"
  outputGrader : Grader ε
  expectedToolOrder : List String := []
  maxConsecutive : ℤ := 3
  maxTotal : Option ℤ := none
  expectRoutingDecision : Bool := false
  hard : HardInvariants := {}
  name_ne : name ≠ ""
  one_le_maxConsecutive : 1 ≤ maxConsecutive
  maxTotal_nonneg : ∀ n ∈ maxTotal, 0 ≤ n

namespace TrajectoryGrader
variable {ε : Type} (g : TrajectoryGrader ε)

/-- `diagnose`, with the grader's configuration. -/
def diagnose (spans : List Span) : List Diagnostic :=
  let invoked := toolsInvoked spans
  (checkToolOrder lib invoked g.expectedToolOrder).toList ++
    (checkToolLoop lib invoked g.maxConsecutive g.maxTotal).toList ++
    (checkMissingRouting spans g.expectRoutingDecision).toList ++
    (checkRedundantRetrieval lib spans).toList

/-- The node of a diagnostic or of a violation. -/
def node (weight : ℚ) (d : Diagnostic) : BreakdownNode where
  key := d.key
  label := some .fail
  score := some 0
  weight
  reason := d.reason
  failureModes := [d.failureMode]

/-- The reason of a violated verdict, after the one of the output grader. -/
def violatedReason (reason : String) (violations : List Diagnostic) : String :=
  let hardReason := "; ".intercalate (violations.map fun v => v.failureMode ++ ":" ++ v.reason)
  if reason = "" then "hard trajectory invariant violated: " ++ hardReason
  else reason ++ "; hard trajectory invariant violated: " ++ hardReason

/-- The result, from the output grader's and from what was found. -/
def result (invoked : List String) (output : GradeResult)
    (diagnostics violations : List Diagnostic) : GradeResult :=
  let violated := violations ≠ []
  let label := if violated then .fail else output.label
  let score := if violated then some 0 else output.score
  { grader := g.name
    label
    score
    reason := if violated then violatedReason output.reason violations else output.reason
    confidence := output.confidence
    failureModes :=
      if violated then sortedSet (output.failureModes ++ violations.map (·.failureMode))
      else output.failureModes
    details := [
      ("output_grader", .str g.outputGrader.name),
      ("output_label", .str (Coded.value output.label)),
      ("tools_invoked", .arr (invoked.map .str)),
      ("trajectory_diagnostics", .arr (diagnostics.map fun d => .str d.failureMode)),
      ("hard_invariant_violations", .arr (violations.map fun v => .str v.failureMode))]
    breakdown := some {
      key := "trajectory"
      label := some label
      score
      weight := 1
      reason := "output-state authoritative; trajectory children advisory"
      children := diagnostics.map (node 0) ++ violations.map (node 1) } }

/-- `TrajectoryGrader.grade`. -/
def grade (context : GraderContext) : Except ε GradeResult := do
  let output ← g.outputGrader.grade context
  let spans := context.trace.spans
  return g.result (toolsInvoked spans) output (g.diagnose lib spans)
    (checkHardInvariants lib spans g.hard)

end TrajectoryGrader

/-! ### What the checks mean -/

/-- A retrieval has a query: its hash, or its pointer if it has no hash or an empty one. -/
def HasQuery (s : Span) (query : String) : Prop :=
  ∃ span, s = .retrieval span ∧
    (span.queryHash = some query ∧ query ≠ "" ∨
      (span.queryHash = none ∨ span.queryHash = some "") ∧ span.queryPointer = some query)

/-- Two retrievals of the trace have one query. -/
def RedundantRetrieval (spans : List Span) : Prop :=
  ∃ (i j : ℕ) (s t : Span) (query : String), i < j ∧ spans[i]? = some s ∧ spans[j]? = some t ∧
    HasQuery s query ∧ HasQuery t query

namespace TrajectoryGrader
variable {ε : Type} (g : TrajectoryGrader ε) (spans : List Span)

/-- The expected order is not the order of some of the calls. -/
def WrongOrder : Prop :=
  g.expectedToolOrder ≠ [] ∧ ¬g.expectedToolOrder.Sublist (toolsInvoked spans)

/-- A block of calls of one tool is too long, or there are too many calls of one tool. -/
def LoopOverrun : Prop :=
  LongBlock g.maxConsecutive (toolsInvoked spans) ∨
    ∃ maxTotal ∈ g.maxTotal, ∃ tool, maxTotal < ((toolsInvoked spans).count tool : ℤ)

/-- A handoff happened, or a decision was expected, and none was made. -/
def MissingRouting : Prop :=
  (∀ span, Span.decision span ∉ spans) ∧
    ((∃ span, Span.handoff span ∈ spans) ∨ g.expectRoutingDecision = true)

/-- A forbidden tool was called, or there are too many calls. -/
def HardViolated : Prop :=
  (∃ tool ∈ g.hard.forbiddenTools, tool ∈ toolsInvoked spans) ∨
    ∃ maxToolCalls ∈ g.hard.maxToolCalls, maxToolCalls < ((toolsInvoked spans).length : ℤ)

end TrajectoryGrader

theorem queryKey_eq_some_iff (s : Span) (query : String) :
    queryKey s = some query ↔ HasQuery s query := by
  unfold HasQuery
  cases s with
  | retrieval span =>
    unfold queryKey
    cases hhash : span.queryHash with
    | none => simp [hhash]
    | some hash =>
      by_cases hempty : hash = ""
      · simp [hhash, hempty]
      · simp only [hhash, ne_eq, hempty, not_false_eq_true, if_true, Option.some.injEq,
          Span.retrieval.injEq, exists_eq_left', reduceCtorEq, false_and, or_false]
        exact ⟨fun h => ⟨h, h ▸ hempty⟩, fun h => h.1⟩
  | _ => simp [queryKey]

theorem repeatedQuery_eq (seen : Finset String) (spans : List Span) :
    repeatedQuery seen spans = repeatFrom seen (spans.filterMap queryKey) := by
  induction spans generalizing seen with
  | nil => rfl
  | cons s spans ih =>
    unfold repeatedQuery
    cases hkey : queryKey s with
    | none => rw [List.filterMap_cons_none hkey, ih]
    | some key =>
      rw [List.filterMap_cons_some hkey, repeatFrom]
      split_ifs with hseen
      · simp [hseen]
      · simp [hseen, ih]

theorem redundantRetrieval_iff (spans : List Span) :
    RedundantRetrieval spans ↔ ¬(spans.filterMap queryKey).Nodup := by
  rw [List.Nodup, List.pairwise_filterMap, List.pairwise_iff_getElem]
  push Not
  constructor
  · rintro ⟨i, j, s, t, query, hlt, hs, ht, hsquery, htquery⟩
    obtain ⟨hi, rfl⟩ := List.getElem?_eq_some_iff.mp hs
    obtain ⟨hj, rfl⟩ := List.getElem?_eq_some_iff.mp ht
    exact ⟨i, j, hi, hj, hlt, query, (queryKey_eq_some_iff _ _).mpr hsquery, query,
      (queryKey_eq_some_iff _ _).mpr htquery, rfl⟩
  · rintro ⟨i, j, hi, hj, hlt, query, hs, query', ht, rfl⟩
    exact ⟨i, j, spans[i], spans[j], query, hlt, List.getElem?_eq_getElem hi,
      List.getElem?_eq_getElem hj, (queryKey_eq_some_iff _ _).mp hs,
      (queryKey_eq_some_iff _ _).mp ht⟩

theorem checkRedundantRetrieval_isSome_iff (spans : List Span) :
    (checkRedundantRetrieval lib spans).isSome ↔ RedundantRetrieval spans := by
  rw [checkRedundantRetrieval, Option.isSome_map, repeatedQuery_eq, redundantRetrieval_iff]
  exact firstRepeat_isSome_iff _

theorem mem_modes_iff {check : Option Diagnostic} {mode : String}
    (h : ∀ d ∈ check, d.failureMode = mode) (other : String) :
    other ∈ check.toList.map (·.failureMode) ↔ other = mode ∧ check.isSome := by
  cases check with
  | none => simp
  | some d => simp [h d rfl]

theorem failureMode_checkToolOrder (invoked expectedToolOrder : List String) :
    ∀ d ∈ checkToolOrder lib invoked expectedToolOrder, d.failureMode = fmWrongToolOrder := by
  intro d hd
  unfold checkToolOrder at hd
  split_ifs at hd
  · cases hd
  · cases hd
  · cases hd
    rfl

theorem failureMode_checkToolLoop (invoked : List String) (maxConsecutive : ℤ)
    (maxTotal : Option ℤ) :
    ∀ d ∈ checkToolLoop lib invoked maxConsecutive maxTotal,
      d.failureMode = fmToolLoopOverrun := by
  intro d hd
  unfold checkToolLoop at hd
  split at hd
  · cases hd
    rfl
  · split at hd
    · cases hd
    · obtain ⟨item, -, rfl⟩ := Option.map_eq_some_iff.mp hd
      rfl

theorem failureMode_checkMissingRouting (spans : List Span) (expectRoutingDecision : Bool) :
    ∀ d ∈ checkMissingRouting spans expectRoutingDecision,
      d.failureMode = fmMissingRoutingDecision := by
  intro d hd
  unfold checkMissingRouting at hd
  dsimp only at hd
  split at hd
  · cases hd
  · split at hd
    · cases hd
      rfl
    · cases hd

theorem failureMode_checkRedundantRetrieval (spans : List Span) :
    ∀ d ∈ checkRedundantRetrieval lib spans, d.failureMode = fmRedundantRetrieval := by
  intro d hd
  obtain ⟨key, -, rfl⟩ := Option.map_eq_some_iff.mp hd
  rfl

theorem exists_count_iff (invoked : List String) {maxTotal : ℤ} (h : 0 ≤ maxTotal) :
    ((Dict.count invoked).items.find? fun item => maxTotal < (item.2 : ℤ)).isSome ↔
      ∃ tool, maxTotal < (invoked.count tool : ℤ) := by
  rw [List.find?_isSome]
  constructor
  · rintro ⟨⟨tool, count⟩, hitem, hover⟩
    rw [Dict.mem_items_iff, Dict.get?_count] at hitem
    split_ifs at hitem with hmem
    · rw [← Option.some.inj hitem] at hover
      exact ⟨tool, of_decide_eq_true hover⟩
  · rintro ⟨tool, hover⟩
    have hmem : tool ∈ invoked := by
      by_contra hnot
      rw [List.count_eq_zero_of_not_mem hnot] at hover
      exact absurd hover (by simpa using h)
    refine ⟨(tool, invoked.count tool), ?_, decide_eq_true hover⟩
    rw [Dict.mem_items_iff, Dict.get?_count, if_pos hmem]

namespace TrajectoryGrader
variable {ε : Type} (g : TrajectoryGrader ε) (spans : List Span)

theorem checkToolOrder_isSome_iff :
    (checkToolOrder lib (toolsInvoked spans) g.expectedToolOrder).isSome ↔ g.WrongOrder spans := by
  unfold checkToolOrder WrongOrder
  rw [← isOrderedSubsequence_iff]
  split_ifs with hnil hsub
  · simp [hnil]
  · simp [hsub]
  · simp [hnil, hsub]

theorem checkToolLoop_isSome_iff :
    (checkToolLoop lib (toolsInvoked spans) g.maxConsecutive g.maxTotal).isSome ↔
      g.LoopOverrun spans := by
  have hcap : 0 ≤ g.maxConsecutive := by
    have := g.one_le_maxConsecutive
    omega
  unfold checkToolLoop LoopOverrun
  rw [← overrun_isSome_iff hcap]
  cases overrun g.maxConsecutive (toolsInvoked spans) with
  | some found => simp
  | none =>
    have hnonneg := g.maxTotal_nonneg
    cases hmax : g.maxTotal with
    | none => simp
    | some maxTotal =>
      simp [exists_count_iff _ (hnonneg maxTotal hmax)]

theorem checkMissingRouting_isSome_iff :
    (checkMissingRouting spans g.expectRoutingDecision).isSome ↔ g.MissingRouting spans := by
  have hdecision : spans.any isDecision = true ↔ ∃ span, Span.decision span ∈ spans := by
    rw [List.any_eq_true]
    constructor
    · rintro ⟨s, hs, h⟩
      cases s with
      | decision span => exact ⟨span, hs⟩
      | _ => cases h
    · rintro ⟨span, hspan⟩
      exact ⟨_, hspan, rfl⟩
  have hhandoff : spans.any isHandoff = true ↔ ∃ span, Span.handoff span ∈ spans := by
    rw [List.any_eq_true]
    constructor
    · rintro ⟨s, hs, h⟩
      cases s with
      | handoff span => exact ⟨span, hs⟩
      | _ => cases h
    · rintro ⟨span, hspan⟩
      exact ⟨_, hspan, rfl⟩
  unfold checkMissingRouting MissingRouting
  rw [← hhandoff, ← not_exists, ← hdecision]
  by_cases hdec : spans.any isDecision = true
  · simp [hdec]
  · by_cases hand : (spans.any isHandoff || g.expectRoutingDecision) = true
    · have hsome := Bool.or_eq_true_iff.mp hand
      simp only [if_pos hand, hdec, hsome]
      simp
    · have hnone := mt Bool.or_eq_true_iff.mpr hand
      simp only [if_neg hdec, if_neg hand, Option.isSome_none, hnone]
      simp

/-- **The checks**: what is diagnosed, by what holds of the trace. -/
theorem mem_diagnosed_iff :
    let modes := (g.diagnose lib spans).map (·.failureMode)
    (fmWrongToolOrder ∈ modes ↔ g.WrongOrder spans) ∧
      (fmToolLoopOverrun ∈ modes ↔ g.LoopOverrun spans) ∧
      (fmMissingRoutingDecision ∈ modes ↔ g.MissingRouting spans) ∧
      (fmRedundantRetrieval ∈ modes ↔ RedundantRetrieval spans) := by
  rw [← checkToolOrder_isSome_iff lib g spans, ← checkToolLoop_isSome_iff lib g spans,
    ← checkMissingRouting_isSome_iff g spans, ← checkRedundantRetrieval_isSome_iff lib spans]
  have horder := failureMode_checkToolOrder lib (toolsInvoked spans) g.expectedToolOrder
  have hloop := failureMode_checkToolLoop lib (toolsInvoked spans) g.maxConsecutive g.maxTotal
  have hrouting := failureMode_checkMissingRouting spans g.expectRoutingDecision
  have hredundant := failureMode_checkRedundantRetrieval lib spans
  simp only [diagnose, List.map_append, List.mem_append, mem_modes_iff horder, mem_modes_iff hloop,
    mem_modes_iff hrouting, mem_modes_iff hredundant]
  simp [fmWrongToolOrder, fmToolLoopOverrun, fmMissingRoutingDecision, fmRedundantRetrieval]

theorem checkHardInvariants_ne_nil_iff :
    checkHardInvariants lib spans g.hard ≠ [] ↔ g.HardViolated spans := by
  unfold checkHardInvariants HardViolated
  dsimp only
  rw [ne_eq, List.append_eq_nil_iff, List.map_eq_nil_iff, List.map_eq_nil_iff, not_and_or]
  refine or_congr ?_ ?_
  · rw [List.eq_nil_iff_forall_not_mem, not_forall_not]
    refine exists_congr fun tool => ?_
    rw [mem_sortedSet, List.mem_filter, decide_eq_true_iff, and_comm]
  · rw [List.eq_nil_iff_forall_not_mem, not_forall_not]
    refine exists_congr fun maxToolCalls => ?_
    rw [List.mem_filter, Option.mem_toList, decide_eq_true_iff]
    rfl

/-! ### The verdict -/

/-- **Grading a trajectory**: the verdict is the output grader's unless a hard invariant is
violated, and then a failure; what is diagnosed stands in the details and under nodes without
weight. -/
theorem grade_spec (g : TrajectoryGrader ε) (context : GraderContext) :
    match g.outputGrader.grade context with
    | .error e => g.grade lib context = .error e
    | .ok output => ∃ (result : GradeResult) (modes : List String),
        g.grade lib context = .ok result ∧
        (¬g.HardViolated context.trace.spans →
          result.label = output.label ∧ result.score = output.score) ∧
        (g.HardViolated context.trace.spans → result.label = .fail ∧ result.score = some 0) ∧
        dictGet result.details "trajectory_diagnostics" = .arr (modes.map .str) ∧
        (∃ root ∈ result.breakdown,
          (root.children.filter fun c => c.weight = 0).map (·.failureModes) =
            modes.map fun mode => [mode]) ∧
        (fmWrongToolOrder ∈ modes ↔ g.WrongOrder context.trace.spans) ∧
        (fmToolLoopOverrun ∈ modes ↔ g.LoopOverrun context.trace.spans) ∧
        (fmMissingRoutingDecision ∈ modes ↔ g.MissingRouting context.trace.spans) ∧
        (fmRedundantRetrieval ∈ modes ↔ RedundantRetrieval context.trace.spans) := by
  cases houtput : g.outputGrader.grade context with
  | error e =>
    show g.grade lib context = .error e
    rw [grade, houtput]
    rfl
  | ok output =>
    have hhard := checkHardInvariants_ne_nil_iff lib g context.trace.spans
    refine ⟨_, (g.diagnose lib context.trace.spans).map (·.failureMode),
      by rw [grade, houtput]; rfl, fun hholds => ?_, fun hviolated => ?_, ?_, ?_,
      mem_diagnosed_iff lib g context.trace.spans⟩
    · have hnil := mt hhard.mp hholds
      exact ⟨if_neg hnil, if_neg hnil⟩
    · have hne := hhard.mpr hviolated
      exact ⟨if_pos hne, if_pos hne⟩
    · rw [List.map_map]
      rfl
    · refine ⟨_, rfl, ?_⟩
      show ((List.map (node 0) _ ++ List.map (node 1) _).filter _).map _ = _
      rw [List.filter_append, List.filter_eq_self.mpr, List.filter_eq_nil_iff.mpr, List.append_nil,
        List.map_map, List.map_map]
      · rfl
      · intro c hc
        obtain ⟨d, -, rfl⟩ := List.mem_map.mp hc
        simp [node]
      · intro c hc
        obtain ⟨d, -, rfl⟩ := List.mem_map.mp hc
        simp [node]

end TrajectoryGrader

end Selfevals.Graders.Trajectory
