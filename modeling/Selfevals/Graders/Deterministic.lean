import Selfevals.Graders.Trajectory
import Selfevals.Lib.JsonEquality

/-!
# Deterministic rules

A case declares what the final response has to contain and must not contain, which tools have to be
called and which must not, a regular expression and a structured output. The grader collects one
violation for each rule instance that does not hold, and reads the verdict and the funnel tree off
them: the tree finds its leaves' verdicts by looking a text `failure_mode:detail` up among those of
the violations. With a minimal recall, the strings the response has to contain count by their share;
every other rule stays hard.
-/

namespace Selfevals.Graders.Deterministic

open Lib.JsonValue Lib.JsonEquality Lib.Mapping Graders.Base Schemas.Enums Schemas.TraceRecords
open Graders.Trajectory (toolsInvoked)
open Runner.Executors (AdapterResponse)
open Schemas.EvalCases (EvalCase Expected)

/-- A compiled regular expression: its pattern, and whether it is found in a text. -/
structure Pattern where
  pattern : String
  search : String → Bool

/-- The text functions: `str.lower`, `f"{q:.3f}"`, and `replace("_", " ")`. -/
structure Library where
  lower : String → String
  fixed3 : ℚ → String
  spaced : String → String

/-- A rule instance that does not hold. -/
structure Violation where
  failureMode : String
  detail : String
deriving DecidableEq, Repr

/-- `f"{v.failure_mode}:{v.detail}"`. -/
def Violation.key (v : Violation) : String := v.failureMode ++ ":" ++ v.detail

/-- `str(value)`, of a `str` or an `int`; a bool is an int. -/
def scalarLabel : Json → Option String
  | .str s => some s
  | .int n => some (toString n)
  | .bool b => some (if b then "True" else "False")
  | .null | .float _ | .arr _ | .obj _ => none

/-- `_class_label`: the label that a structured output stands for. -/
def classLabel : Json → Option String
  | .obj [(_, sole)] => scalarLabel sole
  | .obj _ => none
  | value => scalarLabel value

/-- `_final_response_text`. -/
def finalResponseText (context : GraderContext) : String :=
  match context.response with
  | none => ""
  | some response =>
    match response.content with
    | some content => if content ≠ "" then content else structuredContent response
    | none => structuredContent response
where
  /-- The `content` of the structured output, if it is a string. -/
  structuredContent (response : AdapterResponse) : String :=
    match response.structuredOutput with
    | none => ""
    | some output => (dictGet output "content").asStr.getD ""

/-- A call of a model. -/
def isLlmCall : Span → Bool
  | .llmCall _ => true
  | _ => false

/-- `_llm_call_count`. -/
def llmCallCount (spans : List Span) : ℕ := spans.countP isLlmCall

/-! ### The funnel tree -/

section Tree
variable (lib : Library)

/-- `_leaf`: the node of a rule instance. -/
def leaf (key : String) (passed : Bool) (reason failureMode : String) : BreakdownNode where
  key := key
  label := some (if passed then .pass else .fail)
  score := some (if passed then 1 else 0)
  weight := 0
  reason := reason
  failureModes := if passed then [] else [failureMode]

/-- The leaf of one rule instance. -/
def ruleLeaf (violated : List String) (failureMode item : String) : BreakdownNode :=
  leaf item (!violated.contains (failureMode ++ ":" ++ item))
    (lib.spaced failureMode ++ ": " ++ item) failureMode

/-- `_dimension`: nothing for a rule that the case does not declare. -/
def dimension (violated : List String) (key : String) (items : List String)
    (failureMode : String) : List BreakdownNode :=
  if items = [] then []
  else
    let leaves := items.map (ruleLeaf lib violated failureMode)
    let passedCount := leaves.countP fun node => node.label = some .pass
    [{ key := key
       label := some (if passedCount = leaves.length then .pass else .fail)
       score := some (passedCount / leaves.length)
       weight := 0
       reason := toString passedCount ++ "/" ++ toString leaves.length ++ " satisfied"
       children := leaves }]

/-- `_build_breakdown`. -/
def buildBreakdown (expected : Expected) (label : GradeLabel) (score : ℚ)
    (violated : List String) : Option BreakdownNode :=
  let dimensions :=
    dimension lib violated "must_include" expected.mustInclude "missing_required_substring" ++
      dimension lib violated "must_not_include" expected.mustNotInclude "forbidden_substring" ++
      dimension lib violated "required_tools" expected.requiredTools "missing_required_tool" ++
      dimension lib violated "forbidden_tools" expected.forbiddenTools "forbidden_tool_invoked"
  if dimensions = [] then none
  else some {
    key := "deterministic"
    label := some label
    score := some score
    weight := 1
    reason := "per-rule funnel; output-state authoritative"
    children := dimensions }

end Tree

/-! ### The grader -/

/-- The violation of the structured output, if there is one. -/
def structuredViolation? (context : GraderContext) : Option Violation :=
  context.case.expected.structuredOutput.bind fun expected =>
    let actual : Json := ((context.structuredOutput).map .obj).getD .null
    if pyEq actual (.obj expected) then none
    else
      match classLabel actual, classLabel (.obj expected) with
      | some predicted, some label => some {
          failureMode := "misclassified:" ++ predicted ++ "->" ++ label
          detail := "predicted=" ++ predicted ++ " expected=" ++ label }
      | _, _ => some {
          failureMode := "structured_output_mismatch"
          detail := "expected != actual" }

/-- A grader that the constructor admits. -/
structure DeterministicGrader where
  name : String := "deterministic"
  caseSensitive : Bool := false
  regex : Option Pattern := none
  name_ne : name ≠ ""

namespace DeterministicGrader
variable (lib : Library) (g : DeterministicGrader) (context : GraderContext)

/-- A text in the case that is compared. -/
def folded (text : String) : String := if g.caseSensitive then text else lib.lower text

/-- `probe in haystack`. -/
def contains (needle : String) : Bool :=
  decide ((g.folded lib needle).toList <:+: (g.folded lib (finalResponseText context)).toList)

/-- `_collect_violations`; the details and the number of missing strings are functions of their
own. -/
def collectViolations : List Violation :=
  let expected := context.case.expected
  let invoked := toolsInvoked context.trace.spans
  ((expected.mustInclude.filter fun needle => !g.contains lib context needle).map fun needle =>
      ⟨"missing_required_substring", needle⟩) ++
    (expected.mustNotInclude.filter (g.contains lib context)).map (fun needle =>
      ⟨"forbidden_substring", needle⟩) ++
    (expected.requiredTools.filter fun tool => !invoked.contains tool).map (fun tool =>
      ⟨"missing_required_tool", tool⟩) ++
    (expected.forbiddenTools.filter invoked.contains).map (fun tool =>
      ⟨"forbidden_tool_invoked", tool⟩) ++
    ((g.regex.filter fun regex => !regex.search (finalResponseText context)).map fun regex =>
      ⟨"regex_mismatch", regex.pattern⟩).toList ++
    (structuredViolation? context).toList

/-- The required strings that are not contained. -/
def missingRequired : ℕ :=
  context.case.expected.mustInclude.countP fun needle => !g.contains lib context needle

/-- The share of the required strings that are contained. -/
def recallOf : ℚ :=
  ((context.case.expected.mustInclude.length - g.missingRequired lib context : ℕ) : ℚ) /
    context.case.expected.mustInclude.length

/-- What the grade says of the trace. -/
def details : Object :=
  [("tools_invoked", .arr ((toolsInvoked context.trace.spans).map .str)),
    ("llm_call_count", .int (llmCallCount context.trace.spans))]

/-- The grade of a verdict. -/
def result (label : GradeLabel) (reason : String) (score : ℚ) (failureModes : List String)
    (details : Object) : GradeResult where
  grader := g.name
  label := label
  reason := reason
  score := some score
  failureModes := failureModes
  details := details
  breakdown := buildBreakdown lib context.case.expected label score
    ((g.collectViolations lib context).map Violation.key)

/-- The violations in one text. -/
def joinedKeys (violations : List Violation) : String :=
  "; ".intercalate (violations.map Violation.key)

/-- The failure modes of violations, each once. -/
def modesOf (violations : List Violation) : List String :=
  sortedSet (violations.map Violation.failureMode)

/-- The end of `grade`: nothing may be violated. -/
def exactGrade : GradeResult :=
  let violations := g.collectViolations lib context
  if violations = [] then
    g.result lib context .pass "all deterministic rules satisfied" 1 [] (details context)
  else
    g.result lib context .fail (joinedKeys violations) 0 (modesOf violations) (details context)

/-- Recall mode. -/
def recallGrade (minRecall : ℚ) : GradeResult :=
  let violations := g.collectViolations lib context
  let «recall» := g.recallOf lib context
  let details := details context ++ [("recall", .float «recall»)]
  let hardViolations := violations.filter fun v => v.failureMode ≠ "missing_required_substring"
  if minRecall ≤ «recall» ∧ hardViolations = [] then
    g.result lib context .pass
      ("recall " ++ lib.fixed3 «recall» ++ " >= min_recall " ++ lib.fixed3 minRecall) «recall»
      (modesOf violations) details
  else
    g.result lib context .fail
      (if ¬minRecall ≤ «recall» then
        "recall " ++ lib.fixed3 «recall» ++ " < min_recall " ++ lib.fixed3 minRecall
      else joinedKeys hardViolations) «recall» (modesOf violations) details

/-- `DeterministicGrader.grade`. -/
def grade : GradeResult :=
  match context.case.expected.minRecall with
  | none => g.exactGrade lib context
  | some minRecall =>
    if context.case.expected.mustInclude = [] then g.exactGrade lib context
    else g.recallGrade lib context minRecall

end DeterministicGrader

/-! ### The texts of the violations -/

section Keys
variable {lib : Library} {g : DeterministicGrader} {context : GraderContext}

/-- How the failure modes begin; that of a wrong class goes on with the two classes. -/
def heads : List String :=
  ["missing_required_substring:", "forbidden_substring:", "missing_required_tool:",
    "forbidden_tool_invoked:", "regex_mismatch:", "structured_output_mismatch:", "misclassified:"]

theorem heads_apart : ∀ a ∈ heads, ∀ b ∈ heads, a.toList <+: b.toList → a = b := by
  decide

theorem eq_of_head {a b s t : String} (ha : a ∈ heads) (hb : b ∈ heads) (h : a ++ s = b ++ t) :
    a = b ∧ s = t := by
  have hlist : a.toList ++ s.toList = b.toList ++ t.toList := by
    rw [← String.toList_append, h, String.toList_append]
  have hab : a = b := by
    rcases List.prefix_or_prefix_of_prefix (List.prefix_append a.toList s.toList)
      (hlist ▸ List.prefix_append b.toList t.toList) with hpre | hpre
    · exact heads_apart a ha b hb hpre
    · exact (heads_apart b hb a ha hpre).symm
  subst hab
  exact ⟨rfl, String.toList_inj.mp (List.append_cancel_left hlist)⟩

/-- The failure modes that have a dimension in the tree. -/
def dimensionModes : List String :=
  ["missing_required_substring", "forbidden_substring", "missing_required_tool",
    "forbidden_tool_invoked"]

theorem head_of_dimensionMode : ∀ mode ∈ dimensionModes, mode ++ ":" ∈ heads := by decide

theorem structuredViolation?_head {v : Violation} (h : structuredViolation? context = some v) :
    ∃ head ∈ heads, (∃ rest, v.key = head ++ rest) ∧
      ∀ mode ∈ dimensionModes, mode ++ ":" ≠ head := by
  obtain ⟨expected, -, h⟩ := Option.bind_eq_some_iff.mp h
  dsimp only at h
  split at h
  · exact absurd h nofun
  · split at h
    · rename_i predicted label _ _
      cases h
      refine ⟨"misclassified:", by decide, ⟨predicted ++ "->" ++ label ++ ":" ++
        ("predicted=" ++ predicted ++ " expected=" ++ label), ?_⟩, by decide⟩
      simp only [Violation.key, String.append_assoc]
    · cases h
      exact ⟨"structured_output_mismatch:", by decide, ⟨"expected != actual", rfl⟩, by decide⟩

theorem mem_collectViolations {v : Violation} : v ∈ g.collectViolations lib context ↔
    (∃ needle ∈ context.case.expected.mustInclude, g.contains lib context needle = false ∧
      v = ⟨"missing_required_substring", needle⟩) ∨
    (∃ needle ∈ context.case.expected.mustNotInclude, g.contains lib context needle = true ∧
      v = ⟨"forbidden_substring", needle⟩) ∨
    (∃ tool ∈ context.case.expected.requiredTools, tool ∉ toolsInvoked context.trace.spans ∧
      v = ⟨"missing_required_tool", tool⟩) ∨
    (∃ tool ∈ context.case.expected.forbiddenTools, tool ∈ toolsInvoked context.trace.spans ∧
      v = ⟨"forbidden_tool_invoked", tool⟩) ∨
    (∃ regex ∈ g.regex, regex.search (finalResponseText context) = false ∧
      v = ⟨"regex_mismatch", regex.pattern⟩) ∨
    structuredViolation? context = some v := by
  simp only [DeterministicGrader.collectViolations, List.mem_append, List.mem_map, List.mem_filter,
    Bool.not_eq_true', List.contains_eq_mem, decide_eq_false_iff_not, decide_eq_true_eq,
    Option.mem_toList, Option.mem_def, Option.map_eq_some_iff, Option.filter_eq_some_iff, and_assoc,
    or_assoc, eq_comm (b := v)]

/-- **A text that is looked up** is that of the rule instance it was made from. -/
theorem key_mem_violated_iff {mode : String} (hmode : mode ∈ dimensionModes) (item : String) :
    mode ++ ":" ++ item ∈ (g.collectViolations lib context).map Violation.key ↔
      ⟨mode, item⟩ ∈ g.collectViolations lib context := by
  have hhead := head_of_dimensionMode mode hmode
  constructor
  · intro h
    obtain ⟨v, hv, hkey⟩ := List.mem_map.mp h
    have hsame : ∀ mode' detail, mode' ++ ":" ∈ heads → v = ⟨mode', detail⟩ →
        ⟨mode, item⟩ = v := by
      rintro mode' detail hhead' rfl
      obtain ⟨hmodes, rfl⟩ := eq_of_head hhead' hhead hkey
      have hm : mode' = mode := by simpa using hmodes
      rw [hm]
    rw [show (⟨mode, item⟩ : Violation) = v from ?_]
    · exact hv
    rcases mem_collectViolations.mp hv with ⟨_, -, -, h⟩ | ⟨_, -, -, h⟩ | ⟨_, -, -, h⟩ |
      ⟨_, -, -, h⟩ | ⟨_, -, -, h⟩ | h
    · exact hsame _ _ (by decide) h
    · exact hsame _ _ (by decide) h
    · exact hsame _ _ (by decide) h
    · exact hsame _ _ (by decide) h
    · exact hsame _ _ (by decide) h
    · obtain ⟨head, hin, ⟨rest, hrest⟩, hnot⟩ := structuredViolation?_head h
      exact absurd (eq_of_head hhead hin (hkey.symm.trans hrest)).1 (hnot mode hmode)
  · exact fun h => List.mem_map.mpr ⟨_, h, rfl⟩

/-! ### The rules that have a dimension -/

/-- A dimension of the tree: the instances the case declares, and which of them hold. -/
structure Rule where
  key : String
  items : List String
  failureMode : String
  holds : String → Bool

/-- The rules that are declared by lists. -/
def rules (lib : Library) (g : DeterministicGrader) (context : GraderContext) : List Rule :=
  [⟨"must_include", context.case.expected.mustInclude, "missing_required_substring",
      g.contains lib context⟩,
    ⟨"must_not_include", context.case.expected.mustNotInclude, "forbidden_substring",
      fun needle => !g.contains lib context needle⟩,
    ⟨"required_tools", context.case.expected.requiredTools, "missing_required_tool",
      (toolsInvoked context.trace.spans).contains⟩,
    ⟨"forbidden_tools", context.case.expected.forbiddenTools, "forbidden_tool_invoked",
      fun tool => !(toolsInvoked context.trace.spans).contains tool⟩]

theorem structuredViolation?_ne {mode item : String} (hmode : mode ∈ dimensionModes) :
    structuredViolation? context ≠ some ⟨mode, item⟩ := by
  intro h
  obtain ⟨head, hin, ⟨rest, hrest⟩, hnot⟩ := structuredViolation?_head h
  exact hnot mode hmode (eq_of_head (head_of_dimensionMode mode hmode) hin hrest).1

theorem violated_iff {rule : Rule} (hrule : rule ∈ rules lib g context) {item : String}
    (hitem : item ∈ rule.items) :
    (((g.collectViolations lib context).map Violation.key).contains
      (rule.failureMode ++ ":" ++ item)) = !rule.holds item := by
  rw [Bool.eq_iff_iff, List.contains_iff_mem, Bool.not_eq_true']
  simp only [rules, List.mem_cons, List.not_mem_nil, or_false] at hrule
  rcases hrule with rfl | rfl | rfl | rfl
  · have hmode : "missing_required_substring" ∈ dimensionModes := by decide
    rw [key_mem_violated_iff hmode, mem_collectViolations]
    simp [structuredViolation?_ne hmode]
    exact fun _ => hitem
  · have hmode : "forbidden_substring" ∈ dimensionModes := by decide
    rw [key_mem_violated_iff hmode, mem_collectViolations]
    simp [structuredViolation?_ne hmode]
    exact fun _ => hitem
  · have hmode : "missing_required_tool" ∈ dimensionModes := by decide
    rw [key_mem_violated_iff hmode, mem_collectViolations]
    simp [structuredViolation?_ne hmode]
    exact fun _ => hitem
  · have hmode : "forbidden_tool_invoked" ∈ dimensionModes := by decide
    rw [key_mem_violated_iff hmode, mem_collectViolations]
    simp [structuredViolation?_ne hmode]
    exact fun _ => hitem

end Keys

/-! ### The verdict and the tree -/

section Verdict
variable {lib : Library} {g : DeterministicGrader} {context : GraderContext}

/-- The rules that a minimal recall leaves hard. -/
structure HardRules (lib : Library) (g : DeterministicGrader) (context : GraderContext) :
    Prop where
  mustNotInclude : ∀ needle ∈ context.case.expected.mustNotInclude,
    g.contains lib context needle = false
  requiredTools : ∀ tool ∈ context.case.expected.requiredTools,
    tool ∈ toolsInvoked context.trace.spans
  forbiddenTools : ∀ tool ∈ context.case.expected.forbiddenTools,
    tool ∉ toolsInvoked context.trace.spans
  regex : ∀ regex ∈ g.regex, regex.search (finalResponseText context) = true
  structuredOutput : ∀ expected ∈ context.case.expected.structuredOutput,
    ∃ actual ∈ context.structuredOutput,
      pyEq (.obj actual) (.obj expected) = true

/-- Every string that the response has to contain is there. -/
def AllIncluded (lib : Library) (g : DeterministicGrader) (context : GraderContext) : Prop :=
  ∀ needle ∈ context.case.expected.mustInclude, g.contains lib context needle = true

/-- The strings that are there, of those that have to be. -/
def includedCount (lib : Library) (g : DeterministicGrader) (context : GraderContext) : ℕ :=
  context.case.expected.mustInclude.countP (g.contains lib context)

/-- Enough of them are there. -/
def EnoughIncluded (lib : Library) (g : DeterministicGrader) (context : GraderContext) : Prop :=
  AllIncluded lib g context ∨ ∃ r ∈ context.case.expected.minRecall,
    r * context.case.expected.mustInclude.length ≤ includedCount lib g context

theorem structuredViolation?_eq_none_iff : structuredViolation? context = none ↔
    ∀ expected ∈ context.case.expected.structuredOutput,
      ∃ actual ∈ context.structuredOutput,
        pyEq (.obj actual) (.obj expected) = true := by
  rw [structuredViolation?, Option.bind_eq_none_iff]
  refine forall₂_congr fun expected _ => ?_
  cases hactual : context.structuredOutput with
  | none =>
    have hnull : pyEq .null (.obj expected) = false := rfl
    simp [hnull]
    split <;> simp
  | some actual =>
    simp only [Option.map_some, Option.getD_some, Option.mem_def, Option.some.injEq,
      exists_eq_left']
    split
    · simp_all
    · rename_i hne
      simp only [hne]
      split <;> simp

/-- **No violation but missing strings** means that the hard rules hold. -/
theorem hardViolations_eq_nil_iff :
    (g.collectViolations lib context).filter (fun v =>
      v.failureMode ≠ "missing_required_substring") = [] ↔ HardRules lib g context := by
  have hmode : ∀ v : Violation, structuredViolation? context = some v →
      v.failureMode ≠ "missing_required_substring" := by
    rintro ⟨mode, item⟩ hv rfl
    have hin : "missing_required_substring" ∈ dimensionModes := by decide
    exact structuredViolation?_ne hin hv
  simp only [List.filter_eq_nil_iff, decide_not, Bool.not_eq_true', decide_eq_false_iff_not,
    not_not, mem_collectViolations]
  constructor
  · intro h
    refine ⟨fun needle hneedle => ?_, fun tool htool => ?_, fun tool htool hinvoked => ?_,
      fun regex hregex => ?_, structuredViolation?_eq_none_iff.mp ?_⟩
    · by_contra hcontains
      exact absurd (h _ (.inr (.inl ⟨needle, hneedle, by simpa using hcontains, rfl⟩)))
        (by simp)
    · by_contra hinvoked
      exact absurd (h _ (.inr (.inr (.inl ⟨tool, htool, hinvoked, rfl⟩)))) (by simp)
    · exact absurd (h _ (.inr (.inr (.inr (.inl ⟨tool, htool, hinvoked, rfl⟩))))) (by simp)
    · by_contra hsearch
      exact absurd (h _ (.inr (.inr (.inr (.inr (.inl
        ⟨regex, hregex, by simpa using hsearch, rfl⟩)))))) (by simp)
    · cases hv : structuredViolation? context with
      | none => rfl
      | some v => exact absurd (h v (.inr (.inr (.inr (.inr (.inr hv)))))) (hmode v hv)
  · rintro h v (⟨_, -, -, rfl⟩ | ⟨needle, hneedle, hcontains, -⟩ | ⟨tool, htool, hinvoked, -⟩ |
      ⟨tool, htool, hinvoked, -⟩ | ⟨regex, hregex, hsearch, -⟩ | hv)
    · rfl
    · exact absurd (hcontains.symm.trans (h.mustNotInclude needle hneedle)) (by decide)
    · exact absurd (h.requiredTools tool htool) hinvoked
    · exact absurd hinvoked (h.forbiddenTools tool htool)
    · exact absurd (hsearch.symm.trans (h.regex regex hregex)) (by decide)
    · rw [structuredViolation?_eq_none_iff.mpr h.structuredOutput] at hv
      exact absurd hv nofun

theorem collectViolations_eq_nil_iff :
    g.collectViolations lib context = [] ↔ AllIncluded lib g context ∧ HardRules lib g context := by
  rw [← hardViolations_eq_nil_iff]
  constructor
  · intro h
    refine ⟨fun needle hneedle => ?_, by rw [h]; rfl⟩
    by_contra hcontains
    have hmem : (⟨"missing_required_substring", needle⟩ : Violation) ∈
        g.collectViolations lib context :=
      mem_collectViolations.mpr (.inl ⟨needle, hneedle, by simpa using hcontains, rfl⟩)
    rw [h] at hmem
    exact absurd hmem nofun
  · rintro ⟨hall, hhard⟩
    rw [List.eq_nil_iff_forall_not_mem]
    intro v hv
    have hmode := List.filter_eq_nil_iff.mp hhard v hv
    rw [decide_not, Bool.not_eq_true', Bool.not_eq_false, decide_eq_true_eq] at hmode
    rcases mem_collectViolations.mp hv with ⟨needle, hneedle, hcontains, -⟩ | ⟨_, -, -, rfl⟩ |
      ⟨_, -, -, rfl⟩ | ⟨_, -, -, rfl⟩ | ⟨_, -, -, rfl⟩ | hstructured
    · exact absurd (hcontains.symm.trans (hall needle hneedle)) (by decide)
    · exact absurd hmode (by simp)
    · exact absurd hmode (by simp)
    · exact absurd hmode (by simp)
    · exact absurd hmode (by simp)
    · obtain ⟨mode, item⟩ := v
      obtain rfl : mode = "missing_required_substring" := hmode
      have hin : "missing_required_substring" ∈ dimensionModes := by decide
      exact structuredViolation?_ne hin hstructured

theorem missingRequired_add : g.missingRequired lib context + includedCount lib g context =
    context.case.expected.mustInclude.length := by
  rw [DeterministicGrader.missingRequired, includedCount, Nat.add_comm,
    List.length_eq_countP_add_countP (g.contains lib context)]
  simp

theorem recallOf_eq : g.recallOf lib context =
    (includedCount lib g context : ℚ) / context.case.expected.mustInclude.length := by
  have hadd : g.missingRequired lib context + includedCount lib g context = _ :=
    missingRequired_add
  rw [DeterministicGrader.recallOf, ← hadd, Nat.add_sub_cancel_left]

theorem le_recallOf_iff (hne : context.case.expected.mustInclude ≠ []) (r : ℚ) :
    r ≤ g.recallOf lib context ↔
      r * context.case.expected.mustInclude.length ≤ includedCount lib g context := by
  have hpos : (0 : ℚ) < context.case.expected.mustInclude.length := by
    exact_mod_cast List.length_pos_of_ne_nil hne
  rw [recallOf_eq, le_div_iff₀ hpos]

theorem includedCount_of_allIncluded (h : AllIncluded lib g context) :
    includedCount lib g context = context.case.expected.mustInclude.length :=
  List.countP_eq_length.mpr h

theorem enoughIncluded_iff {r : ℚ} (hr : context.case.expected.minRecall = some r) :
    EnoughIncluded lib g context ↔
      r * context.case.expected.mustInclude.length ≤ includedCount lib g context := by
  constructor
  · rintro (h | ⟨r', hr', h⟩)
    · rw [includedCount_of_allIncluded h]
      have hle := (context.case_valid.minRecall r hr).2
      exact mul_le_of_le_one_left (Nat.cast_nonneg _) hle
    · rw [hr] at hr'
      cases hr'
      exact h
  · exact fun h => .inr ⟨r, hr, h⟩

/-- The share of the strings that have to be there, where a minimal recall is set, and otherwise the
verdict as a number. -/
def scoreOf (lib : Library) (g : DeterministicGrader) (context : GraderContext)
    (label : GradeLabel) : ℚ :=
  if context.case.expected.minRecall = none ∨ context.case.expected.mustInclude = [] then
    if label = .pass then 1 else 0
  else (includedCount lib g context : ℚ) / context.case.expected.mustInclude.length

/-- What a result says of the rules. -/
structure Judged (lib : Library) (g : DeterministicGrader) (context : GraderContext)
    (r : GradeResult) : Prop where
  label : r.label = .pass ∨ r.label = .fail
  pass_iff : r.label = .pass ↔ EnoughIncluded lib g context ∧ HardRules lib g context
  modes : ∀ mode, mode ∈ r.failureModes ↔
    ∃ v ∈ g.collectViolations lib context, v.failureMode = mode
  score : r.score = some (scoreOf lib g context r.label)
  breakdown : r.breakdown = buildBreakdown lib context.case.expected r.label
    (scoreOf lib g context r.label) ((g.collectViolations lib context).map Violation.key)

theorem mem_modesOf {violations : List Violation} {mode : String} :
    mode ∈ DeterministicGrader.modesOf violations ↔ ∃ v ∈ violations, v.failureMode = mode := by
  rw [DeterministicGrader.modesOf, mem_sortedSet, List.mem_map]

theorem judged_result {label : GradeLabel} {reason : String} {score : ℚ} {modes : List String}
    {details : Object} (hlabel : label = .pass ∨ label = .fail)
    (hpass : label = .pass ↔ EnoughIncluded lib g context ∧ HardRules lib g context)
    (hmodes : ∀ mode, mode ∈ modes ↔ ∃ v ∈ g.collectViolations lib context, v.failureMode = mode)
    (hscore : score = scoreOf lib g context label) :
    Judged lib g context (g.result lib context label reason score modes details) := by
  subst hscore
  exact ⟨hlabel, hpass, hmodes, rfl, rfl⟩

theorem judged_exactGrade
    (hplain : context.case.expected.minRecall = none ∨ context.case.expected.mustInclude = []) :
    Judged lib g context (g.exactGrade lib context) := by
  have hall : EnoughIncluded lib g context ↔ AllIncluded lib g context := by
    rcases hplain with hnone | hnil
    · simp [EnoughIncluded, hnone]
    · have hall : AllIncluded lib g context := by simp [AllIncluded, hnil]
      exact iff_of_true (.inl hall) hall
  have hpass := (and_congr_left' hall).trans
    (collectViolations_eq_nil_iff : g.collectViolations lib context = [] ↔ _).symm
  unfold DeterministicGrader.exactGrade
  dsimp only
  split
  · rename_i hnil
    refine judged_result (.inl rfl) (iff_of_true rfl (hpass.mpr hnil)) ?_ ?_
    · simp [hnil]
    · rw [scoreOf, if_pos hplain, if_pos rfl]
  · rename_i hne
    refine judged_result (.inr rfl) (iff_of_false nofun (mt hpass.mp hne)) (fun _ => mem_modesOf) ?_
    rw [scoreOf, if_pos hplain, if_neg nofun]

theorem judged_recallGrade {r : ℚ} (hr : context.case.expected.minRecall = some r)
    (hne : context.case.expected.mustInclude ≠ []) :
    Judged lib g context (g.recallGrade lib context r) := by
  have hpass : (EnoughIncluded lib g context ∧ HardRules lib g context) ↔
      r ≤ g.recallOf lib context ∧ (g.collectViolations lib context).filter (fun v =>
        v.failureMode ≠ "missing_required_substring") = [] := by
    rw [enoughIncluded_iff hr, le_recallOf_iff hne, hardViolations_eq_nil_iff]
  have hscore (label : GradeLabel) : scoreOf lib g context label = g.recallOf lib context := by
    rw [scoreOf, if_neg (by simp [hr, hne]), recallOf_eq]
  unfold DeterministicGrader.recallGrade
  dsimp only
  split
  · rename_i hboth
    exact judged_result (.inl rfl) (iff_of_true rfl (hpass.mpr hboth)) (fun _ => mem_modesOf)
      (hscore _).symm
  · rename_i hnot
    exact judged_result (.inr rfl) (iff_of_false nofun (mt hpass.mp hnot)) (fun _ => mem_modesOf)
      (hscore _).symm

theorem judged_grade : Judged lib g context (g.grade lib context) := by
  unfold DeterministicGrader.grade
  cases hr : context.case.expected.minRecall with
  | none => exact judged_exactGrade (.inl hr)
  | some r =>
    dsimp only
    split
    · rename_i hnil
      exact judged_exactGrade (.inr hnil)
    · rename_i hne
      exact judged_recallGrade hr hne

/-- A node of the tree says of each instance of a rule whether it holds. -/
structure Reports (rule : Rule) (node : BreakdownNode) : Prop where
  key : node.key = rule.key
  items : node.children.map BreakdownNode.key = rule.items
  label : node.label = some (if rule.items.all rule.holds then .pass else .fail)
  weight : node.weight = 0
  leaves : ∀ leaf ∈ node.children, leaf.weight = 0 ∧
    leaf.label = some (if rule.holds leaf.key then .pass else .fail) ∧
    leaf.failureModes = if rule.holds leaf.key then [] else [rule.failureMode]

theorem dimension_reports {rule : Rule} (hrule : rule ∈ rules lib g context)
    (hne : rule.items ≠ []) : ∃ node,
      dimension lib ((g.collectViolations lib context).map Violation.key) rule.key rule.items
        rule.failureMode = [node] ∧ Reports rule node := by
  have hleaf : ∀ item ∈ rule.items,
      ruleLeaf lib ((g.collectViolations lib context).map Violation.key) rule.failureMode item =
        leaf item (rule.holds item) (lib.spaced rule.failureMode ++ ": " ++ item)
          rule.failureMode := by
    intro item hitem
    rw [ruleLeaf, violated_iff hrule hitem, Bool.not_not]
  have hlabel (item : String) (passed : Bool) (reason mode : String) :
      decide ((leaf item passed reason mode).label = some .pass) = passed := by
    cases passed <;> rfl
  rw [dimension, if_neg hne, List.map_congr_left hleaf]
  refine ⟨_, rfl, rfl, ?_, ?_, rfl, ?_⟩
  · rw [List.map_map]
    exact List.map_id _
  · have hcount : (rule.items.map fun item => leaf item (rule.holds item)
        (lib.spaced rule.failureMode ++ ": " ++ item) rule.failureMode).countP
        (fun node => node.label = some .pass) = rule.items.countP rule.holds := by
      rw [List.countP_map]
      exact congrArg (rule.items.countP ·) (funext fun item => hlabel ..)
    simp only [hcount, List.length_map, List.countP_eq_length, List.all_eq_true]
  · intro node hnode
    obtain ⟨item, -, rfl⟩ := List.mem_map.mp hnode
    exact ⟨rfl, rfl, rfl⟩

theorem dimension_nil (violated : List String) (key failureMode : String) :
    dimension lib violated key [] failureMode = [] := if_pos rfl

theorem forall₂_dimensions {rs : List Rule} (hrs : ∀ rule ∈ rs, rule ∈ rules lib g context) :
    List.Forall₂ Reports (rs.filter fun rule => rule.items ≠ [])
      (rs.flatMap fun rule => dimension lib ((g.collectViolations lib context).map Violation.key)
        rule.key rule.items rule.failureMode) := by
  induction rs with
  | nil => exact .nil
  | cons rule rs ih =>
    have hrest := ih fun rule' hrule' => hrs rule' (List.mem_cons_of_mem _ hrule')
    rw [List.flatMap_cons]
    by_cases hnil : rule.items = []
    · rw [List.filter_cons_of_neg (by simp [hnil]), hnil, dimension_nil, List.nil_append]
      exact hrest
    · obtain ⟨node, hnode, hreports⟩ := dimension_reports (hrs rule List.mem_cons_self) hnil
      rw [List.filter_cons_of_pos (by simp [hnil]), hnode]
      exact .cons hreports hrest

theorem buildBreakdown_eq (label : GradeLabel) (score : ℚ) (violated : List String) :
    buildBreakdown lib context.case.expected label score violated =
      if (rules lib g context).flatMap (fun rule =>
        dimension lib violated rule.key rule.items rule.failureMode) = [] then none
      else some {
        key := "deterministic"
        label := some label
        score := some score
        weight := 1
        reason := "per-rule funnel; output-state authoritative"
        children := (rules lib g context).flatMap fun rule =>
          dimension lib violated rule.key rule.items rule.failureMode } := by
  simp only [buildBreakdown, rules, List.flatMap_cons, List.flatMap_nil, List.append_nil,
    List.append_assoc]

/-- **The tree** has a node for each rule the case declares, in order. -/
theorem buildBreakdown_reports {label : GradeLabel} {score : ℚ} {breakdown : Option BreakdownNode}
    (h : breakdown = buildBreakdown lib context.case.expected label score
      ((g.collectViolations lib context).map Violation.key)) :
    (breakdown = none ↔ ∀ rule ∈ rules lib g context, rule.items = []) ∧
      ∀ root ∈ breakdown, root.label = some label ∧ root.score = some score ∧
        List.Forall₂ Reports ((rules lib g context).filter fun rule => rule.items ≠ [])
          root.children := by
  have hnodes := forall₂_dimensions (fun rule (hrule : rule ∈ rules lib g context) => hrule)
  have hdeclared : ((rules lib g context).filter fun rule => rule.items ≠ []) = [] ↔
      ∀ rule ∈ rules lib g context, rule.items = [] := by
    simp [List.filter_eq_nil_iff]
  rw [@buildBreakdown_eq lib g] at h
  subst h
  split
  · rename_i hnil
    rw [hnil, List.forall₂_nil_right_iff] at hnodes
    exact ⟨iff_of_true rfl (hdeclared.mp hnodes), nofun⟩
  · rename_i hne
    refine ⟨iff_of_false nofun fun hall => ?_, fun root hroot => ?_⟩
    · rw [hdeclared.mpr hall, List.forall₂_nil_left_iff] at hnodes
      exact hne hnodes
    · cases hroot
      exact ⟨rfl, rfl, hnodes⟩

/-- **A deterministic grade says what holds**: the verdict is that of the rules, the score goes with
it, nothing is reported exactly when nothing is violated, and the leaves of the tree are right one
by one. -/
theorem grade_faithful (lib : Library) (g : DeterministicGrader) (context : GraderContext) :
    ((g.grade lib context).label = .pass ∨ (g.grade lib context).label = .fail) ∧
    ((g.grade lib context).label = .pass ↔
      EnoughIncluded lib g context ∧ HardRules lib g context) ∧
    (g.grade lib context).score = some (scoreOf lib g context (g.grade lib context).label) ∧
    ((g.grade lib context).failureModes = [] ↔
      AllIncluded lib g context ∧ HardRules lib g context) ∧
    ((g.grade lib context).breakdown = none ↔ ∀ rule ∈ rules lib g context, rule.items = []) ∧
    ∀ root ∈ (g.grade lib context).breakdown, root.label = some (g.grade lib context).label ∧
      root.score = (g.grade lib context).score ∧
      List.Forall₂ Reports ((rules lib g context).filter fun rule => rule.items ≠ [])
        root.children := by
  have h : Judged lib g context (g.grade lib context) := judged_grade
  obtain ⟨hnone, hroot⟩ := buildBreakdown_reports h.breakdown
  refine ⟨h.label, h.pass_iff, h.score, ?_, hnone, fun root hmem => ?_⟩
  · rw [← collectViolations_eq_nil_iff, List.eq_nil_iff_forall_not_mem]
    constructor
    · intro hmodes
      rw [List.eq_nil_iff_forall_not_mem]
      exact fun v hv => hmodes _ ((h.modes _).mpr ⟨v, hv, rfl⟩)
    · intro hnil mode hmode
      obtain ⟨v, hv, -⟩ := (h.modes mode).mp hmode
      rw [hnil] at hv
      exact absurd hv nofun
  · rw [h.score]
    exact hroot root hmem

/-! ### Cases that ask for less -/

/-- What the response has to contain is asked for less: fewer strings, where all are needed, or a
lower share of the same ones. -/
inductive WeakerInclude (e e' : Expected) : Prop
  | fewer (hsub : e.mustInclude ⊆ e'.mustInclude) (hall : e'.minRecall = none)
  | lower (hsame : e.mustInclude = e'.mustInclude) {r r' : ℚ} (hr : e.minRecall = some r)
      (hr' : e'.minRecall = some r') (hle : r ≤ r')

/-- The first expectations ask for less than the second. -/
structure Weaker (e e' : Expected) : Prop where
  mustInclude : WeakerInclude e e'
  mustNotInclude : e.mustNotInclude ⊆ e'.mustNotInclude
  requiredTools : e.requiredTools ⊆ e'.requiredTools
  forbiddenTools : e.forbiddenTools ⊆ e'.forbiddenTools
  structuredOutput : e.structuredOutput = none ∨ e.structuredOutput = e'.structuredOutput

/-- **A case that asks for less** passes where one that asks for more does. -/
theorem pass_of_weaker {lib : Library} {g : DeterministicGrader} {context context' : GraderContext}
    (h : Weaker context.case.expected context'.case.expected)
    (htrace : context.trace = context'.trace) (hresponse : context.response = context'.response)
    (hpass : (g.grade lib context').label = .pass) : (g.grade lib context).label = .pass := by
  have htext : finalResponseText context = finalResponseText context' := by
    unfold finalResponseText
    rw [hresponse]
  have hcontains : g.contains lib context = g.contains lib context' := by
    funext needle
    unfold DeterministicGrader.contains
    rw [htext]
  have houtput : context.structuredOutput = context'.structuredOutput := by
    unfold GraderContext.structuredOutput
    rw [hresponse]
  obtain ⟨henough, hhard⟩ := judged_grade.pass_iff.mp hpass
  refine judged_grade.pass_iff.mpr ⟨?_, ?_⟩
  · cases h.mustInclude with
    | fewer hsub hall =>
      rcases henough with hincluded | ⟨r, hr, -⟩
      · exact .inl fun needle hneedle => hcontains ▸ hincluded needle (hsub hneedle)
      · exact absurd (hall.symm.trans hr) nofun
    | lower hsame hr hr' hle =>
      rw [enoughIncluded_iff hr'] at henough
      rw [enoughIncluded_iff hr]
      have hcount : includedCount lib g context = includedCount lib g context' := by
        unfold includedCount
        rw [hcontains, hsame]
      rw [hcount, hsame]
      exact (mul_le_mul_of_nonneg_right hle (Nat.cast_nonneg _)).trans henough
  · refine ⟨fun needle hneedle =>
        hcontains ▸ hhard.mustNotInclude needle (h.mustNotInclude hneedle),
      fun tool htool => htrace ▸ hhard.requiredTools tool (h.requiredTools htool),
      fun tool htool => htrace ▸ hhard.forbiddenTools tool (h.forbiddenTools htool),
      fun regex hregex => htext ▸ hhard.regex regex hregex, fun expected hexpected => ?_⟩
    rw [houtput]
    rcases h.structuredOutput with hnone | hsame
    · exact absurd (hnone.symm.trans hexpected) nofun
    · exact hhard.structuredOutput expected (hsame ▸ hexpected)

end Verdict

/-- A refund of an order, held against what a case expects. -/
def refundContext (expected : Expected) (h : { EvalCase.minimal with expected }.Valid) :
    GraderContext where
  case := { EvalCase.minimal with expected }
  trace := .minimal
  response := some { content := some "refund of order 7" }
  case_valid := h

/-- A response with both strings, held against a case that asks for one of them. -/
theorem pass_of_weaker_refund :
    ((⟨"deterministic", false, none, by decide⟩ : DeterministicGrader).grade ⟨id, fun _ => "", id⟩
      (refundContext { mustInclude := ["refund"] } (by decide))).label = .pass :=
  @pass_of_weaker _ _ _ (refundContext
      { mustInclude := ["order", "refund"], mustNotInclude := ["sorry"] } (by decide))
    ⟨.fewer (by decide) rfl, by decide, List.Subset.refl _, List.Subset.refl _, .inl rfl⟩ rfl rfl
    (by decide)

end Selfevals.Graders.Deterministic
