import Selfevals.Graders.Pairwise
import Selfevals.Lib.Result

/-!
# The LLM judge

A judge answers with a text that should hold a JSON object with a label, and perhaps a score and a
confidence. `grade` turns an answer that it cannot read into an ERROR as far as reading it raises a
`ValueError`; `toTraceGraderResult` then checks the result against the schema of traces. Strings
are lists of code points, since JSON can escape surrogates that are no Unicode text.
-/

namespace Selfevals.Graders.LlmJudge

open Graders.Base Schemas.Enums Lib.Floats Lib.JsonValue Lib.PyStr Lib.Result
open Graders.Pairwise (Failure)
open Runner.Executors (AdapterRequest Raised)

/-! ### What an answer is read with -/

/-- A string as its code points, lone surrogates among them. -/
abbrev PyString := List ℕ

/-- A text as its code points. -/
def ofText (s : String) : PyString := s.toList.map Char.toNat

/-- `s.strip()`. -/
def stripPoints (s : PyString) : PyString :=
  let space (p : ℕ) : Bool := isSpace (Char.ofNat p)
  ((s.dropWhile space).reverse.dropWhile space).reverse

/-- What `json.loads` gives: a float may be an infinity or NaN. -/
inductive Value
  | null
  | bool (b : Bool)
  | int (n : ℤ)
  | float (x : PyFloat)
  | str (s : PyString)
  | arr (items : List Value)
  | obj (fields : List (PyString × Value))

/-- `type(v).__name__`. -/
def Value.typeName : Value → String
  | .null => "NoneType"
  | .bool _ => "bool"
  | .int _ => "int"
  | .float _ => "float"
  | .str _ => "str"
  | .arr _ => "list"
  | .obj _ => "dict"

/-- What is used of the language. -/
structure Library where
  /-- `json.loads`, which is expected to raise `JSONDecodeError`. -/
  loads : PyString → Except Failure Value
  /-- `str` of a value that is no string. -/
  strOf : Value → Except Raised PyString
  reprText : PyString → String
  lower : PyString → PyString
  /-- `float` of a string; `none` is the `ValueError`. -/
  floatOfText : PyString → Option PyFloat
  /-- `json.dumps(…, ensure_ascii=False)`. -/
  dumps : Object → String
  /-- `Template(…).safe_substitute(…)`. -/
  safeSubstitute : String → List (String × String) → String

variable (lib : Library)

/-- `str(v)`. -/
def pyStr : Value → Except Raised PyString
  | .str s => .ok s
  | v => lib.strOf v

/-- From here on, no float is near an integer. -/
@[irreducible] def floatLimit : ℤ := 2 ^ 1024 - 2 ^ 970

/-- `float(v)`. An integer is taken as it is, where it is rounded to a double. -/
def toFloat : Value → Except Raised PyFloat
  | .bool b => .ok (.finite (if b then 1 else 0))
  | .int n =>
    if |n| < floatLimit then .ok (.finite n)
    else .error (.other "int too large to convert to float")
  | .float x => .ok x
  | .str s =>
    match lib.floatOfText s with
    | some x => .ok x
    | none => .error (.value ("could not convert string to float: " ++ lib.reprText s))
  | v => .error (.other
      ("float() argument must be a string or a real number, not '" ++ v.typeName ++ "'"))

/-! ### The answer -/

/-- What a judge's answer says. -/
structure JudgeDecision where
  label : GradeLabel
  reason : PyString
  score : Option PyFloat := none
  confidence : Option PyFloat := none

/-- `data.get(key)`, where null and nothing are the same. -/
def given (data : List (PyString × Value)) (key : String) : Option Value :=
  match data.lookup (ofText key) with
  | none | some .null => none
  | some v => some v

/-- `str(data.get(key, "")).strip()`. -/
def textOf (data : List (PyString × Value)) (key : String) : Except Raised PyString :=
  (pyStr lib ((data.lookup (ofText key)).getD (.str []))).map stripPoints

/-- `GradeLabel(raw)`, if it is the value of one. -/
def labelOf (raw : PyString) : Option GradeLabel :=
  (Coded.members : List GradeLabel).find? fun label => ofText (Coded.value label) = raw

/-- `float(v) if v is not None else None`. -/
def optFloat : Option Value → Except Raised (Option PyFloat)
  | none => .ok none
  | some v => (toFloat lib v).map some

/-- `_parse_judge_output`. -/
def parseJudgeOutput (text : PyString) : Except Raised JudgeDecision := do
  let data ← (lib.loads text).mapError (Failure.reraised fun exc =>
    "judge did not return valid JSON: " ++ exc ++ "; text=" ++ lib.reprText text)
  match data with
  | .obj data => do
    let rawLabel := lib.lower (← textOf lib data "label")
    match labelOf rawLabel with
    | none => .error (.value ("judge returned unknown label: " ++ lib.reprText rawLabel))
    | some label => do
      let reason ← textOf lib data "reason"
      let score ← optFloat lib (given data "score")
      let confidence ← optFloat lib (given data "confidence")
      return {
        label
        reason := if reason = [] then ofText "no reason supplied" else reason
        score
        confidence }
  | v => .error (.value ("judge JSON must be an object, got " ++ v.typeName))

/-! ### The grader -/

def defaultRubric : String :=
  "You are an evaluator. Read the case input and the agent's response,\n" ++
  "then decide whether the response meets the rubric.\n\nRubric:\n$rubric\n\n" ++
  "Case input:\n$case_input\n\nAgent response:\n$agent_response\n\n" ++
  "Return a single JSON object with keys:\n- label: one of \"pass\", \"fail\", \"partial\"\n" ++
  "- reason: short justification\n- score: number in [0, 1] (optional)\n" ++
  "- confidence: number in [0, 1] (optional)\n"

/-- A rubric, and the template it is shown in. -/
structure RubricTemplate where
  rubric : String
  template : String := defaultRubric

/-- `RubricTemplate.render`. -/
def RubricTemplate.render (rubric : RubricTemplate) (caseInput : Object) (agentResponse : String) :
    String :=
  lib.safeSubstitute rubric.template
    [("rubric", rubric.rubric), ("case_input", lib.dumps caseInput),
      ("agent_response", agentResponse)]

/-- The states of a card. -/
inductive GraderCardState
  | calibrating | calibrated | inUse | drifting | recalibrating | retired
deriving DecidableEq, Repr

/-- What the judge reads of a card, with its metrics and their thresholds. -/
structure GraderCard where
  blocking : Bool := false
  precision : Option ℚ := none
  recalled : Option ℚ := none
  highRiskFalseNegatives : Option ℕ := none
  minPrecision : Option ℚ := none
  minRecall : Option ℚ := none
  maxHighRiskFalseNegatives : Option ℕ := none
  state : GraderCardState := .calibrating

/-- A threshold that is set is met by a metric that is there. -/
def meets {α : Type} (threshold metric : Option α) (le : α → α → Bool) : Bool :=
  match threshold, metric with
  | none, _ => true
  | some _, none => false
  | some t, some m => le t m

/-- `_is_card_calibrated`; without a card there is nothing to meet. -/
def isCardCalibrated : Option GraderCard → Bool
  | none => true
  | some card =>
    !card.blocking ||
      (meets card.minPrecision card.precision (fun t m => t ≤ m) &&
        meets card.minRecall card.recalled (fun t m => t ≤ m) &&
        meets card.maxHighRiskFalseNegatives card.highRiskFalseNegatives fun t m => m ≤ t)

/-- The content of a response: the judge's answer. -/
structure AdapterResponse where
  content : Option PyString

/-- A grade whose reason may hold lone surrogates, and whose score need not be a number. -/
structure GradeResult where
  grader : String
  label : GradeLabel
  reason : PyString
  score : Option PyFloat := none
  confidence : Option PyFloat := none
  failureModes : List String := []
  /-- `card_state`. -/
  details : Option (Option GraderCardState) := none

/-- A judge that the constructor admits. -/
structure LLMJudgeGrader where
  name : String
  judge : AdapterRequest → Except Raised AdapterResponse
  rubric : RubricTemplate
  card : Option GraderCard := none
  force : Bool := false
  name_ne : name ≠ ""

/-- The text of an exception. -/
def raisedText : Raised → String
  | .value text | .adapter text | .other text => text

namespace LLMJudgeGrader
variable (g : LLMJudgeGrader) (context : GraderContext)

/-- Whether the judge is asked at all. -/
def asks : Bool := g.force || isCardCalibrated g.card

/-- What the judge is asked. -/
def prompt : String :=
  g.rubric.render lib context.case.input ((context.response.bind (·.content)).getD "")

/-- `_build_judge_request`. -/
def request : AdapterRequest where
  workspaceId := context.case.workspaceId
  caseId := context.case.id
  input := [("messages",
    .arr [.obj [("role", .str "user"), ("content", .str (g.prompt lib context))]])]
  metadata := [("grader", .str g.name), ("judge", .bool true)]

/-- The result of a text that was answered. -/
def gradeText (text : PyString) : Except Raised GradeResult :=
  match parseJudgeOutput lib text with
  | .ok decision => .ok {
      grader := g.name
      label := decision.label
      reason := decision.reason
      score := decision.score
      confidence := decision.confidence }
  | .error (.value exc) => .ok {
      grader := g.name, label := .error, reason := ofText ("could not parse judge output: " ++ exc) }
  | .error raised => .error raised

/-- `LLMJudgeGrader.grade`. -/
def grade : Except Raised GradeResult :=
  if !g.asks then .ok {
      grader := g.name
      label := .skipped
      reason := ofText "blocking grader below calibration thresholds; degraded to advisory"
      details := some (g.card.map (·.state)) }
  else
    match g.judge (g.request lib context) with
    | .error exc => .ok {
        grader := g.name
        label := .error
        reason := ofText ("judge invocation failed: " ++ raisedText exc) }
    | .ok response => g.gradeText lib (response.content.getD [])

/-- The text that the judge answers, if it is asked and answers. -/
def answer : Option PyString :=
  if g.asks then
    match g.judge (g.request lib context) with
    | .error _ => none
    | .ok response => some (response.content.getD [])
  else none

end LLMJudgeGrader

/-! ### Stamping the trace -/

/-- The result as the trace holds it. -/
structure TraceGraderResult where
  grader : String
  label : String
  score : Option PyFloat
  reason : PyString
  confidence : Option PyFloat
  failureModes : List String

/-- `0.0 <= x <= 1.0`. -/
def isShare : PyFloat → Bool
  | .finite q => 0 ≤ q && q ≤ 1
  | .inf | .negInf | .nan => false

/-- The fields that the schema refuses; `reason` may be any string. -/
def refusedFields (grade : GradeResult) : List String :=
  (if grade.grader = "" then ["grader"] else []) ++
    (if grade.confidence.all isShare then [] else ["confidence"]) ++
    (if "" ∈ grade.failureModes then ["failure_modes"] else [])

/-- `to_trace_grader_result`; the fields refused are those of the `ValidationError`. -/
def toTraceGraderResult (grade : GradeResult) : Except (List String) TraceGraderResult :=
  if refusedFields grade = [] then .ok {
    grader := grade.grader
    label := Coded.value grade.label
    score := grade.score
    reason := grade.reason
    confidence := grade.confidence
    failureModes := grade.failureModes }
  else .error (refusedFields grade)

/-- What fails a case: a grade that raises, or a result that its trace refuses. -/
inductive CaseError
  | raised (e : Raised)
  | validation (fields : List String)

/-- The grades of a case, and then the results for its traces. -/
def gradeCase (tasks : List (LLMJudgeGrader × GraderContext)) :
    Except CaseError (List TraceGraderResult) := do
  let grades ← tasks.mapM fun task => (task.1.grade lib task.2).mapError .raised
  grades.mapM fun grade => (toTraceGraderResult grade).mapError .validation

/-! ### Answers that do no harm -/

/-- A value as a float: a boolean, an integer within the range, a float, or a text that is one. -/
inductive ReadsAs : Value → PyFloat → Prop
  | bool (b : Bool) : ReadsAs (.bool b) (.finite (if b then 1 else 0))
  | int {n : ℤ} (h : |n| < floatLimit) : ReadsAs (.int n) (.finite n)
  | float (x : PyFloat) : ReadsAs (.float x) x
  | str {s : PyString} {x : PyFloat} (h : lib.floatOfText s = some x) : ReadsAs (.str s) x

/-- A text that is no number. -/
def NoNumber (v : Option Value) : Prop := ∃ s, v = some (.str s) ∧ lib.floatOfText s = none

/-- A value that reads as a float, or nothing. -/
def Readable (v : Option Value) : Prop := ∀ w ∈ v, ∃ x, ReadsAs lib w x

/-- A JSON number, or nothing. -/
def NumberOrAbsent (v : Option Value) : Prop := ∀ w ∈ v, (∃ n, w = .int n) ∨ ∃ x, w = .float x

/-- A value between zero and one, or nothing. -/
def Share (v : Option Value) : Prop := ∀ w ∈ v, ∀ x, ReadsAs lib w x → isShare x = true

/-- The label of an object, after `str(…).strip().lower()`. -/
def HasLabel (data : List (PyString × Value)) (label : GradeLabel) : Prop :=
  ∃ raw, textOf lib data "label" = .ok raw ∧ labelOf (lib.lower raw) = some label

/-- An object with a known label whose score and confidence are numbers or absent. -/
def WellFormed (text : PyString) : Prop :=
  ∃ data, lib.loads text = .ok (.obj data) ∧ (∃ label, HasLabel lib data label) ∧
    NumberOrAbsent (given data "score") ∧ NumberOrAbsent (given data "confidence")

/-- A `ValueError`, `JSONDecodeError` among them. -/
def ValueErrorOnly : Raised → Prop
  | .value _ => True
  | .adapter _ | .other _ => False

/-- Score and confidence do no harm: one of them is a text that is no number, with nothing before it
that does not read as a float; or both read as floats, the confidence between zero and one, and
both are numbers unless the label is ERROR anyway. -/
def HarmlessNumbers (label : GradeLabel) (score confidence : Option Value) : Prop :=
  NoNumber lib score ∨
    Readable lib score ∧
      (NoNumber lib confidence ∨
        Readable lib confidence ∧ Share lib confidence ∧
          (NumberOrAbsent score ∧ NumberOrAbsent confidence ∨ label = .error))

/-- An object does no harm: it has no known label, or harmless numbers. -/
def HarmlessObject (data : List (PyString × Value)) : Prop :=
  (∀ e, textOf lib data "label" = .error e → ValueErrorOnly e) ∧
    ∀ label, HasLabel lib data label →
      (∀ e, textOf lib data "reason" = .error e → ValueErrorOnly e) ∧
        ∀ reason, textOf lib data "reason" = .ok reason →
          HarmlessNumbers lib label (given data "score") (given data "confidence")

/-- A text does no harm: it is no JSON, or no object, or a harmless one. -/
def Harmless (text : PyString) : Prop :=
  (∀ raised, lib.loads text = .error (.other raised) → ValueErrorOnly raised) ∧
    ∀ data, lib.loads text = .ok (.obj data) → HarmlessObject lib data

/-- The grading returns, with ERROR unless the text is well formed, and its result can be stamped
on the trace. -/
def Survives (g : LLMJudgeGrader) (context : GraderContext) (text : PyString) : Prop :=
  ∃ r, g.grade lib context = .ok r ∧ (¬WellFormed lib text → r.label = .error) ∧
    ∃ t, toTraceGraderResult r = .ok t

/-! ### Reading numbers -/

theorem toFloat_eq_ok_iff (v : Value) (x : PyFloat) : toFloat lib v = .ok x ↔ ReadsAs lib v x := by
  constructor
  · intro h
    cases v with
    | bool b =>
      cases h
      exact .bool b
    | int n =>
      simp only [toFloat] at h
      split_ifs at h with hn
      cases h
      exact .int hn
    | float y =>
      cases h
      exact .float _
    | str s =>
      simp only [toFloat] at h
      cases hs : lib.floatOfText s with
      | none =>
        rw [hs] at h
        cases h
      | some y =>
        rw [hs] at h
        cases h
        exact .str hs
    | null => cases h
    | arr items => cases h
    | obj fields => cases h
  · intro h
    cases h with
    | bool b => rfl
    | int hn =>
      simp only [toFloat]
      exact if_pos hn
    | float x => rfl
    | str hs => simp only [toFloat, hs]

theorem toFloat_error {v : Value} {e : Raised} (h : toFloat lib v = .error e) :
    ValueErrorOnly e ↔ ∃ s, v = .str s ∧ lib.floatOfText s = none := by
  cases v with
  | str s =>
    simp only [toFloat] at h
    cases hs : lib.floatOfText s with
    | none =>
      rw [hs] at h
      cases h
      exact iff_of_true trivial ⟨s, rfl, hs⟩
    | some y =>
      rw [hs] at h
      cases h
  | int n =>
    simp only [toFloat] at h
    split_ifs at h
    cases h
    simp [ValueErrorOnly]
  | bool b => cases h
  | float y => cases h
  | null =>
    cases h
    simp [ValueErrorOnly]
  | arr items =>
    cases h
    simp [ValueErrorOnly]
  | obj fields =>
    cases h
    simp [ValueErrorOnly]

theorem optFloat_eq_ok_iff (v : Option Value) (x : Option PyFloat) :
    optFloat lib v = .ok x ↔ Option.Rel (ReadsAs lib) v x := by
  cases v with
  | none =>
    refine ⟨fun h => ?_, fun h => ?_⟩
    · cases h
      exact .none
    · cases h
      rfl
  | some w =>
    rw [optFloat, map_eq_ok]
    constructor
    · rintro ⟨y, hy, rfl⟩
      exact .some ((toFloat_eq_ok_iff lib w y).mp hy)
    · intro h
      cases h with
      | some hw => exact ⟨_, (toFloat_eq_ok_iff lib w _).mpr hw, rfl⟩

theorem readable_iff (v : Option Value) : Readable lib v ↔ ∃ x, optFloat lib v = .ok x := by
  simp only [optFloat_eq_ok_iff]
  cases v with
  | none => exact iff_of_true (fun w hw => nomatch hw) ⟨none, .none⟩
  | some w =>
    constructor
    · intro h
      obtain ⟨x, hx⟩ := h w rfl
      exact ⟨some x, .some hx⟩
    · rintro ⟨x, hx⟩ w' hw'
      cases hw'
      cases hx with
      | some hw => exact ⟨_, hw⟩

theorem noNumber_iff (v : Option Value) :
    NoNumber lib v ↔ ∃ e, optFloat lib v = .error e ∧ ValueErrorOnly e := by
  cases v with
  | none =>
    refine iff_of_false ?_ ?_
    · rintro ⟨s, hs, -⟩
      cases hs
    · rintro ⟨e, he, -⟩
      cases he
  | some w =>
    have hopt : optFloat lib (some w) = (toFloat lib w).map some := rfl
    unfold NoNumber
    rw [hopt]
    cases h : toFloat lib w with
    | ok x =>
      refine iff_of_false ?_ ?_
      · rintro ⟨s, hs, hnone⟩
        cases hs
        simp only [toFloat, hnone] at h
        cases h
      · rintro ⟨e, he, -⟩
        cases he
    | error e =>
      have herror := toFloat_error lib h
      constructor
      · rintro ⟨s, hs, hnone⟩
        exact ⟨e, rfl, herror.mpr ⟨s, Option.some.inj hs, hnone⟩⟩
      · rintro ⟨e', he', hvalue⟩
        cases he'
        obtain ⟨s, hs, hnone⟩ := herror.mp hvalue
        exact ⟨s, congrArg some hs, hnone⟩

theorem share_iff {v : Option Value} {x : Option PyFloat} (h : optFloat lib v = .ok x) :
    Share lib v ↔ x.all isShare = true := by
  rw [optFloat_eq_ok_iff] at h
  cases h with
  | none => simp [Share]
  | @some w y hw =>
    have hunique : ∀ z, ReadsAs lib w z → z = y := by
      intro z hz
      rw [← toFloat_eq_ok_iff] at hz hw
      exact Except.ok.inj (hz.symm.trans hw)
    constructor
    · exact fun hshare => hshare w rfl y hw
    · intro hshare w' hw' z hz
      cases hw'
      rw [hunique z hz]
      exact hshare

/-! ### Stamping -/

variable {lib} {g : LLMJudgeGrader} {context : GraderContext} {text : PyString}

theorem stamps_iff {r : GradeResult} (hgrader : r.grader = g.name) (hmodes : r.failureModes = []) :
    (∃ t, toTraceGraderResult r = .ok t) ↔ r.confidence.all isShare = true := by
  have hrefused : refusedFields r = [] ↔ r.confidence.all isShare = true := by
    simp [refusedFields, hgrader, g.name_ne, hmodes]
  unfold toTraceGraderResult
  split_ifs with h
  · exact iff_of_true ⟨_, rfl⟩ (hrefused.mp h)
  · exact iff_of_false (fun ⟨t, ht⟩ => nomatch ht) (mt hrefused.mpr h)

theorem stamps_error (g : LLMJudgeGrader) (label : GradeLabel) (reason : PyString)
    (details : Option (Option GraderCardState)) :
    ∃ t, toTraceGraderResult { grader := g.name, label, reason, details } = .ok t :=
  (stamps_iff (g := g) rfl rfl).mpr rfl

/-- What a grading survives, of a text that the judge answered. -/
def TextSurvives (lib : Library) (g : LLMJudgeGrader) (text : PyString) : Prop :=
  ∃ r, g.gradeText lib text = .ok r ∧ (¬WellFormed lib text → r.label = .error) ∧
    ∃ t, toTraceGraderResult r = .ok t

/-- A computation settles: it raises at most a `ValueError`, and what it returns is good. -/
def Settles {α : Type} (good : α → Prop) (x : Except Raised α) : Prop :=
  (∀ e, x = .error e → ValueErrorOnly e) ∧ ∀ a, x = .ok a → good a

theorem settles_ok {α : Type} {good : α → Prop} {a : α} : Settles good (.ok a) ↔ good a :=
  ⟨fun h => h.2 a rfl, fun h => ⟨fun _ he => (nomatch he), fun _ ha => Except.ok.inj ha ▸ h⟩⟩

theorem settles_error {α : Type} {good : α → Prop} {e : Raised} :
    Settles good (.error e) ↔ ValueErrorOnly e :=
  ⟨fun h => h.1 e rfl, fun h => ⟨fun _ he => Except.error.inj he ▸ h, fun _ ha => (nomatch ha)⟩⟩

theorem settles_bind {α β : Type} {good : β → Prop} {x : Except Raised α}
    {f : α → Except Raised β} :
    Settles good (x >>= f) ↔ Settles (fun a => Settles good (f a)) x := by
  cases x with
  | error e => exact settles_error.trans settles_error.symm
  | ok a =>
    rw [settles_ok]
    rfl

theorem settles_optFloat {good : Option PyFloat → Prop} {v : Option Value} :
    Settles good (optFloat lib v) ↔
      NoNumber lib v ∨ Readable lib v ∧ ∀ x, optFloat lib v = .ok x → good x := by
  rw [noNumber_iff, readable_iff]
  cases optFloat lib v with
  | error e => simp [settles_error]
  | ok x => simp [settles_ok]

/-- What is asked of a decision. -/
def GoodDecision (lib : Library) (text : PyString) (d : JudgeDecision) : Prop :=
  (WellFormed lib text ∨ d.label = .error) ∧ d.confidence.all isShare = true

theorem textSurvives_iff_settles :
    TextSurvives lib g text ↔ Settles (GoodDecision lib text) (parseJudgeOutput lib text) := by
  unfold TextSurvives LLMJudgeGrader.gradeText
  cases parseJudgeOutput lib text with
  | error e =>
    rw [settles_error]
    cases e with
    | value exc =>
      exact iff_of_true ⟨_, rfl, fun _ => rfl, stamps_error g .error _ none⟩ trivial
    | adapter exc => exact iff_of_false (fun ⟨r, hr, _⟩ => nomatch hr) id
    | other exc => exact iff_of_false (fun ⟨r, hr, _⟩ => nomatch hr) id
  | ok d =>
    simp only [Except.ok.injEq, exists_eq_left']
    rw [settles_ok, GoodDecision, stamps_iff (g := g) rfl rfl, or_iff_not_imp_left]

/-! ### The answers that a grading survives -/

section Object
variable {data : List (PyString × Value)} (hloads : lib.loads text = .ok (.obj data))
include hloads

theorem parse_object : parseJudgeOutput lib text = do
    let rawLabel := lib.lower (← textOf lib data "label")
    match labelOf rawLabel with
    | none => .error (.value ("judge returned unknown label: " ++ lib.reprText rawLabel))
    | some label => do
      let reason ← textOf lib data "reason"
      let score ← optFloat lib (given data "score")
      let confidence ← optFloat lib (given data "confidence")
      return {
        label
        reason := if reason = [] then ofText "no reason supplied" else reason
        score
        confidence } := by
  unfold parseJudgeOutput
  rw [hloads]
  rfl

theorem wellFormed_object {label : GradeLabel} (hlabel : HasLabel lib data label) :
    WellFormed lib text ↔
      NumberOrAbsent (given data "score") ∧ NumberOrAbsent (given data "confidence") := by
  unfold WellFormed
  rw [hloads]
  constructor
  · rintro ⟨data', hdata, -, hnumbers⟩
    cases hdata
    exact hnumbers
  · exact fun hnumbers => ⟨data, rfl, ⟨label, hlabel⟩, hnumbers⟩

theorem settles_numbers {label : GradeLabel} (hlabel : HasLabel lib data label)
    (reason : PyString) :
    Settles (GoodDecision lib text) (do
      let score ← optFloat lib (given data "score")
      let confidence ← optFloat lib (given data "confidence")
      return {
        label
        reason := if reason = [] then ofText "no reason supplied" else reason
        score
        confidence }) ↔
      HarmlessNumbers lib label (given data "score") (given data "confidence") := by
  rw [settles_bind, settles_optFloat, HarmlessNumbers]
  refine or_congr_right (and_congr_right fun hscore => ?_)
  obtain ⟨score, hscore⟩ := (readable_iff lib _).mp hscore
  simp only [hscore, Except.ok.injEq, forall_eq']
  rw [settles_bind, settles_optFloat]
  refine or_congr_right (and_congr_right fun hconfidence => ?_)
  obtain ⟨confidence, hconfidence⟩ := (readable_iff lib _).mp hconfidence
  simp only [hconfidence, Except.ok.injEq, forall_eq', share_iff lib hconfidence]
  have hgood := wellFormed_object hloads hlabel
  show Settles (GoodDecision lib text) (.ok _) ↔ _
  rw [settles_ok, GoodDecision, hgood]
  tauto

theorem settles_object :
    Settles (GoodDecision lib text) (parseJudgeOutput lib text) ↔ HarmlessObject lib data := by
  rw [parse_object hloads, settles_bind]
  unfold HarmlessObject
  refine and_congr_right fun _ => ?_
  constructor
  · rintro h label ⟨raw, hraw, hlabel⟩
    have hsettles := h raw hraw
    simp only [hlabel] at hsettles
    rw [settles_bind] at hsettles
    exact ⟨hsettles.1, fun reason hreason =>
      (settles_numbers hloads ⟨raw, hraw, hlabel⟩ reason).mp (hsettles.2 reason hreason)⟩
  · intro h raw hraw
    dsimp only
    cases hlabel : labelOf (lib.lower raw) with
    | none => exact settles_error.mpr trivial
    | some label =>
      obtain ⟨hraises, hnumbers⟩ := h label ⟨raw, hraw, hlabel⟩
      exact settles_bind.mpr ⟨hraises, fun reason hreason =>
        (settles_numbers hloads ⟨raw, hraw, hlabel⟩ reason).mpr (hnumbers reason hreason)⟩

end Object

theorem settles_iff_harmless :
    Settles (GoodDecision lib text) (parseJudgeOutput lib text) ↔ Harmless lib text := by
  unfold Harmless
  cases hloads : lib.loads text with
  | error failure =>
    unfold parseJudgeOutput
    rw [hloads, settles_bind]
    show Settles _ (.error _) ↔ _
    rw [settles_error]
    cases failure with
    | expected exc => simp [Failure.reraised, ValueErrorOnly]
    | other raised => simp [Failure.reraised]
  | ok v =>
    cases v with
    | obj data => simp [settles_object hloads]
    | _ =>
      unfold parseJudgeOutput
      rw [hloads]
      exact iff_of_true (settles_error.mpr trivial) (by simp)

theorem grade_of_answer (h : g.answer lib context = some text) :
    g.grade lib context = g.gradeText lib text := by
  unfold LLMJudgeGrader.answer at h
  unfold LLMJudgeGrader.grade
  split_ifs at h with hasks
  rw [hasks]
  cases hjudge : g.judge (g.request lib context) with
  | error e =>
    rw [hjudge] at h
    cases h
  | ok response =>
    rw [hjudge] at h
    cases h
    rfl

/-- **What a judge may answer**: a grading survives exactly the texts that do no harm. -/
theorem survives_iff (h : g.answer lib context = some text) :
    Survives lib g context text ↔ Harmless lib text := by
  rw [← settles_iff_harmless, ← textSurvives_iff_settles (g := g), Survives, grade_of_answer h]
  rfl

/-- An answer that is no JSON. -/
def proseLibrary : Library where
  loads _ := .error (.expected "Expecting value: line 1 column 1 (char 0)")
  strOf v := .ok (ofText v.typeName)
  reprText _ := "'I would pass it'"
  lower s := s
  floatOfText _ := none
  dumps _ := ""
  safeSubstitute template _ := template

/-- A judge that answers with prose. -/
def proseJudge : LLMJudgeGrader where
  name := "judge"
  judge _ := .ok { content := some (ofText "I would pass it") }
  rubric := { rubric := "be kind" }
  name_ne := by decide

theorem survives_prose :
    Survives proseLibrary proseJudge .minimal (ofText "I would pass it") :=
  (survives_iff rfl).mpr ⟨fun _ h => (nomatch h), fun _ h => (nomatch h)⟩

/-- A list for a score is not survived. -/
theorem list_score_raises :
    let lib := { proseLibrary with
      loads := fun _ => .ok (.obj
        [(ofText "label", .str (ofText "pass")), (ofText "score", .arr [.int 1])]) }
    let text := ofText "\x7b\"label\": \"pass\", \"score\": [1]\x7d"
    let g : LLMJudgeGrader := {
      name := "judge", judge := fun _ => .ok { content := some text }
      rubric := { rubric := "be kind" }, name_ne := by decide }
    g.answer lib .minimal = some text ∧ ¬Survives lib g .minimal text := by
  refine ⟨rfl, ?_⟩
  rintro ⟨r, hr, -⟩
  cases hr

/-! ### Cases -/

theorem stamps_of_no_answer (h : g.answer lib context = none) :
    ∃ r, g.grade lib context = .ok r ∧ ∃ t, toTraceGraderResult r = .ok t := by
  unfold LLMJudgeGrader.answer at h
  unfold LLMJudgeGrader.grade
  split_ifs at h with hasks
  · rw [hasks]
    cases hjudge : g.judge (g.request lib context) with
    | error e => exact ⟨_, rfl, stamps_error g .error _ none⟩
    | ok response =>
      rw [hjudge] at h
      cases h
  · rw [Bool.not_eq_true] at hasks
    rw [hasks]
    exact ⟨_, rfl, stamps_error g .skipped _ _⟩

/-- **A case** is graded and stamped when no judge's answer does harm. -/
theorem gradeCase_isOk {tasks : List (LLMJudgeGrader × GraderContext)}
    (h : ∀ task ∈ tasks, ∀ text, task.1.answer lib task.2 = some text → Harmless lib text) :
    ∃ results, gradeCase lib tasks = .ok results := by
  have hgrade : ∀ task ∈ tasks, ∃ r,
      (task.1.grade lib task.2).mapError CaseError.raised = .ok r ∧
        ∃ t, toTraceGraderResult r = .ok t := by
    intro task htask
    cases hanswer : task.1.answer lib task.2 with
    | none =>
      obtain ⟨r, hr, hstamp⟩ := stamps_of_no_answer hanswer
      exact ⟨r, mapError_eq_ok.mpr hr, hstamp⟩
    | some text =>
      have hsettled := settles_iff_harmless.mpr (h task htask text hanswer)
      obtain ⟨r, hr, -, hstamp⟩ := (textSurvives_iff_settles (g := task.1)).mpr hsettled
      exact ⟨r, mapError_eq_ok.mpr ((grade_of_answer hanswer).trans hr), hstamp⟩
  obtain ⟨grades, hgrades, hstamps⟩ := exists_mapM hgrade
  have hresults : ∀ grade ∈ grades, ∃ t,
      (toTraceGraderResult grade).mapError CaseError.validation = .ok t ∧ True := by
    intro grade hmem
    obtain ⟨t, ht⟩ := hstamps grade hmem
    exact ⟨t, mapError_eq_ok.mpr ht, trivial⟩
  obtain ⟨results, hok, -⟩ := exists_mapM hresults
  exact ⟨results, bind_eq_ok.mpr ⟨grades, hgrades, hok⟩⟩

/-- A judge that answers with no JSON, asked twice. -/
theorem gradeCase_isOk_prose : ∃ results,
    gradeCase proseLibrary [(proseJudge, .minimal), (proseJudge, .minimal)] = .ok results :=
  gradeCase_isOk fun _ _ _ _ => ⟨fun _ h => (nomatch h), fun _ h => (nomatch h)⟩

end Selfevals.Graders.LlmJudge
