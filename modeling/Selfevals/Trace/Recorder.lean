import Mathlib.Algebra.Order.Field.Rat
import Mathlib.Data.NNRat.Defs
import Mathlib.Tactic

/-!
# The recorder of a trace

A `TraceRecorder` collects the spans of one run in order and counts as it goes; `build` makes a
`Trace` of them, whose validators look at the list as a whole. Of a span only what these read is
kept: its id and parent, the tokens, cost and requested tool uses of a model call, and the id a tool
call answers to. Times, payloads and the other kinds' details are left out.
-/

namespace Selfevals.Trace.Recorder

/-! ### Spans -/

/-- What is raised while spans are built, recorded or put into a trace. -/
inductive TraceError
  | negativeTokens
  | tokensTotal (total componentSum : ℤ)
  | emptyField (field : String)
  | notAString (field : String)
  | notAnInt (field : String)
  | negativeCount (field : String)
  | timestamp (value : ℕ)
  | spanIdsNotUnique
  | parentMissing
  | toolUseNotRequested
deriving DecidableEq, Repr

/-- Per-call token accounting: the total covers the components. -/
structure TokenBreakdown where
  input : ℕ := 0
  inputCacheRead : ℕ := 0
  inputCacheCreation : ℕ := 0
  output : ℕ := 0
  reasoning : ℕ := 0
  total : ℕ := 0
  total_covers : input + inputCacheRead + inputCacheCreation + output + reasoning ≤ total

/-- The constructor, on whatever integers it is called with. -/
def newTokenBreakdown (input inputCacheRead inputCacheCreation output reasoning total : ℤ) :
    Except TraceError TokenBreakdown :=
  if 0 ≤ input ∧ 0 ≤ inputCacheRead ∧ 0 ≤ inputCacheCreation ∧ 0 ≤ output ∧ 0 ≤ reasoning ∧
      0 ≤ total then
    let componentSum := input.toNat + inputCacheRead.toNat + inputCacheCreation.toNat +
      output.toNat + reasoning.toNat
    if h : componentSum ≤ total.toNat then
      .ok {
        input := input.toNat
        inputCacheRead := inputCacheRead.toNat
        inputCacheCreation := inputCacheCreation.toNat
        output := output.toNat
        reasoning := reasoning.toNat
        total := total.toNat
        total_covers := h }
    else .error (.tokensTotal total componentSum)
  else .error .negativeTokens

/-- What a model call reports. -/
structure LLMCall where
  tokens : TokenBreakdown
  /-- `cost_usd.total`. -/
  costUsd : NNRat := 0
  retries : ℕ := 0
  /-- The ids of `output.tool_use_requested`. -/
  toolUseRequested : List String := []

/-- The part of a span that depends on its kind. -/
inductive SpanBody
  | agentTurn
  | llmCall (call : LLMCall)
  | toolCall (toolUseId : Option String)
  | retrieval
  | memoryRead
  | memoryWrite
  | stt
  | tts
  | decision
  | handoff
  | humanIntervention
  | guardrailCheck
  | error
  | custom

/-- A span, as far as totals read it. -/
structure Span where
  id : String
  parentId : Option String := none
  body : SpanBody

namespace Span

def llmCall? (s : Span) : Option LLMCall :=
  match s.body with
  | .llmCall call => some call
  | _ => none

def isLLMCall (s : Span) : Bool := s.llmCall?.isSome

def isToolCall (s : Span) : Bool :=
  match s.body with
  | .toolCall _ => true
  | _ => false

/-- The id that a tool call answers to. -/
def toolUseId? (s : Span) : Option String :=
  match s.body with
  | .toolCall toolUseId => toolUseId
  | _ => none

def toolUseRequested (s : Span) : List String := (s.llmCall?.map (·.toolUseRequested)).getD []

def tokensIn (s : Span) : ℕ :=
  (s.llmCall?.map fun call => call.tokens.input + call.tokens.inputCacheRead).getD 0

def tokensOut (s : Span) : ℕ := (s.llmCall?.map (·.tokens.output)).getD 0

def costUsd (s : Span) : NNRat := (s.llmCall?.map (·.costUsd)).getD 0

def retries (s : Span) : ℕ := (s.llmCall?.map (·.retries)).getD 0

end Span

/-! ### Traces -/

/-- The totals of a trace. -/
structure TraceMetrics where
  totalTokensIn : ℕ := 0
  totalTokensOut : ℕ := 0
  totalCostUsd : NNRat := 0
  toolCallCount : ℕ := 0
  llmCallCount : ℕ := 0
  retries : ℕ := 0

/-- What the spans add up to. -/
def metricsOf (spans : List Span) : TraceMetrics where
  totalTokensIn := (spans.map (·.tokensIn)).sum
  totalTokensOut := (spans.map (·.tokensOut)).sum
  totalCostUsd := (spans.map (·.costUsd)).sum
  toolCallCount := spans.countP (·.isToolCall)
  llmCallCount := spans.countP (·.isLLMCall)
  retries := (spans.map (·.retries)).sum

theorem metricsOf_append (spans : List Span) (s : Span) :
    metricsOf (spans ++ [s]) = {
      totalTokensIn := (metricsOf spans).totalTokensIn + s.tokensIn
      totalTokensOut := (metricsOf spans).totalTokensOut + s.tokensOut
      totalCostUsd := (metricsOf spans).totalCostUsd + s.costUsd
      toolCallCount := (metricsOf spans).toolCallCount + if s.isToolCall then 1 else 0
      llmCallCount := (metricsOf spans).llmCallCount + if s.isLLMCall then 1 else 0
      retries := (metricsOf spans).retries + s.retries } := by
  simp [metricsOf, List.sum_append, List.countP_append, List.countP_singleton]

/-- `_parent_ids_reference_existing_spans`. -/
def ParentIdsExist (spans : List Span) : Prop :=
  ∀ s ∈ spans, ∀ parent ∈ s.parentId, parent ∈ spans.map (·.id)
deriving Decidable

/-- `_tool_use_ids_linked`. -/
def ToolUseIdsLinked (spans : List Span) : Prop :=
  ∀ s ∈ spans, ∀ toolUseId ∈ s.toolUseId?, toolUseId ∈ spans.flatMap (·.toolUseRequested)

instance (spans : List Span) : Decidable (ToolUseIdsLinked spans) := by
  unfold ToolUseIdsLinked
  infer_instance

/-- A trace as it is built: its validators accept it. -/
structure BuiltTrace where
  spans : List Span
  metrics : TraceMetrics
  spanIdsUnique : (spans.map (·.id)).Nodup
  parentIdsExist : ParentIdsExist spans
  toolUseIdsLinked : ToolUseIdsLinked spans

/-! ### The recorder -/

/-- `TraceRecorder`. -/
structure TraceRecorder where
  spans : List Span := []
  /-- The open spans, the innermost first. -/
  openParents : List String := []
  tokensIn : ℕ := 0
  tokensOut : ℕ := 0
  costUsd : NNRat := 0
  toolCallCount : ℕ := 0
  llmCallCount : ℕ := 0
  retries : ℕ := 0

namespace TraceRecorder

/-- `_record`. -/
def record (r : TraceRecorder) (s : Span) : TraceRecorder := { r with spans := r.spans ++ [s] }

/-- The innermost open span. -/
def currentParent (r : TraceRecorder) : Option String := r.openParents.head?

/-- The start of `agent_turn`. -/
def enterTurn (r : TraceRecorder) (id : String) : TraceRecorder :=
  { r with openParents := id :: r.openParents }

/-- The end of `agent_turn`, which records the span. -/
def exitTurn (r : TraceRecorder) (id : String) : TraceRecorder :=
  let r := { r with openParents := r.openParents.tail }
  r.record { id, parentId := r.currentParent, body := .agentTurn }

/-- `llm_call`, with what its block leaves in the builder. -/
def llmCall (r : TraceRecorder) (id : String) (call : LLMCall) : TraceRecorder :=
  { r.record { id, parentId := r.currentParent, body := .llmCall call } with
    llmCallCount := r.llmCallCount + 1
    tokensIn := r.tokensIn + (call.tokens.input + call.tokens.inputCacheRead)
    tokensOut := r.tokensOut + call.tokens.output
    costUsd := r.costUsd + call.costUsd
    retries := r.retries + call.retries }

/-- `tool_call`. -/
def toolCall (r : TraceRecorder) (id : String) (toolUseId : Option String) : TraceRecorder :=
  { r.record { id, parentId := r.currentParent, body := .toolCall toolUseId } with
    toolCallCount := r.toolCallCount + 1 }

/-- The metrics that `build` writes. -/
def metrics (r : TraceRecorder) : TraceMetrics where
  totalTokensIn := r.tokensIn
  totalTokensOut := r.tokensOut
  totalCostUsd := r.costUsd
  toolCallCount := r.toolCallCount
  llmCallCount := r.llmCallCount
  retries := r.retries

/-- `build`: the trace, unless a validator raises. -/
def build (r : TraceRecorder) : Except TraceError BuiltTrace :=
  if hids : (r.spans.map (·.id)).Nodup then
    if hparents : ParentIdsExist r.spans then
      if hlinked : ToolUseIdsLinked r.spans then
        .ok {
          spans := r.spans
          metrics := r.metrics
          spanIdsUnique := hids
          parentIdsExist := hparents
          toolUseIdsLinked := hlinked }
      else .error .toolUseNotRequested
    else .error .parentMissing
  else .error .spanIdsNotUnique

variable {r : TraceRecorder}

/-- **When `build` returns**, and what. -/
theorem build_eq_ok_iff {trace : BuiltTrace} :
    r.build = .ok trace ↔ trace.spans = r.spans ∧ trace.metrics = r.metrics := by
  constructor
  · intro h
    unfold build at h
    split_ifs at h
    obtain rfl := Except.ok.inj h
    exact ⟨rfl, rfl⟩
  · obtain ⟨spans, metrics, hids, hparents, hlinked⟩ := trace
    rintro ⟨hspans, hmetrics⟩
    dsimp only at hspans hmetrics
    subst hspans hmetrics
    rw [build, dif_pos hids, dif_pos hparents, dif_pos hlinked]

theorem exists_build_iff : (∃ trace, r.build = .ok trace) ↔
    (r.spans.map (·.id)).Nodup ∧ ParentIdsExist r.spans ∧ ToolUseIdsLinked r.spans := by
  constructor
  · rintro ⟨trace, h⟩
    obtain ⟨hspans, -⟩ := build_eq_ok_iff.mp h
    rw [← hspans]
    exact ⟨trace.spanIdsUnique, trace.parentIdsExist, trace.toolUseIdsLinked⟩
  · rintro ⟨hids, hparents, hlinked⟩
    exact ⟨⟨r.spans, r.metrics, hids, hparents, hlinked⟩, build_eq_ok_iff.mpr ⟨rfl, rfl⟩⟩

/-! ### The counters -/

/-- The counters are the sums over the spans, but for so many tool calls that were not counted. -/
structure Tallied (uncounted : ℕ) (r : TraceRecorder) : Prop where
  tokensIn : (metricsOf r.spans).totalTokensIn = r.tokensIn
  tokensOut : (metricsOf r.spans).totalTokensOut = r.tokensOut
  costUsd : (metricsOf r.spans).totalCostUsd = r.costUsd
  toolCallCount : (metricsOf r.spans).toolCallCount = r.toolCallCount + uncounted
  llmCallCount : (metricsOf r.spans).llmCallCount = r.llmCallCount
  retries : (metricsOf r.spans).retries = r.retries

theorem tallied_new (openParents : List String) : Tallied 0 { openParents } :=
  ⟨rfl, rfl, rfl, rfl, rfl, rfl⟩

/-- **The metrics are the sums** when no tool call went uncounted. -/
theorem Tallied.metrics_eq_iff {uncounted : ℕ} (h : Tallied uncounted r) :
    r.metrics = metricsOf r.spans ↔ uncounted = 0 := by
  have hsums : metricsOf r.spans =
      { r.metrics with toolCallCount := r.toolCallCount + uncounted } := by
    obtain ⟨h1, h2, h3, h4, h5, h6⟩ := h
    rw [metrics, ← h1, ← h2, ← h3, ← h4, ← h5, ← h6]
  rw [hsums]
  constructor
  · intro heq
    have hcount : r.toolCallCount = r.toolCallCount + uncounted :=
      congrArg TraceMetrics.toolCallCount heq
    omega
  · rintro rfl
    rfl

theorem Tallied.enterTurn {uncounted : ℕ} (h : Tallied uncounted r) (id : String) :
    Tallied uncounted (r.enterTurn id) :=
  ⟨h.tokensIn, h.tokensOut, h.costUsd, h.toolCallCount, h.llmCallCount, h.retries⟩

/-- **A span that is no model call** leaves the tally as it is, if it is no tool call. -/
theorem Tallied.record {uncounted : ℕ} (h : Tallied uncounted r) {s : Span}
    (hs : s.llmCall? = none) :
    Tallied (uncounted + if s.isToolCall then 1 else 0) (r.record s) := by
  obtain ⟨h1, h2, h3, h4, h5, h6⟩ := h
  constructor
  · simp [TraceRecorder.record, metricsOf_append, h1, Span.tokensIn, hs]
  · simp [TraceRecorder.record, metricsOf_append, h2, Span.tokensOut, hs]
  · simp [TraceRecorder.record, metricsOf_append, h3, Span.costUsd, hs]
  · simp only [TraceRecorder.record, metricsOf_append, h4]
    omega
  · simp [TraceRecorder.record, metricsOf_append, h5, Span.isLLMCall, hs]
  · simp [TraceRecorder.record, metricsOf_append, h6, Span.retries, hs]

theorem Tallied.exitTurn {uncounted : ℕ} (h : Tallied uncounted r) (id : String) :
    Tallied uncounted (r.exitTurn id) := by
  have hclosed : Tallied uncounted { r with openParents := r.openParents.tail } :=
    ⟨h.tokensIn, h.tokensOut, h.costUsd, h.toolCallCount, h.llmCallCount, h.retries⟩
  exact hclosed.record (s := { id, parentId := r.openParents.tail.head?, body := .agentTurn }) rfl

/-- **A model call** leaves it as it is when its tokens, cost and retries are added. -/
theorem Tallied.recordCall {uncounted : ℕ} (h : Tallied uncounted r) {s : Span} {call : LLMCall}
    (hs : s.llmCall? = some call) :
    Tallied uncounted { r.record s with
      llmCallCount := r.llmCallCount + 1
      tokensIn := r.tokensIn + (call.tokens.input + call.tokens.inputCacheRead)
      tokensOut := r.tokensOut + call.tokens.output
      costUsd := r.costUsd + call.costUsd
      retries := r.retries + call.retries } := by
  have hnot : s.isToolCall = false := by
    unfold Span.llmCall? at hs
    unfold Span.isToolCall
    split at hs
    · next hbody => rw [hbody]
    · cases hs
  obtain ⟨h1, h2, h3, h4, h5, h6⟩ := h
  constructor
  · simp [TraceRecorder.record, metricsOf_append, h1, Span.tokensIn, hs]
  · simp [TraceRecorder.record, metricsOf_append, h2, Span.tokensOut, hs]
  · simp [TraceRecorder.record, metricsOf_append, h3, Span.costUsd, hs]
  · simp [TraceRecorder.record, metricsOf_append, h4, hnot]
  · simp [TraceRecorder.record, metricsOf_append, h5, Span.isLLMCall, hs]
  · simp [TraceRecorder.record, metricsOf_append, h6, Span.retries, hs]

theorem Tallied.llmCall {uncounted : ℕ} (h : Tallied uncounted r) (id : String) (call : LLMCall) :
    Tallied uncounted (r.llmCall id call) :=
  h.recordCall (s := { id, parentId := r.currentParent, body := .llmCall call }) rfl

theorem Tallied.toolCall {uncounted : ℕ} (h : Tallied uncounted r) (id : String)
    (toolUseId : Option String) : Tallied uncounted (r.toolCall id toolUseId) := by
  obtain ⟨h1, h2, h3, h4, h5, h6⟩ :=
    h.record (s := { id, parentId := r.currentParent, body := .toolCall toolUseId }) rfl
  refine ⟨h1, h2, h3, ?_, h5, h6⟩
  have hcount : (metricsOf (r.toolCall id toolUseId).spans).toolCallCount =
      r.toolCallCount + (uncounted + 1) := h4
  rw [hcount]
  show r.toolCallCount + (uncounted + 1) = r.toolCallCount + 1 + uncounted
  omega

end TraceRecorder

end Selfevals.Trace.Recorder
