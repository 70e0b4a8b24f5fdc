import Selfevals.Lib.Mapping
import Selfevals.Lib.PyInt
import Selfevals.Lib.PyStr
import Selfevals.Lib.Result
import Selfevals.Schemas.Enums
import Selfevals.Trace.Recorder

/-!
# From exported spans to the recorder

An agent exports OpenTelemetry spans; decoded, each is a `DecodedSpan` with its attributes.
`buildSpan` finds out what kind it is and calls the builder of that kind, which raises on what the
schema refuses; `feedToRecorder` appends the built spans to a live recorder and counts the model
calls.

The texts of messages, parameters, documents and provider metadata are left out: nothing that is
built of them is refused or added up.
-/

namespace Selfevals.Runner.OtlpToRecorder

open Lib.Mapping Lib.PyInt Lib.Result
open Lib.PyStr (strip)
open Schemas.Enums Trace.Recorder

/-! ### Decoded spans -/

/-- A value of an attribute, as `_decode_any_value` unwraps it; a double that is not finite has no
number. -/
inductive AnyValue
  | none
  | str (s : String)
  | bool (b : Bool)
  | int (n : ℤ)
  | double (q : Option ℚ)
  | bytes (bs : List UInt8)
  | array (items : List AnyValue)
  | kvlist (fields : List (String × AnyValue))

namespace AnyValue

/-- `bool(v)`. -/
def truthy : AnyValue → Bool
  | .none => false
  | .str s => s ≠ ""
  | .bool b => b
  | .int n => n ≠ 0
  | .double q => q ≠ some 0
  | .bytes bs => !bs.isEmpty
  | .array items => !items.isEmpty
  | .kvlist fields => !fields.isEmpty

/-- `int(v)`; a number is truncated towards zero. -/
def toInt : AnyValue → Option ℤ
  | .str s => parseInt s
  | .bool b => some (if b then 1 else 0)
  | .int n => some n
  | .double q => q.map fun q => if 0 ≤ q then ⌊q⌋ else ⌈q⌉
  | .bytes bs =>
    if bs.all (· < 128) then parseInt
      (String.ofList (bs.map fun b => Char.ofNat b.toNat)) else Option.none
  | .none | .array _ | .kvlist _ => Option.none

/-- `str(v) == ""`. -/
def isEmptyStr : AnyValue → Bool
  | .str s => s = ""
  | _ => false

end AnyValue

/-- An exported span. Its ids are those of the wire, in hexadecimal digits. -/
structure DecodedSpan where
  name : String
  spanId : String
  parentSpanId : Option String := none
  /-- `start_time_unix_nano`. -/
  startTime : ℕ
  attributes : Dict String AnyValue := .empty
  spanId_ne : spanId ≠ ""
  spanId_hex : ∀ c ∈ spanId.toList, c ∈ "0123456789abcdef".toList
  parentSpanId_hex : ∀ p ∈ parentSpanId, ∀ c ∈ p.toList, c ∈ "0123456789abcdef".toList

namespace DecodedSpan
variable (d : DecodedSpan)

def get? (key : String) : Option AnyValue := d.attributes.get? key

/-- The value under a key if it counts as true. -/
def truthy? (key : String) : Option AnyValue := (d.get? key).filter (·.truthy)

/-- `attrs.get(key) or attrs.get(other)`. -/
def getOr (key other : String) : Option AnyValue := (d.truthy? key).or (d.get? other)

end DecodedSpan

/-! ### The kind of a span -/

/-- `_KIND_ALIASES`. -/
def kindAliases : List (String × SpanKind) :=
  [("llm", .llmCall), ("tool", .toolCall), ("retriever", .retrieval), ("retrieval", .retrieval),
    ("agent", .agentTurn), ("chain", .agentTurn), ("guardrail", .guardrailCheck),
    ("memory", .memoryRead)]

/-- What `openinference.span.kind` says, where it says something that is known. -/
def declaredKind (d : DecodedSpan) : Option SpanKind :=
  match d.truthy? "openinference.span.kind" with
  | some (.str kind) => kindAliases.lookup (strip kind).toLower
  | _ => none

/-- `_classify_span`; a decoded span has no `kind` of its own. -/
def classifySpan (d : DecodedSpan) : SpanKind :=
  match declaredKind d with
  | some kind => kind
  | none =>
    if d.attributes.keys.any fun k => "gen_ai.".toList.isPrefixOf k.toList then .llmCall
    else if (d.get? "tool.name").isSome || (d.get? "openinference.tool.name").isSome then .toolCall
    else if (d.get? "retrieval.documents.count").isSome ||
        (d.get? "openinference.retrieval.documents").isSome then .retrieval
    else .custom

/-! ### The builders -/

/-- `_parse_time` of a start time: seconds up to 10^12, nanoseconds beyond, and no later than the
year 9999. Zero counts as missing. -/
def timestampParses (value : ℕ) : Bool :=
  value ≠ 0 && (if 10 ^ 12 < value then value / 10 ^ 9 ≤ 253402300799 else value ≤ 253402300799)

/-- The fields that every kind has. -/
def spanBase (d : DecodedSpan) (body : SpanBody) : Except TraceError Span :=
  if d.name = "" then .error (.emptyField "name")
  else if timestampParses d.startTime then
    .ok { id := d.spanId, parentId := d.parentSpanId, body }
  else .error (.timestamp d.startTime)

/-- `int(v)`, of an attribute. -/
def intOf (field : String) (v : AnyValue) : Except TraceError ℤ :=
  match v.toInt with
  | some n => .ok n
  | none => .error (.notAnInt field)

/-- `int(attrs.get(key, 0) or 0)`. -/
def usage (d : DecodedSpan) (key : String) : Except TraceError ℤ :=
  match d.truthy? key with
  | some v => intOf key v
  | none => .ok 0

/-- A field of type `str | None`. -/
def optionalStr (field : String) : Option AnyValue → Except TraceError (Option String)
  | none | some .none => .ok none
  | some (.str s) => .ok (some s)
  | some _ => .error (.notAString field)

/-- A field that `str(attrs.get(key, "unknown"))` fills. -/
def namedBy (d : DecodedSpan) (key : String) : Except TraceError Unit :=
  if ((d.get? key).map (·.isEmptyStr)).getD false then .error (.emptyField key) else .ok ()

/-- The total of the tokens: where it is missing or zero, the sum of the components. -/
def totalOf (d : DecodedSpan) (componentSum : ℤ) : Except TraceError ℤ :=
  match d.truthy? "gen_ai.usage.total_tokens" with
  | some v => intOf "gen_ai.usage.total_tokens" v
  | none => .ok componentSum

/-- The tokens of `_build_llm_span`. -/
def tokensOf (d : DecodedSpan) : Except TraceError TokenBreakdown := do
  let input ← usage d "gen_ai.usage.input_tokens"
  let cacheRead ← usage d "gen_ai.usage.cache_read_input_tokens"
  let cacheCreation ← usage d "gen_ai.usage.cache_creation_input_tokens"
  let output ← usage d "gen_ai.usage.output_tokens"
  let reasoning ← usage d "gen_ai.usage.reasoning_tokens"
  let total ← totalOf d (input + cacheRead + cacheCreation + output + reasoning)
  newTokenBreakdown input cacheRead cacheCreation output reasoning total

/-- An exported model call, as the recorder keeps it. -/
def buildLlmSpan (d : DecodedSpan) : Except TraceError Span := do
  let tokens ← tokensOf d
  namedBy d "gen_ai.system"
  namedBy d "gen_ai.request.model"
  let _ ← optionalStr "model_version_pinned" (d.get? "gen_ai.response.model")
  spanBase d (.llmCall { tokens })

/-- An exported tool call, as the recorder keeps it. -/
def buildToolSpan (d : DecodedSpan) : Except TraceError Span := do
  let toolUseId ← optionalStr "tool_use_id" (d.getOr "openinference.tool.call_id" "tool.call_id")
  let _ ← optionalStr "error" (d.getOr "tool.error" "error.message")
  spanBase d (.toolCall toolUseId)

/-- The number of documents, 1 where it is missing or zero. -/
def topKOf (d : DecodedSpan) : Except TraceError ℤ :=
  match (d.truthy? "retrieval.documents.count").or
    (d.truthy? "openinference.retrieval.documents") with
  | some v => intOf "top_k" v
  | none => .ok 1

/-- An exported retrieval, as the recorder keeps it. -/
def buildRetrievalSpan (d : DecodedSpan) : Except TraceError Span := do
  let topK ← topKOf d
  if topK < 0 then .error (.negativeCount "top_k_returned") else spanBase d .retrieval

/-- The span of a kind. -/
def buildSpan (d : DecodedSpan) : Except TraceError Span :=
  match classifySpan d with
  | .llmCall => buildLlmSpan d
  | .toolCall => buildToolSpan d
  | .retrieval => buildRetrievalSpan d
  | .agentTurn => spanBase d .agentTurn
  | _ => spanBase d .custom

/-- The schema refuses nothing about the span. -/
def Builds (d : DecodedSpan) : Prop := ∃ s, buildSpan d = .ok s

instance : DecidablePred Builds := fun d =>
  match h : buildSpan d with
  | .ok s => isTrue ⟨s, h⟩
  | .error _ => isFalse fun ⟨s, hs⟩ => by rw [h] at hs; cases hs

/-! ### What is kept of a span -/

/-- What a built span has of an exported one. -/
structure BuiltFrom (d : DecodedSpan) (s : Span) : Prop where
  id : s.id = d.spanId
  parentId : s.parentId = d.parentSpanId
  isLLMCall : s.isLLMCall = true ↔ classifySpan d = .llmCall
  isToolCall : s.isToolCall = true ↔ classifySpan d = .toolCall
  /-- A built model call has requested no tool. -/
  toolUseRequested : s.toolUseRequested = []
  costUsd : s.costUsd = 0

section Built
variable {d : DecodedSpan} {s : Span}

theorem spanBase_eq_ok {body : SpanBody} (h : spanBase d body = .ok s) :
    s = { id := d.spanId, parentId := d.parentSpanId, body } := by
  unfold spanBase at h
  split_ifs at h
  exact (Except.ok.inj h).symm

theorem buildLlmSpan_eq_ok (h : buildLlmSpan d = .ok s) :
    ∃ tokens, s = { id := d.spanId, parentId := d.parentSpanId, body := .llmCall { tokens } } := by
  obtain ⟨tokens, -, h⟩ := bind_eq_ok.mp h
  obtain ⟨_, -, h⟩ := bind_eq_ok.mp h
  obtain ⟨_, -, h⟩ := bind_eq_ok.mp h
  obtain ⟨_, -, h⟩ := bind_eq_ok.mp h
  exact ⟨tokens, spanBase_eq_ok h⟩

theorem buildToolSpan_eq_ok (h : buildToolSpan d = .ok s) :
    ∃ toolUseId,
      s = { id := d.spanId, parentId := d.parentSpanId, body := .toolCall toolUseId } := by
  obtain ⟨toolUseId, -, h⟩ := bind_eq_ok.mp h
  obtain ⟨_, -, h⟩ := bind_eq_ok.mp h
  exact ⟨toolUseId, spanBase_eq_ok h⟩

theorem buildRetrievalSpan_eq_ok (h : buildRetrievalSpan d = .ok s) :
    s = { id := d.spanId, parentId := d.parentSpanId, body := .retrieval } := by
  obtain ⟨topK, -, h⟩ := bind_eq_ok.mp h
  by_cases hneg : topK < 0
  · rw [if_pos hneg] at h
    cases h
  · rw [if_neg hneg] at h
    exact spanBase_eq_ok h

theorem builtFrom_of_body {body : SpanBody}
    (hcall : (∃ tokens, body = .llmCall { tokens }) ↔ classifySpan d = .llmCall)
    (htool : (∃ toolUseId, body = .toolCall toolUseId) ↔ classifySpan d = .toolCall)
    (hplain : ∀ call, body = .llmCall call → ∃ tokens, call = { tokens }) :
    BuiltFrom d { id := d.spanId, parentId := d.parentSpanId, body } := by
  rcases body with _ | call | toolUseId | _ | _ | _
  case llmCall =>
    obtain ⟨tokens, rfl⟩ := hplain call rfl
    exact ⟨rfl, rfl, iff_of_true rfl (hcall.mp ⟨tokens, rfl⟩),
      iff_of_false Bool.false_ne_true fun h => (nomatch htool.mpr h), rfl, rfl⟩
  case toolCall =>
    exact ⟨rfl, rfl, iff_of_false Bool.false_ne_true fun h => (nomatch hcall.mpr h),
      iff_of_true rfl (htool.mp ⟨toolUseId, rfl⟩), rfl, rfl⟩
  all_goals
    exact ⟨rfl, rfl, iff_of_false Bool.false_ne_true fun h => (nomatch hcall.mpr h),
      iff_of_false Bool.false_ne_true fun h => (nomatch htool.mpr h), rfl, rfl⟩

/-- **What is kept of an exported span**: its id, its parent and its kind. -/
theorem buildSpan_spec (h : buildSpan d = .ok s) : BuiltFrom d s := by
  unfold buildSpan at h
  split at h
  · next hkind =>
    obtain ⟨tokens, rfl⟩ := buildLlmSpan_eq_ok h
    exact builtFrom_of_body (by simp [hkind]) (by simp [hkind]) fun call hcall =>
      ⟨tokens, (SpanBody.llmCall.inj hcall).symm⟩
  · next hkind =>
    obtain ⟨toolUseId, rfl⟩ := buildToolSpan_eq_ok h
    exact builtFrom_of_body (by simp [hkind]) (by simp [hkind]) (by simp)
  · next hkind =>
    obtain rfl := buildRetrievalSpan_eq_ok h
    exact builtFrom_of_body (by simp [hkind]) (by simp [hkind]) (by simp)
  · next hkind =>
    obtain rfl := spanBase_eq_ok h
    exact builtFrom_of_body (by simp [hkind]) (by simp [hkind]) (by simp)
  · next hllm htool _ _ =>
    obtain rfl := spanBase_eq_ok h
    have hne : classifySpan d ≠ .llmCall ∧ classifySpan d ≠ .toolCall := ⟨hllm, htool⟩
    exact builtFrom_of_body (by simp [hne]) (by simp [hne]) (by simp)

end Built

/-! ### The feed -/

/-- One span of `feed_to_recorder`: it is appended, and a model call is counted. -/
def feedSpan (r : TraceRecorder) (d : DecodedSpan) : Except TraceError TraceRecorder := do
  let s ← buildSpan d
  let r := r.record s
  return match s.llmCall? with
    | some call =>
      { r with
        llmCallCount := r.llmCallCount + 1
        tokensIn := r.tokensIn + (call.tokens.input + call.tokens.inputCacheRead)
        tokensOut := r.tokensOut + call.tokens.output
        retries := r.retries + call.retries }
    | none => r

/-- `feed_to_recorder`. -/
def feedToRecorder (spans : List DecodedSpan) (r : TraceRecorder) :
    Except TraceError TraceRecorder :=
  spans.foldlM feedSpan r

/-- The exported tool calls. -/
def toolCallsIn (spans : List DecodedSpan) : ℕ := spans.countP fun d => classifySpan d = .toolCall

section Feed
variable {r r' : TraceRecorder} {d : DecodedSpan} {uncounted : ℕ}

/-- **One span fed** is appended; a tool call goes uncounted. -/
theorem feedSpan_spec (h : feedSpan r d = .ok r') :
    ∃ s, buildSpan d = .ok s ∧ r'.spans = r.spans ++ [s] ∧ r'.openParents = r.openParents ∧
      (r.Tallied uncounted → r'.Tallied (uncounted + toolCallsIn [d])) := by
  obtain ⟨s, hs, h⟩ := bind_eq_ok.mp h
  obtain rfl := Except.ok.inj h
  have hbuilt := buildSpan_spec hs
  have htools : toolCallsIn [d] = if s.isToolCall then 1 else 0 := by
    simp [toolCallsIn, List.countP_singleton, hbuilt.isToolCall]
  refine ⟨s, hs, ?_, ?_, fun htally => ?_⟩
  · split <;> rfl
  · split <;> rfl
  · rw [htools]
    rcases hcall : s.llmCall? with _ | call
    · exact htally.record hcall
    · -- a model call that is built has cost nothing
      have hcost : call.costUsd = 0 := by
        have := hbuilt.costUsd
        rwa [Span.costUsd, hcall, Option.map_some, Option.getD_some] at this
      have hnot : s.isToolCall = false := by
        have hkind := hbuilt.isLLMCall.mp (by rw [Span.isLLMCall, hcall]; rfl)
        rw [Bool.eq_false_iff]
        intro htool
        rw [hbuilt.isToolCall.mp htool] at hkind
        cases hkind
      have hcounted := htally.recordCall hcall
      rw [hcost, add_zero] at hcounted
      rw [hnot, if_neg Bool.false_ne_true, Nat.add_zero]
      exact hcounted

/-- **What a feed leaves**: the built spans, in order, and the tool calls uncounted. -/
theorem feedToRecorder_spec {spans : List DecodedSpan} (h : feedToRecorder spans r = .ok r') :
    ∃ built, List.Forall₂ (fun d s => buildSpan d = .ok s) spans built ∧
      r'.spans = r.spans ++ built ∧ r'.openParents = r.openParents ∧
        (r.Tallied uncounted → r'.Tallied (uncounted + toolCallsIn spans)) := by
  induction spans generalizing r uncounted with
  | nil =>
    obtain rfl := Except.ok.inj h
    exact ⟨[], .nil, (List.append_nil _).symm, rfl, id⟩
  | cons d spans ih =>
    obtain ⟨r₁, hfirst, hrest⟩ := bind_eq_ok.mp h
    obtain ⟨s, hs, hspans, hopen, htally⟩ := feedSpan_spec hfirst
    obtain ⟨built, hbuilt, hspans', hopen', htally'⟩ := ih hrest
    refine ⟨s :: built, .cons hs hbuilt, ?_, hopen'.trans hopen, fun ht => ?_⟩
    · rw [hspans', hspans, List.append_assoc, List.singleton_append]
    · have hcount : toolCallsIn (d :: spans) = toolCallsIn [d] + toolCallsIn spans := by
        rw [← List.singleton_append, toolCallsIn, List.countP_append]
        rfl
      rw [hcount, ← Nat.add_assoc]
      exact htally' (htally ht)

/-- **A feed returns** exactly when every span builds. -/
theorem exists_feedToRecorder_iff {spans : List DecodedSpan} :
    (∃ r', feedToRecorder spans r = .ok r') ↔ ∀ d ∈ spans, Builds d := by
  induction spans generalizing r with
  | nil => exact ⟨fun _ d hd => absurd hd List.not_mem_nil, fun _ => ⟨r, rfl⟩⟩
  | cons d spans ih =>
    rw [List.forall_mem_cons]
    constructor
    · rintro ⟨r', h⟩
      obtain ⟨r₁, hfirst, hrest⟩ := bind_eq_ok.mp h
      obtain ⟨s, hs, -⟩ := bind_eq_ok.mp hfirst
      exact ⟨⟨s, hs⟩, ih.mp ⟨r', hrest⟩⟩
    · rintro ⟨⟨s, hs⟩, hrest⟩
      have hfirst : ∃ r₁, feedSpan r d = .ok r₁ := by
        unfold feedSpan
        rw [hs]
        exact ⟨_, rfl⟩
      obtain ⟨r₁, hr₁⟩ := hfirst
      obtain ⟨r', hr'⟩ := (ih (r := r₁)).mpr hrest
      exact ⟨r', bind_eq_ok.mpr ⟨r₁, hr₁, hr'⟩⟩

end Feed

end Selfevals.Runner.OtlpToRecorder
