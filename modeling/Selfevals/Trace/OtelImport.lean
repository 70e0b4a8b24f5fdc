import Selfevals.Lib.Mapping
import Selfevals.Lib.PyStr
import Selfevals.Trace.OtelLinking

/-!
# Importing exported spans

`importOtelSpans` turns a list of OpenTelemetry-style dicts into a trace: it finds out the kind of
each, builds a span of that kind from loosely typed attributes, keeps the earliest and the latest
start, links tool calls and hands everything to the schema, which refuses what is not valid.

A datetime is known by its microseconds and by whether it is aware; that of a naive one is what its
reading would be in UTC. Two datetimes compare when both are aware or both are naive.
-/

namespace Selfevals.Trace.OtelImport

open Lib.JsonValue Lib.Mapping Lib.PyInt
open Lib.PyStr (partition strip)
open Schemas.Base Schemas.Enums Schemas.Experiments Schemas.TraceRecords Trace.OtelLinking

/-! ### Values -/

/-- A `datetime`, aware or not. -/
structure DateTime where
  aware : Bool
  micros : ℤ
deriving DecidableEq, Repr

/-- A value under a time key; a boolean is the number it counts as. -/
inductive TimeValue
  | null
  | datetime (d : DateTime)
  | text (s : String)
  | number (q : ℚ)
  /-- A list or a dict. -/
  | container (empty : Bool)
deriving DecidableEq, Repr

namespace TimeValue

/-- `bool(v)`. -/
def truthy : TimeValue → Bool
  | .null => false
  | .datetime _ => true
  | .text s => s ≠ ""
  | .number q => q ≠ 0
  | .container empty => !empty

/-- `v or w`. -/
def orElse (v w : TimeValue) : TimeValue := if v.truthy then v else w

end TimeValue

/-- An exported span, by the keys that are read. A key that is missing reads as `None`, except those
that have a default of their own. -/
structure SpanDict where
  spanId : Json := .null
  parentSpanId : Json := .null
  name : Option Json := none
  kind : Json := .null
  startTime : TimeValue := .null
  startedAt : TimeValue := .null
  endTime : TimeValue := .null
  endedAt : TimeValue := .null
  durationMs : Option Json := none
  attributes : Object := []

/-- What the import raises. -/
inductive ImportError
  | workspaceId
  /-- `ValueError`, of a time. -/
  | timestamp
  /-- `ValueError`, of an integer. -/
  | notAnInt
  | typeError
  /-- `ValidationError`, of the schema. -/
  | validation
  | linking (e : LinkError)
deriving DecidableEq, Repr

/-- What is used of the language. -/
structure Library where
  /-- `datetime.fromisoformat`; `none` is the `ValueError`. -/
  fromIso : String → Option DateTime
  /-- `datetime.fromtimestamp(q, tz=UTC)`, in microseconds; `none` where it is out of range. -/
  fromTimestamp : ℚ → Option ℤ
  /-- The same of `q / 1e9`, a float. -/
  fromNanos : ℚ → Option ℤ
  /-- `int(d.total_seconds() * 1000)` of as many microseconds; the product is a float. -/
  millis : ℤ → ℤ
  /-- `str` of a value that is no string. -/
  strOf : Json → String
  lower : String → String
  /-- `str.isdigit` of one character. -/
  isDigit : Char → Bool
  contentHash : List Object → String
  strOf_ne : ∀ v, strOf v ≠ ""
  millis_nonneg : ∀ n, 0 ≤ n → 0 ≤ millis n

variable (lib : Library)

/-- `str(v)`. -/
def pyStr : Json → String
  | .str s => s
  | v => lib.strOf v

/-- `int(v)`. -/
def toInt : Json → Except ImportError ℤ
  | .bool b => .ok (if b then 1 else 0)
  | .int n => .ok n
  | .float q => .ok (if 0 ≤ q then ⌊q⌋ else ⌈q⌉)
  | .str s =>
    match parseInt s with
    | some n => .ok n
    | none => .error .notAnInt
  | .null | .arr _ | .obj _ => .error .typeError

/-- A field of type `str`. -/
def textField : Json → Except ImportError String
  | .str s => .ok s
  | _ => .error .validation

/-- A field of type `str | None`. -/
def optTextField : Json → Except ImportError (Option String)
  | .null => .ok none
  | .str s => .ok (some s)
  | _ => .error .validation

/-- The rest of a key that starts with `head`. -/
def after (head key : String) : Option String :=
  if head.toList.isPrefixOf key.toList then some (String.ofList (key.toList.drop head.length))
  else none

/-- `attrs.get(key) or attrs.get(other)`. -/
def getOr (attrs : Object) (key other : String) : Json :=
  (dictGet attrs key).orElse (dictGet attrs other)

/-! ### Times -/

/-- Text with every `Z` written out, where it ends with one. -/
def withoutZulu (s : String) : String :=
  if s.toList.getLast? = some 'Z' then
    String.ofList (s.toList.flatMap fun c => if c = 'Z' then "+00:00".toList else [c])
  else s

/-- `_parse_time`. -/
def parseTime : TimeValue → Except ImportError DateTime
  | .datetime d => .ok { d with aware := true }
  | .text s =>
    match lib.fromIso (withoutZulu s) with
    | some d => .ok d
    | none => .error .timestamp
  | .number q =>
    -- beyond 10^12, nanoseconds
    match if 10 ^ 12 < q then lib.fromNanos q else lib.fromTimestamp q with
    | some micros => .ok { aware := true, micros }
    | none => .error .timestamp
  | .null | .container _ => .error .timestamp

/-- `a < b`. -/
def before (a b : DateTime) : Except ImportError Bool :=
  if a.aware = b.aware then .ok (decide (a.micros < b.micros)) else .error .typeError

/-- `int((a - b).total_seconds() * 1000)`. -/
def millisBetween (a b : DateTime) : Except ImportError ℤ :=
  if a.aware = b.aware then .ok (lib.millis (a.micros - b.micros)) else .error .typeError

/-- `span.get("start_time") or span.get("started_at")`. -/
def startOf (raw : SpanDict) : TimeValue := raw.startTime.orElse raw.startedAt

/-- `span.get("end_time") or span.get("ended_at")`. -/
def endOf (raw : SpanDict) : TimeValue := raw.endTime.orElse raw.endedAt

/-- `_duration_ms`. -/
def durationMs (raw : SpanDict) : Except ImportError ℤ :=
  match raw.durationMs with
  | some v => toInt v
  | none =>
    if startOf raw ≠ .null ∧ endOf raw ≠ .null then do
      let ended ← parseTime lib (endOf raw)
      let started ← parseTime lib (startOf raw)
      millisBetween lib ended started
    else .ok 0

/-! ### Kinds -/

/-- `_STOP_REASON_ALIASES`. -/
def stopReasonAliases : List (String × StopReason) :=
  [("stop", .endTurn), ("end_turn", .endTurn), ("endofturn", .endTurn), ("tool_use", .toolUse),
    ("tool_calls", .toolUse), ("length", .maxTokens), ("max_tokens", .maxTokens),
    ("stop_sequence", .stopSequence), ("pause_turn", .pauseTurn), ("content_filter", .refusal),
    ("refusal", .refusal), ("error", .error)]

def normalizeStopReason (value : Json) : Option StopReason :=
  let value := match value with
    | .arr (first :: _) => first
    | v => v
  match value with
  | .str s => stopReasonAliases.lookup (lib.lower (strip s))
  | _ => none

/-- `_KIND_ALIASES`. -/
def kindAliases : List (String × SpanKind) :=
  [("llm", .llmCall), ("tool", .toolCall), ("retriever", .retrieval), ("retrieval", .retrieval),
    ("agent", .agentTurn), ("chain", .agentTurn), ("guardrail", .guardrailCheck),
    ("memory", .memoryRead)]

/-- What is said of the kind, where it is known. -/
def declaredKind (raw : SpanDict) : Option SpanKind :=
  match (dictGet raw.attributes "openinference.span.kind").orElse raw.kind with
  | .str kind => kindAliases.lookup (lib.lower (strip kind))
  | _ => none

/-- `_classify_span`. -/
def classifySpan (raw : SpanDict) : SpanKind :=
  let attrs := raw.attributes
  let has (key : String) : Bool := (attrs.lookup key).isSome
  match declaredKind lib raw with
  | some kind => kind
  | none =>
    if attrs.any fun item => (after "gen_ai." item.1).isSome then .llmCall
    else if has "tool.name" || has "openinference.tool.name" then .toolCall
    else if has "retrieval.documents.count" || has "openinference.retrieval.documents" then
      .retrieval
    else .custom

/-! ### Messages -/

/-- The index and the rest of a key that holds a part of a message. -/
def messagePart (family : String) (nested : Bool) (key : String) : Option (String × String) := do
  let rest ← after family key
  let (head, tail) := (partition '.' rest).getD (rest, "")
  let digits := head ≠ "" && head.toList.all lib.isDigit
  if !digits || tail = "" then none
  else if nested then (after "message." tail).map fun tail => (head, tail)
  else some (head, tail)

/-- One attribute, put into the message of its index. -/
def collectAt (family : String) (nested : Bool) (buckets : Dict ℤ Object) (item : String × Json) :
    Except ImportError (Dict ℤ Object) :=
  match messagePart lib family nested item.1 with
  | none => .ok buckets
  | some (head, tail) =>
    match parseInt head with
    | none => .error .notAnInt
    | some i => .ok (buckets.set i (setItem tail item.2 ((buckets.get? i).getD [])))

/-- `_collect`: the messages of a family of keys, by index. -/
def collectMessages (family : String) (nested : Bool) (attrs : Object) :
    Except ImportError (List Object) := do
  let buckets ← attrs.foldlM (collectAt lib family nested) .empty
  return (sorted buckets.keys).filterMap buckets.get?

/-- `_extract_messages`, of the native family, or else of the other one. -/
def extractMessages (attrs : Object) (native other : String) :
    Except ImportError (List Object) := do
  let messages ← collectMessages lib native true attrs
  if messages = [] then collectMessages lib other false attrs else return messages

/-! ### Builders -/

/-- What the schema does with the fields of a span. -/
def checked (span : Span) : Except ImportError Span :=
  if SpanBase.Valid span.base ∧ Span.DetailValid span then .ok span else .error .validation

/-- The shared fields, with the start as it was read. -/
def baseOf (fresh : String) (raw : SpanDict) (defaultName : String) :
    Except ImportError (SpanBase × DateTime) := do
  let startedAt ← parseTime lib (startOf raw)
  let duration ← durationMs lib raw
  let id ← textField (raw.spanId.orElse (.str fresh))
  let parentId ← optTextField raw.parentSpanId
  let name ← textField (raw.name.getD (.str defaultName))
  if duration < 0 then .error .validation
  else return (
    { id, parentId, name, startedAt := startedAt.micros, durationMs := duration.toNat }, startedAt)

/-- `int(attrs.get(key, 0) or 0)`. -/
def usage (attrs : Object) (key : String) : Except ImportError ℤ :=
  toInt ((dictGet attrs key).orElse (.int 0))

/-- The components of the tokens, in the order in which they are read. -/
def usageKeys : List String :=
  ["gen_ai.usage.input_tokens", "gen_ai.usage.cache_read_input_tokens",
    "gen_ai.usage.cache_creation_input_tokens", "gen_ai.usage.output_tokens",
    "gen_ai.usage.reasoning_tokens"]

/-- `TokenBreakdown(…)`. -/
def newTokenBreakdown (input cacheRead cacheCreation output reasoning total : ℤ) :
    Except ImportError TokenBreakdown :=
  if 0 ≤ input ∧ 0 ≤ cacheRead ∧ 0 ≤ cacheCreation ∧ 0 ≤ output ∧ 0 ≤ reasoning ∧ 0 ≤ total ∧
      input + cacheRead + cacheCreation + output + reasoning ≤ total then
    .ok {
      input := input.toNat, inputCacheRead := cacheRead.toNat
      inputCacheCreation := cacheCreation.toNat, output := output.toNat
      reasoning := reasoning.toNat, total := total.toNat }
  else .error .validation

/-- A total that is missing or zero is the sum of the components. -/
def tokensOf (attrs : Object) : Except ImportError TokenBreakdown := do
  let input ← usage attrs "gen_ai.usage.input_tokens"
  let cacheRead ← usage attrs "gen_ai.usage.cache_read_input_tokens"
  let cacheCreation ← usage attrs "gen_ai.usage.cache_creation_input_tokens"
  let output ← usage attrs "gen_ai.usage.output_tokens"
  let reasoning ← usage attrs "gen_ai.usage.reasoning_tokens"
  let total ← toInt ((dictGet attrs "gen_ai.usage.total_tokens").orElse
    (.int (input + cacheRead + cacheCreation + output + reasoning)))
  newTokenBreakdown input cacheRead cacheCreation output reasoning total

/-- The prefixes of the attributes that do not go into the metadata. -/
def knownPrefixes : List String :=
  ["gen_ai.", "openinference.", "llm.input_messages.", "llm.output_messages."]

/-- A key that is written when there are messages. -/
def withMessages (key : String) (messages : List Object) (metadata : Object) : Object :=
  if messages = [] then metadata else setItem key (.arr (messages.map .obj)) metadata

/-- `_build_llm_span`. -/
def buildLlmSpan (fresh : String) (raw : SpanDict) : Except ImportError (Span × DateTime) := do
  let attrs := raw.attributes
  let tokens ← tokensOf attrs
  let messagesIn ← extractMessages lib attrs "llm.input_messages." "gen_ai.prompt."
  let messagesOut ← extractMessages lib attrs "llm.output_messages." "gen_ai.completion."
  let hash (messages : List Object) : Option String :=
    if messages = [] then none else some (lib.contentHash messages)
  let metadata := attrs.filter fun item => knownPrefixes.all fun p => (after p item.1).isNone
  let (base, startedAt) ← baseOf lib fresh raw "llm_call"
  let modelVersionPinned ← optTextField (dictGet attrs "gen_ai.response.model")
  let span ← checked (.llmCall {
    toSpanBase := base
    provider := pyStr lib (dictGetD attrs "gen_ai.system" (.str "unknown"))
    model := pyStr lib (dictGetD attrs "gen_ai.request.model" (.str "unknown"))
    modelVersionPinned
    messagesHash := hash messagesIn
    params := attrs.filterMap fun item =>
      if item.1 = "gen_ai.request.model" then none
      else (after "gen_ai.request." item.1).map fun key => (key, item.2)
    output := {
      stopReason := normalizeStopReason lib (dictGet attrs "gen_ai.response.finish_reasons")
      contentHash := hash messagesOut }
    tokens
    providerMetadata := withMessages "selfevals.messages_out" messagesOut
      (withMessages "selfevals.messages_in" messagesIn metadata) })
  return (span, startedAt)

/-- `_build_tool_span`. -/
def buildToolSpan (fresh : String) (raw : SpanDict) : Except ImportError (Span × DateTime) := do
  let attrs := raw.attributes
  let toolName := (getOr attrs "openinference.tool.name" "tool.name").orElse
    (raw.name.getD (.str "tool_call"))
  let rawStatus := (getOr attrs "tool.status" "openinference.tool.status").orElse (.str "ok")
  let status := (Coded.ofValue (lib.lower (strip (pyStr lib rawStatus)))).getD ToolCallStatus.ok
  let (base, startedAt) ← baseOf lib fresh raw "tool_call"
  let toolUseId ← optTextField (getOr attrs "openinference.tool.call_id" "tool.call_id")
  let error ← optTextField (getOr attrs "tool.error" "error.message")
  let span ← checked (.toolCall {
    toSpanBase := base, toolName := pyStr lib toolName, toolUseId, status, error })
  return (span, startedAt)

/-- The count that is given, or one. -/
def givenCount (attrs : Object) : Json :=
  (getOr attrs "retrieval.documents.count" "openinference.retrieval.documents").orElse (.int 1)

/-- `_build_retrieval_span`. -/
def buildRetrievalSpan (fresh : String) (raw : SpanDict) :
    Except ImportError (Span × DateTime) := do
  let attrs := raw.attributes
  let topK ← toInt (givenCount attrs)
  let (base, startedAt) ← baseOf lib fresh raw "retrieval"
  if topK < 0 then .error .validation
  else
    let span ← checked (.retrieval {
      toSpanBase := base
      retriever := pyStr lib ((dictGet attrs "retrieval.retriever").orElse (.str "unknown"))
      topKRequested := max 1 topK.toNat
      topKReturned := topK.toNat })
    return (span, startedAt)

/-- `_build_agent_turn`. -/
def buildAgentTurn (fresh : String) (raw : SpanDict) : Except ImportError (Span × DateTime) := do
  let (base, startedAt) ← baseOf lib fresh raw "agent_turn"
  let span ← checked (.agentTurn { toSpanBase := base })
  return (span, startedAt)

/-- `_build_custom`. -/
def buildCustom (fresh : String) (raw : SpanDict) : Except ImportError (Span × DateTime) := do
  let (base, startedAt) ← baseOf lib fresh raw "custom"
  let span ← checked (.custom { toSpanBase := base, payload := raw.attributes })
  return (span, startedAt)

/-- The builder of the kind. -/
def buildSpan (fresh : String) (raw : SpanDict) : Except ImportError (Span × DateTime) :=
  match classifySpan lib raw with
  | .llmCall => buildLlmSpan lib fresh raw
  | .toolCall => buildToolSpan lib fresh raw
  | .retrieval => buildRetrievalSpan lib fresh raw
  | .agentTurn => buildAgentTurn lib fresh raw
  | _ => buildCustom lib fresh raw

/-! ### The import -/

/-- The thread that the spans name. -/
def detectThreadId (spans : List SpanDict) : Option String :=
  spans.findSome? fun raw =>
    ["session.id", "gen_ai.conversation.id"].findSome? fun key =>
      match dictGet raw.attributes key with
      | .str value => if strip value = "" then none else some (strip value)
      | _ => none

/-- The arguments of an import. -/
structure ImportArgs where
  workspaceId : String
  run : RunInfo
  agent : AgentSnapshotRef
  frameworkVersion : String := "opentelemetry-imported"
  runtime : String := "imported"
  sandbox : SandboxMode := .mock
  environmentStartedAt : Option DateTime := none
  finalState : Option FinalState := none

/-- The clock, in UTC, and the ids that are made. -/
structure World where
  now : ℤ
  traceId : String
  freshId : ℕ → String

/-- What has been read so far. -/
structure ImportState where
  parsed : List Span := []
  earliest : Option DateTime := none
  latest : Option DateTime := none

/-- `x`, if there is nothing yet or it is before it. -/
def keepEarliest (earliest : Option DateTime) (x : DateTime) : Except ImportError DateTime :=
  match earliest with
  | none => .ok x
  | some m => do return if ← before x m then x else m

/-- `x`, if there is nothing yet or it is after it. -/
def keepLatest (latest : Option DateTime) (x : DateTime) : Except ImportError DateTime :=
  match latest with
  | none => .ok x
  | some m => do return if ← before m x then x else m

/-- One round of the loop. -/
def importSpan (world : World) (st : ImportState) (raw : SpanDict) :
    Except ImportError ImportState := do
  let (built, startedAt) ← buildSpan lib (world.freshId st.parsed.length) raw
  let earliest ← keepEarliest st.earliest startedAt
  let latest ← keepLatest st.latest startedAt
  return { parsed := st.parsed ++ [built], earliest := some earliest, latest := some latest }

/-- `EnvironmentInfo(…)`. -/
def newEnvironment (args : ImportArgs) (startedAt endedAt : DateTime) :
    Except ImportError EnvironmentInfo := do
  let env : EnvironmentInfo := {
    frameworkVersion := args.frameworkVersion, runtime := args.runtime, sandbox := args.sandbox
    startedAt := startedAt.micros, endedAt := some endedAt.micros }
  if NonEmpty env.frameworkVersion ∧ NonEmpty env.runtime then
    if ← before endedAt startedAt then .error .validation else return env
  else .error .validation

/-- `import_otel_spans`. -/
def importOtelSpans (world : World) (args : ImportArgs) (spans : List SpanDict) :
    Except ImportError Trace := do
  if args.workspaceId = "" then .error .workspaceId
  else
    let st ← spans.foldlM (importSpan lib world) {}
    let parsed ← (linkToolUseIds st.parsed).mapError .linking
    let threadId := args.run.threadId.or (detectThreadId spans)
    let envStart := (args.environmentStartedAt.or st.earliest).getD
      { aware := true, micros := world.now }
    let environment ← newEnvironment args envStart (st.latest.getD envStart)
    let trace : Trace := {
      id := world.traceId
      workspaceId := args.workspaceId
      createdAt := world.now
      updatedAt := world.now
      run := { args.run with threadId }
      agent := args.agent
      environment
      finalState := args.finalState.getD { status := .completed }
      spans := parsed }
    if Trace.Valid trace then .ok trace else .error .validation

end Selfevals.Trace.OtelImport
