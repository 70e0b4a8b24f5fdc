import Selfevals.Schemas.Experiments

/-!
# Trace records

A trace with all its fields, as it is stored: what ran where, the spans of the fourteen kinds, the
results of the graders, the totals and the links to other traces. `Valid` says of each block what
its field constraints and validators say, `Trace.Valid` of the whole.
-/

namespace Selfevals.Schemas.TraceRecords

open Lib.JsonValue Schemas.Base Schemas.Enums Schemas.Experiments

/-! ### Enumerations -/

inductive StopReason
  | endTurn | toolUse | maxTokens | stopSequence | pauseTurn | refusal | error
deriving DecidableEq, Repr

instance : Coded StopReason where
  value
    | .endTurn => "end_turn"
    | .toolUse => "tool_use"
    | .maxTokens => "max_tokens"
    | .stopSequence => "stop_sequence"
    | .pauseTurn => "pause_turn"
    | .refusal => "refusal"
    | .error => "error"
  members := [.endTurn, .toolUse, .maxTokens, .stopSequence, .pauseTurn, .refusal, .error]

inductive ToolCallStatus
  | ok | error | timeout
deriving DecidableEq, Repr

instance : Coded ToolCallStatus where
  value
    | .ok => "ok"
    | .error => "error"
    | .timeout => "timeout"
  members := [.ok, .error, .timeout]

inductive TraceState
  | completed | errored | timeout | aborted
deriving DecidableEq, Repr

instance : Coded TraceState where
  value
    | .completed => "completed"
    | .errored => "errored"
    | .timeout => "timeout"
    | .aborted => "aborted"
  members := [.completed, .errored, .timeout, .aborted]

inductive LinkKind
  | paraphraseVariant | replayOf | spawnedBy
deriving DecidableEq, Repr

instance : Coded LinkKind where
  value
    | .paraphraseVariant => "paraphrase_variant"
    | .replayOf => "replay_of"
    | .spawnedBy => "spawned_by"
  members := [.paraphraseVariant, .replayOf, .spawnedBy]

/-! ### What ran, and where -/

/-- Which run a trace is of. -/
structure RunInfo where
  runId : String
  experimentId : Option String := none
  iteration : Option ℕ := none
  variantId : Option String := none
  evalCaseId : Option String := none
  repetition : ℕ := 0
  seed : Option ℤ := none
  threadId : Option String := none
  threadPosition : Option ℕ := none
deriving DecidableEq, Repr

/-- The agent that ran. -/
structure AgentSnapshotRef where
  fleetVersion : Option ℕ := none
  agentId : String
  agentVersion : ℕ
  parametersSnapshotId : Option String := none
deriving DecidableEq, Repr

/-- Where it ran, and when. -/
structure EnvironmentInfo where
  frameworkVersion : String
  runtime : String
  sandbox : SandboxMode
  toolMocks : List String := []
  startedAt : Time
  endedAt : Option Time := none
deriving DecidableEq, Repr

/-- How it ended. -/
structure FinalState where
  status : TraceState
  error : Option String := none
deriving DecidableEq, Repr

/-! ### What a model call holds -/

/-- Extended-thinking metadata from the model. -/
structure ReasoningBlock where
  available : Bool := false
  redacted : Bool := false
  summaryPointer : Option String := none
  fullPointer : Option String := none
  thinkingTokens : ℕ := 0
  signature : Option String := none
deriving DecidableEq, Repr

/-- The tokens of a model call. -/
structure TokenBreakdown where
  input : ℕ := 0
  inputCacheRead : ℕ := 0
  inputCacheCreation : ℕ := 0
  output : ℕ := 0
  reasoning : ℕ := 0
  total : ℕ := 0
deriving DecidableEq, Repr

/-- The cost of a model call. -/
structure CostBreakdown where
  input : ℚ := 0
  cacheRead : ℚ := 0
  cacheCreation : ℚ := 0
  output : ℚ := 0
  total : ℚ := 0
deriving DecidableEq, Repr

/-- A tool use that a model asks for. -/
structure ToolUseRequest where
  tool : String
  toolUseId : String
deriving DecidableEq, Repr

/-- What a model answered. -/
structure LLMOutput where
  contentPointer : Option String := none
  contentHash : Option String := none
  contentInline : Option String := none
  stopReason : Option StopReason := none
  toolUseRequested : List ToolUseRequest := []
deriving DecidableEq, Repr

/-- A document that was found. -/
structure RetrievedDoc where
  docId : String
  docVersion : Option String := none
  chunkId : Option String := none
  rawScore : Option ℚ := none
  rerankScore : Option ℚ := none
deriving DecidableEq, Repr

/-! ### Spans -/

/-- `_SpanBase`. -/
structure SpanBase where
  id : String
  parentId : Option String := none
  name : String
  startedAt : Time
  durationMs : ℕ := 0
deriving DecidableEq, Repr

structure AgentTurnSpan extends SpanBase
deriving DecidableEq, Repr

/-- A call of a model. -/
structure LLMCallSpan extends SpanBase where
  provider : String
  model : String
  modelVersionPinned : Option String := none
  systemPromptPointer : Option String := none
  systemPromptHash : Option String := none
  systemPromptInline : Option String := none
  messagesPointer : Option String := none
  messagesHash : Option String := none
  messagesInline : Option String := none
  toolsOffered : List String := []
  toolsOfferedHash : Option String := none
  params : Object := []
  reasoning : ReasoningBlock := {}
  output : LLMOutput := {}
  tokens : TokenBreakdown := {}
  costUsd : CostBreakdown := {}
  timeToFirstTokenMs : Option ℕ := none
  tokensPerSecond : Option ℚ := none
  retries : ℕ := 0
  cacheHit : Bool := false
  providerMetadata : Object := []
deriving DecidableEq, Repr

/-- A call of a tool. -/
structure ToolCallSpan extends SpanBase where
  toolName : String
  toolVersion : Option String := none
  toolUseId : Option String := none
  argsPointer : Option String := none
  argsHash : Option String := none
  argsInline : Option String := none
  resultPointer : Option String := none
  resultHash : Option String := none
  resultInline : Option String := none
  status : ToolCallStatus := .ok
  error : Option String := none
  retryChain : List String := []
  sandboxed : Bool := false
  sideEffects : Object := []
deriving Repr

/-- A retrieval. -/
structure RetrievalSpan extends SpanBase where
  retriever : String
  queryPointer : Option String := none
  queryHash : Option String := none
  queryEmbeddingModel : Option String := none
  topKRequested : ℕ
  topKReturned : ℕ := 0
  retrieved : List RetrievedDoc := []
  reranker : Option String := none
  groundingUsed : List String := []
deriving DecidableEq, Repr

structure MemoryReadSpan extends SpanBase where
  memoryStore : String
  keysRequested : List String := []
  keysHit : List String := []
  keysMissed : List String := []
  valuesPointer : Option String := none
deriving DecidableEq, Repr

structure MemoryWriteSpan extends SpanBase where
  memoryStore : String
  keysWritten : List String := []
  valuesPointer : Option String := none
deriving DecidableEq, Repr

structure DecisionSpan extends SpanBase where
  decisionType : String
  chosen : String
  alternativesConsidered : List String := []
  rationalePointer : Option String := none
  confidence : Option ℚ := none
deriving DecidableEq, Repr

structure HandoffSpan extends SpanBase where
  target : String
  payloadPointer : Option String := none
deriving DecidableEq, Repr

structure HumanInterventionSpan extends SpanBase where
  actor : String
  action : String
  rationalePointer : Option String := none
deriving DecidableEq, Repr

structure GuardrailCheckSpan extends SpanBase where
  guardrail : String
  passed : Bool
  detailPointer : Option String := none
deriving DecidableEq, Repr

/-- Speech to text. -/
structure SttSpan extends SpanBase where
  provider : String
  model : Option String := none
  audioPointer : Option String := none
  audioHash : Option String := none
  audioDurationMs : Option ℕ := none
  audioMimeType : Option String := none
  transcriptPointer : Option String := none
  transcriptHash : Option String := none
  transcriptInline : Option String := none
  language : Option String := none
  confidence : Option ℚ := none
  streaming : Bool := false
  timeToFirstTranscriptMs : Option ℕ := none
  providerMetadata : Object := []
deriving Repr

/-- Text to speech. -/
structure TtsSpan extends SpanBase where
  provider : String
  model : Option String := none
  voiceId : Option String := none
  textPointer : Option String := none
  textHash : Option String := none
  textInline : Option String := none
  audioPointer : Option String := none
  audioHash : Option String := none
  audioDurationMs : Option ℕ := none
  audioMimeType : Option String := none
  timeToFirstByteMs : Option ℕ := none
  providerMetadata : Object := []
deriving Repr

structure ErrorSpan extends SpanBase where
  errorType : String
  message : String
  recoverable : Bool := false
deriving DecidableEq, Repr

structure CustomSpan extends SpanBase where
  payload : Object := []
deriving Repr

/-- The union that `kind` discriminates. -/
inductive Span
  | agentTurn (span : AgentTurnSpan)
  | llmCall (span : LLMCallSpan)
  | toolCall (span : ToolCallSpan)
  | retrieval (span : RetrievalSpan)
  | memoryRead (span : MemoryReadSpan)
  | memoryWrite (span : MemoryWriteSpan)
  | decision (span : DecisionSpan)
  | handoff (span : HandoffSpan)
  | humanIntervention (span : HumanInterventionSpan)
  | guardrailCheck (span : GuardrailCheckSpan)
  | stt (span : SttSpan)
  | tts (span : TtsSpan)
  | error (span : ErrorSpan)
  | custom (span : CustomSpan)
deriving Repr

namespace Span

/-- The fields that all spans have. -/
def base : Span → SpanBase
  | .agentTurn span => span.toSpanBase
  | .llmCall span => span.toSpanBase
  | .toolCall span => span.toSpanBase
  | .retrieval span => span.toSpanBase
  | .memoryRead span => span.toSpanBase
  | .memoryWrite span => span.toSpanBase
  | .decision span => span.toSpanBase
  | .handoff span => span.toSpanBase
  | .humanIntervention span => span.toSpanBase
  | .guardrailCheck span => span.toSpanBase
  | .stt span => span.toSpanBase
  | .tts span => span.toSpanBase
  | .error span => span.toSpanBase
  | .custom span => span.toSpanBase

/-- The kind of a span. -/
def kind : Span → SpanKind
  | .agentTurn _ => .agentTurn
  | .llmCall _ => .llmCall
  | .toolCall _ => .toolCall
  | .retrieval _ => .retrieval
  | .memoryRead _ => .memoryRead
  | .memoryWrite _ => .memoryWrite
  | .decision _ => .decision
  | .handoff _ => .handoff
  | .humanIntervention _ => .humanIntervention
  | .guardrailCheck _ => .guardrailCheck
  | .stt _ => .stt
  | .tts _ => .tts
  | .error _ => .error
  | .custom _ => .custom

def id (span : Span) : String := span.base.id

/-- The ids of the tool uses that a model call asks for. -/
def requestedIds : Span → List String
  | .llmCall span => span.output.toolUseRequested.map (·.toolUseId)
  | _ => []

/-- The span of a tool call. -/
def toolCall? : Span → Option ToolCallSpan
  | .toolCall span => some span
  | _ => none

/-- The tool use that a tool call answers. -/
def toolUseId? : Span → Option String
  | .toolCall span => span.toolUseId
  | _ => none

end Span

/-! ### The trace -/

/-- `GraderResult`. -/
structure GraderResult where
  grader : String
  label : String
  score : Option ℚ := none
  reason : Option String := none
  reasonPointer : Option String := none
  confidence : Option ℚ := none
  failureModes : List String := []
  breakdown : Option Object := none
deriving Repr

/-- What the run gave. -/
structure TraceOutputs where
  finalResponsePointer : Option String := none
  structuredOutput : Option Object := none
deriving Repr

/-- The totals of a trace. -/
structure TraceMetrics where
  totalTokensIn : ℕ := 0
  totalTokensOut : ℕ := 0
  totalCostUsd : ℚ := 0
  totalDurationMs : ℕ := 0
  toolCallCount : ℕ := 0
  llmCallCount : ℕ := 0
  retries : ℕ := 0
  recoveryEvents : ℕ := 0
  loopDetected : Bool := false
deriving DecidableEq, Repr

/-- A link to another trace. -/
structure TraceLink where
  kind : LinkKind
  traceId : String
deriving DecidableEq, Repr

/-- `TRACE_SCHEMA_VERSION`. -/
def traceSchemaVersion : String := "1.5.0"

/-- `Trace`, with all its fields. -/
structure Trace extends BaseEntity where
  schemaVersion : String := traceSchemaVersion
  run : RunInfo
  agent : AgentSnapshotRef
  environment : EnvironmentInfo
  finalState : FinalState
  spans : List Span := []
  outputs : TraceOutputs := {}
  graderResults : List GraderResult := []
  metrics : TraceMetrics := {}
  links : List TraceLink := []
  snapshotId : Option String := none
deriving Repr

instance : Entity Trace where
  base t := t.toBaseEntity
  withCreatedAt t createdAt := { t with createdAt := createdAt }
  base_withCreatedAt _ _ := rfl

/-! ### Field constraints and validators -/

def RunInfo.Valid (r : RunInfo) : Prop :=
  NonEmpty r.runId ∧
    ∀ s ∈ r.experimentId.toList ++ r.variantId.toList ++ r.evalCaseId.toList ++ r.threadId.toList,
      NonEmpty s
deriving Decidable

def AgentSnapshotRef.Valid (a : AgentSnapshotRef) : Prop :=
  (∀ v ∈ a.fleetVersion, 1 ≤ v) ∧ NonEmpty a.agentId ∧ 1 ≤ a.agentVersion ∧
    ∀ s ∈ a.parametersSnapshotId, NonEmpty s
deriving Decidable

/-- `_ended_after_started`, with the field constraints. -/
def EnvironmentInfo.Valid (e : EnvironmentInfo) : Prop :=
  NonEmpty e.frameworkVersion ∧ NonEmpty e.runtime ∧ (∀ s ∈ e.toolMocks, NonEmpty s) ∧
    ∀ endedAt ∈ e.endedAt, e.startedAt ≤ endedAt
deriving Decidable

/-- `_total_covers_components`. -/
def TokenBreakdown.Valid (t : TokenBreakdown) : Prop :=
  t.input + t.inputCacheRead + t.inputCacheCreation + t.output + t.reasoning ≤ t.total
deriving Decidable

def CostBreakdown.Valid (c : CostBreakdown) : Prop :=
  0 ≤ c.input ∧ 0 ≤ c.cacheRead ∧ 0 ≤ c.cacheCreation ∧ 0 ≤ c.output ∧ 0 ≤ c.total
deriving Decidable

/-- What the fields of all spans meet. -/
def SpanBase.Valid (s : SpanBase) : Prop :=
  NonEmpty s.id ∧ (∀ p ∈ s.parentId, NonEmpty p) ∧ NonEmpty s.name
deriving Decidable

def LLMCallSpan.Valid (s : LLMCallSpan) : Prop :=
  NonEmpty s.provider ∧ NonEmpty s.model ∧ (∀ tool ∈ s.toolsOffered, NonEmpty tool) ∧
    (∀ r ∈ s.output.toolUseRequested, NonEmpty r.tool ∧ NonEmpty r.toolUseId) ∧
    TokenBreakdown.Valid s.tokens ∧ CostBreakdown.Valid s.costUsd ∧ ∀ q ∈ s.tokensPerSecond, 0 ≤ q
deriving Decidable

/-- What the fields of a kind allow, besides the shared ones. -/
def Span.DetailValid : Span → Prop
  | .agentTurn _ => True
  | .llmCall s => LLMCallSpan.Valid s
  | .toolCall s => NonEmpty s.toolName
  | .retrieval s =>
    NonEmpty s.retriever ∧ 1 ≤ s.topKRequested ∧ ∀ doc ∈ s.retrieved, NonEmpty doc.docId
  | .memoryRead s => NonEmpty s.memoryStore
  | .memoryWrite s => NonEmpty s.memoryStore
  | .decision s => NonEmpty s.decisionType ∧ ∀ c ∈ s.confidence, IsRate c
  | .handoff s => NonEmpty s.target
  | .humanIntervention s => NonEmpty s.actor ∧ NonEmpty s.action
  | .guardrailCheck s => NonEmpty s.guardrail
  | .stt s => NonEmpty s.provider ∧ ∀ c ∈ s.confidence, IsRate c
  | .tts s => NonEmpty s.provider
  | .error s => NonEmpty s.errorType
  | .custom _ => True

instance : DecidablePred Span.DetailValid := fun span => by
  cases span <;> unfold Span.DetailValid <;> infer_instance

/-- What the fields of a result meet. -/
def GraderResult.Valid (g : GraderResult) : Prop :=
  NonEmpty g.grader ∧ (∀ c ∈ g.confidence, IsRate c) ∧ ∀ m ∈ g.failureModes, NonEmpty m
deriving Decidable

namespace Trace

/-- What the model accepts: the constraints of every block, and the validators across spans. -/
@[mk_iff]
structure Valid (t : Trace) : Prop where
  base : BaseEntity.Valid t.toBaseEntity
  run : RunInfo.Valid t.run
  agent : AgentSnapshotRef.Valid t.agent
  environment : EnvironmentInfo.Valid t.environment
  spans : ∀ span ∈ t.spans, SpanBase.Valid span.base ∧ Span.DetailValid span
  graderResults : ∀ g ∈ t.graderResults, GraderResult.Valid g
  totalCostUsd : 0 ≤ t.metrics.totalCostUsd
  links : ∀ link ∈ t.links, NonEmpty link.traceId
  snapshotId : ∀ s ∈ t.snapshotId, NonEmpty s
  spanIdsUnique : (t.spans.map Span.id).Nodup
  parentIdsExist : ∀ span ∈ t.spans, ∀ p ∈ span.base.parentId, p ∈ t.spans.map Span.id
  toolUseIdsLinked :
    ∀ span ∈ t.spans, ∀ id ∈ span.toolUseId?, id ∈ t.spans.flatMap Span.requestedIds

instance (t : Trace) : Decidable t.Valid := decidable_of_iff' _ t.valid_iff

theorem Valid.withCreatedAt {t : Trace} (h : t.Valid) (createdAt : Time) :
    ({ t with createdAt := createdAt } : Trace).Valid :=
  ⟨h.base, h.run, h.agent, h.environment, h.spans, h.graderResults, h.totalCostUsd, h.links,
    h.snapshotId, h.spanIdsUnique, h.parentIdsExist, h.toolUseIdsLinked⟩

/-- The trace has a span with an id. -/
def HasSpan (t : Trace) (spanId : String) : Prop := spanId ∈ t.spans.map Span.id
deriving Decidable

/-- A trace that leaves every optional field at its default. -/
def minimal : Trace where
  id := "tr_1"
  workspaceId := "ws_1"
  createdAt := 0
  updatedAt := 0
  run := { runId := "run_1" }
  agent := { agentId := "agent_1", agentVersion := 1 }
  environment := {
    frameworkVersion := "1.0"
    runtime := "offline"
    sandbox := .mock
    startedAt := 0 }
  finalState := { status := .completed }

theorem minimal_valid : minimal.Valid := by decide +kernel

end Trace

/-- A trace that the model has accepted. -/
structure ValidTrace extends Trace where
  valid : toTrace.Valid

instance : Entity ValidTrace where
  base t := t.toBaseEntity
  withCreatedAt t createdAt := ⟨_, t.valid.withCreatedAt createdAt⟩
  base_withCreatedAt _ _ := rfl

end Selfevals.Schemas.TraceRecords
