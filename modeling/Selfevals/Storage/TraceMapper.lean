import Selfevals.Lib.Relational
import Selfevals.Schemas.TraceRecords
import Selfevals.Storage.Columns

/-!
# The trace mapper

A trace is written into the row of its id in `traces`, a row for each of its spans, one in the table
of the span's kind, and rows for the tool requests, the retrieved documents, the results of the
graders and the links. `upsert` replaces all of them, `load` reads them back and builds the trace,
which the model then validates. Columns and values stand in the order of the source's statements.

The database is the schema of the migrations: keys, checks, `NOT NULL`, and what falls with a
deleted span. The workspace of a trace is there, and a number fits its column.
-/

namespace Selfevals.Storage.TraceMapper

open Lib.JsonValue Lib.Sql Lib.Relational Schemas.Base Schemas.Enums Schemas.Experiments
  Schemas.TraceRecords Storage.Columns
open SqlCodec (encode decode)

/-! ### Tables -/

inductive Table
  | traces | traceSpans | traceLlmCalls | traceLlmToolRequests | traceToolCalls
  | traceRetrievalSpans | traceRetrievedDocs | traceMemoryReadSpans | traceMemoryWriteSpans
  | traceDecisionSpans | traceHandoffSpans | traceHumanInterventionSpans
  | traceGuardrailCheckSpans | traceSttSpans | traceTtsSpans | traceErrorSpans | traceCustomSpans
  | traceGraderResults | traceLinks
deriving DecidableEq, Repr

/-- The columns of all the tables. -/
inductive Column
  | id | workspaceId | version | createdAt | updatedAt | deletedAt
  | schemaVersion | snapshotId
  | runId | runExperimentId | runIteration | runVariantId | runEvalCaseId | runRepetition | runSeed
  | runThreadId | runThreadPosition
  | agentFleetVersion | agentAgentId | agentAgentVersion | agentParametersSnapshotId
  | envFrameworkVersion | envRuntime | envSandbox | envToolMocks | envStartedAt | envEndedAt
  | finalStateStatus | finalStateError
  | outputsFinalResponsePointer | outputsStructuredOutput
  | metricsTotalTokensIn | metricsTotalTokensOut | metricsTotalCostUsd | metricsTotalDurationMs
  | metricsToolCallCount | metricsLlmCallCount | metricsRetries | metricsRecoveryEvents
  | metricsLoopDetected
  | spanId | traceId | spanIndex | kind | parentId | name | startedAt | durationMs | position
  | provider | model | modelVersionPinned | systemPromptPointer | systemPromptHash
  | systemPromptInline | messagesPointer | messagesHash | messagesInline | toolsOffered
  | toolsOfferedHash | params | reasoningAvailable | reasoningRedacted | reasoningSummaryPointer
  | reasoningFullPointer | reasoningThinkingTokens | reasoningSignature | outputContentPointer
  | outputContentHash | outputContentInline | outputStopReason | tokensInput
  | tokensInputCacheRead | tokensInputCacheCreation | tokensOutput | tokensReasoning | tokensTotal
  | costInput | costCacheRead | costCacheCreation | costOutput | costTotal | timeToFirstTokenMs
  | tokensPerSecond | retries | cacheHit | providerMetadata
  | tool | toolUseId
  | toolName | toolVersion | argsPointer | argsHash | argsInline | resultPointer | resultHash
  | resultInline | status | error | retryChain | sandboxed | sideEffects
  | retriever | queryPointer | queryHash | queryEmbeddingModel | topKRequested | topKReturned
  | reranker | groundingUsed | docId | docVersion | chunkId | rawScore | rerankScore
  | memoryStore | keysRequested | keysHit | keysMissed | keysWritten | valuesPointer
  | decisionType | chosen | alternativesConsidered | rationalePointer | confidence
  | target | payloadPointer | actor | action | guardrail | passed | detailPointer
  | audioPointer | audioHash | audioDurationMs | audioMimeType | transcriptPointer
  | transcriptHash | transcriptInline | language | streaming | timeToFirstTranscriptMs
  | voiceId | textPointer | textHash | textInline | timeToFirstByteMs
  | errorType | message | recoverable | payload
  | resultIndex | grader | label | score | reason | reasonPointer | failureModes | breakdown
  | targetTraceId
deriving DecidableEq, Repr

abbrev Row := Lib.Relational.Row Column

abbrev Insert := Db.Insert Table Column

/-- `SHARED_COLUMNS`. -/
def sharedColumns : List Column :=
  [.id, .workspaceId, .version, .createdAt, .updatedAt, .deletedAt]

/-- `_EXTRA_COLUMNS`. -/
def extraColumns : List Column :=
  [.schemaVersion, .snapshotId,
    .runId, .runExperimentId, .runIteration, .runVariantId, .runEvalCaseId, .runRepetition,
    .runSeed, .runThreadId, .runThreadPosition,
    .agentFleetVersion, .agentAgentId, .agentAgentVersion, .agentParametersSnapshotId,
    .envFrameworkVersion, .envRuntime, .envSandbox, .envToolMocks, .envStartedAt, .envEndedAt,
    .finalStateStatus, .finalStateError,
    .outputsFinalResponsePointer, .outputsStructuredOutput,
    .metricsTotalTokensIn, .metricsTotalTokensOut, .metricsTotalCostUsd, .metricsTotalDurationMs,
    .metricsToolCallCount, .metricsLlmCallCount, .metricsRetries, .metricsRecoveryEvents,
    .metricsLoopDetected]

def allColumns : List Column := sharedColumns ++ extraColumns

/-- The columns that `ON CONFLICT` updates. -/
def updateColumns : List Column := allColumns.filter fun c => c ≠ .id && c ≠ .createdAt

/-! ### The schema -/

def notNull (columns : List Column) : List (Check Column) := columns.map .notNull

/-- The columns that may not be `NULL`, and the other checks. -/
def checks : Table → List (Check Column)
  | .traces =>
    notNull [.id, .workspaceId, .version, .createdAt, .updatedAt, .schemaVersion, .runId,
      .runRepetition, .agentAgentId, .agentAgentVersion, .envFrameworkVersion, .envRuntime,
      .envSandbox, .envToolMocks, .envStartedAt, .finalStateStatus, .metricsTotalTokensIn,
      .metricsTotalTokensOut, .metricsTotalCostUsd, .metricsTotalDurationMs,
      .metricsToolCallCount, .metricsLlmCallCount, .metricsRetries, .metricsRecoveryEvents,
      .metricsLoopDetected] ++
    [.atLeast .version 1,
      .oneOf .envSandbox ["mock", "dry_run", "live_sandboxed", "live_canary"],
      .oneOf .finalStateStatus ["completed", "errored", "timeout", "aborted"]]
  | .traceSpans =>
    notNull [.spanId, .traceId, .workspaceId, .spanIndex, .kind, .name, .startedAt, .durationMs] ++
    [.oneOf .kind ["agent_turn", "llm_call", "tool_call", "retrieval", "memory_read",
      "memory_write", "decision", "handoff", "human_intervention", "guardrail_check", "stt", "tts",
      "error", "custom"]]
  | .traceLlmCalls =>
    notNull [.spanId, .traceId, .workspaceId, .provider, .model, .toolsOffered, .params,
      .reasoningAvailable, .reasoningRedacted, .reasoningThinkingTokens, .tokensInput,
      .tokensInputCacheRead, .tokensInputCacheCreation, .tokensOutput, .tokensReasoning,
      .tokensTotal, .costInput, .costCacheRead, .costCacheCreation, .costOutput, .costTotal,
      .retries, .cacheHit, .providerMetadata]
  | .traceLlmToolRequests => notNull [.traceId, .spanId, .position, .tool, .toolUseId]
  | .traceToolCalls =>
    notNull [.spanId, .traceId, .workspaceId, .toolName, .status, .retryChain, .sandboxed,
      .sideEffects] ++
    [.oneOf .status ["ok", "error", "timeout"]]
  | .traceRetrievalSpans =>
    notNull [.traceId, .spanId, .retriever, .topKRequested, .topKReturned, .groundingUsed]
  | .traceRetrievedDocs => notNull [.traceId, .spanId, .position, .docId]
  | .traceMemoryReadSpans =>
    notNull [.traceId, .spanId, .memoryStore, .keysRequested, .keysHit, .keysMissed]
  | .traceMemoryWriteSpans => notNull [.traceId, .spanId, .memoryStore, .keysWritten]
  | .traceDecisionSpans =>
    notNull [.traceId, .spanId, .decisionType, .chosen, .alternativesConsidered]
  | .traceHandoffSpans => notNull [.traceId, .spanId, .target]
  | .traceHumanInterventionSpans => notNull [.traceId, .spanId, .actor, .action]
  | .traceGuardrailCheckSpans => notNull [.traceId, .spanId, .guardrail, .passed]
  | .traceSttSpans => notNull [.traceId, .spanId, .provider, .streaming, .providerMetadata]
  | .traceTtsSpans => notNull [.traceId, .spanId, .provider, .providerMetadata]
  | .traceErrorSpans => notNull [.traceId, .spanId, .errorType, .message, .recoverable]
  | .traceCustomSpans => notNull [.traceId, .spanId, .payload]
  | .traceGraderResults =>
    notNull [.traceId, .workspaceId, .resultIndex, .grader, .label, .failureModes]
  | .traceLinks =>
    notNull [.traceId, .position, .kind, .targetTraceId] ++
    [.oneOf .kind ["paraphrase_variant", "replay_of", "spawned_by"]]

/-- The primary keys, and the position of a span in its trace. -/
def keys : Table → List (List Column)
  | .traces => [[.id]]
  | .traceSpans => [[.traceId, .spanId], [.traceId, .spanIndex]]
  | .traceLlmToolRequests | .traceRetrievedDocs => [[.traceId, .spanId, .position]]
  | .traceGraderResults => [[.traceId, .resultIndex]]
  | .traceLinks => [[.traceId, .position]]
  | _ => [[.traceId, .spanId]]

/-- The constraints of the tables. -/
def schema : Schema Table Column := ⟨checks, keys⟩

abbrev TraceDb := Db schema

/-! ### `trace_spans_write.py` -/

section Write
variable (traceId workspaceId : String)

/-- The row of a model call. -/
def insertLlmCall (span : LLMCallSpan) : Insert :=
  ⟨.traceLlmCalls,
    [.spanId, .traceId, .workspaceId, .provider, .model, .modelVersionPinned,
      .systemPromptPointer, .systemPromptHash, .systemPromptInline,
      .messagesPointer, .messagesHash, .messagesInline, .toolsOffered,
      .toolsOfferedHash, .params, .reasoningAvailable, .reasoningRedacted,
      .reasoningSummaryPointer, .reasoningFullPointer, .reasoningThinkingTokens,
      .reasoningSignature, .outputContentPointer, .outputContentHash,
      .outputContentInline, .outputStopReason, .tokensInput,
      .tokensInputCacheRead, .tokensInputCacheCreation, .tokensOutput,
      .tokensReasoning, .tokensTotal, .costInput, .costCacheRead,
      .costCacheCreation, .costOutput, .costTotal, .timeToFirstTokenMs,
      .tokensPerSecond, .retries, .cacheHit, .providerMetadata],
    [encode span.id, encode traceId, encode workspaceId, encode span.provider, encode span.model,
      encode span.modelVersionPinned, encode span.systemPromptPointer,
      encode span.systemPromptHash, encode span.systemPromptInline, encode span.messagesPointer,
      encode span.messagesHash, encode span.messagesInline, encode span.toolsOffered,
      encode span.toolsOfferedHash, encode span.params, encode span.reasoning.available,
      encode span.reasoning.redacted, encode span.reasoning.summaryPointer,
      encode span.reasoning.fullPointer, encode span.reasoning.thinkingTokens,
      encode span.reasoning.signature, encode span.output.contentPointer,
      encode span.output.contentHash, encode span.output.contentInline,
      encode span.output.stopReason, encode span.tokens.input, encode span.tokens.inputCacheRead,
      encode span.tokens.inputCacheCreation, encode span.tokens.output,
      encode span.tokens.reasoning, encode span.tokens.total, encode span.costUsd.input,
      encode span.costUsd.cacheRead, encode span.costUsd.cacheCreation,
      encode span.costUsd.output, encode span.costUsd.total, encode span.timeToFirstTokenMs,
      encode span.tokensPerSecond, encode span.retries, encode span.cacheHit,
      encode span.providerMetadata]⟩

/-- `_insert_llm_span`. -/
def insertLlmSpan (span : LLMCallSpan) : List Insert :=
  insertLlmCall traceId workspaceId span :: span.output.toolUseRequested.zipIdx.map fun (req,
    pos) =>
    ⟨.traceLlmToolRequests, [.traceId, .spanId, .position, .tool, .toolUseId],
      [encode traceId, encode span.id, encode pos, encode req.tool, encode req.toolUseId]⟩

/-- `_insert_tool_span`. -/
def insertToolSpan (span : ToolCallSpan) : List Insert :=
  [⟨.traceToolCalls,
    [.spanId, .traceId, .workspaceId, .toolName, .toolVersion, .toolUseId,
      .argsPointer, .argsHash, .argsInline, .resultPointer, .resultHash,
      .resultInline, .status, .error, .retryChain, .sandboxed, .sideEffects],
    [encode span.id, encode traceId, encode workspaceId, encode span.toolName,
      encode span.toolVersion, encode span.toolUseId, encode span.argsPointer,
      encode span.argsHash, encode span.argsInline, encode span.resultPointer,
      encode span.resultHash, encode span.resultInline, encode span.status, encode span.error,
      encode span.retryChain, encode span.sandboxed, encode span.sideEffects]⟩]

/-- The row of a retrieval. -/
def insertRetrieval (span : RetrievalSpan) : Insert :=
  ⟨.traceRetrievalSpans,
    [.traceId, .spanId, .retriever, .queryPointer, .queryHash,
      .queryEmbeddingModel, .topKRequested, .topKReturned, .reranker, .groundingUsed],
    [encode traceId, encode span.id, encode span.retriever, encode span.queryPointer,
      encode span.queryHash, encode span.queryEmbeddingModel, encode span.topKRequested,
      encode span.topKReturned, encode span.reranker, encode span.groundingUsed]⟩

/-- `_insert_retrieval_span`. -/
def insertRetrievalSpan (span : RetrievalSpan) : List Insert :=
  insertRetrieval traceId span :: span.retrieved.zipIdx.map fun (doc, pos) =>
    ⟨.traceRetrievedDocs,
      [.traceId, .spanId, .position, .docId, .docVersion, .chunkId, .rawScore, .rerankScore],
      [encode traceId, encode span.id, encode pos, encode doc.docId, encode doc.docVersion,
        encode doc.chunkId, encode doc.rawScore, encode doc.rerankScore]⟩

/-- `_insert_memory_read_span`. -/
def insertMemoryReadSpan (span : MemoryReadSpan) : List Insert :=
  [⟨.traceMemoryReadSpans,
    [.traceId, .spanId, .memoryStore, .keysRequested, .keysHit, .keysMissed, .valuesPointer],
    [encode traceId, encode span.id, encode span.memoryStore, encode span.keysRequested,
      encode span.keysHit, encode span.keysMissed, encode span.valuesPointer]⟩]

/-- `_insert_memory_write_span`. -/
def insertMemoryWriteSpan (span : MemoryWriteSpan) : List Insert :=
  [⟨.traceMemoryWriteSpans, [.traceId, .spanId, .memoryStore, .keysWritten, .valuesPointer],
    [encode traceId, encode span.id, encode span.memoryStore, encode span.keysWritten,
      encode span.valuesPointer]⟩]

/-- `_insert_decision_span`. -/
def insertDecisionSpan (span : DecisionSpan) : List Insert :=
  [⟨.traceDecisionSpans,
    [.traceId, .spanId, .decisionType, .chosen, .alternativesConsidered,
      .rationalePointer, .confidence],
    [encode traceId, encode span.id, encode span.decisionType, encode span.chosen,
      encode span.alternativesConsidered, encode span.rationalePointer, encode span.confidence]⟩]

/-- `_insert_handoff_span`. -/
def insertHandoffSpan (span : HandoffSpan) : List Insert :=
  [⟨.traceHandoffSpans, [.traceId, .spanId, .target, .payloadPointer],
    [encode traceId, encode span.id, encode span.target, encode span.payloadPointer]⟩]

/-- `_insert_human_intervention_span`. -/
def insertHumanInterventionSpan (span : HumanInterventionSpan) : List Insert :=
  [⟨.traceHumanInterventionSpans, [.traceId, .spanId, .actor, .action, .rationalePointer],
    [encode traceId, encode span.id, encode span.actor, encode span.action,
      encode span.rationalePointer]⟩]

/-- `_insert_guardrail_check_span`. -/
def insertGuardrailCheckSpan (span : GuardrailCheckSpan) : List Insert :=
  [⟨.traceGuardrailCheckSpans, [.traceId, .spanId, .guardrail, .passed, .detailPointer],
    [encode traceId, encode span.id, encode span.guardrail, encode span.passed,
      encode span.detailPointer]⟩]

/-- `_insert_error_span`. -/
def insertErrorSpan (span : ErrorSpan) : List Insert :=
  [⟨.traceErrorSpans, [.traceId, .spanId, .errorType, .message, .recoverable],
    [encode traceId, encode span.id, encode span.errorType, encode span.message,
      encode span.recoverable]⟩]

/-- `_insert_custom_span`. -/
def insertCustomSpan (span : CustomSpan) : List Insert :=
  [⟨.traceCustomSpans, [.traceId, .spanId, .payload],
    [encode traceId, encode span.id, encode span.payload]⟩]

/-- `_insert_stt_span`. -/
def insertSttSpan (span : SttSpan) : List Insert :=
  [⟨.traceSttSpans,
    [.traceId, .spanId, .provider, .model, .audioPointer, .audioHash,
      .audioDurationMs, .audioMimeType, .transcriptPointer, .transcriptHash,
      .transcriptInline, .language, .confidence, .streaming,
      .timeToFirstTranscriptMs, .providerMetadata],
    [encode traceId, encode span.id, encode span.provider, encode span.model,
      encode span.audioPointer, encode span.audioHash, encode span.audioDurationMs,
      encode span.audioMimeType, encode span.transcriptPointer, encode span.transcriptHash,
      encode span.transcriptInline, encode span.language, encode span.confidence,
      encode span.streaming, encode span.timeToFirstTranscriptMs,
      encode span.providerMetadata]⟩]

/-- `_insert_tts_span`. -/
def insertTtsSpan (span : TtsSpan) : List Insert :=
  [⟨.traceTtsSpans,
    [.traceId, .spanId, .provider, .model, .voiceId, .textPointer, .textHash,
      .textInline, .audioPointer, .audioHash, .audioDurationMs,
      .audioMimeType, .timeToFirstByteMs, .providerMetadata],
    [encode traceId, encode span.id, encode span.provider, encode span.model, encode span.voiceId,
      encode span.textPointer, encode span.textHash, encode span.textInline,
      encode span.audioPointer, encode span.audioHash, encode span.audioDurationMs,
      encode span.audioMimeType, encode span.timeToFirstByteMs,
      encode span.providerMetadata]⟩]

/-- The row of a span in `trace_spans`. -/
def insertSpanBase (index : ℕ) (span : Span) : Insert :=
  ⟨.traceSpans,
    [.spanId, .traceId, .workspaceId, .spanIndex, .kind, .parentId, .name, .startedAt,
      .durationMs],
    [encode span.id, encode traceId, encode workspaceId, encode index, encode span.kind,
      encode span.base.parentId, encode span.base.name, encode span.base.startedAt,
      encode span.base.durationMs]⟩

/-- The rows of a span in the tables of its kind; a turn has none. -/
def insertDetail : Span → List Insert
  | .agentTurn _ => []
  | .llmCall span => insertLlmSpan traceId workspaceId span
  | .toolCall span => insertToolSpan traceId workspaceId span
  | .retrieval span => insertRetrievalSpan traceId span
  | .memoryRead span => insertMemoryReadSpan traceId span
  | .memoryWrite span => insertMemoryWriteSpan traceId span
  | .decision span => insertDecisionSpan traceId span
  | .handoff span => insertHandoffSpan traceId span
  | .humanIntervention span => insertHumanInterventionSpan traceId span
  | .guardrailCheck span => insertGuardrailCheckSpan traceId span
  | .stt span => insertSttSpan traceId span
  | .tts span => insertTtsSpan traceId span
  | .error span => insertErrorSpan traceId span
  | .custom span => insertCustomSpan traceId span

/-- The rows of a span. -/
def insertSpan (index : ℕ) (span : Span) : List Insert :=
  insertSpanBase traceId workspaceId index span :: insertDetail traceId workspaceId span

end Write

/-! ### `trace_write.py` -/

def traceRowValues (shared : List SqlValue) (t : Trace) : List SqlValue :=
  shared ++
  [encode t.schemaVersion, encode t.snapshotId,
    encode t.run.runId, encode t.run.experimentId, encode t.run.iteration,
    encode t.run.variantId, encode t.run.evalCaseId, encode t.run.repetition, encode t.run.seed,
    encode t.run.threadId, encode t.run.threadPosition,
    encode t.agent.fleetVersion, encode t.agent.agentId, encode t.agent.agentVersion,
    encode t.agent.parametersSnapshotId,
    encode t.environment.frameworkVersion, encode t.environment.runtime,
    encode t.environment.sandbox, encode t.environment.toolMocks, encode t.environment.startedAt,
    encode t.environment.endedAt,
    encode t.finalState.status, encode t.finalState.error,
    encode t.outputs.finalResponsePointer, encode t.outputs.structuredOutput,
    encode t.metrics.totalTokensIn, encode t.metrics.totalTokensOut,
    encode t.metrics.totalCostUsd, encode t.metrics.totalDurationMs,
    encode t.metrics.toolCallCount, encode t.metrics.llmCallCount, encode t.metrics.retries,
    encode t.metrics.recoveryEvents, encode t.metrics.loopDetected]

/-- The rows of the grader results. -/
def insertGraderResults (t : Trace) : List Insert :=
  t.graderResults.zipIdx.map fun (gr, index) =>
    ⟨.traceGraderResults,
      [.traceId, .workspaceId, .resultIndex, .grader, .label, .score,
        .reason, .reasonPointer, .confidence, .failureModes, .breakdown],
      [encode t.id, encode t.workspaceId, encode index, encode gr.grader, encode gr.label,
        encode gr.score, encode gr.reason, encode gr.reasonPointer, encode gr.confidence,
        encode gr.failureModes, encode gr.breakdown]⟩

/-- The rows of the links. -/
def insertLinks (t : Trace) : List Insert :=
  t.links.zipIdx.map fun (link, index) =>
    ⟨.traceLinks, [.traceId, .position, .kind, .targetTraceId],
      [encode t.id, encode index, encode link.kind, encode link.traceId]⟩

/-- `write_trace_facts`. -/
def writeTraceFacts (db : TraceDb) (t : Trace) : Except (Violation Table) TraceDb := do
  let db := db.deleteWhere .traceGraderResults (hasText .traceId t.id)
  let db := db.deleteWhere .traceLinks (hasText .traceId t.id)
  let db ← db.insertAll (insertGraderResults t)
  db.insertAll (insertLinks t)

/-! ### `TraceMapper.upsert` -/

/-- A row falls with one of these. -/
def cascades (gone : List Row) (row : Row) : Bool := gone.any (sameKey [.traceId, .spanId] row)

/-- `DELETE FROM trace_spans WHERE trace_id = …`, with the rows that fall by `ON DELETE CASCADE`. -/
def deleteSpans (db : TraceDb) (traceId : String) : TraceDb :=
  let spans := (db.rows .traceSpans).filter (hasText .traceId traceId)
  let llmCalls := (db.rows .traceLlmCalls).filter (cascades spans)
  let retrievalSpans := (db.rows .traceRetrievalSpans).filter (cascades spans)
  db.keepWhere fun table row =>
    match table with
    | .traces | .traceGraderResults | .traceLinks => true
    | .traceSpans => !hasText .traceId traceId row
    | .traceLlmToolRequests => !cascades llmCalls row
    | .traceRetrievedDocs => !cascades retrievalSpans row
    | _ => !cascades spans row

/-- The row that is written for a trace. -/
def newRow (t : Trace) : Row := ofValues allColumns (traceRowValues (sharedValues t.toBaseEntity) t)

/-- `upsert`. -/
def upsert (db : TraceDb) (t : Trace) : Except (Violation Table) TraceDb := do
  let db ← db.setRows .traces (Db.upsertRows .id updateColumns (db.rows .traces) (newRow t))
  let db := deleteSpans db t.id
  let db ← db.insertAll
    (t.spans.zipIdx.flatMap fun (span, index) => insertSpan t.id t.workspaceId index span)
  writeTraceFacts db t

/-! ### `trace_spans_read.py` -/

section Read
variable (rows : Table → List Row) (traceId spanId : String) (base : SpanBase)

/-- `WHERE trace_id = … AND span_id = …`. -/
def ofSpan (table : Table) : List Row :=
  (rows table).filter fun row => hasText .spanId spanId row && hasText .traceId traceId row

/-- `cur.fetchone()`. -/
def fetchOne (columns : List Column) (table : Table) : Option (List SqlValue) :=
  (ofSpan rows traceId spanId table).head?.map (project columns)

/-- `cur.fetchall()`, `ORDER BY position`. -/
def fetchAll (columns : List Column) (table : Table) : List (List SqlValue) :=
  (orderBy (intAt .position) (ofSpan rows traceId spanId table)).map (project columns)

def buildToolUseRequest : List SqlValue → Option ToolUseRequest
  | [t, tid] => do return { tool := ← decode t, toolUseId := ← decode tid }
  | _ => none

def buildReasoning (r : List SqlValue) : Option ReasoningBlock := do
  return {
    available := ← cell r 12
    redacted := ← cell r 13
    summaryPointer := ← cell r 14
    fullPointer := ← cell r 15
    thinkingTokens := ← cell r 16
    signature := ← cell r 17 }

/-- The output that a row holds. -/
def buildOutput (r : List SqlValue) (toolUseRequested : List ToolUseRequest) :
    Option LLMOutput := do
  return {
    contentPointer := ← cell r 18
    contentHash := ← cell r 19
    contentInline := ← cell r 20
    stopReason := ← cell r 21
    toolUseRequested := toolUseRequested }

def buildTokens (r : List SqlValue) : Option TokenBreakdown := do
  return {
    input := ← cell r 22
    inputCacheRead := ← cell r 23
    inputCacheCreation := ← cell r 24
    output := ← cell r 25
    reasoning := ← cell r 26
    total := ← cell r 27 }

def buildCost (r : List SqlValue) : Option CostBreakdown := do
  return {
    input := ← cell r 28
    cacheRead := ← cell r 29
    cacheCreation := ← cell r 30
    output := ← cell r 31
    total := ← cell r 32 }

/-- `_build_llm_span`. -/
def buildLlmSpan : Option Span := do
  let r ← fetchOne rows traceId spanId
    [.provider, .model, .modelVersionPinned, .systemPromptPointer,
      .systemPromptHash, .systemPromptInline, .messagesPointer, .messagesHash,
      .messagesInline, .toolsOffered, .toolsOfferedHash, .params,
      .reasoningAvailable, .reasoningRedacted, .reasoningSummaryPointer,
      .reasoningFullPointer, .reasoningThinkingTokens, .reasoningSignature,
      .outputContentPointer, .outputContentHash, .outputContentInline,
      .outputStopReason, .tokensInput, .tokensInputCacheRead,
      .tokensInputCacheCreation, .tokensOutput, .tokensReasoning, .tokensTotal,
      .costInput, .costCacheRead, .costCacheCreation, .costOutput, .costTotal,
      .timeToFirstTokenMs, .tokensPerSecond, .retries, .cacheHit, .providerMetadata] .traceLlmCalls
  let toolUseRequested ← (fetchAll rows traceId spanId [.tool, .toolUseId]
    .traceLlmToolRequests).mapM buildToolUseRequest
  return .llmCall {
    toSpanBase := base
    provider := ← cell r 0
    model := ← cell r 1
    modelVersionPinned := ← cell r 2
    systemPromptPointer := ← cell r 3
    systemPromptHash := ← cell r 4
    systemPromptInline := ← cell r 5
    messagesPointer := ← cell r 6
    messagesHash := ← cell r 7
    messagesInline := ← cell r 8
    toolsOffered := ← cell r 9
    toolsOfferedHash := ← cell r 10
    params := ← cell r 11
    reasoning := ← buildReasoning r
    output := ← buildOutput r toolUseRequested
    tokens := ← buildTokens r
    costUsd := ← buildCost r
    timeToFirstTokenMs := ← cell r 33
    tokensPerSecond := ← cell r 34
    retries := ← cell r 35
    cacheHit := ← cell r 36
    providerMetadata := ← cell r 37 }

/-- `_build_tool_span`. -/
def buildToolSpan : Option Span := do
  let r ← fetchOne rows traceId spanId
    [.toolName, .toolVersion, .toolUseId, .argsPointer, .argsHash,
      .argsInline, .resultPointer, .resultHash, .resultInline, .status,
      .error, .retryChain, .sandboxed, .sideEffects] .traceToolCalls
  return .toolCall {
    toSpanBase := base
    toolName := ← cell r 0
    toolVersion := ← cell r 1
    toolUseId := ← cell r 2
    argsPointer := ← cell r 3
    argsHash := ← cell r 4
    argsInline := ← cell r 5
    resultPointer := ← cell r 6
    resultHash := ← cell r 7
    resultInline := ← cell r 8
    status := ← cell r 9
    error := ← cell r 10
    retryChain := ← cell r 11
    sandboxed := ← cell r 12
    sideEffects := ← cell r 13 }

def buildRetrievedDoc : List SqlValue → Option RetrievedDoc
  | [docId, dv, cid, rs, rr] => do
    return {
      docId := ← decode docId
      docVersion := ← decode dv
      chunkId := ← decode cid
      rawScore := ← decode rs
      rerankScore := ← decode rr }
  | _ => none

/-- `_build_retrieval_span`. -/
def buildRetrievalSpan : Option Span := do
  let r ← fetchOne rows traceId spanId
    [.retriever, .queryPointer, .queryHash, .queryEmbeddingModel,
      .topKRequested, .topKReturned, .reranker, .groundingUsed] .traceRetrievalSpans
  let retrieved ← (fetchAll rows traceId spanId
    [.docId, .docVersion, .chunkId, .rawScore, .rerankScore]
    .traceRetrievedDocs).mapM buildRetrievedDoc
  return .retrieval {
    toSpanBase := base
    retriever := ← cell r 0
    queryPointer := ← cell r 1
    queryHash := ← cell r 2
    queryEmbeddingModel := ← cell r 3
    topKRequested := ← cell r 4
    topKReturned := ← cell r 5
    reranker := ← cell r 6
    retrieved := retrieved
    groundingUsed := ← cell r 7 }

/-- `_build_stt_span`. -/
def buildSttSpan : Option Span := do
  let r ← fetchOne rows traceId spanId
    [.provider, .model, .audioPointer, .audioHash, .audioDurationMs,
      .audioMimeType, .transcriptPointer, .transcriptHash, .transcriptInline,
      .language, .confidence, .streaming, .timeToFirstTranscriptMs,
      .providerMetadata] .traceSttSpans
  return .stt {
    toSpanBase := base
    provider := ← cell r 0
    model := ← cell r 1
    audioPointer := ← cell r 2
    audioHash := ← cell r 3
    audioDurationMs := ← cell r 4
    audioMimeType := ← cell r 5
    transcriptPointer := ← cell r 6
    transcriptHash := ← cell r 7
    transcriptInline := ← cell r 8
    language := ← cell r 9
    confidence := ← cell r 10
    streaming := ← cell r 11
    timeToFirstTranscriptMs := ← cell r 12
    providerMetadata := ← cell r 13 }

/-- `_build_tts_span`. -/
def buildTtsSpan : Option Span := do
  let r ← fetchOne rows traceId spanId
    [.provider, .model, .voiceId, .textPointer, .textHash, .textInline,
      .audioPointer, .audioHash, .audioDurationMs, .audioMimeType,
      .timeToFirstByteMs, .providerMetadata] .traceTtsSpans
  return .tts {
    toSpanBase := base
    provider := ← cell r 0
    model := ← cell r 1
    voiceId := ← cell r 2
    textPointer := ← cell r 3
    textHash := ← cell r 4
    textInline := ← cell r 5
    audioPointer := ← cell r 6
    audioHash := ← cell r 7
    audioDurationMs := ← cell r 8
    audioMimeType := ← cell r 9
    timeToFirstByteMs := ← cell r 10
    providerMetadata := ← cell r 11 }

/-- `build_span`; `none` where the source raises. -/
def buildSpan (kind : String) : Option Span :=
  match kind with
  | "agent_turn" => some (.agentTurn { toSpanBase := base })
  | "llm_call" => buildLlmSpan rows traceId spanId base
  | "tool_call" => buildToolSpan rows traceId spanId base
  | "retrieval" => buildRetrievalSpan rows traceId spanId base
  | "memory_read" => do
    let [store, req, hit, missed, vp] ← fetchOne rows traceId spanId
      [.memoryStore, .keysRequested, .keysHit, .keysMissed, .valuesPointer]
      .traceMemoryReadSpans | none
    return .memoryRead {
      toSpanBase := base
      memoryStore := ← decode store
      keysRequested := ← decode req
      keysHit := ← decode hit
      keysMissed := ← decode missed
      valuesPointer := ← decode vp }
  | "memory_write" => do
    let [store, written, vp] ← fetchOne rows traceId spanId
      [.memoryStore, .keysWritten, .valuesPointer] .traceMemoryWriteSpans | none
    return .memoryWrite {
      toSpanBase := base
      memoryStore := ← decode store
      keysWritten := ← decode written
      valuesPointer := ← decode vp }
  | "decision" => do
    let [dt, chosen, alts, rp, conf] ← fetchOne rows traceId spanId
      [.decisionType, .chosen, .alternativesConsidered, .rationalePointer, .confidence]
      .traceDecisionSpans | none
    return .decision {
      toSpanBase := base
      decisionType := ← decode dt
      chosen := ← decode chosen
      alternativesConsidered := ← decode alts
      rationalePointer := ← decode rp
      confidence := ← decode conf }
  | "handoff" => do
    let [target, pp] ← fetchOne rows traceId spanId [.target, .payloadPointer]
      .traceHandoffSpans | none
    return .handoff {
      toSpanBase := base
      target := ← decode target
      payloadPointer := ← decode pp }
  | "human_intervention" => do
    let [actor, action, rp] ← fetchOne rows traceId spanId [.actor, .action, .rationalePointer]
      .traceHumanInterventionSpans | none
    return .humanIntervention {
      toSpanBase := base
      actor := ← decode actor
      action := ← decode action
      rationalePointer := ← decode rp }
  | "guardrail_check" => do
    let [guardrail, passed, dp] ← fetchOne rows traceId spanId
      [.guardrail, .passed, .detailPointer] .traceGuardrailCheckSpans | none
    return .guardrailCheck {
      toSpanBase := base
      guardrail := ← decode guardrail
      passed := ← decode passed
      detailPointer := ← decode dp }
  | "stt" => buildSttSpan rows traceId spanId base
  | "tts" => buildTtsSpan rows traceId spanId base
  | "error" => do
    let [et, msg, rec] ← fetchOne rows traceId spanId [.errorType, .message, .recoverable]
      .traceErrorSpans | none
    return .error {
      toSpanBase := base
      errorType := ← decode et
      message := ← decode msg
      recoverable := ← decode rec }
  | "custom" => do
    let [payload] ← fetchOne rows traceId spanId [.payload] .traceCustomSpans | none
    return .custom { toSpanBase := base, payload := ← decode payload }
  | _ => none

/-- The span of a base row. -/
def loadSpan : List SqlValue → Option Span
  | [spanId, kind, parentId, name, startedAt, durationMs] => do
    let base : SpanBase := {
      id := ← decode spanId
      parentId := ← decode parentId
      name := ← decode name
      startedAt := ← decode startedAt
      durationMs := ← decode durationMs }
    buildSpan rows traceId base.id base (← decode kind)
  | _ => none

/-- The spans of a trace, in order. -/
def loadSpans : Option (List Span) :=
  ((orderBy (intAt .spanIndex) ((rows .traceSpans).filter (hasText .traceId traceId))).map
    (project [.spanId, .kind, .parentId, .name, .startedAt, .durationMs])).mapM
      (loadSpan rows traceId)

/-! ### `trace_build.py` -/

/-- The result that a row holds. -/
def buildGraderResult : List SqlValue → Option GraderResult
  | [g, lbl, sc, rs, rp, cf, fm, bd] => do
    return {
      grader := ← decode g
      label := ← decode lbl
      score := ← decode sc
      reason := ← decode rs
      reasonPointer := ← decode rp
      confidence := ← decode cf
      failureModes := ← decode fm
      breakdown := ← decode bd }
  | _ => none

/-- The grader results of a trace, in order. -/
def loadGraderResults : Option (List GraderResult) :=
  ((orderBy (intAt .resultIndex)
    ((rows .traceGraderResults).filter (hasText .traceId traceId))).map
      (project [.grader, .label, .score, .reason, .reasonPointer, .confidence, .failureModes,
        .breakdown])).mapM buildGraderResult

/-- The link that a row holds. -/
def buildLink : List SqlValue → Option TraceLink
  | [k, tt] => do return { kind := ← decode k, traceId := ← decode tt }
  | _ => none

/-- The links of a trace, in order. -/
def loadLinks : Option (List TraceLink) :=
  ((orderBy (intAt .position) ((rows .traceLinks).filter (hasText .traceId traceId))).map
    (project [.kind, .targetTraceId])).mapM buildLink

end Read

section Build
variable (d : Row)

/-- The fields that all entities have. -/
def buildBase : Option BaseEntity := do
  return {
    id := ← decode (d .id)
    workspaceId := ← decode (d .workspaceId)
    version := ← decode (d .version)
    createdAt := ← decode (d .createdAt)
    updatedAt := ← decode (d .updatedAt)
    deletedAt := ← decode (d .deletedAt) }

/-- The run that a row holds. -/
def buildRun : Option RunInfo := do
  return {
    runId := ← decode (d .runId)
    experimentId := ← decode (d .runExperimentId)
    iteration := ← decode (d .runIteration)
    variantId := ← decode (d .runVariantId)
    evalCaseId := ← decode (d .runEvalCaseId)
    repetition := ← decode (d .runRepetition)
    seed := ← decode (d .runSeed)
    threadId := ← decode (d .runThreadId)
    threadPosition := ← decode (d .runThreadPosition) }

/-- The agent that a row holds. -/
def buildAgent : Option AgentSnapshotRef := do
  return {
    fleetVersion := ← decode (d .agentFleetVersion)
    agentId := ← decode (d .agentAgentId)
    agentVersion := ← decode (d .agentAgentVersion)
    parametersSnapshotId := ← decode (d .agentParametersSnapshotId) }

def buildEnvironment : Option EnvironmentInfo := do
  return {
    frameworkVersion := ← decode (d .envFrameworkVersion)
    runtime := ← decode (d .envRuntime)
    sandbox := ← decode (d .envSandbox)
    toolMocks := ← decode (d .envToolMocks)
    startedAt := ← decode (d .envStartedAt)
    endedAt := ← decode (d .envEndedAt) }

/-- The totals that a row holds. -/
def buildMetrics : Option TraceMetrics := do
  return {
    totalTokensIn := ← decode (d .metricsTotalTokensIn)
    totalTokensOut := ← decode (d .metricsTotalTokensOut)
    totalCostUsd := ← decode (d .metricsTotalCostUsd)
    totalDurationMs := ← decode (d .metricsTotalDurationMs)
    toolCallCount := ← decode (d .metricsToolCallCount)
    llmCallCount := ← decode (d .metricsLlmCallCount)
    retries := ← decode (d .metricsRetries)
    recoveryEvents := ← decode (d .metricsRecoveryEvents)
    loopDetected := ← decode (d .metricsLoopDetected) }

/-- `build_trace`; `none` where the source raises. -/
def buildTrace (rows : Table → List Row) : Option Trace := do
  let base ← buildBase d
  let spans ← loadSpans rows base.id
  let graderResults ← loadGraderResults rows base.id
  let links ← loadLinks rows base.id
  let t : Trace := {
    toBaseEntity := base
    schemaVersion := ← decode (d .schemaVersion)
    snapshotId := ← decode (d .snapshotId)
    run := ← buildRun d
    agent := ← buildAgent d
    environment := ← buildEnvironment d
    finalState := {
      status := ← decode (d .finalStateStatus)
      error := ← decode (d .finalStateError) }
    spans := spans
    outputs := {
      finalResponsePointer := ← decode (d .outputsFinalResponsePointer)
      structuredOutput := ← decode (d .outputsStructuredOutput) }
    graderResults := graderResults
    metrics := ← buildMetrics d
    links := links }
  if t.Valid then return t else none

end Build

/-- The rows of a trace do not make a valid one. -/
structure ValidationError where

/-- `TraceMapper.load`. -/
def load (db : TraceDb) (workspaceId traceId : String) : Except ValidationError (Option Trace) :=
  match (db.rows .traces).find? fun row =>
    hasText .id traceId row && hasText .workspaceId workspaceId row with
  | none => .ok none
  | some row =>
    match buildTrace row db.rows with
    | none => .error ⟨⟩
    | some t => .ok (some t)

end Selfevals.Storage.TraceMapper
