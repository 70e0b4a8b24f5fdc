import Selfevals.Storage.EntityRows
import Selfevals.Storage.TraceMapper

/-!
# What comes back of a stored trace

`upsert` writes a trace into some twenty tables, `load` builds it from their rows. `Kept` says that
a database holds the traces of a store.
-/

namespace Selfevals.Storage.TraceRoundTrip

open Lib.JsonValue Lib.Sql Lib.Relational Schemas.Base Schemas.Enums Schemas.Experiments
  Schemas.TraceRecords Storage.Columns Storage.EntityRows Storage.TraceMapper
open Db (added added_cons added_append added_flatMap mem_added)
open SqlCodec (encode decode decode_encode)

/-! ### What is written -/

/-- The tables with the details of a kind of span. -/
def isDetail : Table → Bool
  | .traces | .traceSpans | .traceGraderResults | .traceLinks => false
  | _ => true

/-- The rows of the spans of a trace. -/
def insertSpans (t : Trace) : List Insert :=
  t.spans.zipIdx.flatMap fun (span, index) => insertSpan t.id t.workspaceId index span

/-- What is inserted for a trace, besides its row in `traces`. -/
def inserts (t : Trace) : List Insert := insertSpans t ++ insertGraderResults t ++ insertLinks t

section Span
variable (traceId workspaceId : String)

theorem insertDetail_spec (span : Span) : ∀ ins ∈ insertDetail traceId workspaceId span,
    isDetail ins.table = true ∧ ins.row .traceId = .text traceId ∧
      ins.row .spanId = .text span.id := by
  intro ins hins
  cases span with
  | agentTurn span => simp [insertDetail] at hins
  | llmCall span =>
    obtain rfl | hins := List.mem_cons.mp hins
    · exact ⟨rfl, rfl, rfl⟩
    · obtain ⟨p, -, rfl⟩ := List.mem_map.mp hins
      exact ⟨rfl, rfl, rfl⟩
  | retrieval span =>
    obtain rfl | hins := List.mem_cons.mp hins
    · exact ⟨rfl, rfl, rfl⟩
    · obtain ⟨p, -, rfl⟩ := List.mem_map.mp hins
      exact ⟨rfl, rfl, rfl⟩
  | _ =>
    obtain rfl := List.mem_singleton.mp hins
    exact ⟨rfl, rfl, rfl⟩

theorem insertSpan_spec (index : ℕ) (span : Span) :
    ∀ ins ∈ insertSpan traceId workspaceId index span,
      ins.row .traceId = .text traceId ∧ ins.row .spanId = .text span.id := by
  intro ins hins
  obtain rfl | hins := List.mem_cons.mp hins
  · exact ⟨rfl, rfl⟩
  · exact (insertDetail_spec traceId workspaceId span ins hins).2

end Span

/-! ### The details of a span -/

section Read
variable {rows : Table → List Row} {traceId workspaceId spanId : String} {table : Table}

theorem fetchOne_written {ins : Insert} (n : ℕ) (h : ofSpan rows traceId spanId table = [ins.row])
    (hnodup : ins.columns.Nodup) (hlen : ins.columns.length = ins.values.length) :
    fetchOne rows traceId spanId (ins.columns.drop n) table = some (ins.values.drop n) := by
  unfold fetchOne
  rw [h]
  exact congrArg some (project_drop n hnodup hlen)

/-- What is stored of a span in the tables of its kind is what was inserted. -/
def DetailStored (rows : Table → List Row) (traceId spanId : String) (inserts : List Insert) :
    Prop :=
  ∀ table, isDetail table = true → ofSpan rows traceId spanId table = added table inserts

theorem added_children {α : Type} {ins : Insert} {items : List α} {f : α × ℕ → Insert}
    (hne : ins.table ≠ table) (hf : ∀ p, (f p).table = table) :
    added table (ins :: items.zipIdx.map f) = items.zipIdx.map fun p => (f p).row := by
  have hall : ∀ ins ∈ items.zipIdx.map f, ins.table = table := by
    intro ins hins
    obtain ⟨p, -, rfl⟩ := List.mem_map.mp hins
    exact hf p
  rw [added_cons, if_neg hne, Db.added_eq_map hall, List.nil_append, List.map_map]
  rfl

theorem added_head {α : Type} {ins : Insert} {items : List α} {f : α × ℕ → Insert}
    (hins : ins.table = table) (hf : ∀ p, (f p).table ≠ table) :
    added table (ins :: items.zipIdx.map f) = [ins.row] := by
  have hnone : ∀ ins' ∈ items.zipIdx.map f, ins'.table ≠ table := by
    intro ins' hins'
    obtain ⟨p, -, rfl⟩ := List.mem_map.mp hins'
    exact hf p
  rw [added_cons, if_pos hins, Db.added_eq_nil hnone, List.append_nil]

/-- The values of the row of a model call, as they are read. -/
def llmValues (span : LLMCallSpan) : List SqlValue := (insertLlmCall "" "" span).values.drop 3

theorem cell_llmValues (span : LLMCallSpan) :
    (cell (llmValues span) 0 = some span.provider ∧ cell (llmValues span) 1 = some span.model ∧
      cell (llmValues span) 2 = some span.modelVersionPinned) ∧
    (cell (llmValues span) 3 = some span.systemPromptPointer ∧
      cell (llmValues span) 4 = some span.systemPromptHash ∧
      cell (llmValues span) 5 = some span.systemPromptInline) ∧
    (cell (llmValues span) 6 = some span.messagesPointer ∧
      cell (llmValues span) 7 = some span.messagesHash ∧
      cell (llmValues span) 8 = some span.messagesInline) ∧
    (cell (llmValues span) 9 = some span.toolsOffered ∧
      cell (llmValues span) 10 = some span.toolsOfferedHash ∧
      cell (llmValues span) 11 = some span.params) ∧
    cell (llmValues span) 33 = some span.timeToFirstTokenMs ∧
      cell (llmValues span) 34 = some span.tokensPerSecond ∧
      cell (llmValues span) 35 = some span.retries ∧ cell (llmValues span) 36 = some span.cacheHit ∧
      cell (llmValues span) 37 = some span.providerMetadata := by
  refine ⟨⟨?_, ?_, ?_⟩, ⟨?_, ?_, ?_⟩, ⟨?_, ?_, ?_⟩, ⟨?_, ?_, ?_⟩, ?_, ?_, ?_, ?_, ?_⟩ <;>
    exact decode_encode _

theorem buildReasoning_written (span : LLMCallSpan) :
    buildReasoning (llmValues span) = some span.reasoning := by
  simp [buildReasoning, cell, llmValues, insertLlmCall]

theorem buildOutput_written (span : LLMCallSpan) :
    buildOutput (llmValues span) span.output.toolUseRequested = some span.output := by
  simp [buildOutput, cell, llmValues, insertLlmCall]

theorem buildTokens_written (span : LLMCallSpan) :
    buildTokens (llmValues span) = some span.tokens := by
  simp [buildTokens, cell, llmValues, insertLlmCall]

theorem buildCost_written (span : LLMCallSpan) :
    buildCost (llmValues span) = some span.costUsd := by
  simp [buildCost, cell, llmValues, insertLlmCall]

theorem buildLlmSpan_written {span : LLMCallSpan}
    (h : DetailStored rows traceId span.id (insertLlmSpan traceId workspaceId span)) :
    buildLlmSpan rows traceId span.id span.toSpanBase = some (.llmCall span) := by
  have hcall : ofSpan rows traceId span.id .traceLlmCalls =
      [(insertLlmCall traceId workspaceId span).row] := by
    rw [h .traceLlmCalls rfl]
    exact added_head rfl fun _ => by simp
  have hrow : fetchOne rows traceId span.id _ .traceLlmCalls = some (llmValues span) :=
    (fetchOne_written 3 hcall (by dsimp only [insertLlmCall]; decide) rfl).trans rfl
  have hrequests : ((fetchAll rows traceId span.id [.tool, .toolUseId]
      .traceLlmToolRequests).mapM buildToolUseRequest) = some span.output.toolUseRequested := by
    unfold fetchAll
    rw [h .traceLlmToolRequests rfl, insertLlmSpan,
      added_children (by simp [insertLlmCall]) fun _ => by rfl]
    refine mapM_orderBy_zipIdx (fun _ => rfl) fun p _ => ?_
    show buildToolUseRequest [encode p.1.tool, encode p.1.toolUseId] = some p.1
    simp [buildToolUseRequest]
  refine (bind_of_eq_some hrow _).trans ((bind_of_eq_some hrequests _).trans ?_)
  simp only [buildReasoning_written, buildOutput_written, buildTokens_written, buildCost_written,
    cell_llmValues]
  rfl

theorem buildToolSpan_written {span : ToolCallSpan}
    (h : DetailStored rows traceId span.id (insertToolSpan traceId workspaceId span)) :
    buildToolSpan rows traceId span.id span.toSpanBase = some (.toolCall span) := by
  have hrow := fetchOne_written 3 (h .traceToolCalls rfl) (by dsimp only; decide) rfl
  refine (bind_of_eq_some hrow _).trans ?_
  simp only [cell, List.drop, Array.reduceGetElem?, Option.getD_some, decode_encode]
  rfl

theorem buildRetrievalSpan_written {span : RetrievalSpan}
    (h : DetailStored rows traceId span.id (insertRetrievalSpan traceId span)) :
    buildRetrievalSpan rows traceId span.id span.toSpanBase = some (.retrieval span) := by
  have hretrieval : ofSpan rows traceId span.id .traceRetrievalSpans =
      [(insertRetrieval traceId span).row] := by
    rw [h .traceRetrievalSpans rfl]
    exact added_head rfl fun _ => by simp
  have hrow := fetchOne_written 2 hretrieval (by dsimp only [insertRetrieval]; decide) rfl
  have hdocs : ((fetchAll rows traceId span.id
      [.docId, .docVersion, .chunkId, .rawScore, .rerankScore]
      .traceRetrievedDocs).mapM buildRetrievedDoc) = some span.retrieved := by
    unfold fetchAll
    rw [h .traceRetrievedDocs rfl, insertRetrievalSpan,
      added_children (by simp [insertRetrieval]) fun _ => by rfl]
    refine mapM_orderBy_zipIdx (fun _ => rfl) fun p _ => ?_
    show buildRetrievedDoc [encode p.1.docId, encode p.1.docVersion, encode p.1.chunkId,
      encode p.1.rawScore, encode p.1.rerankScore] = some p.1
    simp [buildRetrievedDoc]
  dsimp only [insertRetrieval, List.drop] at hrow
  refine (bind_of_eq_some hrow _).trans ((bind_of_eq_some hdocs _).trans ?_)
  simp only [cell, Array.reduceGetElem?, Option.getD_some, decode_encode]
  rfl

theorem buildSttSpan_written {span : SttSpan}
    (h : DetailStored rows traceId span.id (insertSttSpan traceId span)) :
    buildSttSpan rows traceId span.id span.toSpanBase = some (.stt span) := by
  have hrow := fetchOne_written 2 (h .traceSttSpans rfl) (by dsimp only; decide) rfl
  refine (bind_of_eq_some hrow _).trans ?_
  simp only [cell, List.drop, Array.reduceGetElem?, Option.getD_some, decode_encode]
  rfl

theorem buildTtsSpan_written {span : TtsSpan}
    (h : DetailStored rows traceId span.id (insertTtsSpan traceId span)) :
    buildTtsSpan rows traceId span.id span.toSpanBase = some (.tts span) := by
  have hrow := fetchOne_written 2 (h .traceTtsSpans rfl) (by dsimp only; decide) rfl
  refine (bind_of_eq_some hrow _).trans ?_
  simp only [cell, List.drop, Array.reduceGetElem?, Option.getD_some, decode_encode]
  rfl

/-- **A span of every kind is built as it was written.** -/
theorem buildSpan_written {span : Span}
    (h : DetailStored rows traceId span.id (insertDetail traceId workspaceId span)) :
    buildSpan rows traceId span.id span.base (Coded.value span.kind) = some span := by
  cases span with
  | agentTurn span => rfl
  | llmCall span => exact buildLlmSpan_written h
  | toolCall span => exact buildToolSpan_written h
  | retrieval span => exact buildRetrievalSpan_written h
  | memoryRead span =>
    have hrow := fetchOne_written 2 (h .traceMemoryReadSpans rfl) (by dsimp only; decide) rfl
    refine (bind_of_eq_some hrow _).trans ?_
    simp only [List.drop, decode_encode]
    rfl
  | memoryWrite span =>
    have hrow := fetchOne_written 2 (h .traceMemoryWriteSpans rfl) (by dsimp only; decide) rfl
    refine (bind_of_eq_some hrow _).trans ?_
    simp only [List.drop, decode_encode]
    rfl
  | decision span =>
    have hrow := fetchOne_written 2 (h .traceDecisionSpans rfl) (by dsimp only; decide) rfl
    refine (bind_of_eq_some hrow _).trans ?_
    simp only [List.drop, decode_encode]
    rfl
  | handoff span =>
    have hrow := fetchOne_written 2 (h .traceHandoffSpans rfl) (by dsimp only; decide) rfl
    refine (bind_of_eq_some hrow _).trans ?_
    simp only [List.drop, decode_encode]
    rfl
  | humanIntervention span =>
    have hrow := fetchOne_written 2 (h .traceHumanInterventionSpans rfl) (by dsimp only; decide) rfl
    refine (bind_of_eq_some hrow _).trans ?_
    simp only [List.drop, decode_encode]
    rfl
  | guardrailCheck span =>
    have hrow := fetchOne_written 2 (h .traceGuardrailCheckSpans rfl) (by dsimp only; decide) rfl
    refine (bind_of_eq_some hrow _).trans ?_
    simp only [List.drop, decode_encode]
    rfl
  | stt span => exact buildSttSpan_written h
  | tts span => exact buildTtsSpan_written h
  | error span =>
    have hrow := fetchOne_written 2 (h .traceErrorSpans rfl) (by dsimp only; decide) rfl
    refine (bind_of_eq_some hrow _).trans ?_
    simp only [List.drop, decode_encode]
    rfl
  | custom span =>
    have hrow := fetchOne_written 2 (h .traceCustomSpans rfl) (by dsimp only; decide) rfl
    refine (bind_of_eq_some hrow _).trans ?_
    simp only [List.drop, decode_encode]
    rfl

end Read

/-! ### The rows of a trace -/

section Trace
variable (t : Trace) {table : Table}

theorem added_insertSpans_nil (h : ¬(table = .traceSpans ∨ isDetail table = true)) :
    added table (insertSpans t) = [] := by
  refine Db.added_eq_nil fun ins hins heq => h ?_
  obtain ⟨p, -, hins⟩ := List.mem_flatMap.mp hins
  obtain rfl | hins := List.mem_cons.mp hins
  · exact Or.inl heq.symm
  · exact Or.inr (heq ▸ (insertDetail_spec _ _ _ ins hins).1)

theorem insertGraderResults_table :
    ∀ ins ∈ insertGraderResults t, ins.table = .traceGraderResults := by
  intro ins hins
  obtain ⟨p, -, rfl⟩ := List.mem_map.mp hins
  rfl

theorem added_insertGraderResults_nil (h : table ≠ .traceGraderResults) :
    added table (insertGraderResults t) = [] :=
  Db.added_eq_nil fun ins hins heq => h (heq.symm.trans (insertGraderResults_table t ins hins))

theorem insertLinks_table : ∀ ins ∈ insertLinks t, ins.table = .traceLinks := by
  intro ins hins
  obtain ⟨p, -, rfl⟩ := List.mem_map.mp hins
  rfl

theorem added_insertLinks_nil (h : table ≠ .traceLinks) : added table (insertLinks t) = [] :=
  Db.added_eq_nil fun ins hins heq => h (heq.symm.trans (insertLinks_table t ins hins))

theorem added_inserts : added table (inserts t) =
    added table (insertSpans t) ++ added table (insertGraderResults t) ++
      added table (insertLinks t) := by
  unfold inserts
  rw [added_append, added_append]

theorem added_of_span (h : table = .traceSpans ∨ isDetail table = true) :
    added table (inserts t) = added table (insertSpans t) := by
  have hgraders : table ≠ .traceGraderResults := by
    rintro rfl
    simp [isDetail] at h
  have hlinks : table ≠ .traceLinks := by
    rintro rfl
    simp [isDetail] at h
  rw [added_inserts, added_insertGraderResults_nil t hgraders, added_insertLinks_nil t hlinks,
    List.append_nil, List.append_nil]

theorem added_traceSpans : added .traceSpans (inserts t) =
    t.spans.zipIdx.map fun p => (insertSpanBase t.id t.workspaceId p.2 p.1).row := by
  rw [added_of_span t (Or.inl rfl), insertSpans, added_flatMap, ← List.flatMap_pure_eq_map]
  refine List.flatMap_congr fun p _ => ?_
  have hnone : added .traceSpans (insertDetail t.id t.workspaceId p.1) = [] := by
    refine Db.added_eq_nil fun ins hins heq => ?_
    have := (insertDetail_spec _ _ _ ins hins).1
    rw [heq] at this
    simp [isDetail] at this
  show added .traceSpans (insertSpanBase _ _ _ _ :: insertDetail _ _ _) = _
  rw [added_cons, hnone, if_pos (by rfl), List.append_nil]
  rfl

theorem added_detail (h : isDetail table = true) : added table (inserts t) =
    t.spans.zipIdx.flatMap fun p => added table (insertDetail t.id t.workspaceId p.1) := by
  rw [added_of_span t (Or.inr h), insertSpans, added_flatMap]
  refine List.flatMap_congr fun p _ => ?_
  show added table (insertSpanBase _ _ _ _ :: insertDetail _ _ _) = _
  rw [added_cons, if_neg, List.nil_append]
  intro heq
  rw [← heq] at h
  simp [isDetail, insertSpanBase] at h

theorem added_traceGraderResults :
    added .traceGraderResults (inserts t) = (insertGraderResults t).map (·.row) := by
  rw [added_inserts, added_insertSpans_nil t (by simp [isDetail]),
    added_insertLinks_nil t (by simp), Db.added_eq_map (insertGraderResults_table t),
    List.append_nil, List.nil_append]

theorem added_traceLinks : added .traceLinks (inserts t) = (insertLinks t).map (·.row) := by
  rw [added_inserts, added_insertSpans_nil t (by simp [isDetail]),
    added_insertGraderResults_nil t (by simp), Db.added_eq_map (insertLinks_table t),
    List.nil_append, List.nil_append]

theorem hasText_inserts : ∀ row ∈ added table (inserts t), hasText .traceId t.id row = true := by
  intro row hrow
  obtain ⟨ins, hins, -, rfl⟩ := mem_added.mp hrow
  unfold inserts insertSpans insertGraderResults insertLinks at hins
  rw [List.mem_append, List.mem_append, List.mem_flatMap, List.mem_map, List.mem_map] at hins
  obtain (⟨p, -, hins⟩ | ⟨p, -, rfl⟩) | ⟨p, -, rfl⟩ := hins
  · exact hasText_iff.mpr (insertSpan_spec _ _ _ _ ins hins).1
  · exact hasText_iff.mpr rfl
  · exact hasText_iff.mpr rfl

/-! ### What is read of the rows of a trace -/

variable {t} {rows : Table → List Row}
  (hrows : ∀ table, table ≠ .traces →
    (rows table).filter (hasText .traceId t.id) = added table (inserts t))
include hrows

/-- **The rows of each span** are those that were written for it. -/
theorem detailStored (hnodup : (t.spans.map Span.id).Nodup) {p : Span × ℕ}
    (hp : p ∈ t.spans.zipIdx) :
    DetailStored rows t.id p.1.id (insertDetail t.id t.workspaceId p.1) := by
  intro table htable
  have hne : table ≠ .traces := by
    rintro rfl
    simp [isDetail] at htable
  have hids : (t.spans.zipIdx.map fun p => p.1.id).Nodup := by
    have hmap : (t.spans.zipIdx.map fun p => p.1.id) = t.spans.map Span.id := by
      conv_rhs => rw [← List.zipIdx_map_fst 0 t.spans, List.map_map]
      rfl
    rwa [hmap]
  have hown : ∀ p ∈ t.spans.zipIdx, ∀ s,
      ∀ row ∈ added table (insertDetail t.id t.workspaceId p.1),
        hasText .spanId s row = (p.1.id == s) := by
    intro p _ s row hrow
    obtain ⟨ins, hins, -, rfl⟩ := mem_added.mp hrow
    unfold hasText
    rw [(insertDetail_spec _ _ _ ins hins).2.2, sqlEq_text]
  unfold ofSpan
  rw [← List.filter_filter, hrows table hne, added_detail t htable]
  exact filter_flatMap_key hids hown hp

theorem loadSpans_written (hnodup : (t.spans.map Span.id).Nodup) :
    loadSpans rows t.id = some t.spans := by
  unfold loadSpans
  rw [hrows _ (by simp), added_traceSpans]
  refine mapM_orderBy_zipIdx (fun _ => rfl) fun p hp => ?_
  have hbuild := buildSpan_written (detailStored hrows hnodup hp)
  show loadSpan rows t.id [encode p.1.id, encode p.1.kind, encode p.1.base.parentId,
    encode p.1.base.name, encode p.1.base.startedAt, encode p.1.base.durationMs] = some p.1
  unfold loadSpan
  simp only [decode_encode]
  exact hbuild

theorem loadGraderResults_written : loadGraderResults rows t.id = some t.graderResults := by
  unfold loadGraderResults
  rw [hrows _ (by simp), added_traceGraderResults, insertGraderResults, List.map_map]
  refine mapM_orderBy_zipIdx (fun _ => rfl) fun p _ => ?_
  show buildGraderResult [encode p.1.grader, encode p.1.label, encode p.1.score, encode p.1.reason,
    encode p.1.reasonPointer, encode p.1.confidence, encode p.1.failureModes,
    encode p.1.breakdown] = some p.1
  simp [buildGraderResult]

theorem loadLinks_written : loadLinks rows t.id = some t.links := by
  unfold loadLinks
  rw [hrows _ (by simp), added_traceLinks, insertLinks, List.map_map]
  refine mapM_orderBy_zipIdx (fun _ => rfl) fun p _ => ?_
  show buildLink [encode p.1.kind, encode p.1.traceId] = some p.1
  simp [buildLink]

end Trace

/-! ### The row in `traces` -/

/-- What each column of the row of a trace holds. -/
def cells (t : Trace) : Row
  | .id => encode t.id
  | .workspaceId => encode t.workspaceId
  | .version => encode t.version
  | .createdAt => encode t.createdAt
  | .updatedAt => encode t.updatedAt
  | .deletedAt => encode t.deletedAt
  | .schemaVersion => encode t.schemaVersion
  | .snapshotId => encode t.snapshotId
  | .runId => encode t.run.runId
  | .runExperimentId => encode t.run.experimentId
  | .runIteration => encode t.run.iteration
  | .runVariantId => encode t.run.variantId
  | .runEvalCaseId => encode t.run.evalCaseId
  | .runRepetition => encode t.run.repetition
  | .runSeed => encode t.run.seed
  | .runThreadId => encode t.run.threadId
  | .runThreadPosition => encode t.run.threadPosition
  | .agentFleetVersion => encode t.agent.fleetVersion
  | .agentAgentId => encode t.agent.agentId
  | .agentAgentVersion => encode t.agent.agentVersion
  | .agentParametersSnapshotId => encode t.agent.parametersSnapshotId
  | .envFrameworkVersion => encode t.environment.frameworkVersion
  | .envRuntime => encode t.environment.runtime
  | .envSandbox => encode t.environment.sandbox
  | .envToolMocks => encode t.environment.toolMocks
  | .envStartedAt => encode t.environment.startedAt
  | .envEndedAt => encode t.environment.endedAt
  | .finalStateStatus => encode t.finalState.status
  | .finalStateError => encode t.finalState.error
  | .outputsFinalResponsePointer => encode t.outputs.finalResponsePointer
  | .outputsStructuredOutput => encode t.outputs.structuredOutput
  | .metricsTotalTokensIn => encode t.metrics.totalTokensIn
  | .metricsTotalTokensOut => encode t.metrics.totalTokensOut
  | .metricsTotalCostUsd => encode t.metrics.totalCostUsd
  | .metricsTotalDurationMs => encode t.metrics.totalDurationMs
  | .metricsToolCallCount => encode t.metrics.toolCallCount
  | .metricsLlmCallCount => encode t.metrics.llmCallCount
  | .metricsRetries => encode t.metrics.retries
  | .metricsRecoveryEvents => encode t.metrics.recoveryEvents
  | .metricsLoopDetected => encode t.metrics.loopDetected
  | _ => .null

/-- **The values of a row stand under their columns.** -/
theorem newRow_eq_cells (t : Trace) : newRow t = cells t := by
  funext c
  cases c <;> rfl

theorem updated_newRow {old t : Trace} (hid : old.id = t.id) :
    Db.updated updateColumns (newRow old) (newRow t) =
      newRow { t with createdAt := old.createdAt } := by
  rw [newRow_eq_cells, newRow_eq_cells, newRow_eq_cells]
  funext c
  cases c <;> first | rfl | exact congrArg encode hid

section Build
variable (t : Trace)

attribute [local simp] cells

theorem buildBase_cells : buildBase (cells t) = some t.toBaseEntity := by
  simp [buildBase]

theorem buildRun_cells : buildRun (cells t) = some t.run := by
  simp [buildRun]

theorem buildAgent_cells : buildAgent (cells t) = some t.agent := by
  simp [buildAgent]

theorem buildEnvironment_cells : buildEnvironment (cells t) = some t.environment := by
  simp [buildEnvironment]

theorem buildMetrics_cells : buildMetrics (cells t) = some t.metrics := by
  simp [buildMetrics]

variable {t} in
/-- **A valid trace is built as it was written.** -/
theorem buildTrace_written {rows : Table → List Row} (ht : t.Valid)
    (hrows : ∀ table, table ≠ .traces →
      (rows table).filter (hasText .traceId t.id) = added table (inserts t)) :
    buildTrace (newRow t) rows = some t := by
  rw [newRow_eq_cells]
  unfold buildTrace
  refine (bind_of_eq_some (buildBase_cells t) _).trans ?_
  refine (bind_of_eq_some (loadSpans_written hrows ht.spanIdsUnique) _).trans ?_
  refine (bind_of_eq_some (loadGraderResults_written hrows) _).trans ?_
  refine (bind_of_eq_some (loadLinks_written hrows) _).trans ?_
  simp only [buildRun_cells, buildAgent_cells, buildEnvironment_cells, buildMetrics_cells]
  simp only [cells, decode_encode]
  exact if_pos ht

end Build

/-! ### The rows of a trace pass -/

theorem insertDetail_checks (traceId workspaceId : String) (span : Span) :
    ∀ ins ∈ insertDetail traceId workspaceId span,
      (checks ins.table).all (·.holds ins.row) = true := by
  intro ins hins
  cases span with
  | agentTurn span => simp [insertDetail] at hins
  | llmCall span =>
    obtain rfl | hins := List.mem_cons.mp hins
    · rfl
    · obtain ⟨p, -, rfl⟩ := List.mem_map.mp hins
      rfl
  | toolCall span =>
    obtain rfl := List.mem_singleton.mp hins
    cases span.status <;> rfl
  | retrieval span =>
    obtain rfl | hins := List.mem_cons.mp hins
    · rfl
    · obtain ⟨p, -, rfl⟩ := List.mem_map.mp hins
      rfl
  | _ =>
    obtain rfl := List.mem_singleton.mp hins
    rfl

theorem insertSpanBase_checks (traceId workspaceId : String) (index : ℕ) (span : Span) :
    (checks .traceSpans).all (·.holds (insertSpanBase traceId workspaceId index span).row) =
      true := by
  cases span <;> rfl

section Accepts
variable (t : Trace)

theorem inserts_checks : ∀ ins ∈ inserts t, (checks ins.table).all (·.holds ins.row) = true := by
  intro ins hins
  unfold inserts insertSpans insertGraderResults insertLinks at hins
  rw [List.mem_append, List.mem_append, List.mem_flatMap, List.mem_map, List.mem_map] at hins
  obtain (⟨p, -, hins⟩ | ⟨p, -, rfl⟩) | ⟨⟨⟨kind, target⟩, pos⟩, -, rfl⟩ := hins
  · obtain rfl | hins := List.mem_cons.mp hins
    · exact insertSpanBase_checks _ _ _ _
    · exact insertDetail_checks _ _ _ ins hins
  · rfl
  · cases kind <;> rfl

theorem pairwise_children {α : Type} {ins : Insert} {items : List α} {f : α × ℕ → Insert}
    {table : Table} {key : List Column} (child : Table) (hf : ∀ p, (f p).table = child)
    (hne : ins.table ≠ child) (hpos : ∀ p, (f p).row .position = .int p.2)
    (hkey : table = child → .position ∈ key) :
    (added table (ins :: items.zipIdx.map f)).Pairwise fun r r' => sameKey key r r' = false := by
  by_cases hchild : table = child
  · subst hchild
    rw [added_children hne hf]
    exact pairwise_positions (hkey rfl) hpos
  · have hnone : added table (items.zipIdx.map f) = [] := by
      refine Db.added_eq_nil fun ins' hins' heq => ?_
      obtain ⟨p, -, rfl⟩ := List.mem_map.mp hins'
      exact hchild (heq.symm.trans (hf p))
    rw [added_cons, hnone, List.append_nil]
    split_ifs
    · exact List.pairwise_singleton _ _
    · exact List.Pairwise.nil

theorem pairwise_detail (traceId workspaceId : String) (span : Span) {table : Table}
    {key : List Column} (hkey : key ∈ keys table) :
    (added table (insertDetail traceId workspaceId span)).Pairwise fun r r' =>
      sameKey key r r' = false := by
  have hsingle : ∀ ins :
    Insert, (added table [ins]).Pairwise fun r r' => sameKey key r r' = false := by
    intro ins
    rw [added_cons]
    split_ifs
    · exact List.pairwise_singleton _ _
    · exact List.Pairwise.nil
  cases span with
  | agentTurn span => exact List.Pairwise.nil
  | llmCall span =>
    refine pairwise_children .traceLlmToolRequests (fun _ => rfl) ?_ (fun _ => rfl) ?_
    · simp [insertLlmCall]
    · rintro rfl
      obtain rfl := List.mem_singleton.mp hkey
      simp
  | retrieval span =>
    refine pairwise_children .traceRetrievedDocs (fun _ => rfl) ?_ (fun _ => rfl) ?_
    · simp [insertRetrieval]
    · rintro rfl
      obtain rfl := List.mem_singleton.mp hkey
      simp
  | _ => exact hsingle _

variable {t} in
/-- **The rows of a valid trace clash in no key**, and pass every check. -/
theorem accepts_inserts (ht : t.Valid) {table : Table} (hne : table ≠ .traces) :
    schema.Accepts table (added table (inserts t)) := by
  refine ⟨fun row hrow => ?_, fun key hkey => ?_⟩
  · obtain ⟨ins, hins, rfl, rfl⟩ := mem_added.mp hrow
    exact inserts_checks t ins hins
  have hids : t.spans.zipIdx.Pairwise fun a b => a.1.id ≠ b.1.id := by
    have h := ht.spanIdsUnique
    rw [← List.zipIdx_map_fst 0 t.spans, List.map_map] at h
    exact List.pairwise_map.mp h
  by_cases hdetail : isDetail table = true
  · rw [added_detail t hdetail]
    refine List.pairwise_flatMap.mpr ⟨fun p _ => pairwise_detail _ _ _ hkey, ?_⟩
    refine hids.imp fun {p q} hpq r hr r' hr' => ?_
    obtain ⟨ins, hins, -, rfl⟩ := mem_added.mp hr
    obtain ⟨ins', hins', -, rfl⟩ := mem_added.mp hr'
    have hspan : .spanId ∈ key := by
      cases table <;> simp [isDetail] at hdetail <;> simp [schema, keys] at hkey <;> simp [hkey]
    refine sameKey_eq_false hspan ?_
    rw [(insertDetail_spec _ _ _ ins hins).2.2, (insertDetail_spec _ _ _ ins' hins').2.2,
      sqlEq_text]
    exact beq_false_of_ne hpq
  · cases table with
    | traceSpans =>
      rw [added_traceSpans]
      simp only [schema, keys, List.mem_cons, List.not_mem_nil, or_false] at hkey
      obtain rfl | rfl := hkey
      · refine List.pairwise_map.mpr (hids.imp fun {p q} hpq => ?_)
        exact sameKey_eq_false (c := .spanId) (by simp) (beq_false_of_ne hpq)
      · exact pairwise_positions (c := .spanIndex) (by simp) fun _ => rfl
    | traceGraderResults =>
      rw [added_traceGraderResults, insertGraderResults, List.map_map]
      obtain rfl := List.mem_singleton.mp hkey
      exact pairwise_positions (c := .resultIndex) (by simp) fun _ => rfl
    | traceLinks =>
      rw [added_traceLinks, insertLinks, List.map_map]
      obtain rfl := List.mem_singleton.mp hkey
      exact pairwise_positions (c := .position) (by simp) fun _ => rfl
    | traces => exact absurd rfl hne
    | _ => exact absurd rfl hdetail

variable {t} in
theorem newRow_checks (ht : t.Valid) : (checks .traces).all (·.holds (newRow t)) = true := by
  have hversion : Check.holds (cells t) (.atLeast .version 1) = true :=
    decide_eq_true (Int.ofNat_le.mpr ht.base.2.2)
  rw [newRow_eq_cells, checks, List.all_append, Bool.and_eq_true]
  refine ⟨rfl, ?_⟩
  have hsandbox : Check.holds (cells t)
      (.oneOf .envSandbox ["mock", "dry_run", "live_sandboxed", "live_canary"]) = true := by
    show List.contains _ (Coded.value t.environment.sandbox) = true
    cases t.environment.sandbox <;> rfl
  have hstatus : Check.holds (cells t)
      (.oneOf .finalStateStatus ["completed", "errored", "timeout", "aborted"]) = true := by
    show List.contains _ (Coded.value t.finalState.status) = true
    cases t.finalState.status <;> rfl
  simp only [List.all_cons, List.all_nil, hversion, hsandbox, hstatus, Bool.and_true]

end Accepts

/-! ### The store -/

/-- The rows a trace is kept in. -/
def layout : Layout Table Column Trace where
  main := .traces
  idColumn := .id
  owner := .traceId
  updateColumns := updateColumns
  newRow := newRow
  inserts := inserts
  idColumn_kept := by decide
  newRow_id t := by rw [newRow_eq_cells]; rfl
  updated_newRow _ _ hid := updated_newRow hid
  inserts_upsert _ _ := rfl
  owned t _ := hasText_inserts t

/-- The tables hold the traces of a store, all of them valid. -/
structure Kept (db : TraceDb) (store : Tables.Table Trace) : Prop where
  valid : ∀ t ∈ store.rows, t.Valid
  rows : Represents layout db store

theorem kept_empty : Kept Db.empty Tables.Table.empty :=
  ⟨by simp [Tables.Table.empty], represents_empty layout⟩

section Store
variable {db : TraceDb} {store : Tables.Table Trace}

open Tables.Table (find?_eq_some)

theorem exists_insert (h : layout.Facts db store) {traceId : String} {table : Table}
    (hne : table ≠ .traces) {row : Row} (hrow : row ∈ db.rows table)
    (htext : hasText .traceId traceId row = true) :
    ∃ t, store.find? traceId = some t ∧ row ∈ added table (inserts t) :=
  Layout.Facts.exists_insert h hne hrow htext

theorem filter_of_stored (h : layout.Facts db store) {t : Trace}
    (hstored : store.find? t.id = some t) {table : Table} (hne : table ≠ .traces) :
    (db.rows table).filter (hasText .traceId t.id) = added table (inserts t) :=
  Layout.Facts.of_stored h hstored hne

/-- **What is loaded** is what the store has under the id, in the workspace. -/
theorem load_kept (h : Kept db store) (workspaceId traceId : String) :
    load db workspaceId traceId =
      .ok ((store.find? traceId).filter fun t => t.workspaceId = workspaceId) := by
  have hfind : ((db.rows .traces).find? fun row =>
      hasText .id traceId row && hasText .workspaceId workspaceId row) =
      ((store.find? traceId).map newRow).filter (hasText .workspaceId workspaceId) :=
    h.rows.find?_main traceId _
  unfold load
  rw [hfind]
  cases hstored : store.find? traceId with
  | none => rfl
  | some t =>
    obtain ⟨hmem, rfl⟩ := find?_eq_some.mp hstored
    have hws : hasText .workspaceId workspaceId (newRow t) =
      decide (t.workspaceId = workspaceId) := by
      rw [newRow_eq_cells]
      rfl
    have hbuild :=
      buildTrace_written (h.valid t hmem) fun _ hne => filter_of_stored h.rows.facts hstored hne
    by_cases hsame : t.workspaceId = workspaceId
    · simp [hws, hsame, hbuild, Option.filter]
    · simp [hws, hsame, Option.filter]

theorem cascades_eq {gone rows : List Row} {traceId : String}
    (hgone : ∀ g ∈ gone, hasText .traceId traceId g = true)
    (hfall : ∀ row ∈ rows, hasText .traceId traceId row = true →
      ∃ g ∈ gone, row .spanId = g .spanId ∧ ∃ s, g .spanId = .text s) :
    ∀ row ∈ rows, cascades gone row = hasText .traceId traceId row := by
  intro row hrow
  rw [Bool.eq_iff_iff]
  constructor
  · intro hcascades
    obtain ⟨g, hg, hkey⟩ := List.any_eq_true.mp hcascades
    have htrace : sqlEq (row .traceId) (g .traceId) = true :=
      List.all_eq_true.mp hkey .traceId (by simp)
    rwa [hasText_iff.mp (hgone g hg)] at htrace
  · intro htext
    obtain ⟨g, hg, hspan, s, hs⟩ := hfall row hrow htext
    refine List.any_eq_true.mpr ⟨g, hg, ?_⟩
    simp [sameKey, hasText_iff.mp htext, hasText_iff.mp (hgone g hg), hspan, hs]

theorem exists_parent (traceId workspaceId : String) (span : Span) {ins : Insert}
    (hins : ins ∈ insertDetail traceId workspaceId span) :
    (ins.table = .traceLlmToolRequests →
      ∃ parent ∈ insertDetail traceId workspaceId span, parent.table = .traceLlmCalls) ∧
    (ins.table = .traceRetrievedDocs →
      ∃ parent ∈ insertDetail traceId workspaceId span, parent.table = .traceRetrievalSpans) := by
  cases span with
  | agentTurn span => simp [insertDetail] at hins
  | llmCall span =>
    refine ⟨fun _ => ⟨_, List.mem_cons_self, rfl⟩, fun htable => ?_⟩
    obtain rfl | hins := List.mem_cons.mp hins
    · simp [insertLlmCall] at htable
    · obtain ⟨p, -, rfl⟩ := List.mem_map.mp hins
      simp at htable
  | retrieval span =>
    refine ⟨fun htable => ?_, fun _ => ⟨_, List.mem_cons_self, rfl⟩⟩
    obtain rfl | hins := List.mem_cons.mp hins
    · simp [insertRetrieval] at htable
    · obtain ⟨p, -, rfl⟩ := List.mem_map.mp hins
      simp at htable
  | _ =>
    obtain rfl := List.mem_singleton.mp hins
    exact ⟨fun htable => by simp at htable, fun htable => by simp at htable⟩

theorem cascades_spans (h : layout.Facts db store) (traceId : String) {table : Table}
    (hdetail : isDetail table = true) :
    ∀ row ∈ db.rows table, cascades ((db.rows .traceSpans).filter (hasText .traceId traceId)) row =
      hasText .traceId traceId row := by
  have hne : table ≠ .traces := by
    rintro rfl
    simp [isDetail] at hdetail
  refine cascades_eq (fun g hg => (List.mem_filter.mp hg).2) fun row hrow htext => ?_
  obtain ⟨t, hstored, hadded⟩ := exists_insert h hne hrow htext
  obtain rfl : traceId = t.id := id_of_stored hstored
  rw [added_detail t hdetail] at hadded
  obtain ⟨p, hp, hadded⟩ := List.mem_flatMap.mp hadded
  obtain ⟨ins, hins, -, rfl⟩ := mem_added.mp hadded
  refine ⟨(insertSpanBase t.id t.workspaceId p.2 p.1).row, ?_,
    (insertDetail_spec _ _ _ ins hins).2.2, p.1.id, rfl⟩
  rw [filter_of_stored h hstored (by simp), added_traceSpans]
  exact List.mem_map_of_mem hp

theorem cascades_children (h : layout.Facts db store) (traceId : String) (table child : Table)
    (hdetail : isDetail table = true) (hchild : isDetail child = true)
    (hparent : ∀ (traceId workspaceId : String) (span : Span),
      ∀ ins ∈ insertDetail traceId workspaceId span, ins.table = child →
        ∃ parent ∈ insertDetail traceId workspaceId span, parent.table = table) :
    ∀ row ∈ db.rows child,
      cascades ((db.rows table).filter
        (cascades ((db.rows .traceSpans).filter (hasText .traceId traceId)))) row =
      hasText .traceId traceId row := by
  have hne : ∀ table, isDetail table = true → table ≠ .traces := by
    rintro table htable rfl
    simp [isDetail] at htable
  rw [List.filter_congr (cascades_spans h traceId hdetail)]
  refine cascades_eq (fun g hg => (List.mem_filter.mp hg).2) fun row hrow htext => ?_
  obtain ⟨t, hstored, hadded⟩ := exists_insert h (hne child hchild) hrow htext
  obtain rfl : traceId = t.id := id_of_stored hstored
  rw [added_detail t hchild] at hadded
  obtain ⟨p, hp, hadded⟩ := List.mem_flatMap.mp hadded
  obtain ⟨ins, hins, htable, rfl⟩ := mem_added.mp hadded
  obtain ⟨parent, hmem, hptable⟩ := hparent _ _ _ ins hins htable
  have hspan := (insertDetail_spec _ _ _ parent hmem).2.2
  refine ⟨parent.row, ?_, (insertDetail_spec _ _ _ ins hins).2.2.trans hspan.symm, p.1.id, hspan⟩
  rw [filter_of_stored h hstored (hne table hdetail), added_detail t hdetail]
  exact List.mem_flatMap.mpr ⟨p, hp, mem_added.mpr ⟨parent, hmem, hptable, rfl⟩⟩

/-- **A deletion of the spans of a trace takes all their rows**, and no row of another trace. -/
theorem deleteSpans_rows (h : layout.Facts db store) (traceId : String) (table : Table) :
    (deleteSpans db traceId).rows table =
      if table = .traceSpans ∨ isDetail table = true then
        (db.rows table).filter fun row => !hasText .traceId traceId row
      else db.rows table := by
  have hdetail : ∀ table, isDetail table = true →
      (db.rows table).filter
        (fun row => !cascades ((db.rows .traceSpans).filter (hasText .traceId traceId)) row) =
      (db.rows table).filter fun row => !hasText .traceId traceId row := fun table htable =>
    List.filter_congr fun row hrow => by rw [cascades_spans h traceId htable row hrow]
  cases table with
  | traces => exact List.filter_true _
  | traceGraderResults => exact List.filter_true _
  | traceLinks => exact List.filter_true _
  | traceSpans => rfl
  | traceLlmToolRequests =>
    refine List.filter_congr fun row hrow => congrArg (!·) ?_
    exact cascades_children h traceId .traceLlmCalls .traceLlmToolRequests rfl rfl
      (fun _ _ _ ins hins => (exists_parent _ _ _ hins).1) row hrow
  | traceRetrievedDocs =>
    refine List.filter_congr fun row hrow => congrArg (!·) ?_
    exact cascades_children h traceId .traceRetrievalSpans .traceRetrievedDocs rfl rfl
      (fun _ _ _ ins hins => (exists_parent _ _ _ hins).2) row hrow
  | _ => exact hdetail _ rfl

theorem traceId_mem_keys {table : Table} (hne : table ≠ .traces) :
    ∀ key ∈ schema.keys table, .traceId ∈ key := by
  cases table <;> first | exact absurd rfl hne | decide

theorem accepts_part {t : Trace} (ht : t.Valid) {part : List Insert} {table : Table}
    (hne : table ≠ .traces) (hpart : added table part = added table (inserts t)) :
    schema.Accepts table (added table part) ∧ (∀ key ∈ schema.keys table, .traceId ∈ key) ∧
      ∀ row ∈ added table part, hasText .traceId t.id row = true := by
  rw [hpart]
  exact ⟨accepts_inserts ht hne, traceId_mem_keys hne, hasText_inserts t⟩

theorem upsert_valid {t : Trace} (ht : t.Valid) :
    (Entity.upsert (store.find? t.id) t).Valid := by
  cases store.find? t.id with
  | none => exact ht
  | some old => exact ht.withCreatedAt _

/-- **What `upsert` leaves** of a valid trace; no key and no check refuses it. -/
theorem upsert_rows (h : Represents layout db store) {t : Trace} (ht : t.Valid) :
    ∃ db', upsert db t = .ok db' ∧
      db'.rows .traces = Db.upsertRows .id updateColumns (db.rows .traces) (newRow t) ∧
      ∀ table, table ≠ .traces → db'.rows table =
        (db.rows table).filter (fun row => !hasText .traceId t.id row) ++
          added table (inserts t) := by
  have hacc : schema.Accepts .traces
      (Db.upsertRows .id updateColumns (db.rows .traces) (newRow t)) := by
    refine (h.accepts_upsert_iff t).mpr ⟨newRow_checks (upsert_valid ht),
      fun key hkey old _ hne => ?_⟩
    obtain rfl := List.mem_singleton.mp hkey
    exact layout.sameKey_id (List.mem_singleton_self _) (by rwa [Tables.base_upsert_id])
  obtain ⟨db₁, hdb₁, hrows₁⟩ := Db.setRows_of_accepts db hacc
  have hkept : ∀ table, table ≠ .traces → db₁.rows table = db.rows table := fun table hne => by
    rw [hrows₁, Function.update_of_ne hne]
  have hfacts : layout.Facts db₁ store := fun id table hne => by
    rw [hkept table hne]
    exact h.facts id table hne
  have hcleared : Progress .traces .traceId t.id db (deleteSpans db₁ t.id)
      (fun table => table = .traceSpans ∨ isDetail table = true) [] := by
    intro table hne
    rw [deleteSpans_rows hfacts, hkept table hne]
    exact (List.append_nil _).symm
  obtain ⟨db₂, hdb₂, htraces₂, hprogress₂⟩ := hcleared.insert (insertSpans t)
    fun table hnil => by
      have htable := not_not.mp fun hnot => hnil (added_insertSpans_nil t hnot)
      have hne : table ≠ .traces := by
        rintro rfl
        simp [isDetail] at htable
      exact ⟨hne, htable, rfl, accepts_part ht hne (added_of_span t htable).symm⟩
  have hgone := (hprogress₂.clear .traceGraderResults
    (added_insertSpans_nil t (by simp [isDetail])) (by simp [isDetail])).clear
      .traceLinks (added_insertSpans_nil t (by simp [isDetail])) (by simp [isDetail])
  obtain ⟨db₃, hdb₃, htraces₃, hprogress₃⟩ := hgone.insert (insertGraderResults t)
    fun table hnil => by
      obtain rfl := not_not.mp fun hnot => hnil (added_insertGraderResults_nil t hnot)
      refine ⟨by simp, by simp, added_insertSpans_nil t (by simp [isDetail]),
        accepts_part ht (by simp) ?_⟩
      rw [added_traceGraderResults, Db.added_eq_map (insertGraderResults_table t)]
  obtain ⟨db₄, hdb₄, htraces₄, hprogress₄⟩ := hprogress₃.insert (insertLinks t)
    fun table hnil => by
      obtain rfl := not_not.mp fun hnot => hnil (added_insertLinks_nil t hnot)
      refine ⟨by simp, by simp, ?_, accepts_part ht (by simp) ?_⟩
      · rw [List.nil_append, added_append, added_insertSpans_nil t (by simp [isDetail]),
          added_insertGraderResults_nil t (by simp), List.append_nil]
      · rw [added_traceLinks, Db.added_eq_map (insertLinks_table t)]
  refine ⟨db₄, ?_, ?_, fun table hne => ?_⟩
  · unfold upsert
    rw [hdb₁]
    show (deleteSpans db₁ t.id).insertAll (insertSpans t) >>= (fun db => writeTraceFacts db t) = _
    rw [hdb₂]
    show (Db.insertAll _ (insertGraderResults t) >>= fun db => db.insertAll (insertLinks t)) = _
    rw [hdb₃]
    exact hdb₄
  · have hdelete : ∀ table, table ≠ .traces →
        (db₂.deleteWhere table (hasText .traceId t.id)).rows .traces = db₂.rows .traces :=
          fun table hne => by
      rw [Db.rows_deleteWhere, if_neg (Ne.symm hne)]
    rw [htraces₄, htraces₃, Db.rows_deleteWhere, if_neg (by simp), hdelete _ (by simp), htraces₂,
      deleteSpans_rows hfacts, if_neg (by simp [isDetail]), hrows₁, Function.update_self]
  · rw [hprogress₄ table hne, if_pos]
    · rfl
    · cases table <;> simp [isDetail] at hne ⊢

/-- **A write to the tables is a write to the store**: the trace is kept under its id, with the
creation time of the first insert, and nothing else changes. -/
theorem upsert_kept (h : Kept db store) {t : Trace} (ht : t.Valid) :
    ∃ db', upsert db t = .ok db' ∧ Kept db' (store.set (Entity.upsert (store.find? t.id) t)) := by
  obtain ⟨db', hdb', htraces, hfacts⟩ := upsert_rows h.rows ht
  refine ⟨db', hdb', fun t' ht' => ?_, h.rows.write htraces hfacts⟩
  obtain rfl | ⟨hmem, -⟩ := Tables.Table.mem_setRows.mp ht'
  · exact upsert_valid ht
  · exact h.valid t' hmem

end Store

end Selfevals.Storage.TraceRoundTrip
