import Mathlib.Data.Prod.Lex
import Mathlib.Data.String.Basic
import Selfevals.Lib.SqlJoin
import Selfevals.Schemas.TraceRecords
import Selfevals.Storage.Tables

/-!
# Metrics over the trace tables

`tool_metrics` and `latency_metrics`. The mapper writes a row of `trace_spans` for every span, and
one of `trace_tool_calls` for every tool call; the queries join a tool call with the spans of its
span id, and then with its trace, which they select by workspace, experiment and window.

* `countP_toolJoin`: each selected tool call comes as often as its span id is used, by any trace.
-/

namespace Selfevals.Storage.TraceMetrics

open Lib.Sql Schemas.Base Schemas.Enums Schemas.TraceRecords Storage.Tables

/-! ### The tables -/

/-- A row of `trace_spans`. -/
structure SpanRow where
  spanId : String
  traceId : String
  durationMs : ℕ
deriving DecidableEq, Repr

/-- A row of `trace_tool_calls`. -/
structure ToolCallRow where
  spanId : String
  traceId : String
  call : ToolCallSpan
deriving Repr

/-- What the tool rollup groups by. -/
def ToolCallRow.key (tc : ToolCallRow) :
    String × ToolCallStatus := (tc.call.toolName, tc.call.status)

/-- The rows of `trace_spans` of a trace. -/
def spanRowsOf (t : ValidTrace) : List SpanRow := t.spans.map fun sp => ⟨sp.id, t.id, sp.base.durationMs⟩

/-- The rows of `trace_tool_calls` of a trace. -/
def toolCallRowsOf (t : ValidTrace) : List ToolCallRow :=
  t.spans.filterMap fun sp => sp.toolCall?.map fun call => ⟨sp.id, t.id, call⟩

section Tables
variable (traces : List ValidTrace)

def spanRows : List SpanRow := traces.flatMap spanRowsOf

def toolCallRows : List ToolCallRow := traces.flatMap toolCallRowsOf

end Tables

/-! ### The queries -/

/-- What the rollups take: the traces of a workspace, of an experiment, in a window. -/
structure TraceFilter where
  workspaceId : String
  start : Option Time := none
  stop : Option Time := none
  experimentId : Option String := none

/-- `_trace_clauses`. -/
def TraceFilter.selects (f : TraceFilter) (t : ValidTrace) : Bool :=
  t.workspaceId == f.workspaceId && f.experimentId.all (fun e => t.run.experimentId == some e) &&
    f.start.all (fun start => start ≤ t.environment.startedAt) && f.stop.all (fun stop => t.environment.startedAt ≤ stop)

/-- `FROM trace_tool_calls tc JOIN trace_spans sp ON sp.span_id = tc.span_id JOIN traces t ON
t.id = tc.trace_id WHERE …`. -/
def toolJoin (traces : List ValidTrace) (f : TraceFilter) (toolName : Option String) :
    List (ToolCallRow × SpanRow) :=
  let calls := join (fun tc sp => sp.spanId == tc.spanId) (toolCallRows traces) (spanRows traces)
  let joined := join (fun (pair : ToolCallRow × SpanRow) t => t.id == pair.1.traceId) calls traces
  (joined.filter fun row =>
    f.selects row.2 && toolName.all (· == row.1.1.call.toolName)).map Prod.fst

/-- A row of the tool rollup. -/
structure ToolMetric where
  toolName : String
  status : ToolCallStatus
  count : ℕ
  errorCount : ℕ
  avgDurationMs : Option ℚ
  retryCount : ℕ
deriving DecidableEq, Repr

/-- What is selected of a group. -/
def toolMetric (group : (String × ToolCallStatus) × List (ToolCallRow × SpanRow)) :
    ToolMetric where
  toolName := group.1.1
  status := group.1.2
  count := group.2.length
  errorCount := group.2.countP fun row => row.1.call.status ≠ .ok || row.1.call.error.isSome
  avgDurationMs := avg (group.2.map fun row => row.2.durationMs)
  retryCount := (group.2.map fun row => row.1.call.retryChain.length).sum

/-- `tool_metrics`. -/
def toolMetrics (traces : List ValidTrace) (f : TraceFilter) (toolName : Option String) :
    List ToolMetric :=
  orderBy (fun m => toLex (OrderDual.toDual m.count, toLex (m.toolName, Coded.value m.status)))
    ((groupBy (fun row => row.1.key) (toolJoin traces f toolName)).map toolMetric)

/-- A row of the latency rollup. -/
structure LatencyMetric where
  metric : String
  count : ℕ
  p50Ms : Option ℚ
  p95Ms : Option ℚ
  p99Ms : Option ℚ
deriving DecidableEq, Repr

/-- `_append_latency`: a metric with nothing counted is left out. -/
def latencyOf (metric : String) (values : List ℕ) : List LatencyMetric :=
  if values.length ≤ 0 then []
  else [⟨metric, values.length, percentileCont (50 / 100) values, percentileCont (95 / 100) values,
    percentileCont (99 / 100) values⟩]

/-- The tool latency of `latency_metrics`. -/
def toolLatency (traces : List ValidTrace) (f : TraceFilter) : List LatencyMetric :=
  latencyOf "tool_duration_ms" ((toolJoin traces f none).map fun row => row.2.durationMs)

/-! ### The join, tool call by tool call -/

/-- The rows of `trace_tool_calls` of the selected traces. -/
def selectedCalls (traces : List ValidTrace) (f : TraceFilter) (toolName : Option String) :
    List ToolCallRow :=
  (toolCallRows (traces.filter f.selects)).filter fun tc =>
    toolName.all (· == tc.call.toolName)

/-- How many spans, of any trace, have an id. -/
def spanCount (traces : List ValidTrace) (spanId : String) : ℕ :=
  (spanRows traces).countP fun sp => sp.spanId == spanId

theorem traceId_of_mem {t : ValidTrace} {tc : ToolCallRow} (h : tc ∈ toolCallRowsOf t) :
    tc.traceId = t.id := by
  obtain ⟨sp, -, hcall⟩ := List.mem_filterMap.mp h
  obtain ⟨call, -, rfl⟩ := Option.map_eq_some_iff.mp hcall
  rfl

theorem countP_own_trace {traces : List ValidTrace} (hnodup : (traces.map (·.id)).Nodup) {t : ValidTrace}
    (ht : t ∈ traces) (p : ValidTrace → Bool) :
    (traces.countP fun t' => t'.id == t.id && p t') = if p t then 1 else 0 := by
  induction traces with
  | nil => cases ht
  | cons t₀ ts ih =>
    obtain ⟨hnew, hnodup⟩ := List.nodup_cons.mp hnodup
    rw [List.countP_cons]
    obtain rfl | ht := List.mem_cons.mp ht
    · have hrest : (ts.countP fun t' => t'.id == t.id && p t') = 0 := by
        refine List.countP_eq_zero.mpr fun t' ht' hp => hnew (List.mem_map.mpr ⟨t', ht', ?_⟩)
        simpa using (Bool.and_eq_true_iff.mp hp).1
      rw [hrest]
      simp
    · have hne : (t₀.id == t.id) = false := by
        simpa using fun heq : t₀.id = t.id => hnew (List.mem_map.mpr ⟨t, ht, heq.symm⟩)
      rw [ih hnodup ht, hne]
      simp

/-- **The join, tool call by tool call**: each that is selected, with all the spans of its id. -/
theorem toolJoin_eq {traces : List ValidTrace} (hnodup : (traces.map (·.id)).Nodup) (f : TraceFilter)
    (toolName : Option String) :
    toolJoin traces f toolName = join (fun tc sp => sp.spanId == tc.spanId)
      (selectedCalls traces f toolName) (spanRows traces) := by
  -- the tool call is of a selected trace, of the tool asked for
  let wanted : ToolCallRow → ValidTrace → Bool := fun tc t =>
    f.selects t && toolName.all (· == tc.call.toolName)
  let p : ToolCallRow → Bool := fun tc => traces.any fun t => t.id == tc.traceId && wanted tc t
  have hone : ∀ t ∈ traces, ∀ tc ∈ toolCallRowsOf t,
      (traces.countP fun t' => t'.id == tc.traceId && wanted tc t') =
        if wanted tc t then 1 else 0 := by
    intro t ht tc htc
    rw [traceId_of_mem htc]
    exact countP_own_trace hnodup ht (wanted tc)
  have hp : ∀ t ∈ traces, ∀ tc ∈ toolCallRowsOf t, p tc = wanted tc t := by
    intro t ht tc htc
    have hpos := List.countP_pos_iff (l := traces)
      (p := fun t' => t'.id == tc.traceId && wanted tc t')
    rw [hone t ht tc htc] at hpos
    rw [Bool.eq_iff_iff, List.any_eq_true, ← hpos]
    cases wanted tc t <;> simp
  have hfilter : (toolCallRows traces).filter p = selectedCalls traces f toolName := by
    unfold selectedCalls toolCallRows
    rw [List.filter_flatMap, List.filter_flatMap, flatMap_filter_left]
    refine List.flatMap_congr fun t ht => ?_
    rw [List.filter_congr (hp t ht)]
    by_cases hs : f.selects t = true
    · rw [if_pos hs]
      exact List.filter_congr fun tc _ => by simp [wanted, hs]
    · rw [if_neg hs]
      exact List.filter_eq_nil_iff.mpr fun tc _ => by simp [wanted, hs]
  rw [← hfilter, ← filter_join]
  refine map_fst_filter_join (p := fun pair : ToolCallRow × SpanRow => p pair.1) fun pair hpair =>
    ?_
  obtain ⟨t, ht, htc⟩ := List.mem_flatMap.mp (mem_join.mp hpair).1
  rw [hp t ht _ htc]
  exact hone t ht _ htc

theorem countP_toolJoin {traces : List ValidTrace} (hnodup : (traces.map (·.id)).Nodup)
    (f : TraceFilter) (toolName : Option String) (p : ToolCallRow → Bool) :
    (toolJoin traces f toolName).countP (fun row => p row.1) =
      (((selectedCalls traces f toolName).filter p).map fun tc =>
        spanCount traces tc.spanId).sum := by
  rw [toolJoin_eq hnodup, countP_join]
  rfl

/-! ### Spans that are counted once -/

theorem spanCount_append (traces added : List ValidTrace) (spanId : String) :
    spanCount (traces ++ added) spanId = spanCount traces spanId + spanCount added spanId := by
  unfold spanCount spanRows
  rw [List.flatMap_append, List.countP_append]

theorem spanCount_eq (traces : List ValidTrace) (spanId : String) :
    spanCount traces spanId = traces.countP fun t => t.HasSpan spanId := by
  induction traces with
  | nil => rfl
  | cons t ts ih =>
    have hone : (spanRowsOf t).countP (fun sp => sp.spanId == spanId) =
        if t.HasSpan spanId then 1 else 0 := by
      have hcount : (spanRowsOf t).countP (fun sp => sp.spanId == spanId) =
          (t.spans.map (·.id)).count spanId := by
        unfold spanRowsOf
        rw [List.count, List.countP_map, List.countP_map]
        rfl
      rw [hcount]
      split_ifs with h
      · exact List.count_eq_one_of_mem t.valid.spanIdsUnique h
      · exact List.count_eq_zero_of_not_mem h
    show spanCount ([t] ++ ts) spanId = _
    rw [spanCount_append, ih, List.countP_cons, Nat.add_comm]
    congr 1
    unfold spanCount spanRows
    rw [List.flatMap_singleton, hone]
    simp

theorem spanCount_eq_zero {traces : List ValidTrace} {spanId : String} :
    spanCount traces spanId = 0 ↔ ∀ t ∈ traces, ¬ t.HasSpan spanId := by
  rw [spanCount_eq, List.countP_eq_zero]
  simp

theorem exists_trace_of_mem {traces : List ValidTrace} {tc : ToolCallRow}
    (h : tc ∈ toolCallRows traces) : ∃ t ∈ traces, t.id = tc.traceId ∧ t.HasSpan tc.spanId := by
  obtain ⟨t, ht, htc⟩ := List.mem_flatMap.mp h
  refine ⟨t, ht, (traceId_of_mem htc).symm, ?_⟩
  obtain ⟨sp, hsp, hcall⟩ := List.mem_filterMap.mp htc
  obtain ⟨call, -, rfl⟩ := Option.map_eq_some_iff.mp hcall
  exact List.mem_map_of_mem hsp

theorem toolCallRows_of_selectedCalls {traces : List ValidTrace} {f : TraceFilter}
    {toolName : Option String} {tc : ToolCallRow} (h : tc ∈ selectedCalls traces f toolName) :
    tc ∈ toolCallRows traces := by
  obtain ⟨t, ht, htc⟩ := List.mem_flatMap.mp (List.mem_filter.mp h).1
  exact List.mem_flatMap.mpr ⟨t, (List.mem_filter.mp ht).1, htc⟩

theorem one_le_spanCount {traces : List ValidTrace} {tc : ToolCallRow}
    (h : tc ∈ toolCallRows traces) : 1 ≤ spanCount traces tc.spanId := by
  obtain ⟨t, ht, -, hspan⟩ := exists_trace_of_mem h
  rw [spanCount_eq]
  exact List.countP_pos_iff.mpr ⟨t, ht, by simpa using hspan⟩

theorem spanCount_eq_one_iff {traces : List ValidTrace} (hnodup : (traces.map (·.id)).Nodup)
    {tc : ToolCallRow} (h : tc ∈ toolCallRows traces) :
    spanCount traces tc.spanId = 1 ↔ ∀ t ∈ traces, t.HasSpan tc.spanId → t.id = tc.traceId := by
  obtain ⟨own, hown, hid, hspan⟩ := exists_trace_of_mem h
  have hone : (traces.countP fun t => t.id == own.id && decide (t.HasSpan tc.spanId)) = 1 := by
    rw [countP_own_trace hnodup hown fun t => decide (t.HasSpan tc.spanId), if_pos]
    simpa using hspan
  rw [spanCount_eq, ← hid]
  constructor
  · intro heq t ht hts
    -- the own trace is one of those with the id, so there is no second
    have hall := (List.countP_eq_length_filter ..).symm.trans heq
    obtain ⟨only, honly⟩ := List.length_eq_one_iff.mp hall
    have hmem : ∀ t ∈ traces, t.HasSpan tc.spanId → t = only := fun t ht hts => by
      have : t ∈ traces.filter fun t => decide (t.HasSpan tc.spanId) :=
        List.mem_filter.mpr ⟨ht, by simpa using hts⟩
      rw [honly] at this
      exact List.mem_singleton.mp this
    rw [hmem t ht hts, hmem own hown hspan]
  · intro hall
    rw [← hone]
    refine List.countP_congr fun t ht => ?_
    simpa using fun hts => hall t ht hts

/-! ### What the tool rollup reports -/

/-- What the tool rollup reports for a tool and a status. -/
def reportedCount (metrics : List ToolMetric) (tool : String) (status : ToolCallStatus) : ℕ :=
  ((metrics.filter fun m => (m.toolName, m.status) = (tool, status)).map (·.count)).sum

/-- The tool-call spans of the selected traces, of a tool and a status. -/
def toolCallSpans (traces : List ValidTrace) (f : TraceFilter) (toolName : Option String)
    (tool : String) (status : ToolCallStatus) : List Span :=
  ((traces.filter f.selects).flatMap (·.spans)).filter fun sp =>
    sp.toolCall?.any fun call =>
      toolName.all (· == call.toolName) && decide ((call.toolName, call.status) = (tool, status))

theorem length_toolCallSpans (traces : List ValidTrace) (f : TraceFilter) (toolName : Option String)
    (tool : String) (status : ToolCallStatus) :
    (toolCallSpans traces f toolName tool status).length =
      ((selectedCalls traces f toolName).filter fun tc => tc.key = (tool, status)).length := by
  unfold toolCallSpans selectedCalls toolCallRows
  rw [List.filter_filter, ← List.countP_eq_length_filter, ← List.countP_eq_length_filter,
    List.countP_flatMap, List.countP_flatMap]
  congr 1
  refine List.map_congr_left fun t _ => ?_
  show _ = (toolCallRowsOf t).countP _
  unfold toolCallRowsOf
  rw [List.countP_filterMap]
  refine List.countP_congr fun sp _ => ?_
  cases sp.toolCall? <;> simp [ToolCallRow.key, and_comm]

section Rollup
variable (traces : List ValidTrace) (f : TraceFilter) (toolName : Option String)

theorem toolMetrics_perm : List.Perm (toolMetrics traces f toolName)
    ((groupBy (fun row : ToolCallRow × SpanRow => row.1.key) (toolJoin traces f toolName)).map
      toolMetric) :=
  orderBy_perm _ _

theorem reportedCount_toolMetrics (tool : String) (status : ToolCallStatus) :
    reportedCount (toolMetrics traces f toolName) tool status =
      (toolJoin traces f toolName).countP fun row => row.1.key = (tool, status) := by
  unfold reportedCount
  rw [(((toolMetrics_perm traces f toolName).filter _).map _).sum_eq, List.filter_map, List.map_map,
    ← sum_groupBy_filter]
  rfl

theorem sum_counts_toolMetrics :
    ((toolMetrics traces f toolName).map (·.count)).sum = (toolJoin traces f toolName).length := by
  rw [((toolMetrics_perm traces f toolName).map _).sum_eq, List.map_map]
  exact sum_groupBy (fun row : ToolCallRow × SpanRow => row.1.key) _

end Rollup

theorem reportedCount_eq_iff {traces : List ValidTrace} (hnodup : (traces.map (·.id)).Nodup)
    (f : TraceFilter) (toolName : Option String) :
    (∀ tool status, reportedCount (toolMetrics traces f toolName) tool status =
      (toolCallSpans traces f toolName tool status).length) ↔
    ∀ tc ∈ selectedCalls traces f toolName, spanCount traces tc.spanId = 1 := by
  have hkey : ∀ tool status, reportedCount (toolMetrics traces f toolName) tool status =
        (toolCallSpans traces f toolName tool status).length ↔
      ∀ tc ∈ selectedCalls traces f toolName, tc.key = (tool, status) →
        spanCount traces tc.spanId = 1 := by
    intro tool status
    rw [reportedCount_toolMetrics, countP_toolJoin hnodup f toolName fun tc =>
      decide (tc.key = (tool, status)), length_toolCallSpans]
    have hpos : ∀ n ∈ ((selectedCalls traces f toolName).filter fun tc =>
        tc.key = (tool, status)).map fun tc => spanCount traces tc.spanId, 1 ≤ n := by
      intro n hn
      obtain ⟨tc, htc, rfl⟩ := List.mem_map.mp hn
      exact one_le_spanCount (toolCallRows_of_selectedCalls (List.mem_filter.mp htc).1)
    have hsum := sum_eq_length_iff hpos
    rw [List.length_map] at hsum
    rw [hsum, List.forall_mem_map]
    simp
  constructor
  · exact fun h tc htc => (hkey tc.key.1 tc.key.2).mp (h _ _) tc htc rfl
  · exact fun h tool status => (hkey tool status).mpr fun tc htc _ => h tc htc

/-! ### Traces of another workspace -/

section Added
variable {traces added : List ValidTrace} {f : TraceFilter} (toolName : Option String)

theorem selectedCalls_append (hother : ∀ t ∈ added, t.workspaceId ≠ f.workspaceId) :
    selectedCalls (traces ++ added) f toolName = selectedCalls traces f toolName := by
  have hnone : added.filter f.selects = [] := by
    refine List.filter_eq_nil_iff.mpr fun t ht hs => hother t ht ?_
    unfold TraceFilter.selects at hs
    simp only [Bool.and_eq_true, beq_iff_eq] at hs
    exact hs.1.1.1
  unfold selectedCalls
  rw [List.filter_append, hnone, List.append_nil]

/-- What traces of another workspace add to the join: their spans of the ids of selected tool calls.
-/
theorem length_toolJoin_append (hnodup : ((traces ++ added).map (·.id)).Nodup)
    (hother : ∀ t ∈ added, t.workspaceId ≠ f.workspaceId) :
    (toolJoin (traces ++ added) f toolName).length = (toolJoin traces f toolName).length +
      ((selectedCalls traces f toolName).map fun tc => spanCount added tc.spanId).sum := by
  have hnodup' : (traces.map (·.id)).Nodup :=
    hnodup.sublist ((List.sublist_append_left traces added).map _)
  rw [toolJoin_eq hnodup, toolJoin_eq hnodup', selectedCalls_append toolName hother, length_join,
    length_join, ← List.sum_map_add]
  congr 1
  exact List.map_congr_left fun tc _ => spanCount_append traces added tc.spanId

theorem toolJoin_append (hnodup : ((traces ++ added).map (·.id)).Nodup)
    (hother : ∀ t ∈ added, t.workspaceId ≠ f.workspaceId)
    (happart : ∀ tc ∈ selectedCalls traces f toolName, ∀ t ∈ added, ¬ t.HasSpan tc.spanId) :
    toolJoin (traces ++ added) f toolName = toolJoin traces f toolName := by
  have hnodup' : (traces.map (·.id)).Nodup :=
    hnodup.sublist ((List.sublist_append_left traces added).map _)
  rw [toolJoin_eq hnodup, toolJoin_eq hnodup', selectedCalls_append toolName hother]
  unfold spanRows
  rw [List.flatMap_append]
  exact join_append_right fun tc htc => spanCount_eq_zero.mpr (happart tc htc)

theorem apart_of_length_eq (hnodup : ((traces ++ added).map (·.id)).Nodup)
    (hother : ∀ t ∈ added, t.workspaceId ≠ f.workspaceId)
    (hlength : (toolJoin (traces ++ added) f toolName).length =
      (toolJoin traces f toolName).length) :
    ∀ tc ∈ selectedCalls traces f toolName, ∀ t ∈ added, ¬ t.HasSpan tc.spanId := by
  intro tc htc
  rw [length_toolJoin_append toolName hnodup hother, Nat.add_eq_left,
    List.sum_eq_zero_iff] at hlength
  exact spanCount_eq_zero.mp (hlength _ (List.mem_map_of_mem htc))

theorem toolMetrics_append_iff (hnodup : ((traces ++ added).map (·.id)).Nodup)
    (hother : ∀ t ∈ added, t.workspaceId ≠ f.workspaceId) :
    toolMetrics (traces ++ added) f toolName = toolMetrics traces f toolName ↔
      ∀ tc ∈ selectedCalls traces f toolName, ∀ t ∈ added, ¬ t.HasSpan tc.spanId := by
  constructor
  · intro h
    refine apart_of_length_eq toolName hnodup hother ?_
    rw [← sum_counts_toolMetrics, ← sum_counts_toolMetrics, h]
  · intro happart
    unfold toolMetrics
    rw [toolJoin_append toolName hnodup hother happart]

theorem length_eq_of_latencyOf {metric : String} {values values' : List ℕ}
    (h : latencyOf metric values = latencyOf metric values') : values.length = values'.length := by
  unfold latencyOf at h
  split_ifs at h with hnil hnil'
  · omega
  · exact congrArg LatencyMetric.count (List.head_eq_of_cons_eq h)

theorem toolLatency_append_iff (hnodup : ((traces ++ added).map (·.id)).Nodup)
    (hother : ∀ t ∈ added, t.workspaceId ≠ f.workspaceId) :
    toolLatency (traces ++ added) f = toolLatency traces f ↔
      ∀ tc ∈ selectedCalls traces f none, ∀ t ∈ added, ¬ t.HasSpan tc.spanId := by
  constructor
  · intro h
    have hlength := length_eq_of_latencyOf h
    rw [List.length_map, List.length_map] at hlength
    exact apart_of_length_eq none hnodup hother hlength
  · intro happart
    unfold toolLatency
    rw [toolJoin_append none hnodup hother happart]

end Added

/-- **The tool rollups count each span once, and nothing of another workspace**, if and only if the
selected tool calls share their span ids with no other trace, and with none of another workspace. -/
theorem tool_rollups_iff (traces traces' : Table ValidTrace) {added : List ValidTrace} {f : TraceFilter}
    (hadded : traces'.rows = traces.rows ++ added)
    (hother : ∀ t ∈ added, t.workspaceId ≠ f.workspaceId) (toolName : Option String) :
    ((∀ tool status, reportedCount (toolMetrics traces.rows f toolName) tool status =
        (toolCallSpans traces.rows f toolName tool status).length) ↔
      ∀ tc ∈ selectedCalls traces.rows f toolName, ∀ t ∈ traces.rows,
        t.HasSpan tc.spanId → t.id = tc.traceId) ∧
    (toolMetrics traces'.rows f toolName = toolMetrics traces.rows f toolName ↔
      ∀ tc ∈ selectedCalls traces.rows f toolName, ∀ t ∈ added, ¬ t.HasSpan tc.spanId) ∧
    (toolLatency traces'.rows f = toolLatency traces.rows f ↔
      ∀ tc ∈ selectedCalls traces.rows f none, ∀ t ∈ added, ¬ t.HasSpan tc.spanId) := by
  have hnodup := traces'.ids_nodup
  rw [hadded] at hnodup
  refine ⟨?_, ?_, ?_⟩
  · rw [reportedCount_eq_iff traces.ids_nodup]
    exact forall₂_congr fun tc htc =>
      spanCount_eq_one_iff traces.ids_nodup (toolCallRows_of_selectedCalls htc)
  · rw [hadded]
    exact toolMetrics_append_iff toolName hnodup hother
  · rw [hadded]
    exact toolLatency_append_iff hnodup hother

/-! ### Two workspaces with the same trace -/

/-- A trace with one tool call. -/
def searchTrace (id workspaceId spanId : String) (durationMs : ℕ) : Trace :=
  { Trace.minimal with
    id, workspaceId
    spans := [.toolCall { id := spanId, name := "search", startedAt := 0, durationMs
                          toolName := "search" }] }

/-- The trace of one workspace. -/
def firstSearch : ValidTrace := ⟨searchTrace "tr_1" "ws_1" "sp_1" 10, by decide +kernel⟩

/-- A trace of another workspace, whose span has an id of its own. -/
def otherSearch : ValidTrace := ⟨searchTrace "tr_2" "ws_2" "sp_2" 90, by decide +kernel⟩

/-- A trace of another workspace, with the span id of the first. -/
def sameSearch : ValidTrace := ⟨searchTrace "tr_2" "ws_2" "sp_1" 90, by decide +kernel⟩

/-- One workspace has a trace. -/
def oneTrace : Table ValidTrace := Table.empty.set firstSearch

/-- Another workspace's trace is added. -/
def apart : Table ValidTrace := oneTrace.set otherSearch

/-- Another workspace imports the trace, and so its span id. -/
def imported : Table ValidTrace := oneTrace.set sameSearch

theorem tool_rollups_apart :
    toolMetrics apart.rows { workspaceId := "ws_1" } none =
        toolMetrics oneTrace.rows { workspaceId := "ws_1" } none ∧
      toolLatency apart.rows { workspaceId := "ws_1" } =
        toolLatency oneTrace.rows { workspaceId := "ws_1" } := by
  have h := tool_rollups_iff oneTrace apart (f := { workspaceId := "ws_1" })
    (show apart.rows = oneTrace.rows ++ [otherSearch] from rfl)
    (by decide +kernel) none
  exact ⟨h.2.1.mpr (by decide +kernel), h.2.2.mpr (by decide +kernel)⟩

/-- The one tool call of the workspace is counted twice, with the duration of the other's. -/
theorem imported_counted_twice :
    toolMetrics oneTrace.rows { workspaceId := "ws_1" } none =
        [⟨"search", .ok, 1, 0, some 10, 0⟩] ∧
      toolMetrics imported.rows { workspaceId := "ws_1" } none =
        [⟨"search", .ok, 2, 0, some 50, 0⟩] ∧
      (toolCallSpans imported.rows { workspaceId := "ws_1" } none "search" .ok).length = 1 ∧
      toolLatency imported.rows { workspaceId := "ws_1" } ≠
        toolLatency oneTrace.rows { workspaceId := "ws_1" } := by
  decide +kernel

end Selfevals.Storage.TraceMetrics
