import Selfevals.Trace.OtelImportLaws

/-!
# The exports that are imported

What an import should make of exported spans, `Imported`, and the exports for which it does, `Plain`:
the importer leaves the totals of a trace at zero, ends its environment with the latest start, takes
a start of zero for a missing one, and compares times with and without an offset.
-/

namespace Selfevals.Trace.PlainExports

open Lib.Interleaving (exists_mem_of_forall₂)
open Lib.JsonValue Lib.Result Schemas.Base Schemas.Enums Schemas.Experiments Schemas.TraceRecords
  Trace.OtelImport Trace.OtelImportLaws Trace.OtelLinking

/-- The other arguments are as the schema wants them. -/
structure ArgsValid (world : World) (args : ImportArgs) : Prop where
  traceId : world.traceId ≠ ""
  workspaceId : args.workspaceId ≠ ""
  run : RunInfo.Valid args.run
  agent : AgentSnapshotRef.Valid args.agent
  frameworkVersion : args.frameworkVersion ≠ ""
  runtime : args.runtime ≠ ""

variable (lib : Library)

/-- The tokens that count as input: fresh, or read from the cache. -/
def tokensIn : Span → ℕ
  | .llmCall s => s.tokens.input + s.tokens.inputCacheRead
  | _ => 0

def tokensOut : Span → ℕ
  | .llmCall s => s.tokens.output
  | _ => 0

/-- The totals of a trace are the sums over its spans. -/
structure TotalsAddUp (t : Trace) : Prop where
  tokensIn : t.metrics.totalTokensIn = (t.spans.map tokensIn).sum
  tokensOut : t.metrics.totalTokensOut = (t.spans.map tokensOut).sum
  llmCalls : t.metrics.llmCallCount = t.spans.countP fun s => s.kind = .llmCall
  toolCalls : t.metrics.toolCallCount = t.spans.countP fun s => s.kind = .toolCall

/-- The environment was there while the spans ran. -/
def Contains (e : EnvironmentInfo) (spans : List SpanDict) : Prop :=
  ∀ raw ∈ spans, ∀ s e', Times lib raw s e' →
    e.startedAt ≤ s.micros ∧ ∃ endedAt ∈ e.endedAt, e'.micros ≤ endedAt

/-- A trace of the exported spans, in their order. -/
structure Imported (spans : List SpanDict) (t : Trace) : Prop where
  valid : t.Valid
  correspond : List.Forall₂ (Corresponds lib) spans t.spans
  contains : Contains lib t.environment spans
  totals : TotalsAddUp t

/-- No model or tool is called, each span can be read, all starts have an offset or none has, and
the last span to start starts when all have ended. -/
structure Plain (args : ImportArgs) (spans : List SpanDict) : Prop where
  noCalls : ∀ raw ∈ spans, classifySpan lib raw ≠ .llmCall ∧ classifySpan lib raw ≠ .toolCall
  named : ∀ raw ∈ spans, Named raw
  counted : ∀ raw ∈ spans, Counted lib raw
  startSeen : ∀ raw ∈ spans, StartSeen raw
  measurable : ∀ raw ∈ spans, Measurable lib raw
  sameClock : ∀ raw ∈ spans, ∀ raw' ∈ spans, ∀ s e s' e', Times lib raw s e →
    Times lib raw' s' e' → s.aware = s'.aware
  endsBeforeLast : ∀ raw ∈ spans, ∃ raw' ∈ spans, ∀ s e s' e', Times lib raw s e →
    Times lib raw' s' e' → e.micros ≤ s'.micros
  environment : ∀ given ∈ args.environmentStartedAt, ∀ raw ∈ spans, ∀ s e, Times lib raw s e →
    given.aware = s.aware ∧ given.micros ≤ s.micros

/-! ### The environment -/

variable {lib} {world : World} {args : ImportArgs} {spans : List SpanDict} {raw : SpanDict}
  {st : ImportState} {s e : DateTime}

/-- When the environment started. -/
def envStart (world : World) (args : ImportArgs) (st : ImportState) : DateTime :=
  (args.environmentStartedAt.or st.earliest).getD { aware := true, micros := world.now }

section Environment
variable {env : EnvironmentInfo} {a b : DateTime}

theorem newEnvironment_spec (h : newEnvironment args a b = .ok env) :
    b.aware = a.aware ∧ env.startedAt = a.micros ∧ env.endedAt = some b.micros := by
  unfold newEnvironment before at h
  dsimp only at h
  split_ifs at h with hfields haware
  · obtain ⟨early, -, h⟩ := bind_eq_ok.mp h
    split_ifs at h
    cases h
    exact ⟨haware, rfl, rfl⟩
  · cases h

theorem newEnvironment_isOk (hargs : ArgsValid world args) (haware : b.aware = a.aware)
    (hle : a.micros ≤ b.micros) :
    ∃ env, newEnvironment args a b = .ok env ∧ EnvironmentInfo.Valid env := by
  have hvalid : EnvironmentInfo.Valid {
      frameworkVersion := args.frameworkVersion, runtime := args.runtime, sandbox := args.sandbox
      startedAt := a.micros, endedAt := some b.micros } := by
    refine ⟨hargs.frameworkVersion, hargs.runtime, fun s hs => (nomatch hs), fun t ht => ?_⟩
    cases ht
    exact hle
  refine ⟨_, ?_, hvalid⟩
  unfold newEnvironment before
  dsimp only
  rw [if_pos ⟨hargs.frameworkVersion, hargs.runtime⟩, if_pos haware,
    decide_eq_false (not_lt.mpr hle)]
  rfl

end Environment

/-! ### The trace -/

/-- **What an import that returns** has made of the spans. -/
theorem importOtelSpans_spec {t : Trace} (h : importOtelSpans lib world args spans = .ok t) :
    ∃ st, spans.foldlM (importSpan lib world) {} = .ok st ∧
      linkToolUseIds st.parsed = .ok t.spans ∧
      newEnvironment args (envStart world args st) (st.latest.getD (envStart world args st)) =
        .ok t.environment ∧ t.metrics = {} := by
  unfold importOtelSpans at h
  split_ifs at h
  obtain ⟨st, hst, h⟩ := bind_eq_ok.mp h
  obtain ⟨parsed, hparsed, h⟩ := bind_eq_ok.mp h
  obtain ⟨env, henv, h⟩ := bind_eq_ok.mp h
  dsimp only at h
  split_ifs at h
  cases h
  exact ⟨st, hst, mapError_eq_ok.mp hparsed, henv, rfl⟩

section Read
variable {built : List (Span × DateTime)}

theorem exists_builtFrom (h : Loop lib spans built st) {span : Span} (hspan : span ∈ st.parsed) :
    ∃ raw ∈ spans, ∃ fresh d, BuiltFrom lib fresh raw span d := by
  rw [h.parsed] at hspan
  obtain ⟨b, hb, rfl⟩ := List.mem_map.mp hspan
  obtain ⟨raw, hraw, fresh, hbuilt⟩ := exists_mem_of_forall₂ h.spans.flip hb
  exact ⟨raw, hraw, fresh, b.2, hbuilt⟩

theorem exists_builtFrom_of_mem (h : Loop lib spans built st) (hraw : raw ∈ spans) :
    ∃ fresh span d, BuiltFrom lib fresh raw span d := by
  obtain ⟨b, -, fresh, hbuilt⟩ := exists_mem_of_forall₂ h.spans hraw
  exact ⟨fresh, b.1, b.2, hbuilt⟩

theorem forall₂_corresponds (h : Loop lib spans built st) (hexported : Exported lib spans) :
    List.Forall₂ (Corresponds lib) spans st.parsed := by
  have hcorrespond : List.Forall₂ (fun raw (b : Span × DateTime) => Corresponds lib raw b.1)
      spans built := by
    refine List.forall₂_iff_zip.mpr ⟨h.spans.length_eq, fun {raw b} hmem => ?_⟩
    obtain ⟨fresh, hbuilt⟩ := (List.forall₂_iff_zip.mp h.spans).2 hmem
    have hraw : raw ∈ spans := (List.of_mem_zip hmem).1
    obtain ⟨s, e, ht⟩ := hexported.times raw hraw
    exact hbuilt.corresponds (hexported.identified hraw) ht
  rw [h.parsed, List.forall₂_map_right_iff]
  exact hcorrespond

theorem spanIds_eq {parsed : List Span} (h : List.Forall₂ (Corresponds lib) spans parsed) :
    spans.map (·.spanId) = (parsed.map Span.id).map Json.str := by
  induction h with
  | nil => rfl
  | cons hfirst _ ih => rw [List.map_cons, ih, hfirst.id, List.map_cons, List.map_cons]

theorem forall₂_valid {parsed : List Span} (h : List.Forall₂ (Corresponds lib) spans parsed)
    (hexported : Exported lib spans) : (parsed.map Span.id).Nodup ∧
      ∀ span ∈ parsed, ∀ p ∈ span.base.parentId, p ∈ parsed.map Span.id := by
  have hids := spanIds_eq h
  refine ⟨List.Nodup.of_map Json.str (hids ▸ hexported.nodup), fun span hspan p hp => ?_⟩
  obtain ⟨raw, hraw, hcorresponds⟩ := exists_mem_of_forall₂ h.flip hspan
  have hparent : raw.parentSpanId = .str p := by
    rw [hcorresponds.parent, Option.mem_def.mp hp]
    rfl
  obtain hnull | hmem := hexported.parents raw hraw
  · cases hnull.symm.trans hparent
  · rw [hids, hparent] at hmem
    obtain ⟨id, hid, heq⟩ := List.mem_map.mp hmem
    exact Json.str.inj heq ▸ hid

theorem linkToolUseIds_parsed (h : Loop lib spans built st) (hexported : Exported lib spans) :
    linkToolUseIds st.parsed = .ok st.parsed := by
  refine linkToolUseIds_of_none fun span hspan => ?_
  obtain ⟨raw, hraw, fresh, d, hbuilt⟩ := exists_builtFrom h hspan
  exact hbuilt.toolUseId?_eq_none (hexported.noCallIds raw hraw)

end Read

theorem detectThreadId_ne {threadId : String} (h : threadId ∈ detectThreadId spans) :
    threadId ≠ "" := by
  obtain ⟨raw, -, hraw⟩ := List.exists_of_findSome?_eq_some h
  obtain ⟨key, -, hkey⟩ := List.exists_of_findSome?_eq_some hraw
  split at hkey
  · split_ifs at hkey with hempty
    cases hkey
    exact hempty
  · cases hkey

theorem runValid_withThread (h : RunInfo.Valid args.run) :
    RunInfo.Valid { args.run with threadId := args.run.threadId.or (detectThreadId spans) } := by
  refine ⟨h.1, fun text htext => ?_⟩
  simp only [List.mem_append, Option.mem_toList, Option.or_eq_some_iff] at htext
  obtain hold | hthread | ⟨-, hdetected⟩ := htext
  · exact h.2 text (by simp only [List.mem_append, Option.mem_toList]; exact .inl hold)
  · exact h.2 text (by simp only [List.mem_append, Option.mem_toList]; exact .inr hthread)
  · exact detectThreadId_ne hdetected

/-- **When an import returns**: its spans are read, and its environment has one clock and ends after
it started. -/
theorem importOtelSpans_isOk (hargs : ArgsValid world args) (hexported : Exported lib spans)
    (hst : spans.foldlM (importSpan lib world) {} = .ok st)
    (haware : (st.latest.getD (envStart world args st)).aware = (envStart world args st).aware)
    (hle : (envStart world args st).micros ≤ (st.latest.getD (envStart world args st)).micros) :
    ∃ t, importOtelSpans lib world args spans = .ok t ∧ t.Valid := by
  obtain ⟨built, hloop⟩ := Loop.loop_spec hst
  obtain ⟨env, henv, henvValid⟩ := newEnvironment_isOk hargs haware hle
  obtain ⟨hnodup, hparents⟩ := forall₂_valid (forall₂_corresponds hloop hexported) hexported
  let t : Trace := {
    id := world.traceId
    workspaceId := args.workspaceId
    createdAt := world.now
    updatedAt := world.now
    run := { args.run with threadId := args.run.threadId.or (detectThreadId spans) }
    agent := args.agent
    environment := env
    finalState := args.finalState.getD { status := .completed }
    spans := st.parsed }
  have hvalid : t.Valid := {
    base := ⟨hargs.traceId, hargs.workspaceId, le_rfl⟩
    run := runValid_withThread hargs.run
    agent := hargs.agent
    environment := henvValid
    spans := fun span hspan => by
      obtain ⟨raw, -, fresh, d, hbuilt⟩ := exists_builtFrom hloop hspan
      exact hbuilt.valid
    graderResults := fun g hg => nomatch hg
    totalCostUsd := le_rfl
    links := fun link hlink => nomatch hlink
    snapshotId := fun id hid => nomatch hid
    spanIdsUnique := hnodup
    parentIdsExist := hparents
    toolUseIdsLinked := fun span hspan id hid => by
      obtain ⟨raw, hraw, fresh, d, hbuilt⟩ := exists_builtFrom hloop hspan
      rw [hbuilt.toolUseId?_eq_none (hexported.noCallIds raw hraw)] at hid
      cases hid }
  refine ⟨t, ?_, hvalid⟩
  unfold importOtelSpans
  rw [if_neg hargs.workspaceId, hst]
  refine bind_eq_ok.mpr ⟨st, rfl, bind_eq_ok.mpr ⟨st.parsed, ?_, ?_⟩⟩
  · exact mapError_eq_ok.mpr (linkToolUseIds_parsed hloop hexported)
  · exact bind_eq_ok.mpr ⟨env, henv, if_pos hvalid⟩

/-! ### Imports of plain exports -/

theorem exists_bounds {built : List (Span × DateTime)} (h : Loop lib spans built st)
    (hexported : Exported lib spans) (hraw : raw ∈ spans) :
    ∃ first last, st.earliest = some first ∧ st.latest = some last ∧ last.aware = first.aware ∧
      (∃ raw' ∈ spans, ∃ e, Times lib raw' first e) ∧ (∃ raw' ∈ spans, ∃ e, Times lib raw' last e) ∧
      ∀ raw' ∈ spans, ∀ s e, Times lib raw' s e →
        s.aware = first.aware ∧ first.micros ≤ s.micros ∧ s.micros ≤ last.micros := by
  obtain ⟨s, e, ht⟩ := hexported.times raw hraw
  have hmem : s ∈ built.map Prod.snd := (h.mem_starts hexported).mpr ⟨raw, hraw, e, ht⟩
  obtain ⟨hnil, -, -⟩ | ⟨first, hfirst, last, hlast, hearliest, hlatest, hall⟩ := h.bounds
  · rw [hnil] at hmem
    cases hmem
  · exact ⟨first, last, hearliest, hlatest, (hall last hlast).1,
      (h.mem_starts hexported).mp hfirst, (h.mem_starts hexported).mp hlast,
      fun raw' hraw' s' e' ht' => hall s' ((h.mem_starts hexported).mpr ⟨raw', hraw', e', ht'⟩)⟩

theorem totalsAddUp_iff {t : Trace} (hmetrics : t.metrics = {}) :
    TotalsAddUp t ↔ ∀ span ∈ t.spans, span.kind ≠ .llmCall ∧ span.kind ≠ .toolCall := by
  constructor
  · intro h span hspan
    have hllm := h.llmCalls
    have htool := h.toolCalls
    rw [hmetrics] at hllm htool
    have hllm' := List.countP_eq_zero.mp hllm.symm span hspan
    have htool' := List.countP_eq_zero.mp htool.symm span hspan
    simpa using And.intro hllm' htool'
  · intro h
    have hin : ∀ span ∈ t.spans, tokensIn span = 0 := fun span hspan => by
      cases span with
      | llmCall call => exact absurd rfl (h _ hspan).1
      | _ => rfl
    have hout : ∀ span ∈ t.spans, tokensOut span = 0 := fun span hspan => by
      cases span with
      | llmCall call => exact absurd rfl (h _ hspan).1
      | _ => rfl
    refine ⟨?_, ?_, ?_, ?_⟩
    · rw [hmetrics, List.map_congr_left hin, List.map_const', List.sum_replicate]
      rfl
    · rw [hmetrics, List.map_congr_left hout, List.map_const', List.sum_replicate]
      rfl
    · rw [hmetrics, List.countP_eq_zero.mpr fun span hspan => by simpa using (h span hspan).1]
    · rw [hmetrics, List.countP_eq_zero.mpr fun span hspan => by simpa using (h span hspan).2]

theorem plain_of_imported {t : Trace} (hexported : Exported lib spans)
    (h : importOtelSpans lib world args spans = .ok t) (himported : Imported lib spans t) :
    Plain lib args spans := by
  obtain ⟨st, hst, -, henv, hmetrics⟩ := importOtelSpans_spec h
  obtain ⟨built, hloop⟩ := Loop.loop_spec hst
  obtain ⟨haware, hstarted, hended⟩ := newEnvironment_spec henv
  have hcalls := (totalsAddUp_iff hmetrics).mp himported.totals
  have hread : ∀ raw ∈ spans, Named raw ∧ Counted lib raw ∧ StartSeen raw ∧ Measurable lib raw := by
    intro raw hraw
    obtain ⟨fresh, span, d, hbuilt⟩ := exists_builtFrom_of_mem hloop hraw
    obtain ⟨s, e, ht⟩ := hexported.times raw hraw
    obtain ⟨-, hseen, hmeasurable, -⟩ := hbuilt.times ht
    exact ⟨hbuilt.named, hbuilt.counted, hseen, hmeasurable⟩
  refine {
    noCalls := fun raw hraw => ?_
    named := fun raw hraw => (hread raw hraw).1
    counted := fun raw hraw => (hread raw hraw).2.1
    startSeen := fun raw hraw => (hread raw hraw).2.2.1
    measurable := fun raw hraw => (hread raw hraw).2.2.2
    sameClock := fun raw hraw raw' hraw' s e s' e' ht ht' => ?_
    endsBeforeLast := fun raw hraw => ?_
    environment := fun given hgiven raw hraw s e ht => ?_ }
  · obtain ⟨span, hspan, hcorresponds⟩ := exists_mem_of_forall₂ himported.correspond hraw
    obtain ⟨hllm, htool⟩ := hcalls span hspan
    rw [hcorresponds.kind] at hllm htool
    exact ⟨fun hkind => hllm (by rw [hkind]; rfl), fun hkind => htool (by rw [hkind]; rfl)⟩
  · obtain ⟨first, last, -, -, -, -, -, hall⟩ := exists_bounds hloop hexported hraw
    exact (hall raw hraw s e ht).1.trans (hall raw' hraw' s' e' ht').1.symm
  · obtain ⟨first, last, -, hlatest, -, -, ⟨raw', hraw', e'', hlast⟩, -⟩ :=
      exists_bounds hloop hexported hraw
    refine ⟨raw', hraw', fun s e s' e' ht ht' => ?_⟩
    obtain ⟨-, endedAt, hmem, hle⟩ := himported.contains raw hraw s e ht
    rw [hended, hlatest] at hmem
    cases hmem
    obtain ⟨rfl, -⟩ := hlast.unique ht'
    exact hle
  · obtain ⟨first, last, -, hlatest, hclock, -, -, hall⟩ := exists_bounds hloop hexported hraw
    have hstart : envStart world args st = given := by
      rw [envStart, Option.mem_def.mp hgiven]
      rfl
    obtain ⟨hle, -⟩ := himported.contains raw hraw s e ht
    rw [hstart, hlatest] at haware
    rw [hstarted, hstart] at hle
    exact ⟨(haware.symm.trans hclock).trans (hall raw hraw s e ht).1.symm, hle⟩

theorem Plain.exists_clock (h : Plain lib args spans) (hexported : Exported lib spans) :
    ∃ clock : Bool, ∀ raw ∈ spans, ∀ fresh, ∃ span d,
      buildSpan lib fresh raw = .ok (span, d) ∧ d.aware = clock := by
  by_cases hempty : spans = []
  · rw [hempty]
    exact ⟨true, fun raw hraw => nomatch hraw⟩
  · obtain ⟨raw₀, hraw₀⟩ := List.exists_mem_of_ne_nil spans hempty
    obtain ⟨s₀, e₀, ht₀⟩ := hexported.times raw₀ hraw₀
    refine ⟨s₀.aware, fun raw hraw fresh => ?_⟩
    obtain ⟨s, e, ht⟩ := hexported.times raw hraw
    obtain ⟨span, hbuilt⟩ := buildSpan_isOk (hexported.identified hraw) ht (h.noCalls raw hraw)
      (h.named raw hraw) (h.counted raw hraw) (h.startSeen raw hraw) (h.measurable raw hraw) fresh
    exact ⟨span, s, hbuilt, h.sameClock raw hraw raw₀ hraw₀ s e s₀ e₀ ht ht₀⟩

theorem Plain.environment_spec (h : Plain lib args spans) (hexported : Exported lib spans)
    (hst : spans.foldlM (importSpan lib world) {} = .ok st) :
    (st.latest.getD (envStart world args st)).aware = (envStart world args st).aware ∧
      (envStart world args st).micros ≤ (st.latest.getD (envStart world args st)).micros ∧
      ∀ raw ∈ spans, ∀ s e, Times lib raw s e → (envStart world args st).micros ≤ s.micros ∧
        e.micros ≤ (st.latest.getD (envStart world args st)).micros := by
  by_cases hempty : spans = []
  · subst hempty
    cases hst
    exact ⟨rfl, le_rfl, fun raw hraw => nomatch hraw⟩
  · obtain ⟨raw₀, hraw₀⟩ := List.exists_mem_of_ne_nil spans hempty
    obtain ⟨built, hloop⟩ := Loop.loop_spec hst
    obtain ⟨first, last, hearliest, hlatest, hclock, hfirst, ⟨rawLast, hrawLast, eLast, htLast⟩,
      hall⟩ := exists_bounds hloop hexported hraw₀
    have hended : ∀ raw ∈ spans, ∀ s e, Times lib raw s e → e.micros ≤ last.micros := by
      intro raw hraw s e ht
      obtain ⟨raw', hraw', hle⟩ := h.endsBeforeLast raw hraw
      obtain ⟨s', e', ht'⟩ := hexported.times raw' hraw'
      exact (hle s e s' e' ht ht').trans (hall raw' hraw' s' e' ht').2.2
    have hstarted : (envStart world args st).aware = last.aware ∧
        ∀ raw ∈ spans, ∀ s e, Times lib raw s e → (envStart world args st).micros ≤ s.micros := by
      unfold envStart
      cases hgiven : args.environmentStartedAt with
      | some given =>
        exact ⟨(h.environment given hgiven rawLast hrawLast last eLast htLast).1,
          fun raw hraw s e ht => (h.environment given hgiven raw hraw s e ht).2⟩
      | none =>
        rw [hearliest]
        exact ⟨hclock.symm, fun raw hraw s e ht => (hall raw hraw s e ht).2.1⟩
    rw [hlatest]
    exact ⟨hstarted.1.symm, hstarted.2 rawLast hrawLast last eLast htLast,
      fun raw hraw s e ht => ⟨hstarted.2 raw hraw s e ht, hended raw hraw s e ht⟩⟩

theorem Plain.imported (h : Plain lib args spans) (hargs : ArgsValid world args)
    (hexported : Exported lib spans) :
    ∃ t, importOtelSpans lib world args spans = .ok t ∧ Imported lib spans t := by
  obtain ⟨clock, hbuild⟩ := h.exists_clock hexported
  obtain ⟨st, hst⟩ : ∃ st, spans.foldlM (importSpan lib world) {} = .ok st :=
    Loop.loop_isOk hbuild
  obtain ⟨haware, hle, hends⟩ := h.environment_spec hexported hst
  obtain ⟨t, ht, hvalid⟩ := importOtelSpans_isOk hargs hexported hst haware hle
  refine ⟨t, ht, ?_⟩
  obtain ⟨st', hst', hlinked, henv, hmetrics⟩ := importOtelSpans_spec ht
  obtain rfl : st = st' := Except.ok.inj (hst.symm.trans hst')
  obtain ⟨built, hloop⟩ := Loop.loop_spec hst
  have hspans : st.parsed = t.spans :=
    Except.ok.inj ((linkToolUseIds_parsed hloop hexported).symm.trans hlinked)
  have hcorrespond := forall₂_corresponds hloop hexported
  rw [hspans] at hcorrespond
  obtain ⟨-, hstarted, hended⟩ := newEnvironment_spec henv
  refine ⟨hvalid, hcorrespond, fun raw hraw s e htimes => ?_, ?_⟩
  · obtain ⟨hstart, hend⟩ := hends raw hraw s e htimes
    exact ⟨hstarted ▸ hstart, _, hended, hend⟩
  · refine (totalsAddUp_iff hmetrics).mpr fun span hspan => ?_
    obtain ⟨raw, hraw, hcorresponds⟩ := exists_mem_of_forall₂ hcorrespond.flip hspan
    rw [hcorresponds.kind]
    obtain ⟨hllm, htool⟩ := h.noCalls raw hraw
    cases hkind : classifySpan lib raw with
    | llmCall => exact absurd hkind hllm
    | toolCall => exact absurd hkind htool
    | _ => simp [builtKind]

/-! ### Some exports -/

def sampleLibrary : Library where
  fromIso s :=
    if s = "2026-01-01T10:00:00+00:00" then some ⟨true, 1767261600000000⟩
    else if s = "2026-01-01T10:00:00" then some ⟨false, 1767261600000000⟩
    else none
  fromTimestamp q := some ⌊q * 10 ^ 6⌋
  fromNanos q := some ⌊q / 10 ^ 3⌋
  millis n := n.tdiv 1000
  strOf _ := "None"
  lower s := String.ofList (s.toList.map Char.toLower)
  isDigit := Char.isDigit
  contentHash _ := "sha256"
  strOf_ne _ := by decide
  millis_nonneg n hn := Int.tdiv_nonneg hn (by norm_num)

def sampleWorld : World where
  now := 1767265200000000
  traceId := "tr_1"
  freshId _ := "sp_1"

def sampleArgs : ImportArgs where
  workspaceId := "ws_1"
  run := { runId := "run_1" }
  agent := { agentId := "agent_1", agentVersion := 1 }

/-- The reasoning tokens are among the output tokens. -/
def countedInside : SpanDict where
  spanId := .str "a"
  kind := .str "llm"
  startTime := .text "2026-01-01T10:00:00+00:00"
  endTime := .text "2026-01-01T10:00:00+00:00"
  attributes := [("gen_ai.usage.input_tokens", .int 100), ("gen_ai.usage.output_tokens", .int 60),
    ("gen_ai.usage.reasoning_tokens", .int 40), ("gen_ai.usage.total_tokens", .int 160)]

def withOffset : SpanDict where
  spanId := .str "a"
  kind := .str "agent"
  startTime := .text "2026-01-01T10:00:00+00:00"
  endTime := .text "2026-01-01T10:00:00+00:00"

def withoutOffset : SpanDict where
  spanId := .str "b"
  kind := .str "agent"
  startTime := .text "2026-01-01T10:00:00"
  endTime := .text "2026-01-01T10:00:00"

/-- A turn of two seconds, and one that it ends with. -/
def twoSeconds : SpanDict where
  spanId := .str "a"
  kind := .str "agent"
  startTime := .datetime ⟨true, 0⟩
  endTime := .datetime ⟨true, 2000000⟩

def lastTurn : SpanDict where
  spanId := .str "b"
  parentSpanId := .str "a"
  kind := .str "agent"
  startTime := .datetime ⟨true, 2000000⟩
  endTime := .datetime ⟨true, 2000000⟩

theorem sampleArgs_valid : ArgsValid sampleWorld sampleArgs := by
  constructor <;> decide

theorem times_twoSeconds : Times sampleLibrary twoSeconds ⟨true, 0⟩ ⟨true, 2000000⟩ :=
  ⟨.inr (.inl rfl), .inr (.inl rfl), rfl, rfl, by decide⟩

theorem times_lastTurn : Times sampleLibrary lastTurn ⟨true, 2000000⟩ ⟨true, 2000000⟩ :=
  ⟨.inr (.inl rfl), .inr (.inl rfl), rfl, rfl, le_rfl⟩

theorem exported_countedInside : Exported sampleLibrary [countedInside] where
  ids := by simp [countedInside]
  nodup := List.nodup_singleton _
  parents := by simp [countedInside]
  noCallIds := by
    intro raw hraw key hkey
    obtain rfl := List.mem_singleton.mp hraw
    rcases List.mem_pair.mp hkey with rfl | rfl <;> rfl
  usage := by
    intro raw hraw key hkey
    obtain rfl := List.mem_singleton.mp hraw
    simp only [usageKeys, List.mem_cons, List.not_mem_nil, or_false] at hkey
    rcases hkey with rfl | rfl | rfl | rfl | rfl | rfl
    exacts [.inr ⟨160, rfl⟩, .inr ⟨100, rfl⟩, .inl rfl, .inl rfl, .inr ⟨60, rfl⟩, .inr ⟨40, rfl⟩]
  times := List.forall_mem_singleton.mpr
    ⟨_, _, .inr (.inl rfl), .inr (.inl rfl), rfl, rfl, le_rfl⟩

theorem exported_of_nil {spans : List SpanDict} (hattrs : ∀ raw ∈ spans, raw.attributes = [])
    (hids : ∀ raw ∈ spans, ∃ id, id ≠ "" ∧ raw.spanId = .str id)
    (hnodup : (spans.map (·.spanId)).Nodup)
    (hparents : ∀ raw ∈ spans,
      raw.parentSpanId = .null ∨ raw.parentSpanId ∈ spans.map (·.spanId))
    (htimes : ∀ raw ∈ spans, ∃ s e, Times lib raw s e) : Exported lib spans where
  ids := hids
  nodup := hnodup
  parents := hparents
  noCallIds := fun raw hraw key _ => by rw [hattrs raw hraw]; rfl
  usage := fun raw hraw key _ => .inl (by rw [hattrs raw hraw]; rfl)
  times := htimes

theorem exported_mixed : Exported sampleLibrary [withOffset, withoutOffset] :=
  exported_of_nil (by simp [withOffset, withoutOffset]) (by simp [withOffset, withoutOffset])
    (by simp [withOffset, withoutOffset]) (by simp [withOffset, withoutOffset])
    (List.forall_mem_cons.mpr
      ⟨⟨_, _, .inr (.inl rfl), .inr (.inl rfl), rfl, rfl, le_rfl⟩, List.forall_mem_singleton.mpr
        ⟨_, _, .inr (.inl rfl), .inr (.inl rfl), rfl, rfl, le_rfl⟩⟩)

theorem exported_twoSeconds : Exported sampleLibrary [twoSeconds] :=
  exported_of_nil (by simp [twoSeconds]) (by simp [twoSeconds]) (List.nodup_singleton _)
    (by simp [twoSeconds]) (List.forall_mem_singleton.mpr ⟨_, _, times_twoSeconds⟩)

theorem exported_turns : Exported sampleLibrary [twoSeconds, lastTurn] :=
  exported_of_nil (by simp [twoSeconds, lastTurn]) (by simp [twoSeconds, lastTurn])
    (by simp [twoSeconds, lastTurn]) (by simp [twoSeconds, lastTurn])
    (List.forall_mem_cons.mpr ⟨⟨_, _, times_twoSeconds⟩,
      List.forall_mem_singleton.mpr ⟨_, _, times_lastTurn⟩⟩)

/-- **The exports that are imported as they should be** are the plain ones. -/
theorem imported_iff_plain (hargs : ArgsValid world args) (hexported : Exported lib spans) :
    (∃ t, importOtelSpans lib world args spans = .ok t ∧ Imported lib spans t) ↔
      Plain lib args spans :=
  ⟨fun ⟨_, h, himported⟩ => plain_of_imported hexported h himported,
    fun h => h.imported hargs hexported⟩

/-- A turn and the one that it ends with. -/
theorem imported_turns : ∃ t,
    importOtelSpans sampleLibrary sampleWorld sampleArgs [twoSeconds, lastTurn] = .ok t ∧
      Imported sampleLibrary [twoSeconds, lastTurn] t := by
  refine (imported_iff_plain sampleArgs_valid exported_turns).mpr ?_
  have hstarts : ∀ raw ∈ [twoSeconds, lastTurn], ∀ s e, Times sampleLibrary raw s e →
      s.aware = true ∧ e = ⟨true, 2000000⟩ := by
    intro raw hraw s e ht
    rcases List.mem_pair.mp hraw with rfl | rfl
    · obtain ⟨rfl, rfl⟩ := times_twoSeconds.unique ht
      exact ⟨rfl, rfl⟩
    · obtain ⟨rfl, rfl⟩ := times_lastTurn.unique ht
      exact ⟨rfl, rfl⟩
  have hkind : ∀ raw ∈ [twoSeconds, lastTurn], classifySpan sampleLibrary raw = .agentTurn := by
    intro raw hraw
    rcases List.mem_pair.mp hraw with rfl | rfl <;> rfl
  exact {
    noCalls := fun raw hraw => by
      rw [hkind raw hraw]
      decide
    named := fun raw hraw => by
      rcases List.mem_pair.mp hraw with rfl | rfl <;> exact fun v hv => nomatch hv
    counted := fun raw hraw h => nomatch (hkind raw hraw).symm.trans h
    startSeen := fun raw hraw => by
      rcases List.mem_pair.mp hraw with rfl | rfl <;> exact .inr (.inl rfl)
    measurable := fun raw hraw => by
      rcases List.mem_pair.mp hraw with rfl | rfl
      all_goals
        intro hseen s e ht
        obtain ⟨haware, rfl⟩ := hstarts _ hraw s e ht
        exact haware.symm
    sameClock := fun raw hraw raw' hraw' s e s' e' ht ht' => by
      rw [(hstarts raw hraw s e ht).1, (hstarts raw' hraw' s' e' ht').1]
    endsBeforeLast := fun raw hraw => by
      refine ⟨lastTurn, by simp, fun s e s' e' ht ht' => ?_⟩
      obtain ⟨-, rfl⟩ := hstarts raw hraw s e ht
      obtain ⟨rfl, -⟩ := times_lastTurn.unique ht'
      exact le_rfl
    environment := fun given hgiven => nomatch hgiven }

/-- Exports that are refused, and one whose environment ends before it does. -/
theorem exports_not_imported : ArgsValid sampleWorld sampleArgs ∧
    (Exported sampleLibrary [countedInside] ∧
      importOtelSpans sampleLibrary sampleWorld sampleArgs [countedInside] =
        .error .validation) ∧
    (Exported sampleLibrary [withOffset, withoutOffset] ∧
      importOtelSpans sampleLibrary sampleWorld sampleArgs [withOffset, withoutOffset] =
        .error .typeError) ∧
    (Exported sampleLibrary [twoSeconds] ∧
      ¬∃ t, importOtelSpans sampleLibrary sampleWorld sampleArgs [twoSeconds] = .ok t ∧
        Imported sampleLibrary [twoSeconds] t) := by
  refine ⟨sampleArgs_valid, ⟨exported_countedInside, rfl⟩, ⟨exported_mixed, rfl⟩,
    exported_twoSeconds, fun ⟨t, h, himported⟩ => ?_⟩
  have hplain := plain_of_imported exported_twoSeconds h himported
  obtain ⟨raw', hraw', hle⟩ := hplain.endsBeforeLast twoSeconds List.mem_cons_self
  obtain rfl := List.mem_singleton.mp hraw'
  exact absurd (hle _ _ _ _ times_twoSeconds times_twoSeconds) (by decide)

end Selfevals.Trace.PlainExports
