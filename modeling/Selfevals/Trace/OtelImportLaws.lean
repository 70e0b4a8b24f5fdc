import Selfevals.Lib.Interleaving
import Selfevals.Lib.Result
import Selfevals.Trace.OtelImport

/-!
# What is read of exported spans

The spans that an exporter sends, `Exported`, what the builders make of one, and what the loop has
read when it is done.

* `buildSpan_spec`, `buildSpan_isOk`: what a span that was built has of its dict, and when one that
  is no call builds;
-/

namespace Selfevals.Trace.OtelImportLaws

open Lib.Interleaving (exists_mem_of_forall₂)
open Lib.JsonValue Lib.Result Schemas.Base Schemas.Enums Schemas.Experiments Schemas.TraceRecords
  Trace.OtelImport Trace.OtelLinking

/-! ### Exports -/

/-- The start time of a dict, under the key that holds it. -/
def exportedStart (raw : SpanDict) : TimeValue :=
  if raw.startTime = .null then raw.startedAt else raw.startTime

/-- The end time of a dict, under the key that holds it. -/
def exportedEnd (raw : SpanDict) : TimeValue :=
  if raw.endTime = .null then raw.endedAt else raw.endTime

variable (lib : Library)

/-- The times of a dict in an accepted form, the end not before the start; a time that is under both
keys is the same under both. -/
structure Times (raw : SpanDict) (s e : DateTime) : Prop where
  oneStart : raw.startTime = .null ∨ raw.startedAt = .null ∨ raw.startedAt = raw.startTime
  oneEnd : raw.endTime = .null ∨ raw.endedAt = .null ∨ raw.endedAt = raw.endTime
  start : parseTime lib (exportedStart raw) = .ok s
  ended : parseTime lib (exportedEnd raw) = .ok e
  le : s.micros ≤ e.micros

def callIdKeys : List String := ["openinference.tool.call_id", "tool.call_id"]

/-- What an exporter sends: spans with distinct ids and parents among them, no call ids,
non-negative integers for the usage, and times. -/
structure Exported (spans : List SpanDict) : Prop where
  ids : ∀ raw ∈ spans, ∃ id, id ≠ "" ∧ raw.spanId = .str id
  nodup : (spans.map (·.spanId)).Nodup
  parents : ∀ raw ∈ spans,
    raw.parentSpanId = .null ∨ raw.parentSpanId ∈ spans.map (·.spanId)
  noCallIds : ∀ raw ∈ spans, ∀ key ∈ callIdKeys, dictGet raw.attributes key = .null
  usage : ∀ raw ∈ spans, ∀ key ∈ "gen_ai.usage.total_tokens" :: usageKeys,
    raw.attributes.lookup key = none ∨ ∃ n : ℕ, raw.attributes.lookup key = some (.int n)
  times : ∀ raw ∈ spans, ∃ s e, Times lib raw s e

/-! ### Spans -/

/-- The kind of span that is built; there is no builder of the others. -/
def builtKind : SpanKind → SpanKind
  | .llmCall => .llmCall
  | .toolCall => .toolCall
  | .retrieval => .retrieval
  | .agentTurn => .agentTurn
  | _ => .custom

/-- A span of the trace is the one that was exported. -/
structure Corresponds (raw : SpanDict) (span : Span) : Prop where
  id : raw.spanId = .str span.id
  parent : raw.parentSpanId = (span.base.parentId.map Json.str).getD .null
  kind : span.kind = builtKind (classifySpan lib raw)
  start : ∀ s, parseTime lib (exportedStart raw) = .ok s → span.base.startedAt = s.micros

/-- The start is seen: under `start_time` alone, it is not taken for missing. -/
def StartSeen (raw : SpanDict) : Prop :=
  raw.startTime = .null ∨ raw.startTime.truthy = true ∨ raw.startedAt = raw.startTime

def EndSeen (raw : SpanDict) : Prop :=
  raw.endTime = .null ∨ raw.endTime.truthy = true ∨ raw.endedAt = raw.endTime

/-- The duration is given and not negative, or can be measured: both times have an offset, or
neither has. -/
def Measurable (raw : SpanDict) : Prop :=
  match raw.durationMs with
  | some v => ∃ n, toInt v = .ok n ∧ 0 ≤ n
  | none => EndSeen raw → ∀ s e, Times lib raw s e → e.aware = s.aware

/-- The name is missing or a text, and not empty. -/
def Named (raw : SpanDict) : Prop := ∀ v ∈ raw.name, ∃ s, s ≠ "" ∧ v = .str s

/-- A retrieval counts its documents. -/
def Counted (raw : SpanDict) : Prop :=
  classifySpan lib raw = .retrieval → ∃ n, toInt (givenCount raw.attributes) = .ok n ∧ 0 ≤ n

/-! ### Times -/

section Picked
variable {v w : TimeValue}

theorem orElse_of_seen (h : v = .null ∨ v.truthy = true ∨ w = v) :
    v.orElse w = if v = .null then w else v := by
  unfold TimeValue.orElse
  by_cases hnull : v = .null
  · rw [hnull]
    rfl
  · obtain htruthy | rfl := h.resolve_left hnull
    · rw [if_pos htruthy, if_neg hnull]
    · rw [ite_self, if_neg hnull]

theorem orElse_of_not_seen (hone : v = .null ∨ w = .null ∨ w = v)
    (h : ¬(v = .null ∨ v.truthy = true ∨ w = v)) : v.orElse w = .null := by
  obtain ⟨hne, hfalsy, hother⟩ := not_or.mp h |>.imp_right not_or.mp
  unfold TimeValue.orElse
  rw [if_neg hfalsy]
  exact (hone.resolve_left hne).resolve_right hother

end Picked

variable {lib} {raw : SpanDict} {s e : DateTime}

theorem parseTime_null : parseTime lib .null = .error .timestamp := rfl

theorem ne_null_of_parseTime {v : TimeValue} (h : parseTime lib v = .ok s) : v ≠ .null := by
  rintro rfl
  cases h

theorem startOf_eq (hseen : StartSeen raw) : startOf raw = exportedStart raw :=
  orElse_of_seen hseen

theorem endOf_eq (hseen : EndSeen raw) : endOf raw = exportedEnd raw := orElse_of_seen hseen

namespace Times

theorem unique (h : Times lib raw s e) {s' e' : DateTime} (h' : Times lib raw s' e') :
    s' = s ∧ e' = e :=
  ⟨Except.ok.inj (h'.start.symm.trans h.start), Except.ok.inj (h'.ended.symm.trans h.ended)⟩

theorem parseTime_startOf (h : Times lib raw s e) {d : DateTime} :
    parseTime lib (startOf raw) = .ok d ↔ StartSeen raw ∧ d = s := by
  by_cases hseen : StartSeen raw
  · rw [startOf_eq hseen, h.start, and_iff_right hseen]
    exact ⟨fun heq => (Except.ok.inj heq).symm, fun heq => heq ▸ rfl⟩
  · have hnull : startOf raw = .null := orElse_of_not_seen h.oneStart hseen
    rw [hnull, parseTime_null]
    exact iff_of_false (fun heq => nomatch heq) fun hs => hseen hs.1

theorem durationMs_isOk_iff (h : Times lib raw s e) (hseen : StartSeen raw) :
    (∃ n : ℕ, durationMs lib raw = .ok n) ↔ Measurable lib raw := by
  unfold durationMs Measurable
  cases raw.durationMs with
  | some v =>
    refine ⟨fun ⟨n, hn⟩ => ⟨n, hn, Int.natCast_nonneg n⟩, fun ⟨n, hn, hnonneg⟩ => ⟨n.toNat, ?_⟩⟩
    rw [Int.toNat_of_nonneg hnonneg]
    exact hn
  | none =>
    have hstart : startOf raw ≠ .null := by
      rw [startOf_eq hseen]
      exact ne_null_of_parseTime h.start
    dsimp only
    by_cases hend : EndSeen raw
    · have hended : endOf raw ≠ .null := by
        rw [endOf_eq hend]
        exact ne_null_of_parseTime h.ended
      rw [if_pos ⟨hstart, hended⟩, startOf_eq hseen, endOf_eq hend, h.start, h.ended]
      show (∃ n : ℕ, millisBetween lib e s = .ok n) ↔ _
      unfold millisBetween
      by_cases haware : e.aware = s.aware
      · have hnonneg : 0 ≤ lib.millis (e.micros - s.micros) :=
          lib.millis_nonneg _ (sub_nonneg.mpr h.le)
        rw [if_pos haware]
        refine iff_of_true ⟨(lib.millis (e.micros - s.micros)).toNat, ?_⟩ fun _ s' e' h' => ?_
        · rw [Int.toNat_of_nonneg hnonneg]
        · obtain ⟨rfl, rfl⟩ := h.unique h'
          exact haware
      · rw [if_neg haware]
        exact iff_of_false (fun ⟨n, hn⟩ => nomatch hn) fun hall => haware (hall hend s e h)
    · have hnull : endOf raw = .null := orElse_of_not_seen h.oneEnd hend
      rw [hnull, if_neg (fun hboth => hboth.2 rfl)]
      exact iff_of_true ⟨0, rfl⟩ fun hcontra => absurd hcontra hend

end Times

/-! ### The builders -/

theorem baseOf_eq_ok_iff {fresh name : String} {base : SpanBase} {d : DateTime} :
    baseOf lib fresh raw name = .ok (base, d) ↔
      (textField (raw.spanId.orElse (.str fresh)) = .ok base.id ∧
        optTextField raw.parentSpanId = .ok base.parentId ∧
        textField (raw.name.getD (.str name)) = .ok base.name ∧
        parseTime lib (startOf raw) = .ok d ∧ durationMs lib raw = .ok (base.durationMs : ℤ)) ∧
      base.startedAt = d.micros := by
  unfold baseOf
  simp only [bind_eq_ok]
  constructor
  · rintro ⟨startedAt, hstart, n, hn, id, hid, parentId, hparent, name', hname, h⟩
    split_ifs at h with hneg
    cases h
    refine ⟨⟨hid, hparent, hname, hstart, ?_⟩, rfl⟩
    rw [hn]
    exact congrArg _ (Int.toNat_of_nonneg (not_lt.mp hneg)).symm
  · rintro ⟨⟨hid, hparent, hname, hstart, hduration⟩, hmicros⟩
    refine ⟨_, hstart, _, hduration, _, hid, _, hparent, _, hname, ?_⟩
    rw [if_neg (not_lt.mpr (Int.natCast_nonneg _)), ← hmicros]
    rfl

theorem checked_eq_ok_iff {span span' : Span} : checked span = .ok span' ↔
    (SpanBase.Valid span.base ∧ Span.DetailValid span) ∧ span = span' := by
  unfold checked
  split_ifs with h
  · rw [and_iff_right h]
    exact ⟨fun heq => Except.ok.inj heq, fun heq => heq ▸ rfl⟩
  · exact iff_of_false (fun heq => nomatch heq) fun hboth => h hboth.1

/-- What a span that was built has of the exported one. -/
structure BuiltFrom (lib : Library) (fresh : String) (raw : SpanDict) (span : Span)
    (d : DateTime) : Prop where
  base : ∃ name, baseOf lib fresh raw name = .ok (span.base, d)
  kind : span.kind = builtKind (classifySpan lib raw)
  valid : SpanBase.Valid span.base ∧ Span.DetailValid span
  toolUse : span.toolUseId? = none ∨
    optTextField (getOr raw.attributes "openinference.tool.call_id" "tool.call_id") =
      .ok span.toolUseId?
  counted : Counted lib raw
  tokens : classifySpan lib raw = .llmCall → ∃ tokens, tokensOf raw.attributes = .ok tokens

section Build
variable {fresh : String} {span : Span} {d : DateTime}

theorem buildLlmSpan_spec (hkind : classifySpan lib raw = .llmCall)
    (h : buildLlmSpan lib fresh raw = .ok (span, d)) : BuiltFrom lib fresh raw span d := by
  unfold buildLlmSpan at h
  simp only [bind_eq_ok] at h
  obtain ⟨tokens, htokens, messagesIn, -, messagesOut, -, ⟨base, startedAt⟩, hbase, version, -,
    built, hchecked, h⟩ := h
  cases h
  obtain ⟨hvalid, rfl⟩ := checked_eq_ok_iff.mp hchecked
  exact ⟨⟨_, hbase⟩, hkind ▸ rfl, hvalid, .inl rfl, fun h => (nomatch hkind.symm.trans h),
    fun _ => ⟨tokens, htokens⟩⟩

theorem buildToolSpan_spec (hkind : classifySpan lib raw = .toolCall)
    (h : buildToolSpan lib fresh raw = .ok (span, d)) : BuiltFrom lib fresh raw span d := by
  unfold buildToolSpan at h
  simp only [bind_eq_ok] at h
  obtain ⟨⟨base, startedAt⟩, hbase, toolUseId, htool, error, -, built, hchecked, h⟩ := h
  cases h
  obtain ⟨hvalid, rfl⟩ := checked_eq_ok_iff.mp hchecked
  exact ⟨⟨_, hbase⟩, hkind ▸ rfl, hvalid, .inr htool, fun h => (nomatch hkind.symm.trans h),
    fun h => (nomatch hkind.symm.trans h)⟩

theorem buildRetrievalSpan_spec (hkind : classifySpan lib raw = .retrieval)
    (h : buildRetrievalSpan lib fresh raw = .ok (span, d)) : BuiltFrom lib fresh raw span d := by
  unfold buildRetrievalSpan at h
  simp only [bind_eq_ok] at h
  obtain ⟨topK, htopK, ⟨base, startedAt⟩, hbase, h⟩ := h
  split_ifs at h with hneg
  obtain ⟨built, hchecked, h⟩ := bind_eq_ok.mp h
  cases h
  obtain ⟨hvalid, rfl⟩ := checked_eq_ok_iff.mp hchecked
  exact ⟨⟨_, hbase⟩, hkind ▸ rfl, hvalid, .inl rfl, fun _ => ⟨topK, htopK, not_lt.mp hneg⟩,
    fun h => (nomatch hkind.symm.trans h)⟩

theorem buildAgentTurn_spec (hkind : classifySpan lib raw = .agentTurn)
    (h : buildAgentTurn lib fresh raw = .ok (span, d)) : BuiltFrom lib fresh raw span d := by
  unfold buildAgentTurn at h
  simp only [bind_eq_ok] at h
  obtain ⟨⟨base, startedAt⟩, hbase, built, hchecked, h⟩ := h
  cases h
  obtain ⟨hvalid, rfl⟩ := checked_eq_ok_iff.mp hchecked
  exact ⟨⟨_, hbase⟩, hkind ▸ rfl, hvalid, .inl rfl, fun h => (nomatch hkind.symm.trans h),
    fun h => (nomatch hkind.symm.trans h)⟩

theorem buildCustom_spec (hkind : builtKind (classifySpan lib raw) = .custom)
    (h : buildCustom lib fresh raw = .ok (span, d)) : BuiltFrom lib fresh raw span d := by
  unfold buildCustom at h
  simp only [bind_eq_ok] at h
  obtain ⟨⟨base, startedAt⟩, hbase, built, hchecked, h⟩ := h
  cases h
  obtain ⟨hvalid, rfl⟩ := checked_eq_ok_iff.mp hchecked
  refine ⟨⟨_, hbase⟩, hkind.symm, hvalid, .inl rfl, fun h => ?_, fun h => ?_⟩
  · rw [h] at hkind
    cases hkind
  · rw [h] at hkind
    cases hkind

theorem buildSpan_spec (h : buildSpan lib fresh raw = .ok (span, d)) :
    BuiltFrom lib fresh raw span d := by
  unfold buildSpan at h
  split at h
  · next hkind => exact buildLlmSpan_spec hkind h
  · next hkind => exact buildToolSpan_spec hkind h
  · next hkind => exact buildRetrievalSpan_spec hkind h
  · next hkind => exact buildAgentTurn_spec hkind h
  · next hllm htool hretrieval hagent =>
    refine buildCustom_spec ?_ h
    cases hkind : classifySpan lib raw with
    | llmCall => exact absurd hkind hllm
    | toolCall => exact absurd hkind htool
    | retrieval => exact absurd hkind hretrieval
    | agentTurn => exact absurd hkind hagent
    | _ => rfl

end Build

/-! ### Spans that build -/

/-- A dict with an id and a parent that the schema takes. -/
structure Identified (raw : SpanDict) : Prop where
  id : ∃ id, id ≠ "" ∧ raw.spanId = .str id
  parent : raw.parentSpanId = .null ∨ ∃ p, p ≠ "" ∧ raw.parentSpanId = .str p

theorem baseOf_isOk (hraw : Identified raw) (h : Times lib raw s e) (hnamed : Named raw)
    (hseen : StartSeen raw) (hmeasurable : Measurable lib raw) (fresh : String) {name : String}
    (hname : name ≠ "") :
    ∃ base, baseOf lib fresh raw name = .ok (base, s) ∧ SpanBase.Valid base := by
  obtain ⟨id, hid, hspanId⟩ := hraw.id
  obtain ⟨duration, hduration⟩ := (h.durationMs_isOk_iff hseen).mpr hmeasurable
  have hidOk : textField (raw.spanId.orElse (.str fresh)) = .ok id := by
    rw [hspanId, Json.orElse, if_pos (by simpa [Json.truthy] using hid)]
    rfl
  obtain ⟨parentId, hparent, hparentValid⟩ :
      ∃ parentId, optTextField raw.parentSpanId = .ok parentId ∧ ∀ p ∈ parentId, NonEmpty p := by
    obtain hnull | ⟨p, hp, hparent⟩ := hraw.parent
    · exact ⟨none, by rw [hnull]; rfl, fun p hp => nomatch hp⟩
    · refine ⟨some p, by rw [hparent]; rfl, fun q hq => ?_⟩
      cases hq
      exact hp
  obtain ⟨text, htext, htextOk⟩ :
      ∃ text, text ≠ "" ∧ textField (raw.name.getD (.str name)) = .ok text := by
    cases hgiven : raw.name with
    | none => exact ⟨name, hname, rfl⟩
    | some v =>
      obtain ⟨text, htext, rfl⟩ := hnamed v hgiven
      exact ⟨text, htext, rfl⟩
  exact ⟨{ id, parentId, name := text, startedAt := s.micros, durationMs := duration },
    baseOf_eq_ok_iff.mpr ⟨⟨hidOk, hparent, htextOk, h.parseTime_startOf.mpr ⟨hseen, rfl⟩, hduration⟩,
      rfl⟩, hid, hparentValid, htext⟩

theorem pyStr_ne {v : Json} (h : v ≠ .str "") : pyStr lib v ≠ "" := by
  cases v with
  | str s => exact fun heq => h (congrArg Json.str heq)
  | _ => exact lib.strOf_ne _

theorem orElse_ne {v : Json} {text : String} (htext : text ≠ "") :
    v.orElse (.str text) ≠ .str "" := by
  unfold Json.orElse
  split_ifs with htruthy
  · rintro rfl
    exact absurd htruthy (by decide)
  · exact fun heq => htext (Json.str.inj heq)

section Build
variable {fresh : String} {base : SpanBase} {d : DateTime}

theorem checked_isOk {span : Span} (h : SpanBase.Valid span.base ∧ Span.DetailValid span) :
    ∃ b, (checked span >>= fun span => pure (span, d)) = .ok b :=
  exists_bind_ok.mpr ⟨span, checked_eq_ok_iff.mpr ⟨h, rfl⟩, _, rfl⟩

theorem buildRetrievalSpan_isOk (hcounted : ∃ n, toInt (givenCount raw.attributes) = .ok n ∧ 0 ≤ n)
    (hbase : baseOf lib fresh raw "retrieval" = .ok (base, d)) (hvalid : SpanBase.Valid base) :
    ∃ b, buildRetrievalSpan lib fresh raw = .ok b := by
  obtain ⟨n, hn, hnonneg⟩ := hcounted
  unfold buildRetrievalSpan
  refine exists_bind_ok.mpr ⟨n, hn, exists_bind_ok.mpr ⟨(base, d), hbase, ?_⟩⟩
  dsimp only
  rw [if_neg (not_lt.mpr hnonneg)]
  exact checked_isOk ⟨hvalid, pyStr_ne (orElse_ne (by decide)), le_max_left _ _,
    fun doc hdoc => nomatch hdoc⟩

theorem buildAgentTurn_isOk (hbase : baseOf lib fresh raw "agent_turn" = .ok (base, d))
    (hvalid : SpanBase.Valid base) : ∃ b, buildAgentTurn lib fresh raw = .ok b :=
  exists_bind_ok.mpr ⟨(base, d), hbase, checked_isOk ⟨hvalid, trivial⟩⟩

theorem buildCustom_isOk (hbase : baseOf lib fresh raw "custom" = .ok (base, d))
    (hvalid : SpanBase.Valid base) : ∃ b, buildCustom lib fresh raw = .ok b :=
  exists_bind_ok.mpr ⟨(base, d), hbase, checked_isOk ⟨hvalid, trivial⟩⟩

theorem buildSpan_isOk {s e : DateTime} (hraw : Identified raw) (h : Times lib raw s e)
    (hcalls : classifySpan lib raw ≠ .llmCall ∧ classifySpan lib raw ≠ .toolCall)
    (hnamed : Named raw) (hcounted : Counted lib raw) (hseen : StartSeen raw)
    (hmeasurable : Measurable lib raw) (fresh : String) :
    ∃ span, buildSpan lib fresh raw = .ok (span, s) := by
  have hbase (name : String) (hname : name ≠ "") :=
    baseOf_isOk hraw h hnamed hseen hmeasurable fresh hname
  obtain ⟨⟨span, d⟩, hbuilt⟩ : ∃ b, buildSpan lib fresh raw = .ok b := by
    unfold buildSpan
    split
    · next hkind => exact absurd hkind hcalls.1
    · next hkind => exact absurd hkind hcalls.2
    · next hkind =>
      obtain ⟨base, hbase, hvalid⟩ := hbase "retrieval" (by decide)
      exact buildRetrievalSpan_isOk (hcounted hkind) hbase hvalid
    · obtain ⟨base, hbase, hvalid⟩ := hbase "agent_turn" (by decide)
      exact buildAgentTurn_isOk hbase hvalid
    · obtain ⟨base, hbase, hvalid⟩ := hbase "custom" (by decide)
      exact buildCustom_isOk hbase hvalid
  obtain ⟨name, hread⟩ := (buildSpan_spec hbuilt).base
  obtain ⟨-, rfl⟩ := h.parseTime_startOf.mp (baseOf_eq_ok_iff.mp hread).1.2.2.2.1
  exact ⟨span, hbuilt⟩

end Build

/-! ### Tokens -/

/-! ### The loop -/

/-- The earliest and the latest of the starts that were read, which have one clock. -/
def Bounds (st : ImportState) (starts : List DateTime) : Prop :=
  starts = [] ∧ st.earliest = none ∧ st.latest = none ∨
    ∃ first ∈ starts, ∃ last ∈ starts, st.earliest = some first ∧ st.latest = some last ∧
      ∀ d ∈ starts, d.aware = first.aware ∧ first.micros ≤ d.micros ∧ d.micros ≤ last.micros

/-- What the loop has read of the spans that are done. -/
structure Loop (lib : Library) (done : List SpanDict) (built : List (Span × DateTime))
    (st : ImportState) : Prop where
  spans : List.Forall₂ (fun raw b => ∃ fresh, BuiltFrom lib fresh raw b.1 b.2) done built
  parsed : st.parsed = built.map Prod.fst
  bounds : Bounds st (built.map Prod.snd)

theorem keep_spec {st : ImportState} {starts : List DateTime} (h : Bounds st starts) (d : DateTime) :
    (∃ first last, keepEarliest st.earliest d = .ok first ∧ keepLatest st.latest d = .ok last ∧
        Bounds { st with earliest := some first, latest := some last } (starts ++ [d])) ∨
      (∃ d' ∈ starts, d.aware ≠ d'.aware) ∧ ∃ err, keepEarliest st.earliest d = .error err := by
  obtain ⟨rfl, hearliest, hlatest⟩ | ⟨first, hfirst, last, hlast, hearliest, hlatest, hall⟩ := h
  · rw [hearliest, hlatest]
    refine .inl ⟨d, d, rfl, rfl, .inr ⟨d, by simp, d, by simp, rfl, rfl, ?_⟩⟩
    simp
  · rw [hearliest, hlatest]
    have hclock : last.aware = first.aware := (hall last hlast).1
    by_cases haware : d.aware = first.aware
    · refine .inl ⟨if d.micros < first.micros then d else first,
        if last.micros < d.micros then d else last, ?_, ?_, .inr ?_⟩
      · simp [keepEarliest, before, haware, bind, Except.bind, pure, Except.pure]
      · simp [keepLatest, before, haware, hclock, bind, Except.bind, pure, Except.pure]
      · refine ⟨if d.micros < first.micros then d else first, ?_,
          if last.micros < d.micros then d else last, ?_, rfl, rfl, ?_⟩
        · split_ifs <;> simp [hfirst]
        · split_ifs <;> simp [hlast]
        · intro d' hd'
          have hends := (hall first hfirst).2.2
          rcases List.mem_append.mp hd' with hd' | hd'
          · obtain ⟨haware', hlow, hhigh⟩ := hall d' hd'
            split_ifs <;> refine ⟨by simp [haware, haware'], ?_, ?_⟩ <;> omega
          · obtain rfl := List.mem_singleton.mp hd'
            split_ifs <;> refine ⟨by simp [haware], ?_, ?_⟩ <;> omega
    · refine .inr ⟨⟨first, hfirst, haware⟩, .typeError, ?_⟩
      simp [keepEarliest, before, haware, bind, Except.bind]

namespace Loop
variable {world : World} {spans : List SpanDict} {built : List (Span × DateTime)}
  {st : ImportState}

/-- **One round** reads one more span. -/
theorem importSpan_spec {st' : ImportState} (h : Loop lib spans built st)
    (hstep : importSpan lib world st raw = .ok st') :
    ∃ b, Loop lib (spans ++ [raw]) (built ++ [b]) st' := by
  obtain ⟨⟨span, d⟩, hbuilt, hrest⟩ := bind_eq_ok.mp hstep
  obtain ⟨first, hfirst, hrest⟩ := bind_eq_ok.mp hrest
  obtain ⟨last, hlast, hrest⟩ := bind_eq_ok.mp hrest
  cases hrest
  refine ⟨(span, d), List.rel_append h.spans (.cons ⟨_, buildSpan_spec hbuilt⟩ .nil), ?_, ?_⟩
  · rw [h.parsed, List.map_append]
    rfl
  · obtain ⟨first', last', hfirst', hlast', hbounds⟩ | ⟨-, err, herr⟩ := keep_spec h.bounds d
    · cases hfirst.symm.trans hfirst'
      cases hlast.symm.trans hlast'
      rw [List.map_append]
      exact hbounds
    · cases hfirst.symm.trans herr

/-- **What the loop has read** when it is done. -/
theorem loop_spec (h : spans.foldlM (importSpan lib world) {} = .ok st) :
    ∃ built, Loop lib spans built st := by
  have hstart : ∃ built, Loop lib [] built {} := ⟨[], .nil, rfl, .inl ⟨rfl, rfl, rfl⟩⟩
  exact foldlM_prefix (P := fun done st => ∃ built, Loop lib done built st)
    (fun done raw s s' ⟨built, hloop⟩ hstep => by
      obtain ⟨b, hb⟩ := hloop.importSpan_spec hstep
      exact ⟨built ++ [b], hb⟩) hstart h

theorem importSpan_isOk {starts : List DateTime} (h : Bounds st starts) {span : Span} {d : DateTime}
    (hclock : ∀ d' ∈ starts, d.aware = d'.aware)
    (hbuilt : buildSpan lib (world.freshId st.parsed.length) raw = .ok (span, d)) :
    ∃ st', importSpan lib world st raw = .ok st' ∧ Bounds st' (starts ++ [d]) := by
  obtain ⟨first, last, hfirst, hlast, hkept⟩ | ⟨⟨d', hd', hne⟩, -⟩ := keep_spec h d
  · refine ⟨{ parsed := st.parsed ++ [span], earliest := first, latest := last }, ?_, hkept⟩
    unfold importSpan
    simp only [bind_eq_ok]
    exact ⟨_, hbuilt, first, hfirst, last, hlast, rfl⟩
  · exact absurd (hclock d' hd') hne

/-- **The loop does not raise** when every span builds and all have one clock. -/
theorem loop_isOk {clock : Bool} (h : ∀ raw ∈ spans, ∀ fresh, ∃ span d,
    buildSpan lib fresh raw = .ok (span, d) ∧ d.aware = clock) :
    ∃ st, spans.foldlM (importSpan lib world) {} = .ok st := by
  let I (st : ImportState) : Prop := ∃ starts, Bounds st starts ∧ ∀ d ∈ starts, d.aware = clock
  have hstart : I {} := ⟨[], .inl ⟨rfl, rfl, rfl⟩, fun d hd => nomatch hd⟩
  have hround : ∀ raw ∈ spans, ∀ st, I st →
      ∃ st', importSpan lib world st raw = .ok st' ∧ I st' := by
    intro raw hraw st ⟨starts, hbounds, hall⟩
    obtain ⟨span, d, hbuilt, hd⟩ := h raw hraw (world.freshId st.parsed.length)
    obtain ⟨st', hst', hbounds'⟩ :=
      importSpan_isOk hbounds (fun d' hd' => hd.trans (hall d' hd').symm) hbuilt
    refine ⟨st', hst', starts ++ [d], hbounds', fun d' hd' => ?_⟩
    rcases List.mem_append.mp hd' with hd' | hd'
    · exact hall d' hd'
    · obtain rfl := List.mem_singleton.mp hd'
      exact hd
  obtain ⟨st, hst, -⟩ := foldlM_of_inv hround hstart
  exact ⟨st, hst⟩

end Loop

/-! ### Spans and dicts -/

theorem linkToolUseIds_of_none {spans : List Span} (h : ∀ span ∈ spans, span.toolUseId? = none) :
    linkToolUseIds spans = .ok spans := by
  have hround : ∀ idx ∈ List.range spans.length, ∀ st, st = start spans →
      ∃ st', linkAt spans st idx = .ok st' ∧ st' = start spans := by
    rintro idx - st rfl
    refine ⟨start spans, ?_, rfl⟩
    unfold linkAt
    split
    · next tool htool =>
      have hnone : tool.toolUseId = none := h _ (List.mem_of_getElem? htool)
      rw [hnone]
    · rfl
  obtain ⟨st, hst, rfl⟩ := foldlM_of_inv hround rfl
  rw [linkToolUseIds, hst]
  rfl

theorem textField_eq_ok {v : Json} {text : String} (h : textField v = .ok text) : v = .str text := by
  cases v with
  | str s => exact congrArg Json.str (Except.ok.inj h)
  | _ => cases h

theorem optTextField_eq_ok {v : Json} {text : Option String} (h : optTextField v = .ok text) :
    v = (text.map Json.str).getD .null := by
  cases v with
  | null =>
    cases h
    rfl
  | str s =>
    cases h
    rfl
  | _ => cases h

namespace BuiltFrom
variable {fresh : String} {span : Span} {d : DateTime}

theorem times (h : BuiltFrom lib fresh raw span d) (ht : Times lib raw s e) :
    d = s ∧ StartSeen raw ∧ Measurable lib raw ∧ span.base.startedAt = s.micros := by
  obtain ⟨name, hbase⟩ := h.base
  obtain ⟨⟨-, -, -, hstart, hduration⟩, hmicros⟩ := baseOf_eq_ok_iff.mp hbase
  obtain ⟨hseen, rfl⟩ := ht.parseTime_startOf.mp hstart
  exact ⟨rfl, hseen, (ht.durationMs_isOk_iff hseen).mp ⟨_, hduration⟩, hmicros⟩

theorem named (h : BuiltFrom lib fresh raw span d) : Named raw := by
  obtain ⟨name, hbase⟩ := h.base
  obtain ⟨⟨-, -, hname, -, -⟩, -⟩ := baseOf_eq_ok_iff.mp hbase
  intro v hv
  rw [Option.mem_def.mp hv] at hname
  exact ⟨span.base.name, h.valid.1.2.2, textField_eq_ok hname⟩

/-- **A span that was built** is the exported one. -/
theorem corresponds (h : BuiltFrom lib fresh raw span d) (hraw : Identified raw)
    (ht : Times lib raw s e) : Corresponds lib raw span := by
  obtain ⟨name, hbase⟩ := h.base
  obtain ⟨⟨hid, hparent, -, -, -⟩, -⟩ := baseOf_eq_ok_iff.mp hbase
  obtain ⟨id, hne, hspanId⟩ := hraw.id
  refine ⟨?_, optTextField_eq_ok hparent, h.kind, fun s' hs' => ?_⟩
  · rw [hspanId, Json.orElse, if_pos (by simpa [Json.truthy] using hne), ← hspanId] at hid
    exact textField_eq_ok hid
  · obtain rfl : s' = s := Except.ok.inj (hs'.symm.trans ht.start)
    exact (h.times ht).2.2.2

theorem toolUseId?_eq_none (h : BuiltFrom lib fresh raw span d)
    (hnone : ∀ key ∈ callIdKeys, dictGet raw.attributes key = .null) : span.toolUseId? = none := by
  obtain hnone' | hread := h.toolUse
  · exact hnone'
  · have hnull : getOr raw.attributes "openinference.tool.call_id" "tool.call_id" = .null := by
      rw [getOr, hnone _ (by simp [callIdKeys]), hnone _ (by simp [callIdKeys])]
      rfl
    rw [hnull] at hread
    exact (Except.ok.inj hread).symm

end BuiltFrom

namespace Exported
variable {spans : List SpanDict}

theorem identified (h : Exported lib spans) (hraw : raw ∈ spans) : Identified raw := by
  refine ⟨h.ids raw hraw, (h.parents raw hraw).imp_right fun hmem => ?_⟩
  obtain ⟨parent, hparent, heq⟩ := List.mem_map.mp hmem
  obtain ⟨id, hid, hspanId⟩ := h.ids parent hparent
  exact ⟨id, hid, heq.symm.trans hspanId⟩

end Exported

theorem Loop.mem_starts {spans : List SpanDict} {built : List (Span × DateTime)} {st : ImportState}
    (h : Loop lib spans built st) (hexported : Exported lib spans) :
    s ∈ built.map Prod.snd ↔ ∃ raw ∈ spans, ∃ e, Times lib raw s e := by
  rw [List.mem_map]
  constructor
  · rintro ⟨b, hb, rfl⟩
    obtain ⟨raw, hraw, fresh, hbuilt⟩ := exists_mem_of_forall₂ h.spans.flip hb
    obtain ⟨s, e, ht⟩ := hexported.times raw hraw
    obtain ⟨rfl, -⟩ := hbuilt.times ht
    exact ⟨raw, hraw, e, ht⟩
  · rintro ⟨raw, hraw, e, ht⟩
    obtain ⟨b, hb, fresh, hbuilt⟩ := exists_mem_of_forall₂ h.spans hraw
    exact ⟨b, hb, (hbuilt.times ht).1⟩

end Selfevals.Trace.OtelImportLaws
