import Selfevals.Runner.OtlpToRecorder

/-!
# A run whose agent exports spans

`recordRun` is what one invocation leaves in its recorder: the spans that are exported while the
agent runs, the adapter's response, written as one model call with a span for each tool use, the
turn around them, and the spans that come in late; `runSingle` builds the trace. The recorder's own
span ids are fresh and start with `sp_`, so they are never those of exported spans.
-/

namespace Selfevals.Runner.OtlpRuns

open Lib.Result Schemas.Enums Trace.Recorder Runner.OtlpToRecorder

/-! ### The response of an adapter -/

/-- A tool use that a response reports. -/
structure AdapterToolUse where
  tool : String
  toolUseId : String
deriving DecidableEq, Repr

/-- What an adapter answers, as far as spans are made of it. -/
structure AdapterResponse where
  toolUses : List AdapterToolUse := []
  tokensInput : ℤ := 0
  tokensOutput : ℤ := 0
  tokensReasoning : ℤ := 0
  tokensCacheRead : ℤ := 0
  tokensCacheCreation : ℤ := 0
  costUsd : ℚ := 0
deriving DecidableEq, Repr

/-- What is known of the agent: what its declared model would charge for some tokens, if it is
priced. -/
structure AgentAdapter where
  estimateCost : TokenBreakdown → Option NNRat

/-- The ids that `_new_span_id` makes. -/
structure SpanIds where
  id : ℕ → String
  injective : Function.Injective id
  prefixed : ∀ n, ∃ rest, id n = "sp_" ++ rest

/-- `add_tokens`, with what the response reports. -/
def responseTokens (response : AdapterResponse) : Except TraceError TokenBreakdown :=
  newTokenBreakdown response.tokensInput response.tokensCacheRead response.tokensCacheCreation
    response.tokensOutput response.tokensReasoning
    (response.tokensInput + response.tokensCacheRead + response.tokensCacheCreation +
      response.tokensOutput + response.tokensReasoning)

/-- `cost_for`: what the response reports, or else what the model is priced at. -/
def costFor (adapter : AgentAdapter) (response : AdapterResponse) (tokens : TokenBreakdown) :
    Option NNRat :=
  if 0 < response.costUsd then some response.costUsd.toNNRat else adapter.estimateCost tokens

/-- `ToolUseRequest`, of which the id is kept. -/
def toolUseRequest (tu : AdapterToolUse) : Except TraceError String :=
  if tu.tool = "" then .error (.emptyField "tool")
  else if tu.toolUseId = "" then .error (.emptyField "tool_use_id")
  else .ok tu.toolUseId

def toolUseRequests (response : AdapterResponse) : Except TraceError (List String) :=
  response.toolUses.mapM toolUseRequest

section Response
variable (ids : SpanIds) (adapter : AgentAdapter)

/-- `_write_tool_spans`; the next fresh id is the one of number `n`. -/
def writeToolSpans (r : TraceRecorder) (n : ℕ) : List AdapterToolUse → TraceRecorder
  | [] => r
  | tu :: rest => writeToolSpans (r.toolCall (ids.id n) (some tu.toolUseId)) (n + 1) rest

/-- `record_adapter_response`. -/
def recordAdapterResponse (response : AdapterResponse) (agentEmittedSpans : Bool)
    (r : TraceRecorder) : Except TraceError TraceRecorder :=
  if agentEmittedSpans then .ok r
  else do
    let tokens ← responseTokens response
    let toolUseRequested ← toolUseRequests response
    let costUsd := (costFor adapter response tokens).getD 0
    return writeToolSpans ids (r.llmCall (ids.id 1) { tokens, costUsd, toolUseRequested }) 2
      response.toolUses

/-- What an invocation leaves in its recorder: the spans exported `before` the agent returns are fed
as they come, `late` ones when the receiver is unbound. An agent that exports its spans emits none
itself. -/
def recordRun (response : AdapterResponse) (before late : List DecodedSpan) :
    Except TraceError TraceRecorder := do
  let r ← feedToRecorder before (({} : TraceRecorder).enterTurn (ids.id 0))
  let r ← recordAdapterResponse ids adapter response false r
  feedToRecorder late (r.exitTurn (ids.id 0))

/-- `run_single`, of an invocation that returns. -/
def runSingle (response : AdapterResponse) (before late : List DecodedSpan) :
    Except TraceError BuiltTrace := do
  let r ← recordRun ids adapter response before late
  r.build

end Response

/-! ### What is recorded -/

/-- The response can be recorded: it counts no tokens below zero, and its tool uses are named. -/
def Recordable (response : AdapterResponse) : Prop :=
  (0 ≤ response.tokensInput ∧ 0 ≤ response.tokensCacheRead ∧ 0 ≤ response.tokensCacheCreation ∧
      0 ≤ response.tokensOutput ∧ 0 ≤ response.tokensReasoning) ∧
    ∀ tu ∈ response.toolUses, tu.tool ≠ "" ∧ tu.toolUseId ≠ ""
deriving Decidable

theorem exists_responseTokens_iff (response : AdapterResponse) :
    (∃ tokens, responseTokens response = .ok tokens) ↔
      0 ≤ response.tokensInput ∧ 0 ≤ response.tokensCacheRead ∧ 0 ≤ response.tokensCacheCreation ∧
        0 ≤ response.tokensOutput ∧ 0 ≤ response.tokensReasoning := by
  unfold responseTokens newTokenBreakdown
  constructor
  · rintro ⟨tokens, h⟩
    split_ifs at h with hpos
    exact ⟨hpos.1, hpos.2.1, hpos.2.2.1, hpos.2.2.2.1, hpos.2.2.2.2.1⟩
  · rintro ⟨h1, h2, h3, h4, h5⟩
    rw [if_pos ⟨h1, h2, h3, h4, h5, by omega⟩]
    dsimp only
    rw [dif_pos (by omega)]
    exact ⟨_, rfl⟩

theorem toolUseRequest_eq_ok {tu : AdapterToolUse} {requested : String} :
    toolUseRequest tu = .ok requested ↔
      (tu.tool ≠ "" ∧ tu.toolUseId ≠ "") ∧ requested = tu.toolUseId := by
  unfold toolUseRequest
  split_ifs with htool hid
  · simp [htool]
  · simp [hid]
  · simp [htool, hid, eq_comm]

theorem toolUseRequests_eq_ok {response : AdapterResponse} {requested : List String} :
    toolUseRequests response = .ok requested ↔
      (∀ tu ∈ response.toolUses, tu.tool ≠ "" ∧ tu.toolUseId ≠ "") ∧
        requested = response.toolUses.map (·.toolUseId) := by
  unfold toolUseRequests
  induction response.toolUses generalizing requested with
  | nil =>
    rw [List.mapM_nil]
    exact ⟨fun h => ⟨fun tu htu => absurd htu List.not_mem_nil, (Except.ok.inj h).symm⟩,
      fun h => congrArg Except.ok h.2.symm⟩
  | cons tu rest ih =>
    rw [List.mapM_cons, List.forall_mem_cons, List.map_cons]
    constructor
    · intro h
      obtain ⟨first, hfirst, h⟩ := bind_eq_ok.mp h
      obtain ⟨others, hothers, h⟩ := bind_eq_ok.mp h
      obtain rfl := Except.ok.inj h
      obtain ⟨hnamed, rfl⟩ := toolUseRequest_eq_ok.mp hfirst
      obtain ⟨hrest, rfl⟩ := ih.mp hothers
      exact ⟨⟨hnamed, hrest⟩, rfl⟩
    · rintro ⟨⟨hnamed, hrest⟩, rfl⟩
      exact bind_eq_ok.mpr ⟨_, toolUseRequest_eq_ok.mpr ⟨hnamed, rfl⟩,
        bind_eq_ok.mpr ⟨_, ih.mpr ⟨hrest, rfl⟩, rfl⟩⟩

/-- The spans of the tool uses. -/
def toolSpans (ids : SpanIds) (parentId : Option String) (n : ℕ) : List AdapterToolUse → List Span
  | [] => []
  | tu :: rest =>
    { id := ids.id n, parentId, body := .toolCall (some tu.toolUseId) } ::
      toolSpans ids parentId (n + 1) rest

/-- The spans that the recorder makes itself: the response, its tool uses and the turn around them.
-/
def ownSpans (ids : SpanIds) (response : AdapterResponse) (call : LLMCall) : List Span :=
  { id := ids.id 1, parentId := some (ids.id 0), body := .llmCall call } ::
    (toolSpans ids (some (ids.id 0)) 2 response.toolUses ++
      [{ id := ids.id 0, body := .agentTurn }])

/-- The list of built spans, one for each exported. -/
def BuiltList (exported : List DecodedSpan) (built : List Span) : Prop :=
  List.Forall₂ (fun d s => buildSpan d = .ok s) exported built

section Recorded
variable {ids : SpanIds} {adapter : AgentAdapter} {response : AdapterResponse} {uncounted : ℕ}
  {r r' : TraceRecorder}

theorem writeToolSpans_spec (n : ℕ) (uses : List AdapterToolUse) :
    (writeToolSpans ids r n uses).spans = r.spans ++ toolSpans ids r.currentParent n uses ∧
      (writeToolSpans ids r n uses).openParents = r.openParents ∧
        (r.Tallied uncounted → (writeToolSpans ids r n uses).Tallied uncounted) := by
  induction uses generalizing r n with
  | nil => exact ⟨(List.append_nil _).symm, rfl, id⟩
  | cons tu rest ih =>
    obtain ⟨hspans, hopen, htally⟩ := ih (r := r.toolCall (ids.id n) (some tu.toolUseId)) (n + 1)
    refine ⟨?_, hopen, fun h => htally (h.toolCall _ _)⟩
    rw [writeToolSpans, hspans, toolSpans]
    show r.spans ++ [_] ++ toolSpans ids r.currentParent (n + 1) rest = _
    rw [List.append_assoc, List.singleton_append]

/-- **What a recorded response leaves**: one model call, and a span for each tool use. -/
theorem recordAdapterResponse_spec
    (h : recordAdapterResponse ids adapter response false r = .ok r') :
    Recordable response ∧ ∃ call : LLMCall,
      call.toolUseRequested = response.toolUses.map (·.toolUseId) ∧
      r'.spans = r.spans ++
        { id := ids.id 1, parentId := r.currentParent, body := .llmCall call } ::
        toolSpans ids r.currentParent 2 response.toolUses ∧
      r'.openParents = r.openParents ∧ (r.Tallied uncounted → r'.Tallied uncounted) := by
  unfold recordAdapterResponse at h
  rw [if_neg Bool.false_ne_true] at h
  obtain ⟨tokens, htokens, h⟩ := bind_eq_ok.mp h
  obtain ⟨requested, hrequested, h⟩ := bind_eq_ok.mp h
  obtain rfl := Except.ok.inj h
  obtain ⟨hnamed, rfl⟩ := toolUseRequests_eq_ok.mp hrequested
  refine ⟨⟨(exists_responseTokens_iff response).mp ⟨tokens, htokens⟩, hnamed⟩, ?_⟩
  let call : LLMCall := {
    tokens
    costUsd := (costFor adapter response tokens).getD 0
    toolUseRequested := response.toolUses.map (·.toolUseId) }
  obtain ⟨hspans, hopen, htally⟩ := writeToolSpans_spec
    (r := r.llmCall (ids.id 1) call) 2 response.toolUses
  refine ⟨call, rfl, ?_, hopen, fun h => htally (h.llmCall _ _)⟩
  rw [hspans]
  show r.spans ++ [_] ++ toolSpans ids r.currentParent 2 response.toolUses = _
  rw [List.append_assoc, List.singleton_append]

theorem exists_recordAdapterResponse (h : Recordable response) :
    ∃ r', recordAdapterResponse ids adapter response false r = .ok r' := by
  obtain ⟨tokens, htokens⟩ := (exists_responseTokens_iff response).mpr h.1
  have hrequested := toolUseRequests_eq_ok.mpr ⟨h.2, rfl⟩
  unfold recordAdapterResponse
  rw [if_neg Bool.false_ne_true, htokens, hrequested]
  exact ⟨_, rfl⟩

variable {before late : List DecodedSpan}

/-- **What a run leaves in its recorder**: its own spans between what was fed, with the exported
tool calls uncounted. -/
theorem recordRun_spec (h : recordRun ids adapter response before late = .ok r) :
    ∃ (call : LLMCall) (fed fedLate : List Span),
      call.toolUseRequested = response.toolUses.map (·.toolUseId) ∧
      BuiltList before fed ∧ BuiltList late fedLate ∧
      r.spans = fed ++ (ownSpans ids response call ++ fedLate) ∧
      r.Tallied (toolCallsIn before + toolCallsIn late) := by
  obtain ⟨r₁, hbefore, h⟩ := bind_eq_ok.mp h
  obtain ⟨r₂, hresponse, hlate⟩ := bind_eq_ok.mp h
  obtain ⟨fed, hfed, hspans₁, hopen₁, htally₁⟩ := feedToRecorder_spec hbefore
  obtain ⟨-, call, hcall, hspans₂, hopen₂, htally₂⟩ := recordAdapterResponse_spec hresponse
  obtain ⟨fedLate, hfedLate, hspans₃, -, htally₃⟩ := feedToRecorder_spec hlate
  refine ⟨call, fed, fedLate, hcall, hfed, hfedLate, ?_, ?_⟩
  · have hparent : r₁.currentParent = some (ids.id 0) := by
      rw [TraceRecorder.currentParent, hopen₁]
      rfl
    have hturn : (r₂.exitTurn (ids.id 0)).spans =
        r₂.spans ++ [{ id := ids.id 0, parentId := none, body := .agentTurn }] := by
      show r₂.spans ++ [{ id := ids.id 0, parentId := r₂.openParents.tail.head?, body := _ }] = _
      rw [hopen₂, hopen₁]
      rfl
    have hnew : (({} : TraceRecorder).enterTurn (ids.id 0)).spans = [] := rfl
    rw [hspans₃, hturn, hspans₂, hspans₁, hparent, hnew, ownSpans]
    simp only [List.nil_append, List.append_assoc, List.cons_append]
  · have hnew : (({} : TraceRecorder).enterTurn (ids.id 0)).Tallied 0 :=
      (TraceRecorder.tallied_new []).enterTurn _
    have hfirst := htally₁ hnew
    rw [Nat.zero_add] at hfirst
    exact htally₃ ((htally₂ hfirst).exitTurn _)

/-- **A run is recorded** when its response can be and every exported span builds. -/
theorem exists_recordRun_iff : (∃ r, recordRun ids adapter response before late = .ok r) ↔
    Recordable response ∧ ∀ d ∈ before ++ late, Builds d := by
  rw [List.forall_mem_append]
  constructor
  · rintro ⟨r, h⟩
    obtain ⟨r₁, hbefore, h⟩ := bind_eq_ok.mp h
    obtain ⟨r₂, hresponse, hlate⟩ := bind_eq_ok.mp h
    -- nothing is asked here of what is left uncounted
    obtain ⟨hrecordable, -⟩ := @recordAdapterResponse_spec ids adapter response 0 _ _ hresponse
    exact ⟨hrecordable, exists_feedToRecorder_iff.mp ⟨r₁, hbefore⟩,
      exists_feedToRecorder_iff.mp ⟨r, hlate⟩⟩
  · rintro ⟨hresponse, hbefore, hlate⟩
    obtain ⟨r₁, h₁⟩ := exists_feedToRecorder_iff.mpr hbefore
    obtain ⟨r₂, h₂⟩ := exists_recordAdapterResponse (r := r₁) hresponse
    obtain ⟨r, h⟩ := exists_feedToRecorder_iff.mpr hlate
    exact ⟨r, bind_eq_ok.mpr ⟨r₁, h₁, bind_eq_ok.mpr ⟨r₂, h₂, h⟩⟩⟩

end Recorded

/-! ### When the trace is built -/

section Own
variable {ids : SpanIds} {response : AdapterResponse} {call : LLMCall}

theorem mem_toolSpans {parentId : Option String} {n : ℕ} {uses : List AdapterToolUse} {s : Span}
    (h : s ∈ toolSpans ids parentId n uses) :
    (∃ k, n ≤ k ∧ s.id = ids.id k) ∧ s.parentId = parentId ∧
      ∃ tu ∈ uses, s.body = .toolCall (some tu.toolUseId) := by
  induction uses generalizing n with
  | nil => cases h
  | cons tu rest ih =>
    rcases List.mem_cons.mp h with rfl | h
    · exact ⟨⟨n, le_rfl, rfl⟩, rfl, tu, List.mem_cons_self, rfl⟩
    · obtain ⟨⟨k, hk, hid⟩, hparent, tu', htu', hbody⟩ := ih h
      exact ⟨⟨k, by omega, hid⟩, hparent, tu', List.mem_cons_of_mem _ htu', hbody⟩

theorem nodup_toolSpans (parentId : Option String) (n : ℕ) (uses : List AdapterToolUse) :
    ((toolSpans ids parentId n uses).map (·.id)).Nodup := by
  induction uses generalizing n with
  | nil => exact List.nodup_nil
  | cons tu rest ih =>
    rw [toolSpans, List.map_cons, List.nodup_cons]
    refine ⟨fun hmem => ?_, ih (n + 1)⟩
    obtain ⟨s, hs, hid⟩ := List.mem_map.mp hmem
    obtain ⟨⟨k, hk, hsid⟩, -⟩ := mem_toolSpans hs
    have := ids.injective (hsid.symm.trans hid)
    omega

theorem mem_ownSpans {s : Span} : s ∈ ownSpans ids response call ↔
    s = { id := ids.id 1, parentId := some (ids.id 0), body := .llmCall call } ∨
      s ∈ toolSpans ids (some (ids.id 0)) 2 response.toolUses ∨
      s = { id := ids.id 0, body := .agentTurn } := by
  rw [ownSpans, List.mem_cons, List.mem_append, List.mem_singleton]

theorem exists_id_of_mem_ownSpans {s : Span} (h : s ∈ ownSpans ids response call) :
    ∃ n, s.id = ids.id n := by
  rcases mem_ownSpans.mp h with rfl | h | rfl
  · exact ⟨1, rfl⟩
  · obtain ⟨⟨k, -, hid⟩, -⟩ := mem_toolSpans h
    exact ⟨k, hid⟩
  · exact ⟨0, rfl⟩

theorem nodup_ownSpans : ((ownSpans ids response call).map (·.id)).Nodup := by
  have hfresh : ∀ n < 2, ids.id n ∉
      (toolSpans ids (some (ids.id 0)) 2 response.toolUses).map (·.id) := by
    intro n hn hmem
    obtain ⟨s, hs, hid⟩ := List.mem_map.mp hmem
    obtain ⟨⟨k, hk, hsid⟩, -⟩ := mem_toolSpans hs
    have := ids.injective (hsid.symm.trans hid)
    omega
  have hne : ids.id 1 ≠ ids.id 0 := fun h => absurd (ids.injective h) (by decide)
  rw [ownSpans, List.map_cons, List.map_append, List.map_singleton, List.nodup_cons,
    List.nodup_append]
  refine ⟨?_, nodup_toolSpans _ _ _, List.nodup_singleton _, ?_⟩
  · rw [List.mem_append, List.mem_singleton]
    rintro (hmem | hmem)
    · exact hfresh 1 (by decide) hmem
    · exact hne hmem
  · rintro id hid _ hturn rfl
    have hzero : id = ids.id 0 := List.mem_singleton.mp hturn
    exact hfresh 0 (by decide) (hzero ▸ hid)

theorem parentId_of_mem_ownSpans {s : Span} (h : s ∈ ownSpans ids response call) {parent : String}
    (hparent : parent ∈ s.parentId) : parent ∈ (ownSpans ids response call).map (·.id) := by
  have hturn : ids.id 0 ∈ (ownSpans ids response call).map (·.id) :=
    List.mem_map.mpr ⟨_, mem_ownSpans.mpr (.inr (.inr rfl)), rfl⟩
  rcases mem_ownSpans.mp h with rfl | h | rfl
  · exact Option.mem_some_iff.mp hparent ▸ hturn
  · obtain ⟨-, hs, -⟩ := mem_toolSpans h
    rw [hs] at hparent
    exact Option.mem_some_iff.mp hparent ▸ hturn
  · cases hparent

theorem mem_requested_ownSpans (hcall : call.toolUseRequested = response.toolUses.map (·.toolUseId))
    {toolUseId : String} :
    toolUseId ∈ (ownSpans ids response call).flatMap (·.toolUseRequested) ↔
      toolUseId ∈ response.toolUses.map (·.toolUseId) := by
  rw [List.mem_flatMap, ← hcall]
  constructor
  · rintro ⟨s, hs, hmem⟩
    rcases mem_ownSpans.mp hs with rfl | hs | rfl
    · exact hmem
    · obtain ⟨-, -, tu, -, hbody⟩ := mem_toolSpans hs
      rw [Span.toolUseRequested, Span.llmCall?, hbody] at hmem
      cases hmem
    · cases hmem
  · intro hmem
    exact ⟨_, mem_ownSpans.mpr (.inl rfl), hmem⟩

theorem toolUseId_of_mem_ownSpans {s : Span} (h : s ∈ ownSpans ids response call)
    {toolUseId : String} (hid : toolUseId ∈ s.toolUseId?) :
    toolUseId ∈ response.toolUses.map (·.toolUseId) := by
  rcases mem_ownSpans.mp h with rfl | h | rfl
  · cases hid
  · obtain ⟨-, -, tu, htu, hbody⟩ := mem_toolSpans h
    rw [Span.toolUseId?, hbody] at hid
    exact Option.mem_some_iff.mp hid ▸ List.mem_map_of_mem htu
  · cases hid

theorem ne_id_of_hex {id : String} (hhex : ∀ c ∈ id.toList, c ∈ "0123456789abcdef".toList) (n : ℕ) :
    id ≠ ids.id n := by
  rintro rfl
  obtain ⟨rest, hrest⟩ := ids.prefixed n
  have hs : 's' ∈ (ids.id n).toList := by
    rw [hrest, String.toList_append]
    exact List.mem_append_left _ (by decide)
  exact absurd (hhex 's' hs) (by decide)

end Own

section Built
variable {exported : List DecodedSpan} {built : List Span} (h : BuiltList exported built)
include h

theorem ids_of_builtList : built.map (·.id) = exported.map (·.spanId) := by
  induction h with
  | nil => rfl
  | cons hd _ ih => rw [List.map_cons, List.map_cons, ih, (buildSpan_spec hd).id]

theorem exists_exported {s : Span} (hs : s ∈ built) : ∃ d ∈ exported, buildSpan d = .ok s := by
  induction h with
  | nil => cases hs
  | cons hd _ ih =>
    rcases List.mem_cons.mp hs with rfl | hs
    · exact ⟨_, List.mem_cons_self, hd⟩
    · obtain ⟨d, hmem, hbuilt⟩ := ih hs
      exact ⟨d, List.mem_cons_of_mem _ hmem, hbuilt⟩

theorem exists_built {d : DecodedSpan} (hd : d ∈ exported) : ∃ s ∈ built, buildSpan d = .ok s := by
  induction h with
  | nil => cases hd
  | cons hfirst _ ih =>
    rcases List.mem_cons.mp hd with rfl | hd
    · exact ⟨_, List.mem_cons_self, hfirst⟩
    · obtain ⟨s, hmem, hbuilt⟩ := ih hd
      exact ⟨s, List.mem_cons_of_mem _ hmem, hbuilt⟩

theorem requested_of_mem_built {s : Span} (hs : s ∈ built) : s.toolUseRequested = [] := by
  obtain ⟨d, -, hd⟩ := exists_exported h hs
  exact (buildSpan_spec hd).toolUseRequested

variable {ids : SpanIds} {response : AdapterResponse} {call : LLMCall} {spans : List Span}
  (hspans : spans.Perm (ownSpans ids response call ++ built))
include hspans

omit h in
theorem mem_spans {s : Span} : s ∈ spans ↔ s ∈ ownSpans ids response call ∨ s ∈ built := by
  rw [hspans.mem_iff, List.mem_append]

theorem mem_ids {id : String} : id ∈ spans.map (·.id) ↔
    id ∈ (ownSpans ids response call).map (·.id) ∨ id ∈ exported.map (·.spanId) := by
  rw [(hspans.map _).mem_iff, List.map_append, List.mem_append, ids_of_builtList h]

theorem nodup_spans_iff : (spans.map (·.id)).Nodup ↔ (exported.map (·.spanId)).Nodup := by
  rw [(hspans.map _).nodup_iff, List.map_append, ids_of_builtList h, List.nodup_append]
  refine ⟨fun hnodup => hnodup.2.1, fun hnodup => ⟨nodup_ownSpans, hnodup, ?_⟩⟩
  rintro id hown _ hexported rfl
  obtain ⟨s, hs, rfl⟩ := List.mem_map.mp hown
  obtain ⟨n, hn⟩ := exists_id_of_mem_ownSpans hs
  obtain ⟨d, -, hd⟩ := List.mem_map.mp hexported
  exact ne_id_of_hex d.spanId_hex n (hd.trans hn)

theorem parentIdsExist_iff : ParentIdsExist spans ↔
    ∀ d ∈ exported, ∀ parent ∈ d.parentSpanId, parent ∈ exported.map (·.spanId) := by
  constructor
  · intro hparents d hd parent hparent
    obtain ⟨s, hs, hbuilt⟩ := exists_built h hd
    have hmem := hparents s ((mem_spans hspans).mpr (.inr hs)) parent
      ((buildSpan_spec hbuilt).parentId ▸ hparent)
    rcases (mem_ids h hspans).mp hmem with hown | hexported
    · obtain ⟨own, howns, hid⟩ := List.mem_map.mp hown
      obtain ⟨n, hn⟩ := exists_id_of_mem_ownSpans howns
      exact absurd (hid.symm.trans hn) (ne_id_of_hex (d.parentSpanId_hex parent hparent) n)
    · exact hexported
  · intro hparents s hs parent hparent
    refine (mem_ids h hspans).mpr ?_
    rcases (mem_spans hspans).mp hs with hown | hbuilt
    · exact .inl (parentId_of_mem_ownSpans hown hparent)
    · obtain ⟨d, hd, hbuild⟩ := exists_exported h hbuilt
      exact .inr (hparents d hd parent ((buildSpan_spec hbuild).parentId ▸ hparent))

theorem toolUseIdsLinked_iff
    (hcall : call.toolUseRequested = response.toolUses.map (·.toolUseId)) :
    ToolUseIdsLinked spans ↔
      ∀ s ∈ built, ∀ toolUseId ∈ s.toolUseId?, toolUseId ∈ response.toolUses.map (·.toolUseId) := by
  have hrequested : ∀ toolUseId, toolUseId ∈ spans.flatMap (·.toolUseRequested) ↔
      toolUseId ∈ response.toolUses.map (·.toolUseId) := by
    intro toolUseId
    rw [← mem_requested_ownSpans hcall, List.mem_flatMap, List.mem_flatMap]
    constructor
    · rintro ⟨s, hs, hmem⟩
      rcases (mem_spans hspans).mp hs with hown | hbuilt
      · exact ⟨s, hown, hmem⟩
      · rw [requested_of_mem_built h hbuilt] at hmem
        cases hmem
    · rintro ⟨s, hs, hmem⟩
      exact ⟨s, (mem_spans hspans).mpr (.inl hs), hmem⟩
  unfold ToolUseIdsLinked
  simp only [hrequested]
  constructor
  · exact fun hlinked s hs => hlinked s ((mem_spans hspans).mpr (.inr hs))
  · intro hlinked s hs toolUseId hid
    rcases (mem_spans hspans).mp hs with hown | hbuilt
    · exact toolUseId_of_mem_ownSpans hown hid
    · exact hlinked s hbuilt toolUseId hid

end Built

/-! ### Sound runs -/

/-- The trace is built, its totals are the sums over its spans, and no model call is there twice:
the span of the response, which sums the calls up, is the only one. -/
def RunSound (ids : SpanIds) (result : Except TraceError BuiltTrace) : Prop :=
  ∃ trace, result = .ok trace ∧ trace.metrics = metricsOf trace.spans ∧
    ∀ s ∈ trace.spans, s.isLLMCall → s.id = ids.id 1

/-- An export that does no harm. -/
structure Benign (exported : List DecodedSpan) : Prop where
  distinct : (exported.map (·.spanId)).Nodup
  builds : ∀ d ∈ exported, Builds d
  parents : ∀ d ∈ exported, ∀ parent ∈ d.parentSpanId, parent ∈ exported.map (·.spanId)
  noToolCall : ∀ d ∈ exported, classifySpan d ≠ .toolCall
  noLLMCall : ∀ d ∈ exported, classifySpan d ≠ .llmCall

theorem toolCallsIn_eq_zero {spans : List DecodedSpan} :
    toolCallsIn spans = 0 ↔ ∀ d ∈ spans, classifySpan d ≠ .toolCall := by
  simp [toolCallsIn, List.countP_eq_zero]

section Runs
variable (ids : SpanIds) (adapter : AgentAdapter) (response : AdapterResponse)
  (before late : List DecodedSpan)

theorem recorded_perm {r : TraceRecorder} (h : recordRun ids adapter response before late = .ok r) :
    ∃ (call : LLMCall) (built : List Span),
      call.toolUseRequested = response.toolUses.map (·.toolUseId) ∧
      BuiltList (before ++ late) built ∧ r.spans.Perm (ownSpans ids response call ++ built) ∧
      r.Tallied (toolCallsIn (before ++ late)) := by
  obtain ⟨call, fed, fedLate, hcall, hfed, hfedLate, hspans, htally⟩ := recordRun_spec h
  refine ⟨call, fed ++ fedLate, hcall, List.rel_append hfed hfedLate, ?_, ?_⟩
  · rw [hspans, ← List.append_assoc, ← List.append_assoc]
    exact List.perm_append_comm.append_right fedLate
  · rw [toolCallsIn, List.countP_append]
    exact htally

/-- **When the trace is built**: the response is recordable, every exported span builds, their ids
are distinct, their parents are exported too, and their tool calls answer to tool uses of the
response. -/
theorem exists_build_iff :
    (∃ trace, runSingle ids adapter response before late = .ok trace) ↔
      Recordable response ∧ (∀ d ∈ before ++ late, Builds d) ∧
      ((before ++ late).map (·.spanId)).Nodup ∧
      (∀ d ∈ before ++ late, ∀ parent ∈ d.parentSpanId,
        parent ∈ (before ++ late).map (·.spanId)) ∧
      ∀ d ∈ before ++ late, ∀ s, buildSpan d = .ok s → ∀ toolUseId ∈ s.toolUseId?,
        toolUseId ∈ response.toolUses.map (·.toolUseId) := by
  constructor
  · rintro ⟨trace, h⟩
    obtain ⟨r, hr, hbuild⟩ := bind_eq_ok.mp h
    obtain ⟨hresponse, hbuilds⟩ := exists_recordRun_iff.mp ⟨r, hr⟩
    obtain ⟨call, built, hcall, hbuilt, hspans, -⟩ :=
      recorded_perm ids adapter response before late hr
    obtain ⟨hids, hparents, hlinked⟩ := TraceRecorder.exists_build_iff.mp ⟨trace, hbuild⟩
    refine ⟨hresponse, hbuilds, (nodup_spans_iff hbuilt hspans).mp hids,
      (parentIdsExist_iff hbuilt hspans).mp hparents, fun d hd s hs => ?_⟩
    obtain ⟨s', hmem, hs'⟩ := exists_built hbuilt hd
    obtain rfl := Except.ok.inj (hs.symm.trans hs')
    exact (toolUseIdsLinked_iff hbuilt hspans hcall).mp hlinked s hmem
  · rintro ⟨hresponse, hbuilds, hids, hparents, hlinked⟩
    obtain ⟨r, hr⟩ := exists_recordRun_iff.mpr ⟨hresponse, hbuilds⟩
    obtain ⟨call, built, hcall, hbuilt, hspans, -⟩ :=
      recorded_perm ids adapter response before late hr
    obtain ⟨trace, hbuild⟩ := TraceRecorder.exists_build_iff.mpr
      ⟨(nodup_spans_iff hbuilt hspans).mpr hids, (parentIdsExist_iff hbuilt hspans).mpr hparents,
        (toolUseIdsLinked_iff hbuilt hspans hcall).mpr fun s hs => by
          obtain ⟨d, hd, hbuild⟩ := exists_exported hbuilt hs
          exact hlinked d hd s hbuild⟩
    exact ⟨trace, bind_eq_ok.mpr ⟨r, hr, hbuild⟩⟩

/-- **The totals of a trace that is built** are the sums over its spans when no tool call was
exported. -/
theorem metrics_eq_iff {trace : BuiltTrace}
    (h : runSingle ids adapter response before late = .ok trace) :
    trace.metrics = metricsOf trace.spans ↔
      ∀ d ∈ before ++ late, classifySpan d ≠ .toolCall := by
  obtain ⟨r, hr, hbuild⟩ := bind_eq_ok.mp h
  obtain ⟨-, -, -, -, -, htally⟩ := recorded_perm ids adapter response before late hr
  obtain ⟨hspans, hmetrics⟩ := TraceRecorder.build_eq_ok_iff.mp hbuild
  rw [hspans, hmetrics, htally.metrics_eq_iff, toolCallsIn_eq_zero]

/-- **Its only model call** is the response when none was exported. -/
theorem onlyCall_iff {trace : BuiltTrace}
    (h : runSingle ids adapter response before late = .ok trace) :
    (∀ s ∈ trace.spans, s.isLLMCall → s.id = ids.id 1) ↔
      ∀ d ∈ before ++ late, classifySpan d ≠ .llmCall := by
  obtain ⟨r, hr, hbuild⟩ := bind_eq_ok.mp h
  obtain ⟨call, built, -, hbuilt, hperm, -⟩ := recorded_perm ids adapter response before late hr
  rw [(TraceRecorder.build_eq_ok_iff.mp hbuild).1]
  constructor
  · intro honly d hd hkind
    obtain ⟨s, hs, hbuild⟩ := exists_built hbuilt hd
    have hspec := buildSpan_spec hbuild
    have hid := honly s ((mem_spans hperm).mpr (.inr hs)) (hspec.isLLMCall.mpr hkind)
    exact ne_id_of_hex d.spanId_hex 1 (hspec.id.symm.trans hid)
  · intro hnone s hs hcall
    rcases (mem_spans hperm).mp hs with hown | hfed
    · rcases mem_ownSpans.mp hown with rfl | htool | rfl
      · rfl
      · obtain ⟨-, -, tu, -, hbody⟩ := mem_toolSpans htool
        rw [Span.isLLMCall, Span.llmCall?, hbody] at hcall
        cases hcall
      · cases hcall
    · obtain ⟨d, hd, hbuild⟩ := exists_exported hbuilt hfed
      exact absurd ((buildSpan_spec hbuild).isLLMCall.mp hcall) (hnone d hd)

/-- **A run is sound** exactly when its response is recordable and its export does no harm. -/
theorem runSound_iff :
    RunSound ids (runSingle ids adapter response before late) ↔
      Recordable response ∧ Benign (before ++ late) := by
  constructor
  · rintro ⟨trace, htrace, hmetrics, honly⟩
    obtain ⟨hresponse, hbuilds, hids, hparents, -⟩ :=
      (exists_build_iff ids adapter response before late).mp ⟨trace, htrace⟩
    exact ⟨hresponse, hids, hbuilds, hparents,
      (metrics_eq_iff ids adapter response before late htrace).mp hmetrics,
      (onlyCall_iff ids adapter response before late htrace).mp honly⟩
  · rintro ⟨hresponse, hids, hbuilds, hparents, htools, hcalls⟩
    have hlinked : ∀ d ∈ before ++ late, ∀ s, buildSpan d = .ok s → ∀ toolUseId ∈ s.toolUseId?,
        toolUseId ∈ response.toolUses.map (·.toolUseId) := by
      intro d hd s hs toolUseId hid
      refine absurd ((buildSpan_spec hs).isToolCall.mp ?_) (htools d hd)
      unfold Span.toolUseId? at hid
      unfold Span.isToolCall
      split at hid
      · rfl
      · cases hid
    obtain ⟨trace, htrace⟩ := (exists_build_iff ids adapter response before late).mpr
      ⟨hresponse, hbuilds, hids, hparents, hlinked⟩
    exact ⟨trace, htrace, (metrics_eq_iff ids adapter response before late htrace).mpr htools,
      (onlyCall_iff ids adapter response before late htrace).mpr hcalls⟩

end Runs

/-! ### A span with a remote parent -/

/-- Fresh ids. -/
def freshIds : SpanIds where
  id n := "sp_" ++ String.ofList (List.replicate n '1')
  injective m n h := by
    have hlength := congrArg (fun s => s.toList.length) h
    simpa [String.toList_append] using hlength
  prefixed n := ⟨_, rfl⟩

theorem a1_ne : "a1" ≠ "" := by decide

theorem a1_hex : ∀ c ∈ "a1".toList, c ∈ "0123456789abcdef".toList := by simp

/-- A step of an agent that runs inside a remote span. -/
def remoteStep : DecodedSpan where
  name := "step"
  spanId := "a1"
  parentSpanId := some "b2"
  startTime := 1700000000000000000
  spanId_ne := a1_ne
  spanId_hex := a1_hex
  parentSpanId_hex := by simp

/-- Its parent is not exported, and no trace is built. -/
theorem not_all_runSound : ¬∀ (ids : SpanIds) (adapter : AgentAdapter) (response : AdapterResponse)
    (before late : List DecodedSpan), Recordable response →
      ((before ++ late).map (·.spanId)).Nodup → (∀ d ∈ before ++ late, Builds d) →
      RunSound ids (runSingle ids adapter response before late) := by
  intro h
  have hsound := h freshIds ⟨fun _ => none⟩ {} [remoteStep] [] (by decide) (by decide)
    (by decide +kernel)
  obtain ⟨trace, htrace, -⟩ := hsound
  obtain ⟨-, -, -, hparents, -⟩ := (exists_build_iff freshIds ⟨fun _ => none⟩ {} [remoteStep] []).mp
    ⟨trace, htrace⟩
  have hparent : "b2" ∈ ["a1"] := hparents remoteStep List.mem_cons_self "b2" rfl
  exact absurd hparent (by decide)

end Selfevals.Runner.OtlpRuns
