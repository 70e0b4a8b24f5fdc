import Selfevals.Runner.OtlpRuns

/-!
# The trace handle of an in-process agent

An embedded agent emits spans through an `AgentTraceHandle` while it is invoked. Blocks nest, so
what it emits is a list of trees; every method sets `used`, and a used handle keeps the response of
the agent from being written as a model call.
-/

namespace Selfevals.Trace.Context

open Lib.Result Trace.Recorder Runner.OtlpRuns

/-! ### What an agent emits -/

/-- A span as it is emitted: a block with what is emitted within it, or a fact of a moment. -/
inductive Emission
  | agentTurn (inner : List Emission)
  /-- With what the block leaves in the builder. -/
  | llmCall (call : LLMCall) (inner : List Emission)
  | toolCall (toolUseId : Option String) (inner : List Emission)
  | stt (inner : List Emission)
  | tts (inner : List Emission)
  | humanIntervention
  | guardrailCheck
  | decision
  /-- A block that leaves what the model of its span refuses; the agent catches the exception. -/
  | refused (inner : List Emission)

/-- What an agent emits spans through. -/
structure AgentTraceHandle where
  recorder : TraceRecorder
  used : Bool := false
  /-- The number of the next fresh id. -/
  next : ℕ := 1

namespace AgentTraceHandle

/-- The start of a block, whose span gets the next id. -/
def enter (ids : SpanIds) (h : AgentTraceHandle) : AgentTraceHandle :=
  { recorder := { h.recorder with openParents := ids.id h.next :: h.recorder.openParents }
    used := true
    next := h.next + 1 }

/-- The end of a block, before its span is recorded. -/
def leave (h : AgentTraceHandle) : AgentTraceHandle :=
  { h with recorder := { h.recorder with openParents := h.recorder.openParents.tail } }

/-- A span of a kind that no counter counts, under the innermost open one. -/
def record (h : AgentTraceHandle) (id : String) (body : SpanBody) : AgentTraceHandle :=
  { h with recorder := h.recorder.record { id, parentId := h.recorder.currentParent, body } }

/-- A span without a block. -/
def add (ids : SpanIds) (h : AgentTraceHandle) (body : SpanBody) : AgentTraceHandle :=
  { h.record (ids.id h.next) body with used := true, next := h.next + 1 }

mutual

/-- What one emitted span leaves; the span of a block is recorded when the block ends. -/
def emit (ids : SpanIds) (h : AgentTraceHandle) : Emission → AgentTraceHandle
  | .agentTurn inner => (emitAll ids (h.enter ids) inner).leave.record (ids.id h.next) .agentTurn
  | .llmCall call inner =>
    let h' := (emitAll ids (h.enter ids) inner).leave
    { h' with recorder := h'.recorder.llmCall (ids.id h.next) call }
  | .toolCall toolUseId inner =>
    let h' := (emitAll ids (h.enter ids) inner).leave
    { h' with recorder := h'.recorder.toolCall (ids.id h.next) toolUseId }
  | .stt inner => (emitAll ids (h.enter ids) inner).leave.record (ids.id h.next) .stt
  | .tts inner => (emitAll ids (h.enter ids) inner).leave.record (ids.id h.next) .tts
  | .humanIntervention => h.add ids .humanIntervention
  | .guardrailCheck => h.add ids .guardrailCheck
  | .decision => h.add ids .decision
  | .refused inner => (emitAll ids (h.enter ids) inner).leave

/-- Some emissions, in order. -/
def emitAll (ids : SpanIds) (h : AgentTraceHandle) : List Emission → AgentTraceHandle
  | [] => h
  | e :: es => emitAll ids (emit ids h e) es

end

end AgentTraceHandle

open AgentTraceHandle

mutual

/-- The model calls among the emitted spans, in the order they are recorded. -/
def callsOf : Emission → List LLMCall
  | .agentTurn inner => callsIn inner
  | .llmCall call inner => callsIn inner ++ [call]
  | .toolCall _ inner => callsIn inner
  | .stt inner => callsIn inner
  | .tts inner => callsIn inner
  | .humanIntervention => []
  | .guardrailCheck => []
  | .decision => []
  | .refused inner => callsIn inner

def callsIn : List Emission → List LLMCall
  | [] => []
  | e :: es => callsOf e ++ callsIn es

end

/-! ### One invocation -/

section Run
variable (ids : SpanIds) (adapter : AgentAdapter) (emitted : List Emission)
  (response : AdapterResponse)

/-- `bind_trace_handle`, in the case turn. -/
def caseHandle : AgentTraceHandle where
  recorder := ({} : TraceRecorder).enterTurn (ids.id 0)

/-- What an invocation leaves in its recorder: the case turn, in which the agent emits its spans and
its response is written. -/
def recordEmitted : Except TraceError TraceRecorder := do
  let handle := emitAll ids (caseHandle ids) emitted
  let r ← recordAdapterResponse ids adapter response handle.used handle.recorder
  return r.exitTurn (ids.id 0)

/-- `run_single`, of an invocation that returns. -/
def runEmitted : Except TraceError BuiltTrace := do
  let r ← recordEmitted ids adapter emitted response
  r.build

end Run

/-! ### Spend -/

@[ext] structure Spend where
  costUsd : NNRat
  tokensOut : ℕ
  llmCalls : ℕ

def spendOf (calls : List LLMCall) : Spend where
  costUsd := (calls.map (·.costUsd)).sum
  tokensOut := (calls.map (·.tokens.output)).sum
  llmCalls := calls.length

/-- The totals of a trace. -/
def traceSpend (trace : BuiltTrace) : Spend :=
  ⟨trace.metrics.totalCostUsd, trace.metrics.totalTokensOut, trace.metrics.llmCallCount⟩

/-- A response is one call, priced by `cost_for`; none if it reports what no token count may be. -/
def responseCall (adapter : AgentAdapter) (response : AdapterResponse) :
    Except TraceError LLMCall :=
  (responseTokens response).map fun tokens =>
    { tokens, costUsd := (costFor adapter response tokens).getD 0 }

/-- **Spend is recorded once**: that of the emitted model calls, or else that of the response. -/
def SpentOnce (adapter : AgentAdapter) (emitted : List Emission) (response : AdapterResponse)
    (trace : BuiltTrace) : Prop :=
  if callsIn emitted ≠ [] then traceSpend trace = spendOf (callsIn emitted)
  else ∃ call, responseCall adapter response = .ok call ∧ traceSpend trace = spendOf [call]

/-! ### What is emitted is counted -/

/-- From one recorder to another the given calls were recorded, and blocks that were opened closed.
-/
structure Emits (calls : List LLMCall) (r r' : TraceRecorder) : Prop where
  openParents : r'.openParents = r.openParents
  costUsd : r'.costUsd = r.costUsd + (spendOf calls).costUsd
  tokensOut : r'.tokensOut = r.tokensOut + (spendOf calls).tokensOut
  llmCallCount : r'.llmCallCount = r.llmCallCount + (spendOf calls).llmCalls

section Emits
variable {calls calls' : List LLMCall} {r r' r'' : TraceRecorder} {h h' : AgentTraceHandle}

theorem Emits.refl (r : TraceRecorder) : Emits [] r r :=
  ⟨rfl, (add_zero _).symm, (add_zero _).symm, (add_zero _).symm⟩

theorem Emits.trans (h : Emits calls r r') (h' : Emits calls' r' r'') :
    Emits (calls ++ calls') r r'' where
  openParents := h'.openParents.trans h.openParents
  costUsd := by rw [h'.costUsd, h.costUsd]; simp [spendOf, add_assoc]
  tokensOut := by rw [h'.tokensOut, h.tokensOut]; simp [spendOf, add_assoc]
  llmCallCount := by rw [h'.llmCallCount, h.llmCallCount]; simp [spendOf, add_assoc]

theorem emits_record (h : AgentTraceHandle) (id : String) (body : SpanBody) :
    Emits [] h.recorder (h.record id body).recorder :=
  ⟨rfl, (add_zero _).symm, (add_zero _).symm, (add_zero _).symm⟩

theorem emits_llmCall (r : TraceRecorder) (id : String) (call : LLMCall) :
    Emits [call] r (r.llmCall id call) := by
  constructor <;> simp [TraceRecorder.llmCall, TraceRecorder.record, spendOf]

theorem emits_toolCall (r : TraceRecorder) (id : String) (toolUseId : Option String) :
    Emits [] r (r.toolCall id toolUseId) :=
  ⟨rfl, (add_zero _).symm, (add_zero _).symm, (add_zero _).symm⟩

theorem Emits.block {ids : SpanIds} (hinner : Emits calls (h.enter ids).recorder h'.recorder) :
    Emits calls h.recorder h'.leave.recorder where
  openParents := by
    show h'.recorder.openParents.tail = h.recorder.openParents
    rw [hinner.openParents]
    rfl
  costUsd := hinner.costUsd
  tokensOut := hinner.tokensOut
  llmCallCount := hinner.llmCallCount

end Emits

mutual

theorem emit_emits (ids : SpanIds) (h : AgentTraceHandle) (e : Emission) :
    Emits (callsOf e) h.recorder (emit ids h e).recorder := by
  cases e with
  | agentTurn inner | stt inner | tts inner =>
    rw [emit, callsOf, ← List.append_nil (callsIn inner)]
    exact (emitAll_emits ids (h.enter ids) inner).block.trans (emits_record _ _ _)
  | llmCall call inner =>
    rw [emit, callsOf]
    exact (emitAll_emits ids (h.enter ids) inner).block.trans (emits_llmCall _ _ _)
  | toolCall toolUseId inner =>
    rw [emit, callsOf, ← List.append_nil (callsIn inner)]
    exact (emitAll_emits ids (h.enter ids) inner).block.trans (emits_toolCall _ _ _)
  | humanIntervention | guardrailCheck | decision =>
    rw [emit, callsOf]
    exact emits_record _ _ _
  | refused inner =>
    rw [emit, callsOf]
    exact (emitAll_emits ids (h.enter ids) inner).block

/-- **What is emitted is counted**, and nothing else is. -/
theorem emitAll_emits (ids : SpanIds) (h : AgentTraceHandle) (es : List Emission) :
    Emits (callsIn es) h.recorder (emitAll ids h es).recorder := by
  cases es with
  | nil =>
    rw [emitAll, callsIn]
    exact .refl _
  | cons e es =>
    rw [emitAll, callsIn]
    exact (emit_emits ids h e).trans (emitAll_emits ids (emit ids h e) es)

end

mutual

theorem used_emit (ids : SpanIds) (h : AgentTraceHandle) (e : Emission) :
    (emit ids h e).used = true := by
  cases e with
  | agentTurn inner | llmCall call inner | toolCall toolUseId inner | stt inner | tts inner
  | refused inner =>
    rw [emit]
    exact (used_emitAll ids (h.enter ids) inner).trans (Bool.true_or _)
  | humanIntervention | guardrailCheck | decision => rfl

/-- **A handle is used** by any span at all. -/
theorem used_emitAll (ids : SpanIds) (h : AgentTraceHandle) (es : List Emission) :
    (emitAll ids h es).used = (h.used || !es.isEmpty) := by
  cases es with
  | nil => rw [emitAll]; simp
  | cons e es =>
    rw [emitAll, used_emitAll ids (emit ids h e) es, used_emit]
    simp

end

/-! ### What a run records -/

section Run
variable {ids : SpanIds} {adapter : AgentAdapter} {emitted : List Emission}
  {response : AdapterResponse}
  {r r' : TraceRecorder} {trace : BuiltTrace}

theorem writeToolSpans_emits (r : TraceRecorder) (n : ℕ) (uses : List AdapterToolUse) :
    Emits [] r (writeToolSpans ids r n uses) := by
  induction uses generalizing r n with
  | nil => exact .refl r
  | cons tu rest ih => exact (emits_toolCall r (ids.id n) (some tu.toolUseId)).trans (ih _ _)

theorem recordAdapterResponse_emits
    (h : recordAdapterResponse ids adapter response false r = .ok r') :
    ∃ call, responseCall adapter response = .ok call ∧ Emits [call] r r' := by
  unfold recordAdapterResponse at h
  rw [if_neg Bool.false_ne_true] at h
  obtain ⟨tokens, htokens, h⟩ := bind_eq_ok.mp h
  obtain ⟨requested, -, h⟩ := bind_eq_ok.mp h
  obtain rfl := Except.ok.inj h
  refine ⟨{ tokens, costUsd := (costFor adapter response tokens).getD 0 }, ?_, ?_⟩
  · rw [responseCall, htokens]
    rfl
  · obtain ⟨hopen, hcost, htokens, hcalls⟩ := (emits_llmCall r (ids.id 1)
      { tokens, costUsd := (costFor adapter response tokens).getD 0,
        toolUseRequested := requested }).trans
        (@writeToolSpans_emits ids _ 2 response.toolUses)
    exact ⟨hopen, hcost, htokens, hcalls⟩

theorem traceSpend_of_emits {calls : List LLMCall}
    (h : Emits calls (caseHandle ids).recorder r)
    (hbuild : (r.exitTurn (ids.id 0)).build = .ok trace) : traceSpend trace = spendOf calls := by
  obtain ⟨-, hmetrics⟩ := TraceRecorder.build_eq_ok_iff.mp hbuild
  have hcost : r.costUsd = (spendOf calls).costUsd := h.costUsd.trans (zero_add _)
  have htokens : r.tokensOut = (spendOf calls).tokensOut := h.tokensOut.trans (Nat.zero_add _)
  have hcalls : r.llmCallCount = (spendOf calls).llmCalls := h.llmCallCount.trans (Nat.zero_add _)
  rw [traceSpend, hmetrics]
  exact Spend.ext hcost htokens hcalls

theorem traceSpend_of_nil (h : runEmitted ids adapter [] response = .ok trace) :
    ∃ call, responseCall adapter response = .ok call ∧ traceSpend trace = spendOf [call] := by
  obtain ⟨r, hr, hbuild⟩ := bind_eq_ok.mp h
  obtain ⟨r₁, hresponse, hr⟩ := bind_eq_ok.mp hr
  obtain rfl := Except.ok.inj hr
  rw [emitAll] at hresponse
  obtain ⟨call, hcall, hemits⟩ := recordAdapterResponse_emits hresponse
  exact ⟨call, hcall, traceSpend_of_emits hemits hbuild⟩

theorem traceSpend_of_ne_nil (hne : emitted ≠ [])
    (h : runEmitted ids adapter emitted response = .ok trace) :
    traceSpend trace = spendOf (callsIn emitted) := by
  obtain ⟨r, hr, hbuild⟩ := bind_eq_ok.mp h
  obtain ⟨r₁, hresponse, hr⟩ := bind_eq_ok.mp hr
  obtain rfl := Except.ok.inj hr
  have hused : (emitAll ids (caseHandle ids) emitted).used = true := by
    rw [used_emitAll]
    simpa [caseHandle] using hne
  rw [recordAdapterResponse, if_pos hused] at hresponse
  obtain rfl := Except.ok.inj hresponse
  exact traceSpend_of_emits (emitAll_emits ids (caseHandle ids) emitted) hbuild

/-- **Spend is recorded once** if and only if the agent emitted no span, or a model call among them.
-/
theorem spentOnce_iff (h : runEmitted ids adapter emitted response = .ok trace) :
    SpentOnce adapter emitted response trace ↔ emitted = [] ∨ callsIn emitted ≠ [] := by
  unfold SpentOnce
  by_cases hcalls : callsIn emitted ≠ []
  · rw [if_pos hcalls]
    have hne : emitted ≠ [] := fun hnil => hcalls (by rw [hnil, callsIn])
    exact ⟨fun _ => .inr hcalls, fun _ => traceSpend_of_ne_nil hne h⟩
  · rw [if_neg hcalls]
    constructor
    · rintro ⟨call, -, hspend⟩
      by_contra hnot
      rw [not_or] at hnot
      -- no call is counted, where the response is one
      have hnone := traceSpend_of_ne_nil hnot.1 h
      rw [not_not.mp hcalls, hspend] at hnone
      exact absurd (congrArg Spend.llmCalls hnone) one_ne_zero
    · rintro (rfl | hcalls')
      · exact traceSpend_of_nil h
      · exact absurd hcalls' hcalls

end Run

section Examples

/-- A model call of ten tokens for a cent. -/
def tenTokens : LLMCall where
  tokens := { output := 10, total := 10, total_covers := by decide }
  costUsd := 1 / 100

def unpriced : AgentAdapter := ⟨fun _ => none⟩

/-- A response of a hundred tokens for a dollar. -/
def dollarResponse : AdapterResponse := { tokensOutput := 100, costUsd := 1 }

theorem exists_runEmitted (emitted : List Emission) (h : ((do
    let r ← recordEmitted freshIds unpriced emitted dollarResponse
    return decide ((r.spans.map (·.id)).Nodup ∧ ParentIdsExist r.spans ∧
      ToolUseIdsLinked r.spans)) :
      Except TraceError Bool) = .ok true) :
    ∃ trace, runEmitted freshIds unpriced emitted dollarResponse = .ok trace := by
  obtain ⟨r, hr, h⟩ := bind_eq_ok.mp h
  obtain ⟨trace, htrace⟩ := TraceRecorder.exists_build_iff.mpr (of_decide_eq_true (Except.ok.inj h))
  exact ⟨trace, bind_eq_ok.mpr ⟨r, hr, htrace⟩⟩

/-- A turn with a model call in it, where the response repeats the usage. -/
theorem spentOnce_turn : ∃ trace, runEmitted freshIds unpriced [.agentTurn [.llmCall tenTokens []]]
    dollarResponse = .ok trace ∧
      SpentOnce unpriced [.agentTurn [.llmCall tenTokens []]] dollarResponse trace := by
  obtain ⟨trace, htrace⟩ := exists_runEmitted [.agentTurn [.llmCall tenTokens []]]
    (by decide +kernel)
  refine ⟨trace, htrace, (spentOnce_iff htrace).mpr (.inr ?_)⟩
  simp [callsIn, callsOf]

/-- **The dollar is lost** when the agent emits a decision and nothing else. -/
theorem not_all_spentOnce : ¬∀ (ids : SpanIds) (adapter : AgentAdapter) (emitted : List Emission)
    (response : AdapterResponse) (trace : BuiltTrace),
    runEmitted ids adapter emitted response = .ok trace →
      SpentOnce adapter emitted response trace := by
  intro h
  obtain ⟨trace, htrace⟩ := exists_runEmitted [.decision] (by decide +kernel)
  have honce := h freshIds unpriced [.decision] dollarResponse trace htrace
  have hnone : callsIn [.decision] = [] := by simp [callsIn, callsOf]
  rw [SpentOnce, if_neg (not_not.mpr hnone)] at honce
  obtain ⟨call, -, hspend⟩ := honce
  rw [traceSpend_of_ne_nil (by simp) htrace, hnone] at hspend
  exact absurd (congrArg Spend.llmCalls hspend) one_ne_zero.symm

end Examples

end Selfevals.Trace.Context
