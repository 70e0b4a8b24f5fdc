import Selfevals.Schemas.TraceRecords

/-!
# Tool calls of an imported trace

An imported trace says which tool calls there were, but not which model call asked for them.
`linkToolUseIds` adds a request to the model call a tool call hangs under, or else to the nearest
one before it; where there is none the id is dropped. It goes through the spans while it replaces
them, and looks parents up in an index made before.
-/

namespace Selfevals.Trace.OtelLinking

open Schemas.Base Schemas.Experiments Schemas.TraceRecords

/-! ### The function -/

/-- What the linking raises. -/
inductive LinkError
  /-- `ValidationError`, of a `ToolUseRequest`. -/
  | invalidRequest
  /-- `ValueError`, of `out.index`. -/
  | notInList
deriving DecidableEq, Repr

def asLlm : Span → Option LLMCallSpan
  | .llmCall span => some span
  | _ => none

/-- `by_id`: of two spans with one id, the later. -/
def byId (spans : List Span) (id : String) : Option Span := spans.reverse.find? fun s => s.id == id

/-- The parent of a tool call in the index, if it is a model call. -/
def parentLlm (spans : List Span) (s : ToolCallSpan) : Option LLMCallSpan := do
  let parentId ← s.parentId
  if parentId = "" then none else (byId spans parentId).bind asLlm

/-- The nearest preceding model call. -/
def nearest (prior : List Span) : Option LLMCallSpan := (prior.filterMap asLlm).getLast?

/-- The model call to link a tool call to. -/
def candidate (spans out : List Span) (idx : ℕ) (s : ToolCallSpan) : Option LLMCallSpan :=
  match parentLlm spans s with
  | some parent => some parent
  | none => nearest (out.take idx)

def withRequest (c : LLMCallSpan) (r : ToolUseRequest) : LLMCallSpan :=
  { c with output := { c.output with toolUseRequested := c.output.toolUseRequested ++ [r] } }

/-- `out` and `requested`. -/
structure Linking where
  out : List Span
  requested : List String

/-- A synthetic request on the model call; spans with one id are one span, so `==` is equality. -/
def attach (st : Linking) (c : LLMCallSpan) (r : ToolUseRequest) : Except LinkError Linking :=
  if NonEmpty r.tool ∧ NonEmpty r.toolUseId then
    match st.out.findIdx? fun s => asLlm s = some c with
    | none => .error .notInList
    | some k =>
      .ok {
        out := st.out.set k (.llmCall (withRequest c r))
        requested := st.requested ++ [r.toolUseId] }
  else .error .invalidRequest

/-- One round of the loop. -/
def linkAt (spans : List Span) (st : Linking) (idx : ℕ) : Except LinkError Linking :=
  match st.out[idx]? with
  | some (.toolCall s) =>
    match s.toolUseId with
    | none => .ok st
    | some toolUseId =>
      if toolUseId ∈ st.requested then .ok st
      else
        match candidate spans st.out idx s with
        | none => .ok { st with out := st.out.set idx (.toolCall { s with toolUseId := none }) }
        | some c => attach st c ⟨s.toolName, toolUseId⟩
  | _ => .ok st

def start (spans : List Span) : Linking := ⟨spans, spans.flatMap Span.requestedIds⟩

/-- `_link_tool_use_ids`. -/
def linkToolUseIds (spans : List Span) : Except LinkError (List Span) :=
  ((List.range spans.length).foldlM (linkAt spans) (start spans)).map (·.out)

/-- What is asked of the linked spans. -/
structure Linked (spans out : List Span) : Prop where
  ids : out.map Span.id = spans.map Span.id
  requested : ∀ s ∈ out, ∀ toolUseId, s.toolUseId? = some toolUseId →
    toolUseId ∈ out.flatMap Span.requestedIds
  kept : ∀ c, .llmCall c ∈ spans → ∃ c', .llmCall c' ∈ out ∧ c'.id = c.id ∧
    ∀ r ∈ c.output.toolUseRequested, r ∈ c'.output.toolUseRequested

/-! ### What happens to each tool call -/

section Fate
variable (spans : List Span)

/-- A tool call with an id, as it came. -/
def toolAt (idx : ℕ) : Option (ToolCallSpan × String) :=
  match spans[idx]? with
  | some (.toolCall s) => s.toolUseId.map fun toolUseId => (s, toolUseId)
  | _ => none

/-- The ids that are requested before a round: those that were, and those of the earlier tool calls
that have a model call to be linked to. -/
def known (idx : ℕ) : List String :=
  spans.flatMap Span.requestedIds ++ (List.range idx).filterMap fun i =>
    (toolAt spans i).bind fun (s, toolUseId) =>
      if (candidate spans spans i s).isSome then some toolUseId else none

inductive Fate
  | kept
  | dropped
  | linked (llmId : String) (r : ToolUseRequest)
deriving DecidableEq, Repr

/-- What happens to the span in a round. -/
def fate (idx : ℕ) : Fate :=
  match toolAt spans idx with
  | none => .kept
  | some (s, toolUseId) =>
    if toolUseId ∈ known spans idx then .kept
    else
      match candidate spans spans idx s with
      | none => .dropped
      | some c => .linked c.id ⟨s.toolName, toolUseId⟩

/-- The requests added to a model call before a round. -/
def extra (idx : ℕ) (llmId : String) : List ToolUseRequest :=
  (List.range idx).filterMap fun i =>
    match fate spans i with
    | .linked llmId' r => if llmId' = llmId then some r else none
    | _ => none

/-- **The condition**: a tool call that is linked has an id, and if it hangs under the model call,
no earlier tool call was linked to that one. -/
def Fits (idx : ℕ) : Prop :=
  ∀ s toolUseId, toolAt spans idx = some (s, toolUseId) → ∀ llmId r,
    fate spans idx = .linked llmId r →
    NonEmpty toolUseId ∧
      ((parentLlm spans s).isSome → ∀ i < idx, ∀ r', fate spans i ≠ .linked llmId r')

/-- A model call before a round. -/
def extended (idx : ℕ) (c : LLMCallSpan) : LLMCallSpan :=
  { c with output :=
    { c.output with toolUseRequested := c.output.toolUseRequested ++ extra spans idx c.id } }

/-- The span at a place before a round. -/
def relinked (idx k : ℕ) : Span → Span
  | .llmCall c => .llmCall (extended spans idx c)
  | .toolCall s =>
    if k < idx ∧
      fate spans k = .dropped then .toolCall { s with toolUseId := none } else .toolCall s
  | s => s

/-- The state before a round. -/
structure Before (idx : ℕ) (st : Linking) : Prop where
  out : st.out = spans.mapIdx (relinked spans idx)
  requested : ∀ toolUseId, toolUseId ∈ st.requested ↔ toolUseId ∈ known spans idx

end Fate

section Round
variable {spans : List Span} {idx : ℕ} {st : Linking}

theorem id_relinked (k : ℕ) (s : Span) : (relinked spans idx k s).id = s.id := by
  cases s with
  | toolCall s =>
    unfold relinked
    split_ifs <;> rfl
  | _ => rfl

theorem asLlm_relinked (k : ℕ) (s : Span) :
    asLlm (relinked spans idx k s) = (asLlm s).map (extended spans idx) := by
  cases s with
  | toolCall s =>
    unfold relinked
    split_ifs <;> rfl
  | _ => rfl

theorem extra_succ (llmId : String) : extra spans (idx + 1) llmId = extra spans idx llmId ++
    match fate spans idx with
    | .linked llmId' r => if llmId' = llmId then [r] else []
    | _ => [] := by
  unfold extra
  rw [List.range_succ, List.filterMap_append]
  congr 1
  cases hfate : fate spans idx with
  | linked llmId' r =>
    by_cases heq : llmId' = llmId <;> simp [hfate, heq]
  | _ => simp [hfate]

theorem extra_eq_nil_iff {llmId : String} :
    extra spans idx llmId = [] ↔ ∀ i < idx, ∀ r, fate spans i ≠ .linked llmId r := by
  unfold extra
  rw [List.filterMap_eq_nil_iff]
  constructor
  · intro h i hi r hfate
    have := h i (List.mem_range.mpr hi)
    simp [hfate] at this
  · intro h i hi
    have hne := h i (List.mem_range.mp hi)
    cases hfate : fate spans i with
    | linked llmId' r =>
      have : llmId' ≠ llmId := fun heq => hne r (heq ▸ hfate)
      simp [this]
    | _ => rfl

theorem mem_known_succ {toolUseId : String} : toolUseId ∈ known spans (idx + 1) ↔
    toolUseId ∈ known spans idx ∨
      ∃ s, toolAt spans idx = some (s, toolUseId) ∧ (candidate spans spans idx s).isSome := by
  unfold known
  rw [List.range_succ, List.filterMap_append, ← List.append_assoc, List.mem_append]
  refine or_congr_right ?_
  rw [List.mem_filterMap]
  constructor
  · rintro ⟨i, hi, hsome⟩
    obtain rfl := List.mem_singleton.mp hi
    obtain ⟨⟨s, toolUseId'⟩, htool, hcand⟩ := Option.bind_eq_some_iff.mp hsome
    simp only [Option.ite_none_right_eq_some, Option.some.injEq] at hcand
    exact ⟨s, hcand.2 ▸ htool, hcand.1⟩
  · rintro ⟨s, htool, hcand⟩
    exact ⟨idx, List.mem_singleton_self idx, by simp [htool, hcand]⟩

theorem filterMap_asLlm_mapIdx (l : List Span) (f : ℕ → Span → Span) (g : LLMCallSpan → LLMCallSpan)
    (h : ∀ k s, asLlm (f k s) = (asLlm s).map g) :
    (l.mapIdx f).filterMap asLlm = (l.filterMap asLlm).map g := by
  induction l generalizing f with
  | nil => rfl
  | cons s l ih =>
    rw [List.mapIdx_cons, List.filterMap_cons, List.filterMap_cons, h,
      ih (fun k => f (k + 1)) fun k s => h (k + 1) s]
    cases asLlm s <;> rfl

theorem nearest_relinked (hbefore : Before spans idx st) :
    nearest (st.out.take idx) = (nearest (spans.take idx)).map (extended spans idx) := by
  have htake : (spans.mapIdx (relinked spans idx)).take idx =
      (spans.take idx).mapIdx (relinked spans idx) := by
    refine List.ext_getElem? fun k => ?_
    by_cases hk : k < idx <;> simp [hk]
  unfold nearest
  rw [hbefore.out, htake, filterMap_asLlm_mapIdx _ _ _ asLlm_relinked, List.getLast?_map]

/-- The model call found in a round is the one found among the spans as they came: as it came, where
it is the parent, and as it is now otherwise. -/
theorem candidate_relinked (hbefore : Before spans idx st) (s : ToolCallSpan) :
    candidate spans st.out idx s = (candidate spans spans idx s).map fun c =>
      if (parentLlm spans s).isSome then c else extended spans idx c := by
  unfold candidate
  cases parentLlm spans s with
  | some parent => rfl
  | none => simp [nearest_relinked hbefore]

theorem asLlm_eq_some {s : Span} {c : LLMCallSpan} (h : asLlm s = some c) : s = .llmCall c := by
  cases s with
  | llmCall c' => exact congrArg Span.llmCall (Option.some.inj h)
  | _ => simp [asLlm] at h

theorem candidate_mem {s : ToolCallSpan} {c : LLMCallSpan}
    (h : candidate spans spans idx s = some c) : .llmCall c ∈ spans := by
  unfold candidate at h
  split at h
  next parent hparent =>
    obtain rfl := Option.some.inj h
    simp only [parentLlm, Option.bind_eq_bind, Option.bind_eq_some_iff] at hparent
    obtain ⟨parentId, -, hparent⟩ := hparent
    split_ifs at hparent
    obtain ⟨span, hspan, hllm⟩ := Option.bind_eq_some_iff.mp hparent
    have hmem : span ∈ spans := List.mem_reverse.mp (List.mem_of_find?_eq_some hspan)
    exact asLlm_eq_some hllm ▸ hmem
  next =>
    have hmem := List.mem_of_getLast? h
    obtain ⟨span, hspan, hllm⟩ := List.mem_filterMap.mp hmem
    exact asLlm_eq_some hllm ▸ List.mem_of_mem_take hspan

theorem getElem?_out (hbefore : Before spans idx st) (k : ℕ) :
    st.out[k]? = spans[k]?.map (relinked spans idx k) := by
  rw [hbefore.out, List.getElem?_mapIdx]

theorem findIdx?_out (hnodup : (spans.map Span.id).Nodup) (hbefore : Before spans idx st)
    {c₀ c : LLMCallSpan} {k : ℕ} (hk : spans[k]? = some (.llmCall c₀)) (hid : c.id = c₀.id) :
    (st.out.findIdx? fun s => asLlm s = some c) =
      if c = extended spans idx c₀ then some k else none := by
  have hunique : ∀ i s, st.out[i]? = some s → asLlm s = some c → i = k := by
    intro i s hi hllm
    rw [getElem?_out hbefore] at hi
    obtain ⟨s₀, hs₀, rfl⟩ := Option.map_eq_some_iff.mp hi
    have hids : s₀.id = c.id := by
      have hsame : (relinked spans idx i s₀).id = s₀.id := id_relinked i s₀
      rw [← hsame, asLlm_eq_some hllm]
      rfl
    have hi' : (spans.map Span.id)[i]? = some c₀.id := by simp [hs₀, hids, hid]
    have hk' : (spans.map Span.id)[k]? = some c₀.id := by
      rw [List.getElem?_map, hk]
      rfl
    exact (List.getElem?_inj (List.getElem?_eq_some_iff.mp hi').1 hnodup).mp (hi'.trans hk'.symm)
  have hout : st.out[k]? = some (.llmCall (extended spans idx c₀)) := by
    rw [getElem?_out hbefore, hk]
    rfl
  split_ifs with heq
  · obtain ⟨hlt, hget⟩ := List.getElem?_eq_some_iff.mp hout
    rw [List.findIdx?_eq_some_iff_getElem]
    refine ⟨hlt, ?_, fun i hi => ?_⟩
    · simp [hget, asLlm, heq]
    · intro hllm
      have hlt' : i < st.out.length := hi.trans hlt
      have := hunique i _ (List.getElem?_eq_getElem hlt') (by simpa using hllm)
      omega
  · rw [List.findIdx?_eq_none_iff]
    intro s hs
    obtain ⟨i, hi⟩ := List.getElem?_of_mem hs
    simp only [decide_eq_false_iff_not]
    intro hllm
    obtain rfl := hunique i s hi hllm
    rw [hout] at hi
    obtain rfl := Option.some.inj hi
    exact heq (Option.some.inj hllm).symm

/-! ### One round -/

theorem dropped_succ_iff (hne : fate spans idx ≠ .dropped) {k : ℕ} :
    (k < idx + 1 ∧ fate spans k = .dropped) ↔ (k < idx ∧ fate spans k = .dropped) := by
  refine ⟨fun ⟨hlt, hdropped⟩ => ⟨?_, hdropped⟩, fun ⟨hlt, hdropped⟩ => ⟨by omega, hdropped⟩⟩
  have hk : k ≠ idx := by
    rintro rfl
    exact hne hdropped
  omega

theorem mapIdx_relinked_of_kept (hfate : fate spans idx = .kept) :
    spans.mapIdx (relinked spans (idx + 1)) = spans.mapIdx (relinked spans idx) := by
  rw [List.mapIdx_eq_mapIdx_iff]
  intro k hk
  cases spans[k] with
  | llmCall c => simp [relinked, extended, extra_succ, hfate]
  | toolCall s =>
    have hne : fate spans idx ≠ .dropped := by simp [hfate]
    simp only [relinked, dropped_succ_iff hne]
  | _ => rfl

theorem mapIdx_relinked_of_dropped {s : ToolCallSpan} (hs : spans[idx]? = some (.toolCall s))
    (hfate : fate spans idx = .dropped) : spans.mapIdx (relinked spans (idx + 1)) =
      (spans.mapIdx (relinked spans idx)).set idx (.toolCall { s with toolUseId := none }) := by
  refine List.ext_getElem? fun k => ?_
  rw [List.getElem?_set]
  split_ifs with hk hlt
  · subst hk
    simp [hs, relinked, hfate]
  · subst hk
    simpa using hlt
  · rw [List.getElem?_mapIdx, List.getElem?_mapIdx]
    refine Option.map_congr fun span _ => ?_
    cases span with
    | llmCall c => simp [relinked, extended, extra_succ, hfate]
    | toolCall s =>
      have hiff : k < idx + 1 ↔ k < idx := by omega
      simp only [relinked, hiff]
    | _ => rfl

theorem mapIdx_relinked_of_linked (hnodup : (spans.map Span.id).Nodup) {c : LLMCallSpan}
    {k : ℕ} {r : ToolUseRequest} (hk : spans[k]? = some (.llmCall c))
    (hfate : fate spans idx = .linked c.id r) : spans.mapIdx (relinked spans (idx + 1)) =
      (spans.mapIdx (relinked spans idx)).set k
        (.llmCall (withRequest (extended spans idx c) r)) := by
  refine List.ext_getElem? fun j => ?_
  rw [List.getElem?_set]
  split_ifs with hj hlt
  · subst hj
    simp [hk, relinked, extended, withRequest, extra_succ, hfate]
  · subst hj
    simpa using hlt
  · rw [List.getElem?_mapIdx, List.getElem?_mapIdx]
    refine Option.map_congr fun span hspan => ?_
    cases span with
    | llmCall c' =>
      have hne : c.id ≠ c'.id := by
        intro heq
        have hj' : (spans.map Span.id)[j]? = some c.id := by
          rw [List.getElem?_map, hspan, heq]
          rfl
        have hk' : (spans.map Span.id)[k]? = some c.id := by
          rw [List.getElem?_map, hk]
          rfl
        exact hj ((List.getElem?_inj (List.getElem?_eq_some_iff.mp hk').1 hnodup).mp
          (hk'.trans hj'.symm))
      simp [relinked, extended, extra_succ, hfate, hne]
    | toolCall s =>
      have hne : fate spans idx ≠ .dropped := by simp [hfate]
      simp only [relinked, dropped_succ_iff hne]
    | _ => rfl

theorem linkAt_eq (hbefore : Before spans idx st) : linkAt spans st idx =
    match toolAt spans idx with
    | none => .ok st
    | some (s, toolUseId) =>
      if toolUseId ∈ known spans idx then .ok st
      else
        match candidate spans spans idx s with
        | none => .ok { st with out := st.out.set idx (.toolCall { s with toolUseId := none }) }
        | some c =>
          attach st (if (parentLlm spans s).isSome then c else extended spans idx c)
            ⟨s.toolName, toolUseId⟩ := by
  unfold linkAt toolAt
  rw [getElem?_out hbefore]
  cases spans[idx]? with
  | none => rfl
  | some span =>
    cases span with
    | toolCall s =>
      simp only [Option.map_some, relinked, lt_irrefl, false_and, if_false]
      cases s.toolUseId with
      | none => rfl
      | some toolUseId =>
        simp only [Option.map_some, hbefore.requested, candidate_relinked hbefore]
        cases candidate spans spans idx s <;> rfl
    | _ => rfl

theorem attach_of_mem (hnodup : (spans.map Span.id).Nodup) (hbefore : Before spans idx st)
    {c₀ c : LLMCallSpan} {k : ℕ} (hk : spans[k]? = some (.llmCall c₀)) (hid : c.id = c₀.id)
    (r : ToolUseRequest) : attach st c r =
      if NonEmpty r.tool ∧ NonEmpty r.toolUseId then
        if c = extended spans idx c₀ then
          .ok {
            out := st.out.set k (.llmCall (withRequest (extended spans idx c₀) r))
            requested := st.requested ++ [r.toolUseId] }
        else .error .notInList
      else .error .invalidRequest := by
  unfold attach
  rw [findIdx?_out hnodup hbefore hk hid]
  split_ifs with hvalid heq
  · rw [heq]
  · rfl
  · rfl

theorem eq_extended_iff (c : LLMCallSpan) :
    c = extended spans idx c ↔ ∀ i < idx, ∀ r, fate spans i ≠ .linked c.id r := by
  rw [← extra_eq_nil_iff]
  constructor
  · intro heq
    have hrequested := congrArg (fun c => c.output.toolUseRequested) heq
    simpa [extended] using hrequested
  · intro hnil
    simp [extended, hnil]

theorem Before.keep (hbefore : Before spans idx st) (hfate : fate spans idx = .kept)
    (hknown : ∀ toolUseId, toolUseId ∈ known spans (idx + 1) ↔ toolUseId ∈ known spans idx) :
    Before spans (idx + 1) st where
  out := by rw [mapIdx_relinked_of_kept hfate, hbefore.out]
  requested toolUseId := by rw [hknown, hbefore.requested]

theorem fits_of_ne_linked (hfate : ∀ llmId r, fate spans idx ≠ .linked llmId r) : Fits spans idx :=
  fun _ _ _ llmId r hlinked => absurd hlinked (hfate llmId r)

theorem mem_known_succ_of_kept {s : ToolCallSpan} {toolUseId : String}
    (htool : toolAt spans idx = some (s, toolUseId)) (hmem : toolUseId ∈ known spans idx)
    (toolUseId' : String) :
    toolUseId' ∈ known spans (idx + 1) ↔ toolUseId' ∈ known spans idx := by
  rw [mem_known_succ]
  refine ⟨?_, Or.inl⟩
  rintro (h | ⟨s', htool', -⟩)
  · exact h
  · rw [htool] at htool'
    obtain ⟨-, rfl⟩ := Prod.mk.inj (Option.some.inj htool')
    exact hmem

theorem toolAt_eq_some {s : ToolCallSpan} {toolUseId : String}
    (h : toolAt spans idx = some (s, toolUseId)) :
    spans[idx]? = some (.toolCall s) ∧ s.toolUseId = some toolUseId := by
  unfold toolAt at h
  split at h
  next s' hs' =>
    obtain ⟨toolUseId', hid, heq⟩ := Option.map_eq_some_iff.mp h
    obtain ⟨rfl, rfl⟩ := Prod.mk.inj heq
    exact ⟨hs', hid⟩
  next => simp at h

theorem linkAt_linked (hnodup : (spans.map Span.id).Nodup) (hbefore : Before spans idx st)
    {s : ToolCallSpan} {toolUseId : String} {c : LLMCallSpan} (hname : NonEmpty s.toolName)
    (htool : toolAt spans idx = some (s, toolUseId)) (hknown : toolUseId ∉ known spans idx)
    (hcand : candidate spans spans idx s = some c) :
    (Fits spans idx ∧ ∃ st', linkAt spans st idx = .ok st' ∧ Before spans (idx + 1) st') ∨
      (¬ Fits spans idx ∧ ∃ e, linkAt spans st idx = .error e) := by
  have hfate : fate spans idx = .linked c.id ⟨s.toolName, toolUseId⟩ := by
    simp [fate, htool, hknown, hcand]
  have hfits : Fits spans idx ↔
      NonEmpty toolUseId ∧ ((parentLlm spans s).isSome → c = extended spans idx c) := by
    rw [eq_extended_iff]
    constructor
    · exact fun h => h s toolUseId htool c.id _ hfate
    · rintro h s' toolUseId' htool' llmId r hfate'
      rw [htool] at htool'
      obtain ⟨rfl, rfl⟩ := Prod.mk.inj (Option.some.inj htool')
      rw [hfate] at hfate'
      obtain ⟨rfl, -⟩ := Fate.linked.inj hfate'
      exact h
  obtain ⟨k, hk⟩ := List.getElem?_of_mem (candidate_mem hcand)
  have hround := linkAt_eq hbefore
  simp only [htool, hcand] at hround
  rw [if_neg hknown, attach_of_mem hnodup hbefore hk (by split_ifs <;> rfl)] at hround
  by_cases hid : NonEmpty toolUseId
  · rw [if_pos ⟨hname, hid⟩] at hround
    by_cases heq : (parentLlm spans s).isSome → c = extended spans idx c
    · refine .inl ⟨hfits.mpr ⟨hid, heq⟩, _, hround.trans (if_pos ?_), ?_, fun toolUseId' => ?_⟩
      · split_ifs with hparent
        · exact heq hparent
        · rfl
      · rw [mapIdx_relinked_of_linked hnodup hk hfate, hbefore.out]
      · rw [mem_known_succ, htool, List.mem_append, hbefore.requested]
        refine or_congr_right ⟨fun h => ⟨s, by rw [List.mem_singleton.mp h], by simp [hcand]⟩, ?_⟩
        rintro ⟨s', heq', -⟩
        obtain ⟨-, rfl⟩ := Prod.mk.inj (Option.some.inj heq')
        exact List.mem_singleton_self _
    · refine .inr ⟨fun h => heq (hfits.mp h).2, _, hround.trans (if_neg ?_)⟩
      obtain ⟨hparent, hne⟩ := Classical.not_imp.mp heq
      rwa [if_pos hparent]
  · exact .inr ⟨fun h => hid (hfits.mp h).1, _, hround.trans (if_neg fun h => hid h.2)⟩

/-- **One round**: when it raises, and what it leaves. -/
theorem linkAt_spec (hvalid : ∀ s ∈ spans, SpanBase.Valid s.base ∧ s.DetailValid)
    (hnodup : (spans.map Span.id).Nodup) (hbefore : Before spans idx st) :
    (Fits spans idx ∧ ∃ st', linkAt spans st idx = .ok st' ∧ Before spans (idx + 1) st') ∨
      (¬ Fits spans idx ∧ ∃ e, linkAt spans st idx = .error e) := by
  have hround := linkAt_eq hbefore
  cases htool : toolAt spans idx with
  | none =>
    have hfate : fate spans idx = .kept := by simp [fate, htool]
    refine .inl ⟨fits_of_ne_linked
      (by simp [hfate]), st, ?_, hbefore.keep hfate fun toolUseId => ?_⟩
    · simpa only [htool] using hround
    · simp [mem_known_succ, htool]
  | some p =>
    obtain ⟨s, toolUseId⟩ := p
    obtain ⟨hs, -⟩ := toolAt_eq_some htool
    simp only [htool] at hround
    by_cases hknown : toolUseId ∈ known spans idx
    · have hfate : fate spans idx = .kept := by simp [fate, htool, hknown]
      exact .inl ⟨fits_of_ne_linked (by simp [hfate]), st, hround.trans (if_pos hknown),
        hbefore.keep hfate (mem_known_succ_of_kept htool hknown)⟩
    · rw [if_neg hknown] at hround
      cases hcand : candidate spans spans idx s with
      | none =>
        have hfate : fate spans idx = .dropped := by simp [fate, htool, hknown, hcand]
        simp only [hcand] at hround
        refine .inl ⟨fits_of_ne_linked (by simp [hfate]), _, hround, ?_, fun toolUseId' => ?_⟩
        · rw [mapIdx_relinked_of_dropped hs hfate, hbefore.out]
        · simp [mem_known_succ, htool, hcand, hbefore.requested]
      | some c =>
        have hname : NonEmpty s.toolName := (hvalid _ (List.mem_of_getElem? hs)).2
        exact linkAt_linked hnodup hbefore hname htool hknown hcand

end Round

/-! ### All rounds -/

section Rounds
variable {spans : List Span}

theorem before_start (spans : List Span) : Before spans 0 (start spans) where
  out := by
    have hid : ∀ k s, relinked spans 0 k s = s := by
      intro k s
      cases s <;> simp [relinked, extended, extra]
    refine List.ext_getElem? fun k => ?_
    cases hs : spans[k]? <;> simp [start, hs, hid]
  requested toolUseId := by simp [start, known]

/-- **The first rounds**: they go through exactly when each of them fits. -/
theorem rounds_spec (hvalid : ∀ s ∈ spans, SpanBase.Valid s.base ∧ s.DetailValid)
    (hnodup : (spans.map Span.id).Nodup) (n : ℕ) :
    ((∀ idx < n, Fits spans idx) ∧
        ∃ st, (List.range n).foldlM (linkAt spans) (start spans) = .ok st ∧ Before spans n st) ∨
      ((¬ ∀ idx < n, Fits spans idx) ∧
        ∃ e, (List.range n).foldlM (linkAt spans) (start spans) = .error e) := by
  induction n with
  | zero => exact .inl ⟨by simp, _, rfl, before_start spans⟩
  | succ n ih =>
    rw [List.range_succ, List.foldlM_append]
    obtain ⟨hfits, st, hst, hbefore⟩ | ⟨hunfit, e, he⟩ := ih
    · rw [hst]
      simp only [List.foldlM_cons, List.foldlM_nil, bind_pure, Order.lt_add_one_iff]
      obtain ⟨hfit, st', hst', hbefore'⟩ | ⟨hunfit, e, he⟩ := linkAt_spec hvalid hnodup hbefore
      · refine .inl ⟨fun idx hidx => ?_, st', hst', hbefore'⟩
        obtain rfl | hlt := hidx.eq_or_lt
        · exact hfit
        · exact hfits idx hlt
      · exact .inr ⟨fun h => hunfit (h n le_rfl), e, he⟩
    · refine .inr ⟨fun h => hunfit fun idx hidx => h idx (by omega), e, ?_⟩
      rw [he]
      rfl

theorem requested_of_mem_known {toolUseId : String} {n : ℕ} (h : toolUseId ∈ known spans n) :
    toolUseId ∈ spans.flatMap Span.requestedIds ∨
      ∃ i < n, ∃ c tool, .llmCall c ∈ spans ∧ fate spans i = .linked c.id ⟨tool, toolUseId⟩ := by
  induction n with
  | zero =>
    left
    simpa [known] using h
  | succ n ih =>
    by_cases hmem : toolUseId ∈ known spans n
    · refine (ih hmem).imp_right ?_
      rintro ⟨i, hi, hlinked⟩
      exact ⟨i, by omega, hlinked⟩
    · obtain hmem' | ⟨s, htool, hcand⟩ := mem_known_succ.mp h
      · exact absurd hmem' hmem
      · obtain ⟨c, hc⟩ := Option.isSome_iff_exists.mp hcand
        exact .inr ⟨n, by omega, c, s.toolName, candidate_mem hc, by simp [fate, htool, hmem, hc]⟩

theorem known_mono {m n : ℕ} (hmn : m ≤ n) {toolUseId : String} (h : toolUseId ∈ known spans m) :
    toolUseId ∈ known spans n := by
  induction hmn with
  | refl => exact h
  | step _ ih => exact mem_known_succ.mpr (.inl ih)

theorem mem_extra {n i : ℕ} (hi : i < n) {llmId : String} {r : ToolUseRequest}
    (h : fate spans i = .linked llmId r) : r ∈ extra spans n llmId :=
  List.mem_filterMap.mpr ⟨i, List.mem_range.mpr hi, by simp [h]⟩

theorem mem_known_of_not_dropped {k : ℕ} {s : ToolCallSpan} {toolUseId : String}
    (htool : toolAt spans k = some (s, toolUseId)) (hne : fate spans k ≠ .dropped) :
    toolUseId ∈ known spans (k + 1) := by
  rw [mem_known_succ]
  by_cases hmem : toolUseId ∈ known spans k
  · exact .inl hmem
  · refine .inr ⟨s, htool, ?_⟩
    cases hcand : candidate spans spans k s with
    | none => exact absurd (by simp [fate, htool, hmem, hcand]) hne
    | some c => rfl

theorem extended_mem (n : ℕ) {c : LLMCallSpan} (hc : .llmCall c ∈ spans) :
    .llmCall (extended spans n c) ∈ spans.mapIdx (relinked spans n) := by
  obtain ⟨k, hk, hget⟩ := List.getElem_of_mem hc
  exact List.mem_mapIdx.mpr ⟨k, hk, by rw [hget]; rfl⟩

theorem mem_requested_out {n : ℕ} {toolUseId : String} (h : toolUseId ∈ known spans n) :
    toolUseId ∈ (spans.mapIdx (relinked spans n)).flatMap Span.requestedIds := by
  rw [List.mem_flatMap]
  obtain hmem | ⟨i, hi, c, tool, hc, hlinked⟩ := requested_of_mem_known h
  · obtain ⟨s, hs, hid⟩ := List.mem_flatMap.mp hmem
    cases s with
    | llmCall c =>
      refine ⟨_, extended_mem n hs, ?_⟩
      obtain ⟨r, hr, hrid⟩ := List.mem_map.mp hid
      exact List.mem_map.mpr ⟨r, List.mem_append_left _ hr, hrid⟩
    | _ => simp [Span.requestedIds] at hid
  · exact ⟨_, extended_mem n hc,
      List.mem_map.mpr ⟨_, List.mem_append_right _ (mem_extra hi hlinked), rfl⟩⟩

theorem toolAt_of_toolUseId? {k : ℕ} (hk : k < spans.length) {toolUseId : String}
    (h : (relinked spans spans.length k spans[k]).toolUseId? = some toolUseId) :
    ∃ s, toolAt spans k = some (s, toolUseId) ∧ fate spans k ≠ .dropped := by
  cases hs : spans[k] with
  | toolCall s =>
    rw [hs] at h
    simp only [relinked, hk, true_and] at h
    split_ifs at h with hdropped
    · simp [Span.toolUseId?] at h
    · have hid : s.toolUseId = some toolUseId := h
      exact ⟨s, by simp [toolAt, hk, hs, hid], hdropped⟩
  | _ => simp [hs, relinked, Span.toolUseId?] at h

theorem Before.linked {st : Linking} (h : Before spans spans.length st) : Linked spans st.out where
  ids := by
    rw [h.out]
    refine List.ext_getElem? fun k => ?_
    cases hs : spans[k]? <;> simp [hs, id_relinked]
  requested s hs toolUseId hid := by
    rw [h.out] at hs ⊢
    obtain ⟨k, hk, rfl⟩ := List.mem_mapIdx.mp hs
    obtain ⟨s, htool, hne⟩ := toolAt_of_toolUseId? hk hid
    exact mem_requested_out (known_mono (by omega) (mem_known_of_not_dropped htool hne))
  kept c hc := by
    refine ⟨extended spans spans.length c, ?_, rfl, fun r hr => ?_⟩
    · rw [h.out]
      exact extended_mem _ hc
    · exact List.mem_append_left _ hr

/-- **When the spans are linked**: when each tool call that needs one fits its model call. -/
theorem linked_iff_fits (hvalid : ∀ s ∈ spans, SpanBase.Valid s.base ∧ s.DetailValid)
    (hnodup : (spans.map Span.id).Nodup) :
    (∃ out, linkToolUseIds spans = .ok out ∧ Linked spans out) ↔
      ∀ idx < spans.length, Fits spans idx := by
  unfold linkToolUseIds
  obtain ⟨hfits, st, hst, hbefore⟩ | ⟨hunfit, e, he⟩ := rounds_spec hvalid hnodup spans.length
  · rw [hst]
    exact iff_of_true ⟨st.out, rfl, hbefore.linked⟩ hfits
  · rw [he]
    refine iff_of_false ?_ hunfit
    rintro ⟨out, hout, -⟩
    exact nomatch hout

/-- A model call that asks for no tool. -/
def modelCall : Span :=
  .llmCall { id := "llm_1", name := "chat", startedAt := 0, provider := "openai", model := "gpt-4o" }

def toolCall (id toolUseId : String) : Span :=
  .toolCall {
    id := id
    parentId := some "llm_1"
    name := "search"
    startedAt := 0
    toolName := "search"
    toolUseId := some toolUseId }

def twoCalls : List Span := [modelCall, toolCall "tc_1" "call_1", toolCall "tc_2" "call_2"]

/-- One tool call under a model call that has not asked for it. -/
theorem linked_iff_fits_oneCall :
    ∃ out, linkToolUseIds [modelCall, toolCall "tc_1" "call_1"] = .ok out ∧
      Linked [modelCall, toolCall "tc_1" "call_1"] out :=
  (linked_iff_fits (by decide) (by decide)).mpr fun idx hidx => by
    have hlt : idx < 2 := hidx
    interval_cases idx
    · rintro s toolUseId htool
      simp [toolAt, modelCall] at htool
    · rintro s toolUseId htool llmId r hfate
      obtain ⟨rfl, rfl⟩ := Prod.mk.inj (Option.some.inj htool)
      refine ⟨by decide, fun _ i hi => ?_⟩
      obtain rfl : i = 0 := by omega
      simp [fate, toolAt, modelCall]

/-- Two tool calls under one model call: the second one's parent is no longer in the list. -/
theorem second_call_raises :
    (∀ s ∈ twoCalls, SpanBase.Valid s.base ∧ s.DetailValid) ∧ (twoCalls.map Span.id).Nodup ∧
      (∀ s ∈ twoCalls, ∀ parentId ∈ s.base.parentId, parentId ∈ twoCalls.map Span.id) ∧
      ¬ ∃ out, linkToolUseIds twoCalls = .ok out ∧ Linked twoCalls out := by
  refine ⟨by decide, by decide, by decide, ?_⟩
  have hraises : linkToolUseIds twoCalls = .error .notInList := rfl
  rintro ⟨out, hout, -⟩
  rw [hraises] at hout
  exact nomatch hout

end Rounds

end Selfevals.Trace.OtelLinking
