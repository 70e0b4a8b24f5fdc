import Mathlib.Tactic

/-!
# The stream of a trace

`stream_trace` sends a viewer a snapshot of the stored trace, and if there is none the spans that a
broker gives it, until the broker says that the trace is closed. What is read of a trace is its
spans, as they are sent, and its final state. The broker is told of a span when the recorder finishes
it; a span that the agent exported over OTLP is put among the recorder's, and the broker is told
nothing. Heartbeats, and the viewer going away, may come at any time.

* `View` : what one request has sent, and where it is;
-/

namespace Selfevals.Api.Sse

/-- The final state of a trace. -/
inductive TraceState
  | completed
  | errored
  | timeout
  | aborted
deriving DecidableEq

def TraceState.value : TraceState → String
  | completed => "completed"
  | errored => "errored"
  | timeout => "timeout"
  | aborted => "aborted"

/-- A trace, once it is built; its spans have different ids. -/
structure Trace (α : Type) where
  spans : List α
  /-- Those that the recorder itself finished, in order. -/
  announced : List α
  finalState : TraceState
  nodup : spans.Nodup
  announced_sublist : announced.Sublist spans

/-- What a subscription yields. -/
inductive Event (α : Type)
  | span (view : α)
  | closed (finalState : String)
deriving DecidableEq

def Event.isClosed {α : Type} : Event α → Bool
  | .span _ => false
  | .closed _ => true

/-- What a viewer is sent. -/
inductive Frame (α : Type)
  | snapshot (spans : List α)
  | span (view : α)
  | ping
  | complete (finalState : String)
deriving DecidableEq

variable {ι α : Type}

def Frame.spans : Frame α → List α
  | .snapshot spans => spans
  | .span view => [view]
  | .ping | .complete _ => []

/-- The spans that a viewer has been sent. -/
def delivered (frames : List (Frame α)) : List α := frames.flatMap Frame.spans

/-- Where `stream_trace` is. -/
inductive Stage
  | connecting
  | subscribing
  | live
  | complete
  | gone
deriving DecidableEq

/-- What a viewer has been sent, and where it stands. -/
structure View (α : Type) where
  stage : Stage := .connecting
  frames : List (Frame α) := []

namespace View
variable (v : View α)

/-- One more frame. -/
def send (frame : Frame α) : View α := { v with frames := v.frames ++ [frame] }

def goTo (stage : Stage) : View α := { v with stage := stage }

/-- `load_trace`, and what is sent of it. -/
def readSnapshot : Option (Trace α) → View α
  | some trace =>
    let final := trace.finalState.value
    if final ≠ "" ∧ final ≠ "running" then
      ((v.send (.snapshot trace.spans)).send (.complete final)).goTo .complete
    else (v.send (.snapshot trace.spans)).goTo .subscribing
  | none => (v.send (.snapshot [])).goTo .subscribing

/-- The next event of the subscription. -/
def receive : Event α → View α
  | .span view => v.send (.span view)
  | .closed final => (v.send (.complete final)).goTo .complete

end View

/-! ### What the broker is told -/

/-- A call of `BrokerSpanSink`. -/
inductive Call (α : Type)
  | markActive
  | publish (view : α)
  | close (finalState : String)

/-- The spans that a call publishes. -/
def Call.spans : Call α → List α
  | .publish view => [view]
  | .markActive | .close _ => []

/-- The calls of a trace, in order: it starts, the recorder's spans finish, and it finishes. -/
def calls (trace : Trace α) : List (Call α) :=
  .markActive :: trace.announced.map .publish ++ [.close trace.finalState.value]

/-- The spans of the first calls. -/
def published (trace : Trace α) (ran : ℕ) : List α := ((calls trace).take ran).flatMap Call.spans

section Calls
variable (trace : Trace α) {n : ℕ}

theorem spans_calls : (calls trace).flatMap Call.spans = trace.announced := by
  simp [calls, Call.spans, List.flatMap_map]

theorem published_length : published trace (calls trace).length = trace.announced := by
  rw [published, List.take_length, spans_calls]

theorem prefix_published (ran : ℕ) : published trace ran <+: trace.announced := by
  refine ⟨((calls trace).drop ran).flatMap Call.spans, ?_⟩
  rw [published, ← List.flatMap_append, List.take_append_drop, spans_calls]

variable {trace}

theorem published_succ {call : Call α} (h : (calls trace)[n]? = some call) :
    published trace (n + 1) = published trace n ++ call.spans := by
  rw [published, List.take_add_one, h, List.flatMap_append]
  simp [published]

theorem getElem?_calls_eq_close {final : String} (h : (calls trace)[n]? = some (.close final)) :
    n + 1 = (calls trace).length := by
  have hlt := (List.getElem?_eq_some_iff.mp h).1
  by_contra hne
  simp only [calls, List.length_append, List.length_cons, List.length_map,
    List.length_nil] at hlt hne
  rw [calls, List.getElem?_append_left (by simp; omega)] at h
  simpa using List.mem_of_getElem? h

theorem getElem?_calls_last (h : n + 1 = (calls trace).length) :
    (calls trace)[n]? = some (.close trace.finalState.value) := by
  have hn : n = (.markActive :: trace.announced.map Call.publish : List (Call α)).length := by
    simp [calls] at h
    simp [h]
  rw [calls, hn, List.getElem?_concat_length]

end Calls

/-! ### Every viewer is served -/

/-- By the `complete` frame every span has been sent, and nothing follows that frame. -/
def View.Served (trace : Trace α) (v : View α) : Prop :=
  ∀ before final after, v.frames = before ++ .complete final :: after →
    (∀ span ∈ trace.spans, span ∈ delivered before) ∧ after = []

/-- **No viewer misses a span**, and once the trace is over each live viewer has an event pending.
-/
def Served (trace : Trace α) (view : ι → View α) (finished : Prop) (pending : ι → Prop) : Prop :=
  (∀ v, (view v).Served trace) ∧ (finished → ∀ v, (view v).stage = .live → pending v)

/-- There is no `complete` frame. -/
def Incomplete (frames : List (Frame α)) : Prop := ∀ final, Frame.complete final ∉ frames

/-- The frames at each stage of a request. -/
def View.Sound (v : View α) : Prop :=
  match v.stage with
  | .connecting => v.frames = []
  | .subscribing => Incomplete v.frames ∧ delivered v.frames = []
  | .live => Incomplete v.frames
  | .complete | .gone => True

section View
variable {trace : Trace α} {v : View α}

theorem delivered_append (frames more : List (Frame α)) :
    delivered (frames ++ more) = delivered frames ++ delivered more := List.flatMap_append

theorem Incomplete.append {frames : List (Frame α)} (h : Incomplete frames) {frame : Frame α}
    (hframe : ∀ final, frame ≠ .complete final) : Incomplete (frames ++ [frame]) := by
  intro final hmem
  rcases List.mem_append.mp hmem with hmem | hmem
  · exact h final hmem
  · exact hframe final (List.mem_singleton.mp hmem).symm

theorem served_of_incomplete (h : Incomplete v.frames) : v.Served trace := by
  intro before final after heq
  refine absurd ?_ (h final)
  rw [heq]
  exact List.mem_append_right _ List.mem_cons_self

theorem served_complete_iff (h : Incomplete v.frames) (final : String) (stage : Stage) :
    ((v.send (.complete final)).goTo stage).Served trace ↔
      ∀ span ∈ trace.spans, span ∈ delivered v.frames := by
  constructor
  · intro hserved
    exact (hserved v.frames final [] rfl).1
  · intro hall before final' after heq
    have heq : v.frames ++ [.complete final] = before ++ .complete final' :: after := heq
    rcases List.append_eq_append_iff.mp heq with ⟨more, hbefore, hrest⟩ | ⟨more, hframes, hrest⟩
    · cases more with
      | nil =>
        simp only [List.append_nil, List.nil_append, List.cons.injEq] at hbefore hrest
        rw [hbefore]
        exact ⟨hall, hrest.2.symm⟩
      | cons frame more => simp at hrest
    · cases more with
      | nil =>
        simp only [List.append_nil, List.nil_append, List.cons.injEq] at hframes hrest
        rw [← hframes]
        exact ⟨hall, hrest.2⟩
      | cons frame more =>
        obtain ⟨rfl, -⟩ := List.cons.inj hrest
        refine absurd ?_ (h final')
        rw [hframes]
        exact List.mem_append_right _ List.mem_cons_self

theorem readSnapshot_some (hv : v.frames = []) (trace : Trace α) :
    (v.readSnapshot (some trace)).Served trace ∧
      (v.readSnapshot (some trace)).stage = .complete := by
  have hfinal : trace.finalState.value ≠ "" ∧ trace.finalState.value ≠ "running" := by
    cases trace.finalState <;> decide
  rw [View.readSnapshot, if_pos hfinal]
  refine ⟨?_, rfl⟩
  have hincomplete : Incomplete (v.send (.snapshot trace.spans)).frames := by
    intro final hmem
    simp [View.send, hv] at hmem
  refine (served_complete_iff hincomplete _ _).mpr fun span hspan => ?_
  simpa [View.send, hv, delivered, Frame.spans] using hspan

theorem readSnapshot_spec (hv : v.frames = []) (trace : Trace α) (stored : Bool) :
    let v' := v.readSnapshot (if stored then some trace else none)
    v'.Served trace ∧ v'.Sound ∧ v'.stage ≠ .live := by
  cases stored with
  | true =>
    obtain ⟨hserved, hstage⟩ := readSnapshot_some hv trace
    refine ⟨hserved, ?_, by simp [hstage]⟩
    show View.Sound (v.readSnapshot (some trace))
    rw [View.Sound, hstage]
    trivial
  | false =>
    have hincomplete : Incomplete (v.readSnapshot none).frames := by
      intro final hmem
      simp [View.readSnapshot, View.send, View.goTo, hv] at hmem
    have hdelivered : delivered (v.readSnapshot none).frames = [] := by
      simp [View.readSnapshot, View.send, View.goTo, hv, delivered, Frame.spans]
    exact ⟨served_of_incomplete hincomplete,
      ⟨hincomplete, hdelivered⟩, by simp [View.readSnapshot, View.goTo]⟩

theorem ping_spec (trace : Trace α) (hv : v.Sound) (hstage : v.stage = .live) :
    (v.send .ping).Served trace ∧ (v.send .ping).Sound ∧
      delivered (v.send .ping).frames = delivered v.frames := by
  rw [View.Sound, hstage] at hv
  have hincomplete : Incomplete (v.send .ping).frames := hv.append (by simp)
  refine ⟨served_of_incomplete hincomplete, ?_, by simp [View.send, delivered, Frame.spans]⟩
  show View.Sound { stage := v.stage, frames := _ }
  rw [View.Sound, hstage]
  exact hincomplete

end View

theorem served_update_iff [DecidableEq ι] {trace : Trace α} {view : ι → View α} {finished : Prop}
    {pending pending' : ι →
      Prop} (hserved : Served trace view finished pending) {v : ι} {v' : View α}
    (hpending : ∀ w ≠ v, pending' w ↔ pending w) :
    Served trace (Function.update view v v') finished pending' ↔
      v'.Served trace ∧ (finished → v'.stage = .live → pending' v) := by
  constructor
  · rintro ⟨hall, hwait⟩
    have hv := hall v
    rw [Function.update_self] at hv
    refine ⟨hv, fun hfinished hstage => hwait hfinished v ?_⟩
    rwa [Function.update_self]
  · rintro ⟨hv, hwait⟩
    refine ⟨fun w => ?_, fun hfinished w hstage => ?_⟩
    · by_cases hw : w = v
      · subst hw
        rwa [Function.update_self]
      · rw [Function.update_of_ne hw]
        exact hserved.1 w
    · by_cases hw : w = v
      · subst hw
        rw [Function.update_self] at hstage
        exact hwait hfinished hstage
      · rw [Function.update_of_ne hw] at hstage
        exact (hpending w hw).mpr (hserved.2 hfinished w hstage)

/-- What the broker has been told of from a point on is every span exactly when that point is the
start, and no span was exported. -/
theorem forall_mem_drop_iff (trace : Trace α) {n : ℕ} (hn : n ≤ trace.announced.length) :
    (∀ a ∈ trace.spans, a ∈ trace.announced.drop n) ↔ n = 0 ∧ trace.announced = trace.spans := by
  constructor
  · intro hall
    have hsub : trace.spans ⊆ trace.announced := fun a ha => List.mem_of_mem_drop (hall a ha)
    have heq := trace.announced_sublist.eq_of_length_le (trace.nodup.subperm hsub).length_le
    refine ⟨?_, heq⟩
    have hnodup := trace.nodup
    rw [← heq] at hall hnodup
    cases hl : trace.announced with
    | nil =>
      rw [hl] at hn
      exact Nat.le_zero.mp hn
    | cons a l =>
      rw [hl] at hall hnodup
      cases n with
      | zero => rfl
      | succ n =>
        have hmem := hall a List.mem_cons_self
        rw [List.drop_succ_cons] at hmem
        exact absurd (List.mem_of_mem_drop hmem) (List.nodup_cons.mp hnodup).1
  · rintro ⟨rfl, heq⟩ a ha
    rwa [List.drop_zero, heq]

end Selfevals.Api.Sse
