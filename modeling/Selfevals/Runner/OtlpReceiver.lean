import Mathlib.Data.List.TakeWhile
import Selfevals.Lib.Run
import Selfevals.Runner.OtlpToRecorder

/-!
# The receiver that concurrent repetitions share

One receiver takes the spans of all repetitions of an executor. It has a slot for the recorder that
is bound and a queue for spans that arrive while none is: a repetition puts its recorder into the
slot, invokes its agent, drains the queue into whatever recorder is in the slot, empties the slot
and builds its trace, whose validators may raise. Repetitions run concurrently, and a batch that an
agent exports arrives some time later.

Each exported span is numbered and marked as early if its agent has not returned yet; no step reads
the marks.
-/

namespace Selfevals.Runner.OtlpReceiver

open Lib.Run Runner.OtlpToRecorder Trace.Recorder

/-! ### The steps -/

/-- A span as it was exported: by which repetition, as which span of all, and whether its agent was
still running. -/
structure Exported (κ : Type) where
  exporter : κ
  seq : ℕ
  early : Bool
  span : DecodedSpan

/-- Where `run_single` of a repetition is; `raised` when it has no trace to return. -/
inductive Phase
  | waiting | running | returned | drained | unbound | built | raised
deriving DecidableEq, Repr

/-- The receiver (`slot`, `pending`), the spans that each recorder was fed and the traces that were
built of them, the batches on the wire, and what was exported so far. Of the spans that a recorder
makes itself (`own`) there are none when the block around the invocation raised. -/
structure ReceiverState (κ : Type) where
  slot : Option κ := none
  pending : List (Exported κ) := []
  recorded : κ → List (Exported κ) := fun _ => []
  own : κ → Option (List Span) := fun _ => some []
  trace : κ → Option (List (Exported κ)) := fun _ => none
  phase : κ → Phase := fun _ => .waiting
  inFlight : List (List (Exported κ)) := []
  log : List (Exported κ) := []
  next : ℕ := 0

/-- What runs, exporters and the receiver do. -/
inductive Op (κ : Type)
  /-- `bind`, and the invocation begins. -/
  | bind (r : κ)
  /-- The agent exports a batch. -/
  | send (r : κ) (spans : List DecodedSpan)
  /-- A batch on the wire reaches `push`. -/
  | arrive (i : ℕ)
  /-- The invocation is over, and its turn and response are recorded, unless it or the recording
  raises what is no adapter error. -/
  | finish (r : κ) (own : Option (List Span))
  /-- `drain_into_current`. -/
  | drain (r : κ)
  | unbind (r : κ)
  /-- `recorder.build`. -/
  | build (r : κ)

section System
variable {κ : Type} [DecidableEq κ]

/-- What `feed_to_recorder` appends: the spans up to the first that does not build. -/
def accepted (es : List (Exported κ)) : List (Exported κ) :=
    es.takeWhile fun e => decide (Builds e.span)

/-- Every span of the batch builds, so that feeding it does not raise. -/
def AllBuild (es : List (Exported κ)) : Prop := ∀ e ∈ es, Builds e.span
deriving Decidable

namespace ReceiverState

def setPhase (s : ReceiverState κ) (r : κ) (p : Phase) : ReceiverState κ :=
  { s with phase := Function.update s.phase r p }

/-- A batch is taken off the wire. -/
def offWire (s : ReceiverState κ) (i : ℕ) : ReceiverState κ :=
  { s with inFlight := s.inFlight.eraseIdx i }

/-- `feed_to_recorder` into the recorder of a repetition. -/
def feed (s : ReceiverState κ) (r : κ) (es : List (Exported κ)) : ReceiverState κ :=
  { s with recorded := Function.update s.recorded r (s.recorded r ++ accepted es) }

/-- `push`: into the recorder in the slot, or onto the queue. -/
def push (s : ReceiverState κ) (es : List (Exported κ)) : ReceiverState κ :=
  match s.slot with
  | some r => s.feed r es
  | none => { s with pending := s.pending ++ es }

/-- `drain_into_current`, which raises when a span of the queue does not build. -/
def drainIntoCurrent (s : ReceiverState κ) : ReceiverState κ :=
  match s.slot with
  | some r => { s.feed r s.pending with pending := [] }
  | none => s

/-- A drain raises. -/
def DrainRaises (s : ReceiverState κ) : Prop := s.slot.isSome ∧ ¬AllBuild s.pending
deriving Decidable

/-- The spans that a recorder holds: those that it made itself and those that it was fed. -/
def spansOf (s : ReceiverState κ) (r : κ) : Option (List Span) :=
  (s.own r).map fun own => own ++ (s.recorded r).filterMap fun e => (buildSpan e.span).toOption

/-- The trace of a repetition, unless its block or a validator raises. -/
def buildTrace (s : ReceiverState κ) (r : κ) : Option BuiltTrace :=
  (s.spansOf r).bind fun spans => ({ spans } : TraceRecorder).build.toOption

/-- The block of a repetition did not raise, and the validators of the trace accept the spans of its
recorder. -/
def Buildable (s : ReceiverState κ) (r : κ) : Prop :=
  ∃ spans ∈ s.spansOf r,
    (spans.map (·.id)).Nodup ∧ ParentIdsExist spans ∧ ToolUseIdsLinked spans
deriving Decidable

omit [DecidableEq κ] in
theorem isSome_buildTrace_iff {s : ReceiverState κ} {r : κ} :
    (s.buildTrace r).isSome ↔ s.Buildable r := by
  unfold buildTrace Buildable
  rcases s.spansOf r with _ | spans
  · simp
  · have hsome (built : Except TraceError BuiltTrace) :
        built.toOption.isSome ↔ ∃ trace, built = .ok trace := by
      cases built <;> simp [Except.toOption]
    rw [Option.bind_some, hsome, TraceRecorder.exists_build_iff]
    simp

/-- The batch that a repetition exports now. -/
def batchOf (s : ReceiverState κ) (r : κ) (spans : List DecodedSpan) : List (Exported κ) :=
  spans.mapIdx fun i span => ⟨r, s.next + i, s.phase r = .running, span⟩

end ReceiverState

open ReceiverState

def init : ReceiverState κ := {}

/-- One step of a repetition or of the wire, where it is the turn of that step. -/
def step (s : ReceiverState κ) : Op κ → Option (ReceiverState κ)
  | .bind r =>
    if s.phase r = .waiting then some { s.setPhase r .running with slot := some r } else none
  | .send r spans =>
    if s.phase r = .waiting then none
    else some { s with
      inFlight := s.inFlight ++ [s.batchOf r spans]
      log := s.log ++ s.batchOf r spans
      next := s.next + spans.length }
  | .arrive i =>
    s.inFlight[i]?.map fun batch => (s.offWire i).push batch
  | .finish r own =>
    if s.phase r = .running then
      some { s.setPhase r .returned with own := Function.update s.own r own }
    else none
  | .drain r =>
    if s.phase r = .returned then
      some (s.drainIntoCurrent.setPhase r (if s.DrainRaises then .raised else .drained))
    else none
  | .unbind r =>
    if s.phase r = .drained then some { s.setPhase r .unbound with slot := none } else none
  | .build r =>
    if s.phase r = .unbound then
      match s.buildTrace r with
      | some _ => some { s.setPhase r .built with
          trace := Function.update s.trace r (some (s.recorded r)) }
      | none => some (s.setPhase r .raised)
    else none

/-! ### The property and the condition -/

/-- How often the span of a number is in a list. -/
def countOf (seq : ℕ) (es : List (Exported κ)) : ℕ := es.countP fun e => e.seq = seq

/-- Every repetition that has begun has its trace, or has raised. -/
def Finished (s : ReceiverState κ) : Prop :=
  ∀ r, s.phase r = .waiting ∨ s.phase r = .built ∨ s.phase r = .raised

/-- Every early span is in the trace of its repetition exactly once, and in no other trace. -/
def Delivered (s : ReceiverState κ) : Prop :=
  ∀ e ∈ s.log, e.early = true →
    (∃ t, s.trace e.exporter = some t ∧ countOf e.seq t = 1) ∧
      ∀ r, r ≠ e.exporter → ∀ t, s.trace r = some t → countOf e.seq t = 0

/-- A batch with early spans arrives while the repetition that exported it is in the slot, and every
span of it builds; when a repetition unbinds, none of its early spans is on the wire; and for a
repetition that has exported early spans no drain raises, nor its block, nor a validator of its
trace. -/
def Clean (s : ReceiverState κ) : Op κ → Prop
  | .arrive i => ∀ batch ∈ s.inFlight[i]?, ∀ e ∈ batch, e.early = true →
      s.slot = some e.exporter ∧ AllBuild batch
  | .drain r => s.DrainRaises → ∀ e ∈ s.log, e.exporter = r → e.early = false
  | .unbind r => ∀ e ∈ s.inFlight.flatten, e.exporter = r → e.early = false
  | .build r => ¬s.Buildable r → ∀ e ∈ s.log, e.exporter = r → e.early = false
  | _ => True

instance (s : ReceiverState κ) (op : Op κ) : Decidable (Clean s op) := by
  cases op <;> unfold Clean <;> infer_instance

/-! ### Counting -/

omit [DecidableEq κ] in
theorem countOf_append (seq : ℕ) (es es' : List (Exported κ)) :
    countOf seq (es ++ es') = countOf seq es + countOf seq es' := List.countP_append

omit [DecidableEq κ] in
theorem one_le_countOf_iff {seq : ℕ} {es : List (Exported κ)} :
    1 ≤ countOf seq es ↔ ∃ e ∈ es, e.seq = seq := by
  rw [Nat.succ_le_iff, countOf, List.countP_pos_iff]
  simp

omit [DecidableEq κ] in
theorem one_le_countOf {e : Exported κ} {es : List (Exported κ)} (h : e ∈ es) :
    1 ≤ countOf e.seq es := one_le_countOf_iff.mpr ⟨e, h, rfl⟩

omit [DecidableEq κ] in
theorem countOf_accepted_le (seq : ℕ) (es : List (Exported κ)) :
    countOf seq (accepted es) ≤ countOf seq es :=
  (List.takeWhile_sublist _).countP_le

omit [DecidableEq κ] in
theorem accepted_of_allBuild {es : List (Exported κ)} (h : AllBuild es) : accepted es = es :=
  List.takeWhile_eq_self_iff.mpr fun e he => decide_eq_true (h e he)

omit [DecidableEq κ] in
theorem countOf_flatten_eraseIdx (seq : ℕ) {batches : List (List (Exported κ))} {i : ℕ}
    {batch : List (Exported κ)} (h : batches[i]? = some batch) :
    countOf seq batches.flatten = countOf seq batch + countOf seq (batches.eraseIdx i).flatten := by
  induction batches generalizing i with
  | nil => cases h
  | cons b bs ih =>
    rw [List.flatten_cons, countOf_append]
    rcases i with _ | i
    · rw [List.getElem?_cons_zero] at h
      obtain rfl := Option.some.inj h
      rfl
    · rw [List.getElem?_cons_succ] at h
      rw [List.eraseIdx_cons_succ, List.flatten_cons, countOf_append, ih h]
      omega

omit [DecidableEq κ] in
theorem exists_left_out {es : List (Exported κ)} (h : ¬AllBuild es)
    (honce : ∀ seq, countOf seq es ≤ 1) : ∃ e ∈ es, countOf e.seq (accepted es) = 0 := by
  have hsplit := List.takeWhile_append_dropWhile (p := fun e => decide (Builds e.span)) (l := es)
  rcases hrest : es.dropWhile (fun e => decide (Builds e.span)) with _ | ⟨e, rest⟩
  · rw [hrest, List.append_nil] at hsplit
    refine absurd (fun e he => ?_) h
    have hall := List.takeWhile_eq_self_iff.mp hsplit e he
    exact of_decide_eq_true hall
  · rw [hrest] at hsplit
    have hmem : e ∈ es := by
      rw [← hsplit]
      exact List.mem_append_right _ List.mem_cons_self
    refine ⟨e, hmem, ?_⟩
    have hcount := honce e.seq
    rw [← hsplit, countOf_append] at hcount
    have hone : 1 ≤ countOf e.seq (e :: rest) := one_le_countOf List.mem_cons_self
    show countOf e.seq (es.takeWhile _) = 0
    omega

omit [DecidableEq κ] in
theorem countOf_batchOf_of_lt {s : ReceiverState κ} {r : κ} {spans : List DecodedSpan} {seq : ℕ}
    (h : seq < s.next ∨ s.next + spans.length ≤ seq) : countOf seq (s.batchOf r spans) = 0 := by
  rw [countOf, List.countP_eq_zero]
  intro e he
  obtain ⟨i, hi, rfl⟩ := List.mem_mapIdx.mp he
  simp only [decide_eq_true_eq]
  omega

omit [DecidableEq κ] in
theorem countOf_batchOf_le (s : ReceiverState κ) (r : κ) (spans : List DecodedSpan) (seq : ℕ) :
    countOf seq (s.batchOf r spans) ≤ 1 := by
  have hnodup : ((s.batchOf r spans).map (·.seq)).Nodup := by
    have hmap : (s.batchOf r spans).map (·.seq) = (List.range spans.length).map (s.next + ·) := by
      refine List.ext_getElem (by simp [batchOf]) fun i h h' => ?_
      simp [batchOf]
    rw [hmap]
    exact List.nodup_range.map (add_right_injective s.next)
  have hcount := List.nodup_iff_count_le_one.mp hnodup seq
  rw [List.count_eq_countP, List.countP_map] at hcount
  refine le_trans (le_of_eq (List.countP_congr fun e _ => ?_)) hcount
  simp

/-! ### Where a span is -/

/-- How often a span is on the wire or in the queue. -/
def undelivered (s : ReceiverState κ) (seq : ℕ) : ℕ :=
  countOf seq s.inFlight.flatten + countOf seq s.pending

/-- A span is in one place at most. -/
structure Counted (s : ReceiverState κ) : Prop where
  once : ∀ seq r, undelivered s seq + countOf seq (s.recorded r) ≤ 1
  apart : ∀ seq r r', r ≠ r' → countOf seq (s.recorded r) = 0 ∨ countOf seq (s.recorded r') = 0
  fresh : ∀ seq, s.next ≤ seq → undelivered s seq = 0 ∧ ∀ r, countOf seq (s.recorded r) = 0

/-- What is on the wire was exported, each batch by one repetition at one time. -/
structure Logged (s : ReceiverState κ) : Prop where
  known : ∀ batch ∈ s.inFlight, ∀ e ∈ batch, e ∈ s.log
  sameBatch : ∀ batch ∈ s.inFlight, ∀ e ∈ batch, ∀ e' ∈ batch,
    e.exporter = e'.exporter ∧ e.early = e'.early
  unique : ∀ e ∈ s.log, ∀ e' ∈ s.log, e.seq = e'.seq → e = e'
  bounded : ∀ e ∈ s.log, e.seq < s.next

/-- How far the repetitions are: one that exports has begun, one in the slot has not left it, and a
trace is what the recorder was fed. -/
structure Phased (s : ReceiverState κ) : Prop where
  sent : ∀ e ∈ s.log, s.phase e.exporter ≠ .waiting
  slot : ∀ r, s.slot = some r → s.phase r ≠ .waiting ∧ s.phase r ≠ .unbound ∧ s.phase r ≠ .built
  traces : ∀ r t, s.trace r = some t → s.phase r = .built ∧ t = s.recorded r
  built : ∀ r, s.phase r = .built → s.trace r = some (s.recorded r)

/-- What holds of every registered run. -/
structure Inv (s : ReceiverState κ) : Prop where
  counted : Counted s
  logged : Logged s
  phased : Phased s

omit [DecidableEq κ] in
theorem inv_init : Inv (init : ReceiverState κ) where
  counted := ⟨fun _ _ => Nat.zero_le _, fun _ _ _ _ => .inl rfl, fun _ _ => ⟨rfl, fun _ => rfl⟩⟩
  logged := ⟨fun _ h => absurd h List.not_mem_nil, fun _ h => absurd h List.not_mem_nil,
    fun _ h => absurd h List.not_mem_nil, fun _ h => absurd h List.not_mem_nil⟩
  phased := ⟨fun _ h => absurd h List.not_mem_nil, fun _ h => (nomatch h), fun _ _ h => (nomatch h),
    fun _ h => (nomatch h)⟩

section Feed
variable {s s' : ReceiverState κ} {es : List (Exported κ)} {r₀ : κ}

theorem countOf_feed (seq : ℕ) (r : κ) : countOf seq ((s.feed r₀ es).recorded r) =
    countOf seq (s.recorded r) + if r = r₀ then countOf seq (accepted es) else 0 := by
  show countOf seq (Function.update s.recorded r₀ _ r) = _
  by_cases hr : r = r₀
  · subst hr
    rw [Function.update_self, countOf_append, if_pos rfl]
  · rw [Function.update_of_ne hr, if_neg hr, Nat.add_zero]

theorem Counted.feed (h : Counted s) (hnext : s'.next = s.next)
    (hcount : ∀ seq, undelivered s seq = countOf seq es + undelivered s' seq)
    (hrecorded : s'.recorded = (s.feed r₀ es).recorded) : Counted s' := by
  have hle := fun seq => countOf_accepted_le seq es
  constructor
  · intro seq r
    have := h.once seq r
    have := hcount seq
    have := hle seq
    rw [hrecorded, countOf_feed]
    split_ifs <;> omega
  · intro seq r r' hne
    have := h.once seq r
    have := h.once seq r'
    have := h.apart seq r r' hne
    have := hcount seq
    have := hle seq
    rw [hrecorded, countOf_feed, countOf_feed]
    split_ifs with hr hr'
    · exact absurd (hr.trans hr'.symm) hne
    · omega
    · omega
    · omega
  · intro seq hseq
    obtain ⟨hzero, hrec⟩ := h.fresh seq (hnext ▸ hseq)
    have := hcount seq
    have := hle seq
    refine ⟨by omega, fun r => ?_⟩
    have := hrec r
    rw [hrecorded, countOf_feed]
    split_ifs <;> omega

omit [DecidableEq κ] in
theorem Counted.queue (h : Counted s) (hnext : s'.next = s.next)
    (hcount : ∀ seq, undelivered s' seq = undelivered s seq)
    (hrecorded : s'.recorded = s.recorded) : Counted s' := by
  constructor
  · intro seq r
    rw [hcount, hrecorded]
    exact h.once seq r
  · intro seq r r' hne
    rw [hrecorded]
    exact h.apart seq r r' hne
  · intro seq hseq
    rw [hcount, hrecorded]
    exact h.fresh seq (hnext ▸ hseq)

theorem Phased.feed (h : Phased s) (hslot : s.slot = some r₀) : Phased (s.feed r₀ es) := by
  have hne : ∀ r, s.phase r = .built → (s.feed r₀ es).recorded r = s.recorded r := by
    intro r hbuilt
    refine Function.update_of_ne ?_ _ _
    rintro rfl
    exact (h.slot r hslot).2.2 hbuilt
  refine ⟨h.sent, h.slot, fun r t ht => ?_, fun r hr => ?_⟩
  · obtain ⟨hbuilt, rfl⟩ := h.traces r t ht
    exact ⟨hbuilt, (hne r hbuilt).symm⟩
  · rw [hne r hr]
    exact h.built r hr

end Feed

/-! ### The invariant -/

section Steps
variable {s s' : ReceiverState κ}

theorem push_none {es : List (Exported κ)} (h : s.slot = none) :
    s.push es = { s with pending := s.pending ++ es } := by
  rw [ReceiverState.push, h]

theorem push_some {es : List (Exported κ)} {r₀ : κ} (h : s.slot = some r₀) :
    s.push es = s.feed r₀ es := by
  rw [ReceiverState.push, h]

theorem drainIntoCurrent_none (h : s.slot = none) : s.drainIntoCurrent = s := by
  rw [drainIntoCurrent, h]

theorem drainIntoCurrent_some {r₀ : κ} (h : s.slot = some r₀) :
    s.drainIntoCurrent = { s.feed r₀ s.pending with pending := [] } := by
  rw [drainIntoCurrent, h]

theorem push_frame (es : List (Exported κ)) : (s.push es).log = s.log ∧
    (s.push es).phase = s.phase ∧ (s.push es).inFlight = s.inFlight ∧ (s.push es).slot =
      s.slot := by
  rcases hslot : s.slot with _ | r₀
  · rw [push_none hslot]
    exact ⟨rfl, rfl, rfl, hslot⟩
  · rw [push_some hslot]
    exact ⟨rfl, rfl, rfl, hslot⟩

theorem drain_frame : s.drainIntoCurrent.log = s.log ∧ s.drainIntoCurrent.phase = s.phase ∧
    s.drainIntoCurrent.inFlight = s.inFlight ∧ s.drainIntoCurrent.slot = s.slot := by
  rcases hslot : s.slot with _ | r₀
  · rw [drainIntoCurrent_none hslot]
    exact ⟨rfl, rfl, rfl, hslot⟩
  · rw [drainIntoCurrent_some hslot]
    exact ⟨rfl, rfl, rfl, hslot⟩

/-- A repetition has exported a batch. -/
def afterSend (s : ReceiverState κ) (r : κ) (spans : List DecodedSpan) : ReceiverState κ :=
  { s with
    inFlight := s.inFlight ++ [s.batchOf r spans]
    log := s.log ++ s.batchOf r spans
    next := s.next + spans.length }

/-- What a step can do, with its guard. -/
inductive Stepped (s : ReceiverState κ) : Op κ → ReceiverState κ → Prop
  | bind {r : κ} (hr : s.phase r = .waiting) :
    Stepped s (.bind r) { s.setPhase r .running with slot := some r }
  | send {r : κ} {spans : List DecodedSpan} (hr : s.phase r ≠ .waiting) :
    Stepped s (.send r spans) (afterSend s r spans)
  | arrive {i : ℕ} {batch : List (Exported κ)} (hi : s.inFlight[i]? = some batch) :
    Stepped s (.arrive i) ((s.offWire i).push batch)
  | finish {r : κ} {own : Option (List Span)} (hr : s.phase r = .running) :
    Stepped s (.finish r own)
      { s.setPhase r .returned with own := Function.update s.own r own }
  | drain {r : κ} (hr : s.phase r = .returned) (hdrain : ¬s.DrainRaises) :
    Stepped s (.drain r) (s.drainIntoCurrent.setPhase r .drained)
  | raise {r : κ} (hr : s.phase r = .returned) (hdrain : s.DrainRaises) :
    Stepped s (.drain r) (s.drainIntoCurrent.setPhase r .raised)
  | unbind {r : κ} (hr : s.phase r = .drained) :
    Stepped s (.unbind r) { s.setPhase r .unbound with slot := none }
  | build {r : κ} (hr : s.phase r = .unbound) (hbuild : s.Buildable r) :
    Stepped s (.build r) { s.setPhase r .built with
      trace := Function.update s.trace r (some (s.recorded r)) }
  | refuse {r : κ} (hr : s.phase r = .unbound) (hbuild : ¬s.Buildable r) :
    Stepped s (.build r) (s.setPhase r .raised)

theorem stepped {op : Op κ} (hs : step s op = some s') : Stepped s op s' := by
  rcases op with r | ⟨r, spans⟩ | i | ⟨r, own⟩ | r | r | r
  case arrive =>
    simp only [step, Option.map_eq_some_iff] at hs
    obtain ⟨batch, hi, rfl⟩ := hs
    exact .arrive hi
  case drain =>
    simp only [step] at hs
    split_ifs at hs with hr hdrain
    · obtain rfl := Option.some.inj hs
      exact .raise hr hdrain
    · obtain rfl := Option.some.inj hs
      exact .drain hr hdrain
  case build =>
    simp only [step] at hs
    split_ifs at hs with hr
    have hbuild := s.isSome_buildTrace_iff (r := r)
    split at hs
    · next htrace =>
      obtain rfl := Option.some.inj hs
      exact .build hr (hbuild.mp (htrace ▸ rfl))
    · next htrace =>
      obtain rfl := Option.some.inj hs
      exact .refuse hr fun h => by simpa [htrace] using hbuild.mpr h
  all_goals
    simp only [step] at hs
    split_ifs at hs with hr
    obtain rfl := Option.some.inj hs
    constructor
    exact hr

omit [DecidableEq κ] in
theorem Inv.of_phased (h : Inv s) (hphased : Phased s') (hlog : s'.log = s.log)
    (hnext : s'.next = s.next) (hwire : s'.inFlight = s.inFlight) (hpending : s'.pending =
      s.pending)
    (hrecorded : s'.recorded = s.recorded) : Inv s' where
  counted := h.counted.queue hnext (fun seq => by rw [undelivered, hwire, hpending]; rfl) hrecorded
  logged := by
    obtain ⟨hknown, hsame, hunique, hbounded⟩ := h.logged
    constructor
    · rwa [hwire, hlog]
    · rwa [hwire]
    · rwa [hlog]
    · rwa [hlog, hnext]
  phased := hphased

theorem inv_push (h : Inv s) {i : ℕ} {batch : List (Exported κ)}
    (hi : s.inFlight[i]? = some batch) :
    Inv ((s.offWire i).push batch) := by
  have hlogged : Logged (s.offWire i) :=
    ⟨fun b hb => h.logged.known b (List.mem_of_mem_eraseIdx hb),
      fun b hb => h.logged.sameBatch b (List.mem_of_mem_eraseIdx hb), h.logged.unique,
      h.logged.bounded⟩
  have hphased : Phased (s.offWire i) :=
    ⟨h.phased.sent, h.phased.slot, h.phased.traces, h.phased.built⟩
  have hcount := fun seq => countOf_flatten_eraseIdx seq hi
  rcases hslot : (s.offWire i).slot with _ | r₀
  · rw [push_none hslot]
    refine ⟨h.counted.queue rfl (fun seq => ?_) rfl, ?_, ?_⟩
    · show countOf seq (s.inFlight.eraseIdx i).flatten + countOf seq (s.pending ++ batch) = _
      rw [undelivered, countOf_append, hcount seq]
      omega
    · exact ⟨hlogged.known, hlogged.sameBatch, hlogged.unique, hlogged.bounded⟩
    · exact ⟨hphased.sent, hphased.slot, hphased.traces, hphased.built⟩
  · rw [push_some hslot]
    refine ⟨h.counted.feed rfl (fun seq => ?_) rfl, ?_, ?_⟩
    · show _ = countOf seq batch +
        (countOf seq (s.inFlight.eraseIdx i).flatten + countOf seq s.pending)
      rw [undelivered, hcount seq, Nat.add_assoc]
    · exact ⟨hlogged.known, hlogged.sameBatch, hlogged.unique, hlogged.bounded⟩
    · exact hphased.feed hslot

theorem inv_drainIntoCurrent (h : Inv s) : Inv s.drainIntoCurrent := by
  rcases hslot : s.slot with _ | r₀
  · rw [drainIntoCurrent_none hslot]
    exact h
  · rw [drainIntoCurrent_some hslot]
    have hphased : Phased (s.feed r₀ s.pending) := h.phased.feed hslot
    refine ⟨h.counted.feed rfl (fun seq => ?_) rfl, ?_, ?_⟩
    · show countOf seq s.inFlight.flatten + countOf seq s.pending =
        countOf seq s.pending + (countOf seq s.inFlight.flatten + 0)
      omega
    · exact ⟨h.logged.known, h.logged.sameBatch, h.logged.unique, h.logged.bounded⟩
    · exact ⟨hphased.sent, hphased.slot, hphased.traces, hphased.built⟩

/-! A repetition exports a batch. -/

omit [DecidableEq κ] in
theorem countOf_flatten_concat (seq : ℕ) (batches : List (List (Exported κ)))
    (batch : List (Exported κ)) :
    countOf seq (batches ++ [batch]).flatten = countOf seq batches.flatten + countOf seq batch := by
  rw [List.flatten_append, countOf_append, List.flatten_singleton]

omit [DecidableEq κ] in
theorem mem_batchOf {r : κ} {spans : List DecodedSpan} {e : Exported κ}
    (he : e ∈ s.batchOf r spans) :
    e.exporter = r ∧ e.early = decide (s.phase r = .running) ∧
      s.next ≤ e.seq ∧ e.seq < s.next + spans.length := by
  obtain ⟨i, hi, rfl⟩ := List.mem_mapIdx.mp he
  exact ⟨rfl, rfl, Nat.le_add_right _ _, Nat.add_lt_add_left hi _⟩

omit [DecidableEq κ] in
theorem eq_of_mem_batchOf {r : κ} {spans : List DecodedSpan} {e e' : Exported κ}
    (he : e ∈ s.batchOf r spans) (he' : e' ∈ s.batchOf r spans) (hseq : e.seq = e'.seq) : e =
      e' := by
  obtain ⟨i, hi, rfl⟩ := List.mem_mapIdx.mp he
  obtain ⟨j, hj, rfl⟩ := List.mem_mapIdx.mp he'
  have hij : i = j := Nat.add_left_cancel hseq
  subst hij
  rfl

omit [DecidableEq κ] in
theorem mem_concat_wire {r : κ} {spans : List DecodedSpan} {batch : List (Exported κ)}
    (h : batch ∈ s.inFlight ++ [s.batchOf r spans]) :
    batch ∈ s.inFlight ∨ batch = s.batchOf r spans :=
  (List.mem_append.mp h).imp_right List.mem_singleton.mp

section Send
variable {r : κ} {spans : List DecodedSpan}

omit [DecidableEq κ] in
theorem undelivered_send (seq : ℕ) :
    countOf seq (s.inFlight ++ [s.batchOf r spans]).flatten + countOf seq s.pending =
      undelivered s seq + countOf seq (s.batchOf r spans) := by
  rw [countOf_flatten_concat, undelivered]
  omega

omit [DecidableEq κ] in
theorem counted_send (h : Counted s) : Counted (afterSend s r spans) where
  once seq r' := by
    show countOf seq (s.inFlight ++ [s.batchOf r spans]).flatten + countOf seq s.pending +
      countOf seq (s.recorded r') ≤ 1
    rw [undelivered_send]
    have honce := h.once seq r'
    have hle := countOf_batchOf_le s r spans seq
    by_cases hseq : s.next ≤ seq
    · obtain ⟨hzero, hrec⟩ := h.fresh seq hseq
      have := hrec r'
      omega
    · have hold : countOf seq (s.batchOf r spans) = 0 := countOf_batchOf_of_lt (.inl (by omega))
      omega
  apart := h.apart
  fresh seq hseq := by
    have hnew : s.next + spans.length ≤ seq := hseq
    obtain ⟨hzero, hrec⟩ := h.fresh seq (by omega)
    refine ⟨?_, hrec⟩
    show countOf seq (s.inFlight ++ [s.batchOf r spans]).flatten + countOf seq s.pending = 0
    rw [undelivered_send, hzero, countOf_batchOf_of_lt (.inr hnew)]

omit [DecidableEq κ] in
theorem logged_send (h : Logged s) : Logged (afterSend s r spans) where
  known batch hbatch e he := by
    obtain hold | rfl := mem_concat_wire hbatch
    · exact List.mem_append_left _ (h.known batch hold e he)
    · exact List.mem_append_right _ he
  sameBatch batch hbatch e he e' he' := by
    obtain hold | rfl := mem_concat_wire hbatch
    · exact h.sameBatch batch hold e he e' he'
    · obtain ⟨hexporter, hearly, -⟩ := mem_batchOf he
      obtain ⟨hexporter', hearly', -⟩ := mem_batchOf he'
      exact ⟨hexporter.trans hexporter'.symm, hearly.trans hearly'.symm⟩
  unique e he e' he' hseq := by
    -- an old number is below the new ones, and these are distinct
    obtain hold | hnew := List.mem_append.mp he <;> obtain hold' | hnew' := List.mem_append.mp he'
    · exact h.unique e hold e' hold' hseq
    · have := h.bounded e hold
      have := (mem_batchOf hnew').2.2.1
      omega
    · have := h.bounded e' hold'
      have := (mem_batchOf hnew).2.2.1
      omega
    · exact eq_of_mem_batchOf hnew hnew' hseq
  bounded e he := by
    show e.seq < s.next + spans.length
    obtain hold | hnew := List.mem_append.mp he
    · have := h.bounded e hold
      omega
    · exact (mem_batchOf hnew).2.2.2

omit [DecidableEq κ] in
theorem phased_send (h : Phased s) (hr : s.phase r ≠ .waiting) :
    Phased (afterSend s r spans) where
  sent e he := by
    obtain hold | hnew := List.mem_append.mp he
    · exact h.sent e hold
    · show s.phase e.exporter ≠ .waiting
      rw [(mem_batchOf hnew).1]
      exact hr
  slot := h.slot
  traces := h.traces
  built := h.built

end Send

/-! The repetitions go from phase to phase. -/

theorem update_ne {r r' : κ} {p q : Phase} (hp : p ≠ q) (h : s.phase r' ≠ q) :
    Function.update s.phase r p r' ≠ q := by
  rw [Function.update_apply]
  split_ifs
  · exact hp
  · exact h

theorem Phased.setPhase (h : Phased s) {r : κ} {p : Phase} (hp : p ≠ .waiting) (hbuilt : p ≠ .built)
    (hunbound : p ≠ .unbound) (hr : s.phase r ≠ .built) : Phased (s.setPhase r p) := by
  have hphase : ∀ r', (s.setPhase r p).phase r' = if r' = r then p else s.phase r' :=
    fun r' => Function.update_apply _ _ _ _
  refine ⟨fun e he => update_ne hp (h.sent e he), fun r' hslot => ?_, fun r' t ht => ?_,
    fun r' hr' => ?_⟩
  · obtain ⟨hwaiting, hunbound', hbuilt'⟩ := h.slot r' hslot
    exact ⟨update_ne hp hwaiting, update_ne hunbound hunbound', update_ne hbuilt hbuilt'⟩
  · obtain ⟨hb, hrec⟩ := h.traces r' t ht
    refine ⟨?_, hrec⟩
    rw [hphase, if_neg (by rintro rfl; exact hr hb)]
    exact hb
  · rw [hphase] at hr'
    split_ifs at hr' with heq
    · exact absurd hr' hbuilt
    · exact h.built r' hr'

theorem Phased.bind (h : Phased s) {r : κ} (hr : s.phase r = .waiting) :
    Phased { s.setPhase r .running with slot := some r } := by
  have hphased := h.setPhase (r := r) (p := .running) (by decide) (by decide) (by decide)
    (by rw [hr]; decide)
  refine ⟨hphased.sent, fun r' hslot => ?_, hphased.traces, hphased.built⟩
  obtain rfl := Option.some.inj hslot
  have hrunning : Function.update s.phase r .running r = .running := Function.update_self ..
  exact ⟨hrunning.trans_ne
    (by decide), hrunning.trans_ne (by decide), hrunning.trans_ne (by decide)⟩

theorem Phased.unbind (h : Phased s) {r : κ} (hr : s.phase r = .drained) :
    Phased { s.setPhase r .unbound with slot := none } := by
  refine ⟨fun e he => update_ne (by decide) (h.sent e he), fun r' hslot => (nomatch hslot),
    fun r' t ht => ?_, fun r' hr' => ?_⟩
  · obtain ⟨hbuilt, hrec⟩ := h.traces r' t ht
    have hne : r' ≠ r := by
      rintro rfl
      exact absurd (hr.symm.trans hbuilt) (by decide)
    exact ⟨(Function.update_of_ne hne ..).trans hbuilt, hrec⟩
  · refine h.built r' ?_
    by_contra hne
    exact update_ne (by decide) hne hr'

theorem Phased.build (h : Phased s) {r : κ} (hr : s.phase r = .unbound) :
    Phased { s.setPhase r .built with
      trace := Function.update s.trace r (some (s.recorded r)) } := by
  refine ⟨fun e he => update_ne (by decide) (h.sent e he), fun r' hslot => ?_, fun r' t ht => ?_,
    fun r' hr' => ?_⟩
  · have hne : r' ≠ r := by
      rintro rfl
      exact (h.slot _ hslot).2.1 hr
    have hsame : Function.update s.phase r .built r' = s.phase r' := Function.update_of_ne hne ..
    obtain ⟨hwaiting, hunbound, hbuilt⟩ := h.slot r' hslot
    exact ⟨hsame.trans_ne hwaiting, hsame.trans_ne hunbound, hsame.trans_ne hbuilt⟩
  · by_cases hrr : r' = r
    · subst hrr
      have htrace : Function.update s.trace r' (some (s.recorded r')) r' = some t := ht
      rw [Function.update_self] at htrace
      exact ⟨Function.update_self .., (Option.some.inj htrace).symm⟩
    · have htrace : Function.update s.trace r (some (s.recorded r)) r' = some t := ht
      rw [Function.update_of_ne hrr] at htrace
      obtain ⟨hbuilt, hrec⟩ := h.traces r' t htrace
      exact ⟨(Function.update_of_ne hrr ..).trans hbuilt, hrec⟩
  · by_cases hrr : r' = r
    · subst hrr
      exact Function.update_self ..
    · have hbuilt : Function.update s.phase r .built r' = .built := hr'
      rw [Function.update_of_ne hrr] at hbuilt
      exact (Function.update_of_ne hrr ..).trans (h.built r' hbuilt)

theorem inv_step {op : Op κ} (h : Inv s) (hs : step s op = some s') : Inv s' := by
  cases stepped hs with
  | bind hr => exact h.of_phased (h.phased.bind hr) rfl rfl rfl rfl rfl
  | send hr => exact ⟨counted_send h.counted, logged_send h.logged, phased_send h.phased hr⟩
  | arrive hi => exact inv_push h hi
  | finish hr =>
    have hphased := h.phased.setPhase (p := .returned) (by decide) (by decide) (by decide)
      (hr.trans_ne (by decide))
    exact h.of_phased ⟨hphased.sent, hphased.slot, hphased.traces, hphased.built⟩
      rfl rfl rfl rfl rfl
  | drain hr _ | raise hr _ =>
    have hdrained := inv_drainIntoCurrent h
    refine hdrained.of_phased (hdrained.phased.setPhase ?_ ?_ ?_ ?_) rfl rfl rfl rfl rfl
    · decide
    · decide
    · decide
    · rw [drain_frame.2.1, hr]
      decide
  | unbind hr => exact h.of_phased (h.phased.unbind hr) rfl rfl rfl rfl rfl
  | build hr _ => exact h.of_phased (h.phased.build hr) rfl rfl rfl rfl rfl
  | refuse hr _ =>
    refine h.of_phased (h.phased.setPhase ?_ ?_ ?_ (hr.trans_ne ?_)) rfl rfl rfl rfl rfl <;> decide

/-! ### Clean runs deliver -/

/-- An early span is on the wire while its repetition is bound, or in its recorder. -/
def Settled (s : ReceiverState κ) : Prop :=
  ∀ e ∈ s.log, e.early = true → s.phase e.exporter ≠ .raised ∧
    (countOf e.seq (s.recorded e.exporter) = 1 ∨
      countOf e.seq s.inFlight.flatten = 1 ∧ s.phase e.exporter ≠ .unbound ∧
        s.phase e.exporter ≠ .built)

theorem countOf_le_feed (seq : ℕ) (r r₀ : κ) (es : List (Exported κ)) :
    countOf seq (s.recorded r) ≤ countOf seq ((s.feed r₀ es).recorded r) := by
  rw [countOf_feed]
  exact Nat.le_add_right _ _

theorem countOf_le_push (seq : ℕ) (r : κ) (es : List (Exported κ)) :
    countOf seq (s.recorded r) ≤ countOf seq ((s.push es).recorded r) := by
  rcases hslot : s.slot with _ | r₀
  · rw [push_none hslot]
  · rw [push_some hslot]
    exact countOf_le_feed seq r r₀ es

theorem countOf_le_drain (seq : ℕ) (r : κ) :
    countOf seq (s.recorded r) ≤ countOf seq (s.drainIntoCurrent.recorded r) := by
  rcases hslot : s.slot with _ | r₀
  · rw [drainIntoCurrent_none hslot]
  · rw [drainIntoCurrent_some hslot]
    exact countOf_le_feed seq r r₀ s.pending

omit [DecidableEq κ] in
theorem recorded_once (h' : Inv s') {seq : ℕ} {r : κ} (hle : countOf seq (s.recorded r) ≤
    countOf seq (s'.recorded r)) (hone : countOf seq (s.recorded r) = 1) :
    countOf seq (s'.recorded r) = 1 := by
  have := h'.counted.once seq r
  omega

omit [DecidableEq κ] in
theorem eq_of_seq (h : Inv s) {batch : List (Exported κ)} (hbatch : batch ∈ s.inFlight)
    {e : Exported κ} (he : e ∈ s.log) (hcount : 1 ≤ countOf e.seq batch) : e ∈ batch := by
  obtain ⟨e', he', hseq⟩ := one_le_countOf_iff.mp hcount
  rwa [h.logged.unique e he e' (h.logged.known batch hbatch e' he') hseq.symm]

omit [DecidableEq κ] in
/-- A step of a repetition alone settles what was, where the repetitions of early spans do not
raise, nor leave the slot before their spans are off the wire. -/
theorem Settled.of_phase (h' : Inv s') (hsettled : Settled s) (hlog : s'.log = s.log)
    (hwire : s'.inFlight = s.inFlight)
    (hle : ∀ seq r, countOf seq (s.recorded r) ≤ countOf seq (s'.recorded r))
    (hraised : ∀ e ∈ s.log, e.early = true → s.phase e.exporter ≠ .raised →
      s'.phase e.exporter ≠ .raised)
    (hbound : ∀ e ∈ s.log, e.early = true → countOf e.seq s.inFlight.flatten = 1 →
      s.phase e.exporter ≠ .unbound → s.phase e.exporter ≠ .built →
      s'.phase e.exporter ≠ .unbound ∧ s'.phase e.exporter ≠ .built) : Settled s' := by
  intro e he hearly
  rw [hlog] at he
  obtain ⟨hnot, hplace⟩ := hsettled e he hearly
  refine ⟨hraised e he hearly hnot, hplace.imp (recorded_once h' (hle _ _)) ?_⟩
  rintro ⟨hone, hunbound, hbuilt⟩
  rw [hwire]
  exact ⟨hone, hbound e he hearly hone hunbound hbuilt⟩

theorem Settled.of_raised (h' : Inv s') (hsettled : Settled s) (hlog : s'.log = s.log)
    (hwire : s'.inFlight = s.inFlight)
    (hle : ∀ seq r, countOf seq (s.recorded r) ≤ countOf seq (s'.recorded r)) {r : κ}
    (hphase : s'.phase = Function.update s.phase r .raised)
    (hlate : ∀ e ∈ s.log, e.exporter = r → e.early = false) : Settled s' := by
  have hsame : ∀ e ∈ s.log, e.early = true → s'.phase e.exporter = s.phase e.exporter := by
    intro e he hearly
    have hne : e.exporter ≠ r := fun heq =>
      Bool.false_ne_true ((hlate e he heq).symm.trans hearly)
    rw [hphase, Function.update_of_ne hne]
  refine hsettled.of_phase h' hlog hwire hle
    (fun e he hearly => (hsame e he hearly).trans_ne) fun e he hearly _ hunbound hbuilt => ?_
  exact ⟨(hsame e he hearly).trans_ne hunbound, (hsame e he hearly).trans_ne hbuilt⟩

omit [DecidableEq κ] in
theorem settled_send {r : κ} {spans : List DecodedSpan} (hsettled : Settled s)
    (h' : Inv (afterSend s r spans)) : Settled (afterSend s r spans) := by
  intro e he hearly
  have hcount := countOf_flatten_concat e.seq s.inFlight (s.batchOf r spans)
  have honce : countOf e.seq (s.inFlight ++ [s.batchOf r spans]).flatten +
      countOf e.seq s.pending + countOf e.seq (s.recorded e.exporter) ≤ 1 :=
    h'.counted.once e.seq e.exporter
  obtain hold | hnew := List.mem_append.mp he
  · obtain ⟨hraised, hplace⟩ := hsettled e hold hearly
    refine ⟨hraised, hplace.imp_right fun ⟨hwire, hphase⟩ => ⟨?_, hphase⟩⟩
    show countOf e.seq (s.inFlight ++ [s.batchOf r spans]).flatten = 1
    omega
  · have hone := one_le_countOf hnew
    obtain ⟨hexporter, hrunning, -⟩ := mem_batchOf hnew
    have hphase : ∀ q ≠ Phase.running, s.phase e.exporter ≠ q := by
      intro q hq
      rw [hexporter, of_decide_eq_true (hrunning.symm.trans hearly)]
      exact hq.symm
    refine ⟨hphase _ (by decide), .inr ⟨?_, hphase _ (by decide), hphase _ (by decide)⟩⟩
    show countOf _ (s.inFlight ++ [s.batchOf r spans]).flatten = 1
    omega

theorem settled_push (h : Inv s) {i : ℕ} {batch : List (Exported κ)} (hsettled : Settled s)
    (hi : s.inFlight[i]? = some batch) (hclean : Clean s (.arrive i))
    (h' : Inv ((s.offWire i).push batch)) : Settled ((s.offWire i).push batch) := by
  have hbatch : batch ∈ s.inFlight := List.mem_of_getElem? hi
  obtain ⟨hlog, hphase, hwire', -⟩ := push_frame (s := s.offWire i) batch
  intro e he hearly
  rw [hlog] at he
  rw [hphase, hwire']
  obtain ⟨hraised, hplace⟩ := hsettled e he hearly
  refine ⟨hraised, ?_⟩
  obtain hrec | ⟨hwire, hbound⟩ := hplace
  · exact .inl (recorded_once h' (countOf_le_push (s := s.offWire i) e.seq e.exporter batch) hrec)
  · have hsplit := countOf_flatten_eraseIdx e.seq hi
    by_cases hin : 1 ≤ countOf e.seq batch
    · -- the span is in the batch that arrives, so its repetition is in the slot
      obtain ⟨hslot, hall⟩ := hclean batch hi e (eq_of_seq h hbatch he hin) hearly
      left
      have hle : 1 ≤ countOf e.seq (((s.offWire i).push batch).recorded e.exporter) := by
        rw [push_some (s := s.offWire i) hslot, countOf_feed, if_pos rfl, accepted_of_allBuild hall]
        omega
      have := h'.counted.once e.seq e.exporter
      omega
    · right
      refine ⟨?_, hbound⟩
      show countOf e.seq (s.inFlight.eraseIdx i).flatten = 1
      omega

theorem settled_step {op : Op κ} (h : Inv s) (hsettled : Settled s) (hclean : Clean s op)
    (hs : step s op = some s') : Settled s' := by
  have h' := inv_step h hs
  cases stepped hs with
  | @bind r hr =>
    -- a repetition that begins has exported nothing
    have hsame : ∀ e ∈ s.log, Function.update s.phase r .running e.exporter =
        s.phase e.exporter := by
      intro e he
      refine Function.update_of_ne ?_ ..
      rintro rfl
      exact h.phased.sent e he hr
    refine hsettled.of_phase h' rfl rfl (fun _ _ => le_rfl) (fun e he _ => (hsame e he).trans_ne)
      fun e he _ _ hunbound hbuilt => ?_
    exact ⟨(hsame e he).trans_ne hunbound, (hsame e he).trans_ne hbuilt⟩
  | send => exact settled_send hsettled h'
  | arrive hi => exact settled_push h hsettled hi hclean h'
  | finish =>
    exact hsettled.of_phase h' rfl rfl (fun _ _ => le_rfl) (fun _ _ _ => update_ne (by decide))
      fun _ _ _ _ hunbound hbuilt => ⟨update_ne (by decide) hunbound, update_ne (by decide) hbuilt⟩
  | @drain r =>
    have hphase : ∀ (e : Exported κ) (q : Phase), .drained ≠ q → s.phase e.exporter ≠ q →
        Function.update s.drainIntoCurrent.phase r .drained e.exporter ≠ q := by
      intro e q hq hne
      rw [drain_frame.2.1]
      exact update_ne hq hne
    refine hsettled.of_phase h' drain_frame.1 drain_frame.2.2.1 countOf_le_drain
      (fun e _ _ => hphase e _ (by decide)) fun e _ _ _ hunbound hbuilt => ?_
    exact ⟨hphase e _ (by decide) hunbound, hphase e _ (by decide) hbuilt⟩
  | @raise r _ hdrain =>
    have hphase : Function.update s.drainIntoCurrent.phase r .raised =
        Function.update s.phase r .raised := by rw [drain_frame.2.1]
    exact hsettled.of_raised h' drain_frame.1 drain_frame.2.2.1 countOf_le_drain hphase
      (hclean hdrain)
  | @unbind r hr =>
    refine hsettled.of_phase h' rfl rfl (fun _ _ => le_rfl) (fun _ _ _ => update_ne (by decide))
      fun e he hearly hwire hunbound hbuilt => ?_
    have hne : e.exporter ≠ r := by
      -- an early span of the repetition would be on the wire
      intro heq
      obtain ⟨e', he', hseq⟩ := one_le_countOf_iff.mp hwire.ge
      obtain ⟨batch, hbatch, hin⟩ := List.mem_flatten.mp he'
      obtain rfl := h.logged.unique e he e' (h.logged.known batch hbatch e' hin) hseq.symm
      exact Bool.false_ne_true ((hclean e he' heq).symm.trans hearly)
    have hsame : Function.update s.phase r .unbound e.exporter = s.phase e.exporter :=
      Function.update_of_ne hne ..
    exact ⟨hsame.trans_ne hunbound, hsame.trans_ne hbuilt⟩
  | @build r hr _ =>
    refine hsettled.of_phase h' rfl rfl (fun _ _ => le_rfl) (fun _ _ _ => update_ne (by decide))
      fun e he _ _ hunbound hbuilt => ?_
    have hne : e.exporter ≠ r := by
      rintro rfl
      exact hunbound hr
    have hsame : Function.update s.phase r .built e.exporter = s.phase e.exporter :=
      Function.update_of_ne hne ..
    exact ⟨hsame.trans_ne hunbound, hsame.trans_ne hbuilt⟩
  | refuse _ hbuild =>
    exact hsettled.of_raised h' rfl rfl (fun _ _ => le_rfl) rfl (hclean hbuild)

omit [DecidableEq κ] in
/-- **A finished state that is settled has delivered.** -/
theorem delivered_of_settled (h : Inv s) (hsettled : Settled s) (hfinished : Finished s) :
    Delivered s := by
  intro e he hearly
  obtain ⟨hraised, hplace⟩ := hsettled e he hearly
  have hbuilt : s.phase e.exporter = .built := by
    rcases hfinished e.exporter with hwaiting | hbuilt | hr
    · exact absurd hwaiting (h.phased.sent e he)
    · exact hbuilt
    · exact absurd hr hraised
  have hrec : countOf e.seq (s.recorded e.exporter) = 1 := hplace.resolve_right fun hwire =>
    hwire.2.2 hbuilt
  refine ⟨⟨_, h.phased.built e.exporter hbuilt, hrec⟩, fun r hr t ht => ?_⟩
  obtain ⟨-, rfl⟩ := h.phased.traces r t ht
  have := h.counted.apart e.seq r e.exporter hr
  omega

/-! ### Unclean runs lose a span -/

/-- The span does not get into the trace of its repetition any more: the repetition has raised, or
its recorder, which does not have the span, has left the slot or the span is nowhere. -/
def Lost (s : ReceiverState κ) (e : Exported κ) : Prop :=
  e ∈ s.log ∧ e.early = true ∧ (s.phase e.exporter = .raised ∨
    countOf e.seq (s.recorded e.exporter) = 0 ∧
      (s.slot ≠ some e.exporter ∨ undelivered s e.seq = 0))

theorem countOf_feed_eq_zero {seq : ℕ} {r r₀ : κ} {es : List (Exported κ)}
    (hzero : countOf seq (s.recorded r) = 0) (hfeed : r ≠ r₀ ∨ countOf seq es = 0) :
    countOf seq ((s.feed r₀ es).recorded r) = 0 := by
  have := countOf_accepted_le seq es
  rw [countOf_feed]
  split_ifs with hr
  · have := hfeed.resolve_left (not_not.mpr hr)
    omega
  · omega

theorem lost_push {e : Exported κ} {es : List (Exported κ)}
    (hzero : countOf e.seq (s.recorded e.exporter) = 0)
    (h : s.slot ≠ some e.exporter ∨ undelivered s e.seq = 0 ∧ countOf e.seq es = 0) :
    countOf e.seq ((s.push es).recorded e.exporter) = 0 ∧
      ((s.push es).slot ≠ some e.exporter ∨ undelivered (s.push es) e.seq = 0) := by
  rcases hslot : s.slot with _ | r₀
  · rw [push_none hslot]
    exact ⟨hzero, .inl (hslot.trans_ne (Option.some_ne_none _).symm)⟩
  · rw [push_some hslot]
    refine ⟨countOf_feed_eq_zero hzero ?_, h.imp id fun hgone => hgone.1⟩
    refine h.imp (fun hne heq => hne ?_) fun hgone => hgone.2
    rw [hslot, heq]

theorem lost_drain {e : Exported κ} (hzero : countOf e.seq (s.recorded e.exporter) = 0)
    (h : s.slot ≠ some e.exporter ∨ undelivered s e.seq = 0) :
    countOf e.seq (s.drainIntoCurrent.recorded e.exporter) = 0 ∧
      (s.drainIntoCurrent.slot ≠ some e.exporter ∨ undelivered s.drainIntoCurrent e.seq = 0) := by
  rcases hslot : s.slot with _ | r₀
  · rw [drainIntoCurrent_none hslot]
    exact ⟨hzero, h⟩
  · rw [drainIntoCurrent_some hslot]
    rcases h with hne | hgone
    · have hother : e.exporter ≠ r₀ := by
        rintro rfl
        exact hne hslot
      exact ⟨countOf_feed_eq_zero hzero (.inl hother), .inl hne⟩
    · unfold undelivered at hgone
      have hpending : countOf e.seq s.pending = 0 := by omega
      have hwire : countOf e.seq s.inFlight.flatten = 0 := by omega
      exact ⟨countOf_feed_eq_zero hzero (.inr hpending), .inr hwire⟩

theorem raised_step {op : Op κ} {r₀ : κ} (hraised : s.phase r₀ = .raised)
    (hs : step s op = some s') :
    s'.phase r₀ = .raised := by
  have hother : ∀ (r : κ) (p q : Phase), s.phase r = q → q ≠ .raised →
      Function.update s.phase r p r₀ = .raised := by
    rintro r p q hr hq
    refine (Function.update_of_ne ?_ ..).trans hraised
    rintro rfl
    exact hq (hr.symm.trans hraised)
  cases stepped hs with
  | bind hr | finish hr | unbind hr | build hr _ | refuse hr _ => exact hother _ _ _ hr (by decide)
  | send => exact hraised
  | @arrive i batch => rwa [(push_frame (s := s.offWire i) batch).2.1]
  | drain hr _ | raise hr _ =>
    show Function.update s.drainIntoCurrent.phase _ _ r₀ = .raised
    rw [drain_frame.2.1]
    exact hother _ _ _ hr (by decide)

/-- **What is lost stays lost.** -/
theorem lost_step {op : Op κ} {e : Exported κ} (h : Inv s) (hlost : Lost s e)
    (hs : step s op = some s') : Lost s' e := by
  obtain ⟨he, hearly, hplace⟩ := hlost
  have hraised := fun hraised : s.phase e.exporter = .raised => raised_step hraised hs
  cases stepped hs with
  | @bind r hr =>
    have hne : e.exporter ≠ r := by
      rintro rfl
      exact h.phased.sent e he hr
    exact ⟨he, hearly, hplace.imp hraised fun ⟨hzero, _⟩ =>
      ⟨hzero, .inl fun heq => hne (Option.some.inj heq).symm⟩⟩
  | @send r spans =>
    refine ⟨List.mem_append_left _ he, hearly, hplace.imp hraised fun ⟨hzero, hgone⟩ =>
      ⟨hzero, hgone.imp_right fun hgone => ?_⟩⟩
    show countOf e.seq (s.inFlight ++ [s.batchOf r spans]).flatten + countOf e.seq s.pending = 0
    rw [undelivered_send, hgone, countOf_batchOf_of_lt (.inl (h.logged.bounded e he))]
  | @arrive i batch hi =>
    obtain ⟨hlog, -⟩ := push_frame (s := s.offWire i) batch
    refine ⟨hlog.symm ▸ he, hearly, hplace.imp hraised fun ⟨hzero, hgone⟩ =>
      lost_push (s := s.offWire i) hzero (hgone.imp_right fun hgone => ?_)⟩
    have hsplit := countOf_flatten_eraseIdx e.seq hi
    unfold undelivered at hgone
    refine ⟨?_, by omega⟩
    show countOf e.seq (s.inFlight.eraseIdx i).flatten + countOf e.seq s.pending = 0
    omega
  | finish | build | refuse => exact ⟨he, hearly, hplace.imp_left hraised⟩
  | drain | raise =>
    exact ⟨(drain_frame (s := s)).1.symm ▸ he, hearly,
      hplace.imp hraised fun ⟨hzero, hgone⟩ => lost_drain hzero hgone⟩
  | unbind =>
    exact ⟨he, hearly, hplace.imp hraised fun ⟨hzero, _⟩ =>
      ⟨hzero, .inl (Option.some_ne_none _).symm⟩⟩

omit [DecidableEq κ] in
/-- **What is lost is not delivered.** -/
theorem not_delivered_of_lost {e : Exported κ} (h : Inv s) (hlost : Lost s e) : ¬Delivered s := by
  intro hdelivered
  obtain ⟨he, hearly, hplace⟩ := hlost
  obtain ⟨⟨t, ht, hone⟩, -⟩ := hdelivered e he hearly
  obtain ⟨hbuilt, rfl⟩ := h.phased.traces e.exporter t ht
  rcases hplace with hraised | ⟨hzero, -⟩
  · rw [hbuilt] at hraised
    cases hraised
  · omega

omit [DecidableEq κ] in
theorem not_recorded_of_wire (h : Inv s) {e : Exported κ} (he : e ∈ s.inFlight.flatten) (r : κ) :
    countOf e.seq (s.recorded r) = 0 := by
  have := one_le_countOf he
  have := h.counted.once e.seq r
  unfold undelivered at this
  omega

theorem lost_arrival (h : Inv s) {i : ℕ} {batch : List (Exported κ)}
    (hi : s.inFlight[i]? = some batch) {e : Exported κ} (he : e ∈ batch) (hearly : e.early = true)
    (hfail : ¬(s.slot = some e.exporter ∧ AllBuild batch)) :
    ∃ e, Lost ((s.offWire i).push batch) e := by
  have hbatch : batch ∈ s.inFlight := List.mem_of_getElem? hi
  have hwire : ∀ e ∈ batch, e ∈ s.inFlight.flatten :=
    fun e he => List.mem_flatten.mpr ⟨_, hbatch, he⟩
  obtain ⟨hlog, -, -, -⟩ := push_frame (s := s.offWire i) batch
  by_cases hslot : s.slot = some e.exporter
  · -- some span of the batch does not build, and the first is left out
    have honce : ∀ seq, countOf seq batch ≤ 1 := by
      intro seq
      have hsplit := countOf_flatten_eraseIdx seq hi
      have := h.counted.once seq e.exporter
      unfold undelivered at this
      omega
    obtain ⟨e', he', hout⟩ := exists_left_out (fun hall => hfail ⟨hslot, hall⟩) honce
    obtain ⟨hsame, hearly'⟩ := h.logged.sameBatch batch hbatch e he e' he'
    have hsplit := countOf_flatten_eraseIdx e'.seq hi
    have hone := one_le_countOf he'
    have hplace := h.counted.once e'.seq e'.exporter
    unfold undelivered at hplace
    refine ⟨e', hlog.symm ▸ h.logged.known batch hbatch e' he', hearly' ▸ hearly, .inr ?_⟩
    rw [push_some (s := s.offWire i) hslot]
    refine ⟨?_, .inr ?_⟩
    · rw [countOf_feed, hout, ite_self, Nat.add_zero]
      exact not_recorded_of_wire h (hwire e' he') e'.exporter
    · show countOf e'.seq (s.inFlight.eraseIdx i).flatten + countOf e'.seq s.pending = 0
      omega
  · -- it goes to another recorder, or onto the queue
    have hzero : countOf e.seq ((s.offWire i).recorded e.exporter) = 0 :=
      not_recorded_of_wire h (hwire e he) e.exporter
    exact ⟨e, hlog.symm ▸ h.logged.known batch hbatch e he, hearly,
      .inr (lost_push (s := s.offWire i) hzero (.inl hslot))⟩

/-- **A step that is not clean loses a span.** -/
theorem exists_lost {op : Op κ} (h : Inv s) (hclean : ¬Clean s op) (hs : step s op = some s') :
    ∃ e, Lost s' e := by
  cases stepped hs with
  | bind | send | finish => exact absurd trivial hclean
  | @arrive i batch hi =>
    simp only [Clean, not_forall] at hclean
    obtain ⟨_, hi', e, he, hearly, hfail⟩ := hclean
    obtain rfl := Option.some.inj (hi.symm.trans hi')
    exact lost_arrival h hi he hearly hfail
  | drain _ hdrain =>
    simp only [Clean, not_forall] at hclean
    exact absurd hclean.1 hdrain
  | raise =>
    simp only [Clean, not_forall] at hclean
    obtain ⟨-, e, he, rfl, hearly⟩ := hclean
    exact ⟨e, (drain_frame (s := s)).1.symm ▸ he, Bool.not_eq_false _ ▸ hearly,
      .inl (Function.update_self ..)⟩
  | unbind =>
    simp only [Clean, not_forall] at hclean
    obtain ⟨e, he, rfl, hearly⟩ := hclean
    obtain ⟨batch, hbatch, hin⟩ := List.mem_flatten.mp he
    exact ⟨e, h.logged.known batch hbatch e hin, Bool.not_eq_false _ ▸ hearly,
      .inr ⟨not_recorded_of_wire h he e.exporter, .inl (Option.some_ne_none _).symm⟩⟩
  | build _ hbuild =>
    simp only [Clean, not_forall] at hclean
    exact absurd hbuild hclean.1
  | refuse =>
    simp only [Clean, not_forall] at hclean
    obtain ⟨-, e, he, rfl, hearly⟩ := hclean
    exact ⟨e, he, Bool.not_eq_false _ ▸ hearly, .inl (Function.update_self ..)⟩

/-! ### Runs -/

/-- **A run that is finished delivers exactly when it is clean.** -/
theorem delivered_iff_clean {ops : List (Op κ)}
    (hs : exec step (init : ReceiverState κ) ops = some s)
    (hfinished : Finished s) : Delivered s ↔ Guarded step Clean (init : ReceiverState κ) ops := by
  have hinv : ∀ {as : List (Op κ)} {t : ReceiverState κ}, exec step init as = some t → Inv t :=
    fun h => inv_of_exec (fun _ _ _ hI hs => inv_step hI hs) inv_init h
  constructor
  · intro hdelivered
    refine guarded_iff.mpr fun pre op post t hops ht => ?_
    by_contra hclean
    rw [hops, exec_append_of ht] at hs
    obtain ⟨u, hu, hrest⟩ := exec_cons_eq_some.mp hs
    obtain ⟨e, hlost⟩ := exists_lost (hinv ht) hclean hu
    have hrun : Inv s ∧ Lost s e := inv_of_exec (I := fun s => Inv s ∧ Lost s e)
      (fun _ _ _ hI hs => ⟨inv_step hI.1 hs, lost_step hI.1 hI.2 hs⟩)
      ⟨inv_step (hinv ht) hu, hlost⟩ hrest
    exact not_delivered_of_lost hrun.1 hrun.2 hdelivered
  · intro hclean
    have hrun : Inv s ∧ Settled s := inv_of_guarded (I := fun s => Inv s ∧ Settled s)
      (fun _ _ _ hI hG hs => ⟨inv_step hI.1 hs, settled_step hI.1 hI.2 hG hs⟩)
      ⟨inv_init, fun _ h => absurd h List.not_mem_nil⟩ hclean hs
    exact delivered_of_settled hrun.1 hrun.2 hfinished

end Steps
end System

/-! ### One repetition, and two at once -/

/-- A step of an agent. -/
def agentStep : DecodedSpan where
  name := "step"
  spanId := "a1"
  startTime := 1700000000000000000
  spanId_ne := by decide
  spanId_hex := by simp
  parentSpanId_hex := by simp

/-- What a recorder makes of an invocation itself: the response, below the turn of the case. -/
def turnSpans : List Span :=
  [{ id := "sp_1", parentId := some "sp_0",
      body := .llmCall { tokens := { total_covers := le_rfl } } },
    { id := "sp_0", body := .agentTurn }]

/-- One repetition runs alone. -/
def alone : List (Op Bool) :=
  [.bind false, .send false [agentStep], .arrive 0, .finish false (some turnSpans), .drain false,
    .unbind false, .build false]

/-- Its span is delivered. -/
theorem delivered_alone : ∃ s, exec step
    (init : ReceiverState Bool) alone = some s ∧ Delivered s := by
  have hrun : ∃ s, exec step (init : ReceiverState Bool) alone = some s ∧ Finished s := by
    refine ⟨_, rfl, fun r => ?_⟩
    rcases r with _ | _
    · exact .inr (.inl rfl)
    · exact .inl rfl
  obtain ⟨s, hs, hfinished⟩ := hrun
  exact ⟨s, hs, (delivered_iff_clean hs hfinished).mpr (by decide +kernel)⟩

/-- Two repetitions run at once: the second is in the slot when the first exports. -/
def atOnce : List (Op Bool) :=
  [.bind false, .bind true, .send false [agentStep], .arrive 0, .finish false (some turnSpans),
    .finish true (some turnSpans), .drain false, .drain true, .unbind false, .unbind true,
    .build false, .build true]

/-- The span of the first ends up in the trace of the second. -/
theorem not_all_delivered : ¬∀ (ops : List (Op Bool)) (s : ReceiverState Bool),
    exec step init ops = some s → Finished s → Delivered s := by
  intro h
  have hrun : ∃ s, exec step (init : ReceiverState Bool) atOnce = some s ∧ Finished s ∧
      ∃ e ∈ s.log, e.early = true ∧ s.trace e.exporter = some [] := by
    refine ⟨_, rfl, fun r => ?_, _, List.mem_cons_self, rfl, rfl⟩
    rcases r with _ | _
    · exact .inr (.inl rfl)
    · exact .inr (.inl rfl)
  obtain ⟨s, hs, hfinished, e, he, hearly, htrace⟩ := hrun
  obtain ⟨⟨t, ht, hone⟩, -⟩ := h atOnce s hs hfinished e he hearly
  obtain rfl := Option.some.inj (htrace.symm.trans ht)
  cases hone

end Selfevals.Runner.OtlpReceiver
