import Selfevals.Lib.Run
import Selfevals.Api.Sse

/-!
# The in-process broker

`SpanBroker` fans the spans of a trace out to the viewers that are subscribed. A call of the run
thread is put on the event loop, which runs the calls in order; a viewer's own steps come in
between. A span is handed to the subscribers there are, and nothing is handed out twice. The trace
is stored when it has been graded, if it is stored at all, or before the first call where it was
submitted whole.
-/

namespace Selfevals.Api.Broker

open Lib.Run Api.Sse

variable {ι α : Type}

/-! ### The broker -/

/-- `_QUEUE_MAXSIZE`. -/
def queueMaxsize : ℕ := 256

/-- A subscriber: its queue of events. -/
structure Subscriber (α : Type) where
  queue : List (Event α) := []
  closed : Bool := false
  /-- Its channel was closed when it came; it yields this state and ends. -/
  alreadyClosed : Option String := none

/-- The channel of a run: its subscribers, and how it was closed. -/
structure Channel (ι : Type) where
  subscribers : List ι := []
  closed : Bool := false
  finalState : Option String := none

/-- `final_state or "completed"`, of a closed channel. -/
def Channel.alreadyClosed (ch : Channel ι) : Option String :=
  if ch.closed then
    some (match ch.finalState with
      | none => "completed"
      | some final => if final = "" then "completed" else final)
  else none

theorem Channel.isSome_alreadyClosed (ch : Channel ι) : ch.alreadyClosed.isSome = ch.closed := by
  unfold Channel.alreadyClosed
  split_ifs with hclosed
  · exact hclosed.symm
  · simpa using hclosed

/-- The trace in the storage, the calls made and run, the channel, and the viewers. -/
structure State (ι α : Type) where
  stored : Bool := false
  made : ℕ := 0
  ran : ℕ := 0
  channel : Option (Channel ι) := none
  subscriber : ι → Option (Subscriber α) := fun _ => none
  view : ι → View α := fun _ => {}
  /-- How many spans had been handed out when the viewer subscribed. -/
  missed : ι → ℕ := fun _ => 0

/-- What the publisher and the viewers do. -/
inductive Op (ι : Type)
  /-- The run thread makes its next call. -/
  | call
  /-- The loop runs the next call. -/
  | runCallback
  | persist
  | readSnapshot (v : ι)
  | subscribe (v : ι)
  /-- The next event of the subscription is sent. -/
  | take (v : ι)
  | ping (v : ι)
  | leave (v : ι)

namespace Subscriber
variable (sub : Subscriber α)

/-- `queue.put_nowait`. -/
def putNowait (event : Event α) : Option (Subscriber α) :=
  if sub.queue.length < queueMaxsize then some { sub with queue := sub.queue ++ [event] } else none

/-- The event that a subscriber reads next. -/
def next? : Option (Event α) :=
  match sub.alreadyClosed with
  | some final => some (.closed final)
  | none => sub.queue.head?

/-- A slow subscriber is disconnected; its queue is as full for the close event. -/
def putSpan (view : α) : Subscriber α :=
  match sub.putNowait (.span view) with
  | some sub => sub
  | none =>
    let sub := { sub with closed := true }
    (sub.putNowait (.closed "disconnected")).getD sub

/-- The close marker, where the queue has room. -/
def putClosed (final : String) : Subscriber α := (sub.putNowait (.closed final)).getD sub

/-- What a call does to a subscriber of the open channel. -/
def on : Call α → Subscriber α
  | .markActive => sub
  | .publish view => sub.putSpan view
  | .close final => sub.putClosed final

end Subscriber

section Step
variable [DecidableEq ι]

namespace State
variable (s : State ι α)

/-- An event for every subscriber of a channel. -/
def toSubscribers (ch : Channel ι) (put : Subscriber α → Subscriber α) : State ι α :=
  { s with subscriber := fun v =>
    if v ∈ ch.subscribers then (s.subscriber v).map put else s.subscriber v }

/-- `_mark_active_sync`, `_publish_sync` and `_close_sync`. -/
def run : Call α → State ι α
  | .markActive => { s with channel := some (s.channel.getD {}) }
  | .publish view =>
    match s.channel with
    | none => s
    | some ch => if ch.closed then s else s.toSubscribers ch (·.putSpan view)
  | .close final =>
    match s.channel with
    | none => { s with channel := some { closed := true, finalState := some final } }
    | some ch =>
      let ch := { ch with closed := true, finalState := some final }
      { s with channel := some ch }.toSubscribers ch (·.putClosed final)

def setView (v : ι) (view : View α) : State ι α := { s with view := Function.update s.view v view }

def setSubscriber (v : ι) (sub : Subscriber α) : State ι α :=
  { s with subscriber := Function.update s.subscriber v (some sub) }

/-- The start of `subscribe`. -/
def subscribe (v : ι) : State ι α :=
  let ch := s.channel.getD {}
  { s.setSubscriber v { alreadyClosed := ch.alreadyClosed } with
    channel := some { ch with subscribers := ch.subscribers ++ [v] } }

/-- The end of `subscribe`: the subscriber is removed, and a closed channel with it if it is the
last. -/
def unsubscribe (v : ι) (sub : Subscriber α) : State ι α :=
  let s := s.setSubscriber v { sub with closed := true }
  match s.channel with
  | none => s
  | some ch =>
    let ch := { ch with subscribers := ch.subscribers.filter fun w =>
      (s.subscriber w).all (!·.closed) }
    { s with channel := if ch.subscribers.isEmpty && ch.closed then none else some ch }

end State

/-- One step. -/
def step (trace : Trace α) (s : State ι α) : Op ι → Option (State ι α)
  | .call => if s.made < (calls trace).length then some { s with made := s.made + 1 } else none
  | .runCallback =>
    if s.ran < s.made then (calls trace)[s.ran]?.map fun call =>
      { s.run call with ran := s.ran + 1 }
    else none
  | .persist => some { s with stored := true }
  | .readSnapshot v =>
    if (s.view v).stage = .connecting then
      some (s.setView v ((s.view v).readSnapshot (if s.stored then some trace else none)))
    else none
  | .subscribe v =>
    if (s.view v).stage = .subscribing then
      some { (s.subscribe v).setView v ((s.view v).goTo .live) with
        missed := Function.update s.missed v (published trace s.ran).length }
    else none
  | .take v =>
    match s.subscriber v with
    | none => none
    | some sub =>
      if (s.view v).stage = .live then
        sub.next?.map fun event =>
          (s.setSubscriber v { sub with queue := sub.queue.tail }).setView v
            ((s.view v).receive event)
      else none
  | .ping v =>
    if (s.view v).stage = .live then some (s.setView v ((s.view v).send .ping)) else none
  | .leave v =>
    if (s.view v).stage = .gone then none
    else
      let s := s.setView v ((s.view v).goTo .gone)
      match s.subscriber v with
      | none => some s
      -- of a closed channel it stays a subscriber
      | some sub => some (if sub.alreadyClosed.isSome then s else s.unsubscribe v sub)

/-! ### What the viewers are promised -/

/-- The trace has finished, and the loop has run every call. -/
def Finished (trace : Trace α) (s : State ι α) : Prop := s.ran = (calls trace).length

/-- The subscription has an event. -/
def Pending (s : State ι α) (v : ι) : Prop := ∃ sub, s.subscriber v = some sub ∧ sub.next?.isSome

/-- **All viewers are served.** -/
def AllServed (trace : Trace α) (s : State ι α) : Prop :=
  Served trace s.view (Finished trace s) (Pending s)

/-- No queue is full when an event is put. -/
def NoOverflow (s : State ι α) : Op ι → Prop
  | .runCallback => ∀ ch ∈ s.channel, ∀ v ∈ ch.subscribers, ∀ sub ∈ s.subscriber v,
      sub.queue.length < queueMaxsize
  | _ => True

/-- A viewer that is sent `complete` by the broker has subscribed before the first span was handed
out, of a trace without spans that were exported; and one that subscribes once the trace is over
finds the closed channel. -/
def Covered (trace : Trace α) (s : State ι α) : Op ι → Prop
  | .take v => ∀ sub ∈ s.subscriber v, ∀ event ∈ sub.next?, event.isClosed = true →
      s.missed v = 0 ∧ trace.announced = trace.spans
  | .subscribe _ => Finished trace s → ∃ ch ∈ s.channel, ch.closed = true
  | _ => True

instance (s : State ι α) (op : Op ι) : Decidable (NoOverflow s op) :=
  match op with
  | .runCallback => inferInstanceAs (Decidable (∀ ch ∈ s.channel, ∀ v ∈ ch.subscribers,
      ∀ sub ∈ s.subscriber v, sub.queue.length < queueMaxsize))
  | .call | .persist | .readSnapshot _ | .subscribe _ | .take _ | .ping _ | .leave _ =>
    inferInstanceAs (Decidable True)

instance (trace : Trace α) (s : State ι α) : Decidable (Finished trace s) :=
  inferInstanceAs (Decidable (_ = _))

instance [DecidableEq α] (trace : Trace α) (s : State ι α) (op : Op ι) :
    Decidable (Covered trace s op) :=
  match op with
  | .take v => inferInstanceAs (Decidable (∀ sub ∈ s.subscriber v, ∀ event ∈ sub.next?,
      event.isClosed = true → s.missed v = 0 ∧ trace.announced = trace.spans))
  | .subscribe _ =>
    inferInstanceAs (Decidable (Finished trace s → ∃ ch ∈ s.channel, ch.closed = true))
  | .call | .runCallback | .persist | .readSnapshot _ | .ping _ | .leave _ =>
    inferInstanceAs (Decidable True)

end Step

/-! ### What is kept -/

/-- The viewer is a subscriber of the channel. -/
def Enrolled (s : State ι α) (v : ι) : Prop := ∃ ch, s.channel = some ch ∧ v ∈ ch.subscribers

/-- What a live viewer has been sent and has in its queue. -/
def Attached (trace : Trace α) (ran missed : ℕ) (enrolled : Prop) (frames : List (Frame α))
    (sub : Subscriber α) : Prop :=
  match sub.alreadyClosed with
  | some _ => ran = (calls trace).length ∧ delivered frames = trace.announced.drop missed
  | none => sub.closed = false ∧ ∃ spans rest, sub.queue = spans.map Event.span ++ rest ∧
      delivered frames ++ spans = (published trace ran).drop missed ∧
      ((rest = [] ∧ (ran = (calls trace).length → spans = []) ∧
        (ran ≠ (calls trace).length → enrolled)) ∨
        ∃ final, rest = [.closed final] ∧ ran = (calls trace).length)

section Attached
variable {trace : Trace α} {ran missed : ℕ} {enrolled enrolled' : Prop} {frames : List (Frame α)}
  {sub : Subscriber α}

theorem Attached.mono (h : Attached trace ran missed enrolled frames sub)
    (himp : ran ≠ (calls trace).length → enrolled → enrolled') :
    Attached trace ran missed enrolled' frames sub := by
  unfold Attached at h ⊢
  split at h
  · exact h
  · obtain ⟨hclosed, spans, rest, hqueue, hsent, hrest⟩ := h
    refine ⟨hclosed, spans, rest, hqueue, hsent, hrest.imp_left fun ⟨hnil, hover, hin⟩ => ?_⟩
    exact ⟨hnil, hover, fun hran => himp hran (hin hran)⟩

theorem Attached.before_close (h : Attached trace ran missed enrolled frames sub)
    (hran : ran ≠ (calls trace).length) :
    sub.alreadyClosed = none ∧ sub.closed = false ∧ enrolled ∧ ∃ spans,
      sub.queue = spans.map Event.span ∧
        delivered frames ++ spans = (published trace ran).drop missed := by
  unfold Attached at h
  split at h
  · exact absurd h.1 hran
  · next hnone =>
    obtain ⟨hclosed, spans, rest, hqueue, hsent, ⟨rfl, -, hin⟩ | ⟨final, -, hover⟩⟩ := h
    · exact ⟨hnone, hclosed, hin hran, spans, by rw [hqueue, List.append_nil], hsent⟩
    · exact absurd hover hran

theorem Attached.delivered_of_closed (h : Attached trace ran missed enrolled frames sub)
    {final : String}
    (hnext : sub.next? = some (.closed final)) :
    ran = (calls trace).length ∧ delivered frames = trace.announced.drop missed := by
  unfold Attached at h
  unfold Subscriber.next? at hnext
  split at h
  · exact h
  · next hnone =>
    obtain ⟨-, spans, rest, hqueue, hsent, hrest⟩ := h
    rw [hnone] at hnext
    simp only [hqueue] at hnext
    cases spans with
    | cons a spans => simp at hnext
    | nil =>
      rcases hrest with ⟨rfl, -⟩ | ⟨_, rfl, hover⟩
      · simp at hnext
      · rw [List.append_nil, hover, published_length] at hsent
        exact ⟨hover, hsent⟩

/-- A viewer that takes a span has the rest before it, and the close event if the close has been
run. -/
theorem Attached.take_span (h : Attached trace ran missed enrolled frames sub) {a : α}
    (hnext : sub.next? = some (.span a)) :
    Attached trace ran missed enrolled (frames ++ [.span a]) { sub with queue := sub.queue.tail } ∧
      (ran = (calls trace).length → sub.alreadyClosed = none ∧ sub.queue.tail ≠ []) := by
  unfold Attached at h ⊢
  unfold Subscriber.next? at hnext
  split at h
  · next hsome => simp [hsome] at hnext
  · next hnone =>
    obtain ⟨hclosed, spans, rest, hqueue, hsent, hrest⟩ := h
    simp only [hnone, hqueue] at hnext ⊢
    cases spans with
    | nil =>
      rcases hrest with ⟨rfl, -⟩ | ⟨final, rfl, -⟩
      · simp at hnext
      · simp at hnext
    | cons b spans =>
      obtain rfl : b = a := by simpa using hnext
      refine ⟨⟨hclosed, spans, rest, rfl, ?_, ?_⟩, ?_⟩
      · rw [← hsent, delivered_append]
        simp [delivered, Frame.spans]
      · refine hrest.imp_left ?_
        rintro ⟨hnil, hover, hin⟩
        refine ⟨hnil, fun hran => ?_, hin⟩
        cases hover hran
      · intro hran
        rcases hrest with ⟨-, hover, -⟩ | ⟨final, rfl, -⟩
        · cases hover hran
        · simp

theorem Attached.run_call {call : Call α} (h : Attached trace ran missed enrolled frames sub)
    (hcall : (calls trace)[ran]? = some call) (hmissed : missed ≤ (published trace ran).length)
    (hroom : sub.queue.length < queueMaxsize) (henrolled : enrolled → enrolled') :
    Attached trace (ran + 1) missed enrolled' frames (sub.on call) ∧
      (ran + 1 = (calls trace).length → (sub.on call).next?.isSome) := by
  have hlt := (List.getElem?_eq_some_iff.mp hcall).1
  obtain ⟨hnone, hclosed, hin, spans, hqueue, hsent⟩ := h.before_close hlt.ne
  have hput : ∀ event, sub.putNowait event = some { sub with queue := sub.queue ++ [event] } :=
    fun event =>
    if_pos hroom
  have hdrop :
    (published trace (ran + 1)).drop missed = (published trace ran).drop missed ++ call.spans := by
    rw [published_succ hcall, List.drop_append_of_le_length hmissed]
  have hnext : (∀ final, call ≠ .close final) → ran + 1 ≠ (calls trace).length := by
    intro hne hlast
    rw [getElem?_calls_last hlast] at hcall
    exact hne _ (Option.some.inj hcall).symm
  unfold Attached
  cases call with
  | markActive =>
    have hne := hnext (by simp)
    simp only [Subscriber.on, hnone]
    refine ⟨⟨hclosed, spans,
      [], by rw [hqueue, List.append_nil], ?_, .inl ⟨rfl, ?_, fun _ => henrolled hin⟩⟩,
      fun hover => absurd hover hne⟩
    · rw [hdrop, hsent]
      simp [Call.spans]
    · exact fun hover => absurd hover hne
  | publish view =>
    have hne := hnext (by simp)
    simp only [Subscriber.on, Subscriber.putSpan, hput, hnone]
    refine ⟨⟨hclosed, spans ++ [view],
      [], by simp [hqueue], ?_, .inl ⟨rfl, ?_, fun _ => henrolled hin⟩⟩,
      fun hover => absurd hover hne⟩
    · rw [hdrop, ← List.append_assoc, hsent]
      rfl
    · exact fun hover => absurd hover hne
  | close final =>
    have hover := getElem?_calls_eq_close hcall
    simp only [Subscriber.on, Subscriber.putClosed, hput, Option.getD_some, hnone]
    refine ⟨⟨hclosed, spans,
      [.closed final], by rw [hqueue], ?_, .inr ⟨final, rfl, hover⟩⟩, fun _ => ?_⟩
    · rw [hdrop, hsent]
      simp [Call.spans]
    · simp [Subscriber.next?, hqueue]

end Attached

/-- What holds in every state of a run. -/
structure Inv (trace : Trace α) (s : State ι α) : Prop where
  made_le : s.made ≤ (calls trace).length
  ran_le : s.ran ≤ s.made
  opened : s.ran ≠ (calls trace).length → ∀ ch, s.channel = some ch → ch.closed = false
  missed_le : ∀ v, s.missed v ≤ (published trace s.ran).length
  sound : ∀ v, (s.view v).Sound
  live : ∀ v, (s.view v).stage = .live → ∃ sub, s.subscriber v = some sub ∧
    Attached trace s.ran (s.missed v) (Enrolled s v) (s.view v).frames sub

theorem inv_init (trace : Trace α) : Inv trace ({} : State ι α) where
  made_le := Nat.zero_le _
  ran_le := le_rfl
  opened _ _ h := by cases h
  missed_le _ := Nat.zero_le _
  sound _ := rfl
  live _ h := by cases h

section Preserved
variable {trace : Trace α} {s : State ι α}

theorem allServed_init (trace : Trace α) : AllServed trace ({} : State ι α) :=
  ⟨fun _ => served_of_incomplete fun _ h => absurd h List.not_mem_nil, fun _ _ h => by cases h⟩

theorem Inv.of_eq {s' : State ι α} (h : Inv trace s) (hmade : s'.made ≤ (calls trace).length)
    (hran : s'.ran = s.ran) (hle : s.made ≤ s'.made) (hchannel : s'.channel = s.channel)
    (hmissed : s'.missed = s.missed) (hsubscriber : s'.subscriber = s.subscriber)
    (hview : s'.view = s.view) : Inv trace s' where
  made_le := hmade
  ran_le := hran ▸ h.ran_le.trans hle
  opened := by rw [hran, hchannel]; exact h.opened
  missed_le := by rw [hran, hmissed]; exact h.missed_le
  sound := by rw [hview]; exact h.sound
  live := by
    unfold Enrolled
    rw [hran, hchannel, hmissed, hsubscriber, hview]
    exact h.live

section Viewer
variable [DecidableEq ι] {s' : State ι α} {v : ι} {view : View α}

theorem Inv.of_viewer (h : Inv trace s) (hmade : s'.made = s.made) (hran : s'.ran = s.ran)
    (hview : s'.view = Function.update s.view v view)
    (hsubscriber : ∀ w ≠ v, s'.subscriber w = s.subscriber w)
    (hmissed : ∀ w ≠ v, s'.missed w = s.missed w)
    (hmissed_le : s'.missed v ≤ (published trace s.ran).length)
    (hopened : s.ran ≠ (calls trace).length → ∀ ch, s'.channel = some ch → ch.closed = false)
    (henrolled : s.ran ≠ (calls trace).length → ∀ w ≠ v, (s.view w).stage = .live →
      Enrolled s w → Enrolled s' w)
    (hsound : view.Sound)
    (hlive : view.stage = .live → ∃ sub, s'.subscriber v = some sub ∧
      Attached trace s.ran (s'.missed v) (Enrolled s' v) view.frames sub) : Inv trace s' where
  made_le := hmade ▸ h.made_le
  ran_le := by rw [hran, hmade]; exact h.ran_le
  opened := by rw [hran]; exact hopened
  missed_le w := by
    rw [hran]
    by_cases hw : w = v
    · subst hw
      exact hmissed_le
    · rw [hmissed w hw]
      exact h.missed_le w
  sound w := by
    rw [hview]
    by_cases hw : w = v
    · subst hw
      rwa [Function.update_self]
    · rw [Function.update_of_ne hw]
      exact h.sound w
  live w := by
    rw [hview, hran]
    by_cases hw : w = v
    · subst hw
      rwa [Function.update_self]
    · rw [Function.update_of_ne hw, hsubscriber w hw, hmissed w hw]
      intro hstage
      obtain ⟨sub, hsub, hattached⟩ := h.live w hstage
      exact ⟨sub, hsub, hattached.mono fun hne => henrolled hne w hw hstage⟩

theorem Inv.setView (h : Inv trace s) (hsound : view.Sound)
    (hlive : view.stage = .live → ∃ sub, s.subscriber v = some sub ∧
      Attached trace s.ran (s.missed v) (Enrolled s v) view.frames sub) : Inv trace
        (s.setView v view) :=
  h.of_viewer rfl rfl rfl (fun _ _ => rfl) (fun _ _ => rfl) (h.missed_le v) h.opened
    (fun _ _ _ _ hin => hin) hsound hlive

theorem allServed_of_viewer_iff (hserved : AllServed trace s)
    (hview : s'.view = Function.update s.view v view) (hran : s'.ran = s.ran)
    (hsubscriber : ∀ w ≠ v, s'.subscriber w = s.subscriber w) :
    AllServed trace s' ↔ view.Served trace ∧
      (Finished trace s → view.stage = .live → Pending s' v) := by
  have hpending : ∀ w ≠ v, Pending s' w ↔ Pending s w := fun w hw => by
    rw [Pending, Pending, hsubscriber w hw]
  unfold AllServed Finished
  rw [hran, hview]
  exact served_update_iff hserved hpending

theorem allServed_setView_iff (hserved : AllServed trace s) :
    AllServed trace (s.setView v view) ↔
      view.Served trace ∧ (Finished trace s → view.stage = .live → Pending s v) :=
  allServed_of_viewer_iff hserved rfl rfl fun _ _ => rfl

end Viewer

end Preserved

/-! ### One step -/

section StepSpec
variable [DecidableEq ι] {trace : Trace α} {s s' : State ι α}

theorem subscriber_run {v : ι} {ch : Channel ι} (hchannel : s.channel = some ch)
    (hopen : ch.closed = false)
    (hv : v ∈ ch.subscribers) (call : Call α) :
    (s.run call).subscriber v = (s.subscriber v).map (·.on call) := by
  cases call with
  | markActive => simp [State.run, Subscriber.on]
  | publish view => simp [State.run, hchannel, hopen, State.toSubscribers, hv, Subscriber.on]
  | close final => simp [State.run, hchannel, State.toSubscribers, hv, Subscriber.on]

theorem enrolled_run {v : ι} (h : Enrolled s v) (call : Call α) : Enrolled (s.run call) v := by
  obtain ⟨ch, hchannel, hv⟩ := h
  cases call with
  | markActive => exact ⟨ch, by simp [State.run, hchannel], hv⟩
  | publish view =>
    refine ⟨ch, ?_, hv⟩
    simp only [State.run, hchannel]
    split_ifs
    · exact hchannel
    · exact hchannel
  | close final =>
    refine ⟨{ ch with closed := true, finalState := some final }, ?_, hv⟩
    simp only [State.run, hchannel]
    rfl

theorem run_frame (call : Call α) : (s.run call).view = s.view ∧ (s.run call).missed = s.missed ∧
    (s.run call).made = s.made := by
  cases call with
  | markActive => exact ⟨rfl, rfl, rfl⟩
  | publish view =>
    simp only [State.run]
    split
    · exact ⟨rfl, rfl, rfl⟩
    · split_ifs
      · exact ⟨rfl, rfl, rfl⟩
      · exact ⟨rfl, rfl, rfl⟩
  | close final =>
    simp only [State.run]
    split
    · exact ⟨rfl, rfl, rfl⟩
    · exact ⟨rfl, rfl, rfl⟩

theorem channel_run {call : Call α} (hcall : ∀ final, call ≠ .close final)
    (hopened : ∀ ch, s.channel = some ch → ch.closed = false) :
    ∀ ch, (s.run call).channel = some ch → ch.closed = false := by
  intro ch hch
  cases call with
  | markActive =>
    obtain rfl := Option.some.inj hch
    cases hchannel : s.channel with
    | none => rfl
    | some ch => exact hopened ch hchannel
  | publish view =>
    refine hopened ch ?_
    simp only [State.run] at hch
    split at hch
    · exact hch
    · split_ifs at hch
      · exact hch
      · exact hch
  | close final => exact absurd rfl (hcall final)

theorem runCallback_spec (h : Inv trace s) (hroom : NoOverflow s .runCallback) {call : Call α}
    (hlt : s.ran < s.made) (hcall : (calls trace)[s.ran]? = some call)
    (hs : s' = { s.run call with ran := s.ran + 1 }) :
    Inv trace s' ∧ (AllServed trace s → AllServed trace s') := by
  obtain ⟨hview, hmissed, hmade⟩ := run_frame (s := s) call
  have hne : s.ran ≠ (calls trace).length := (List.getElem?_eq_some_iff.mp hcall).1.ne
  have hlive : ∀ v, (s.view v).stage = .live → ∃ sub, s'.subscriber v = some sub ∧
      Attached trace (s.ran + 1) (s.missed v) (Enrolled s' v) (s.view v).frames sub ∧
      (s.ran + 1 = (calls trace).length → sub.next?.isSome) := by
    intro v hstage
    obtain ⟨sub, hsub, hattached⟩ := h.live v hstage
    obtain ⟨-, -, ⟨ch, hchannel, hv⟩, -⟩ := hattached.before_close hne
    refine ⟨sub.on call, ?_,
      hattached.run_call hcall (h.missed_le v) (hroom ch hchannel v hv sub hsub) ?_⟩
    · rw [hs]
      simpa [hsub] using subscriber_run hchannel (h.opened hne ch hchannel) hv call
    · intro hin
      rw [hs]
      exact enrolled_run hin call
  constructor
  · refine ⟨?_, ?_, fun hne' => ?_, fun v => ?_, fun v => ?_, fun v hstage => ?_⟩
    · rw [hs]
      exact hmade.le.trans h.made_le
    · rw [hs]
      exact hmade ▸ hlt
    · subst hs
      refine channel_run (fun final hfinal => hne' ?_) (h.opened hne)
      exact getElem?_calls_eq_close (hfinal ▸ hcall)
    · rw [hs]
      simp only [hmissed, published_succ hcall, List.length_append]
      exact (h.missed_le v).trans (Nat.le_add_right _ _)
    · rw [hs]
      simpa only [hview] using h.sound v
    · have hran : s'.ran = s.ran + 1 := by rw [hs]
      have hview' : s'.view = s.view := by rw [hs]; exact hview
      have hmissed' : s'.missed = s.missed := by rw [hs]; exact hmissed
      rw [hview'] at hstage
      obtain ⟨sub, hsub, hattached, -⟩ := hlive v hstage
      rw [hran, hview', hmissed']
      exact ⟨sub, hsub, hattached⟩
  · intro hserved
    have hview' : s'.view = s.view := by rw [hs]; exact hview
    refine ⟨fun v => ?_, fun hover v hstage => ?_⟩
    · rw [hview']
      exact hserved.1 v
    · rw [hview'] at hstage
      obtain ⟨sub, hsub, -, hnext⟩ := hlive v hstage
      have hover : s.ran + 1 = (calls trace).length := by rw [← hover, hs]
      exact ⟨sub, hsub, hnext hover⟩

theorem subscribe_spec {v : ι} (h : Inv trace s) (hstage : (s.view v).stage = .subscribing)
    (hs : s' = { (s.subscribe v).setView v ((s.view v).goTo .live) with
      missed := Function.update s.missed v (published trace s.ran).length }) :
    Inv trace s' ∧ (AllServed trace s → (AllServed trace s' ↔ Covered trace s (.subscribe v))) := by
  have hsound := h.sound v
  rw [View.Sound, hstage] at hsound
  obtain ⟨hincomplete, hdelivered⟩ := hsound
  have hsubscriber : ∀ w ≠ v, s'.subscriber w = s.subscriber w := by
    intro w hw
    rw [hs]
    exact Function.update_of_ne hw _ _
  have hview : s'.view = Function.update s.view v ((s.view v).goTo .live) := by rw [hs]; rfl
  have hmissed : s'.missed v = (published trace s.ran).length := by
    rw [hs]
    exact Function.update_self v _ _
  have hchannel : s'.channel = some { s.channel.getD {} with
      subscribers := (s.channel.getD {}).subscribers ++ [v] } := by
    rw [hs]
    rfl
  obtain ⟨sub, hsub, hqueue, hclosed, halready⟩ : ∃ sub : Subscriber α, s'.subscriber v = some sub ∧
      sub.queue = [] ∧ sub.closed = false ∧
        (sub.alreadyClosed.isSome ↔ (s.channel.getD {}).closed = true) := by
    refine ⟨_, by rw [hs]; exact Function.update_self v _ _, rfl, rfl, ?_⟩
    rw [← Channel.isSome_alreadyClosed]
  refine ⟨h.of_viewer (by rw [hs]; rfl) (by rw [hs]; rfl) hview hsubscriber ?_ ?_ ?_ ?_ ?_ ?_, ?_⟩
  · intro w hw
    rw [hs]
    exact Function.update_of_ne hw _ _
  · rw [hmissed]
  · intro hne ch hch
    obtain rfl := Option.some.inj (hchannel.symm.trans hch)
    cases hold : s.channel with
    | none => rfl
    | some ch => exact h.opened hne ch hold
  · rintro - w - - ⟨ch, hold, hw⟩
    refine ⟨_, hchannel, ?_⟩
    simp [hold, hw]
  · exact hincomplete
  · refine fun _ => ⟨sub, hsub, ?_⟩
    rw [hmissed]
    unfold Attached
    split
    · next hsome =>
      have hchclosed : (s.channel.getD {}).closed = true := halready.mp (by rw [hsome]; rfl)
      have hover : s.ran = (calls trace).length := by
        by_contra hne
        cases hold : s.channel with
        | none => simp [hold] at hchclosed
        | some ch => simp [hold, h.opened hne ch hold] at hchclosed
      refine ⟨hover, ?_⟩
      rw [hover, published_length, List.drop_length]
      exact hdelivered
    · refine ⟨hclosed, [], [], hqueue, ?_,
        .inl ⟨rfl, fun _ => rfl, fun _ => ⟨_, hchannel, by simp⟩⟩⟩
      rw [List.append_nil, List.drop_length]
      exact hdelivered
  · intro hserved
    rw [allServed_of_viewer_iff hserved hview (by rw [hs]; rfl) hsubscriber]
    have hpending : Pending s' v ↔ ∃ ch, s.channel = some ch ∧ ch.closed = true := by
      have hnext : sub.next?.isSome ↔ sub.alreadyClosed.isSome := by
        rw [Subscriber.next?, hqueue]
        cases sub.alreadyClosed with
        | none => simp
        | some final => simp
      rw [Pending, hsub]
      simp only [Option.some.injEq, exists_eq_left', hnext, halready]
      cases s.channel with
      | none => simp
      | some ch => simp
    rw [hpending]
    constructor
    · rintro ⟨-, hwait⟩ hover
      exact hwait hover rfl
    · exact fun hcovered => ⟨served_of_incomplete hincomplete, fun hover _ => hcovered hover⟩

theorem take_spec {v : ι} {sub : Subscriber α} {event : Event α} (h : Inv trace s)
    (hstage : (s.view v).stage = .live) (hsub : s.subscriber v = some sub) (hnext : sub.next? =
      some event)
    (hs : s' = (s.setSubscriber v { sub with queue := sub.queue.tail }).setView v
      ((s.view v).receive event)) :
    Inv trace s' ∧ (AllServed trace s → (AllServed trace s' ↔ Covered trace s (.take v))) := by
  have hsound := h.sound v
  rw [View.Sound, hstage] at hsound
  obtain ⟨sub', hsub', hattached⟩ := h.live v hstage
  obtain rfl := Option.some.inj (hsub.symm.trans hsub')
  have hsubscriber : ∀ w ≠ v, s'.subscriber w = s.subscriber w := by
    intro w hw
    rw [hs]
    exact Function.update_of_ne hw _ _
  have hsubscriber_self : s'.subscriber v = some { sub with queue := sub.queue.tail } := by
    rw [hs]
    exact Function.update_self v _ _
  have hview : s'.view = Function.update s.view v ((s.view v).receive event) := by rw [hs]; rfl
  have hmissed : s'.missed = s.missed := by rw [hs]; rfl
  have henrolled : ∀ w, Enrolled s' w ↔ Enrolled s w := fun w => by rw [hs]; rfl
  have hinv := fun hsound hlive => h.of_viewer (by rw [hs]; rfl) (by rw [hs]; rfl) hview hsubscriber
    (fun w _ => by rw [hmissed]) (by rw [hmissed]; exact h.missed_le v) (by rw [hs]; exact h.opened)
    (fun _ w _ _ => (henrolled w).mpr) hsound hlive
  cases event with
  | span a =>
    have hincomplete : Incomplete ((s.view v).receive (.span a)).frames := hsound.append (by simp)
    obtain ⟨htake, hrest⟩ := hattached.take_span hnext
    refine ⟨hinv ?_ fun _ => ⟨_, hsubscriber_self, ?_⟩, fun hserved => ?_⟩
    · show View.Sound { stage := (s.view v).stage, frames := _ }
      rw [View.Sound, hstage]
      exact hincomplete
    · rw [hmissed]
      exact htake.mono fun _ => (henrolled v).mpr
    · rw [allServed_of_viewer_iff hserved hview (by rw [hs]; rfl) hsubscriber]
      refine iff_of_true ⟨served_of_incomplete hincomplete,
        fun hover _ => ⟨_, hsubscriber_self, ?_⟩⟩ ?_
      · obtain ⟨hnone, hne⟩ := hrest hover
        cases htail : sub.queue.tail with
        | nil => exact absurd htail hne
        | cons event rest => simp [Subscriber.next?, hnone]
      · intro sub' hsub'' event hevent hclosed
        obtain rfl := Option.some.inj (hsub.symm.trans hsub'')
        obtain rfl := Option.some.inj (hnext.symm.trans hevent)
        cases hclosed
  | closed final =>
    refine ⟨hinv trivial fun hlive => (by cases hlive), fun hserved => ?_⟩
    have hle : s.missed v ≤ trace.announced.length :=
      (h.missed_le v).trans (prefix_published trace s.ran).length_le
    rw [allServed_of_viewer_iff hserved hview (by rw [hs]; rfl) hsubscriber, View.receive,
      served_complete_iff hsound, (hattached.delivered_of_closed hnext).2,
      forall_mem_drop_iff trace hle]
    constructor
    · rintro ⟨hall, -⟩ - - - - -
      exact hall
    · exact fun hcovered => ⟨hcovered sub hsub _ hnext rfl, fun _ hlive => (by cases hlive)⟩

theorem unsubscribe_frame {v : ι} (sub : Subscriber α) :
    (s.unsubscribe v sub).view = s.view ∧ (s.unsubscribe v sub).missed = s.missed ∧
      (s.unsubscribe v sub).made = s.made ∧ (s.unsubscribe v sub).ran = s.ran ∧
      ∀ w ≠ v, (s.unsubscribe v sub).subscriber w = s.subscriber w := by
  have hsub : ∀ w ≠ v,
    (s.setSubscriber v { sub with closed := true }).subscriber w = s.subscriber w :=
    fun w hw => Function.update_of_ne hw _ _
  unfold State.unsubscribe
  dsimp only
  split
  · exact ⟨rfl, rfl, rfl, rfl, hsub⟩
  · exact ⟨rfl, rfl, rfl, rfl, hsub⟩

theorem channel_unsubscribe (v : ι) (sub : Subscriber α) {ch : Channel ι}
    (hchannel : s.channel = some ch)
    (hopen : ch.closed = false) :
    ∃ ch', (s.unsubscribe v sub).channel = some ch' ∧ ch'.closed = false ∧
      ∀ w ≠ v, w ∈ ch.subscribers → (∃ sub', s.subscriber w = some sub' ∧ sub'.closed = false) →
        w ∈ ch'.subscribers := by
  refine ⟨{ ch with subscribers := ch.subscribers.filter fun w =>
    ((s.setSubscriber v { sub with closed := true }).subscriber w).all (!·.closed) }, ?_, hopen, ?_⟩
  · have hchannel' : (s.setSubscriber v { sub with closed := true }).channel = some ch := hchannel
    simp [State.unsubscribe, hchannel', hopen]
  · rintro w hw hmem ⟨sub', hsub', hclosed⟩
    refine List.mem_filter.mpr ⟨hmem, ?_⟩
    simp [State.setSubscriber, Function.update_of_ne hw, hsub', hclosed]

theorem leave_spec {v : ι} (h : Inv trace s) (hs : step trace s (.leave v) = some s') :
    Inv trace s' ∧ (AllServed trace s → AllServed trace s') := by
  have hstep : s'.view = Function.update s.view v ((s.view v).goTo .gone) ∧ s'.missed = s.missed ∧
      s'.made = s.made ∧ s'.ran = s.ran ∧ (∀ w ≠ v, s'.subscriber w = s.subscriber w) ∧
      (s'.channel = s.channel ∨ ∃ sub, s'.channel = (s.unsubscribe v sub).channel) := by
    simp only [step] at hs
    split_ifs at hs
    split at hs
    · obtain rfl := Option.some.inj hs
      exact ⟨rfl, rfl, rfl, rfl, fun _ _ => rfl, .inl rfl⟩
    · next sub _ =>
      split_ifs at hs
      · obtain rfl := Option.some.inj hs
        exact ⟨rfl, rfl, rfl, rfl, fun _ _ => rfl, .inl rfl⟩
      · obtain rfl := Option.some.inj hs
        obtain ⟨hview, hmissed, hmade, hran, hsubscriber⟩ :=
          unsubscribe_frame (s := s.setView v ((s.view v).goTo .gone)) (v := v) sub
        refine ⟨hview, hmissed, hmade, hran, hsubscriber, .inr ⟨sub, ?_⟩⟩
        unfold State.unsubscribe
        dsimp only [State.setView, State.setSubscriber]
        split <;> rfl
  obtain ⟨hview, hmissed, hmade, hran, hsubscriber, hchannel⟩ := hstep
  refine ⟨h.of_viewer hmade hran hview hsubscriber (fun w _ => by rw [hmissed])
    (by rw [hmissed]; exact h.missed_le v) ?_ ?_ trivial fun hlive => (by cases hlive),
    fun hserved => ?_⟩
  · intro hne ch hch
    rcases hchannel with hkept | ⟨sub, hkept⟩
    · exact h.opened hne ch (hkept.symm.trans hch)
    · cases hold : s.channel with
      | none =>
        have hnone : (s.unsubscribe v sub).channel = none := by
          have hold' : (s.setSubscriber v { sub with closed := true }).channel = none := hold
          simp only [State.unsubscribe, hold']
        rw [hkept, hnone] at hch
        cases hch
      | some ch₀ =>
        obtain ⟨ch', hch', hopen, -⟩ := channel_unsubscribe v sub hold (h.opened hne ch₀ hold)
        rw [hkept, hch'] at hch
        obtain rfl := Option.some.inj hch
        exact hopen
  · rintro hne w hw hstage ⟨ch, hold, hmem⟩
    rcases hchannel with hkept | ⟨sub, hkept⟩
    · exact ⟨ch, hkept.trans hold, hmem⟩
    · obtain ⟨ch', hch', -, hstays⟩ := channel_unsubscribe v sub hold (h.opened hne ch hold)
      obtain ⟨sub', hsub', hattached⟩ := h.live w hstage
      exact ⟨ch', hkept.trans hch',
        hstays w hw hmem ⟨sub', hsub', (hattached.before_close hne).2.1⟩⟩
  · refine (allServed_of_viewer_iff hserved hview hran hsubscriber).mpr ⟨?_,
      fun _ hlive => (by cases hlive)⟩
    exact hserved.1 v

/-- **One step** keeps the invariant, and serves the viewers exactly when it is covered. -/
theorem step_spec {op : Op ι} (h : Inv trace s) (hroom : NoOverflow s op)
    (hs : step trace s op = some s') :
    Inv trace s' ∧ (AllServed trace s → (AllServed trace s' ↔ Covered trace s op)) := by
  cases op with
  | call =>
    simp only [step] at hs
    split_ifs at hs with hlt
    obtain rfl := Option.some.inj hs
    exact ⟨h.of_eq hlt rfl (Nat.le_succ _) rfl rfl rfl rfl,
      fun hserved => iff_of_true hserved trivial⟩
  | runCallback =>
    simp only [step] at hs
    split_ifs at hs with hlt
    obtain ⟨call, hcall, rfl⟩ := Option.map_eq_some_iff.mp hs
    obtain ⟨hinv, hserved⟩ := runCallback_spec h hroom hlt hcall rfl
    exact ⟨hinv, fun hall => iff_of_true (hserved hall) trivial⟩
  | persist =>
    obtain rfl := Option.some.inj hs
    exact ⟨h.of_eq h.made_le rfl le_rfl rfl rfl rfl rfl, fun hserved => iff_of_true hserved trivial⟩
  | readSnapshot v =>
    by_cases hstage : (s.view v).stage = .connecting
    swap
    · simp [step, hstage] at hs
    rw [step, if_pos hstage] at hs
    obtain rfl := Option.some.inj hs
    have hframes : (s.view v).frames = [] := by
      have hsound := h.sound v
      rwa [View.Sound, hstage] at hsound
    obtain ⟨hserved, hsound, hlive⟩ := readSnapshot_spec hframes trace s.stored
    refine ⟨h.setView hsound fun hstage => absurd hstage hlive, fun hall => iff_of_true ?_ trivial⟩
    exact (allServed_setView_iff hall).mpr ⟨hserved, fun _ hstage => absurd hstage hlive⟩
  | subscribe v =>
    simp only [step] at hs
    split_ifs at hs with hstage
    obtain rfl := Option.some.inj hs
    exact subscribe_spec h hstage rfl
  | take v =>
    simp only [step] at hs
    split at hs
    · cases hs
    · next sub hsub =>
      split_ifs at hs with hstage
      obtain ⟨event, hnext, rfl⟩ := Option.map_eq_some_iff.mp hs
      exact take_spec h hstage hsub hnext rfl
  | ping v =>
    simp only [step] at hs
    split_ifs at hs with hstage
    obtain rfl := Option.some.inj hs
    obtain ⟨hserves, hsend, hdelivered⟩ := ping_spec trace (h.sound v) hstage
    obtain ⟨sub, hsub, hattached⟩ := h.live v hstage
    refine ⟨h.setView hsend fun _ => ⟨sub, hsub, ?_⟩, fun hall => iff_of_true ?_ trivial⟩
    · unfold Attached at hattached ⊢
      rwa [hdelivered]
    · exact (allServed_setView_iff hall).mpr
        ⟨hserves, fun hover _ => hall.2 hover v hstage⟩
  | leave v =>
    obtain ⟨hinv, hserved⟩ := leave_spec h hs
    exact ⟨hinv, fun hall => iff_of_true (hserved hall) trivial⟩

end StepSpec

/-- **All viewers are served along a run** in which no queue overflows exactly when each that is
sent `complete` by the broker has subscribed before the first span was handed out, and no span was
exported, and each that subscribes once the trace is over finds the closed channel. -/
theorem allServed_iff [DecidableEq ι] (trace : Trace α) (ops : List (Op ι)) (s : State ι α)
    (hs : exec (step trace) {} ops = some s) (hroom : Guarded (step trace) NoOverflow {} ops) :
    (∀ done left t, ops = done ++ left → exec (step trace) {} done = some t → AllServed trace t) ↔
      Guarded (step trace) (Covered trace) {} ops :=
  holds_iff_guarded (J := Inv trace) (fun _ _ _ hinv hroom hs => (step_spec hinv hroom hs).1)
    (fun _ _ _ hinv hall hroom hs => (step_spec hinv hroom hs).2 hall) (inv_init trace)
    (allServed_init trace) hroom hs

end Selfevals.Api.Broker
