import Selfevals.Api.Broker

/-!
# What the subscribers of a topic are given

One topic of the in-process broker, with any calls in any order, and subscribers that come, ask for
their next event and leave. A queue that is full loses what is put: a span, which leaves a gap if
there is room again later, or the close event, which leaves the subscriber waiting.
-/

namespace Selfevals.Api.SpanDelivery

open Lib.Run Api.Sse Api.Broker

variable {ι α : Type}

/-! ### The topic -/

/-- Where a viewer stands. -/
inductive Phase
  | away
  | live
  /-- The close event has been yielded. -/
  | ended
  | gone
deriving DecidableEq

/-- The topic, and what has been published, each event with its number. A subscriber knows how many
there were when it came. -/
structure Topic (ι α : Type) where
  broker : State ι (ℕ × α) := {}
  published : List (ℕ × α) := []
  closed : Bool := false
  since : ι → ℕ := fun _ => 0
  yields : ι → List (Event (ℕ × α)) := fun _ => []
  phase : ι → Phase := fun _ => .away

/-- What the publisher and the viewers do. -/
inductive Op (ι α : Type)
  | markActive
  | publish (event : α)
  | close (final : String)
  | subscribe (v : ι)
  /-- The next event is asked for; there is no such step while the subscription waits. -/
  | next (v : ι)
  | leave (v : ι)

section Step
variable [DecidableEq ι]

/-- The end of the subscription; one that found the topic closed stays a subscriber. -/
def Topic.finish (t : Topic ι α) (v : ι) (sub : Subscriber (ℕ × α)) : Topic ι α :=
  { t with
    broker := if sub.alreadyClosed.isSome then t.broker else t.broker.unsubscribe v sub
    phase := Function.update t.phase v .gone }

/-- One step of the topic. -/
def step (t : Topic ι α) : Op ι α → Option (Topic ι α)
  | .markActive => some { t with broker := t.broker.run .markActive }
  | .publish event =>
    let event := (t.published.length, event)
    some { t with broker := t.broker.run (.publish event), published := t.published ++ [event] }
  | .close final => some { t with broker := t.broker.run (.close final), closed := true }
  | .subscribe v =>
    if t.phase v = .away then
      some { t with
        broker := t.broker.subscribe v
        since := Function.update t.since v t.published.length
        phase := Function.update t.phase v .live }
    else none
  | .next v =>
    match t.broker.subscriber v with
    | none => none
    | some sub =>
      match t.phase v with
      | .live => sub.next?.map fun event =>
        { t with
          broker := t.broker.setSubscriber v { sub with queue := sub.queue.tail }
          yields := Function.update t.yields v (t.yields v ++ [event])
          phase := Function.update t.phase v (if event.isClosed then .ended else .live) }
      | .ended => some (t.finish v sub)
      | .away | .gone => none
  | .leave v =>
    match t.broker.subscriber v with
    | none => none
    | some sub =>
      match t.phase v with
      | .live | .ended => some (t.finish v sub)
      | .away | .gone => none

end Step

/-! ### What the subscribers are promised -/

/-- The span that an event carries. -/
def spanOf : Event α → Option α
  | .span a => some a
  | .closed _ => none

/-- The spans among some events. -/
def spansOf (events : List (Event α)) : List α := events.filterMap spanOf

/-- What a subscription yields next. -/
def pending (sub : Subscriber α) : List (Event α) :=
  match sub.alreadyClosed with
  | some final => [.closed final]
  | none => sub.queue

/-- What a subscriber has been given, and what waits for it. -/
def Topic.handed (t : Topic ι α) (v : ι) : List (Event (ℕ × α)) :=
  t.yields v ++ if t.phase v = .live then ((t.broker.subscriber v).map pending).getD [] else []

/-- The subscriber comes to its end when it asks on, with one close event at the end. -/
def Ends [DecidableEq ι] (t : Topic ι α) (v : ι) : Prop :=
  ∃ n t', exec step t (List.replicate n (.next v)) = some t' ∧ t'.phase v = .gone ∧
    ∃ (spans : List (ℕ × α)) (final : String), t'.yields v = spans.map Event.span ++ [.closed final]

/-- **What is promised** of the topic. -/
structure Lawful [DecidableEq ι] (t : Topic ι α) : Prop where
  /-- No published event is skipped between two that a subscriber is given. -/
  contiguous : ∀ v, spansOf (t.handed v) <:+: t.published.drop (t.since v)
  /-- A close event is yielded at most once, and nothing after it. -/
  once : ∀ v, ∃ spans : List (ℕ × α), t.yields v = spans.map Event.span ∨
    t.phase v ≠ .live ∧ ∃ final : String, t.yields v = spans.map Event.span ++ [.closed final]
  terminates : t.closed = true → ∀ v, t.phase v = .live → Ends t v

/-- What a step must meet: nothing is published past a subscriber that has lost an event and has
room again, a subscriber that waits when the topic is closed is enrolled and has room, and the
channel of a closed topic is still there when one more subscribes. -/
def Kept (t : Topic ι α) : Op ι α → Prop
  | .publish _ => ∀ ch, t.broker.channel = some ch → ch.closed = false → ∀ v ∈ ch.subscribers,
      ∀ sub, t.broker.subscriber v = some sub → sub.closed = true → queueMaxsize ≤ sub.queue.length
  | .close _ => ∀ v, t.phase v = .live → ∀ sub, t.broker.subscriber v = some sub →
      (∀ event ∈ pending sub, event.isClosed = false) →
        Enrolled t.broker v ∧ sub.queue.length < queueMaxsize
  | .subscribe _ => t.closed = true → ∃ ch, t.broker.channel = some ch ∧ ch.closed = true
  | .markActive | .next _ | .leave _ => True

/-! ### Events -/

section Events
variable {a : α} {final : String} {sub : Subscriber α} {event : Event α}

@[simp] theorem spansOf_append (xs ys : List (Event α)) :
    spansOf (xs ++ ys) = spansOf xs ++ spansOf ys := List.filterMap_append

@[simp] theorem spansOf_spans (spans : List α) : spansOf (spans.map Event.span) = spans := by
  induction spans with
  | nil => rfl
  | cons a spans ih => exact congrArg (a :: ·) ih

theorem next?_eq_head? (sub : Subscriber α) : sub.next? = (pending sub).head? := by
  unfold Subscriber.next? pending
  cases sub.alreadyClosed <;> rfl

theorem putSpan_eq (sub : Subscriber α) (a : α) :
    sub.putSpan a = if sub.queue.length <
      queueMaxsize then { sub with queue := sub.queue ++ [.span a] }
      else { sub with closed := true } := by
  unfold Subscriber.putSpan Subscriber.putNowait
  split_ifs with hroom
  · rfl
  · simp [hroom]

theorem putClosed_eq (sub : Subscriber α) (final : String) :
    sub.putClosed final =
      if sub.queue.length < queueMaxsize then { sub with queue := sub.queue ++ [.closed final] }
      else sub := by
  unfold Subscriber.putClosed Subscriber.putNowait
  split_ifs <;> rfl

end Events

theorem mem_of_infix_numbered {published handed : List (ℕ × α)} {n i j k : ℕ}
    (hnumbered : published.map Prod.fst = List.range published.length)
    (hrow : handed <:+: published.drop n) (hi : i ∈ handed.map Prod.fst)
    (hk : k ∈ handed.map Prod.fst) (hij : i < j) (hjk : j < k) : j ∈ handed.map Prod.fst := by
  obtain ⟨pre, post, hsplit⟩ := hrow
  have hrange : List.range' n (published.length - n) =
      (pre.map Prod.fst ++ handed.map Prod.fst) ++ post.map Prod.fst := by
    rw [← List.map_append, ← List.map_append, hsplit, List.map_drop, hnumbered,
      List.range_eq_range',
      List.drop_range']
    simp
  obtain ⟨m, -, hfirst, -⟩ := List.range'_eq_append_iff.mp hrange
  obtain ⟨l, -, -, hhanded⟩ := List.range'_eq_append_iff.mp hfirst.symm
  rw [hhanded, List.mem_range'_1] at hi hk ⊢
  omega

/-! ### What is kept -/

/-- What is published is put in the queue of the subscriber. -/
def Fed (s : State ι α) (v : ι) : Prop :=
  ∃ ch, s.channel = some ch ∧ ch.closed = false ∧ v ∈ ch.subscribers

/-- The spans a live subscriber has been handed, with those in its queue: all there were while none
was lost; once one was lost, it stays between two others. -/
structure Tracks (published : List (ℕ × α)) (since : ℕ) (fed : Prop) (overflowed : Bool)
    (spans : List (ℕ × α)) : Prop where
  current : fed → overflowed = false → spans = published.drop since
  lost : overflowed = true → ∃ i j, i ∈ spans.map Prod.fst ∧ i < j ∧ j < published.length ∧
    j ∉ spans.map Prod.fst

/-- A live subscriber. -/
inductive Live (published : List (ℕ × α)) (since : ℕ) (fed : Prop)
    (yields : List (Event (ℕ × α))) (sub : Subscriber (ℕ × α)) : Prop
  /-- It found the topic closed. -/
  | already (final : String) (halready : sub.alreadyClosed = some final) (hfed : ¬fed)
      (hyields : yields = [])
  | enrolled (sent spans : List (ℕ × α)) (finals : List String) (halready : sub.alreadyClosed =
    none)
      (hyields : yields = sent.map Event.span)
      (hqueue : sub.queue = spans.map Event.span ++ finals.map Event.closed)
      (hfinals : fed → finals = [])
      (htracks : Tracks published since fed sub.closed (sent ++ spans))

/-- What holds of a subscriber in each phase. -/
def Standing (t : Topic ι α) (v : ι) : Phase → Prop
  | .away => ¬Fed t.broker v ∧ t.yields v = []
  | .live => ∃ sub, t.broker.subscriber v = some sub ∧
      Live t.published (t.since v) (Fed t.broker v) (t.yields v) sub
  | .ended => ¬Fed t.broker v ∧ (∃ sub, t.broker.subscriber v = some sub) ∧
      ∃ (spans : List (ℕ × α)) (final : String),
        t.yields v = spans.map Event.span ++ [.closed final]
  | .gone => ¬Fed t.broker v ∧ ∃ spans : List (ℕ × α), t.yields v = spans.map Event.span ∨
      ∃ final : String, t.yields v = spans.map Event.span ++ [.closed final]

/-- What holds in every state. -/
structure Inv (t : Topic ι α) : Prop where
  numbered : t.published.map Prod.fst = List.range t.published.length
  since_le : ∀ v, t.since v ≤ t.published.length
  closed_of : ∀ ch, t.broker.channel = some ch → ch.closed = true → t.closed = true
  standing : ∀ v, Standing t v (t.phase v)

theorem inv_init : Inv ({} : Topic ι α) where
  numbered := rfl
  since_le _ := le_rfl
  closed_of _ h := nomatch h
  standing _ := ⟨fun ⟨_, h, _⟩ => (nomatch h), rfl⟩

section Kept
variable {t t' : Topic ι α} {v : ι} {published : List (ℕ × α)} {since : ℕ} {fed fed' : Prop}
  {yields : List (Event (ℕ × α))} {sub : Subscriber (ℕ × α)}

theorem Live.mono (h : Live published since fed yields sub) (hfed : fed' → fed) :
    Live published since fed' yields sub := by
  cases h with
  | already final halready hnot hyields => exact .already final halready (hnot ∘ hfed) hyields
  | enrolled sent spans finals halready hyields hqueue hfinals htracks =>
    exact .enrolled sent spans finals halready hyields hqueue (hfinals ∘ hfed)
      ⟨htracks.current ∘ hfed, htracks.lost⟩

theorem Standing.congr (h : Standing t v (t.phase v)) (hpublished : t'.published = t.published)
    (hsince : t'.since v = t.since v) (hphase : t'.phase v = t.phase v)
    (hyields : t'.yields v = t.yields v) (hsub : t'.broker.subscriber v = t.broker.subscriber v)
    (hfed : Fed t'.broker v → Fed t.broker v) : Standing t' v (t'.phase v) := by
  rw [hphase]
  cases hp : t.phase v with
  | away =>
    rw [hp] at h
    exact ⟨h.1 ∘ hfed, hyields.trans h.2⟩
  | live =>
    rw [hp] at h
    obtain ⟨sub, hsome, hlive⟩ := h
    refine ⟨sub, hsub.trans hsome, ?_⟩
    rw [hpublished, hsince, hyields]
    exact hlive.mono hfed
  | ended =>
    rw [hp] at h
    obtain ⟨hnot, ⟨sub, hsome⟩, hspans⟩ := h
    refine ⟨hnot ∘ hfed, ⟨sub, hsub.trans hsome⟩, ?_⟩
    rwa [hyields]
  | gone =>
    rw [hp] at h
    refine ⟨h.1 ∘ hfed, ?_⟩
    rw [hyields]
    exact h.2

theorem Inv.live_of_fed (h : Inv t) (hfed : Fed t.broker v) : t.phase v = .live := by
  have hstanding := h.standing v
  cases hp : t.phase v with
  | live => rfl
  | away | ended | gone =>
    rw [hp] at hstanding
    exact absurd hfed hstanding.1

theorem Inv.live (h : Inv t) (hphase : t.phase v = .live) : ∃ sub,
    t.broker.subscriber v = some sub ∧
      Live t.published (t.since v) (Fed t.broker v) (t.yields v) sub := by
  have hstanding := h.standing v
  rwa [hphase] at hstanding

theorem Inv.once (h : Inv t) (v : ι) : ∃ spans : List (ℕ × α), t.yields v = spans.map Event.span ∨
    t.phase v ≠ .live ∧ ∃ final : String, t.yields v = spans.map Event.span ++ [.closed final] := by
  have hstanding := h.standing v
  cases hp : t.phase v with
  | away =>
    rw [hp] at hstanding
    exact ⟨[], .inl hstanding.2⟩
  | live =>
    obtain ⟨sub, -, hlive⟩ := h.live hp
    cases hlive with
    | already final halready hnot hyields => exact ⟨[], .inl hyields⟩
    | enrolled sent spans finals halready hyields => exact ⟨sent, .inl hyields⟩
  | ended =>
    rw [hp] at hstanding
    obtain ⟨-, -, spans, final, hyields⟩ := hstanding
    exact ⟨spans, .inr ⟨by simp, final, hyields⟩⟩
  | gone =>
    rw [hp] at hstanding
    obtain ⟨-, spans, hyields⟩ := hstanding
    exact ⟨spans, hyields.imp_right fun hclosed => ⟨by simp, hclosed⟩⟩

end Kept

/-! ### Coming to an end -/

section Ends
variable [DecidableEq ι] {t t' : Topic ι α} {v : ι} {sub : Subscriber (ℕ × α)}

/-- A close event waits for the subscriber. -/
def Marked (t : Topic ι α) (v : ι) : Prop :=
  ∃ sub, t.broker.subscriber v = some sub ∧ ∃ event ∈ pending sub, event.isClosed = true

/-- What asking for the next event leaves. -/
def Topic.take (t : Topic ι α) (v : ι) (sub : Subscriber (ℕ × α)) (event : Event (ℕ × α)) :
    Topic ι α :=
  { t with
    broker := t.broker.setSubscriber v { sub with queue := sub.queue.tail }
    yields := Function.update t.yields v (t.yields v ++ [event])
    phase := Function.update t.phase v (if event.isClosed then .ended else .live) }

theorem step_next_live (hsub : t.broker.subscriber v = some sub) (hphase : t.phase v = .live) :
    step t (.next v) = (pending sub).head?.map (t.take v sub) := by
  rw [← next?_eq_head?]
  simp only [step, hsub, hphase]
  rfl

omit [DecidableEq ι] in
theorem pending_of_none (h : sub.alreadyClosed = none) : pending sub = sub.queue := by
  simp only [pending, h]

theorem pending_tail {a : ℕ × α} {rest : List (Event (ℕ × α))}
    (h : pending sub = .span a :: rest) : pending { sub with queue := sub.queue.tail } = rest := by
  unfold pending at h ⊢
  cases halready : sub.alreadyClosed with
  | none =>
    simp only [halready] at h ⊢
    rw [h]
    rfl
  | some final => simp [halready] at h

@[simp] theorem phase_take (event : Event (ℕ × α)) :
    (t.take v sub event).phase v = if event.isClosed then .ended else .live :=
  Function.update_self ..

@[simp] theorem yields_take (event : Event (ℕ × α)) :
    (t.take v sub event).yields v = t.yields v ++ [event] :=
  Function.update_self ..

@[simp] theorem subscriber_take (event : Event (ℕ × α)) :
    (t.take v sub event).broker.subscriber v = some { sub with queue := sub.queue.tail } :=
  Function.update_self ..

theorem ends_of_pending {sent spans : List (ℕ × α)} {final : String}
    {rest : List (Event (ℕ × α))} (hphase : t.phase v = .live)
    (hsub : t.broker.subscriber v = some sub)
    (hpending : pending sub = spans.map Event.span ++ .closed final :: rest)
    (hyields : t.yields v = sent.map Event.span) : Ends t v := by
  induction spans generalizing t sub sent with
  | nil =>
    have hnext : step t (.next v) = some (t.take v sub (.closed final)) := by
      rw [step_next_live hsub hphase, hpending]
      rfl
    have hlast : step (t.take v sub (.closed final)) (.next v) =
        some ((t.take v sub (.closed final)).finish v { sub with queue := sub.queue.tail }) := by
      simp only [step, subscriber_take, phase_take]
      rfl
    refine ⟨2, (t.take v sub (.closed final)).finish v { sub with queue := sub.queue.tail }, ?_,
      Function.update_self .., sent, final, ?_⟩
    · rw [List.replicate_succ, exec_cons, hnext, Option.bind_some, List.replicate_one, exec_cons,
        hlast]
      rfl
    · show (t.take v sub (.closed final)).yields v = _
      rw [yields_take, hyields]
  | cons a spans ih =>
    have hnext : step t (.next v) = some (t.take v sub (.span a)) := by
      rw [step_next_live hsub hphase, hpending]
      rfl
    have hsent : (t.take v sub (.span a)).yields v = (sent ++ [a]).map Event.span := by
      rw [yields_take, hyields, List.map_append]
      rfl
    have hrest : Ends (t.take v sub (.span a)) v :=
      ih (phase_take _) (subscriber_take _) (pending_tail hpending) hsent
    obtain ⟨n, t', hrun, hend⟩ := hrest
    refine ⟨n + 1, t', ?_, hend⟩
    rw [List.replicate_succ, exec_cons, hnext]
    exact hrun

theorem not_ends_of_pending (hphase : t.phase v = .live) (hsub : t.broker.subscriber v = some sub)
    (hpending : ∀ event ∈ pending sub, event.isClosed = false) : ¬Ends t v := by
  rintro ⟨n, t', hrun, hgone, -⟩
  suffices hlive : t'.phase v = .live by simp [hlive] at hgone
  clear hgone
  induction n generalizing t sub with
  | zero =>
    obtain rfl := Option.some.inj hrun
    exact hphase
  | succ n ih =>
    rw [List.replicate_succ] at hrun
    obtain ⟨u, hu, hrest⟩ := exec_cons_eq_some.mp hrun
    rw [step_next_live hsub hphase] at hu
    obtain ⟨event, hhead, rfl⟩ := Option.map_eq_some_iff.mp hu
    obtain ⟨rest, hevents⟩ := List.head?_eq_some_iff.mp hhead
    have hopen := hpending event (by simp [hevents])
    cases event with
    | closed final => cases hopen
    | span a =>
      refine ih ?_ (subscriber_take _) ?_ hrest
      · rw [phase_take]
        rfl
      · rw [pending_tail hevents]
        exact fun event hmem => hpending event (by simp [hevents, hmem])

/-- **A subscriber comes to its end** exactly if a close event waits for it. -/
theorem ends_iff (h : Inv t) (hphase : t.phase v = .live) : Ends t v ↔ Marked t v := by
  obtain ⟨sub, hsub, hlive⟩ := h.live hphase
  constructor
  · intro hends
    refine ⟨sub, hsub, ?_⟩
    by_contra hnone
    push Not at hnone
    exact not_ends_of_pending hphase hsub (fun event hmem => by simpa using hnone event hmem) hends
  · rintro ⟨sub', hsub', event, hmem, hclosed⟩
    obtain rfl := Option.some.inj (hsub.symm.trans hsub')
    cases hlive with
    | already final halready hnot hyields =>
      have hpending : pending sub = [].map Event.span ++ [.closed final] := by
        simp [pending, halready]
      have hnone : t.yields v = [].map Event.span := hyields
      exact ends_of_pending hphase hsub hpending hnone
    | enrolled sent spans finals halready hyields hqueue hfinals htracks =>
      have hpending : pending sub = spans.map Event.span ++ finals.map Event.closed := by
        rw [← hqueue]
        simp [pending, halready]
      cases finals with
      | nil =>
        rw [hpending, List.map_nil, List.append_nil] at hmem
        obtain ⟨a, -, rfl⟩ := List.mem_map.mp hmem
        cases hclosed
      | cons final finals => exact ends_of_pending hphase hsub hpending hyields

omit [DecidableEq ι] in
theorem handed_of_live (hphase : t.phase v = .live) (hsub : t.broker.subscriber v = some sub) :
    t.handed v = t.yields v ++ pending sub := by
  rw [Topic.handed, if_pos hphase, hsub]
  rfl

omit [DecidableEq ι] in
theorem marked_iff_handed (h : Inv t) (hphase : t.phase v = .live) :
    Marked t v ↔ ∃ event ∈ t.handed v, event.isClosed = true := by
  obtain ⟨sub, hsub, -⟩ := h.live hphase
  obtain ⟨spans, hyields | ⟨hne, -⟩⟩ := h.once v
  · rw [handed_of_live hphase hsub, hyields, Marked, hsub]
    simp only [Option.some.injEq, exists_eq_left', List.mem_append, or_and_right, exists_or]
    refine (or_iff_right ?_).symm
    rintro ⟨event, hmem, hclosed⟩
    obtain ⟨a, -, rfl⟩ := List.mem_map.mp hmem
    cases hclosed
  · exact absurd hphase hne

theorem lawful_iff (h : Inv t) : Lawful t ↔
    (∀ v, spansOf (t.handed v) <:+: t.published.drop (t.since v)) ∧
      (t.closed = true → ∀ v, t.phase v = .live → Marked t v) := by
  constructor
  · intro hlawful
    exact ⟨hlawful.contiguous, fun hclosed v hphase =>
      (ends_iff h hphase).mp (hlawful.terminates hclosed v hphase)⟩
  · rintro ⟨hcontiguous, hmarked⟩
    exact ⟨hcontiguous, h.once, fun hclosed v hphase =>
      (ends_iff h hphase).mpr (hmarked hclosed v hphase)⟩

end Ends

end Selfevals.Api.SpanDelivery
