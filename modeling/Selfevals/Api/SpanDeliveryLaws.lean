import Selfevals.Api.SpanDelivery

/-!
# When the subscribers of a topic are given what they are promised
-/

namespace Selfevals.Api.SpanDelivery

open Lib.Run Api.Sse Api.Broker

variable {ι α : Type}

/-! ### A span is published -/

section Publish
variable {t : Topic ι α} {v : ι} {published spans : List (ℕ × α)} {since : ℕ} {fed : Prop}
  {overflowed : Bool} {a : α}

theorem Tracks.put (h : Tracks published since fed overflowed spans)
    (hle : since ≤ published.length)
    (a : α) : Tracks (published ++ [(published.length, a)]) since fed overflowed
      (spans ++ [(published.length, a)]) where
  current hfed hover := by
    rw [h.current hfed hover, List.drop_append_of_le_length hle]
  lost hover := by
    obtain ⟨i, j, hi, hij, hj, hnot⟩ := h.lost hover
    refine ⟨i, j, ?_, hij, ?_, ?_⟩
    · simp [List.map_append, hi]
    · rw [List.length_append, List.length_singleton]
      omega
    · rw [List.map_append, List.mem_append, not_or]
      refine ⟨hnot, ?_⟩
      have hne : j ≠ published.length := hj.ne
      simpa using hne

theorem Tracks.unfed (h : Tracks published since fed overflowed spans) (hfed : ¬fed) (a : α) :
    Tracks (published ++ [(published.length, a)]) since fed overflowed spans where
  current hfed' := absurd hfed' hfed
  lost hover := by
    obtain ⟨i, j, hi, hij, hj, hnot⟩ := h.lost hover
    refine ⟨i, j, hi, hij, ?_, hnot⟩
    rw [List.length_append, List.length_singleton]
    omega

theorem Tracks.overflow (h : Tracks published since fed overflowed spans) (hfed : fed)
    (hnumbered : published.map Prod.fst = List.range published.length) (hne : spans ≠ []) (a : α) :
    Tracks (published ++ [(published.length, a)]) since fed true spans where
  current _ hover := by cases hover
  lost _ := by
    have hlength : published.length < (published ++ [(published.length, a)]).length := by simp
    cases hover : overflowed with
    | true =>
      obtain ⟨i, j, hi, hij, hj, hnot⟩ := h.lost hover
      exact ⟨i, j, hi, hij, hj.trans hlength, hnot⟩
    | false =>
      have hlt : ∀ i ∈ spans.map Prod.fst, i < published.length := by
        intro i hi
        rw [h.current hfed hover, List.map_drop, hnumbered] at hi
        exact List.mem_range.mp (List.mem_of_mem_drop hi)
      obtain ⟨first, hfirst⟩ := List.exists_mem_of_ne_nil spans hne
      have hi := List.mem_map_of_mem (f := Prod.fst) hfirst
      exact ⟨first.1, published.length, hi, hlt _ hi, hlength, fun hmem => lt_irrefl _ (hlt _ hmem)⟩

theorem run_publish [DecidableEq ι] (s : State ι α) (a : α) :
    (s.run (.publish a)).channel = s.channel ∧ ∀ v,
      (Fed s v → (s.run (.publish a)).subscriber v = (s.subscriber v).map (·.putSpan a)) ∧
      (¬Fed s v → (s.run (.publish a)).subscriber v = s.subscriber v) := by
  cases hchannel : s.channel with
  | none =>
    have hrun : s.run (.publish a) = s := by simp only [State.run, hchannel]
    rw [hrun]
    refine ⟨hchannel, fun v => ⟨?_, fun _ => rfl⟩⟩
    rintro ⟨ch, h, -⟩
    rw [hchannel] at h
    cases h
  | some ch =>
    by_cases hclosed : ch.closed = true
    · have hrun : s.run (.publish a) = s := by simp only [State.run, hchannel, hclosed, if_true]
      rw [hrun]
      refine ⟨hchannel, fun v => ⟨?_, fun _ => rfl⟩⟩
      rintro ⟨ch', h, hopen, -⟩
      obtain rfl := Option.some.inj (hchannel.symm.trans h)
      rw [hclosed] at hopen
      cases hopen
    · have hopen : ch.closed = false := by simpa using hclosed
      have hrun : s.run (.publish a) = s.toSubscribers ch (·.putSpan a) := by
        simp only [State.run, hchannel, hopen, Bool.false_eq_true, if_false]
      have hfed : ∀ v, Fed s v ↔ v ∈ ch.subscribers := fun v => by simp [Fed, hchannel, hopen]
      rw [hrun]
      refine ⟨hchannel, fun v => ?_⟩
      rw [hfed v]
      exact ⟨fun hmem => if_pos hmem, fun hmem => if_neg hmem⟩

/-- The topic after something is published. -/
def Topic.afterPublish [DecidableEq ι] (t : Topic ι α) (a : α) : Topic ι α :=
  { t with
    broker := t.broker.run (.publish (t.published.length, a))
    published := t.published ++ [(t.published.length, a)] }

variable [DecidableEq ι]

theorem fed_publish (a : ℕ × α) (v : ι) : Fed (t.broker.run (.publish a)) v ↔ Fed t.broker v := by
  unfold Fed
  rw [(run_publish t.broker a).1]

theorem standing_publish (h : Inv t) (a : α) (v : ι) :
    Standing (t.afterPublish a) v (t.phase v) := by
  by_cases hfed : Fed t.broker v
  · have hphase := h.live_of_fed hfed
    obtain ⟨sub, hsub, hlive⟩ := h.live hphase
    have hsub' :
      (t.afterPublish a).broker.subscriber v = some (sub.putSpan (t.published.length, a)) := by
      rw [Topic.afterPublish, ((run_publish t.broker _).2 v).1 hfed, hsub]
      rfl
    rw [hphase]
    refine ⟨_, hsub', ?_⟩
    have hfed' : Fed (t.afterPublish a).broker v ↔ Fed t.broker v := fed_publish _ v
    rw [hfed', putSpan_eq]
    cases hlive with
    | already final halready hnot hyields => exact absurd hfed hnot
    | enrolled sent spans finals halready hyields hqueue hfinals htracks =>
      obtain rfl := hfinals hfed
      have hqueue' : sub.queue = spans.map Event.span := by simpa using hqueue
      split_ifs with hroom
      · refine .enrolled sent (spans ++ [(t.published.length, a)]) [] halready hyields ?_
          (fun _ => rfl) ?_
        · simp [hqueue']
        · rw [← List.append_assoc]
          exact htracks.put (h.since_le v) a
      · refine .enrolled sent spans [] halready hyields hqueue hfinals ?_
        refine htracks.overflow hfed h.numbered (fun hnil => hroom ?_) a
        rw [hqueue', (List.append_eq_nil_iff.mp hnil).2]
        exact Nat.succ_pos _
  · have hsub : (t.afterPublish a).broker.subscriber v = t.broker.subscriber v :=
      ((run_publish t.broker _).2 v).2 hfed
    have hfed' : ¬Fed (t.afterPublish a).broker v := (fed_publish _ v).not.mpr hfed
    have hstanding := h.standing v
    cases hphase : t.phase v with
    | live =>
      obtain ⟨sub, hsome, hlive⟩ := h.live hphase
      refine ⟨sub, hsub.trans hsome, ?_⟩
      cases hlive with
      | already final halready hnot hyields => exact .already final halready hfed' hyields
      | enrolled sent spans finals halready hyields hqueue hfinals htracks =>
        exact .enrolled sent spans finals halready hyields hqueue (fun h => absurd h hfed')
          ⟨fun h => absurd h hfed', (htracks.unfed hfed a).lost⟩
    | away =>
      rw [hphase] at hstanding
      exact ⟨hfed', hstanding.2⟩
    | ended =>
      rw [hphase] at hstanding
      obtain ⟨-, ⟨sub, hsome⟩, hspans⟩ := hstanding
      exact ⟨hfed', ⟨sub, hsub.trans hsome⟩, hspans⟩
    | gone =>
      rw [hphase] at hstanding
      exact ⟨hfed', hstanding.2⟩

theorem inv_publish (h : Inv t) (a : α) : Inv (t.afterPublish a) where
  numbered := by
    rw [Topic.afterPublish, List.map_append, h.numbered, List.length_append, List.length_singleton,
      List.range_succ]
    rfl
  since_le v := by
    have hle := h.since_le v
    show t.since v ≤ (t.published ++ [(t.published.length, a)]).length
    rw [List.length_append]
    omega
  closed_of ch hchannel := by
    rw [Topic.afterPublish, (run_publish t.broker _).1] at hchannel
    exact h.closed_of ch hchannel
  standing := standing_publish h a

theorem handed_publish (h : Inv t) (a : α) (v : ι) :
    (t.afterPublish a).handed v = t.handed v ∧
        (Fed t.broker v → ∀ sub,
          t.broker.subscriber v = some sub → ¬sub.queue.length < queueMaxsize) ∨
      Fed t.broker v ∧ (∃ sub, t.broker.subscriber v = some sub ∧ sub.queue.length < queueMaxsize) ∧
        (t.afterPublish a).handed v = t.handed v ++ [.span (t.published.length, a)] := by
  by_cases hfed : Fed t.broker v
  · have hphase := h.live_of_fed hfed
    obtain ⟨sub, hsub, hlive⟩ := h.live hphase
    have hsub' :
      (t.afterPublish a).broker.subscriber v = some (sub.putSpan (t.published.length, a)) := by
      rw [Topic.afterPublish, ((run_publish t.broker _).2 v).1 hfed, hsub]
      rfl
    have halready : sub.alreadyClosed = none := by
      cases hlive with
      | already final halready hnot => exact absurd hfed hnot
      | enrolled sent spans finals halready => exact halready
    rw [handed_of_live hphase hsub, handed_of_live (t := t.afterPublish a) hphase hsub', putSpan_eq]
    by_cases hroom : sub.queue.length < queueMaxsize
    · rw [if_pos hroom]
      refine .inr ⟨hfed, ⟨sub, hsub, hroom⟩, ?_⟩
      simp [pending, halready, Topic.afterPublish]
    · rw [if_neg hroom]
      refine .inl ⟨?_, fun _ sub' hsub'' => ?_⟩
      · simp [pending, halready, Topic.afterPublish]
      · obtain rfl := Option.some.inj (hsub.symm.trans hsub'')
        exact hroom
  · have hsub : (t.afterPublish a).broker.subscriber v = t.broker.subscriber v :=
      ((run_publish t.broker _).2 v).2 hfed
    refine .inl ⟨?_, fun h => absurd h hfed⟩
    rw [Topic.handed, hsub]
    rfl

/-- **Publishing** skips nothing for a subscriber exactly if it has not lost an event before, or has
no room. -/
theorem contiguous_publish_iff (h : Inv t) (a : α) {v : ι}
    (hcontiguous : spansOf (t.handed v) <:+: t.published.drop (t.since v)) :
    spansOf ((t.afterPublish a).handed v) <:+:
        (t.published ++ [(t.published.length, a)]).drop (t.since v) ↔
      (Fed t.broker v → ∀ sub, t.broker.subscriber v = some sub → sub.closed = true →
        queueMaxsize ≤ sub.queue.length) := by
  rw [List.drop_append_of_le_length (h.since_le v)]
  obtain ⟨hsame, hfull⟩ | ⟨hfed, ⟨sub, hsub, hroom⟩, hput⟩ := handed_publish h a v
  · rw [hsame]
    refine iff_of_true (hcontiguous.trans (List.prefix_append _ _).isInfix) ?_
    exact fun hfed sub hsub _ => not_lt.mp (hfull hfed sub hsub)
  · have hphase := h.live_of_fed hfed
    obtain ⟨sub', hsub', hlive⟩ := h.live hphase
    obtain rfl := Option.some.inj (hsub.symm.trans hsub')
    cases hlive with
    | already final halready hnot => exact absurd hfed hnot
    | enrolled sent spans finals halready hyields hqueue hfinals htracks =>
      obtain rfl := hfinals hfed
      have hhanded : spansOf (t.handed v) = sent ++ spans := by
        rw [handed_of_live hphase hsub]
        simp [pending, halready, hyields, hqueue]
      rw [hput, spansOf_append, hhanded]
      cases hover : sub.closed with
      | false =>
        rw [htracks.current hfed hover]
        refine iff_of_true List.infix_rfl fun _ sub' hsub'' hclosed => ?_
        obtain rfl := Option.some.inj (hsub.symm.trans hsub'')
        rw [hover] at hclosed
        cases hclosed
      | true =>
        refine iff_of_false (fun hrow => ?_) fun hno => absurd (hno hfed sub hsub hover) (by omega)
        obtain ⟨i, j, hi, hij, hj, hnot⟩ := htracks.lost hover
        have hnumbered := (inv_publish h a).numbered
        rw [← List.drop_append_of_le_length (h.since_le v)] at hrow
        have hlast : t.published.length ∈ (sent ++ spans ++
            spansOf [.span (t.published.length, a)]).map Prod.fst := by simp [spansOf, spanOf]
        have hfirst : i ∈ (sent ++ spans ++
            spansOf [.span (t.published.length, a)]).map Prod.fst := by
          rw [List.map_append]
          exact List.mem_append_left _ hi
        have hmem := mem_of_infix_numbered hnumbered hrow hfirst hlast hij hj
        rw [List.map_append, List.mem_append] at hmem
        have heq : j = t.published.length := by
          simpa [spansOf, spanOf] using hmem.resolve_left hnot
        omega

theorem marked_publish_iff (h : Inv t) (a : α) {v : ι} (hphase : t.phase v = .live) :
    Marked (t.afterPublish a) v ↔ Marked t v := by
  have hphase' : (t.afterPublish a).phase v = .live := hphase
  rw [marked_iff_handed (inv_publish h a) hphase', marked_iff_handed h hphase]
  obtain ⟨hsame, -⟩ | ⟨-, -, hput⟩ := handed_publish h a v
  · rw [hsame]
  · rw [hput]
    simp [or_and_right, exists_or, Event.isClosed]

end Publish

/-! ### The topic is closed -/

section Close
variable [DecidableEq ι] {t : Topic ι α} {v : ι}

theorem run_close (s : State ι α) (final : String) :
    (∀ ch, (s.run (.close final)).channel = some ch → ch.closed = true) ∧
      ∀ v, (Enrolled s v →
          (s.run (.close final)).subscriber v = (s.subscriber v).map (·.putClosed final)) ∧
        (¬Enrolled s v → (s.run (.close final)).subscriber v = s.subscriber v) := by
  unfold State.run Enrolled
  cases hchannel : s.channel with
  | none =>
    refine ⟨fun ch hch => ?_, fun v => ⟨fun ⟨ch, h, _⟩ => (nomatch h), fun _ => rfl⟩⟩
    obtain rfl := Option.some.inj hch
    rfl
  | some ch =>
    simp only [State.toSubscribers, Option.some.injEq, exists_eq_left']
    exact ⟨fun ch' h => h ▸ rfl, fun v => ⟨fun hmem => if_pos hmem, fun hmem => if_neg hmem⟩⟩

/-- The topic after a close. -/
def Topic.afterClose (t : Topic ι α) (final : String) : Topic ι α :=
  { t with broker := t.broker.run (.close final), closed := true }

theorem not_fed_close (t : Topic ι α) (final : String) (v : ι) :
    ¬Fed (t.afterClose final).broker v := by
  rintro ⟨ch, hchannel, hopen, -⟩
  rw [(run_close t.broker final).1 ch hchannel] at hopen
  cases hopen

theorem subscriber_close {sub : Subscriber (ℕ × α)} (hsub : t.broker.subscriber v = some sub)
    (final : String) :
    (t.afterClose final).broker.subscriber v =
        some { sub with queue := sub.queue ++ [.closed final] } ∧
      Enrolled t.broker v ∧ sub.queue.length < queueMaxsize ∨
    (t.afterClose final).broker.subscriber v = some sub ∧
      ¬(Enrolled t.broker v ∧ sub.queue.length < queueMaxsize) := by
  by_cases henrolled : Enrolled t.broker v
  · have hput : (t.afterClose final).broker.subscriber v = some (sub.putClosed final) := by
      rw [Topic.afterClose, ((run_close t.broker final).2 v).1 henrolled, hsub]
      rfl
    rw [putClosed_eq] at hput
    split_ifs at hput with hroom
    · exact .inl ⟨hput, henrolled, hroom⟩
    · exact .inr ⟨hput, fun h => hroom h.2⟩
  · refine .inr ⟨?_, fun h => henrolled h.1⟩
    rw [Topic.afterClose, ((run_close t.broker final).2 v).2 henrolled, hsub]

theorem standing_close (h : Inv t) (final : String) (v : ι) :
    Standing (t.afterClose final) v (t.phase v) := by
  have hfed := not_fed_close t final v
  have hstanding := h.standing v
  cases hphase : t.phase v with
  | live =>
    obtain ⟨sub, hsub, hlive⟩ := h.live hphase
    have hlive' :
      Live t.published (t.since v) (Fed (t.afterClose final).broker v) (t.yields v) sub :=
      hlive.mono fun hfed' => absurd hfed' hfed
    obtain ⟨hput, -⟩ | ⟨hkept, -⟩ := subscriber_close hsub final
    · refine ⟨_, hput, ?_⟩
      cases hlive' with
      | already final halready hnot hyields => exact .already final halready hnot hyields
      | enrolled sent spans finals halready hyields hqueue hfinals htracks =>
        refine .enrolled sent spans (finals ++ [final]) halready hyields ?_ (fun h => absurd h hfed)
          htracks
        simp [hqueue]
    · exact ⟨sub, hkept, hlive'⟩
  | away =>
    rw [hphase] at hstanding
    exact ⟨hfed, hstanding.2⟩
  | ended =>
    rw [hphase] at hstanding
    obtain ⟨-, ⟨sub, hsub⟩, hspans⟩ := hstanding
    refine ⟨hfed, ?_, hspans⟩
    obtain ⟨hput, -⟩ | ⟨hkept, -⟩ := subscriber_close hsub final
    · exact ⟨_, hput⟩
    · exact ⟨_, hkept⟩
  | gone =>
    rw [hphase] at hstanding
    exact ⟨hfed, hstanding.2⟩

theorem inv_close (h : Inv t) (final : String) : Inv (t.afterClose final) where
  numbered := h.numbered
  since_le := h.since_le
  closed_of _ _ _ := rfl
  standing := standing_close h final

theorem spansOf_handed_close (h : Inv t) (final : String) (v : ι) :
    spansOf ((t.afterClose final).handed v) = spansOf (t.handed v) := by
  by_cases hphase : t.phase v = .live
  · obtain ⟨sub, hsub, -⟩ := h.live hphase
    rw [handed_of_live hphase hsub]
    obtain ⟨hput, -⟩ | ⟨hkept, -⟩ := subscriber_close hsub final
    · rw [handed_of_live (t := t.afterClose final) hphase hput, spansOf_append, spansOf_append]
      unfold pending
      cases sub.alreadyClosed with
      | none => simp [Topic.afterClose, spansOf, spanOf]
      | some final => rfl
    · rw [handed_of_live (t := t.afterClose final) hphase hkept]
      rfl
  · have hphase' : (t.afterClose final).phase v ≠ .live := hphase
    rw [Topic.handed, if_neg hphase', Topic.handed, if_neg hphase]
    rfl

/-- **Closing** leaves a close event with a subscriber exactly if it has one, or is enrolled and has
room. -/
theorem marked_close_iff (final : String) {sub : Subscriber (ℕ × α)}
    (hsub : t.broker.subscriber v = some sub) :
    Marked (t.afterClose final) v ↔ ((∀ event ∈ pending sub, event.isClosed = false) →
      Enrolled t.broker v ∧ sub.queue.length < queueMaxsize) := by
  have hmarked : (∃ event ∈ pending sub, event.isClosed = true) ↔
      ¬∀ event ∈ pending sub, event.isClosed = false := by
    push Not
    simp
  obtain ⟨hput, hroom⟩ | ⟨hkept, hroom⟩ := subscriber_close hsub final
  · refine iff_of_true ⟨_, hput, ?_⟩ fun _ => hroom
    unfold pending
    cases sub.alreadyClosed with
    | none => exact ⟨.closed final, by simp, rfl⟩
    | some final => exact ⟨.closed final, by simp, rfl⟩
  · rw [Marked, hkept]
    simp only [Option.some.injEq, exists_eq_left']
    rw [hmarked]
    exact ⟨fun hnot hall => absurd hall hnot, fun himp hall => hroom (himp hall)⟩

end Close

/-! ### One subscriber moves -/

/-- A step of one subscriber leaves the others alone. -/
structure Apart (t t' : Topic ι α) (v : ι) : Prop where
  published : t'.published = t.published
  closed : t'.closed = t.closed
  since : ∀ w ≠ v, t'.since w = t.since w
  phase : ∀ w ≠ v, t'.phase w = t.phase w
  yields : ∀ w ≠ v, t'.yields w = t.yields w
  subscriber : ∀ w ≠ v, t'.broker.subscriber w = t.broker.subscriber w
  fed : ∀ w ≠ v, Fed t'.broker w → Fed t.broker w
  closed_of : ∀ ch, t'.broker.channel = some ch → ch.closed = true → t.closed = true

section Apart
variable [DecidableEq ι] {t t' : Topic ι α} {v : ι} {sub : Subscriber (ℕ × α)}

theorem Apart.inv (h : Inv t) (hapart : Apart t t' v) (hsince : t'.since v ≤ t.published.length)
    (hstanding : Standing t' v (t'.phase v)) : Inv t' where
  numbered := by rw [hapart.published]; exact h.numbered
  since_le w := by
    rw [hapart.published]
    by_cases hw : w = v
    · rw [hw]
      exact hsince
    · rw [hapart.since w hw]
      exact h.since_le w
  closed_of ch hchannel hclosed := by
    rw [hapart.closed]
    exact hapart.closed_of ch hchannel hclosed
  standing w := by
    by_cases hw : w = v
    · rw [hw]
      exact hstanding
    · exact (h.standing w).congr hapart.published (hapart.since w hw) (hapart.phase w hw)
        (hapart.yields w hw) (hapart.subscriber w hw) (hapart.fed w hw)

theorem Apart.lawful_iff (h : Inv t) (h' : Inv t') (hapart : Apart t t' v) (hlawful : Lawful t) :
    Lawful t' ↔ spansOf (t'.handed v) <:+: t.published.drop (t'.since v) ∧
      (t.closed = true → t'.phase v = .live → Marked t' v) := by
  obtain ⟨hcontiguous, hmarked⟩ := (SpanDelivery.lawful_iff h).mp hlawful
  rw [SpanDelivery.lawful_iff h', hapart.published, hapart.closed]
  constructor
  · exact fun ⟨hall, hmarks⟩ => ⟨hall v, fun hclosed => hmarks hclosed v⟩
  · rintro ⟨hself, hmark⟩
    refine ⟨fun w => ?_, fun hclosed w hphase => ?_⟩
    · by_cases hw : w = v
      · rw [hw]
        exact hself
      · have hw' := hcontiguous w
        rwa [Topic.handed, hapart.phase w hw, hapart.yields w hw, hapart.subscriber w hw,
          hapart.since w hw]
    · by_cases hw : w = v
      · rw [hw] at hphase ⊢
        exact hmark hclosed hphase
      · rw [hapart.phase w hw] at hphase
        obtain ⟨sub, hsub, hevent⟩ := hmarked hclosed w hphase
        exact ⟨sub, (hapart.subscriber w hw).trans hsub, hevent⟩

/-! #### It subscribes -/

def Topic.subscribed (t : Topic ι α) (v : ι) : Topic ι α :=
  { t with
    broker := t.broker.subscribe v
    since := Function.update t.since v t.published.length
    phase := Function.update t.phase v .live }

theorem apart_subscribe (h : Inv t) (v : ι) : Apart t (t.subscribed v) v where
  published := rfl
  closed := rfl
  since w hw := Function.update_of_ne hw _ _
  phase w hw := Function.update_of_ne hw _ _
  yields _ _ := rfl
  subscriber w hw := Function.update_of_ne hw _ _
  fed w hw := by
    rintro ⟨ch, hchannel, hopen, hmem⟩
    obtain rfl := Option.some.inj hchannel
    cases hold : t.broker.channel with
    | none => simp [hold, hw] at hmem
    | some ch =>
      simp only [hold, Option.getD_some, List.mem_append, List.mem_singleton, hw,
        or_false] at hmem hopen
      exact ⟨ch, hold, hopen, hmem⟩
  closed_of ch hchannel hclosed := by
    obtain rfl := Option.some.inj hchannel
    cases hold : t.broker.channel with
    | none => simp [hold] at hclosed
    | some ch => exact h.closed_of ch hold (by simpa [hold] using hclosed)

theorem subscriber_subscribe (t : Topic ι α) (v : ι) :
    (t.subscribed v).broker.subscriber v =
      some { alreadyClosed := (t.broker.channel.getD {}).alreadyClosed } :=
  Function.update_self ..

theorem subscribe_spec (h : Inv t) (hphase : t.phase v = .away) :
    Inv (t.subscribed v) ∧ (Lawful t → (Lawful (t.subscribed v) ↔ Kept t (.subscribe v))) := by
  have hapart := apart_subscribe h v
  have hphase' : (t.subscribed v).phase v = .live := Function.update_self ..
  have hsince : (t.subscribed v).since v = t.published.length := Function.update_self ..
  have hyields : (t.subscribed v).yields v = [] := by
    have hstanding := h.standing v
    rw [hphase] at hstanding
    exact hstanding.2
  have hsub := subscriber_subscribe t v
  have hchannel : (t.subscribed v).broker.channel = some { t.broker.channel.getD {} with
      subscribers := (t.broker.channel.getD {}).subscribers ++ [v] } := rfl
  have halready : (t.broker.channel.getD {}).alreadyClosed.isSome =
      (t.broker.channel.getD {}).closed := Channel.isSome_alreadyClosed _
  generalize (t.broker.channel.getD {}).alreadyClosed = already at hsub halready
  have hinv : Inv (t.subscribed v) := by
    refine hapart.inv h (by rw [hsince]) ?_
    rw [hphase']
    refine ⟨_, hsub, ?_⟩
    cases already with
    | none =>
      refine .enrolled [] [] [] rfl hyields rfl (fun _ => rfl) ⟨fun _ _ => ?_, fun hover => ?_⟩
      · show _ = t.published.drop _
        rw [hsince, List.drop_length]
        rfl
      · cases hover
    | some final =>
      refine .already final rfl ?_ hyields
      rintro ⟨ch, hch, hopen, -⟩
      obtain rfl := Option.some.inj (hchannel.symm.trans hch)
      rw [← halready] at hopen
      cases hopen
  refine ⟨hinv, fun hlawful => ?_⟩
  have hmarked : Marked (t.subscribed v) v ↔
      ∃ ch, t.broker.channel = some ch ∧ ch.closed = true := by
    rw [Marked, hsub]
    simp only [Option.some.injEq, exists_eq_left']
    cases hold : t.broker.channel with
    | none =>
      rw [hold] at halready
      cases already with
      | none => simp [pending]
      | some final => simp at halready
    | some ch =>
      rw [hold] at halready
      cases already with
      | none =>
        have hopen : ch.closed = false := halready.symm
        simp [pending, hopen]
      | some final =>
        have hclosed : ch.closed = true := halready.symm
        simp [pending, hclosed, Event.isClosed]
  rw [hapart.lawful_iff h hinv hlawful, hmarked]
  have hcontiguous : spansOf ((t.subscribed v).handed v) <:+:
      t.published.drop ((t.subscribed v).since v) := by
    rw [handed_of_live hphase' hsub, hyields]
    cases already with
    | none => exact List.nil_infix
    | some final => exact List.nil_infix
  exact ⟨fun h hclosed => h.2 hclosed hphase', fun h => ⟨hcontiguous, fun hclosed _ => h hclosed⟩⟩

/-! #### It takes an event -/

omit [DecidableEq ι] in
/-- A step that takes no more than the subscriber has been handed keeps what it was handed in a row.
-/
theorem contiguous_of_prefix {events : List (Event (ℕ × α))} {all : List (ℕ × α)}
    (hinit : events <+: t.handed v) (h : spansOf (t.handed v) <:+: all) :
    spansOf events <:+: all := by
  obtain ⟨rest, hrest⟩ := hinit
  refine List.IsInfix.trans ?_ h
  rw [← hrest, spansOf_append]
  exact (List.prefix_append _ _).isInfix

theorem apart_take (h : Inv t) (v : ι) (sub : Subscriber (ℕ × α)) (event : Event (ℕ × α)) :
    Apart t (t.take v sub event) v where
  published := rfl
  closed := rfl
  since _ _ := rfl
  phase _ hw := Function.update_of_ne hw _ _
  yields _ hw := Function.update_of_ne hw _ _
  subscriber _ hw := Function.update_of_ne hw _ _
  fed _ _ h := h
  closed_of := h.closed_of

theorem take_spec {event : Event (ℕ × α)} (h : Inv t) (hphase : t.phase v = .live)
    (hsub : t.broker.subscriber v = some sub) (hhead : (pending sub).head? = some event) :
    Inv (t.take v sub event) ∧ (Lawful t → Lawful (t.take v sub event)) := by
  have hapart := apart_take h v sub event
  have hsub' :
    (t.take v sub event).broker.subscriber v = some { sub with queue := sub.queue.tail } :=
    subscriber_take event
  obtain ⟨rest, hpending⟩ := List.head?_eq_some_iff.mp hhead
  obtain ⟨sub', hsome, hlive⟩ := h.live hphase
  obtain rfl := Option.some.inj (hsub.symm.trans hsome)
  have hhanded := handed_of_live hphase hsub
  rw [hpending] at hhanded
  cases event with
  | span a =>
    have hphase' : (t.take v sub (.span a)).phase v = .live := phase_take _
    have hrest := pending_tail hpending
    have hinv : Inv (t.take v sub (.span a)) := by
      refine hapart.inv h (h.since_le v) ?_
      rw [hphase']
      refine ⟨_, hsub', ?_⟩
      cases hlive with
      | already final halready => simp [pending, halready] at hpending
      | enrolled sent spans finals halready hyields hqueue hfinals htracks =>
        have hqueue' : sub.queue = .span a :: rest := by
          rw [← hpending, pending_of_none halready]
        rw [hqueue'] at hqueue
        cases spans with
        | nil => cases finals <;> cases hqueue
        | cons b spans =>
          obtain ⟨hab, htail⟩ := List.cons.inj hqueue
          obtain rfl := Event.span.inj hab
          refine .enrolled (sent ++ [a]) spans finals halready ?_ ?_ hfinals ?_
          · rw [yields_take, hyields, List.map_append]
            rfl
          · exact (congrArg List.tail hqueue').trans htail
          · rw [List.append_assoc]
            exact htracks
    refine ⟨hinv, fun hlawful => (hapart.lawful_iff h hinv hlawful).mpr ⟨?_, fun hclosed _ => ?_⟩⟩
    · have hsame : (t.take v sub (.span a)).handed v = t.handed v := by
        rw [handed_of_live hphase' hsub', hrest, yields_take, hhanded, List.append_assoc]
        rfl
      rw [hsame]
      exact hlawful.contiguous v
    · obtain ⟨sub', hsome, event, hmem, hevent⟩ :=
        ((lawful_iff h).mp hlawful).2 hclosed v hphase
      obtain rfl := Option.some.inj (hsub.symm.trans hsome)
      rw [hpending, List.mem_cons] at hmem
      refine ⟨_, hsub', event, ?_, hevent⟩
      rw [hrest]
      refine hmem.resolve_left fun heq => ?_
      rw [heq] at hevent
      cases hevent
  | closed final =>
    have hphase' : (t.take v sub (.closed final)).phase v = .ended := phase_take _
    have hne : (t.take v sub (.closed final)).phase v ≠ .live := by rw [hphase']; decide
    have hinv : Inv (t.take v sub (.closed final)) := by
      refine hapart.inv h (h.since_le v) ?_
      rw [hphase']
      have hfed : ¬Fed t.broker v := by
        cases hlive with
        | already final' halready hnot => exact hnot
        | enrolled sent spans finals halready hyields hqueue hfinals htracks =>
          intro hfed
          rw [pending_of_none halready] at hpending
          rw [hfinals hfed, hpending] at hqueue
          cases spans <;> cases hqueue
      refine ⟨hfed, ⟨_, hsub'⟩, ?_⟩
      obtain ⟨spans, hyields | ⟨hnot, -⟩⟩ := h.once v
      · exact ⟨spans, final, by rw [yields_take, hyields]⟩
      · exact absurd hphase hnot
    refine ⟨hinv, fun hlawful => (hapart.lawful_iff h hinv hlawful).mpr ⟨?_, fun _ hlive =>
      absurd hlive hne⟩⟩
    refine contiguous_of_prefix ?_ (hlawful.contiguous v)
    rw [Topic.handed, if_neg hne, yields_take, hhanded, List.append_nil]
    exact ⟨rest, by simp⟩

/-! #### It leaves, or comes to its end -/

theorem fed_unsubscribe {w : ι} (h : Fed (t.broker.unsubscribe v sub) w) :
    Fed t.broker w ∧ w ≠ v := by
  obtain ⟨ch, hchannel, hopen, hmem⟩ := h
  unfold State.unsubscribe at hchannel
  dsimp only [State.setSubscriber] at hchannel
  split at hchannel
  · next hnone =>
    rw [hnone] at hchannel
    cases hchannel
  · next ch' hsome =>
    dsimp only at hchannel
    split_ifs at hchannel
    obtain rfl := Option.some.inj hchannel
    obtain ⟨hmem, hopened⟩ := List.mem_filter.mp hmem
    refine ⟨⟨ch', hsome, hopen, hmem⟩, fun hw => ?_⟩
    rw [hw, Function.update_self] at hopened
    cases hopened

theorem subscriber_unsubscribe :
    (t.broker.unsubscribe v sub).subscriber =
      Function.update t.broker.subscriber v (some { sub with closed := true }) := by
  unfold State.unsubscribe
  dsimp only
  split <;> rfl

theorem closed_of_unsubscribe (h : Inv t) {ch : Channel ι}
    (hchannel : (t.broker.unsubscribe v sub).channel = some ch) (hclosed : ch.closed = true) :
    t.closed = true := by
  unfold State.unsubscribe at hchannel
  dsimp only [State.setSubscriber] at hchannel
  split at hchannel
  · next hnone =>
    rw [hnone] at hchannel
    cases hchannel
  · next ch' hsome =>
    dsimp only at hchannel
    split_ifs at hchannel
    obtain rfl := Option.some.inj hchannel
    exact h.closed_of ch' hsome hclosed

theorem apart_finish (h : Inv t) (v : ι) (sub : Subscriber (ℕ × α)) :
    Apart t (t.finish v sub) v where
  published := rfl
  closed := rfl
  since _ _ := rfl
  phase w hw := Function.update_of_ne hw _ _
  yields _ _ := rfl
  subscriber w hw := by
    unfold Topic.finish
    dsimp only
    split_ifs
    · rfl
    · rw [subscriber_unsubscribe, Function.update_of_ne hw]
  fed w _ hfed := by
    unfold Topic.finish at hfed
    dsimp only at hfed
    split_ifs at hfed
    · exact hfed
    · exact (fed_unsubscribe hfed).1
  closed_of ch hchannel := by
    unfold Topic.finish at hchannel
    dsimp only at hchannel
    split_ifs at hchannel
    · exact h.closed_of ch hchannel
    · exact closed_of_unsubscribe h hchannel

theorem finish_spec (h : Inv t) (hsub : t.broker.subscriber v = some sub) :
    Inv (t.finish v sub) ∧ (Lawful t → Lawful (t.finish v sub)) := by
  have hapart := apart_finish h v sub
  have hgone : (t.finish v sub).phase v = .gone := Function.update_self ..
  have hne : (t.finish v sub).phase v ≠ .live := by rw [hgone]; decide
  have hinv : Inv (t.finish v sub) := by
    refine hapart.inv h (h.since_le v) ?_
    rw [hgone]
    refine ⟨fun hfed => ?_, ?_⟩
    · unfold Topic.finish at hfed
      dsimp only at hfed
      split_ifs at hfed with halready
      · obtain ⟨sub', hsome, hlive⟩ := h.live (h.live_of_fed hfed)
        obtain rfl := Option.some.inj (hsub.symm.trans hsome)
        cases hlive with
        | already final _ hnot => exact hnot hfed
        | enrolled sent spans finals hnone => simp [hnone] at halready
      · exact (fed_unsubscribe hfed).2 rfl
    · obtain ⟨spans, hyields⟩ := h.once v
      exact ⟨spans, hyields.imp_right fun hclosed => hclosed.2⟩
  refine ⟨hinv, fun hlawful => (hapart.lawful_iff h hinv hlawful).mpr ⟨?_, fun _ hlive =>
    absurd hlive hne⟩⟩
  refine contiguous_of_prefix ?_ (hlawful.contiguous v)
  rw [Topic.handed, if_neg hne, List.append_nil]
  exact List.prefix_append _ _

end Apart

/-! ### The run -/

section Run
variable [DecidableEq ι] {t t' : Topic ι α}

theorem markActive_spec (h : Inv t) (hs : step t .markActive = some t') :
    Inv t' ∧ (Lawful t → Lawful t') := by
  obtain rfl := Option.some.inj hs
  have hchannel : (t.broker.run .markActive).channel = some (t.broker.channel.getD {}) := rfl
  have hfed : ∀ v, Fed (t.broker.run .markActive) v → Fed t.broker v := by
    rintro v ⟨ch, hch, hopen, hmem⟩
    obtain rfl := Option.some.inj (hchannel.symm.trans hch)
    cases hold : t.broker.channel with
    | none => simp [hold] at hmem
    | some ch => exact ⟨ch, hold, by simpa [hold] using hopen, by simpa [hold] using hmem⟩
  have hinv : Inv { t with broker := t.broker.run .markActive } := by
    refine ⟨h.numbered, h.since_le, fun ch hch hclosed => ?_, fun v =>
      (h.standing v).congr rfl rfl rfl rfl rfl (hfed v)⟩
    obtain rfl := Option.some.inj (hchannel.symm.trans hch)
    cases hold : t.broker.channel with
    | none => simp [hold] at hclosed
    | some ch => exact h.closed_of ch hold (by simpa [hold] using hclosed)
  refine ⟨hinv, fun hlawful => (lawful_iff hinv).mpr ?_⟩
  exact (lawful_iff h).mp hlawful

theorem publish_spec (h : Inv t) (a : α) :
    Inv (t.afterPublish a) ∧ (Lawful t → (Lawful (t.afterPublish a) ↔ Kept t (.publish a))) := by
  have hinv := inv_publish h a
  refine ⟨hinv, fun hlawful => ?_⟩
  obtain ⟨hcontiguous, hmarked⟩ := (lawful_iff h).mp hlawful
  have hmarked' : (t.afterPublish a).closed = true → ∀ v, (t.afterPublish a).phase v = .live →
      Marked (t.afterPublish a) v := fun hclosed v hphase =>
    (marked_publish_iff h a hphase).mpr (hmarked hclosed v hphase)
  rw [lawful_iff hinv, and_iff_left hmarked']
  constructor
  · intro hall ch hchannel hopen v hmem
    exact (contiguous_publish_iff h a (hcontiguous v)).mp (hall v) ⟨ch, hchannel, hopen, hmem⟩
  · rintro hkept v
    refine (contiguous_publish_iff h a (hcontiguous v)).mpr ?_
    rintro ⟨ch, hchannel, hopen, hmem⟩
    exact hkept ch hchannel hopen v hmem

theorem close_spec (h : Inv t) (final : String) :
    Inv (t.afterClose final) ∧
      (Lawful t → (Lawful (t.afterClose final) ↔ Kept t (.close final))) := by
  have hinv := inv_close h final
  refine ⟨hinv, fun hlawful => ?_⟩
  have hcontiguous : ∀ v, spansOf ((t.afterClose final).handed v) <:+:
      (t.afterClose final).published.drop ((t.afterClose final).since v) := fun v => by
    rw [spansOf_handed_close h final v]
    exact hlawful.contiguous v
  rw [lawful_iff hinv, and_iff_right hcontiguous]
  constructor
  · intro hall v hphase sub hsub
    exact (marked_close_iff final hsub).mp (hall rfl v hphase)
  · intro hkept _ v hphase
    obtain ⟨sub, hsub, -⟩ := h.live hphase
    exact (marked_close_iff final hsub).mpr (hkept v hphase sub hsub)

/-- **One step** keeps the invariant, and what is promised exactly if it meets the condition. -/
theorem step_lawful_iff {op : Op ι α} (h : Inv t) (hs : step t op = some t') :
    Inv t' ∧ (Lawful t → (Lawful t' ↔ Kept t op)) := by
  have htrivial : Inv t' ∧ (Lawful t → Lawful t') → Inv t' ∧ (Lawful t → (Lawful t' ↔ True)) :=
    fun ⟨hinv, hkeeps⟩ => ⟨hinv, fun hlawful => iff_of_true (hkeeps hlawful) trivial⟩
  cases op with
  | markActive => exact htrivial (markActive_spec h hs)
  | publish a =>
    obtain rfl := Option.some.inj hs
    exact publish_spec h a
  | close final =>
    obtain rfl := Option.some.inj hs
    exact close_spec h final
  | subscribe v =>
    by_cases hphase : t.phase v = .away
    · rw [step, if_pos hphase] at hs
      obtain rfl := Option.some.inj hs
      exact subscribe_spec h hphase
    · rw [step, if_neg hphase] at hs
      cases hs
  | next v =>
    refine htrivial ?_
    cases hsub : t.broker.subscriber v with
    | none => simp [step, hsub] at hs
    | some sub =>
      cases hphase : t.phase v with
      | live =>
        rw [step_next_live hsub hphase] at hs
        obtain ⟨event, hhead, rfl⟩ := Option.map_eq_some_iff.mp hs
        exact take_spec h hphase hsub hhead
      | ended =>
        simp only [step, hsub, hphase, Option.some.injEq] at hs
        exact hs ▸ finish_spec h hsub
      | away | gone => simp [step, hsub, hphase] at hs
  | leave v =>
    refine htrivial ?_
    cases hsub : t.broker.subscriber v with
    | none => simp [step, hsub] at hs
    | some sub =>
      cases hphase : t.phase v with
      | live | ended =>
        simp only [step, hsub, hphase, Option.some.injEq] at hs
        exact hs ▸ finish_spec h hsub
      | away | gone => simp [step, hsub, hphase] at hs

theorem lawful_init : Lawful ({} : Topic ι α) where
  contiguous _ := List.nil_infix
  once _ := ⟨[], .inl rfl⟩
  terminates h := nomatch h

/-- **Delivery**: in every state of a run each subscriber has been handed a row of what was
published after it came, and comes to its end once the topic is closed, exactly when every step
meets the condition. -/
theorem delivery_iff (ops : List (Op ι α)) (t : Topic ι α) (hrun : exec step {} ops = some t) :
    (∀ done left u, ops = done ++ left → exec step {} done = some u → Lawful u) ↔
      Guarded step Kept {} ops :=
  holds_iff_guarded (J := Inv) (H := fun _ _ => True)
    (fun _ _ _ hinv _ hs => (step_lawful_iff hinv hs).1)
    (fun _ _ _ hinv hlawful _ hs => (step_lawful_iff hinv hs).2 hlawful) inv_init lawful_init
    (guarded_true ops _) hrun

end Run

/-- Two spans, and the close. -/
def watched : List (Op Unit ℕ) := [.subscribe (), .publish 1, .publish 2, .close "completed"]

theorem delivery_watched : (∀ done left u, watched = done ++ left →
    exec step ({} : Topic Unit ℕ) done = some u → Lawful u) ↔ Guarded step Kept {} watched :=
  delivery_iff watched _ rfl

/-! ### A queue that is full when the topic is closed -/

/-- A subscriber that has asked for nothing yet. -/
structure Waiting (t : Topic Unit Unit) (n : ℕ) : Prop where
  inv : Inv t
  fed : Fed t.broker ()
  queue : ∃ sub,
    t.broker.subscriber () = some sub ∧ sub.alreadyClosed = none ∧ sub.queue.length = n ∧
    ∀ event ∈ sub.queue, event.isClosed = false

theorem waiting_publish {t : Topic Unit Unit} {n : ℕ} (h : Waiting t n) (hn : n < queueMaxsize) :
    Waiting (t.afterPublish ()) (n + 1) where
  inv := inv_publish h.inv ()
  fed := (fed_publish _ ()).mpr h.fed
  queue := by
    obtain ⟨sub, hsub, halready, hlength, hopen⟩ := h.queue
    have hroom : sub.queue.length < queueMaxsize := hlength ▸ hn
    refine ⟨sub.putSpan (t.published.length, ()), ?_, ?_⟩
    · rw [Topic.afterPublish, ((run_publish t.broker _).2 ()).1 h.fed, hsub]
      rfl
    · rw [putSpan_eq, if_pos hroom]
      refine ⟨halready, by simp [hlength], fun event hmem => ?_⟩
      rcases List.mem_append.mp hmem with hold | hnew
      · exact hopen event hold
      · rw [List.mem_singleton.mp hnew]
        rfl

theorem exec_publish (n : ℕ) (hn : n ≤ queueMaxsize) : ∃ t, exec step ({} : Topic Unit Unit)
    (.subscribe () :: List.replicate n (.publish ())) = some t ∧ Waiting t n := by
  induction n with
  | zero =>
    have hinv := (subscribe_spec (t := ({} : Topic Unit Unit)) (v := ()) inv_init rfl).1
    exact ⟨_, rfl, hinv, ⟨_, rfl, rfl, List.mem_singleton_self ()⟩, _, rfl, rfl, rfl, by simp⟩
  | succ n ih =>
    obtain ⟨t, hrun, hwaiting⟩ := ih (by omega)
    refine ⟨t.afterPublish (), ?_, waiting_publish hwaiting (by omega)⟩
    rw [List.replicate_succ', ← List.cons_append, exec_snoc hrun]
    rfl

/-- The close event is lost, and the subscriber waits for good. -/
theorem not_lawful_fullQueue : ¬∀ (ops : List (Op Unit Unit)) (t : Topic Unit Unit),
    exec step {} ops = some t → Lawful t := by
  intro h
  obtain ⟨t, hrun, hwaiting⟩ := exec_publish queueMaxsize le_rfl
  obtain ⟨sub, hsub, halready, hlength, hopen⟩ := hwaiting.queue
  have hphase := hwaiting.inv.live_of_fed hwaiting.fed
  have hlawful : Lawful (t.afterClose "completed") := by
    refine h ((.subscribe () :: List.replicate queueMaxsize (.publish ())) ++
      [.close "completed"]) _ ?_
    rw [exec_snoc hrun]
    rfl
  obtain ⟨-, -, hroom⟩ | ⟨hkept, -⟩ := subscriber_close hsub "completed"
  · omega
  · refine not_ends_of_pending (t := t.afterClose "completed") hphase hkept ?_
      (hlawful.terminates rfl () hphase)
    rw [pending_of_none halready]
    exact hopen

end Selfevals.Api.SpanDelivery
