import Selfevals.Api.Broker

/-!
# The Redis broker

`RedisSpanBroker` keeps the spans of a trace in a Redis stream, which a viewer reads from the start,
and ends it with an entry that says how the trace ended. The same is put under a key of its own,
which a viewer looks at first. Both go after a day. The commands of a call are run one after
another, and the viewers' own come in between; Redis answers each of them.
-/

namespace Selfevals.Api.RedisBroker

open Lib.Run Api.Sse

variable {ι α : Type}

/-! ### The broker -/

/-- `_STREAM_MAXLEN`. -/
def streamMaxlen : ℕ := 1000

/-- `COUNT` of an `XREAD`. -/
def readCount : ℕ := 100

/-- An entry of a stream. -/
inductive Entry (α : Type)
  | payload (view : α)
  | closed (finalState : String)
deriving DecidableEq

/-- The event that an entry carries. -/
def Entry.event : Entry α → Event α
  | .payload view => .span view
  | .closed final => .closed final

/-- A command to Redis. -/
inductive Command (α : Type)
  | xadd (entry : Entry α)
  /-- `SETEX` of the closed key. -/
  | setClosed (finalState : String)
  /-- `EXPIRE` of the stream. -/
  | expire

/-- What a call has Redis do, the set of active runs apart. -/
def commandsOf : Call α → List (Command α)
  | .markActive => []
  | .publish view => [.xadd (.payload view)]
  | .close final => [.xadd (.closed final), .setClosed final, .expire]

/-- The commands that a run sends. -/
def commands (trace : Trace α) : List (Command α) := (calls trace).flatMap commandsOf

/-- The generator of `subscribe`. -/
inductive Subscription (α : Type)
  /-- The closed key was there. -/
  | closing (finalState : String)
  /-- As many entries have been yielded, and those are left that were read with the last of them. -/
  | reading (lastId : ℕ) (batch : List (Entry α))

/-- The trace in the storage, the commands run, the stream and how many entries have gone from it,
the closed key, and the viewers. -/
structure State (ι α : Type) where
  stored : Bool := false
  ran : ℕ := 0
  stream : List (Entry α) := []
  dropped : ℕ := 0
  closedKey : Option String := none
  expiring : Bool := false
  subscription : ι → Option (Subscription α) := fun _ => none
  view : ι → View α := fun _ => {}

/-- What Redis and the viewers do. -/
inductive Op (ι : Type)
  /-- The next command; an `XADD` may trim the oldest entries. -/
  | command (trimmed : ℕ)
  | closedExpires
  | streamExpires
  | persist
  | readSnapshot (v : ι)
  | subscribe (v : ι)
  | xread (v : ι)
  /-- The next event of the subscription is sent. -/
  | take (v : ι)
  | ping (v : ι)
  | leave (v : ι)

namespace Subscription

/-- The next event, and what is left. -/
def next? : Subscription α → Option (Event α × Subscription α)
  | closing final => some (.closed final, closing final)
  | reading _ [] => none
  | reading lastId (entry :: batch) => some (entry.event, reading (lastId + 1) batch)

/-- The subscription has read the end. -/
def isClosing : Subscription α → Bool
  | closing _ => true
  | reading _ _ => false

/-- It is to read the stream. -/
def isRead : Subscription α → Bool
  | reading _ [] => true
  | _ => false

/-- It is to yield the end of the trace, which it has read. -/
def isEnding : Subscription α → Bool
  | reading _ (.closed _ :: _) => true
  | _ => false

/-- It is to yield the last span it has at hand. -/
def isLast : Subscription α → Bool
  | reading _ [.payload _] => true
  | _ => false

end Subscription

namespace State
variable (s : State ι α)

/-- The entries of the stream after the given number. -/
def after (lastId : ℕ) : List (Entry α) := s.stream.drop (lastId - s.dropped)

/-- Redis runs a command. -/
def run (trimmed : ℕ) : Command α → Option (State ι α)
  | .xadd entry =>
    let stream := s.stream ++ [entry]
    -- `MAXLEN ~ 1000` : it never trims below that
    if trimmed = 0 ∨ streamMaxlen + trimmed ≤ stream.length then
      some { s with stream := stream.drop trimmed, dropped := s.dropped + trimmed }
    else none
  | .setClosed final => some { s with closedKey := some final }
  | .expire => some { s with expiring := true }

section Viewer
variable [DecidableEq ι]

def setView (v : ι) (view : View α) : State ι α := { s with view := Function.update s.view v view }

def setSubscription (v : ι) (sub : Subscription α) : State ι α :=
  { s with subscription := Function.update s.subscription v (some sub) }

end Viewer

end State

section Step
variable [DecidableEq ι]

/-- One step. -/
def step (trace : Trace α) (s : State ι α) : Op ι → Option (State ι α)
  | .command trimmed =>
    match (commands trace)[s.ran]? with
    | none => none
    | some command => (s.run trimmed command).map fun s => { s with ran := s.ran + 1 }
  | .closedExpires => if s.closedKey.isSome then some { s with closedKey := none } else none
  | .streamExpires =>
    if s.expiring then some
      { s with stream := [], dropped := s.dropped + s.stream.length } else none
  | .persist => some { s with stored := true }
  | .readSnapshot v =>
    if (s.view v).stage = .connecting then
      some (s.setView v ((s.view v).readSnapshot (if s.stored then some trace else none)))
    else none
  | .subscribe v =>
    if (s.view v).stage = .subscribing then
      let sub := match s.closedKey with
        | some final => .closing final
        | none => .reading 0 []
      some ((s.setSubscription v sub).setView v ((s.view v).goTo .live))
    else none
  | .xread v =>
    match s.subscription v with
    | some (.reading lastId []) =>
      if (s.view v).stage = .live then
        some (s.setSubscription v (.reading lastId ((s.after lastId).take readCount)))
      else none
    | _ => none
  | .take v =>
    if (s.view v).stage = .live then
      ((s.subscription v).bind Subscription.next?).map fun (event, sub) =>
        (s.setSubscription v sub).setView v ((s.view v).receive event)
    else none
  | .ping v =>
    if (s.view v).stage = .live then some (s.setView v ((s.view v).send .ping)) else none
  | .leave v =>
    if (s.view v).stage = .gone then none else some (s.setView v ((s.view v).goTo .gone))

/-! ### What the viewers are promised -/

/-- The trace has finished, and its end is in the stream. -/
def Finished (trace : Trace α) (s : State ι α) : Prop := trace.announced.length < s.ran

/-- The subscription has an event, or will read one. -/
def Pending (s : State ι α) (v : ι) : Prop :=
  ∃ sub, s.subscription v = some sub ∧
    (sub.next?.isSome ∨ ∃ lastId batch, sub = .reading lastId batch ∧ s.after lastId ≠ [])

/-- **All viewers are served.** -/
def AllServed (trace : Trace α) (s : State ι α) : Prop :=
  Served trace s.view (Finished trace s) (Pending s)

/-- No viewer is sent `complete` for the closed key alone, unless there is nothing to miss, nor for
the end of the stream where a span was exported; none starts to read, or comes to the end of what it
has read, once the trace is over and the stream has gone; and the stream does not go while a viewer
is to read it. -/
def Covered (trace : Trace α) (s : State ι α) : Op ι → Prop
  | .take v => ∀ sub ∈ s.subscription v, (sub.isClosing = true → trace.spans = []) ∧
      (sub.isEnding = true → trace.announced = trace.spans) ∧
      (sub.isLast = true → Finished trace s → s.stream ≠ [])
  | .subscribe _ => s.closedKey = none → Finished trace s → s.stream ≠ []
  | .streamExpires => ∀ v, (s.view v).stage = .live → ∀ sub ∈ s.subscription v, sub.isRead = false
  | _ => True

instance (trace : Trace α) (s : State ι α) : Decidable (Finished trace s) :=
  inferInstanceAs (Decidable (_ < _))

instance [Fintype ι] [DecidableEq α] (trace : Trace α) (s : State ι α) (op : Op ι) :
    Decidable (Covered trace s op) :=
  match op with
  | .take v => inferInstanceAs (Decidable (∀ sub ∈ s.subscription v,
      (sub.isClosing = true → trace.spans = []) ∧
        (sub.isEnding = true → trace.announced = trace.spans) ∧
        (sub.isLast = true → Finished trace s → s.stream ≠ [])))
  | .subscribe _ =>
    inferInstanceAs (Decidable (s.closedKey = none → Finished trace s → s.stream ≠ []))
  | .streamExpires => inferInstanceAs (Decidable (∀ v, (s.view v).stage = .live →
      ∀ sub ∈ s.subscription v, sub.isRead = false))
  | .command _ | .closedExpires | .persist | .readSnapshot _ | .xread _ | .ping _ | .leave _ =>
    inferInstanceAs (Decidable True)

end Step

/-! ### The entries of a trace -/

/-- All entries of the stream, in order. -/
def entries (trace : Trace α) : List (Entry α) :=
  trace.announced.map .payload ++ [.closed trace.finalState.value]

section Entries
variable {trace : Trace α} {n : ℕ}

theorem length_entries : (entries trace).length = trace.announced.length + 1 := by simp [entries]

theorem commands_eq : commands trace =
    (entries trace).map .xadd ++ [.setClosed trace.finalState.value, .expire] := by
  simp only [commands, calls, entries, List.cons_append, List.flatMap_cons, List.flatMap_append,
    List.flatMap_map, commandsOf, ← List.map_eq_flatMap]
  simp

theorem getElem?_commands {command : Command α} (h : (commands trace)[n]? = some command) :
    (∃ entry, command = .xadd entry ∧ (entries trace)[n]? = some entry) ∨
      (trace.announced.length < n ∧ n < trace.announced.length + 3 ∧
        ∀ entry, command ≠ .xadd entry) := by
  rw [commands_eq, List.getElem?_append] at h
  split_ifs at h with hn
  · obtain ⟨entry, hentry, rfl⟩ := by simpa using h
    exact .inl ⟨entry, rfl, hentry⟩
  · have hlt := (List.getElem?_eq_some_iff.mp h).1
    simp only [List.length_map, length_entries, List.length_cons, List.length_nil] at hn hlt
    refine .inr ⟨by omega, by omega, ?_⟩
    rintro entry rfl
    simpa using List.mem_of_getElem? h

theorem getElem?_entries_payload {view : α} (h : (entries trace)[n]? = some (.payload view)) :
    trace.announced[n]? = some view := by
  rw [entries, List.getElem?_append] at h
  split_ifs at h with hn
  · simpa using h
  · simpa using List.mem_of_getElem? h

theorem getElem?_entries_closed {final : String} (h : (entries trace)[n]? = some (.closed final)) :
    n = trace.announced.length := by
  have hlt := (List.getElem?_eq_some_iff.mp h).1
  rw [length_entries] at hlt
  rw [entries, List.getElem?_append] at h
  split_ifs at h with hn
  · simpa using List.mem_of_getElem? h
  · rw [List.length_map] at hn
    omega

end Entries

/-! ### What is kept -/

/-- What a live viewer has been sent and has at hand. -/
def Reading (trace : Trace α) (ran : ℕ) (frames : List (Frame α)) : Subscription α → Prop
  | .closing _ => trace.announced.length < ran ∧ delivered frames = []
  | .reading lastId batch =>
    lastId ≤ trace.announced.length ∧ delivered frames = trace.announced.take lastId ∧
      batch <+: ((entries trace).take ran).drop lastId

/-- What holds in every state of a run. -/
structure Inv (trace : Trace α) (s : State ι α) : Prop where
  stream : s.stream = ((entries trace).take s.ran).drop s.dropped
  dropped : s.dropped = 0 ∨ s.stream = [] ∧ Finished trace s
  closedKey : s.closedKey.isSome → Finished trace s
  expiring : s.expiring = true → Finished trace s
  sound : ∀ v, (s.view v).Sound
  live : ∀ v, (s.view v).stage = .live → ∃ sub, s.subscription v = some sub ∧
    Reading trace s.ran (s.view v).frames sub

section Preserved
variable {trace : Trace α} {s : State ι α}

theorem inv_init (trace : Trace α) : Inv trace ({} : State ι α) where
  stream := rfl
  dropped := .inl rfl
  closedKey h := by cases h
  expiring h := by cases h
  sound _ := rfl
  live _ h := by cases h

theorem allServed_init (trace : Trace α) : AllServed trace ({} : State ι α) :=
  ⟨fun _ => served_of_incomplete fun _ h => absurd h List.not_mem_nil, fun _ _ h => by cases h⟩

theorem Reading.mono {ran ran' : ℕ} {frames : List (Frame α)} {sub : Subscription α}
    (h : Reading trace ran frames sub) (hle : ran ≤ ran') : Reading trace ran' frames sub := by
  cases sub with
  | closing final => exact ⟨h.1.trans_le hle, h.2⟩
  | reading lastId batch =>
    obtain ⟨hlast, hdelivered, hbatch⟩ := h
    refine ⟨hlast, hdelivered, hbatch.trans ?_⟩
    obtain ⟨more, hmore⟩ := List.take_prefix_take_left hle (l := entries trace)
    rw [← hmore]
    exact (List.prefix_append _ more).drop lastId

theorem cons_prefix_drop {entry : Entry α} {batch all : List (Entry α)} {n : ℕ}
    (h : entry :: batch <+: all.drop n) : all[n]? = some entry ∧ batch <+: all.drop (n + 1) := by
  obtain ⟨more, hmore⟩ := h
  constructor
  · rw [← List.head?_drop, ← hmore]
    rfl
  · refine ⟨more, ?_⟩
    rw [← List.drop_drop, ← hmore]
    rfl

theorem after_eq (h : Inv trace s) (hstream : s.stream ≠ []) (lastId : ℕ) :
    s.after lastId = ((entries trace).take s.ran).drop lastId := by
  rcases h.dropped with hzero | ⟨hnil, -⟩
  · rw [State.after, h.stream, hzero, List.drop_zero, Nat.sub_zero]
  · exact absurd hnil hstream

theorem after_ne_nil_iff (h : Inv trace s) (hfinished : Finished trace s) {lastId : ℕ}
    (hlast : lastId ≤ trace.announced.length) : s.after lastId ≠ [] ↔ s.stream ≠ [] := by
  constructor
  · intro hafter hnil
    rw [State.after, hnil, List.drop_nil] at hafter
    exact hafter rfl
  · intro hstream
    rw [after_eq h hstream, List.take_of_length_le (length_entries.le.trans hfinished), Ne,
      List.drop_eq_nil_iff, length_entries]
    omega

theorem pending_closing {v : ι} {final : String} (hsub : s.subscription v = some (.closing final)) :
    Pending s v := ⟨_, hsub, .inl rfl⟩

theorem pending_reading_iff {v : ι} {lastId : ℕ} {batch : List (Entry α)}
    (hsub : s.subscription v = some (.reading lastId batch)) :
    Pending s v ↔ batch ≠ [] ∨ s.after lastId ≠ [] := by
  rw [Pending, hsub]
  simp only [Option.some.injEq, exists_eq_left', Subscription.reading.injEq]
  refine or_congr ?_ ⟨?_, fun hafter => ⟨lastId, batch, ⟨rfl, rfl⟩, hafter⟩⟩
  · cases batch with
    | nil => simp [Subscription.next?]
    | cons entry batch => simp [Subscription.next?]
  · rintro ⟨_, _, ⟨rfl, rfl⟩, hafter⟩
    exact hafter

section Viewer
variable [DecidableEq ι] {s' : State ι α} {v : ι} {view : View α}

theorem Inv.of_viewer (h : Inv trace s) (hs : s' = { s with
      view := Function.update s.view v view
      subscription := s'.subscription })
    (hsubscription : ∀ w ≠ v, s'.subscription w = s.subscription w) (hsound : view.Sound)
    (hlive : view.stage = .live → ∃ sub, s'.subscription v = some sub ∧
      Reading trace s.ran view.frames sub) : Inv trace s' := by
  have hview : s'.view = Function.update s.view v view := by rw [hs]
  have hran : s'.ran = s.ran := by rw [hs]
  refine ⟨by rw [hs]; exact h.stream, by rw [hs]; exact h.dropped, by rw [hs]; exact h.closedKey,
    by rw [hs]; exact h.expiring, fun w => ?_, fun w => ?_⟩
  · rw [hview]
    by_cases hw : w = v
    · subst hw
      rwa [Function.update_self]
    · rw [Function.update_of_ne hw]
      exact h.sound w
  · rw [hview, hran]
    by_cases hw : w = v
    · subst hw
      rwa [Function.update_self]
    · rw [Function.update_of_ne hw, hsubscription w hw]
      exact h.live w

theorem allServed_of_viewer_iff (hserved : AllServed trace s) (hs : s' = { s with
      view := Function.update s.view v view
      subscription := s'.subscription })
    (hsubscription : ∀ w ≠ v, s'.subscription w = s.subscription w) :
    AllServed trace s' ↔ view.Served trace ∧
      (Finished trace s → view.stage = .live → Pending s' v) := by
  have hpending : ∀ w ≠ v, Pending s' w ↔ Pending s w := fun w hw => by
    have hafter : ∀ lastId, s'.after lastId = s.after lastId := fun lastId => by rw [hs]; rfl
    unfold Pending
    simp only [hsubscription w hw, hafter]
  have hview : s'.view = Function.update s.view v view := by rw [hs]
  have hran : s'.ran = s.ran := by rw [hs]
  unfold AllServed Finished
  rw [hran, hview]
  exact served_update_iff hserved hpending

end Viewer

end Preserved

/-! ### One step -/

section StepSpec
variable [DecidableEq ι] {trace : Trace α} {s s' : State ι α}

omit [DecidableEq ι] in
theorem kept_of_eq (h : Inv trace s) (hran : s'.ran = s.ran ∨ Finished trace s ∧ s.ran ≤ s'.ran)
    (hkey : s'.closedKey.isSome → Finished trace s) (hexpiring : s'.expiring = true →
      Finished trace s)
    (hs : s' = { s with
      stored := s'.stored
      ran := s'.ran
      closedKey := s'.closedKey
      expiring := s'.expiring }) : Inv trace s' ∧ (AllServed trace s → AllServed trace s') := by
  have hle : s.ran ≤ s'.ran := by
    rcases hran with heq | ⟨-, hle⟩
    · exact heq.ge
    · exact hle
  have hfinished : Finished trace s' ↔ Finished trace s := by
    rcases hran with heq | ⟨hover, -⟩
    · rw [Finished, Finished, heq]
    · exact iff_of_true (hover.trans_le hle) hover
  have htake : (entries trace).take s'.ran = (entries trace).take s.ran := by
    rcases hran with heq | ⟨hover, -⟩
    · rw [heq]
    · rw [List.take_of_length_le (length_entries.le.trans hover),
        List.take_of_length_le (length_entries.le.trans (hover.trans_le hle))]
  have hstream : s'.stream = s.stream := by rw [hs]
  have hdropped : s'.dropped = s.dropped := by rw [hs]
  have hview : s'.view = s.view := by rw [hs]
  have hsubscription : s'.subscription = s.subscription := by rw [hs]
  have hafter : ∀ lastId, s'.after lastId = s.after lastId := fun lastId => by
    rw [State.after, State.after, hstream, hdropped]
  constructor
  · refine ⟨?_, ?_, fun hk => hfinished.mpr (hkey hk),
      fun he => hfinished.mpr (hexpiring he), ?_, ?_⟩
    · rw [hstream, hdropped, htake]
      exact h.stream
    · rw [hstream, hdropped, hfinished]
      exact h.dropped
    · rw [hview]
      exact h.sound
    · rw [hview, hsubscription]
      intro v hstage
      obtain ⟨sub, hsub, hreading⟩ := h.live v hstage
      exact ⟨sub, hsub, hreading.mono hle⟩
  · rintro ⟨hall, hwait⟩
    unfold AllServed Served Pending
    rw [hview, hsubscription, hfinished]
    simp only [hafter]
    exact ⟨hall, hwait⟩

theorem command_spec {trimmed : ℕ} (hlen : trace.announced.length < streamMaxlen) (h : Inv trace s)
    (hs : step trace s (.command trimmed) = some s') :
    Inv trace s' ∧ (AllServed trace s → AllServed trace s') := by
  simp only [step] at hs
  split at hs
  · cases hs
  next command hcommand =>
  rcases getElem?_commands hcommand with ⟨entry, rfl, hentry⟩ | ⟨hlt, -, hne⟩
  · have hran : s.ran < trace.announced.length + 1 := by
      rw [← length_entries]
      exact (List.getElem?_eq_some_iff.mp hentry).1
    have hzero : s.dropped = 0 := h.dropped.resolve_right fun ⟨_, hfinished⟩ => by
      unfold Finished at hfinished
      omega
    have hstream : s.stream = (entries trace).take s.ran := by rw [h.stream, hzero, List.drop_zero]
    have hlength : (s.stream ++ [entry]).length = s.ran + 1 := by
      rw [hstream, List.length_append, List.length_take, length_entries, List.length_singleton]
      omega
    obtain rfl : trimmed = 0 := by
      by_contra hpos
      simp only [State.run, hlength, hpos, false_or] at hs
      rw [if_neg (by omega)] at hs
      cases hs
    simp only [State.run, true_or, if_true, Option.map_some, Option.some.injEq,
      List.drop_zero] at hs
    have hentries : s.stream ++ [entry] = (entries trace).take (s.ran + 1) := by
      rw [hstream, List.take_add_one, hentry]
      rfl
    have hlive : ∀ v, (s'.view v).stage = .live → ∃ sub, s'.subscription v = some sub ∧
        Reading trace s'.ran (s'.view v).frames sub := by
      intro v hstage
      subst hs
      obtain ⟨sub, hsub, hreading⟩ := h.live v hstage
      exact ⟨sub, hsub, hreading.mono (Nat.le_succ _)⟩
    have hinv : Inv trace s' := by
      refine ⟨?_, .inl ?_, fun hkey => ?_, fun hexp => ?_, ?_, hlive⟩
      · subst hs
        show s.stream ++ [entry] = _
        rw [hzero, hentries, List.drop_zero]
      · subst hs
        exact hzero
      · subst hs
        exact Nat.lt_succ_of_lt (h.closedKey hkey)
      · subst hs
        exact Nat.lt_succ_of_lt (h.expiring hexp)
      · subst hs
        exact h.sound
    have hstream' : s'.stream ≠ [] := by
      subst hs
      exact List.append_ne_nil_of_right_ne_nil _ (List.cons_ne_nil entry [])
    refine ⟨hinv, fun hserved => ⟨?_, fun hfinished v hstage => ?_⟩⟩
    · subst hs
      exact hserved.1
    · obtain ⟨sub, hsub, hreading⟩ := hlive v hstage
      cases sub with
      | closing final => exact pending_closing hsub
      | reading lastId batch =>
        rw [pending_reading_iff hsub, after_ne_nil_iff hinv hfinished hreading.1]
        exact .inr hstream'
  · have hfinished : Finished trace s := hlt
    refine kept_of_eq h (.inr ⟨hfinished, ?_⟩) (fun _ => hfinished) (fun _ => hfinished) ?_
    · cases command with
      | xadd entry => exact absurd rfl (hne entry)
      | setClosed final =>
        obtain rfl := Option.some.inj hs
        exact Nat.le_succ _
      | expire =>
        obtain rfl := Option.some.inj hs
        exact Nat.le_succ _
    · cases command with
      | xadd entry => exact absurd rfl (hne entry)
      | setClosed final =>
        obtain rfl := Option.some.inj hs
        rfl
      | expire =>
        obtain rfl := Option.some.inj hs
        rfl

theorem streamExpires_spec (h : Inv trace s) (hs : step trace s .streamExpires = some s') :
    Inv trace s' ∧ (AllServed trace s → (AllServed trace s' ↔ Covered trace s .streamExpires)) := by
  simp only [step] at hs
  split_ifs at hs with hexpiring
  have hfinished := h.expiring hexpiring
  have hs := (Option.some.inj hs).symm
  have hsubscription : s'.subscription = s.subscription := by rw [hs]
  have hview : s'.view = s.view := by rw [hs]
  have hstream : s'.stream = [] := by rw [hs]
  have hran : s'.ran = s.ran := by rw [hs]
  have hfinished' : Finished trace s' := by rw [Finished, hran]; exact hfinished
  have hgone : ∀ lastId, s'.after lastId = [] :=
    fun lastId => by rw [State.after, hstream, List.drop_nil]
  constructor
  · refine ⟨?_, .inr ⟨hstream, hfinished'⟩, fun _ => hfinished', fun _ => hfinished', ?_, ?_⟩
    · rw [hs]
      show [] = ((entries trace).take s.ran).drop (s.dropped + s.stream.length)
      rw [← List.drop_drop, ← h.stream, List.drop_length]
    · rw [hview]
      exact h.sound
    · rw [hview, hsubscription, hran]
      exact h.live
  · intro hserved
    constructor
    · rintro ⟨-, hwait⟩ v hstage sub hsub
      rw [← hview] at hstage
      rw [Option.mem_def, ← hsubscription] at hsub
      cases sub with
      | closing final => rfl
      | reading lastId batch =>
        have hbatch := ((pending_reading_iff hsub).mp (hwait hfinished' v hstage)).resolve_right
          fun hne => hne (hgone lastId)
        cases batch with
        | nil => exact absurd rfl hbatch
        | cons entry batch => rfl
    · intro hcovered
      refine ⟨by rw [hview]; exact hserved.1, fun _ v hstage => ?_⟩
      rw [hview] at hstage
      obtain ⟨sub, hsub, -⟩ := h.live v hstage
      rw [← hsubscription] at hsub
      cases sub with
      | closing final => exact pending_closing hsub
      | reading lastId batch =>
        refine (pending_reading_iff hsub).mpr (.inl ?_)
        rintro rfl
        rw [hsubscription] at hsub
        cases hcovered v hstage _ hsub

theorem subscribe_spec {v : ι} (h : Inv trace s) (hs : step trace s (.subscribe v) = some s') :
    Inv trace s' ∧ (AllServed trace s → (AllServed trace s' ↔ Covered trace s (.subscribe v))) := by
  by_cases hstage : (s.view v).stage = .subscribing
  swap
  · simp [step, hstage] at hs
  rw [step, if_pos hstage] at hs
  have hsound := h.sound v
  rw [View.Sound, hstage] at hsound
  obtain ⟨hincomplete, hdelivered⟩ := hsound
  obtain ⟨sub, hsub, hs⟩ : ∃ sub : Subscription α,
      sub = (match s.closedKey with
        | some final => Subscription.closing final
        | none => .reading 0 []) ∧
      s' = (s.setSubscription v sub).setView v ((s.view v).goTo .live) :=
        ⟨_, rfl, (Option.some.inj hs).symm⟩
  have hself : s'.subscription v = some sub := by
    rw [hs]
    exact Function.update_self v _ _
  have hother : ∀ w ≠ v, s'.subscription w = s.subscription w := by
    intro w hw
    rw [hs]
    exact Function.update_of_ne hw _ _
  have hframe : s' = { s with
      view := Function.update s.view v ((s.view v).goTo .live)
      subscription := s'.subscription } := by
    rw [hs]
    rfl
  have hafter : s'.after 0 = s.after 0 := by
    rw [hs]
    rfl
  refine ⟨h.of_viewer hframe hother hincomplete fun _ => ⟨sub, hself, ?_⟩, fun hserved => ?_⟩
  · cases hkey : s.closedKey with
    | some final =>
      rw [hsub, hkey]
      exact ⟨h.closedKey (by rw [hkey]; rfl), hdelivered⟩
    | none =>
      rw [hsub, hkey]
      exact ⟨Nat.zero_le _, hdelivered, List.nil_prefix⟩
  · rw [allServed_of_viewer_iff hserved hframe hother]
    have hserves : ((s.view v).goTo .live).Served trace := served_of_incomplete hincomplete
    cases hkey : s.closedKey with
    | some final =>
      rw [hsub, hkey] at hself
      refine iff_of_true ⟨hserves, fun _ _ => pending_closing hself⟩ fun hnone => ?_
      cases hkey.symm.trans hnone
    | none =>
      rw [hsub, hkey] at hself
      rw [pending_reading_iff hself, hafter]
      constructor
      · rintro ⟨-, hwait⟩ - hfinished
        exact (after_ne_nil_iff h hfinished (Nat.zero_le _)).mp
          ((hwait hfinished rfl).resolve_left (· rfl))
      · refine fun hcovered => ⟨hserves, fun hfinished _ => .inr ?_⟩
        exact (after_ne_nil_iff h hfinished (Nat.zero_le _)).mpr (hcovered hkey hfinished)

theorem xread_spec {v : ι} (h : Inv trace s) (hs : step trace s (.xread v) = some s') :
    Inv trace s' ∧ (AllServed trace s → AllServed trace s') := by
  simp only [step] at hs
  split at hs
  swap
  · cases hs
  next lastId hsub =>
  split_ifs at hs with hstage
  obtain rfl := Option.some.inj hs
  obtain ⟨sub, hsub', hreading⟩ := h.live v hstage
  obtain rfl := Option.some.inj (hsub.symm.trans hsub')
  obtain ⟨hlast, hdelivered, -⟩ := hreading
  have hother : ∀ w ≠ v,
    (s.setSubscription v (.reading lastId ((s.after lastId).take readCount))).subscription w =
      s.subscription w := fun w hw => Function.update_of_ne hw _ _
  have hview : s.view = Function.update s.view v (s.view v) :=
    (Function.update_eq_self v s.view).symm
  have hself : s.setSubscription v (.reading lastId ((s.after lastId).take readCount)) =
      { s with
        view := Function.update s.view v (s.view v)
        subscription := (s.setSubscription v
          (.reading lastId ((s.after lastId).take readCount))).subscription } := by
    rw [← hview]
    rfl
  refine ⟨h.of_viewer hself hother (h.sound v) fun _ =>
    ⟨_, Function.update_self v _ _, hlast, hdelivered, ?_⟩,
    fun hserved => ?_⟩
  · refine (List.take_prefix _ _).trans ?_
    by_cases hstream : s.stream = []
    · rw [State.after, hstream, List.drop_nil]
      exact List.nil_prefix
    · rw [after_eq h hstream]
  · refine (allServed_of_viewer_iff hserved hself hother).mpr ⟨hserved.1 v, fun hfinished _ => ?_⟩
    have hafter := ((pending_reading_iff hsub).mp (hserved.2 hfinished v hstage)).resolve_left
      (· rfl)
    refine (pending_reading_iff (Function.update_self v _ _)).mpr (.inl ?_)
    simpa [readCount] using hafter

theorem take_spec {v : ι} (h : Inv trace s) (hs : step trace s (.take v) = some s') :
    Inv trace s' ∧ (AllServed trace s → (AllServed trace s' ↔ Covered trace s (.take v))) := by
  simp only [step] at hs
  split_ifs at hs with hstage
  obtain ⟨⟨event, rest⟩, hnext, hs⟩ := Option.map_eq_some_iff.mp hs
  obtain ⟨sub, hsub, hnext⟩ := Option.bind_eq_some_iff.mp hnext
  have hs : s' = (s.setSubscription v rest).setView v ((s.view v).receive event) := hs.symm
  have hincomplete := h.sound v
  rw [View.Sound, hstage] at hincomplete
  obtain ⟨sub', hsub', hreading⟩ := h.live v hstage
  obtain rfl := Option.some.inj (hsub.symm.trans hsub')
  have hself : s'.subscription v = some rest := by
    rw [hs]
    exact Function.update_self v _ _
  have hother : ∀ w ≠ v, s'.subscription w = s.subscription w := by
    intro w hw
    rw [hs]
    exact Function.update_of_ne hw _ _
  have hframe : s' = { s with
      view := Function.update s.view v ((s.view v).receive event)
      subscription := s'.subscription } := by
    rw [hs]
    rfl
  have hafter : ∀ lastId, s'.after lastId = s.after lastId := fun _ => by rw [hs]; rfl
  cases sub with
  | closing final =>
    obtain ⟨rfl, rfl⟩ := Prod.mk.inj (Option.some.inj hnext)
    refine ⟨h.of_viewer hframe hother trivial fun hlive => (by cases hlive), fun hserved => ?_⟩
    rw [allServed_of_viewer_iff hserved hframe hother, View.receive,
      served_complete_iff hincomplete,
      hreading.2]
    constructor
    · rintro ⟨hall, -⟩ sub hsub'
      obtain rfl := Option.some.inj (hsub.symm.trans hsub')
      refine ⟨fun _ => List.eq_nil_iff_forall_not_mem.mpr fun span hspan => ?_,
        fun hending => (by cases hending), fun hlast => (by cases hlast)⟩
      exact absurd (hall span hspan) List.not_mem_nil
    · intro hcovered
      refine ⟨fun span hspan => ?_, fun _ hlive => (by cases hlive)⟩
      rwa [(hcovered _ hsub).1 rfl] at hspan
  | reading lastId batch =>
    cases batch with
    | nil => cases hnext
    | cons entry batch =>
    obtain ⟨rfl, rfl⟩ := Prod.mk.inj (Option.some.inj hnext)
    obtain ⟨hlast, hdelivered, hbatch⟩ := hreading
    obtain ⟨hentry, hrest⟩ := cons_prefix_drop hbatch
    have hentry : (entries trace)[lastId]? = some entry := by
      obtain ⟨hlt, hget⟩ := List.getElem?_eq_some_iff.mp hentry
      rw [List.getElem_take] at hget
      exact List.getElem?_eq_some_iff.mpr ⟨_, hget⟩
    cases entry with
    | payload view =>
      have hview := getElem?_entries_payload hentry
      have hlt := (List.getElem?_eq_some_iff.mp hview).1
      have hsent : Incomplete ((s.view v).receive (.span view)).frames :=
        hincomplete.append (by simp)
      refine ⟨h.of_viewer hframe hother ?_ fun _ => ⟨_, hself, hlt, ?_, hrest⟩, fun hserved => ?_⟩
      · show View.Sound { stage := (s.view v).stage, frames := _ }
        rw [View.Sound, hstage]
        exact hsent
      · rw [List.take_add_one, hview, ← hdelivered]
        exact delivered_append _ _
      · rw [allServed_of_viewer_iff hserved hframe hother, pending_reading_iff hself, hafter]
        constructor
        · rintro ⟨-, hwait⟩ sub hsub'
          obtain rfl := Option.some.inj (hsub.symm.trans hsub')
          refine ⟨fun hclosing => (by cases hclosing), fun hending => (by cases hending),
            fun hlast hfinished => ?_⟩
          cases batch with
          | nil =>
            exact (after_ne_nil_iff h hfinished hlt).mp
              ((hwait hfinished hstage).resolve_left (· rfl))
          | cons entry batch => cases hlast
        · intro hcovered
          refine ⟨served_of_incomplete hsent, fun hfinished _ => ?_⟩
          cases batch with
          | nil => exact .inr ((after_ne_nil_iff h hfinished hlt).mpr
            ((hcovered _ hsub).2.2 rfl hfinished))
          | cons entry batch => exact .inl (List.cons_ne_nil entry batch)
    | closed final =>
      obtain rfl := getElem?_entries_closed hentry
      refine ⟨h.of_viewer hframe hother trivial fun hlive => (by cases hlive), fun hserved => ?_⟩
      rw [allServed_of_viewer_iff hserved hframe hother, Entry.event, View.receive,
        served_complete_iff hincomplete, hdelivered, List.take_length,
        ← List.drop_zero (l := trace.announced), forall_mem_drop_iff trace (Nat.zero_le _)]
      constructor
      · rintro ⟨⟨-, hall⟩, -⟩ sub hsub'
        obtain rfl := Option.some.inj (hsub.symm.trans hsub')
        exact ⟨fun hclosing => (by cases hclosing), fun _ => hall, fun hlast => (by cases hlast)⟩
      · intro hcovered
        exact ⟨⟨rfl, (hcovered _ hsub).2.1 rfl⟩, fun _ hlive => (by cases hlive)⟩

theorem setView_spec {v : ι} {view : View α} (h : Inv trace s) (hsound : view.Sound)
    (hserves : (s.view v).Served trace → view.Served trace)
    (hlive : view.stage = .live → (s.view v).stage = .live ∧
      delivered view.frames = delivered (s.view v).frames) :
    Inv trace (s.setView v view) ∧ (AllServed trace s → AllServed trace (s.setView v view)) := by
  have hframe : s.setView v view = { s with
      view := Function.update s.view v view
      subscription := (s.setView v view).subscription } := rfl
  refine ⟨h.of_viewer hframe (fun _ _ => rfl) hsound fun hstage => ?_, fun hserved => ?_⟩
  · obtain ⟨hstage, hdelivered⟩ := hlive hstage
    obtain ⟨sub, hsub, hreading⟩ := h.live v hstage
    refine ⟨sub, hsub, ?_⟩
    unfold Reading at hreading ⊢
    rwa [hdelivered]
  · refine (allServed_of_viewer_iff hserved hframe fun _ _ => rfl).mpr ⟨hserves (hserved.1 v), ?_⟩
    exact fun hfinished hstage => hserved.2 hfinished v (hlive hstage).1

/-- **One step** keeps the invariant, and serves the viewers exactly when it is covered. -/
theorem step_spec {op : Op ι} (hlen : trace.announced.length < streamMaxlen) (h : Inv trace s)
    (hs : step trace s op = some s') :
    Inv trace s' ∧ (AllServed trace s → (AllServed trace s' ↔ Covered trace s op)) := by
  have hfree : Covered trace s op → Inv trace s' ∧ (AllServed trace s → AllServed trace s') →
      Inv trace s' ∧ (AllServed trace s → (AllServed trace s' ↔ Covered trace s op)) :=
    fun hcovered hspec => ⟨hspec.1, fun hall => iff_of_true (hspec.2 hall) hcovered⟩
  cases op with
  | command trimmed => exact hfree trivial (command_spec hlen h hs)
  | closedExpires =>
    simp only [step] at hs
    split_ifs at hs with hkey
    obtain rfl := Option.some.inj hs
    exact hfree trivial (kept_of_eq h (.inl rfl) (fun _ => h.closedKey hkey) h.expiring rfl)
  | streamExpires => exact streamExpires_spec h hs
  | persist =>
    obtain rfl := Option.some.inj hs
    exact hfree trivial (kept_of_eq h (.inl rfl) h.closedKey h.expiring rfl)
  | readSnapshot v =>
    by_cases hstage : (s.view v).stage = .connecting
    swap
    · simp [step, hstage] at hs
    rw [step, if_pos hstage] at hs
    obtain rfl := Option.some.inj hs
    have hframes : (s.view v).frames = [] := by
      have hsound := h.sound v
      rwa [View.Sound, hstage] at hsound
    obtain ⟨hserves, hsound, hlive⟩ := readSnapshot_spec hframes trace s.stored
    exact hfree trivial (setView_spec h hsound (fun _ => hserves) fun hstage => absurd hstage hlive)
  | subscribe v => exact subscribe_spec h hs
  | xread v => exact hfree trivial (xread_spec h hs)
  | take v => exact take_spec h hs
  | ping v =>
    simp only [step] at hs
    split_ifs at hs with hstage
    obtain rfl := Option.some.inj hs
    obtain ⟨hserves, hsound, hdelivered⟩ := ping_spec trace (h.sound v) hstage
    exact hfree trivial (setView_spec h hsound (fun _ => hserves) fun _ => ⟨hstage, hdelivered⟩)
  | leave v =>
    simp only [step] at hs
    split_ifs at hs
    obtain rfl := Option.some.inj hs
    exact hfree trivial (setView_spec h trivial (fun hserved =>
      hserved) fun hlive => by cases hlive)

end StepSpec

/-- **All viewers are served along a run** below the stream's length exactly when none is sent
`complete` for the closed key alone, or where a span was exported, and none is left with a stream
that has gone. -/
theorem allServed_iff [DecidableEq ι] (trace : Trace α)
    (hlen : trace.announced.length < streamMaxlen)
    (ops : List (Op ι)) (s : State ι α) (hs : exec (step trace) {} ops = some s) :
    (∀ done left t, ops = done ++ left → exec (step trace) {} done = some t → AllServed trace t) ↔
      Guarded (step trace) (Covered trace) {} ops :=
  holds_iff_guarded (J := Inv trace) (H := fun _ _ => True)
    (fun _ _ _ hinv _ hs => (step_spec hlen hinv hs).1)
    (fun _ _ _ hinv hall _ hs => (step_spec hlen hinv hs).2 hall) (inv_init trace)
    (allServed_init trace) (guarded_true ops _) hs

/-! ### Both brokers -/

/-- **All viewers are served along a run**, with either broker, exactly when the run is covered. -/
theorem bothServed_iff [DecidableEq ι] (trace : Trace α) :
    (∀ (ops : List (Broker.Op ι)) (s : Broker.State ι α), exec (Broker.step trace) {} ops = some s →
      Guarded (Broker.step trace) Broker.NoOverflow {} ops →
      ((∀ done left t, ops = done ++ left → exec (Broker.step trace) {} done = some t →
        Broker.AllServed trace t) ↔ Guarded (Broker.step trace) (Broker.Covered trace) {} ops)) ∧
    (trace.announced.length < streamMaxlen → ∀ (ops : List (Op ι)) (s : State ι α),
      exec (step trace) {} ops = some s →
      ((∀ done left t,
        ops = done ++ left → exec (step trace) {} done = some t → AllServed trace t) ↔
        Guarded (step trace) (Covered trace) {} ops)) :=
  ⟨Broker.allServed_iff trace, allServed_iff trace⟩

/-- A trace with one span. -/
def oneSpan : Trace String := ⟨["sp1"], ["sp1"], .completed, List.nodup_singleton _, .refl _⟩

def watched : List (Broker.Op Unit) :=
  [.readSnapshot (), .subscribe (), .call, .runCallback, .call, .runCallback, .take (), .call,
    .runCallback,
    .take (), .leave ()]

def watchedRedis : List (Op Unit) :=
  [.readSnapshot (), .subscribe (), .command 0, .xread (), .take (), .command 0, .command 0,
    .xread (),
    .take (), .leave ()]

theorem bothServed_watched :
    (∀ done left t, watched = done ++ left → exec (Broker.step oneSpan) {} done = some t →
      Broker.AllServed oneSpan t) ∧
    ∀ done left t, watchedRedis = done ++ left → exec (step oneSpan) {} done = some t →
      AllServed oneSpan t := by
  obtain ⟨s, hs⟩ : ∃ s, exec (Broker.step oneSpan) {} watched = some s :=
    Option.isSome_iff_exists.mp (by decide +kernel)
  obtain ⟨t, ht⟩ : ∃ t, exec (step oneSpan) {} watchedRedis = some t :=
    Option.isSome_iff_exists.mp (by decide +kernel)
  exact ⟨((bothServed_iff oneSpan).1 watched s hs (by decide +kernel)).mpr (by decide +kernel),
    ((bothServed_iff oneSpan).2 (by decide) watchedRedis t ht).mpr (by decide +kernel)⟩

/-- The viewer comes after the span, and before the trace is stored. -/
def late : List (Broker.Op Unit) :=
  [.call, .runCallback, .call, .runCallback, .call, .runCallback, .readSnapshot (), .subscribe (),
    .take ()]

def lateRedis : List (Op Unit) :=
  [.command 0, .command 0, .command 0, .readSnapshot (), .subscribe (), .take ()]

/-- With neither broker are all viewers served: one is sent `complete` and not the span. -/
theorem not_all_bothServed :
    (¬ ∀ (trace : Trace String) (ops : List (Broker.Op Unit)) (s : Broker.State Unit String),
      exec (Broker.step trace) {} ops = some s →
        Guarded (Broker.step trace) Broker.NoOverflow {} ops →
      Broker.AllServed trace s) ∧
    ¬ ∀ (trace : Trace String) (ops : List (Op Unit)) (s : State Unit String),
      trace.announced.length < streamMaxlen → exec (step trace) {} ops = some s →
        AllServed trace s := by
  have hmissed : ∀ {v : View String}, v.frames = [.snapshot [], .complete "completed"] →
      ¬ v.Served oneSpan := by
    intro v hframes hserved
    have hall :=
      (hserved [.snapshot []] "completed" [] hframes).1 "sp1" (List.mem_singleton.mpr rfl)
    simp [delivered, Frame.spans] at hall
  constructor
  · intro h
    have hrun : (exec (Broker.step oneSpan) {} late).map (fun s => (s.view ()).frames) =
        some [.snapshot [], .complete "completed"] := by decide +kernel
    obtain ⟨s, hs, hframes⟩ := Option.map_eq_some_iff.mp hrun
    exact hmissed hframes ((h oneSpan late s hs (by decide +kernel)).1 ())
  · intro h
    have hrun : (exec (step oneSpan) {} lateRedis).map (fun s => (s.view ()).frames) =
        some [.snapshot [], .complete "completed"] := by decide +kernel
    obtain ⟨s, hs, hframes⟩ := Option.map_eq_some_iff.mp hrun
    exact hmissed hframes ((h oneSpan lateRedis s (by decide) hs).1 ())

end Selfevals.Api.RedisBroker
