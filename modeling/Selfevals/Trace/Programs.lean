import Selfevals.Trace.Context

/-!
# Programs that record a trace

A program runs against a recorder: blocks nest, an exception leaves the blocks it passes through and
their spans are recorded on the way out, until something catches it. `run` is what a program does to
the recorder; what it records does not depend on the recorder, and `recordedIn` lists it.

* `runAll_records`: a program appends what it records, each span under an older one;
-/

namespace Selfevals.Trace.Programs

open Trace.Recorder Runner.OtlpRuns

/-! ### Programs -/

/-- A span around a block, with what the block leaves in its builder. -/
inductive Block
  | agentTurn
  | llmCall (call : LLMCall)
  | toolCall (toolUseId : Option String)
  | stt
  | tts

def Block.body : Block → SpanBody
  | .agentTurn => .agentTurn
  | .llmCall call => .llmCall call
  | .toolCall toolUseId => .toolCall toolUseId
  | .stt => .stt
  | .tts => .tts

/-- A span of a moment: `add_retrieval`, `add_memory_read` and so on. -/
inductive Event
  | retrieval
  | memoryRead
  | memoryWrite
  | decision
  | handoff
  | humanIntervention
  | guardrailCheck
  | error

def Event.body : Event → SpanBody
  | .retrieval => .retrieval
  | .memoryRead => .memoryRead
  | .memoryWrite => .memoryWrite
  | .decision => .decision
  | .handoff => .handoff
  | .humanIntervention => .humanIntervention
  | .guardrailCheck => .guardrailCheck
  | .error => .error

/-- How a span fares: its model may refuse it, which raises; and `_record` appends it before it
makes the view for the sink, which raises where a detail is no JSON. -/
inductive Outcome
  | shown
  | refused
  | unshown
deriving DecidableEq

/-- What an instrumented program does. -/
inductive Statement
  | block (b : Block) (outcome : Outcome) (inner : List Statement)
  | event (e : Event) (outcome : Outcome)
  | raise
  /-- `try`, with the handler of what is raised. -/
  | attempt (inner handler : List Statement)

/-! ### Running one -/

structure State where
  recorder : TraceRecorder := {}
  /-- The number of the next fresh id. -/
  next : ℕ := 0

namespace State

variable (ids : SpanIds) (s : State)

def enter : State where
  recorder := s.recorder.enterTurn (ids.id s.next)
  next := s.next + 1

def leave : State :=
  { s with recorder := { s.recorder with openParents := s.recorder.openParents.tail } }

end State

/-- A span is recorded, and counted if it is a call. -/
def finish (r : TraceRecorder) (id : String) : SpanBody → TraceRecorder
  | .llmCall call => r.llmCall id call
  | .toolCall toolUseId => r.toolCall id toolUseId
  | body => r.record { id, parentId := r.currentParent, body }

/-- Whether an exception is raised comes with the state. -/
def finishAs (s : State) (id : String) (body : SpanBody) : Outcome → State × Bool
  | .shown => ({ s with recorder := finish s.recorder id body }, false)
  | .refused => (s, true)
  | .unshown =>
    ({ s with
      recorder := s.recorder.record { id, parentId := s.recorder.currentParent, body } }, true)

mutual

/-- A statement runs, and raises or not. -/
def run (ids : SpanIds) (s : State) : Statement → State × Bool
  | .block b outcome inner =>
    let (s', raised) := runAll ids (s.enter ids) inner
    let (s'', refused) := finishAs s'.leave (ids.id s.next) b.body outcome
    (s'', raised || refused)
  | .event e outcome => finishAs { s with next := s.next + 1 } (ids.id s.next) e.body outcome
  | .raise => (s, true)
  | .attempt inner handler =>
    match runAll ids s inner with
    | (s', true) => runAll ids s' handler
    | (s', false) => (s', false)

/-- Statements run, one after another. -/
def runAll (ids : SpanIds) (s : State) : List Statement → State × Bool
  | [] => (s, false)
  | statement :: rest =>
    match run ids s statement with
    | (s', true) => (s', true)
    | (s', false) => runAll ids s' rest

end

/-- The trace that is built after a program, which ran to its end or was left by an exception. -/
def buildAfter (ids : SpanIds) (program : List Statement) : Except TraceError BuiltTrace :=
  (runAll ids {} program).1.recorder.build

/-! ### What a program records -/

/-- What a finished span adds, and whether its view was made. -/
def Outcome.recorded (body : SpanBody) : Outcome → List (SpanBody × Bool)
  | .shown => [(body, true)]
  | .refused => []
  | .unshown => [(body, false)]

def Outcome.raises : Outcome → Bool
  | .shown => false
  | .refused | .unshown => true

mutual

def raisesOf : Statement → Bool
  | .block _ outcome inner => raisesIn inner || outcome.raises
  | .event _ outcome => outcome.raises
  | .raise => true
  | .attempt inner handler => raisesIn inner && raisesIn handler

def raisesIn : List Statement → Bool
  | [] => false
  | statement :: rest => raisesOf statement || raisesIn rest

end

mutual

/-- The spans that are recorded, in order; a call is recorded after what was done in it. -/
def recordedOf : Statement → List (SpanBody × Bool)
  | .block b outcome inner => recordedIn inner ++ outcome.recorded b.body
  | .event e outcome => outcome.recorded e.body
  | .raise => []
  | .attempt inner handler =>
    recordedIn inner ++ if raisesIn inner then recordedIn handler else []

def recordedIn : List Statement → List (SpanBody × Bool)
  | [] => []
  | statement :: rest =>
    recordedOf statement ++ if raisesOf statement then [] else recordedIn rest

end

mutual

/-- Whether every block's span is accepted by its model. -/
def keepsOf : Statement → Prop
  | .block _ outcome inner => outcome ≠ .refused ∧ keepsIn inner
  | .event _ _ => True
  | .raise => True
  | .attempt inner handler => keepsIn inner ∧ keepsIn handler

def keepsIn : List Statement → Prop
  | [] => True
  | statement :: rest => keepsOf statement ∧ keepsIn rest

end

/-! ### Recordings -/

/-- A span that was appended, and whether its view was made, so that it was counted. -/
structure Recording where
  span : Span
  shown : Bool

/-- What `recordedIn` says of a recording. -/
def Recording.entry (recording : Recording) : SpanBody × Bool :=
  (recording.span.body, recording.shown)

def add (r : TraceRecorder) (recording : Recording) : TraceRecorder :=
  if recording.shown then
    { r.record recording.span with
      tokensIn := r.tokensIn + recording.span.tokensIn
      tokensOut := r.tokensOut + recording.span.tokensOut
      costUsd := r.costUsd + recording.span.costUsd
      toolCallCount := r.toolCallCount + if recording.span.isToolCall then 1 else 0
      llmCallCount := r.llmCallCount + if recording.span.isLLMCall then 1 else 0
      retries := r.retries + recording.span.retries }
  else r.record recording.span

/-- The spans that were counted. -/
def counted (recordings : List Recording) : List Span :=
  (recordings.filter (·.shown)).map (·.span)

section Add
variable {r : TraceRecorder} {recordings : List Recording}

theorem finish_eq (r : TraceRecorder) (id : String) (body : SpanBody) :
    finish r id body = add r ⟨{ id, parentId := r.currentParent, body }, true⟩ := by
  cases body <;>
    simp [finish, add, TraceRecorder.record, TraceRecorder.llmCall, TraceRecorder.toolCall,
      Span.tokensIn, Span.tokensOut, Span.costUsd, Span.retries, Span.isLLMCall, Span.isToolCall,
      Span.llmCall?]

theorem foldl_add_spans :
    (recordings.foldl add r).spans = r.spans ++ recordings.map (·.span) := by
  induction recordings generalizing r with
  | nil => simp
  | cons recording rest ih =>
    have hspans : (add r recording).spans = r.spans ++ [recording.span] := by
      unfold add
      split_ifs <;> rfl
    rw [List.foldl_cons, ih, hspans, List.map_cons, List.append_assoc, List.singleton_append]

theorem foldl_add_openParents (openParents : List String) :
    recordings.foldl add { r with openParents } =
      { recordings.foldl add r with openParents } := by
  induction recordings generalizing r with
  | nil => rfl
  | cons recording rest ih =>
    have hadd : add { r with openParents } recording = { add r recording with openParents } := by
      unfold add
      split_ifs <;> rfl
    rw [List.foldl_cons, List.foldl_cons, hadd, ih]

/-- **The metrics are those of the spans that were counted.** -/
theorem foldl_add_metrics : (recordings.foldl add {}).metrics = metricsOf (counted recordings) := by
  induction recordings using List.reverseRecOn with
  | nil => rfl
  | append_singleton rest recording ih =>
    rw [List.foldl_append, List.foldl_cons, List.foldl_nil]
    unfold add
    by_cases hshown : recording.shown
    · have hcounted : counted (rest ++ [recording]) = counted rest ++ [recording.span] := by
        simp [counted, List.filter_append, hshown]
      rw [if_pos hshown, hcounted, metricsOf_append, ← ih]
      rfl
    · have hcounted : counted (rest ++ [recording]) = counted rest := by
        simp [counted, List.filter_append, hshown]
      rw [if_neg hshown, hcounted, ← ih]
      rfl

end Add

/-! ### A program appends what it records -/

/-- From one state to another spans were appended, each under the span that was open or under one
that is older than itself. -/
structure Records (ids : SpanIds) (s s' : State) (added : List Recording) : Prop where
  next_le : s.next ≤ s'.next
  recorder : s'.recorder = added.foldl add s.recorder
  placed : ∀ recording ∈ added, ∃ k, s.next ≤ k ∧ k < s'.next ∧ recording.span.id = ids.id k ∧
    (recording.span.parentId = s.recorder.currentParent ∨
      ∃ j < k, s.next ≤ j ∧ recording.span.parentId = some (ids.id j))
  fresh : (added.map (·.span.id)).Nodup

section Records
variable {ids : SpanIds} {s s' s'' : State} {added added' : List Recording}

theorem Records.refl (s : State) : Records ids s s [] := ⟨le_rfl, rfl, by simp, by simp⟩

theorem Records.currentParent (h : Records ids s s' added) :
    s'.recorder.currentParent = s.recorder.currentParent := by
  have hopen : added.foldl add s.recorder = { added.foldl add s.recorder with
      openParents := s.recorder.openParents } := foldl_add_openParents s.recorder.openParents
  rw [h.recorder, hopen]
  rfl

theorem Records.trans (h : Records ids s s' added) (h' : Records ids s' s'' added') :
    Records ids s s'' (added ++ added') where
  next_le := h.next_le.trans h'.next_le
  recorder := by rw [h'.recorder, h.recorder, List.foldl_append]
  placed := by
    intro recording hmem
    obtain hmem | hmem := List.mem_append.mp hmem
    · obtain ⟨k, hge, hlt, hid, hparent⟩ := h.placed recording hmem
      exact ⟨k, hge, hlt.trans_le h'.next_le, hid, hparent⟩
    · obtain ⟨k, hge, hlt, hid, hparent⟩ := h'.placed recording hmem
      refine ⟨k, h.next_le.trans hge, hlt, hid, ?_⟩
      rw [h.currentParent] at hparent
      exact hparent.imp_right fun ⟨j, hj, hjge, hp⟩ => ⟨j, hj, h.next_le.trans hjge, hp⟩
  fresh := by
    rw [List.map_append, List.nodup_append]
    refine ⟨h.fresh, h'.fresh, ?_⟩
    rintro _ hid _ hid' rfl
    obtain ⟨recording, hmem, hid⟩ := List.mem_map.mp hid
    obtain ⟨recording', hmem', hid'⟩ := List.mem_map.mp hid'
    obtain ⟨k, -, hlt, hk, -⟩ := h.placed recording hmem
    obtain ⟨k', hge, -, hk', -⟩ := h'.placed recording' hmem'
    have heq : k = k' := ids.injective (by rw [← hk, hid, ← hid', hk'])
    omega

theorem Records.block (h : Records ids (s.enter ids) s' added) : Records ids s s'.leave added where
  next_le := (Nat.le_succ _).trans h.next_le
  recorder := by
    have hinner : s'.recorder = { added.foldl add s.recorder with
        openParents := ids.id s.next :: s.recorder.openParents } :=
      h.recorder.trans (foldl_add_openParents _)
    have houter : added.foldl add s.recorder = { added.foldl add s.recorder with
        openParents := s.recorder.openParents } := foldl_add_openParents s.recorder.openParents
    unfold State.leave
    rw [houter, hinner]
    rfl
  placed := by
    intro recording hmem
    obtain ⟨k, hge, hlt, hid, hparent⟩ := h.placed recording hmem
    have hpos : s.next < k := hge
    refine ⟨k, hpos.le, hlt, hid, .inr ?_⟩
    obtain hparent | ⟨j, hj, hjge, hp⟩ := hparent
    · exact ⟨s.next, hpos, le_rfl, hparent⟩
    · exact ⟨j, hj, (Nat.le_succ _).trans hjge, hp⟩
  fresh := h.fresh

theorem Records.finishAs (h : Records ids s s' added) (hlt : s.next < s'.next)
    (hnew : ids.id s.next ∉ added.map (·.span.id)) (body : SpanBody) (outcome : Outcome) :
    ∃ more, Records ids s (finishAs s' (ids.id s.next) body outcome).1 (added ++ more) ∧
      more.map Recording.entry = outcome.recorded body ∧
      ∀ recording ∈ more, recording.span.id = ids.id s.next ∧
        recording.span.parentId = s.recorder.currentParent := by
  let span : Span := { id := ids.id s.next, parentId := s'.recorder.currentParent, body }
  have hone (shown : Bool) : Records ids s { s' with recorder := add s'.recorder ⟨span, shown⟩ }
      (added ++ [⟨span, shown⟩]) := by
    refine ⟨h.next_le, ?_, ?_, ?_⟩
    · rw [List.foldl_append, ← h.recorder]
      rfl
    · intro recording hmem
      obtain hmem | hmem := List.mem_append.mp hmem
      · exact h.placed recording hmem
      · obtain rfl := List.mem_singleton.mp hmem
        exact ⟨s.next, le_rfl, hlt, rfl, .inl h.currentParent⟩
    · rw [List.map_append, List.map_singleton, ← List.concat_eq_append]
      exact .concat hnew h.fresh
  have hspan (shown : Bool) : ∀ recording ∈ [(⟨span, shown⟩ : Recording)],
      recording.span.id = ids.id s.next ∧
        recording.span.parentId = s.recorder.currentParent := by
    intro recording hmem
    obtain rfl := List.mem_singleton.mp hmem
    exact ⟨rfl, h.currentParent⟩
  cases outcome with
  | shown =>
    refine ⟨[⟨span, true⟩], ?_, rfl, hspan true⟩
    rw [Programs.finishAs, finish_eq]
    exact hone true
  | refused => exact ⟨[], by rwa [List.append_nil], rfl, by simp⟩
  | unshown => exact ⟨[⟨span, false⟩], hone false, rfl, hspan false⟩

end Records

theorem raises_finishAs (s : State) (id : String) (body : SpanBody) (outcome : Outcome) :
    (finishAs s id body outcome).2 = outcome.raises := by
  cases outcome <;> rfl

mutual

theorem raises_run (ids : SpanIds) (s : State) (statement : Statement) :
    (run ids s statement).2 = raisesOf statement := by
  cases statement with
  | block b outcome inner =>
    rw [run, raisesOf]
    dsimp only
    rw [raises_runAll ids (s.enter ids) inner, raises_finishAs]
  | event e outcome =>
    rw [run, raisesOf]
    exact raises_finishAs _ _ _ _
  | raise => rw [run, raisesOf]
  | attempt inner handler =>
    have hinner := raises_runAll ids s inner
    rw [run, raisesOf]
    split
    · next s' heq =>
      rw [heq] at hinner
      rw [← hinner, Bool.true_and]
      exact raises_runAll ids s' handler
    · next s' heq =>
      rw [heq] at hinner
      rw [← hinner, Bool.false_and]

theorem raises_runAll (ids : SpanIds) (s : State) (program : List Statement) :
    (runAll ids s program).2 = raisesIn program := by
  cases program with
  | nil => rw [runAll, raisesIn]
  | cons statement rest =>
    have hfirst := raises_run ids s statement
    rw [runAll, raisesIn]
    split
    · next s' heq =>
      rw [heq] at hfirst
      rw [← hfirst, Bool.true_or]
    · next s' heq =>
      rw [heq] at hfirst
      rw [← hfirst, Bool.false_or]
      exact raises_runAll ids s' rest

end

/-- Every parent is the given one, or the id of another recording. -/
def Sheltered (parent : Option String) (added : List Recording) : Prop :=
  ∀ recording ∈ added, recording.span.parentId = parent ∨
    ∃ other ∈ added, recording.span.parentId = some other.span.id

theorem Sheltered.append {parent : Option String} {added added' : List Recording}
    (h : Sheltered parent added) (h' : Sheltered parent added') :
    Sheltered parent (added ++ added') := by
  intro recording hmem
  obtain hmem | hmem := List.mem_append.mp hmem
  · exact (h recording hmem).imp_right fun ⟨other, ho, hp⟩ =>
      ⟨other, List.mem_append_left _ ho, hp⟩
  · exact (h' recording hmem).imp_right fun ⟨other, ho, hp⟩ =>
      ⟨other, List.mem_append_right _ ho, hp⟩

/-- What a run records is what its program says, and no parent is lost where every block's span is
kept. -/
def Recorded (ids : SpanIds) (s s' : State) (entries : List (SpanBody × Bool)) (keeps : Prop) :
    Prop :=
  ∃ added, Records ids s s' added ∧ added.map Recording.entry = entries ∧
    (keeps → Sheltered s.recorder.currentParent added)

section Recorded
variable {ids : SpanIds} {s s' s'' : State} {entries entries' : List (SpanBody × Bool)}
  {keeps keeps' : Prop}

theorem Recorded.refl (s : State) : Recorded ids s s [] keeps :=
  ⟨[], .refl s, rfl, fun _ => by simp [Sheltered]⟩

theorem Recorded.mono (h : Recorded ids s s' entries keeps) (hkeeps : keeps' → keeps) :
    Recorded ids s s' entries keeps' := by
  obtain ⟨added, hrecords, hentries, hsheltered⟩ := h
  exact ⟨added, hrecords, hentries, fun h => hsheltered (hkeeps h)⟩

theorem Recorded.trans (h : Recorded ids s s' entries keeps)
    (h' : Recorded ids s' s'' entries' keeps') :
    Recorded ids s s'' (entries ++ entries') (keeps ∧ keeps') := by
  obtain ⟨added, hrecords, hentries, hsheltered⟩ := h
  obtain ⟨added', hrecords', hentries', hsheltered'⟩ := h'
  refine ⟨added ++ added', hrecords.trans hrecords', ?_, ?_⟩
  · rw [List.map_append, hentries, hentries']
  · rintro ⟨hk, hk'⟩
    have hrest := hsheltered' hk'
    rw [hrecords.currentParent] at hrest
    exact (hsheltered hk).append hrest

theorem Recorded.block (h : Recorded ids (s.enter ids) s' entries keeps) (body : SpanBody)
    (outcome : Outcome) :
    Recorded ids s (finishAs s'.leave (ids.id s.next) body outcome).1
      (entries ++ outcome.recorded body) (outcome ≠ .refused ∧ keeps) := by
  obtain ⟨added, hrecords, hentries, hsheltered⟩ := h
  have hnew : ids.id s.next ∉ added.map (·.span.id) := by
    intro hmem
    obtain ⟨recording, hmem, hid⟩ := List.mem_map.mp hmem
    obtain ⟨k, hge, -, hk, -⟩ := hrecords.placed recording hmem
    have heq : k = s.next := ids.injective (hk.symm.trans hid)
    have hlt : s.next < k := hge
    omega
  obtain ⟨more, hmore, hown, hplaced⟩ := hrecords.block.finishAs
    (lt_of_lt_of_le (Nat.lt_succ_self _) hrecords.next_le) hnew body outcome
  refine ⟨added ++ more, hmore, by rw [List.map_append, hentries, hown], ?_⟩
  rintro ⟨hkept, hkeeps⟩ recording hmem
  obtain hmem | hmem := List.mem_append.mp hmem
  · obtain hparent | ⟨other, hother, hparent⟩ := hsheltered hkeeps recording hmem
    · -- the block's own span is there, since it was not refused
      have hne : more ≠ [] := by
        rintro rfl
        cases outcome with
        | shown | unshown => cases hown
        | refused => exact hkept rfl
      obtain ⟨own, hown⟩ := List.exists_mem_of_ne_nil more hne
      refine .inr ⟨own, List.mem_append_right _ hown, ?_⟩
      rw [hparent, (hplaced own hown).1]
      rfl
    · exact .inr ⟨other, List.mem_append_left _ hother, hparent⟩
  · exact .inl (hplaced recording hmem).2

theorem Recorded.event (s : State) (body : SpanBody) (outcome : Outcome) :
    Recorded ids s (finishAs { s with next := s.next + 1 } (ids.id s.next) body outcome).1
      (outcome.recorded body) keeps := by
  have hnext : Records ids s { s with next := s.next + 1 } [] :=
    ⟨Nat.le_succ _, rfl, by simp, by simp⟩
  obtain ⟨more, hmore, hown, hplaced⟩ :=
    hnext.finishAs (Nat.lt_succ_self _) (by simp) body outcome
  exact ⟨more, hmore, hown, fun _ recording hmem => .inl (hplaced recording hmem).2⟩

end Recorded

mutual

theorem run_recorded (ids : SpanIds) (s : State) (statement : Statement) :
    Recorded ids s (run ids s statement).1 (recordedOf statement) (keepsOf statement) := by
  cases statement with
  | block b outcome inner =>
    rw [run, recordedOf, keepsOf]
    exact (runAll_recorded ids (s.enter ids) inner).block b.body outcome
  | event e outcome =>
    rw [run, recordedOf]
    exact .event s e.body outcome
  | raise =>
    rw [run, recordedOf]
    exact .refl s
  | attempt inner handler =>
    have hinner := runAll_recorded ids s inner
    have hraises := raises_runAll ids s inner
    rw [run, recordedOf, keepsOf]
    split
    · next s' heq =>
      rw [heq] at hinner hraises
      rw [← hraises, if_pos rfl]
      exact hinner.trans (runAll_recorded ids s' handler)
    · next s' heq =>
      rw [heq] at hinner hraises
      rw [← hraises, if_neg Bool.false_ne_true, List.append_nil]
      exact hinner.mono And.left

/-- **A program records what it says**, whatever was recorded before. -/
theorem runAll_recorded (ids : SpanIds) (s : State) (program : List Statement) :
    Recorded ids s (runAll ids s program).1 (recordedIn program) (keepsIn program) := by
  cases program with
  | nil =>
    rw [runAll, recordedIn]
    exact .refl s
  | cons statement rest =>
    have hfirst := run_recorded ids s statement
    have hraises := raises_run ids s statement
    rw [runAll, recordedIn, keepsIn]
    split
    · next s' heq =>
      rw [heq] at hfirst hraises
      rw [← hraises, if_pos rfl, List.append_nil]
      exact hfirst.mono And.left
    · next s' heq =>
      rw [heq] at hfirst hraises
      rw [← hraises, if_neg Bool.false_ne_true]
      exact hfirst.trans (runAll_recorded ids s' rest)

end

/-! ### The tree of spans -/

def ParentOf (spans : List Span) (child parent : String) : Prop :=
  ∃ s ∈ spans, s.id = child ∧ s.parentId = some parent

/-- The parents of the spans form a tree. -/
structure Tree (spans : List Span) : Prop where
  unique : (spans.map (·.id)).Nodup
  parents : ∀ s ∈ spans, ∀ parent ∈ s.parentId, ∃ t ∈ spans, t.id = parent
  acyclic : ∀ id, ¬Relation.TransGen (ParentOf spans) id id

section Built
variable {ids : SpanIds} {program : List Statement} {trace : BuiltTrace}

theorem runAll_new (ids : SpanIds) (program : List Statement) : ∃ added,
    Records ids {} (runAll ids {} program).1 added ∧
      added.map Recording.entry = recordedIn program ∧
      (keepsIn program → Sheltered none added) ∧
      (runAll ids {} program).1.recorder.spans = added.map (·.span) ∧
      (runAll ids {} program).1.recorder.metrics = metricsOf (counted added) := by
  obtain ⟨added, hrecords, hentries, hsheltered⟩ := runAll_recorded ids {} program
  refine ⟨added, hrecords, hentries, hsheltered, ?_, ?_⟩
  · rw [hrecords.recorder, foldl_add_spans]
    rfl
  · rw [hrecords.recorder]
    exact foldl_add_metrics

theorem lt_of_ancestor {s' : State} {added : List Recording} (h : Records ids {} s' added)
    {id ancestor : String}
    (hancestor : Relation.TransGen (ParentOf (added.map (·.span))) id ancestor) :
    ∃ j k, j < k ∧ ancestor = ids.id j ∧ id = ids.id k := by
  have hparent : ∀ {child parent}, ParentOf (added.map (·.span)) child parent →
      ∃ j k, j < k ∧ parent = ids.id j ∧ child = ids.id k := by
    rintro child parent ⟨s, hs, hid, hparent⟩
    obtain ⟨recording, hmem, rfl⟩ := List.mem_map.mp hs
    obtain ⟨k, -, -, hk, hnone | ⟨j, hj, -, hp⟩⟩ := h.placed recording hmem
    · rw [hnone] at hparent
      cases hparent
    · rw [hp] at hparent
      exact ⟨j, k, hj, (Option.some.inj hparent).symm, hid.symm.trans hk⟩
  induction hancestor with
  | single hedge => exact hparent hedge
  | tail _ hedge ih =>
    obtain ⟨j, k, hjk, hmiddle, hid⟩ := ih
    obtain ⟨i, j', hij, hancestor, hmiddle'⟩ := hparent hedge
    have heq : j' = j := ids.injective (hmiddle'.symm.trans hmiddle)
    exact ⟨i, k, (heq ▸ hij).trans hjk, hancestor, hid⟩

/-- **The spans of a built trace are a tree.** -/
theorem tree_built (h : buildAfter ids program = .ok trace) : Tree trace.spans := by
  obtain ⟨added, hrecords, -, -, hspans, -⟩ := runAll_new ids program
  refine ⟨trace.spanIdsUnique, ?_, ?_⟩
  · intro s hs parent hparent
    exact List.mem_map.mp (trace.parentIdsExist s hs parent hparent)
  · intro id hcycle
    rw [(TraceRecorder.build_eq_ok_iff.mp h).1, hspans] at hcycle
    obtain ⟨j, k, hjk, hj, hk⟩ := lt_of_ancestor hrecords hcycle
    have heq : j = k := ids.injective (hj.symm.trans hk)
    omega

/-- **A trace is built** of every program whose blocks' spans are accepted, if its tool uses are
linked. -/
theorem exists_buildAfter_iff (ids : SpanIds) (hkeeps : keepsIn program) :
    (∃ trace, buildAfter ids program = .ok trace) ↔
      ToolUseIdsLinked (runAll ids {} program).1.recorder.spans := by
  obtain ⟨added, hrecords, -, hsheltered, hspans, -⟩ := runAll_new ids program
  unfold buildAfter
  rw [TraceRecorder.exists_build_iff, hspans]
  constructor
  · rintro ⟨-, -, hlinked⟩
    exact hlinked
  · intro hlinked
    refine ⟨?_, ?_, hlinked⟩
    · rw [List.map_map]
      exact hrecords.fresh
    · intro s hs parent hparent
      obtain ⟨recording, hmem, rfl⟩ := List.mem_map.mp hs
      obtain hnone | ⟨other, hother, hp⟩ := hsheltered hkeeps recording hmem
      · rw [hnone] at hparent
        cases hparent
      · rw [hp] at hparent
        obtain rfl := Option.some.inj hparent
        rw [List.map_map]
        exact List.mem_map.mpr ⟨other, hother, rfl⟩

end Built

/-! ### The totals -/

def cacheCreation (s : Span) : ℕ := (s.llmCall?.map (·.tokens.inputCacheCreation)).getD 0

/-- The tokens that went in, read from a cache or written to one included. -/
def allTokensIn (s : Span) : ℕ :=
  (s.llmCall?.map fun call =>
    call.tokens.input + call.tokens.inputCacheRead + call.tokens.inputCacheCreation).getD 0

theorem allTokensIn_eq (s : Span) : allTokensIn s = s.tokensIn + cacheCreation s := by
  unfold allTokensIn Span.tokensIn cacheCreation
  cases s.llmCall? <;> rfl

/-- Every total of the metrics is a sum over the spans. -/
structure Totalled (trace : BuiltTrace) : Prop where
  tokensIn : trace.metrics.totalTokensIn = (trace.spans.map allTokensIn).sum
  tokensOut : trace.metrics.totalTokensOut = (trace.spans.map (·.tokensOut)).sum
  costUsd : trace.metrics.totalCostUsd = (trace.spans.map (·.costUsd)).sum
  llmCallCount : trace.metrics.llmCallCount = trace.spans.countP (·.isLLMCall)
  toolCallCount : trace.metrics.toolCallCount = trace.spans.countP (·.isToolCall)
  retries : trace.metrics.retries = (trace.spans.map (·.retries)).sum

/-- What a trace that was built is to be. -/
structure Lawful (trace : BuiltTrace) : Prop where
  tree : Tree trace.spans
  totals : Totalled trace

/-- A call whose view could be made and, of a model, that wrote no tokens to the cache. -/
def Metered : SpanBody × Bool → Prop
  | (.llmCall call, shown) => shown = true ∧ call.tokens.inputCacheCreation = 0
  | (.toolCall _, shown) => shown = true
  | _ => True

theorem metered_iff (recording : Recording) : Metered recording.entry ↔
    (recording.span.isLLMCall → recording.shown) ∧ (recording.span.isToolCall → recording.shown) ∧
      cacheCreation recording.span = 0 := by
  obtain ⟨⟨id, parentId, body⟩, shown⟩ := recording
  cases body <;>
    simp [Recording.entry, Metered, Span.isLLMCall, Span.isToolCall, Span.llmCall?, cacheCreation]

section Counted
variable {recording : Recording} {rest added : List Recording}

theorem counted_of_shown (h : recording.shown = true) :
    counted (recording :: rest) = recording.span :: counted rest := by
  simp [counted, h]

theorem counted_of_not (h : recording.shown = false) :
    counted (recording :: rest) = counted rest := by
  simp [counted, h]

theorem sum_counted {α : Type*} [AddCommMonoid α] {f : Span → α}
    (h : ∀ recording ∈ added, recording.shown = false → f recording.span = 0) :
    ((counted added).map f).sum = ((added.map (·.span)).map f).sum := by
  induction added with
  | nil => rfl
  | cons recording rest ih =>
    rw [List.forall_mem_cons] at h
    rw [List.map_cons, List.map_cons, List.sum_cons, ← ih h.2]
    cases hshown : recording.shown with
    | true => rw [counted_of_shown hshown, List.map_cons, List.sum_cons]
    | false => rw [counted_of_not hshown, h.1 hshown, zero_add]

theorem countP_counted_le (p : Span → Bool) :
    (counted added).countP p ≤ (added.map (·.span)).countP p :=
  (List.filter_sublist.map _).countP_le

theorem countP_counted_iff (p : Span → Bool) :
    (counted added).countP p = (added.map (·.span)).countP p ↔
      ∀ recording ∈ added, p recording.span → recording.shown := by
  induction added with
  | nil => simp [counted]
  | cons recording rest ih =>
    have hle : (counted rest).countP p ≤ (rest.map (·.span)).countP p := countP_counted_le p
    rw [List.forall_mem_cons, ← ih, List.map_cons, List.countP_cons]
    cases hshown : recording.shown with
    | true =>
      rw [counted_of_shown hshown, List.countP_cons]
      simp
    | false =>
      rw [counted_of_not hshown]
      cases p recording.span with
      | true =>
        simp only [if_true]
        constructor
        · omega
        · rintro ⟨hfalse, -⟩
          exact absurd (hfalse trivial) Bool.false_ne_true
      | false => simp

theorem llmCall?_eq_none (h : recording.span.isLLMCall → recording.shown)
    (hshown : recording.shown = false) : recording.span.llmCall? = none := by
  unfold Span.isLLMCall at h
  cases hcall : recording.span.llmCall? with
  | none => rfl
  | some call =>
    rw [hcall, hshown] at h
    exact absurd (h rfl) Bool.false_ne_true

theorem metricsOf_counted (h : ∀ recording ∈ added, Metered recording.entry) :
    metricsOf (counted added) = metricsOf (added.map (·.span)) := by
  have hmetered := fun recording hmem => (metered_iff recording).mp (h recording hmem)
  have hsum {α : Type} [AddCommMonoid α] (f : LLMCall → α) :
      ((counted added).map fun s => (s.llmCall?.map f).getD 0).sum =
        ((added.map (·.span)).map fun s => (s.llmCall?.map f).getD 0).sum :=
    sum_counted fun recording hmem hshown => by
      rw [llmCall?_eq_none (hmetered recording hmem).1 hshown]
      rfl
  have hcount (p : Span → Bool) (hp : ∀ recording ∈ added, p recording.span → recording.shown) :=
    (countP_counted_iff p).mpr hp
  unfold metricsOf
  congr 1
  · exact hsum _
  · exact hsum _
  · exact hsum _
  · exact hcount _ fun recording hmem => (hmetered recording hmem).2.1
  · exact hcount _ fun recording hmem => (hmetered recording hmem).1
  · exact hsum _

theorem metered_of_totals
    (hllm : (metricsOf (counted added)).llmCallCount =
      (added.map (·.span)).countP (·.isLLMCall))
    (htool : (metricsOf (counted added)).toolCallCount =
      (added.map (·.span)).countP (·.isToolCall))
    (hin : (metricsOf (counted added)).totalTokensIn =
      ((added.map (·.span)).map allTokensIn).sum) :
    ∀ recording ∈ added, Metered recording.entry := by
  have hllmShown := (countP_counted_iff (·.isLLMCall)).mp hllm
  have htoolShown := (countP_counted_iff (·.isToolCall)).mp htool
  have hcounted : (metricsOf (counted added)).totalTokensIn =
      ((added.map (·.span)).map (·.tokensIn)).sum := by
    refine sum_counted fun recording hmem hshown => ?_
    unfold Span.tokensIn
    rw [llmCall?_eq_none (hllmShown recording hmem) hshown]
    rfl
  have hsplit : ((added.map (·.span)).map allTokensIn).sum =
      ((added.map (·.span)).map (·.tokensIn)).sum +
        ((added.map (·.span)).map cacheCreation).sum := by
    rw [← List.sum_map_add]
    congr 1
    exact List.map_congr_left fun s _ => allTokensIn_eq s
  have hzero : ((added.map (·.span)).map cacheCreation).sum = 0 := by omega
  rw [List.sum_eq_zero_iff] at hzero
  intro recording hmem
  refine (metered_iff recording).mpr ⟨hllmShown recording hmem, htoolShown recording hmem, ?_⟩
  exact hzero _ (List.mem_map_of_mem (List.mem_map_of_mem hmem))

end Counted

section Law
variable {ids : SpanIds} {program : List Statement} {trace : BuiltTrace}

theorem metered_of_lawful (h : buildAfter ids program = .ok trace) (hlawful : Lawful trace) :
    ∀ entry ∈ recordedIn program, Metered entry := by
  obtain ⟨added, -, hentries, -, hspans, hmetrics⟩ := runAll_new ids program
  obtain ⟨htraceSpans, htraceMetrics⟩ := TraceRecorder.build_eq_ok_iff.mp h
  rw [hspans] at htraceSpans
  rw [hmetrics] at htraceMetrics
  have hllm := hlawful.totals.llmCallCount
  have htool := hlawful.totals.toolCallCount
  have hin := hlawful.totals.tokensIn
  rw [htraceMetrics, htraceSpans] at hllm htool hin
  rw [← hentries, List.forall_mem_map]
  exact metered_of_totals hllm htool hin

theorem totalled_of_metered (h : buildAfter ids program = .ok trace)
    (hmetered : ∀ entry ∈ recordedIn program, Metered entry) : Totalled trace := by
  obtain ⟨added, -, hentries, -, hspans, hmetrics⟩ := runAll_new ids program
  obtain ⟨htraceSpans, htraceMetrics⟩ := TraceRecorder.build_eq_ok_iff.mp h
  rw [← hentries, List.forall_mem_map] at hmetered
  rw [hspans] at htraceSpans
  rw [hmetrics, metricsOf_counted hmetered] at htraceMetrics
  have hin : ((added.map (·.span)).map allTokensIn).sum =
      ((added.map (·.span)).map (·.tokensIn)).sum := by
    congr 1
    refine List.map_congr_left fun s hs => ?_
    obtain ⟨recording, hmem, rfl⟩ := List.mem_map.mp hs
    rw [allTokensIn_eq, ((metered_iff recording).mp (hmetered recording hmem)).2.2, add_zero]
  constructor
  · rw [htraceMetrics, htraceSpans, hin]
    rfl
  all_goals
    rw [htraceMetrics, htraceSpans]
    rfl

/-- **A built trace is lawful** if and only if every call that was recorded was metered. -/
theorem built_lawful_iff (h : buildAfter ids program = .ok trace) :
    Lawful trace ↔ ∀ entry ∈ recordedIn program, Metered entry :=
  ⟨metered_of_lawful h, fun hmetered => ⟨tree_built h, totalled_of_metered h hmetered⟩⟩

end Law

section Examples

/-- A model call with two tokens read from the cache in a tool call, in a turn; the tool then
raises, which the turn catches. -/
def turnWithCalls : List Statement :=
  [.block .agentTurn .shown [
    .attempt [
      .block (.toolCall none) .shown [
        .block (.llmCall { tokens := {
          input := 5, inputCacheRead := 2, total := 7, total_covers := by decide } }) .shown [],
        .raise]]
      [.event .error .shown]]]

theorem lawful_turnWithCalls : ∃ trace, buildAfter freshIds turnWithCalls = .ok trace ∧
    Lawful trace := by
  obtain ⟨trace, htrace⟩ := (exists_buildAfter_iff freshIds (show keepsIn turnWithCalls by
    simp [turnWithCalls, keepsIn, keepsOf])).mpr (by decide +kernel)
  refine ⟨trace, htrace, (built_lawful_iff htrace).mpr ?_⟩
  simp [turnWithCalls, recordedIn, recordedOf, raisesIn, raisesOf, Outcome.recorded, Outcome.raises,
    Block.body, Event.body, Metered]

/-- One model call, which writes three tokens to the cache. -/
def cacheWriting : List Statement :=
  [.block (.llmCall { tokens := {
    inputCacheCreation := 3, total := 3, total_covers := by decide } }) .shown []]

/-- **The tokens written to the cache are lost.** -/
theorem not_all_lawful : ¬∀ (ids : SpanIds) (program : List Statement) (trace : BuiltTrace),
    buildAfter ids program = .ok trace → Lawful trace := by
  intro h
  obtain ⟨trace, htrace⟩ := (exists_buildAfter_iff freshIds (show keepsIn cacheWriting by
    simp [cacheWriting, keepsIn, keepsOf])).mpr (by decide +kernel)
  have hmetered := metered_of_lawful htrace (h freshIds cacheWriting trace htrace)
  simp [cacheWriting, recordedIn, recordedOf, raisesIn, raisesOf, Outcome.recorded,
    Block.body, Metered] at hmetered

end Examples

end Selfevals.Trace.Programs
