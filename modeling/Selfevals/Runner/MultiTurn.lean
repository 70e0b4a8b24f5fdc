import Selfevals.Optimization.CaseOutcomes
import Selfevals.Runner.Executors

/-!
# The executor of conversations

`runConversation` replays the scripted turns of a case, and goes on with the turns of a simulated
user. Every turn is a run of the executor, which binds the agent of the proposal; the reference that
is recorded is asked for without the proposal.

* `agent_attributed_iff`: when both executors name the agent that answered.
-/

namespace Selfevals.Runner.MultiTurn

open Lib.Effects Lib.JsonValue Lib.Mapping Schemas.TraceRecords Runner.Executors
open Optimization.CaseOutcomes (MessageRole)
open Schemas.EvalCases (EvalCase)

/-! ### Conversations -/

/-- A message, and its `model_dump`. -/
structure Message where
  role : MessageRole
  dumped : Object

/-- A case with what `ConversationInput` and `SimulatorSpec` make of its input. -/
structure ConversationCase extends EvalCase where
  conversation : Except Raised (List Message)
  simulatorSpec : Except Raised Unit := .ok ()

/-- The input has messages. -/
def isConversation (case : EvalCase) : Bool := (case.input.lookup "messages").isSome

/-- `_turn_boundaries`, from the message at `i` on. -/
def boundariesFrom (start i : ℕ) : List Message → List (ℕ × ℕ)
  | [] => []
  | m :: messages =>
    if m.role = .user ∨
      m.role = .tool then (start, i + 1) :: boundariesFrom (i + 1) (i + 1) messages
    else boundariesFrom start (i + 1) messages

/-- `_turn_boundaries`. -/
def turnBoundaries (messages : List Message) : List (ℕ × ℕ) := boundariesFrom 0 0 messages

/-- The message of a response. -/
def assistantReply (response : Option AdapterResponse) : Object :=
  [("role", .str "assistant"), ("content", .str ((response.bind (·.content)).getD ""))]

/-- The input of a turn. -/
def turnInput (case : EvalCase) (history : List Object) : Object :=
  case.input.filter (fun item => item.1 ≠ "messages" ∧ item.1 ≠ "simulator") ++
    [("messages", .arr (history.map .obj))]

/-- The text of a content block; it is a text where there is one. -/
def blockText : Json → Option String
  | .obj block =>
    match dictGet block "text" with
    | .str text => some text
    | _ => none
  | _ => none

/-- What the agent said last. -/
def lastAssistantContent (history : List Object) : Option String :=
  match history.reverse.find? fun message => dictGet message "role" = .str "assistant" with
  | none => none
  | some message =>
    match dictGet message "content" with
    | .str content => some content
    | .arr blocks =>
      let texts := blocks.filterMap blockText
      if texts = [] then none else some ("\n".intercalate texts)
    | _ => none

/-- A simulated user: its criteria, its scripted replies, and the adapter that goes on after them.
-/
structure UserSimulator (W : Type) where
  successCriteria : List String := []
  stopCondition : Option String := none
  maxTurns : ℕ := 8
  scripted : List String := []
  judge : Option (List Object → W → Except Raised AdapterResponse × W) := none
  /-- `str.lower`. -/
  lower : String → String

namespace UserSimulator
variable {A W : Type} (sim : UserSimulator W)

def contains (criterion reply : String) : Bool :=
  decide ((sim.lower criterion).toList <:+: (sim.lower reply).toList)

/-- The reply meets the success criterion. -/
def isSuccess (agentReply : Option String) : Bool :=
  match agentReply with
  | none => false
  | some reply => !sim.successCriteria.isEmpty && sim.successCriteria.all fun c =>
    sim.contains c reply

/-- The reply meets a stop condition. -/
def hitStopCondition (agentReply : Option String) : Bool :=
  match sim.stopCondition, agentReply with
  | some condition, some reply => condition ≠ "" && sim.contains condition reply
  | _, _ => false

/-- `UserSimulator.invoke` after so many turns, of fewer than `max_turns`; `none` is an
`AdapterError`. -/
def invoke (turnsEmitted : ℕ) (history : List Object) :
    Scoped (Session A W) Raised (Option AdapterResponse) :=
  match sim.scripted[turnsEmitted]? with
  | some reply => pure (some { content := some reply })
  | none =>
    match sim.judge with
    | none => pure (some { content := some "" })
    | some judge => outside fun w =>
      match judge history w with
      | (.ok response, w) =>
        (.ok (some { content := some (Lib.PyStr.strip (response.content.getD "")),
                     costUsd := response.costUsd }), w)
      | (.error (.adapter _), w) => (.ok none, w)
      | (.error e, w) => (.error e, w)

end UserSimulator

/-! ### The executor -/

/-- What the turns of a thread share. -/
structure ThreadRun where
  case : EvalCase
  labels : Labels
  agentRef : AgentSnapshotRef
  overrides : Object
  rep : ℕ
  threadId : String

/-- How far a thread has come, with the results of those before it. -/
structure Thread (A : Type) where
  history : List Object := []
  results : List (RepetitionResult A) := []
  lastError : Option String := none
  simulatorCostUsd : ℚ := 0
  simulatorTurns : ℕ := 0

section MultiTurnExecutor
variable {A W : Type} (x : Executor A W)

/-- One turn: the agent is run on the history, and its reply is added to it. -/
def runTurn (r : ThreadRun) (position : ℕ) (thread : Thread A) :
    Scoped (Session A W) Raised (Thread A) := do
  let runId ← newId x "run"
  let result ← runSingle x r.case
    (r.labels.runInfo r.case runId r.rep (some r.threadId) (some position)) r.agentRef r.overrides
    (some (turnInput r.case thread.history))
  return { thread with
    history :=
      if result.error.isSome then thread.history else thread.history ++
        [assistantReply result.response]
    results := thread.results ++ [result]
    lastError := result.error }

/-- `_run_scripted_turns`: a turn that fails ends the thread. -/
def runScriptedTurns (r : ThreadRun) (scripted : List Message) :
    ℕ → List (ℕ × ℕ) → Thread A → Scoped (Session A W) Raised (Thread A)
  | _, [], thread => pure thread
  | position, (start, stop) :: turns, thread => do
    let messages := ((scripted.drop start).take (stop - start)).map (·.dumped)
    let thread ← runTurn x r position { thread with history := thread.history ++ messages }
    if thread.lastError.isSome then return thread
    else runScriptedTurns r scripted (position + 1) turns thread

/-- `_run_simulator_phase`, with so many turns of the simulator left. With none left it answers with
nothing, which ends the thread. -/
def runSimulatorPhase (r : ThreadRun) (sim : UserSimulator W) :
    ℕ → ℕ → Thread A → Scoped (Session A W) Raised (Thread A)
  | 0, _, thread => pure thread
  | n + 1, position, thread => do
    let lastReply := lastAssistantContent thread.history
    if sim.isSuccess lastReply || sim.hitStopCondition lastReply then return thread
    else
      pause x
      match (← sim.invoke (sim.maxTurns - (n + 1)) thread.history) with
      | none => return thread
      | some response =>
        if response.content.getD "" = "" then return thread
        else
          let message : Object :=
            [("role", .str "user"), ("content", .str (response.content.getD "")),
            ("name", .str "simulator")]
          let thread ← runTurn x r position
            { thread with
              history := thread.history ++ [message]
              simulatorCostUsd := thread.simulatorCostUsd + response.costUsd
              simulatorTurns := thread.simulatorTurns + 1 }
          if thread.lastError.isSome then return thread
          else runSimulatorPhase r sim n (position + 1) thread

/-- A repetition: the scripted turns, and those of the simulator unless one failed. -/
def runThread (r : ThreadRun) (scripted : List Message) (simulator : Option (UserSimulator W))
    (thread : Thread A) : Scoped (Session A W) Raised (Thread A) := do
  let turns := turnBoundaries scripted
  let thread ← runScriptedTurns x r scripted 0 turns { thread with history := [], lastError := none }
  if thread.lastError.isSome then return thread
  else
    match simulator with
    | none => return thread
    | some sim => runSimulatorPhase x r sim sim.maxTurns turns.length thread

/-- The simulator that the input declares is parsed unless one is passed. -/
def simulatorSpecOf (case : ConversationCase) (simulator : Option (UserSimulator W)) :
    Except Raised Unit :=
  if simulator.isNone && (case.input.lookup "simulator").isSome then case.simulatorSpec else .ok ()

/-- `MultiTurnExecutor.run_case`. -/
def runConversation (case : ConversationCase) (repetitions : ℤ) (labels : Labels)
    (parameterOverrides : Object) (simulator : Option (UserSimulator W)) :
    Scoped (Session A W) Raised (CaseRun A) :=
  if repetitions < 1 then raise (.value "repetitions must be >= 1")
  else if !isConversation case.toEvalCase then
    raise (.value ("MultiTurnExecutor only runs conversation cases " ++
      "(EvalCase.is_conversation() must be True)"))
  else do
    let scripted ← tryQuery fun _ => case.conversation
    if turnBoundaries scripted = [] then
      raise (.value "conversation has no user/tool turn to drive the agent")
    else
      tryQuery fun _ => simulatorSpecOf case simulator
      let ref ← agentRef x []
      let thread ← (List.range repetitions.toNat).foldlM (fun thread rep => do
        let threadId ← newId x "thread"
        runThread x ⟨case.toEvalCase, labels, ref, parameterOverrides, rep,
          threadId⟩ scripted simulator
          thread) ({} : Thread A)
      return { caseId := case.id, repetitions := thread.results,
               simulatorCostUsd := thread.simulatorCostUsd, simulatorTurns :=
                 thread.simulatorTurns }

/-- A case, by its runner in `execute_and_grade_case`. -/
def runAnyCase (case : ConversationCase) (repetitions : ℤ) (labels : Labels)
    (parameterOverrides : Object) (simulator : Option (UserSimulator W)) :
    Scoped (Session A W) Raised (CaseRun A) :=
  if isConversation case.toEvalCase then
    runConversation x case repetitions labels parameterOverrides simulator
  else runCase x case.toEvalCase repetitions labels parameterOverrides

/-! ### Turns -/

variable {x} {r : ThreadRun} {chosen : Except Raised A} {s s' : Session A W}

/-- What ran so far in the threads of a conversation. -/
abbrev ThreadRan (x : Executor A W) (r : ThreadRun) (chosen : Except Raised A) (thread : Thread A)
    (s : Session A W) : Prop :=
  Ran x r.overrides chosen r.agentRef thread.results s

/-- **A turn** adds one result. -/
theorem ran_runTurn {position : ℕ} {thread thread' : Thread A}
    (hrun : (runTurn x r position thread).run s = (.ok thread', s'))
    (h : ThreadRan x r chosen thread s) :
    ThreadRan x r chosen thread' s' ∧ thread'.results ≠ [] := by
  obtain ⟨runId, s₁, hid, hrun⟩ := run_bind_eq_ok.mp hrun
  obtain ⟨result, s₂, hresult, hrun⟩ := run_bind_eq_ok.mp hrun
  obtain ⟨rfl, rfl⟩ := by simpa using hrun
  exact ⟨(h.of_outside hid).snoc hresult, by simp⟩

theorem ran_runScriptedTurns {scripted : List Message} {turns : List (ℕ × ℕ)} {position : ℕ}
    {thread thread' : Thread A}
    (hrun : (runScriptedTurns x r scripted position turns thread).run s = (.ok thread', s'))
    (h : ThreadRan x r chosen thread s) :
    ThreadRan x r chosen thread' s' ∧
      (turns ≠ [] ∨ thread.results ≠ [] → thread'.results ≠ []) := by
  induction turns generalizing position thread s with
  | nil =>
    obtain ⟨rfl, rfl⟩ : thread = thread' ∧ s = s' := by simpa [runScriptedTurns] using hrun
    exact ⟨h, fun hne => hne.resolve_left fun hnil => hnil rfl⟩
  | cons turn turns ih =>
    obtain ⟨thread₁, s₁, hturn, hrun⟩ := run_bind_eq_ok.mp hrun
    obtain ⟨hran, hne⟩ := ran_runTurn hturn h
    split_ifs at hrun with herror
    · obtain ⟨rfl, rfl⟩ : thread₁ = thread' ∧ s₁ = s' := by simpa using hrun
      exact ⟨hran, fun _ => hne⟩
    · obtain ⟨hran', hne'⟩ := ih hrun hran
      exact ⟨hran', fun _ => hne' (.inr hne)⟩

theorem UserSimulator.grows_invoke (sim : UserSimulator W) (turnsEmitted : ℕ) (history : List Object)
    (s : Session A W) : Grows x s ((sim.invoke turnsEmitted history).run s).2 := by
  unfold UserSimulator.invoke
  cases sim.scripted[turnsEmitted]? with
  | some reply => exact .of_eq rfl
  | none =>
    cases sim.judge with
    | none => exact .of_eq rfl
    | some judge => exact .of_eq rfl

theorem ran_runSimulatorPhase {sim : UserSimulator W} {n position : ℕ} {thread thread' : Thread A}
    (hrun : (runSimulatorPhase x r sim n position thread).run s = (.ok thread', s'))
    (h : ThreadRan x r chosen thread s) (hne : thread.results ≠ []) :
    ThreadRan x r chosen thread' s' ∧ thread'.results ≠ [] := by
  induction n generalizing position thread s with
  | zero =>
    obtain ⟨rfl, rfl⟩ : thread = thread' ∧ s = s' := by simpa [runSimulatorPhase] using hrun
    exact ⟨h, hne⟩
  | succ n ih =>
    unfold runSimulatorPhase at hrun
    simp only at hrun
    split_ifs at hrun with hdone
    · obtain ⟨rfl, rfl⟩ : thread = thread' ∧ s = s' := by simpa using hrun
      exact ⟨h, hne⟩
    obtain ⟨_, s₁, hpause, hrun⟩ := run_bind_eq_ok.mp hrun
    obtain ⟨answer, s₂, hanswer, hrun⟩ := run_bind_eq_ok.mp hrun
    have hgrows : Grows x s s₂ :=
      .trans _ _ _ (.of_run grows_pause hpause) (.of_run (sim.grows_invoke _ _) hanswer)
    obtain ⟨adapter, rfl, hsettled⟩ := h.settled hne
    have h₂ := h.of_grows hsettled hgrows
    cases answer with
    | none =>
      obtain ⟨rfl, rfl⟩ : thread = thread' ∧ s₂ = s' := by simpa using hrun
      exact ⟨h₂, hne⟩
    | some response =>
      simp only at hrun
      split_ifs at hrun with hempty
      · obtain ⟨rfl, rfl⟩ : thread = thread' ∧ s₂ = s' := by simpa using hrun
        exact ⟨h₂, hne⟩
      obtain ⟨thread₁, s₃, hturn, hrun⟩ := run_bind_eq_ok.mp hrun
      obtain ⟨hran, hne'⟩ := ran_runTurn hturn h₂
      split_ifs at hrun with herror
      · obtain ⟨rfl, rfl⟩ : thread₁ = thread' ∧ s₃ = s' := by simpa using hrun
        exact ⟨hran, hne'⟩
      · exact ih hrun hran hne'

theorem ran_runThread {scripted : List Message} {simulator : Option (UserSimulator W)}
    {thread thread' : Thread A} (hturns : turnBoundaries scripted ≠ [])
    (hrun : (runThread x r scripted simulator thread).run s = (.ok thread', s'))
    (h : ThreadRan x r chosen thread s) :
    ThreadRan x r chosen thread' s' ∧ thread'.results ≠ [] := by
  obtain ⟨thread₁, s₁, hscripted, hrun⟩ := run_bind_eq_ok.mp hrun
  obtain ⟨hran, hne⟩ := ran_runScriptedTurns hscripted h
  replace hne := hne (.inl hturns)
  split_ifs at hrun with herror
  · obtain ⟨rfl, rfl⟩ : thread₁ = thread' ∧ s₁ = s' := by simpa using hrun
    exact ⟨hran, hne⟩
  cases simulator with
  | none =>
    obtain ⟨rfl, rfl⟩ : thread₁ = thread' ∧ s₁ = s' := by simpa using hrun
    exact ⟨hran, hne⟩
  | some sim => exact ran_runSimulatorPhase hrun hran hne

/-! ### Runs -/

variable {case : ConversationCase} {repetitions : ℤ} {labels : Labels} {overrides : Object}
  {simulator : Option (UserSimulator W)} {caseRun : CaseRun A}

/-- **The executor of conversations records** the declared agent, and invokes that of the proposal.
-/
theorem ran_runConversation
    (h : (runConversation x case repetitions labels overrides simulator).run s =
      (.ok caseRun, s')) :
    caseRun.repetitions ≠ [] ∧ Ran x overrides (selected x s.adapterCache overrides)
      (refOf x x.adapter) caseRun.repetitions s' := by
  unfold runConversation at h
  split_ifs at h with hreps hconversation
  · cases h
  · cases h
  rw [run_bind_eq_ok] at h
  obtain ⟨scripted, s₁, hscripted, h⟩ := h
  obtain ⟨-, rfl⟩ := run_tryQuery_eq_ok.mp hscripted
  split_ifs at h with hturns
  · cases h
  rw [run_bind_eq_ok] at h
  obtain ⟨_, s₁, hspec, h⟩ := h
  obtain ⟨-, rfl⟩ := run_tryQuery_eq_ok.mp hspec
  rw [run_bind_eq_ok] at h
  obtain ⟨ref, s₂, href, h⟩ := h
  obtain ⟨rfl, rfl⟩ : refOf x x.adapter = ref ∧ s₁ = s₂ := by
    simpa [agentRef, adapterFor, dictGet, run_bind] using href
  obtain ⟨thread, s₃, hthreads, h⟩ := run_bind_eq_ok.mp h
  obtain ⟨rfl, rfl⟩ := by simpa using h
  obtain ⟨hran, hne⟩ : Ran x overrides (selected x s₁.adapterCache overrides) (refOf x x.adapter)
      thread.results s₃ ∧ ([] ++ List.range repetitions.toNat ≠ [] → thread.results ≠ []) := by
    refine inv_of_run_foldlM (I := fun done thread s =>
      Ran x overrides (selected x s₁.adapterCache overrides) (refOf x x.adapter) thread.results s ∧
        (done ≠ [] → thread.results ≠ [])) ?_ ⟨ran_nil s₁, fun h => absurd rfl h⟩ hthreads
    rintro done rep thread s thread' s' ⟨hran, -⟩ hthread
    obtain ⟨threadId, s₂, hid, hthread⟩ := run_bind_eq_ok.mp hthread
    obtain ⟨hran', hne⟩ := ran_runThread hturns hthread (hran.of_outside hid)
    exact ⟨hran', fun _ => hne⟩
  refine ⟨hne ?_, hran⟩
  rw [List.nil_append, Ne, List.range_eq_nil]
  omega

/-- The adapter that runs a proposal has the declared agent. -/
def RunsDeclared (x : Executor A W) (cache : Dict String A) (overrides : Object) : Prop :=
  ∀ adapter, selected x cache overrides = .ok adapter → refOf x adapter = refOf x x.adapter

theorem attributed_runAnyCase_iff
    (h : (runAnyCase x case repetitions labels overrides simulator).run s = (.ok caseRun, s')) :
    Attributed x caseRun ↔
      (isConversation case.toEvalCase = true → RunsDeclared x s.adapterCache overrides) := by
  unfold runAnyCase at h
  split_ifs at h with hconversation
  · obtain ⟨hne, hran⟩ := ran_runConversation h
    rw [Attributed, hran.forall_agent_iff hne]
    simp only [hconversation, true_implies, RunsDeclared, eq_comm]
  · obtain ⟨adapter, -, hne, hran⟩ := ran_runCase h
    refine iff_of_true ((hran.forall_agent_iff hne).mpr fun a ha => ?_) fun h =>
      absurd h hconversation
    rw [Except.ok.inj ha]

theorem same_agents_iff {case₁ : EvalCase} {repetitions₁ : ℤ} {labels₁ : Labels}
    {single : CaseRun A}
    {s₁ : Session A W}
    (hsingle : (runCase x case₁ repetitions₁ labels₁ overrides).run s = (.ok single, s₁))
    (h : (runConversation x case repetitions labels overrides simulator).run s =
      (.ok caseRun, s')) :
    (∀ r₁ ∈ single.repetitions, ∀ r₂ ∈ caseRun.repetitions, r₁.trace.agent = r₂.trace.agent) ↔
      RunsDeclared x s.adapterCache overrides := by
  obtain ⟨adapter, hselected, hne₁, hran₁⟩ := ran_runCase hsingle
  obtain ⟨hne₂, hran₂⟩ := ran_runConversation h
  constructor
  · intro hsame a ha
    obtain rfl := Except.ok.inj (hselected.symm.trans ha)
    obtain ⟨r₁, hr₁⟩ := List.exists_mem_of_ne_nil _ hne₁
    obtain ⟨r₂, hr₂⟩ := List.exists_mem_of_ne_nil _ hne₂
    rw [← (hran₁.results_eq r₁ hr₁).2, ← (hran₂.results_eq r₂ hr₂).2, hsame r₁ hr₁ r₂ hr₂]
  · intro hdeclared r₁ hr₁ r₂ hr₂
    rw [(hran₁.results_eq r₁ hr₁).2, (hran₂.results_eq r₂ hr₂).2, hdeclared adapter hselected]

/-- **Agent attribution.** A case that is no conversation names the agents of the adapters that are
invoked for it. A conversation does, and names those that another case of the proposal names,
exactly if the adapter that runs the proposal has the declared agent. -/
theorem agent_attribution_iff (x : Executor A W) (overrides : Object) (s : Session A W) :
    (∀ case repetitions labels simulator caseRun s',
      (runAnyCase x case repetitions labels overrides simulator).run s = (.ok caseRun, s') →
      (Attributed x caseRun ↔
        (isConversation case.toEvalCase = true → RunsDeclared x s.adapterCache overrides))) ∧
    ∀ case₁ repetitions₁ labels₁ single s₁ case repetitions labels simulator caseRun s',
      (runCase x case₁ repetitions₁ labels₁ overrides).run s = (.ok single, s₁) →
      (runConversation x case repetitions labels overrides simulator).run s = (.ok caseRun, s') →
      ((∀ r₁ ∈ single.repetitions, ∀ r₂ ∈ caseRun.repetitions, r₁.trace.agent = r₂.trace.agent) ↔
        RunsDeclared x s.adapterCache overrides) :=
  ⟨fun _ _ _ _ _ _ h => attributed_runAnyCase_iff h,
    fun _ _ _ _ _ _ _ _ _ _ _ hsingle h => same_agents_iff hsingle h⟩

end MultiTurnExecutor

/-! ### Two agents -/

/-- The declared agent is `alpha`; a proposal binds `beta`. -/
def alphaOrBeta : Executor Bool Unit where
  workspaceId := "ws"
  adapter := false
  factory := some fun _ => .ok true
  agent beta := some (if beta then ⟨"beta", 2⟩ else ⟨"alpha", 1⟩)
  invoke _ _ _ := (.ok { content := some "hello" }, ())
  record _ _ _ _ := (.ok (), ())
  dumps _ := "beta"
  dumpTaxonomy _ := .null
  newPrefixedId kind _ := (kind ++ "_1", ())
  elsewhere _ := ([], ())

def greeting : ConversationCase where
  toEvalCase := { EvalCase.minimal with
    input := [("messages", .arr [.obj [("role", .str "user"), ("content", .str "hi")]])] }
  conversation := .ok [⟨.user, [("role", .str "user"), ("content", .str "hi")]⟩]

theorem attributed_greeting :
    (∃ caseRun s',
      (runAnyCase alphaOrBeta greeting 1 {} [] none).run ⟨.empty, ()⟩ = (.ok caseRun, s') ∧
      Attributed alphaOrBeta caseRun) ∧
    ∃ single s₁ caseRun s',
      (runCase alphaOrBeta greeting.toEvalCase 1 {} []).run ⟨.empty, ()⟩ = (.ok single, s₁) ∧
      (runConversation alphaOrBeta greeting 1 {} [] none).run ⟨.empty, ()⟩ = (.ok caseRun, s') ∧
      ∀ r₁ ∈ single.repetitions, ∀ r₂ ∈ caseRun.repetitions, r₁.trace.agent = r₂.trace.agent := by
  have hdeclared : RunsDeclared alphaOrBeta .empty [] := fun adapter hadapter => by
    rw [Except.ok.inj hadapter]
  obtain ⟨hattributed, hsame⟩ := agent_attribution_iff alphaOrBeta [] ⟨.empty, ()⟩
  exact ⟨⟨_, _, rfl, (hattributed greeting 1 {} none _ _ rfl).mpr fun _ => hdeclared⟩,
    _, _, _, _, rfl, rfl,
      (hsame greeting.toEvalCase 1 {} _ _ greeting 1 {} none _ _ rfl rfl).mpr hdeclared⟩

/-- **A conversation under an override** names the declared agent, and not the one that answers. -/
theorem not_attributed_beta :
    ¬∀ (x : Executor Bool Unit) (case : ConversationCase) (repetitions : ℤ)
    (labels : Labels) (overrides : Object) (s s' : Session Bool Unit) (caseRun : CaseRun Bool),
    (runAnyCase x case repetitions labels overrides none).run s = (.ok caseRun, s') →
      Attributed x caseRun := by
  intro h
  have hattributed :=
    h alphaOrBeta greeting 1 {} [("agent", .obj [("type", .str "cli")])] ⟨.empty, ()⟩ _ _ rfl
  exact absurd (hattributed _ List.mem_cons_self) (by decide)

end Selfevals.Runner.MultiTurn
