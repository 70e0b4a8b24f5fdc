import Selfevals.Runner.MultiTurn

/-!
# Threads of simulated conversations

The simulated user counts the turns that it has made, and the loop that asks it has no bound of its
own: it ends since the user has nothing to say once it has made `max_turns` turns, if not before.
-/

namespace Selfevals.Runner.SimulatedThreads

open Lib.Effects Lib.JsonValue Lib.PyStr Runner.Executors Runner.MultiTurn Schemas.TraceRecords
open Schemas.EvalCases (EvalCase)

variable {A W : Type} (x : Executor A W) (r : ThreadRun)

/-! ### The loop -/

/-- `UserSimulator.invoke`, with `_turns_emitted` before and after. -/
def invokeCounted (sim : UserSimulator W) (turnsEmitted : ℕ) (history : List Object) :
    Scoped (Session A W) Raised (Option AdapterResponse × ℕ) :=
  if sim.maxTurns ≤ turnsEmitted then pure (some { content := some "" }, turnsEmitted)
  else do
    pause x
    let answer ← sim.invoke turnsEmitted history
    -- a scripted reply and an answer of the judge are counted
    let counted := answer.isSome && (turnsEmitted < sim.scripted.length || sim.judge.isSome)
    return (answer, if counted then turnsEmitted + 1 else turnsEmitted)

/-- The `while True` of `_run_simulator_phase`; `none` is a loop that has not ended in so many
rounds. -/
def simulatorLoop (sim : UserSimulator W) :
    ℕ → ℕ → ℕ → Thread A → Scoped (Session A W) Raised (Option (Thread A))
  | 0, _, _, _ => pure none
  | rounds + 1, turnsEmitted, position, thread =>
    let lastReply := lastAssistantContent thread.history
    if sim.isSuccess lastReply || sim.hitStopCondition lastReply then pure (some thread)
    else do
      match (← invokeCounted x sim turnsEmitted thread.history) with
      | (none, _) => return some thread
      | (some response, turnsEmitted) =>
        if response.content.getD "" = "" then return some thread
        else
          let message : Object :=
            [("role", .str "user"), ("content", .str (response.content.getD "")),
            ("name", .str "simulator")]
          let thread ← runTurn x r position
            { thread with
              history := thread.history ++ [message]
              simulatorCostUsd := thread.simulatorCostUsd + response.costUsd
              simulatorTurns := thread.simulatorTurns + 1 }
          if thread.lastError.isSome then return some thread
          else simulatorLoop sim rounds turnsEmitted (position + 1) thread

variable {x r} {sim : UserSimulator W} {s s' : Session A W}

theorem invoke_silent {turnsEmitted : ℕ} {history : List Object} {answer : AdapterResponse}
    (hscript : ¬turnsEmitted < sim.scripted.length) (hjudge : sim.judge = none)
    (h : (sim.invoke turnsEmitted history).run s = (.ok (some answer), s')) :
    answer.content.getD "" = "" := by
  have hnone : sim.scripted[turnsEmitted]? = none := List.getElem?_eq_none (by omega)
  unfold UserSimulator.invoke at h
  rw [hnone, hjudge] at h
  obtain ⟨rfl, -⟩ := by simpa using h
  rfl

/-- **Termination.** A loop of more rounds than the user has turns left ends, and does what
`_run_simulator_phase` does with these turns left. -/
theorem run_simulatorLoop {n rounds turnsEmitted : ℕ} (hrounds : n < rounds)
    (hleft : turnsEmitted + n = sim.maxTurns) (position : ℕ) (thread : Thread A)
    (s : Session A W) :
    (simulatorLoop x r sim rounds turnsEmitted position thread).run s =
      (((runSimulatorPhase x r sim n position thread).run s).1.map some,
        ((runSimulatorPhase x r sim n position thread).run s).2) := by
  induction n generalizing rounds turnsEmitted position thread s with
  | zero =>
    obtain ⟨rounds, rfl⟩ : ∃ k, rounds = k + 1 := ⟨rounds - 1, by omega⟩
    have hmax : sim.maxTurns ≤ turnsEmitted := by omega
    have hinvoke : (invokeCounted x sim turnsEmitted thread.history).run s =
        (.ok (some { content := some "" }, turnsEmitted), s) := by
      rw [invokeCounted, if_pos hmax, run_pure]
    unfold simulatorLoop runSimulatorPhase
    dsimp only
    split_ifs with hdone
    · rfl
    · rw [run_bind, hinvoke]
      rfl
  | succ n ih =>
    obtain ⟨rounds, rfl⟩ : ∃ k, rounds = k + 1 := ⟨rounds - 1, by omega⟩
    have hmax : ¬sim.maxTurns ≤ turnsEmitted := by omega
    have hturn : sim.maxTurns - (n + 1) = turnsEmitted := by omega
    unfold simulatorLoop runSimulatorPhase
    dsimp only
    split_ifs with hdone
    · rfl
    rw [hturn]
    simp only [invokeCounted, if_neg hmax, run_bind]
    obtain ⟨e | _, s₁⟩ := (pause x).run s
    · rfl
    dsimp only
    rcases hanswer : (sim.invoke turnsEmitted thread.history).run s₁ with ⟨e | answer, s₂⟩
    · rfl
    cases answer with
    | none => rfl
    | some response =>
      simp only [run_pure]
      by_cases hempty : response.content.getD "" = ""
      · simp only [if_pos hempty]
        rfl
      have hcounted : turnsEmitted < sim.scripted.length ∨ sim.judge.isSome = true := by
        by_contra hnot
        rw [not_or, Bool.not_eq_true, Option.isSome_eq_false_iff, Option.isNone_iff_eq_none] at hnot
        exact hempty (invoke_silent hnot.1 hnot.2 hanswer)
      have hcount : ((some response).isSome &&
          (decide (turnsEmitted < sim.scripted.length) || sim.judge.isSome)) = true := by
        simpa using hcounted
      simp only [if_pos hcount, if_neg hempty, run_bind]
      obtain ⟨e | thread₁, s₃⟩ := (runTurn x r position _).run s₂
      · rfl
      dsimp only
      split_ifs with herror
      · rfl
      · exact ih (by omega) (by omega) (position + 1) thread₁ s₃

/-! ### Positions -/

/-- The traces of so many turns, in the order of their positions, under one thread id. -/
structure Turns (rep : ℕ) (threadId : String) (n : ℕ) (turns : List (RepetitionResult A)) :
    Prop where
  positions : turns.map (·.trace.run.threadPosition) = (List.range n).map some
  thread_eq : ∀ t ∈ turns, t.trace.run.threadId = some threadId
  rep_eq : ∀ t ∈ turns, t.trace.run.repetition = rep

theorem turns_nil (rep : ℕ) (threadId : String) :
    Turns rep threadId 0 ([] : List (RepetitionResult A)) :=
  ⟨rfl, by simp, by simp⟩

theorem Turns.snoc {rep n : ℕ} {threadId : String} {turns : List (RepetitionResult A)}
    {t : RepetitionResult A} (h : Turns rep threadId n turns)
    (hposition : t.trace.run.threadPosition = some n)
    (hthread : t.trace.run.threadId = some threadId) (hrep : t.trace.run.repetition = rep) :
    Turns rep threadId (n + 1) (turns ++ [t]) where
  positions := by
    rw [List.map_append, h.positions, List.range_succ, List.map_append, List.map_singleton,
      hposition, List.map_singleton]
  thread_eq u hu := by
    obtain hu | hu := List.mem_append.mp hu
    · exact h.thread_eq u hu
    · rw [List.mem_singleton.mp hu, hthread]
  rep_eq u hu := by
    obtain hu | hu := List.mem_append.mp hu
    · exact h.rep_eq u hu
    · rw [List.mem_singleton.mp hu, hrep]

theorem runSingle_run {case : EvalCase} {runInfo : RunInfo} {ref : AgentSnapshotRef}
    {overrides : Object} {inputOverride : Option Object} {result : RepetitionResult A}
    (h : (runSingle x case runInfo ref overrides inputOverride).run s = (.ok result, s')) :
    result.trace.run = runInfo := by
  rw [runSingle, run_bind_eq_ok] at h
  obtain ⟨adapter, s₁, -, h⟩ := h
  obtain ⟨answer, s₂, -, h⟩ := run_bind_eq_ok.mp h
  cases answer with
  | error text =>
    obtain ⟨rfl, -⟩ := by simpa using h
    rfl
  | ok response =>
    obtain ⟨_, s₃, -, h⟩ := run_bind_eq_ok.mp h
    obtain ⟨rfl, -⟩ := by simpa using h
    rfl

/-- The results are those of earlier threads and the turns of this one. -/
def After (r : ThreadRun) (earlier : List (RepetitionResult A)) (n : ℕ)
    (results : List (RepetitionResult A)) : Prop :=
  ∃ turns, results = earlier ++ turns ∧ Turns r.rep r.threadId n turns

variable {earlier : List (RepetitionResult A)} {thread thread' : Thread A}

/-- **A turn** takes the next position, and is none of the simulated user. -/
theorem after_runTurn {n : ℕ} (hrun : (runTurn x r n thread).run s = (.ok thread', s'))
    (h : After r earlier n thread.results) :
    After r earlier (n + 1) thread'.results ∧ thread'.simulatorTurns = thread.simulatorTurns := by
  obtain ⟨runId, s₁, -, hrun⟩ := run_bind_eq_ok.mp hrun
  obtain ⟨result, s₂, hresult, hrun⟩ := run_bind_eq_ok.mp hrun
  obtain ⟨rfl, -⟩ := by simpa using hrun
  obtain ⟨turns, hresults, hturns⟩ := h
  have hinfo := runSingle_run hresult
  refine ⟨⟨turns ++ [result], ?_, hturns.snoc ?_ ?_ ?_⟩, rfl⟩
  · rw [hresults, List.append_assoc]
  all_goals rw [hinfo]; rfl

theorem after_runScriptedTurns {scripted : List Message} {turns : List (ℕ × ℕ)} {n : ℕ}
    (h : After r earlier n thread.results)
    (hrun : (runScriptedTurns x r scripted n turns thread).run s = (.ok thread', s')) :
    ∃ m, After r earlier m thread'.results ∧ thread'.simulatorTurns = thread.simulatorTurns ∧
      n ≤ m ∧ m ≤ n + turns.length ∧ (turns ≠ [] → n < m) ∧
      (thread'.lastError = none → m = n + turns.length) := by
  induction turns generalizing n thread s with
  | nil =>
    obtain ⟨rfl, rfl⟩ : thread = thread' ∧ s = s' := by simpa [runScriptedTurns] using hrun
    exact ⟨n, h, rfl, le_rfl, le_rfl, fun hne => absurd rfl hne, fun _ => rfl⟩
  | cons turn turns ih =>
    obtain ⟨thread₁, s₁, hturn, hrun⟩ := run_bind_eq_ok.mp hrun
    obtain ⟨hafter, hsim⟩ := after_runTurn hturn h
    rw [List.length_cons]
    split_ifs at hrun with herror
    · obtain ⟨rfl, rfl⟩ : thread₁ = thread' ∧ s₁ = s' := by simpa using hrun
      refine ⟨n + 1, hafter, hsim, by omega, by omega, fun _ => by omega, fun hnone => ?_⟩
      rw [hnone] at herror
      cases herror
    · obtain ⟨m, hafter', hsim', hlo, hhi, -, hend⟩ := ih hafter hrun
      refine ⟨m, hafter', hsim'.trans hsim, by omega, by omega, fun _ => by omega, fun hnone => ?_⟩
      have heq := hend hnone
      omega

theorem after_runSimulatorPhase {left n : ℕ} (h : After r earlier n thread.results)
    (hrun : (runSimulatorPhase x r sim left n thread).run s = (.ok thread', s')) :
    ∃ k ≤ left, After r earlier (n + k) thread'.results ∧
      thread'.simulatorTurns = thread.simulatorTurns + k := by
  induction left generalizing n thread s with
  | zero =>
    obtain ⟨rfl, rfl⟩ : thread = thread' ∧ s = s' := by simpa [runSimulatorPhase] using hrun
    exact ⟨0, le_rfl, h, rfl⟩
  | succ left ih =>
    unfold runSimulatorPhase at hrun
    simp only at hrun
    split_ifs at hrun with hdone
    · obtain ⟨rfl, rfl⟩ : thread = thread' ∧ s = s' := by simpa using hrun
      exact ⟨0, Nat.zero_le _, h, rfl⟩
    obtain ⟨_, s₁, -, hrun⟩ := run_bind_eq_ok.mp hrun
    obtain ⟨answer, s₂, -, hrun⟩ := run_bind_eq_ok.mp hrun
    cases answer with
    | none =>
      obtain ⟨rfl, rfl⟩ : thread = thread' ∧ s₂ = s' := by simpa using hrun
      exact ⟨0, Nat.zero_le _, h, rfl⟩
    | some response =>
      simp only at hrun
      split_ifs at hrun with hempty
      · obtain ⟨rfl, rfl⟩ : thread = thread' ∧ s₂ = s' := by simpa using hrun
        exact ⟨0, Nat.zero_le _, h, rfl⟩
      obtain ⟨thread₁, s₃, hturn, hrun⟩ := run_bind_eq_ok.mp hrun
      obtain ⟨hafter, hsim⟩ := after_runTurn hturn h
      split_ifs at hrun with herror
      · obtain ⟨rfl, rfl⟩ : thread₁ = thread' ∧ s₃ = s' := by simpa using hrun
        exact ⟨1, by omega, hafter, hsim⟩
      · obtain ⟨k, hk, hafter', hsim'⟩ := ih hafter hrun
        refine ⟨k + 1, by omega, ?_, ?_⟩
        · rwa [Nat.add_right_comm, Nat.add_assoc] at hafter'
        · rw [hsim', hsim]
          dsimp only
          omega

/-- What a thread adds: at least one turn, the scripted ones as far as none fails, and those of the
simulated user. -/
theorem turns_runThread {scripted : List Message} {simulator : Option (UserSimulator W)}
    (hturns : turnBoundaries scripted ≠ [])
    (hrun : (runThread x r scripted simulator thread).run s = (.ok thread', s')) :
    ∃ n turns, thread'.results = thread.results ++ turns ∧ Turns r.rep r.threadId n turns ∧
      0 < n ∧ n ≤ (turnBoundaries scripted).length + (simulator.elim 0 (·.maxTurns)) ∧
      thread'.simulatorTurns =
        thread.simulatorTurns + (n - (turnBoundaries scripted).length) := by
  obtain ⟨thread₁, s₁, hscripted, hrun⟩ := run_bind_eq_ok.mp hrun
  have hstart : After r thread.results 0 { thread with history := [], lastError := none }.results :=
    ⟨[], (List.append_nil _).symm, turns_nil _ _⟩
  obtain ⟨m, hafter, hsim, -, hhi, hpos, hend⟩ := after_runScriptedTurns hstart hscripted
  have hm := hpos hturns
  rw [Nat.zero_add] at hhi hend
  -- without turns of the simulated user
  have hplain (heq : thread₁ = thread') : ∃ n turns,
      thread'.results = thread.results ++ turns ∧ Turns r.rep r.threadId n turns ∧
      0 < n ∧ n ≤ (turnBoundaries scripted).length + (simulator.elim 0 (·.maxTurns)) ∧
      thread'.simulatorTurns =
        thread.simulatorTurns + (n - (turnBoundaries scripted).length) := by
    subst heq
    obtain ⟨turns, hresults, hturns⟩ := hafter
    refine ⟨m, turns, hresults, hturns, hm, by omega, ?_⟩
    rw [hsim]
    dsimp only
    omega
  split_ifs at hrun with herror
  · obtain ⟨heq, -⟩ : thread₁ = thread' ∧ s₁ = s' := by simpa using hrun
    exact hplain heq
  cases simulator with
  | none =>
    obtain ⟨heq, -⟩ : thread₁ = thread' ∧ s₁ = s' := by simpa using hrun
    exact hplain heq
  | some sim =>
    rw [Bool.not_eq_true, Option.isSome_eq_false_iff, Option.isNone_iff_eq_none] at herror
    obtain rfl := hend herror
    obtain ⟨k, hk, ⟨turns, hresults, hturns'⟩, hsim'⟩ := after_runSimulatorPhase hafter hrun
    refine ⟨_, turns, hresults, hturns', by omega, by simpa using hk, ?_⟩
    rw [hsim', hsim]
    dsimp only
    omega

/-! ### Ids -/

/-- No id is drawn twice: an id that is drawn has not been issued, and what is issued stays so over
whatever else is called. -/
structure DrawsFresh (x : Executor A W) (simulator : Option (UserSimulator W))
    (issued : W → Set String) : Prop where
  fresh : ∀ kind w, (x.newPrefixedId kind w).1 ∉ issued w
  issue : ∀ kind w, insert (x.newPrefixedId kind w).1 (issued w) ⊆ issued (x.newPrefixedId kind w).2
  invoke : ∀ adapter request w, issued w ⊆ issued (x.invoke adapter request w).2
  record : ∀ adapter request response w, issued w ⊆ issued (x.record adapter request response w).2
  elsewhere : ∀ w, issued w ⊆ issued (x.elsewhere w).2
  judge : ∀ sim ∈ simulator, ∀ judge ∈ sim.judge, ∀ history w, issued w ⊆ issued (judge history w).2

section Issued
variable {issued : W → Set String} {simulator : Option (UserSimulator W)}

/-- The call takes nothing back that was issued. -/
structure Keeps {α : Type} (issued : W → Set String) (m : Scoped (Session A W) Raised α) : Prop where
  subset : ∀ s, issued s.world ⊆ issued (m.run s).2.world

theorem Keeps.pure {α : Type} (a : α) : Keeps issued (pure a : Scoped (Session A W) Raised α) :=
  ⟨fun _ => subset_rfl⟩

theorem Keeps.bind {α β : Type} {m : Scoped (Session A W) Raised α}
    {f : α → Scoped (Session A W) Raised β} (hm : Keeps issued m) (hf : ∀ a, Keeps issued (f a)) :
    Keeps issued (m >>= f) where
  subset s := rel_bind (R := fun s s' : Session A W => issued s.world ⊆ issued s'.world)
    (fun _ _ _ => Set.Subset.trans) (hm.subset s) fun a s' _ => (hf a).subset s'

theorem Keeps.of_run {α : Type} {m : Scoped (Session A W) Raised α} {a : Except Raised α}
    (hm : Keeps issued m) (h : m.run s = (a, s')) : issued s.world ⊆ issued s'.world := by
  have hkeeps := hm.subset s
  rwa [h] at hkeeps

theorem world_adapterFor (overrides : Object) (s : Session A W) :
    ((adapterFor x overrides).run s).2.world = s.world := by
  unfold adapterFor
  split
  · rfl
  · cases x.factory with
    | none => rfl
    | some factory =>
      dsimp only
      rw [run_cachedAdapter]
      split
      · rfl
      · split <;> rfl
  · rfl

theorem keeps_adapterFor (overrides : Object) : Keeps issued (adapterFor x overrides) where
  subset s := by rw [world_adapterFor]

variable (h : DrawsFresh x simulator issued)
include h

theorem keeps_newId (kind : String) : Keeps issued (newId x kind) :=
  ⟨fun s _ hid => h.issue kind s.world (.inr hid)⟩

theorem keeps_pause : Keeps issued (pause x) := by
  refine ⟨fun s => ?_⟩
  have hfold : ∀ (proposals : List Object) (s₁ : Session A W),
      (proposals.foldl (fun s overrides => ((adapterFor x overrides).run s).2) s₁).world =
        s₁.world := by
    intro proposals
    induction proposals with
    | nil => exact fun _ => rfl
    | cons overrides proposals ih => exact fun s₁ => (ih _).trans (world_adapterFor overrides s₁)
  have hworld : ((pause x).run s).2.world = (x.elsewhere s.world).2 := hfold _ _
  rw [hworld]
  exact h.elsewhere s.world

theorem keeps_invoked (adapter : A) (request : AdapterRequest) :
    Keeps issued (invoked x adapter request) := by
  refine .bind (keeps_pause h) fun _ => ⟨fun s => ?_⟩
  have hinvoke := h.invoke adapter request s.world
  rw [run_outside]
  dsimp only
  split <;> simp_all only

theorem keeps_runSingle (case : EvalCase) (runInfo : RunInfo) (ref : AgentSnapshotRef)
    (overrides : Object) (inputOverride : Option Object) :
    Keeps issued (runSingle x case runInfo ref overrides inputOverride) := by
  refine .bind (keeps_adapterFor overrides) fun adapter =>
    .bind (keeps_invoked h adapter _) fun answer => ?_
  cases answer with
  | error text => exact .pure _
  | ok response => exact .bind ⟨fun s => h.record adapter _ response s.world⟩ fun _ => .pure _

theorem keeps_runTurn (r : ThreadRun) (position : ℕ) (thread : Thread A) :
    Keeps issued (runTurn x r position thread) :=
  .bind (keeps_newId h "run") fun _ => .bind (keeps_runSingle h ..) fun _ => .pure _

theorem keeps_invoke {sim : UserSimulator W} (hsim : sim ∈ simulator) (turnsEmitted : ℕ)
    (history : List Object) :
    Keeps issued (sim.invoke turnsEmitted history : Scoped (Session A W) Raised _) := by
  unfold UserSimulator.invoke
  cases sim.scripted[turnsEmitted]? with
  | some reply => exact .pure _
  | none =>
    cases hjudge : sim.judge with
    | none => exact .pure _
    | some judge =>
      refine ⟨fun s => ?_⟩
      have hkept := h.judge sim hsim judge hjudge history s.world
      dsimp only
      rw [run_outside]
      dsimp only
      split <;> simp_all only

theorem keeps_runScriptedTurns (r : ThreadRun) (scripted : List Message) (position : ℕ)
    (turns : List (ℕ × ℕ)) (thread : Thread A) :
    Keeps issued (runScriptedTurns x r scripted position turns thread) := by
  induction turns generalizing position thread with
  | nil => exact .pure _
  | cons turn turns ih =>
    refine .bind (keeps_runTurn h ..) fun thread => ?_
    split_ifs
    · exact .pure _
    · exact ih _ _

theorem keeps_runSimulatorPhase (r : ThreadRun) {sim : UserSimulator W} (hsim : sim ∈ simulator)
    (left position : ℕ) (thread : Thread A) :
    Keeps issued (runSimulatorPhase x r sim left position thread) := by
  induction left generalizing position thread with
  | zero => exact .pure _
  | succ left ih =>
    unfold runSimulatorPhase
    dsimp only
    split_ifs
    · exact .pure _
    refine .bind (keeps_pause h) fun _ => .bind (keeps_invoke h hsim ..) fun answer => ?_
    cases answer with
    | none => exact .pure _
    | some response =>
      dsimp only
      split_ifs
      · exact .pure _
      refine .bind (keeps_runTurn h ..) fun thread => ?_
      split_ifs
      · exact .pure _
      · exact ih _ _

theorem keeps_runThread (r : ThreadRun) (scripted : List Message) (thread : Thread A) :
    Keeps issued (runThread x r scripted simulator thread) := by
  refine .bind (keeps_runScriptedTurns h ..) fun thread => ?_
  split_ifs
  · exact .pure _
  cases simulator with
  | none => exact .pure _
  | some sim => exact keeps_runSimulatorPhase h r rfl ..

end Issued

/-! ### Conversations -/

/-- The repetitions `reps`, each a thread: its traces, in the order they were recorded, have the
positions from zero on, under an id that no other repetition has. The simulated user made at most
`maxTurns` turns in each, and has a trace for every turn. -/
structure Threads (reps : List ℕ) (scriptedTurns maxTurns : ℕ) (threadId : ℕ → String)
    (results : List (RepetitionResult A)) (simulatorTurns : ℕ) : Prop where
  ids_inj : ∀ i ∈ reps, ∀ j ∈ reps, threadId i = threadId j → i = j
  turns : ∀ i ∈ reps, ∃ n, Turns i (threadId i) n
    (results.filter fun t => t.trace.run.repetition = i) ∧ 0 < n ∧ n ≤ scriptedTurns + maxTurns
  reps : ∀ t ∈ results, t.trace.run.repetition ∈ reps
  simulated : simulatorTurns =
    results.countP fun t => decide (scriptedTurns ≤ t.trace.run.threadPosition.getD 0)

theorem threads_nil (scriptedTurns maxTurns : ℕ) (threadId : ℕ → String) :
    Threads [] scriptedTurns maxTurns threadId ([] : List (RepetitionResult A)) 0 :=
  ⟨by simp, by simp, by simp, rfl⟩

theorem Turns.countP_position {rep n : ℕ} {threadId : String} {turns : List (RepetitionResult A)}
    (h : Turns rep threadId n turns) (k : ℕ) :
    (turns.countP fun t => decide (k ≤ t.trace.run.threadPosition.getD 0)) = n - k := by
  have hmap : (turns.countP fun t => decide (k ≤ t.trace.run.threadPosition.getD 0)) =
      ((List.range n).map some).countP fun p => decide (k ≤ p.getD 0) := by
    rw [← h.positions, List.countP_map]
    rfl
  rw [hmap, List.countP_map]
  clear hmap h
  induction n with
  | zero => simp
  | succ n ih =>
    rw [List.range_succ, List.countP_append, ih]
    by_cases hk : k ≤ n
    · simp [hk]
      omega
    · simp [hk]
      omega

/-- **A repetition** whose thread has a new id. -/
theorem Threads.snoc {reps : List ℕ} {scriptedTurns maxTurns : ℕ} {threadId : ℕ → String}
    {results turns : List (RepetitionResult A)} {simulatorTurns rep n : ℕ} {id : String}
    (h : Threads reps scriptedTurns maxTurns threadId results simulatorTurns) (hrep : rep ∉ reps)
    (hid : ∀ i ∈ reps, threadId i ≠ id) (hturns : Turns rep id n turns) (hpos : 0 < n)
    (hle : n ≤ scriptedTurns + maxTurns) :
    Threads (reps ++ [rep]) scriptedTurns maxTurns (Function.update threadId rep id)
      (results ++ turns) (simulatorTurns + (n - scriptedTurns)) where
  ids_inj i hi j hj heq := by
    rw [List.mem_append, List.mem_singleton] at hi hj
    obtain hi | rfl := hi
    · rw [Function.update_of_ne (ne_of_mem_of_not_mem hi hrep)] at heq
      obtain hj | rfl := hj
      · rw [Function.update_of_ne (ne_of_mem_of_not_mem hj hrep)] at heq
        exact h.ids_inj i hi j hj heq
      · rw [Function.update_self] at heq
        exact absurd heq (hid i hi)
    · rw [Function.update_self] at heq
      obtain hj | rfl := hj
      · rw [Function.update_of_ne (ne_of_mem_of_not_mem hj hrep)] at heq
        exact absurd heq.symm (hid j hj)
      · rfl
  turns i hi := by
    rw [List.mem_append, List.mem_singleton] at hi
    rw [List.filter_append]
    obtain hi | rfl := hi
    · have hne : i ≠ rep := ne_of_mem_of_not_mem hi hrep
      have hnone : turns.filter (fun t => t.trace.run.repetition = i) = [] := by
        refine List.filter_eq_nil_iff.mpr fun t ht => ?_
        rw [hturns.rep_eq t ht, decide_eq_true_eq]
        exact hne.symm
      rw [hnone, List.append_nil, Function.update_of_ne hne]
      exact h.turns i hi
    · have hnone : results.filter (fun t => t.trace.run.repetition = i) = [] := by
        refine List.filter_eq_nil_iff.mpr fun t ht => ?_
        rw [decide_eq_true_eq]
        exact ne_of_mem_of_not_mem (h.reps t ht) hrep
      have hall : turns.filter (fun t => t.trace.run.repetition = i) = turns :=
        List.filter_eq_self.mpr fun t ht => decide_eq_true (hturns.rep_eq t ht)
      rw [hnone, hall, List.nil_append, Function.update_self]
      exact ⟨n, hturns, hpos, hle⟩
  reps t ht := by
    obtain ht | ht := List.mem_append.mp ht
    · exact List.mem_append_left _ (h.reps t ht)
    · rw [hturns.rep_eq t ht]
      simp
  simulated := by
    rw [List.countP_append, ← h.simulated, hturns.countP_position]

variable {case : ConversationCase} {repetitions : ℤ} {labels : Labels} {overrides : Object}
  {simulator : Option (UserSimulator W)} {caseRun : CaseRun A} {issued : W → Set String}

/-- **The threads of a conversation.** -/
theorem threads_runConversation (hfresh : DrawsFresh x simulator issued)
    (h : (runConversation x case repetitions labels overrides simulator).run s =
      (.ok caseRun, s')) :
    ∃ scripted, case.conversation = .ok scripted ∧ ∃ threadId,
      Threads (List.range repetitions.toNat) (turnBoundaries scripted).length
        (simulator.elim 0 (·.maxTurns)) threadId caseRun.repetitions caseRun.simulatorTurns := by
  unfold runConversation at h
  split_ifs at h with hreps hconversation
  · cases h
  · cases h
  rw [run_bind_eq_ok] at h
  obtain ⟨scripted, s₁, hmessages, h⟩ := h
  refine ⟨scripted, (run_tryQuery_eq_ok.mp hmessages).1, ?_⟩
  split_ifs at h with hturns
  · cases h
  rw [run_bind_eq_ok] at h
  obtain ⟨_, s₁, hspec, h⟩ := h
  rw [run_bind_eq_ok] at h
  obtain ⟨ref, s₂, href, h⟩ := h
  obtain ⟨thread, s₃, hthreads, h⟩ := run_bind_eq_ok.mp h
  obtain ⟨rfl, -⟩ := by simpa using h
  -- the ids of the threads so far are issued, so that the next one is another
  have hinv : ([] ++ List.range repetitions.toNat).Nodup → ∃ threadId,
      Threads ([] ++ List.range repetitions.toNat) (turnBoundaries scripted).length
        (simulator.elim 0 (·.maxTurns)) threadId thread.results thread.simulatorTurns ∧
      ∀ i ∈ [] ++ List.range repetitions.toNat, threadId i ∈ issued s₃.world := by
    refine inv_of_run_foldlM (I := fun done thread s => done.Nodup → ∃ threadId,
      Threads done (turnBoundaries scripted).length (simulator.elim 0 (·.maxTurns)) threadId
        thread.results thread.simulatorTurns ∧ ∀ i ∈ done, threadId i ∈ issued s.world) ?_
      (fun _ => ⟨fun _ => "", threads_nil .., by simp⟩) hthreads
    intro done rep thread s thread' s' hdone hthread hnodup
    obtain ⟨hnodup, -, hnew⟩ := List.nodup_append.mp hnodup
    have hrep : rep ∉ done := fun hmem => hnew rep hmem rep (List.mem_singleton.mpr rfl) rfl
    obtain ⟨threadId, hthreads, hissued⟩ := hdone hnodup
    obtain ⟨id, s₂, hid, hthread⟩ := run_bind_eq_ok.mp hthread
    obtain ⟨rfl, rfl⟩ : (x.newPrefixedId "thread" s.world).1 = id ∧
        { s with world := (x.newPrefixedId "thread" s.world).2 } = s₂ := by simpa [newId] using hid
    obtain ⟨n, turns, hresults, hturns', hpos, hle, hsim⟩ := turns_runThread hturns hthread
    have hkept := Keeps.of_run (keeps_runThread hfresh ..) hthread
    refine ⟨Function.update threadId rep (x.newPrefixedId "thread" s.world).1, ?_, ?_⟩
    · rw [hresults, hsim]
      exact hthreads.snoc hrep (fun i hi heq => hfresh.fresh "thread" s.world (heq ▸ hissued i hi))
        hturns' hpos hle
    · intro i hi
      refine hkept (hfresh.issue "thread" s.world ?_)
      by_cases heq : i = rep
      · rw [heq, Function.update_self]
        exact .inl rfl
      · rw [Function.update_of_ne heq]
        obtain hi | hi := List.mem_append.mp hi
        · exact .inr (hissued i hi)
        · exact absurd (List.mem_singleton.mp hi) heq
  obtain ⟨threadId, hthreads, -⟩ := hinv (by simpa using List.nodup_range)
  exact ⟨threadId, by simpa using hthreads⟩

/-- **Conversations are bounded.** The loop of a thread ends, at the latest when the simulated user
has made all its turns, and the traces of the repetitions are threads. -/
theorem conversation_bounded (x : Executor A W) :
    (∀ r sim rounds position thread s, sim.maxTurns < rounds →
      (simulatorLoop x r sim rounds 0 position thread).run s =
        (((runSimulatorPhase x r sim sim.maxTurns position thread).run s).1.map some,
          ((runSimulatorPhase x r sim sim.maxTurns position thread).run s).2)) ∧
    ∀ issued case repetitions labels overrides simulator caseRun s s',
      DrawsFresh x simulator issued →
      (runConversation x case repetitions labels overrides simulator).run s = (.ok caseRun, s') →
      ∃ scripted, case.conversation = .ok scripted ∧ ∃ threadId,
        Threads (List.range repetitions.toNat) (turnBoundaries scripted).length
          (simulator.elim 0 (·.maxTurns)) threadId caseRun.repetitions caseRun.simulatorTurns :=
  ⟨fun _ _ _ position thread s hrounds =>
      run_simulatorLoop hrounds (Nat.zero_add _) position thread s,
    fun _ _ _ _ _ _ _ _ _ hfresh h => threads_runConversation hfresh h⟩

/-! ### A talk -/

/-- The world is the number of ids that were drawn. -/
def counting : Executor Unit ℕ where
  workspaceId := "ws"
  adapter := ()
  factory := none
  agent _ := none
  invoke _ _ n := (.ok { content := some "hello" }, n)
  record _ _ _ n := (.ok (), n)
  dumps _ := ""
  dumpTaxonomy _ := .null
  newPrefixedId kind n := (joined '_' kind (String.ofList (List.replicate n 'I')), n + 1)
  elsewhere n := ([], n)

/-- One scripted reply, and a judge that goes on. -/
def talkative : UserSimulator ℕ where
  maxTurns := 2
  scripted := ["more"]
  judge := some fun _ n => (.ok { content := some " and? " }, n)
  lower s := s

/-- The ids that the counter has passed. -/
def passed (n : ℕ) : Set String :=
  {id | ∃ kind, ∃ m < n, id = joined '_' kind (String.ofList (List.replicate m 'I'))}

theorem drawsFresh_counting : DrawsFresh counting (some talkative) passed where
  fresh kind n := by
    rintro ⟨kind', m, hm, heq⟩
    have hparts (k : ℕ) (s : String) :
        rpartition '_' (joined '_' s (String.ofList (List.replicate k 'I'))) =
          some (s, String.ofList (List.replicate k 'I')) :=
      rpartition_joined (by simp [List.mem_replicate])
    have hsame := congrArg (rpartition '_') heq
    rw [hparts m] at hsame
    have hlength := congrArg (fun p => p.map fun p : String × String => p.2.toList.length)
      ((hparts n kind).symm.trans hsame)
    simp at hlength
    omega
  issue kind n := by
    rintro id (rfl | ⟨kind', m, hm, rfl⟩)
    · exact ⟨kind, n, Nat.lt_succ_self n, rfl⟩
    · exact ⟨kind', m, Nat.lt_succ_of_lt hm, rfl⟩
  invoke _ _ _ := subset_rfl
  record _ _ _ _ := subset_rfl
  elsewhere _ := subset_rfl
  judge sim hsim judge hjudge history n := by
    obtain rfl := Option.some.inj hsim
    obtain rfl := Option.some.inj hjudge
    exact subset_rfl

/-- Two repetitions of one scripted turn and two of the simulated user. -/
theorem threads_talk :
    ∃ caseRun s', (runConversation counting greeting 2 {} [] (some talkative)).run ⟨.empty, 0⟩ =
        (.ok caseRun, s') ∧
      caseRun.repetitions.map (·.trace.run.threadPosition) =
        [some 0, some 1, some 2, some 0, some 1, some 2] ∧
      DrawsFresh counting (some talkative) passed ∧
      ∃ scripted, greeting.conversation = .ok scripted ∧ ∃ threadId,
        Threads (List.range 2) (turnBoundaries scripted).length 2 threadId caseRun.repetitions
          caseRun.simulatorTurns := by
  have hpositions :
      ((runConversation counting greeting 2 {} [] (some talkative)).run ⟨.empty, 0⟩).1.toOption.map
        (fun caseRun => caseRun.repetitions.map (·.trace.run.threadPosition)) =
      some [some 0, some 1, some 2, some 0, some 1, some 2] := by decide +kernel
  rcases hrun : (runConversation counting greeting 2 {} [] (some talkative)).run ⟨.empty, 0⟩ with
    ⟨e | caseRun, s'⟩
  · rw [hrun] at hpositions
    cases hpositions
  · rw [hrun] at hpositions
    exact ⟨caseRun, s', rfl, Option.some.inj hpositions, drawsFresh_counting,
      (conversation_bounded counting).2 passed greeting 2 {} [] (some talkative) caseRun _ s'
        drawsFresh_counting hrun⟩

end Selfevals.Runner.SimulatedThreads
