import Selfevals.Optimization.Repetitions

/-!
# What a conversation cost

The outcome of a case adds up cost, duration, model calls and cache hits over the repetitions it is
made of; a conversation is collapsed first, and of each thread only the trace of the final turn is
left. What the earlier turns cost is in no outcome.
-/

namespace Selfevals.Optimization.ConversationAccounting

open Lib.Mapping Graders.Base Graders.Registry Optimization.Aggregator
  Optimization.CaseOutcomes Optimization.Repetitions

/-! ### What is spent -/

/-- An execution whose traces pass the bounds of `TraceMetrics`. -/
structure MeteredExecution extends Execution where
  cost_nonneg : ∀ case rep position, 0 ≤ (invoke case rep position).totalCostUsd
  duration_nonneg : ∀ case rep position, 0 ≤ (invoke case rep position).totalDurationMs

/-- Cost, duration, model calls and cache hits. -/
@[ext] structure Totals where
  costUsd : ℚ
  durationMs : ℤ
  llmCallCount : ℤ
  cacheHitCount : ℤ

/-- What the traces add up to. -/
def totalsOf (traces : List RunTrace) : Totals where
  costUsd := (traces.map (·.totalCostUsd)).sum
  durationMs := (traces.map (·.totalDurationMs)).sum
  llmCallCount := ((traces.flatMap (·.cacheHits)).length : ℕ)
  cacheHitCount := ((traces.flatMap (·.cacheHits)).countP id : ℕ)

def outcomeTotals (o : CaseOutcome) :
    Totals := ⟨o.costUsd, o.durationMs, o.llmCallCount, o.cacheHitCount⟩

/-- **The outcome accounts for every trace** that the run of the case recorded. -/
def Accounted (exec : Execution) (graders : List Grader) (reps : ℕ) (case : EvalCase) : Prop :=
  outcomeTotals (runScenario exec graders reps case) =
    totalsOf ((repetitionsOf exec reps case).map (·.trace))

/-- The turns of one repetition of a conversation. -/
def turnsOfRep (exec : Execution) (case : EvalCase) (messages : List MessageRole) (rep : ℕ) :
    List RepetitionResult :=
  exec.runScriptedTurns case rep (exec.threadId case rep) 0 (turnCount messages)

/-- The turns that another turn of their thread follows; there are none without a conversation. -/
def earlierTurns (exec : Execution) (reps : ℕ) (case : EvalCase) : List RepetitionResult :=
  match case.messages with
  | some messages => (List.range reps).flatMap fun rep =>
    (turnsOfRep exec case messages rep).dropLast
  | none => []

/-- A trace that cost nothing, took no time and has no model call. -/
def Free (trace : RunTrace) : Prop :=
  trace.totalCostUsd = 0 ∧ trace.totalDurationMs = 0 ∧ trace.cacheHits = []

/-! ### Sums -/

section Totals
variable {traces traces' : List RunTrace}

theorem totalsOf_perm (h : traces.Perm traces') : totalsOf traces = totalsOf traces' :=
  Totals.ext (h.map _).sum_eq (h.map _).sum_eq
    (congrArg Nat.cast (h.flatMap_right _).length_eq)
      (congrArg Nat.cast ((h.flatMap_right _).countP_eq _))

theorem outcomeTotals_outcomeFor (case : EvalCase) (reps : List RepetitionResult)
    (grades : List (List GradeResult)) :
    outcomeTotals (outcomeFor case reps grades) = totalsOf (reps.map (·.trace)) := by
  simp [outcomeTotals, outcomeFor, totalsOf, List.map_map, List.flatMap_map, Function.comp_def]

/-- **What is left out adds nothing** exactly when it is free, as no amount is negative. -/
theorem totalsOf_append_eq_iff (hcost : ∀ trace ∈ traces', 0 ≤ trace.totalCostUsd)
    (hduration : ∀ trace ∈ traces', 0 ≤ trace.totalDurationMs) :
    totalsOf traces = totalsOf (traces' ++ traces) ↔ ∀ trace ∈ traces', Free trace := by
  constructor
  · intro h
    have hcosts := congrArg Totals.costUsd h
    have hdurations := congrArg Totals.durationMs h
    have hcalls := congrArg Totals.llmCallCount h
    simp only [totalsOf, List.map_append, List.sum_append, right_eq_add] at hcosts hdurations
    simp only [totalsOf, List.flatMap_append, List.length_append, Nat.cast_inj,
      right_eq_add] at hcalls
    intro trace htrace
    refine ⟨?_, ?_, ?_⟩
    · exact List.all_zero_of_le_zero_le_of_sum_eq_zero (by simpa using hcost) hcosts
        (List.mem_map_of_mem htrace)
    · exact List.all_zero_of_le_zero_le_of_sum_eq_zero (by simpa using hduration) hdurations
        (List.mem_map_of_mem htrace)
    · exact List.flatMap_eq_nil_iff.mp (List.length_eq_zero_iff.mp hcalls) trace htrace
  · intro h
    have hcosts : (traces'.map (·.totalCostUsd)).sum = 0 :=
      List.sum_eq_zero (by simpa using fun trace htrace => (h trace htrace).1)
    have hdurations : (traces'.map (·.totalDurationMs)).sum = 0 :=
      List.sum_eq_zero (by simpa using fun trace htrace => (h trace htrace).2.1)
    have hcalls : (traces'.flatMap (·.cacheHits)) = [] :=
      List.flatMap_eq_nil_iff.mpr fun trace htrace => (h trace htrace).2.2
    simp [totalsOf, hcosts, hdurations, hcalls]

end Totals

/-! ### The turns of a thread -/

/-- The order of the turns of a thread. -/
def Before (a b : RepetitionResult) : Prop :=
  a.trace.threadPosition.getD 0 ≤ b.trace.threadPosition.getD 0
deriving Decidable

section Threads
variable (exec : Execution) (case : EvalCase)

theorem pairwise_runScriptedTurns (rep : ℕ) (threadId : String) (position n : ℕ) :
    (exec.runScriptedTurns case rep threadId position n).Pairwise Before ∧
      ∀ turn ∈ exec.runScriptedTurns case rep threadId position n,
        position ≤ turn.trace.threadPosition.getD 0 := by
  induction n generalizing position with
  | zero => exact ⟨.nil, fun turn hturn => absurd hturn List.not_mem_nil⟩
  | succ n ih =>
    obtain ⟨hsorted, hle⟩ := ih (position + 1)
    have hlater : ∀ turn ∈ exec.runScriptedTurns case rep threadId (position + 1) n,
        position ≤ turn.trace.threadPosition.getD 0 := fun turn hturn => by
      have := hle turn hturn
      omega
    unfold Execution.runScriptedTurns
    dsimp only
    split_ifs
    · refine ⟨List.pairwise_singleton _ _, fun turn hturn => ?_⟩
      rw [List.mem_singleton.mp hturn]
      exact le_rfl
    · refine ⟨List.pairwise_cons.mpr ⟨hlater, hsorted⟩, fun turn hturn => ?_⟩
      rcases List.mem_cons.mp hturn with rfl | hturn
      · exact le_rfl
      · exact hlater turn hturn

theorem map_fst_turnsOf (turns : List (RepetitionResult × List GradeResult)) (threadId : String) :
    (turnsOf turns threadId).map Prod.fst =
      ((turns.map Prod.fst).filter fun turn => threadOf turn = threadId).insertionSort Before := by
  refine (List.map_insertionSort _ Before _ _ fun _ _ _ _ => Iff.rfl).trans ?_
  rw [List.filter_map]
  rfl

theorem flatMap_ite_eq {α β : Type} [DecidableEq α] {as : List α} (hnodup : as.Nodup) {a : α}
    (ha : a ∈ as) (bs : List β) : (as.flatMap fun a' => if a' = a then bs else []) = bs := by
  induction as with
  | nil => cases ha
  | cons a' as ih =>
    obtain ⟨hnot, hnodup⟩ := List.nodup_cons.mp hnodup
    rw [List.flatMap_cons]
    rcases List.mem_cons.mp ha with rfl | hmem
    · have hrest : (as.flatMap fun a' => if a' = a then bs else []) = [] :=
        List.flatMap_eq_nil_iff.mpr fun b hb => if_neg fun heq => hnot (by rwa [heq] at hb)
      rw [if_pos rfl, hrest, List.append_nil]
    · rw [if_neg fun (heq : a' = a) => hnot (heq ▸ hmem), List.nil_append, ih hnodup hmem]

/-- **A thread has the turns of its repetition**, in the order they were run. -/
theorem turns_of_thread {messages : List MessageRole} {reps rep : ℕ} (hrep : rep < reps)
    {turns : List (RepetitionResult × List GradeResult)}
    (hturns : turns.map Prod.fst = exec.runConversation case messages reps) :
    (turnsOf turns (exec.threadId case rep)).map Prod.fst = turnsOfRep exec case messages rep := by
  have hother : ∀ rep', ((turnsOfRep exec case messages rep').filter fun turn =>
      threadOf turn = exec.threadId case rep) =
        if rep' = rep then turnsOfRep exec case messages rep else [] := by
    intro rep'
    split_ifs with heq
    · rw [heq]
      exact List.filter_eq_self.mpr fun turn hturn =>
        decide_eq_true (threadOf_runScriptedTurns exec case hturn)
    · refine List.filter_eq_nil_iff.mpr fun turn hturn => ?_
      rw [threadOf_runScriptedTurns exec case hturn, decide_eq_true_iff]
      exact fun hids => heq (exec.threadId_injective case hids)
  have hfilter : (exec.runConversation case messages reps).filter (fun turn =>
      threadOf turn = exec.threadId case rep) = turnsOfRep exec case messages rep := by
    rw [Execution.runConversation, List.filter_flatMap]
    exact (List.flatMap_congr fun rep' _ => hother rep').trans
      (flatMap_ite_eq List.nodup_range (List.mem_range.mpr hrep) _)
  rw [map_fst_turnsOf, hturns, hfilter]
  exact (pairwise_runScriptedTurns exec case rep _ 0 _).1.insertionSort_eq

end Threads

/-! ### Conversations -/

section Conversation
variable (exec : Execution) (graders : List Grader) (reps : ℕ) {case : EvalCase}
  {messages : List MessageRole}

/-- **Of each thread the trace of its final turn is left.** -/
theorem finals_perm (h : case.messages = some messages) :
    ((outcomeRun exec graders reps case).1.map (·.trace)).Perm
      ((List.range reps).flatMap fun rep =>
        (turnsOfRep exec case messages rep).getLast?.toList.map (·.trace)) := by
  have hfst : ((repetitionsOf exec reps case).zip (gradesOf exec graders reps case)).map Prod.fst =
      exec.runConversation case messages reps := by
    rw [List.map_fst_zip (length_gradesOf exec reps case).ge, repetitionsOf, h]
  have hthreads := threads_perm exec case (case.turns_pos messages h) reps
  generalize hturns : (repetitionsOf exec reps case).zip (gradesOf exec graders reps case) = turns
  rw [hturns] at hfst
  have hcollapsed :
    (outcomeRun exec graders reps case).1 = (collapsedThreads turns).map Prod.fst := by
    rw [outcomeRun, if_pos (by rw [h]; rfl), collapseConversationTurns, hturns, List.unzip_fst]
  have hthread :
    ∀ rep < reps, ((turnsOf turns (exec.threadId case rep)).getLast?.toList.map fun turn =>
      turn.1.trace) = (turnsOfRep exec case messages rep).getLast?.toList.map (·.trace) := by
    intro rep hrep
    rw [← turns_of_thread exec case hrep hfst, List.getLast?_map]
    cases (turnsOf turns (exec.threadId case rep)).getLast? <;> rfl
  have hfinal : ∀ (repIndex : ℕ) (threadTurns : List (RepetitionResult × List GradeResult)),
      ((collapseThread repIndex threadTurns).toList.flatMap fun collapsed => [collapsed.1.trace]) =
        threadTurns.getLast?.toList.map fun turn => turn.1.trace := by
    intro repIndex threadTurns
    unfold collapseThread
    cases threadTurns.getLast? <;> rfl
  have horder : turns.map (fun turn => threadOf turn.1) =
      (exec.runConversation case messages reps).map threadOf := by
    rw [← hfst, List.map_map]
    rfl
  rw [hcollapsed, List.map_map, List.map_eq_flatMap]
  refine (flatMap_collapsedThreads fun repIndex threadTurns _ =>
    List.Perm.of_eq (hfinal repIndex threadTurns)).trans ?_
  rw [horder]
  refine (hthreads.flatMap_right _).trans ?_
  rw [List.flatMap_map, List.flatMap_congr fun rep hrep => hthread rep (List.mem_range.mp hrep)]

/-- **The traces of a conversation** are those of the final turns and those of the earlier ones. -/
theorem traces_perm (h : case.messages = some messages) :
    ((repetitionsOf exec reps case).map (·.trace)).Perm
      ((earlierTurns exec reps case).map (·.trace) ++ (List.range reps).flatMap fun rep =>
        (turnsOfRep exec case messages rep).getLast?.toList.map (·.trace)) := by
  have hsplit : ∀ turns :
    List RepetitionResult, turns.dropLast ++ turns.getLast?.toList = turns := by
    intro turns
    rcases hlast : turns.getLast? with _ | final
    · rw [List.getLast?_eq_none_iff.mp hlast]
      rfl
    · exact List.dropLast_append_getLast? final hlast
  have hruns : repetitionsOf exec reps case =
      (List.range reps).flatMap fun rep => (turnsOfRep exec case messages rep).dropLast ++
        (turnsOfRep exec case messages rep).getLast?.toList := by
    rw [repetitionsOf, h]
    exact List.flatMap_congr fun rep _ => (hsplit _).symm
  have hearlier : earlierTurns exec reps case =
      (List.range reps).flatMap fun rep => (turnsOfRep exec case messages rep).dropLast := by
    rw [earlierTurns, h]
  rw [hruns, hearlier]
  refine ((List.flatMap_append_perm _ _ _).symm.map _).trans ?_
  rw [List.map_append,
    List.map_flatMap (g := fun rep => (turnsOfRep exec case messages rep).getLast?.toList)]

end Conversation

/-! ### When everything is accounted for -/

theorem trace_of_mem_runScriptedTurns {exec : Execution} {case : EvalCase} {rep position n : ℕ}
    {threadId : String} {turn : RepetitionResult}
    (h : turn ∈ exec.runScriptedTurns case rep threadId position n) :
    ∃ position', turn = exec.runSingle case rep (some threadId) (some position') := by
  induction n generalizing position with
  | zero => cases h
  | succ n ih =>
    unfold Execution.runScriptedTurns at h
    dsimp only at h
    split_ifs at h
    · exact ⟨position, List.mem_singleton.mp h⟩
    · rcases List.mem_cons.mp h with rfl | h
      · exact ⟨position, rfl⟩
      · exact ih h

theorem exists_invoke_of_mem_earlierTurns {exec : Execution} {reps : ℕ} {case : EvalCase}
    {turn : RepetitionResult} (h : turn ∈ earlierTurns exec reps case) :
    ∃ rep position, turn.trace.totalCostUsd = (exec.invoke case rep position).totalCostUsd ∧
      turn.trace.totalDurationMs = (exec.invoke case rep position).totalDurationMs := by
  unfold earlierTurns at h
  split at h
  · obtain ⟨rep, -, h⟩ := List.mem_flatMap.mp h
    obtain ⟨position, rfl⟩ := trace_of_mem_runScriptedTurns (List.mem_of_mem_dropLast h)
    exact ⟨rep, position, rfl, rfl⟩
  · cases h

/-- **The outcome accounts for every trace** of the case if and only if every trace that is not that
of the final turn of its thread is free. -/
theorem traces_accounted_iff (exec : MeteredExecution) (graders : List Grader) (reps : ℕ)
    (case : EvalCase) :
    Accounted exec.toExecution graders reps case ↔
      ∀ turn ∈ earlierTurns exec.toExecution reps case, Free turn.trace := by
  unfold Accounted
  rw [runScenario, outcomeTotals_outcomeFor]
  cases hmessages : case.messages with
  | none =>
    have hreps : (outcomeRun exec.toExecution graders reps case).1 =
        repetitionsOf exec.toExecution reps case := by
      rw [outcomeRun, if_neg (by rw [hmessages]; exact Bool.false_ne_true)]
    have hnone : earlierTurns exec.toExecution reps case = [] := by rw [earlierTurns, hmessages]
    rw [hreps, hnone]
    exact ⟨fun _ turn hturn => absurd hturn List.not_mem_nil, fun _ => rfl⟩
  | some messages =>
    rw [totalsOf_perm (finals_perm exec.toExecution graders reps hmessages),
      totalsOf_perm (traces_perm exec.toExecution reps hmessages), totalsOf_append_eq_iff]
    · exact List.forall_mem_map
    · intro trace htrace
      obtain ⟨turn, hturn, rfl⟩ := List.mem_map.mp htrace
      obtain ⟨rep, position, hcost, -⟩ := exists_invoke_of_mem_earlierTurns hturn
      rw [hcost]
      exact exec.cost_nonneg case rep position
    · intro trace htrace
      obtain ⟨turn, hturn, rfl⟩ := List.mem_map.mp htrace
      obtain ⟨rep, position, -, hduration⟩ := exists_invoke_of_mem_earlierTurns hturn
      rw [hduration]
      exact exec.duration_nonneg case rep position

/-! ### A conversation of two turns -/

theorem signed_of_name (g : Grader) (_ : EvalCase) (_ : RepetitionResult) :
    ∀ name ∈ g.name,
      ({ grader := g.name.getD "", label := .pass, reason := "" } : GradeResult).grader = name := by
  intro name hname
  rw [Option.mem_def.mp hname]
  rfl

/-- Every invocation costs a dollar, and makes one model call. -/
def dollarRuns : MeteredExecution where
  invoke _ _ _ := { traceId := "tr", totalCostUsd := 1, cacheHits := [false] }
  threadId _ rep := String.ofList (List.replicate rep '1')
  grade g _ _ := { grader := g.name.getD "", label := .pass, reason := "" }
  threadId_injective _ m n h := by
    have hlength := congrArg (fun s => s.toList.length) h
    simpa using hlength
  grade_signed := signed_of_name
  cost_nonneg _ _ _ := zero_le_one
  duration_nonneg _ _ _ := le_rfl

def twoTurns : EvalCase where
  id := "case"
  messages := some [.user, .assistant, .user]
  turns_pos m hm := by
    obtain rfl := Option.some.inj (Option.mem_def.mp hm)
    decide

/-- **Two dollars are spent and one is counted.** -/
theorem not_all_accounted : ¬∀ (exec : MeteredExecution) (graders : List Grader) (reps : ℕ)
    (case : EvalCase), 0 < reps → Accounted exec.toExecution graders reps case := by
  intro h
  have hcost := congrArg Totals.costUsd (h dollarRuns [] 1 twoTurns Nat.one_pos)
  exact absurd hcost (by decide +kernel)

end Selfevals.Optimization.ConversationAccounting
