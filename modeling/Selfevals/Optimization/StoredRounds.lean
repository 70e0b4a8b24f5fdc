import Selfevals.Optimization.ConversationAccounting
import Selfevals.Optimization.IterationLoop

/-!
# The rounds of a run whose traces are stored

In process, a round runs each case once. In a sharded run the workers make attempts at the cases,
each an execution of its own: one that fails is followed by another, and leaves what it has stored
by then, some traces and perhaps its outcome. The row of a case is written over by a later attempt,
so the metric counts what was written last (`Substrate.counted`); the traces all stay.

* `countsAsPass_iff`, `scored_iff` : what the metric makes of a counted attempt, told of its turns.
-/

namespace Selfevals.Optimization.StoredRounds

open Lib.Mapping Lib.Result Lib.Sql Schemas.Base Schemas.Job Schemas.Experiments Schemas.Iterations
  Graders.Base Graders.Registry Optimization.Aggregator Optimization.CaseGraders
  Optimization.CaseOutcomes Optimization.Repetitions Optimization.PassMetrics
  Optimization.ConversationAccounting Optimization.ScenarioOutcomes Storage.ScenarioQueries
  Worker.ScenarioRunner Optimization.Coordinator
open Optimization.IterationLoop hiding Execution

/-! ### Attempts -/

/-- An execution, with the time each invocation starts. -/
structure StoredExecution extends Execution where
  startedAt : EvalCase → ℕ → ℕ → Time

/-- The turns of a case that is run once, with their grades; without a conversation there is one. -/
def turnsOfCase (exec : Execution) (graders : List Grader) (case : EvalCase) :
    List (RepetitionResult × List GradeResult) :=
  (repetitionsOf exec 1 case).zip (gradesOf exec graders 1 case)

/-- When a turn started. -/
def startOf (exec : StoredExecution) (case : EvalCase)
    (turn : RepetitionResult × List GradeResult) : Time :=
  exec.startedAt case turn.1.repetition (turn.1.trace.threadPosition.getD 0)

/-- An attempt to run a case once: how many of its traces are stored, and whether its outcome is. -/
structure Attempt where
  case : EvalCase
  exec : StoredExecution
  stored : ℕ
  written : Bool

namespace Attempt
variable (graders : List Grader) (a : Attempt)

/-- The turns of the scenario's last attempt. -/
def turns : List (RepetitionResult × List GradeResult) :=
  turnsOfCase a.exec.toExecution graders a.case

/-- The turns whose traces are stored. -/
def storedTurns : List (RepetitionResult × List GradeResult) := (a.turns graders).take a.stored

/-- What `run_scenario` makes of the attempt. -/
def outcome : CaseOutcome := runScenario a.exec.toExecution graders 1 a.case

end Attempt

/-- An attempt of a worker, at the job that it has claimed; the row of its outcome has an id and a
time. -/
structure WorkerAttempt extends Attempt where
  job : ScenarioJob
  outcomeId : String
  now : Time

/-- The rows that are written, in the order of the attempts. -/
def writtenRows (graders : List Grader) (attempts : List WorkerAttempt) : List OutcomeRow :=
  (attempts.filter (·.written)).map fun a =>
    outcomeRow a.job (a.outcome graders) a.outcomeId a.now

/-- How a round runs its cases: in process, or as jobs of a run job, over the tables that were there
before. -/
inductive Substrate
  | inProcess (exec : StoredExecution)
  | sharded (runJobId : String) (before : Store) (attempts : List WorkerAttempt)

/-- What the attempts of the workers keep to: they are at jobs of the round, a row is written when
all traces are stored, and it is the round that writes its rows first. -/
structure Drained (suite : Suite) (iteration : ℕ) (runJobId : String) (before : Store)
    (attempts : List WorkerAttempt) : Prop where
  cases : ∀ a ∈ attempts, a.case ∈ suite.cases
  jobs : ∀ a ∈ attempts, a.job.runJobId = runJobId ∧ a.job.iteration = iteration
  whole : ∀ a ∈ attempts, a.written = true → (a.turns suite.graders).length ≤ a.stored
  keys : (before.outcomes.map outcomeKey).Nodup
  fresh : ∀ row ∈ before.outcomes, ¬(row.runJobId = runJobId ∧ row.iteration = iteration)

namespace Substrate
variable (suite : Suite)

/-- The attempts at the cases, in the order in which they end. -/
def attempts : Substrate → List Attempt
  | .inProcess exec => suite.cases.map fun case =>
    { case, exec
      stored := (turnsOfCase exec.toExecution suite.graders case).length
      written := true }
  | .sharded _ _ attempts => attempts.map (·.toAttempt)

/-- What the iteration is aggregated from. -/
def execution : Substrate → IterationLoop.Execution
  | .inProcess exec => .inProcess (suite.cases.map fun case =>
    (⟨case.id⟩, runScenario exec.toExecution suite.graders 1 case))
  | .sharded runJobId before attempts => .coordinated { before with
      outcomes := (writtenRows suite.graders attempts).foldl writeScenarioOutcome
        before.outcomes } runJobId

/-- A sharded round has drained the jobs of its iteration. -/
def Sound (iteration : ℕ) : Substrate → Prop
  | .inProcess _ => True
  | .sharded runJobId before attempts => Drained suite iteration runJobId before attempts

/-- The attempt at a case whose outcome was written last. -/
def counted (s : Substrate) (case : EvalCase) : Option Attempt :=
  ((s.attempts suite).filter fun a => a.written && decide (a.case.id = case.id)).getLast?

/-- The turns of a case whose traces the round stores, of all attempts, with their executions. -/
def storedTurns (s : Substrate) (case : EvalCase) :
    List (StoredExecution × RepetitionResult × List GradeResult) :=
  ((s.attempts suite).filter fun a => a.case.id = case.id).flatMap fun a =>
    (a.storedTurns suite.graders).map fun turn => (a.exec, turn)

end Substrate

/-! ### The counted outcomes -/

section Outcomes
variable {suite : Suite} {iteration : ℕ}

theorem caseOutcomeToFields_injective : Function.Injective caseOutcomeToFields := fun o o' h => by
  have hread := caseOutcomeFromFields_toFields o
  rw [h, caseOutcomeFromFields_toFields] at hread
  exact (Option.some.inj hread).symm

theorem case_mem_of_attempt {s : Substrate} (hsound : s.Sound suite iteration) {a : Attempt}
    (ha : a ∈ s.attempts suite) : a.case ∈ suite.cases := by
  cases s with
  | inProcess exec =>
    obtain ⟨case, hcase, rfl⟩ := List.mem_map.mp ha
    exact hcase
  | sharded runJobId before attempts =>
    obtain ⟨attempt, hattempt, rfl⟩ := List.mem_map.mp ha
    exact hsound.cases attempt hattempt

theorem storedTurns_of_written {s : Substrate} (hsound : s.Sound suite iteration) {a : Attempt}
    (ha : a ∈ s.attempts suite) (hwritten : a.written = true) :
    a.storedTurns suite.graders = a.turns suite.graders := by
  refine List.take_of_length_le ?_
  cases s with
  | inProcess exec =>
    obtain ⟨case, hcase, rfl⟩ := List.mem_map.mp ha
    exact le_rfl
  | sharded runJobId before attempts =>
    obtain ⟨attempt, hattempt, rfl⟩ := List.mem_map.mp ha
    exact hsound.whole attempt hattempt hwritten

theorem counted_spec {s : Substrate} {case : EvalCase} {a : Attempt}
    (ha : s.counted suite case = some a) :
    a ∈ s.attempts suite ∧ a.written = true ∧ a.case.id = case.id := by
  obtain ⟨hmem, hof⟩ := List.mem_filter.mp (List.mem_of_getLast? ha)
  rw [Bool.and_eq_true, decide_eq_true_iff] at hof
  exact ⟨hmem, hof⟩

theorem counted_inProcess (hnodup : (suite.cases.map (·.id)).Nodup) (exec : StoredExecution)
    {case : EvalCase} (hcase : case ∈ suite.cases) :
    (Substrate.inProcess exec).counted suite case = some {
      case, exec
      stored := (turnsOfCase exec.toExecution suite.graders case).length
      written := true } := by
  unfold Substrate.counted Substrate.attempts
  rw [List.filter_map]
  have hone : suite.cases.filter (fun other => decide (other.id = case.id)) = [case] := by
    have hids := hnodup.of_map
    refine List.perm_singleton.mp ((List.perm_ext_iff_of_nodup (hids.filter _)
      (List.nodup_singleton _)).mpr fun other => ?_)
    rw [List.mem_filter, decide_eq_true_iff, List.mem_singleton]
    constructor
    · rintro ⟨hother, hid⟩
      exact eq_of_key hnodup hother hcase hid
    · rintro rfl
      exact ⟨hcase, rfl⟩
  simp only [Function.comp_def, Bool.true_and]
  rw [hone]
  rfl

section Sharded
variable {runJobId : String} {before : Store} {attempts : List WorkerAttempt}

theorem filter_writtenRows (hsound : Drained suite iteration runJobId before attempts)
    (caseId : String) :
    ((writtenRows suite.graders attempts).filter fun row =>
        outcomeKey row = (runJobId, iteration, caseId)).getLast?.map (·.fields) =
      (((attempts.map (·.toAttempt)).filter fun a =>
        a.written && decide (a.case.id = caseId)).getLast?.map fun a =>
          caseOutcomeToFields (a.outcome suite.graders)) := by
  have hfilter : (attempts.filter (·.written)).filter (fun a =>
      decide (outcomeKey (outcomeRow a.job (a.outcome suite.graders) a.outcomeId a.now) =
        (runJobId, iteration, caseId))) =
      attempts.filter fun a => a.written && decide (a.case.id = caseId) := by
    rw [List.filter_filter]
    refine List.filter_congr fun a ha => ?_
    obtain ⟨hrun, hit⟩ := hsound.jobs a ha
    have hkey : outcomeKey (outcomeRow a.job (a.outcome suite.graders) a.outcomeId a.now) =
        (a.job.runJobId, a.job.iteration, a.case.id) := rfl
    rw [hkey, hrun, hit, Bool.and_comm]
    simp
  rw [writtenRows, List.filter_map, List.filter_map, List.getLast?_map, List.getLast?_map,
    Option.map_map, Option.map_map]
  simp only [Function.comp_def] at hfilter ⊢
  rw [hfilter]
  rfl

theorem mem_fields_iff (hsound : Drained suite iteration runJobId before attempts)
    (fields : OutcomeFields) :
    fields ∈ scenarioOutcomesForIteration ((writtenRows suite.graders attempts).foldl
        writeScenarioOutcome before.outcomes) runJobId iteration ↔
      ∃ case ∈ suite.cases, ((Substrate.sharded runJobId before attempts).counted suite case).map
        (fun a => caseOutcomeToFields (a.outcome suite.graders)) = some fields := by
  -- what the table holds of a case is what was written of it last
  have hlast : ∀ {r : OutcomeRow}, r ∈ outcomesOfIteration ((writtenRows suite.graders
      attempts).foldl writeScenarioOutcome before.outcomes) runJobId iteration →
      (((attempts.map (·.toAttempt)).filter fun a =>
        a.written && decide (a.case.id = r.fields.caseId)).getLast?.map fun a =>
          caseOutcomeToFields (a.outcome suite.graders)) = some r.fields := by
    intro r hr
    obtain ⟨hmem, hrun, hit⟩ := mem_outcomesOfIteration.mp hr
    rcases mem_foldl_write _ hmem with ⟨row, hrow, hfields⟩ | ⟨hold, -⟩
    · have hkey : outcomeKey r = (runJobId, iteration, r.fields.caseId) := by
        rw [outcomeKey, hrun, hit]
      rw [hkey] at hrow
      rw [← filter_writtenRows hsound, hrow, Option.map_some, hfields]
    · exact absurd ⟨hrun, hit⟩ (hsound.fresh r hold)
  rw [scenarioOutcomesForIteration, List.mem_map]
  constructor
  · rintro ⟨r, hr, rfl⟩
    have hcounted := hlast hr
    obtain ⟨a, ha, heq⟩ := Option.map_eq_some_iff.mp hcounted
    obtain ⟨hmem, hof⟩ := List.mem_filter.mp (List.mem_of_getLast? ha)
    rw [Bool.and_eq_true, decide_eq_true_iff] at hof
    obtain ⟨attempt, hattempt, rfl⟩ := List.mem_map.mp hmem
    refine ⟨attempt.case, hsound.cases attempt hattempt, ?_⟩
    rw [Substrate.counted, Substrate.attempts, hof.2]
    exact hcounted
  · rintro ⟨case, -, hcounted⟩
    obtain ⟨a, ha, rfl⟩ := Option.map_eq_some_iff.mp hcounted
    obtain ⟨hmem, hof⟩ := List.mem_filter.mp (List.mem_of_getLast? ha)
    rw [Bool.and_eq_true, decide_eq_true_iff] at hof
    obtain ⟨attempt, hattempt, rfl⟩ := List.mem_map.mp hmem
    obtain ⟨hrun, hit⟩ := hsound.jobs attempt hattempt
    have hkey : (runJobId, iteration, case.id) ∈
        (writtenRows suite.graders attempts).map outcomeKey := by
      refine List.mem_map.mpr ⟨_, List.mem_map_of_mem
        (List.mem_filter.mpr ⟨hattempt, hof.1⟩), ?_⟩
      show (attempt.job.runJobId, attempt.job.iteration, attempt.case.id) = _
      rw [hrun, hit, hof.2]
    obtain ⟨r, hr, heq⟩ := List.mem_map.mp (key_mem_foldl_write _ (.inr hkey))
    obtain ⟨hrun', hit', hcase'⟩ : r.runJobId = runJobId ∧ r.iteration = iteration ∧
        r.fields.caseId = case.id := by simpa [outcomeKey] using heq
    have hmem := mem_outcomesOfIteration.mpr ⟨hr, hrun', hit'⟩
    refine ⟨r, hmem, ?_⟩
    have hwritten := hlast hmem
    rw [hcase'] at hwritten
    exact Option.some.inj (hwritten.symm.trans hcounted)

theorem exists_outcomes_of_rows (hnodup : (suite.cases.map (·.id)).Nodup)
    (hsound : Drained suite iteration runJobId before attempts) :
    ∃ outcomes : List CaseOutcome, outcomes.Perm (suite.cases.filterMap fun case =>
        ((Substrate.sharded runJobId before attempts).counted suite case).map
          (·.outcome suite.graders)) ∧
      scenarioOutcomesForIteration ((writtenRows suite.graders attempts).foldl
        writeScenarioOutcome before.outcomes) runJobId iteration =
          outcomes.map caseOutcomeToFields := by
  let table : Store := { before with
    outcomes := (writtenRows suite.graders attempts).foldl writeScenarioOutcome before.outcomes }
  have hkeys : (table.outcomes.map outcomeKey).Nodup := nodup_foldl_write _ hsound.keys
  have hrows := @nodup_row_cases table runJobId iteration hkeys
  obtain ⟨outcomes, houtcomes⟩ := exists_outcomes (outcomesOfIteration table.outcomes runJobId
    iteration) fun r hr => by
      obtain ⟨case, -, hcounted⟩ := (mem_fields_iff hsound r.fields).mp (List.mem_map_of_mem hr)
      obtain ⟨a, -, heq⟩ := Option.map_eq_some_iff.mp hcounted
      exact ⟨_, heq.symm⟩
  refine ⟨outcomes, (List.perm_ext_iff_of_nodup ?_ ?_).mpr fun o => ?_, houtcomes⟩
  · have hids : outcomes.map (·.caseId) =
        (outcomesOfIteration table.outcomes runJobId iteration).map (·.fields.caseId) := by
      have := congrArg (List.map OutcomeFields.caseId) houtcomes
      rw [List.map_map, List.map_map] at this
      exact this.symm
    rw [← hids] at hrows
    exact hrows.of_map
  · have hids : suite.cases.Pairwise fun case case' => case.id ≠ case'.id :=
      List.pairwise_map.mp hnodup
    refine hids.filterMap _ fun case case' hne o ho o' ho' heq => hne ?_
    obtain ⟨a, ha, rfl⟩ := Option.map_eq_some_iff.mp ho
    obtain ⟨a', ha', rfl⟩ := Option.map_eq_some_iff.mp ho'
    rw [← (counted_spec ha).2.2, ← (counted_spec ha').2.2]
    exact congrArg CaseOutcome.caseId heq
  · have hiff := mem_fields_iff hsound (caseOutcomeToFields o)
    rw [show scenarioOutcomesForIteration _ runJobId iteration = _ from houtcomes,
      List.mem_map_of_injective caseOutcomeToFields_injective] at hiff
    rw [hiff, List.mem_filterMap]
    refine exists_congr fun case => and_congr_right fun _ => ?_
    simp only [Option.map_eq_some_iff, caseOutcomeToFields_injective.eq_iff]

end Sharded

/-- **An iteration aggregates the counted outcomes**, one for each case that has any. -/
theorem caseOutcomes_of_run {s : Substrate} (hnodup : (suite.cases.map (·.id)).Nodup)
    (hsound : s.Sound suite iteration) {e : Experiment} {aggregate : IterationAggregate}
    {caseRuns : List CaseRun}
    (h : runIteration e iteration (s.execution suite) = some (aggregate, caseRuns)) :
    aggregate.caseOutcomes.Perm (suite.cases.filterMap fun case =>
        (s.counted suite case).map (·.outcome suite.graders)) ∧
      aggregateIteration aggregate.caseOutcomes e.target.primary.name
        (some e.reliability.metrics) e.target.primaryGrader = .ok aggregate := by
  suffices ∃ outcomes : List CaseOutcome, outcomes.Perm (suite.cases.filterMap fun case =>
        (s.counted suite case).map (·.outcome suite.graders)) ∧
      aggregateIteration outcomes e.target.primary.name (some e.reliability.metrics)
        e.target.primaryGrader = .ok aggregate by
    obtain ⟨outcomes, hperm, haggregate⟩ := this
    rw [(caseOutcomes_of_ok haggregate).1]
    exact ⟨hperm, haggregate⟩
  cases s with
  | inProcess exec =>
    refine ⟨_, .refl _, ?_⟩
    have hcounted : (suite.cases.filterMap fun case =>
        ((Substrate.inProcess exec).counted suite case).map (·.outcome suite.graders)) =
        suite.cases.map (runScenario exec.toExecution suite.graders 1) := by
      rw [← List.filterMap_eq_map]
      refine List.filterMap_congr fun case hcase => ?_
      rw [counted_inProcess hnodup exec hcase]
      rfl
    rw [hcounted]
    unfold runIteration Substrate.execution at h
    dsimp only at h
    rw [List.map_map] at h
    split at h
    next aggregate' heq =>
      obtain ⟨rfl, -⟩ := Prod.mk.inj (Option.some.inj h)
      exact heq
    next => cases h
  | sharded runJobId before attempts =>
    obtain ⟨outcomes, hperm, hrows⟩ := exists_outcomes_of_rows hnodup hsound
    refine ⟨outcomes, hperm, ?_⟩
    unfold runIteration Substrate.execution at h
    dsimp only at h
    rw [aggregateIterationFromStorage, hrows, aggregateRows_toFields] at h
    split at h
    next aggregate' heq =>
      obtain ⟨rfl, -⟩ := Prod.mk.inj (Option.some.inj h)
      exact Option.some.inj heq
    next => cases h

/-- **The metric of an iteration** is the share of the scored cases that count as a pass. -/
theorem primaryValue_of_run {s : Substrate} (hnodup : (suite.cases.map (·.id)).Nodup)
    (hsound : s.Sound suite iteration) {e : Experiment}
    (hprimary : e.target.primary.name = "pass@1") {aggregate : IterationAggregate}
    {caseRuns : List CaseRun}
    (h : runIteration e iteration (s.execution suite) = some (aggregate, caseRuns)) :
    aggregate.primaryValue =
      ((suite.cases.countP fun case => ∃ a ∈ s.counted suite case,
          CountsAsPass (a.outcome suite.graders) e.target.primaryGrader) : ℚ) /
        suite.cases.countP fun case => ∃ a ∈ s.counted suite case,
          Scored (a.outcome suite.graders) e.target.primaryGrader := by
  obtain ⟨hperm, haggregate⟩ := caseOutcomes_of_run hnodup hsound h
  generalize aggregate.caseOutcomes = outcomes at hperm haggregate
  -- a case without a counted attempt is in neither count
  have hcount : ∀ (p : CaseOutcome → Prop) [DecidablePred p], outcomes.countP (fun o => p o) =
      suite.cases.countP fun case => ∃ a ∈ s.counted suite case, p (a.outcome suite.graders) := by
    intro p _
    rw [hperm.countP_eq, List.countP_filterMap]
    refine List.countP_congr fun case _ => ?_
    cases s.counted suite case <;> simp
  have hpass := hcount fun o => CountsAsPass o e.target.primaryGrader
  have hscored := hcount fun o => Scored o e.target.primaryGrader
  rw [← hpass, ← hscored]
  by_cases hne : outcomes.length = 0
  · rw [aggregateIteration, if_pos hne] at haggregate
    obtain rfl := Except.ok.inj haggregate
    rw [List.length_eq_zero_iff.mp hne]
    simp
  · rw [aggregateIteration_eq hne, hprimary, computeMetric_passAt1] at haggregate
    obtain ⟨value, hvalue, haggregate⟩ := bind_eq_ok.mp haggregate
    obtain ⟨reliability, -, haggregate⟩ := bind_eq_ok.mp haggregate
    obtain rfl := Except.ok.inj hvalue
    obtain rfl := Except.ok.inj haggregate
    rfl

end Outcomes

/-! ### The outcome of a case that is run once -/

/-- What the metric takes of a turn's grades: all pass, or the first that the primary grader signs.
-/
def Counted (grades : List GradeResult) : Option String → Prop
  | none => grades ≠ [] ∧ AllPass grades
  | some grader => (grades.find? fun r => r.grader = grader).map (·.label) = some .pass

instance (grades : List GradeResult) : DecidablePred (Counted grades)
  | none => inferInstanceAs (Decidable (grades ≠ [] ∧ ∀ r ∈ grades, r.label = .pass))
  | some grader => inferInstanceAs
    (Decidable ((grades.find? fun r => r.grader = grader).map (·.label) = some .pass))

/-- A turn failed. -/
def Failed (turns : List (RepetitionResult × List GradeResult)) : Prop :=
  ∃ turn ∈ turns, turn.1.error.isSome = true
deriving Decidable

/-- The metric is taken over the case: no turn failed and no grade of the final turn is an error, or
the primary grader signs a grade of the final turn. -/
def Judged (turns : List (RepetitionResult × List GradeResult)) : Option String → Prop
  | none => ¬Failed turns ∧ ∃ last ∈ turns.getLast?, ∀ r ∈ last.2, r.label ≠ .error
  | some grader => ∃ last ∈ turns.getLast?, ∃ r ∈ last.2, r.grader = grader

/-- The metric counts the case: so say the grades of the final turn, and without a primary grader no
turn failed. -/
def Passed (turns : List (RepetitionResult × List GradeResult)) (primaryGrader : Option String) :
    Prop :=
  (∃ last ∈ turns.getLast?, Counted last.2 primaryGrader) ∧
    (primaryGrader = none → ¬Failed turns)
deriving Decidable

instance (turns : List (RepetitionResult × List GradeResult)) : DecidablePred (Judged turns)
  | none => by
    unfold Judged
    infer_instance
  | some _ => by
    unfold Judged
    infer_instance

section Case
variable (exec : Execution) (graders : List Grader) (case : EvalCase)

theorem map_fst_turnsOfCase :
    (turnsOfCase exec graders case).map Prod.fst = repetitionsOf exec 1 case :=
  List.map_fst_zip (length_gradesOf exec 1 case).ge

theorem turnsOfCase_ne_nil : turnsOfCase exec graders case ≠ [] := by
  have hfst := map_fst_turnsOfCase exec graders case
  intro hnil
  rw [hnil, List.map_nil] at hfst
  unfold repetitionsOf at hfst
  split at hfst
  next messages hmessages =>
    exact runScriptedTurns_ne_nil exec case (exec.threadId case 0)
      (case.turns_pos messages hmessages) (by simpa [Execution.runConversation] using hfst.symm)
  next => exact absurd hfst (by simp [Execution.runCase])

/-- **The one repetition is graded as the final turn.** -/
theorem outcomeRun_one {last : RepetitionResult × List GradeResult}
    (hlast : last ∈ (turnsOfCase exec graders case).getLast?) :
    ∃ rep grades, outcomeRun exec graders 1 case = ([rep], [grades]) ∧
      (rep.error.isSome = true ↔ Failed (turnsOfCase exec graders case)) ∧
      grades.map (fun r => (r.grader, r.label)) = last.2.map fun r => (r.grader, r.label) := by
  have hfst := map_fst_turnsOfCase exec graders case
  rcases hmessages : case.messages with _ | messages
  · have hreps : repetitionsOf exec 1 case = [exec.runSingle case 0 none none] := by
      rw [repetitionsOf, hmessages]
      rfl
    have hlength : (gradesOf exec graders 1 case).length = 1 :=
      (length_gradesOf exec 1 case).trans (congrArg List.length hreps)
    obtain ⟨grades, hgrades⟩ := List.length_eq_one_iff.mp hlength
    rw [turnsOfCase, hreps, hgrades] at hlast ⊢
    have hpair : (exec.runSingle case 0 none none, grades) = last := Option.some.inj hlast
    subst hpair
    exact ⟨_, _, by rw [outcomeRun, if_neg (by simp [hmessages]), hreps, hgrades],
      by simp [Failed], rfl⟩
  · have hrun : repetitionsOf exec 1 case = exec.runConversation case messages 1 := by
      rw [repetitionsOf, hmessages]
    have hturns : repetitionsOf exec 1 case = turnsOfRep exec case messages 0 := by
      rw [hrun]
      exact List.append_nil _
    have horder : firstSeen ((turnsOfCase exec graders case).map fun turn => threadOf turn.1) =
        [exec.threadId case 0] := by
      have hthreads := threads_perm exec case (case.turns_pos messages hmessages) 1
      rw [← hrun, ← hfst, List.map_map] at hthreads
      exact List.perm_singleton.mp hthreads
    -- all turns are of the one thread, in order
    have hthread : turnsOf (turnsOfCase exec graders case) (exec.threadId case 0) =
        turnsOfCase exec graders case := by
      have hall : (turnsOfCase exec graders case).filter
          (fun turn => threadOf turn.1 = exec.threadId case 0) = turnsOfCase exec graders case := by
        refine List.filter_eq_self.mpr fun turn hturn => decide_eq_true ?_
        have hmem := List.mem_map_of_mem (f := Prod.fst) hturn
        rw [hfst, hturns] at hmem
        exact threadOf_runScriptedTurns exec case hmem
      have hsorted := (pairwise_runScriptedTurns exec case 0 (exec.threadId case 0) 0
        (turnCount messages)).1
      rw [turnsOf, hall]
      refine List.Pairwise.insertionSort_eq
        (List.pairwise_map (f := Prod.fst) (R := Before) |>.mp ?_)
      rw [hfst, hturns]
      exact hsorted
    have hcollapsed : collapsedThreads (turnsOfCase exec graders case) =
        [({ repetition := 0
            trace := last.1.trace
            error := ((turnsOfCase exec graders case).filterMap fun turn => turn.1.error).head? },
          last.2.mapIdx (syntheticGrade (turnsOfCase exec graders case)))] := by
      rw [collapsedThreads, horder]
      show ([collapseThread 0 _] : List (Option _)).reduceOption = _
      rw [hthread, collapseThread, Option.mem_def.mp hlast]
      rfl
    have houtcome : outcomeRun exec graders 1 case =
        (collapsedThreads (turnsOfCase exec graders case)).unzip := by
      rw [outcomeRun, if_pos (by rw [hmessages]; rfl), collapseConversationTurns]
      rfl
    rw [hcollapsed] at houtcome
    refine ⟨_, _, houtcome, ?_, map_mapIdx_syntheticGrade last.2 _ fun _ _ => rfl⟩
    rw [List.isSome_head?, Failed, Ne, List.filterMap_eq_nil_iff]
    simp [Option.isSome_iff_ne_none]

theorem exists_labels {last : RepetitionResult × List GradeResult}
    (hlast : last ∈ (turnsOfCase exec graders case).getLast?) :
    (runScenario exec graders 1 case).perRepetitionLabel =
        [if Failed (turnsOfCase exec graders case) then .error
          else pickLabel (last.2.map (·.label))] ∧
      ∀ grader, ((runScenario exec graders 1 case).perGraderLabel.get? grader).bind List.head? =
        (last.2.find? fun r => r.grader = grader).map (·.label) := by
  obtain ⟨rep, grades, hrun, hfailed, hsigned⟩ := outcomeRun_one exec graders case hlast
  have hlabels : grades.map (·.label) = last.2.map (·.label) := by
    simpa [Function.comp_def] using congrArg (List.map Prod.snd) hsigned
  have hscenario : runScenario exec graders 1 case = outcomeFor case [rep] [grades] := by
    rw [runScenario, hrun]
  rw [hscenario]
  constructor
  · have hlabel : (outcomeFor case [rep] [grades]).perRepetitionLabel =
        [if rep.error.isSome then .error else pickLabel (grades.map (·.label))] := rfl
    rw [hlabel, hlabels]
    simp only [hfailed]
  · intro grader
    have hget : (outcomeFor case [rep] [grades]).perGraderLabel.get? grader = _ :=
      get?_perGraderLabel case grader
    dsimp only at hget
    rw [List.flatten_singleton] at hget
    -- the first label by a grader is that of the first grade it signs
    have hhead : ((outcomeFor case [rep] [grades]).perGraderLabel.get? grader).bind List.head? =
        ((grades.map fun r => (r.grader, r.label)).find? fun r => r.1 = grader).map Prod.snd := by
      rw [hget, List.find?_map, Option.map_map]
      split_ifs with hnil
      · rw [List.map_eq_nil_iff, List.filter_eq_nil_iff] at hnil
        exact (congrArg (Option.map _) (List.find?_eq_none.mpr hnil)).symm
      · rw [Option.bind_some, List.head?_map, List.head?_filter]
        rfl
    rw [hhead, hsigned, List.find?_map, Option.map_map]
    rfl

/-- **The metric counts the case by its final turn.** -/
theorem countsAsPass_iff (primaryGrader : Option String) :
    CountsAsPass (runScenario exec graders 1 case) primaryGrader ↔
      Passed (turnsOfCase exec graders case) primaryGrader := by
  obtain ⟨last, hlast⟩ := Option.isSome_iff_exists.mp
    (List.getLast?_isSome.mpr (turnsOfCase_ne_nil exec graders case))
  obtain ⟨hlabel, hsigned⟩ := exists_labels exec graders case hlast
  have hpassed : Passed (turnsOfCase exec graders case) primaryGrader ↔
      Counted last.2 primaryGrader ∧
        (primaryGrader = none → ¬Failed (turnsOfCase exec graders case)) := by
    unfold Passed
    rw [hlast]
    simp
  rw [hpassed]
  cases primaryGrader with
  | none =>
    have hpick : pickLabel (last.2.map (·.label)) = .pass ↔ _ := pickLabel_eq_pass_iff
    rw [Ne, List.map_eq_nil_iff, List.forall_mem_map] at hpick
    refine (passAt1_eq_one_iff _).trans ?_
    rw [hlabel, List.head?_cons, Option.some.injEq, Counted, AllPass]
    by_cases hfailed : Failed (turnsOfCase exec graders case)
    · simp [hfailed]
    · rw [if_neg hfailed, hpick]
      simp [hfailed]
  | some grader =>
    refine (passAt1ForGrader_eq_one_iff _ grader).trans ?_
    rw [hsigned, Counted]
    simp

theorem scored_iff (primaryGrader : Option String) :
    Scored (runScenario exec graders 1 case) primaryGrader ↔
      Judged (turnsOfCase exec graders case) primaryGrader := by
  obtain ⟨last, hlast⟩ := Option.isSome_iff_exists.mp
    (List.getLast?_isSome.mpr (turnsOfCase_ne_nil exec graders case))
  obtain ⟨hlabel, hsigned⟩ := exists_labels exec graders case hlast
  cases primaryGrader with
  | none =>
    rw [Scored, CaseOutcome.errored, hlabel, List.head?_cons, Judged, hlast]
    by_cases hfailed : Failed (turnsOfCase exec graders case)
    · simp [hfailed]
    · have hpick := @pickLabel_eq_error_iff (last.2.map (·.label))
      simp [hfailed, hpick]
  | some grader =>
    rw [Scored, isSome_passAt1ForGrader_iff, hsigned, Judged, hlast]
    simp

end Case

theorem primary_of_round {e : Experiment} {iteration : ℕ} {baseline : Option IterationAggregate}
    {input : IterationInput} {it : IterationOutcome} (h : runRound e iteration baseline input =
      some it) :
    it.iteration = iteration ∧
      it.iterationRecord.metrics.map (·.primary.value) = some it.aggregate.primaryValue := by
  simp only [runRound, Option.bind_eq_bind, Option.bind_eq_some_iff] at h
  obtain ⟨⟨aggregate, caseRuns⟩, -, record, hrecord, hit⟩ := h
  obtain rfl := Option.some.inj hit
  refine ⟨rfl, ?_⟩
  simp only [buildIterationRecord, Option.bind_eq_bind, Option.bind_eq_some_iff] at hrecord
  obtain ⟨metrics, hmetrics, hrecord⟩ := hrecord
  split_ifs at hrecord
  obtain rfl := Option.some.inj hrecord
  unfold iterationMetrics at hmetrics
  obtain ⟨_, heq⟩ := Option.dite_none_right_eq_some.mp hmetrics
  obtain rfl := Option.some.inj heq
  rfl

end Selfevals.Optimization.StoredRounds
