import Selfevals.Optimization.StoredRounds
import Selfevals.Reporter.StoredReports

/-!
# The results grid

`experiment_results` lists the cases of the best iteration. What it says of a case is read from the
trace that started first, of which it takes the first grader's result; the metric counts a case by
the final turn of the attempt whose outcome was written last, and by all graders or the primary one.
-/

namespace Selfevals.Api.ResultsGrid

open Lib.Mapping Lib.Result Lib.Sql Schemas.Base Schemas.Enums Schemas.Experiments
  Schemas.Iterations Graders.Base Graders.Registry Optimization.Aggregator Optimization.CaseGraders
  Optimization.CaseOutcomes Optimization.Repetitions Optimization.PassMetrics
  Optimization.StoredRounds
open Optimization.IterationLoop hiding Execution
open Optimization.Coordinator (onceRun)
open Schemas.Job Worker.ScenarioRunner Reporter.StoredReports

/-! ### The query -/

/-- A `GraderResult` of a trace. -/
structure TraceGraderResult where
  grader : String
  label : String
  score : Option ℚ
  failureModes : List String
deriving DecidableEq, Repr

/-- `to_trace_grader_result`. -/
def toTraceGraderResult (grade : GradeResult) : TraceGraderResult where
  grader := grade.grader
  label := Coded.value grade.label
  score := grade.score
  failureModes := grade.failureModes

/-- What the grid reads of a trace. -/
structure Trace where
  id : String
  experimentId : Option String
  iteration : Option ℕ
  evalCaseId : Option String
  startedAt : Time
  graderResults : List TraceGraderResult
deriving DecidableEq, Repr

/-- The row of a scenario in the grid. -/
structure ScenarioResult where
  caseId : String
  traceId : Option String := none
  iteration : ℕ
  matched : Option Bool := none
  score : Option ℚ := none
  label : Option String := none
  startedAt : Option Time := none
  failureModes : List String := []
  graderResults : List TraceGraderResult := []
deriving DecidableEq, Repr

/-- The grid of an experiment. -/
structure ExperimentResultsResponse where
  experimentId : String
  iteration : Option ℕ
  cases : List ScenarioResult
  total : ℕ
deriving DecidableEq, Repr

/-- `_scenario_result`, without the views of what was expected and detected. -/
def scenarioResult (caseId : String) (trace : Option Trace) (iteration : ℕ) : ScenarioResult :=
  match trace with
  | none => { caseId, iteration }
  | some trace =>
    let primary := trace.graderResults.head?
    { caseId
      traceId := some trace.id
      iteration := trace.iteration.getD iteration
      matched := primary.map fun result => result.label == "pass"
      score := primary.bind (·.score)
      label := primary.map (·.label)
      startedAt := some trace.startedAt
      failureModes := sortedSet (trace.graderResults.flatMap (·.failureModes))
      graderResults := trace.graderResults }

/-- The number and the primary metric of each iteration that has metrics. -/
def scoredIterations (iterations : List IterationRecord) : List (ℕ × ℚ) :=
  iterations.filterMap fun it => it.metrics.map fun metrics => (it.iteration, metrics.primary.value)

/-- The first of the best iterations. -/
def bestIteration (iterations : List IterationRecord) : Option ℕ :=
  ((scoredIterations iterations).argmax Prod.snd).map Prod.fst

/-- The rows of `SELECT id FROM traces WHERE …` of `traces_for_experiment_iteration`. -/
def ofIteration (experimentId : String) (iteration : ℕ) (trace : Trace) : Bool :=
  trace.experimentId == some experimentId && trace.iteration == some iteration

/-- The traces of each case, in the order they are listed. -/
def tracesByCase (traces : List Trace) : Dict String (List Trace) :=
  .gather (traces.filterMap fun trace => trace.evalCaseId.map fun caseId => (caseId, trace))

/-- `experiment_results` of an experiment that is found, given the iteration records of its
workspace, what the query lists for an iteration, and the experiment's cases. The turns of a case,
which are shown on request, are left out. -/
def experimentResults (experimentId : String) (records : List IterationRecord)
    (tracesForIteration : ℕ → List Trace) (caseIds : List String) : ExperimentResultsResponse :=
  match bestIteration (experimentIterations records experimentId) with
  | none => { experimentId, iteration := none, cases := [], total := 0 }
  | some best =>
    let traces := tracesByCase (tracesForIteration best)
    let rows := (sortedSet (caseIds ++ traces.keys)).map fun caseId =>
      scenarioResult caseId ((traces.get? caseId).bind List.head?) best
    { experimentId, iteration := some best, cases := rows, total := rows.length }

section Query
variable {experimentId : String} {records : List IterationRecord} {listed : ℕ → List Trace}
  {caseIds : List String} {best : ℕ}

theorem under_evalCaseId (traces : List Trace) (caseId : String) :
    Dict.under caseId (traces.filterMap fun trace =>
      trace.evalCaseId.map fun caseId => (caseId, trace)) =
      traces.filter fun trace => trace.evalCaseId = some caseId := by
  induction traces with
  | nil => rfl
  | cons trace traces ih =>
    unfold Dict.under at ih ⊢
    rcases hcase : trace.evalCaseId with _ | other
    · rw [List.filterMap_cons_none
        (by rw [hcase]; rfl), List.filter_cons_of_neg (by simp [hcase]), ih]
    · rw [List.filterMap_cons_some (b := (other, trace)) (by rw [hcase]; rfl)]
      by_cases hid : other = caseId
      · rw [List.filter_cons_of_pos (by simpa using hid), List.map_cons,
          List.filter_cons_of_pos (by simp [hcase, hid]), ih]
      · rw [List.filter_cons_of_neg (by simpa using hid),
          List.filter_cons_of_neg (by simp [hcase, hid]), ih]

theorem head?_get?_tracesByCase (traces : List Trace) (caseId : String) :
    ((tracesByCase traces).get? caseId).bind List.head? =
      (traces.filter fun trace => trace.evalCaseId = some caseId).head? := by
  rw [tracesByCase, Dict.get?_gather, under_evalCaseId]
  split_ifs with hnil
  · rw [hnil]
    rfl
  · rfl

/-- **A case has one row**, made of its trace that is listed first. -/
theorem mem_cases_experimentResults
    (hbest : (experimentResults experimentId records listed caseIds).iteration = some best)
    {caseId : String} {first : Trace}
    (hfirst : ((listed best).filter fun trace => trace.evalCaseId = some caseId).head? = some first)
    (row : ScenarioResult) :
    row ∈ (experimentResults experimentId records listed caseIds).cases ∧ row.caseId = caseId ↔
      row = scenarioResult caseId (some first) best := by
  unfold experimentResults at hbest ⊢
  rcases hiteration : bestIteration (experimentIterations records experimentId) with _ | best'
  · rw [hiteration] at hbest
    cases hbest
  rw [hiteration] at hbest
  obtain rfl := Option.some.inj hbest
  dsimp only
  have hget := head?_get?_tracesByCase (listed best') caseId
  rw [hfirst] at hget
  constructor
  · rintro ⟨hrow, hid⟩
    obtain ⟨caseId', -, rfl⟩ := List.mem_map.mp hrow
    have heq : caseId' = caseId := by
      rw [← hid]
      unfold scenarioResult
      split <;> rfl
    rw [heq, hget]
  · rintro rfl
    refine ⟨List.mem_map.mpr ⟨caseId,
      mem_sortedSet.mpr (List.mem_append_right _ ?_), by rw [hget]⟩, rfl⟩
    rw [Dict.mem_keys_iff]
    obtain ⟨traces, htraces, -⟩ := Option.bind_eq_some_iff.mp hget
    rw [htraces]
    rfl

end Query

/-! ### Runs -/

/-- The trace of a turn, as it is stored. -/
def storedTrace (experimentId : String) (iteration : ℕ) (exec : StoredExecution) (case : EvalCase)
    (turn : RepetitionResult × List GradeResult) : Trace where
  id := turn.1.trace.id
  experimentId := some experimentId
  iteration := some iteration
  evalCaseId := some case.id
  startedAt := startOf exec case turn
  graderResults := turn.2.map toTraceGraderResult

/-- What one round of a run takes from outside. -/
structure Round where
  substrate : Substrate
  proposal : Proposal
  outcome : DecisionOutcome
  rationale : String

/-- What a round gives to its iteration. -/
def roundInput (suite : Suite) (round : Round) : IterationInput where
  proposal := round.proposal
  execution := round.substrate.execution suite
  outcome := round.outcome
  rationale := round.rationale

/-- A run of an experiment for `pass@1`, in process or sharded, with one repetition of each case,
whose traces are all stored. -/
structure GridRun where
  experiment : Experiment
  suite : Suite
  rounds : List Round
  live : List IterationOutcome
  primary : experiment.target.primary.name = "pass@1"
  cases_nodup : (suite.cases.map (·.id)).Nodup
  sound : ∀ (i : ℕ) (round : Round), rounds[i]? = some round → round.substrate.Sound suite i
  ran : runIterations experiment 0 none (rounds.map (roundInput suite)) = some live

namespace GridRun
variable (run : GridRun)

/-- The traces that the run stores, under ids of their own. -/
def traces : List Trace :=
  run.rounds.zipIdx.flatMap fun (round, iteration) =>
    (round.substrate.attempts run.suite).flatMap fun a =>
      (a.storedTurns run.suite.graders).map (storedTrace run.experiment.id iteration a.exec a.case)

/-- The first of the rounds with the best primary metric. -/
def best : Option ℕ :=
  ((run.live.map fun it => (it.iteration, it.aggregate.primaryValue)).argmax Prod.snd).map Prod.fst

end GridRun

/-- A workspace in which a run is stored, beside what other experiments left. -/
structure Workspace (run : GridRun) where
  otherRecords : List IterationRecord
  otherTraces : List Trace
  records : List IterationRecord
  /-- What `traces_for_experiment_iteration` returns. -/
  tracesForIteration : ℕ → List Trace
  caseIds : List String
  records_perm : records.Perm (run.live.map (·.iterationRecord) ++ otherRecords)
  otherRecords_ne : ∀ record ∈ otherRecords, record.experimentId ≠ run.experiment.id
  otherTraces_ne : ∀ trace ∈ otherTraces, trace.experimentId ≠ some run.experiment.id
  tracesForIteration_ordering : ∀ iteration, IsOrdering (·.startedAt)
    ((run.traces ++ otherTraces).filter (ofIteration run.experiment.id iteration))
    (tracesForIteration iteration)

/-- The grid, read from what is stored. -/
def Workspace.results {run : GridRun} (workspace : Workspace run) : ExperimentResultsResponse :=
  experimentResults run.experiment.id workspace.records workspace.tracesForIteration
    workspace.caseIds

/-- **The grid agrees with the metric**: of every case that did not error in the best iteration, it
reports that the case matched exactly when the metric counts it. -/
def GridAgrees (run : GridRun) : Prop :=
  ∀ workspace : Workspace run, ∀ best ∈ workspace.results.iteration, ∀ it ∈ run.live[best]?,
    ∀ o ∈ it.aggregate.caseOutcomes, ¬o.errored →
      ((∃ row ∈ workspace.results.cases, row.caseId = o.caseId ∧ row.matched = some true) ↔
        CountsAsPass o run.experiment.target.primaryGrader)

/-! ### The best iteration -/

section Best
variable {run : GridRun} (workspace : Workspace run)

theorem exists_round {it : IterationOutcome} (h : it ∈ run.live) :
    ∃ i input baseline, runRound run.experiment i baseline input = some it := by
  obtain ⟨i, hi⟩ := List.mem_iff_getElem?.mp h
  obtain ⟨input, baseline, -, hround⟩ := (runIterations_getElem? run.ran).2 i it hi
  exact ⟨_, input, baseline, hround⟩

theorem experimentIterations_records :
    experimentIterations workspace.records run.experiment.id =
      run.live.map (·.iterationRecord) := by
  have hown : (run.live.map (·.iterationRecord)).filter
      (fun r => r.experimentId == run.experiment.id) = run.live.map (·.iterationRecord) := by
    refine List.filter_eq_self.mpr fun record hrecord => ?_
    obtain ⟨it, hit, rfl⟩ := List.mem_map.mp hrecord
    obtain ⟨i, input, baseline, hround⟩ := exists_round hit
    exact beq_iff_eq.mpr (runRound_records hround).1
  have hothers :
    workspace.otherRecords.filter (fun r => r.experimentId == run.experiment.id) = [] := by
    refine List.filter_eq_nil_iff.mpr fun record hrecord => ?_
    simpa using workspace.otherRecords_ne record hrecord
  have hperm := workspace.records_perm.filter fun r => r.experimentId == run.experiment.id
  rw [List.filter_append, hown, hothers, List.append_nil] at hperm
  exact eq_of_perm_of_pairwise ((orderBy_perm _ _).trans hperm)
    (isOrdering_orderBy _ (List.Perm.refl _)).2 (pairwise_records run.ran)

/-- **The grid is of the iteration whose metric is best.** -/
theorem iteration_experimentResults : workspace.results.iteration = run.best := by
  have hscored : scoredIterations (experimentIterations workspace.records run.experiment.id) =
      run.live.map fun it => (it.iteration, it.aggregate.primaryValue) := by
    rw [experimentIterations_records, scoredIterations, List.filterMap_map]
    refine (List.filterMap_congr fun it hit => ?_).trans (congrFun List.filterMap_eq_map _)
    obtain ⟨i, input, baseline, hround⟩ := exists_round hit
    obtain ⟨hnumber, hprimary⟩ := primary_of_round hround
    obtain ⟨metrics, hmetrics, hvalue⟩ := Option.map_eq_some_iff.mp hprimary
    simp [hmetrics, hvalue, (runRound_records hround).2.1, hnumber]
  have hbest :
    bestIteration (experimentIterations workspace.records run.experiment.id) = run.best := by
    rw [bestIteration, hscored]
    rfl
  rw [Workspace.results, experimentResults, hbest]
  cases run.best <;> rfl

theorem exists_runIteration {i : ℕ} {it : IterationOutcome} {round : Round}
    (hit : run.live[i]? = some it) (hround : run.rounds[i]? = some round) :
    (∃ caseRuns, runIteration run.experiment i (round.substrate.execution run.suite) =
        some (it.aggregate, caseRuns)) ∧
      it.iterationRecord.metrics.map (·.primary.value) = some it.aggregate.primaryValue := by
  obtain ⟨input, baseline, hinput, h⟩ := (runIterations_getElem? run.ran).2 i it hit
  rw [List.getElem?_map, hround] at hinput
  obtain rfl := Option.some.inj hinput
  rw [Nat.zero_add] at h
  refine ⟨?_, (primary_of_round h).2⟩
  simp only [runRound, Option.bind_eq_bind, Option.bind_eq_some_iff] at h
  obtain ⟨⟨aggregate, caseRuns⟩, hrun, record, -, hit⟩ := h
  obtain rfl := Option.some.inj hit
  exact ⟨caseRuns, hrun⟩

theorem mem_caseOutcomes {i : ℕ} {it : IterationOutcome} {round : Round}
    (hit : run.live[i]? = some it) (hround : run.rounds[i]? = some round) (o : CaseOutcome) :
    o ∈ it.aggregate.caseOutcomes ↔ ∃ case ∈ run.suite.cases,
      ∃ a ∈ round.substrate.counted run.suite case, a.outcome run.suite.graders = o := by
  obtain ⟨⟨caseRuns, hrun⟩, -⟩ := exists_runIteration hit hround
  rw [(caseOutcomes_of_run run.cases_nodup (run.sound i round hround) hrun).1.mem_iff,
    List.mem_filterMap]
  simp only [Option.map_eq_some_iff, Option.mem_def]

/-- **The recorded metric of an iteration** is the share, of the cases that are judged, of those
that pass; each is told by the turns of the attempt whose outcome was written last. -/
theorem primaryValue_of_live {i : ℕ} {it : IterationOutcome} {round : Round}
    (hit : run.live[i]? = some it) (hround : run.rounds[i]? = some round) :
    it.iterationRecord.metrics.map (·.primary.value) = some
      (((run.suite.cases.countP fun case => ∃ a ∈ round.substrate.counted run.suite case,
          Passed (a.turns run.suite.graders) run.experiment.target.primaryGrader) : ℚ) /
        run.suite.cases.countP fun case => ∃ a ∈ round.substrate.counted run.suite case,
          Judged (a.turns run.suite.graders) run.experiment.target.primaryGrader) := by
  obtain ⟨⟨caseRuns, hrun⟩, hrecorded⟩ := exists_runIteration hit hround
  rw [hrecorded, primaryValue_of_run run.cases_nodup (run.sound i round hround) run.primary hrun]
  simp only [Attempt.outcome, countsAsPass_iff, scored_iff]
  rfl

theorem exists_best {best : ℕ} (hbest : run.best = some best) :
    ∃ it round, run.live[best]? = some it ∧ run.rounds[best]? = some round := by
  obtain ⟨⟨number, value⟩, hmem, rfl⟩ := Option.map_eq_some_iff.mp hbest
  obtain ⟨it, hit, heq⟩ := List.mem_map.mp (List.argmax_mem hmem)
  obtain ⟨i, hi⟩ := List.mem_iff_getElem?.mp hit
  obtain ⟨hlength, hrounds⟩ := runIterations_getElem? run.ran
  obtain ⟨input, baseline, hinput, hround⟩ := hrounds i it hi
  rw [List.getElem?_map, Option.map_eq_some_iff] at hinput
  obtain ⟨round, hround', -⟩ := hinput
  have hnumber : number = i := by
    rw [← (Prod.mk.inj heq).1, (primary_of_round hround).1, Nat.zero_add]
  exact ⟨it, round, hnumber ▸ hi, hnumber ▸ hround'⟩

end Best

/-! ### When the grid agrees -/

/-- What the grid takes of a turn's grades: the first passes. -/
def FirstPasses (grades : List GradeResult) : Prop := grades.head?.map (·.label) = some .pass
deriving Decidable

/-- Of a stored turn of the case that started first the first grade passes, exactly when the final
turn of an attempt counts as a pass. -/
def DecidedAlike (suite : Suite) (s : Substrate) (case : EvalCase) (a : Attempt)
    (primaryGrader : Option String) : Prop :=
  ∀ first ∈ s.storedTurns suite case, (∀ turn ∈ s.storedTurns suite case,
      startOf first.1 case first.2 ≤ startOf turn.1 case turn.2) →
    ∀ last ∈ (a.turns suite.graders).getLast?,
      (FirstPasses first.2.2 ↔ Counted last.2 primaryGrader)

theorem countsAsPass_iff_counted {graders : List Grader} {a : Attempt}
    {last : RepetitionResult × List GradeResult} (hlast : last ∈ (a.turns graders).getLast?)
    (hscored : ¬(a.outcome graders).errored) {primaryGrader : Option String} :
    CountsAsPass (a.outcome graders) primaryGrader ↔ Counted last.2 primaryGrader := by
  have hjudged : ¬Failed (a.turns graders) := by
    have hscored' : Scored (a.outcome graders) none := Bool.eq_false_of_not_eq_true hscored
    exact ((scored_iff _ _ _ none).mp hscored').1
  rw [Attempt.outcome, countsAsPass_iff, Passed]
  change (∃ last ∈ (a.turns graders).getLast?, _) ∧ (_ → ¬Failed (a.turns graders)) ↔ _
  rw [hlast]
  simp [hjudged]

theorem matched_storedTrace (caseId experimentId : String) (iteration best : ℕ)
    (exec : StoredExecution)
    (case : EvalCase) (turn : RepetitionResult × List GradeResult) :
    (scenarioResult caseId (some (storedTrace experimentId iteration exec case turn))
      best).matched =
      some true ↔ FirstPasses turn.2 := by
  show ((turn.2.map toTraceGraderResult).head?.map fun result => result.label == "pass") =
    some true ↔ _
  rw [List.head?_map, Option.map_map, FirstPasses]
  rcases turn.2.head? with _ | grade
  · simp
  · have hlabel : Coded.value grade.label = "pass" ↔ grade.label = .pass := by
      cases grade.label <;> decide
    simpa [toTraceGraderResult] using hlabel

section Agreement
variable {run : GridRun}

theorem mem_storedTurns {i : ℕ} {round : Round} (hround : run.rounds[i]? = some round)
    {case : EvalCase} (hcase : case ∈ run.suite.cases)
    (turn : StoredExecution × RepetitionResult × List GradeResult) :
    turn ∈ round.substrate.storedTurns run.suite case ↔
      ∃ a ∈ round.substrate.attempts run.suite, a.case = case ∧ a.exec = turn.1 ∧
        turn.2 ∈ a.storedTurns run.suite.graders := by
  have hsound := run.sound i round hround
  have hattempt : ∀ a ∈ round.substrate.attempts run.suite, a.case.id = case.id ↔ a.case = case :=
    fun a ha => ⟨eq_of_key run.cases_nodup (case_mem_of_attempt hsound ha) hcase, congrArg _⟩
  obtain ⟨exec, turn⟩ := turn
  simp only [Substrate.storedTurns, List.mem_flatMap, List.mem_filter, decide_eq_true_iff,
    List.mem_map, Prod.mk.injEq]
  constructor
  · rintro ⟨a, ⟨ha, hid⟩, turn', hturn, rfl, rfl⟩
    exact ⟨a, ha, (hattempt a ha).mp hid, rfl, hturn⟩
  · rintro ⟨a, ha, heq, rfl, hturn⟩
    exact ⟨a, ⟨ha, (hattempt a ha).mpr heq⟩, turn, hturn, rfl, rfl⟩

theorem mem_tracesOfCase (workspace : Workspace run) {i : ℕ} {round : Round}
    (hround : run.rounds[i]? = some round) {case : EvalCase} (hcase : case ∈ run.suite.cases)
    (trace : Trace) :
    trace ∈ (run.traces ++ workspace.otherTraces).filter (ofIteration run.experiment.id i) ∧
        trace.evalCaseId = some case.id ↔
      ∃ turn ∈ round.substrate.storedTurns run.suite case,
        storedTrace run.experiment.id i turn.1 case turn.2 = trace := by
  rw [List.mem_filter, ofIteration, Bool.and_eq_true, beq_iff_eq, beq_iff_eq]
  constructor
  · rintro ⟨⟨htrace, hexperiment, hiteration⟩, hid⟩
    have hown : trace ∈ run.traces := (List.mem_append.mp htrace).resolve_right fun hother =>
      workspace.otherTraces_ne trace hother hexperiment
    obtain ⟨⟨round', i'⟩, hround', htrace⟩ := List.mem_flatMap.mp hown
    obtain ⟨a, ha, htrace⟩ := List.mem_flatMap.mp htrace
    obtain ⟨turn, hturn, rfl⟩ := List.mem_map.mp htrace
    obtain rfl : i' = i := Option.some.inj hiteration
    rw [List.mem_zipIdx_iff_getElem?, hround] at hround'
    obtain rfl := Option.some.inj hround'
    have hmem := case_mem_of_attempt (run.sound _ _ hround) ha
    obtain rfl : a.case = case := eq_of_key run.cases_nodup hmem hcase (Option.some.inj hid)
    exact ⟨(a.exec, turn), (mem_storedTurns hround hcase _).mpr ⟨a, ha, rfl, rfl, hturn⟩, rfl⟩
  · rintro ⟨turn, hturn, rfl⟩
    obtain ⟨a, ha, rfl, hexec, hstored⟩ := (mem_storedTurns hround hcase turn).mp hturn
    refine ⟨⟨List.mem_append_left _ (List.mem_flatMap.mpr ⟨(round, i), ?_, ?_⟩), rfl, rfl⟩, rfl⟩
    · exact List.mem_zipIdx_iff_getElem?.mpr hround
    · exact List.mem_flatMap.mpr ⟨a, ha, List.mem_map.mpr ⟨turn.2, hstored, by rw [hexec]⟩⟩

theorem exists_storedTurn {i : ℕ} {round : Round} (hround : run.rounds[i]? = some round)
    {case : EvalCase} (hcase : case ∈ run.suite.cases) {a : Attempt}
    (ha : round.substrate.counted run.suite case = some a) :
    ∃ turn, turn ∈ round.substrate.storedTurns run.suite case := by
  obtain ⟨hmem, hwritten, hid⟩ := counted_spec ha
  have hsound := run.sound i round hround
  have heq := eq_of_key run.cases_nodup (case_mem_of_attempt hsound hmem) hcase hid
  obtain ⟨turn, hturn⟩ := List.exists_mem_of_ne_nil _
    (turnsOfCase_ne_nil a.exec.toExecution run.suite.graders a.case)
  refine ⟨(a.exec, turn), (mem_storedTurns hround hcase _).mpr ⟨a, hmem, heq, rfl, ?_⟩⟩
  rw [storedTurns_of_written hsound hmem hwritten]
  exact hturn

/-- **The row of a case is made of one of its turns that started first.** -/
theorem exists_first (workspace : Workspace run) {best : ℕ}
    (hbest : workspace.results.iteration = some best) {round : Round}
    (hround : run.rounds[best]? = some round) {case : EvalCase} (hcase : case ∈ run.suite.cases)
    {a : Attempt} (ha : round.substrate.counted run.suite case = some a) :
    ∃ first ∈ round.substrate.storedTurns run.suite case,
      (∀ turn ∈ round.substrate.storedTurns run.suite case,
        startOf first.1 case first.2 ≤ startOf turn.1 case turn.2) ∧
      ((∃ row ∈ workspace.results.cases, row.caseId = case.id ∧ row.matched = some true) ↔
        FirstPasses first.2.2) := by
  obtain ⟨hperm, hsorted⟩ := workspace.tracesForIteration_ordering best
  let listed :=
    (workspace.tracesForIteration best).filter fun trace => trace.evalCaseId = some case.id
  have hlisted : ∀ trace, trace ∈ listed ↔
      ∃ turn ∈ round.substrate.storedTurns run.suite case,
        storedTrace run.experiment.id best turn.1 case turn.2 = trace := fun trace => by
    rw [List.mem_filter, hperm.mem_iff, decide_eq_true_iff]
    exact mem_tracesOfCase workspace hround hcase trace
  obtain ⟨turn, hturn⟩ := exists_storedTurn hround hcase ha
  rcases hfirst : listed with _ | ⟨trace, rest⟩
  · have hmem := (hlisted _).mpr ⟨turn, hturn, rfl⟩
    rw [hfirst] at hmem
    cases hmem
  obtain ⟨first, hmem, rfl⟩ := (hlisted trace).mp (by rw [hfirst]; exact List.mem_cons_self)
  have hleast := hsorted.filter fun trace => trace.evalCaseId = some case.id
  rw [show (workspace.tracesForIteration best).filter _ = _ from hfirst,
    List.pairwise_cons] at hleast
  refine ⟨first, hmem, fun turn hturn => ?_, ?_⟩
  · have hturn' := (hlisted _).mpr ⟨turn, hturn, rfl⟩
    rw [hfirst] at hturn'
    rcases List.mem_cons.mp hturn' with heq | hrest
    · exact (congrArg Trace.startedAt heq).ge
    · exact hleast.1 _ hrest
  · have hhead :
      listed.head? = some (storedTrace run.experiment.id best first.1 case first.2) := by
      rw [hfirst, List.head?_cons]
    have hrow := mem_cases_experimentResults hbest hhead
    rw [← matched_storedTrace case.id run.experiment.id best best first.1 case first.2]
    constructor
    · rintro ⟨row, hmem, hid, hmatched⟩
      rwa [(hrow row).mp ⟨hmem, hid⟩] at hmatched
    · intro hmatched
      obtain ⟨hmem, hid⟩ := (hrow _).mpr rfl
      exact ⟨_, hmem, hid, hmatched⟩

theorem decidedAlike_of_gridAgrees (h : GridAgrees run) {best : ℕ} (hbest : run.best = some best)
    {round : Round} (hround : run.rounds[best]? = some round) {case : EvalCase}
    (hcase : case ∈ run.suite.cases) {a : Attempt}
    (ha : round.substrate.counted run.suite case = some a)
    (hscored : ¬(a.outcome run.suite.graders).errored) :
    DecidedAlike run.suite round.substrate case a run.experiment.target.primaryGrader := by
  intro first hfirst hleast last hlast
  let rows i := (run.traces ++ []).filter (ofIteration run.experiment.id i)
  let selected (trace : Trace) : Bool := trace.evalCaseId = some case.id
  let plain : Workspace run := {
    otherRecords := []
    otherTraces := []
    records := run.live.map (·.iterationRecord)
    tracesForIteration i := orderBy (·.startedAt) (rows i)
    caseIds := []
    records_perm := by rw [List.append_nil]
    otherRecords_ne := by simp
    otherTraces_ne := by simp
    tracesForIteration_ordering i := isOrdering_orderBy _ (List.Perm.refl _) }
  have hturns := mem_tracesOfCase plain hround hcase
  let shown := storedTrace run.experiment.id best first.1 case first.2
  obtain ⟨hmem, hid⟩ := (hturns shown).mpr ⟨first, hfirst, rfl⟩
  have hleastKey :
    ∀ trace ∈ rows best, selected trace = true → shown.startedAt ≤ trace.startedAt := by
    intro trace htrace hselected
    obtain ⟨turn, hturn, rfl⟩ := (hturns trace).mp ⟨htrace, of_decide_eq_true hselected⟩
    exact hleast turn hturn
  obtain ⟨listed, hordering, hhead⟩ : ∃ listed, IsOrdering (·.startedAt) (rows best) listed ∧
      (listed.filter selected).head? = some shown :=
    exists_ordering_head hmem (decide_eq_true hid) hleastKey
  let workspace : Workspace run := { plain with
    tracesForIteration i := if i = best then listed else orderBy (·.startedAt) (rows i)
    tracesForIteration_ordering i := by
      split_ifs with hi
      · rw [hi]
        exact hordering
      · exact isOrdering_orderBy _ (List.Perm.refl _) }
  have hiteration : workspace.results.iteration = some best :=
    (iteration_experimentResults workspace).trans hbest
  have hlisted : ((workspace.tracesForIteration best).filter selected).head? = some shown := by
    rw [show workspace.tracesForIteration best = listed from if_pos rfl]
    exact hhead
  have hrow := mem_cases_experimentResults hiteration hlisted
  obtain ⟨it, _, hit, -⟩ := exists_best hbest
  have hagrees := h workspace best hiteration it hit _
    ((mem_caseOutcomes hit hround _).mpr ⟨case, hcase, a, ha, rfl⟩) hscored
  have hid : (a.outcome run.suite.graders).caseId = case.id := (counted_spec ha).2.2
  rw [countsAsPass_iff_counted hlast hscored, hid] at hagrees
  rw [← hagrees, ← matched_storedTrace case.id run.experiment.id best best first.1 case first.2]
  constructor
  · intro hmatched
    obtain ⟨hmem, hid⟩ := (hrow _).mpr rfl
    exact ⟨_, hmem, hid, hmatched⟩
  · rintro ⟨row, hmem, hid, hmatched⟩
    rwa [(hrow row).mp ⟨hmem, hid⟩] at hmatched

end Agreement

/-- **The grid agrees with the metric** if and only if, of each case of the best iteration that did
not error, the first grade of the stored turn that started first passes exactly when the grades of
the final turn of the counted attempt count as a pass. -/
theorem gridAgrees_iff (run : GridRun) :
    GridAgrees run ↔ ∀ best ∈ run.best, ∀ round ∈ run.rounds[best]?, ∀ case ∈ run.suite.cases,
      ∀ a ∈ round.substrate.counted run.suite case, ¬(a.outcome run.suite.graders).errored →
        DecidedAlike run.suite round.substrate case a run.experiment.target.primaryGrader := by
  constructor
  · intro h best hbest round hround case hcase a ha hscored
    exact decidedAlike_of_gridAgrees h hbest hround hcase ha hscored
  · intro h workspace best hbest it hit o ho hscored
    have hbest' := hbest
    rw [iteration_experimentResults] at hbest'
    obtain ⟨_, round, -, hround⟩ := exists_best hbest'
    obtain ⟨case, hcase, a, ha, rfl⟩ := (mem_caseOutcomes hit hround o).mp ho
    obtain ⟨first, hfirst, hleast, hrow⟩ := exists_first workspace hbest hround hcase ha
    obtain ⟨last, hlast⟩ := Option.isSome_iff_exists.mp
      (List.getLast?_isSome.mpr (turnsOfCase_ne_nil a.exec.toExecution run.suite.graders a.case))
    have hid : (a.outcome run.suite.graders).caseId = case.id := (counted_spec ha).2.2
    rw [hid, hrow, countsAsPass_iff_counted hlast hscored]
    exact h best hbest' round hround case hcase a ha hscored first hfirst hleast last hlast

/-- Two graders of one case. -/
def disputed : Suite where
  graders := [.mk (some "deterministic") (.inl (.cls .deterministic)) [],
    .mk (some "set_match") (.inl (.cls .setMatch)) []]
  cases := oneCase.cases
  graders_ne := by simp
  cases_ne := oneCase.cases_ne
  graders_named := by simp [Grader.name]

/-- An execution whose turns start at one time and get the labels of the graders' names. -/
def labelled (startedAt : Time) (label : String → GradeLabel) : StoredExecution where
  toExecution := { Execution.passing with
    grade := fun g _ _ =>
      { grader := g.name.getD "", label := label (g.name.getD ""), reason := "" }
    grade_signed := fun g _ _ name hname => by rw [Option.mem_def.mp hname, Option.getD_some] }
  startedAt := fun _ _ _ => startedAt

/-- The first grader passes, the second does not. -/
def disputedRound : Round where
  substrate := .inProcess
    (labelled 0 fun grader => if grader = "set_match" then .fail else .pass)
  proposal := { hypothesis := "h" }
  outcome := .keepCandidate
  rationale := "kept"

/-- A run that its second grader fails. -/
def disputedRun : GridRun where
  experiment := Experiment.minimal
  suite := disputed
  rounds := [disputedRound]
  live := (runIterations Experiment.minimal 0 none [roundInput disputed disputedRound]).get
    (by decide +kernel)
  primary := rfl
  cases_nodup := by decide
  sound i round h := by
    obtain rfl := List.mem_singleton.mp (List.mem_of_getElem? h)
    trivial
  ran := (Option.some_get _).symm

/-- The first grader passes, so the case is shown as matched; the second fails, and it does not
count. -/
theorem not_all_gridAgrees : ¬∀ run : GridRun, GridAgrees run := by
  intro h
  have hbest : disputedRun.best = some 0 := by decide +kernel
  have hround : disputedRun.rounds[0]? = some disputedRound := rfl
  have halike := decidedAlike_of_gridAgrees (h disputedRun) hbest hround
    (List.mem_singleton_self _) rfl (by decide +kernel)
  have hiff := halike _ (List.mem_singleton_self _)
    (fun turn hturn => List.mem_singleton.mp hturn ▸ le_rfl) _ rfl
  exact absurd hiff (by decide +kernel)

/-- The job of the case in the second round. -/
def retriedJob : ScenarioJob :=
  newScenarioJob onceRun 1 1 0 ("case_1", "j1")

/-- Workers run the second round: the first attempt fails the case, and its outcome is not written;
the second passes it. -/
def retriedRound : Round where
  substrate := .sharded onceRun.id {}
    [{ case := oneCase.cases.head oneCase.cases_ne, exec := labelled 1 fun _ => .fail, stored := 1
       written := false, job := retriedJob, outcomeId := "o1", now := 2 },
     { case := oneCase.cases.head oneCase.cases_ne, exec := labelled 3 fun _ => .pass, stored := 1
       written := true, job := retriedJob, outcomeId := "o2", now := 4 }]
  proposal := { hypothesis := "h" }
  outcome := .keepCandidate
  rationale := "kept"

theorem drained_retried : retriedRound.substrate.Sound disputed 1 where
  cases := by
    have hmem : oneCase.cases.head oneCase.cases_ne ∈ disputed.cases := List.head_mem _
    simp [hmem]
  jobs := by decide
  whole := by decide
  keys := by decide
  fresh := by simp

def retriedRun : GridRun where
  experiment := Experiment.minimal
  suite := disputed
  rounds := [disputedRound, retriedRound]
  live := (runIterations Experiment.minimal 0 none
    ([disputedRound, retriedRound].map (roundInput disputed))).get (by decide +kernel)
  primary := rfl
  cases_nodup := by decide
  sound i round h := by
    match i with
    | 0 =>
      obtain rfl := Option.some.inj h
      trivial
    | 1 =>
      obtain rfl := Option.some.inj h
      exact drained_retried
  ran := (Option.some_get _).symm

/-- The attempt whose outcome was written is counted, and passes. -/
theorem primaryValue_of_live_retried : ∃ it, retriedRun.live[1]? = some it ∧
    it.iterationRecord.metrics.map (·.primary.value) = some
      (((disputed.cases.countP fun case => ∃ a ∈ retriedRound.substrate.counted disputed case,
          Passed (a.turns disputed.graders) none) : ℚ) /
        disputed.cases.countP fun case => ∃ a ∈ retriedRound.substrate.counted disputed case,
          Judged (a.turns disputed.graders) none) := by
  have hsome : retriedRun.live[1]?.isSome := by decide +kernel
  obtain ⟨it, hit⟩ := Option.isSome_iff_exists.mp hsome
  exact ⟨it, hit, primaryValue_of_live hit rfl⟩

end Selfevals.Api.ResultsGrid
