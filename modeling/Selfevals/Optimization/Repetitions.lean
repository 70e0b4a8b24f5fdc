import Selfevals.Api.RunJobs
import Selfevals.Optimization.AggregateOrder
import Selfevals.Optimization.CaseOutcomes
import Selfevals.Optimization.PassMetrics

/-!
# How often a case is run, and what its metrics are worth

A launch takes the number of repetitions from the request and not from the experiment; the job
carries it to the workers, whose loop runs every case so often. Validation looks at
`run.repetitions_per_case` instead.

An `Execution` is everything that is not determined by the launch: what the agent's invocations
leave, the thread ids, and what the graders say. `DeclaredRepetitionsRun` is what a launch should
give in every one.

* `labels_of_perfect`, `graderLabels_of_perfect` : where everything passes, all of them are PASS;
* `declaredRepetitionsRun_loop_iff` : when a loop gives every declared metric its due;
-/

namespace Selfevals.Optimization.Repetitions

open Lib.Mapping Schemas.Base Schemas.Job Schemas.Experiments Api.RunJobs Graders.Base
  Graders.Registry Optimization.Aggregator Optimization.AggregateOrder Optimization.CaseGraders
  Optimization.CaseOutcomes Optimization.PassMetrics

/-! ### Executions -/

/-- What one invocation of the agent leaves: the trace that is built of it, and the error of an
adapter that fails. -/
structure Invocation where
  traceId : String
  totalCostUsd : ℚ := 0
  totalDurationMs : ℤ := 0
  cacheHits : List Bool := []
  error : Option String := none

/-- The agent, the ids that are made and the graders, as they come. A grader signs its grades by its
name, and the ids of threads are fresh. -/
structure Execution where
  invoke : EvalCase → ℕ → ℕ → Invocation
  threadId : EvalCase → ℕ → String
  grade : Grader → EvalCase → RepetitionResult → GradeResult
  threadId_injective : ∀ case, Function.Injective (threadId case)
  grade_signed : ∀ g case rep, ∀ name ∈ g.name, (grade g case rep).grader = name

namespace Execution
variable (exec : Execution)

/-- `Executor.run_single`, for a turn of a thread or on its own. -/
def runSingle (case : EvalCase) (rep : ℕ) (threadId : Option String) (position : Option ℕ) :
    RepetitionResult :=
  let left := exec.invoke case rep (position.getD 0)
  { repetition := rep
    trace := {
      id := left.traceId
      threadId
      threadPosition := position
      totalCostUsd := left.totalCostUsd
      totalDurationMs := left.totalDurationMs
      cacheHits := left.cacheHits }
    error := left.error }

/-- `Executor.run_case`. -/
def runCase (case : EvalCase) (repetitions : ℕ) : List RepetitionResult :=
  (List.range repetitions).map fun rep => exec.runSingle case rep none none

/-- `_run_scripted_turns`, with so many turns left: a turn that fails ends the thread. -/
def runScriptedTurns (case : EvalCase) (rep : ℕ) (threadId : String) (position : ℕ) :
    ℕ → List RepetitionResult
  | 0 => []
  | n + 1 =>
    let result := exec.runSingle case rep (some threadId) (some position)
    if result.error.isSome then [result]
    else result :: runScriptedTurns case rep threadId (position + 1) n

/-- `MultiTurnExecutor.run_case`. -/
def runConversation (case : EvalCase) (messages : List MessageRole) (repetitions : ℕ) :
    List RepetitionResult :=
  (List.range repetitions).flatMap fun rep =>
    exec.runScriptedTurns case rep (exec.threadId case rep) 0 (turnCount messages)

end Execution

/-! ### Launch, job and loop -/

/-- The part of `RunExperimentRequest` that says how often cases are run. -/
structure RunExperimentRequest where
  reps : Option ℕ := none
  reps_pos : ∀ n ∈ reps, 1 ≤ n

/-- `reps = body.reps if body.reps is not None else 1`. -/
def launchReps (body : RunExperimentRequest) : ℕ := body.reps.getD 1

theorem launchReps_pos (body : RunExperimentRequest) : 1 ≤ launchReps body := by
  unfold launchReps
  rcases hreps : body.reps with _ | n
  · exact le_refl 1
  · exact body.reps_pos n hreps

/-- The job that `launch_experiment_run` creates. -/
def launchExperimentRun (experiment : Experiment) (body : RunExperimentRequest) (id : String)
    (now : Time) : RunJob :=
  newRunJob id experiment.workspaceId experiment.id now (launchReps body) defaultMaxAttempts
    one_le_defaultMaxAttempts

/-- What the payload of the job is built into: the graders, each of which has a name, and the cases
that are evaluated. -/
structure Suite where
  graders : List Grader
  cases : List EvalCase
  graders_ne : graders ≠ []
  cases_ne : cases ≠ []
  graders_named : ∀ g ∈ graders, g.name.isSome

/-- The loop that a worker builds for a job, which runs a case `reps` times. Its constructor refuses
to run one less than once. -/
structure OptimizationLoop where
  experiment : Experiment
  suite : Suite
  reps : ℕ
  reps_pos : 1 ≤ reps

/-- `build_loop(spec, repetitions_per_case=run_job.reps)`, unless the constructor of the loop
raises. -/
def buildLoop (experiment : Experiment) (suite : Suite) (job : RunJob) : Option OptimizationLoop :=
  if h : 1 ≤ job.reps then some { experiment, suite, reps := job.reps, reps_pos := h } else none

/-- The loop of a launch. -/
def launchedLoop (experiment : Experiment) (suite : Suite) (body : RunExperimentRequest) :
    OptimizationLoop :=
  { experiment, suite, reps := launchReps body, reps_pos := launchReps_pos body }

/-- **The repetitions of the loop are those of the request**; the experiment's are not asked for. -/
theorem buildLoop_launchExperimentRun (experiment : Experiment) (suite : Suite)
    (body : RunExperimentRequest) (id : String) (now : Time) :
    buildLoop experiment suite (launchExperimentRun experiment body id now) =
      some (launchedLoop experiment suite body) :=
  dif_pos (launchReps_pos body)

section Scenario
variable (exec : Execution) (graders : List Grader) (reps : ℕ) (case : EvalCase)

/-- The repetitions of a case, turn by turn if it is a conversation. -/
def repetitionsOf : List RepetitionResult :=
  match case.messages with
  | some messages => exec.runConversation case messages reps
  | none => exec.runCase case reps

/-- The grades of `execute_and_grade_case`. -/
def gradesOf : List (List GradeResult) :=
  gradesPerRep (fun g rep =>
    exec.grade g case rep) graders case.graders (repetitionsOf exec reps case)

/-- What the outcome is made of: a conversation is collapsed first. -/
def outcomeRun : List RepetitionResult × List (List GradeResult) :=
  if case.messages.isSome then
    collapseConversationTurns (repetitionsOf exec reps case) (gradesOf exec graders reps case)
  else (repetitionsOf exec reps case, gradesOf exec graders reps case)

/-- `OptimizationLoop.run_scenario`. -/
def runScenario : CaseOutcome :=
  outcomeFor case (outcomeRun exec graders reps case).1 (outcomeRun exec graders reps case).2

end Scenario

/-- The outcomes of the evaluated cases. -/
def OptimizationLoop.outcomes (loop : OptimizationLoop) (exec : Execution) : List CaseOutcome :=
  loop.suite.cases.map (runScenario exec loop.suite.graders loop.reps)

/-! ### What a launch should give -/

/-- Every repetition of the case passes every grader. -/
def PerfectCase (exec : Execution) (graders : List Grader) (reps : ℕ) (case : EvalCase) : Prop :=
  (∀ rep ∈ repetitionsOf exec reps case, rep.error = none) ∧
    ∀ grades ∈ gradesOf exec graders reps case, AllPass grades

/-- Every repetition of every case passes every grader. -/
def Perfect (exec : Execution) (loop : OptimizationLoop) : Prop :=
  ∀ case ∈ loop.suite.cases, PerfectCase exec loop.suite.graders loop.reps case

/-- In every execution each evaluated case has the repetitions that every declared `pass^k` asks
for, and where everything passes each declared `pass@k` and `pass^k` is worth 1, in whatever order
the outcomes are read. -/
def DeclaredRepetitionsRun (loop : OptimizationLoop) : Prop :=
  ∀ (exec : Execution) (outcomes : List CaseOutcome), outcomes.Perm (loop.outcomes exec) →
    (∀ o ∈ outcomes, ∀ name ∈ loop.experiment.declaredMetrics,
      ∀ k ∈ Experiment.passHatK name, k ≤ o.perRepetitionLabel.length) ∧
    (Perfect exec loop →
      (PassMetric loop.experiment.target.primary.name →
        computeMetric loop.experiment.target.primary.name outcomes
          loop.experiment.target.primaryGrader = .ok 1) ∧
      ∀ name ∈ loop.experiment.target.guardrails.map (·.name) ++
        loop.experiment.reliability.metrics,
        PassMetric name → computeMetric name outcomes none = .ok 1)

/-! ### Threads -/

section Threads
variable (exec : Execution) (case : EvalCase)

theorem threadOf_runScriptedTurns {rep position n : ℕ} {threadId : String}
    {result : RepetitionResult}
    (h : result ∈ exec.runScriptedTurns case rep threadId position n) :
    threadOf result = threadId := by
  induction n generalizing position with
  | zero => cases h
  | succ n ih =>
    unfold Execution.runScriptedTurns at h
    dsimp only at h
    split_ifs at h
    · rw [List.mem_singleton] at h
      rw [h]
      rfl
    · rcases List.mem_cons.mp h with rfl | h
      · rfl
      · exact ih h

theorem runScriptedTurns_ne_nil {rep position n : ℕ} (threadId : String) (hn : 0 < n) :
    exec.runScriptedTurns case rep threadId position n ≠ [] := by
  obtain ⟨n, rfl⟩ := Nat.exists_eq_succ_of_ne_zero hn.ne'
  unfold Execution.runScriptedTurns
  dsimp only
  split_ifs
  · exact List.cons_ne_nil _ _
  · exact List.cons_ne_nil _ _

theorem threads_perm {messages : List MessageRole} (hturns : 0 < turnCount messages) (reps : ℕ) :
    (firstSeen ((exec.runConversation case messages reps).map threadOf)).Perm
      ((List.range reps).map (exec.threadId case)) := by
  have hnodup : ((List.range reps).map (exec.threadId case)).Nodup :=
    List.nodup_range.map (exec.threadId_injective case)
  refine (List.perm_ext_iff_of_nodup (nodup_firstSeen _) hnodup).mpr fun id => ?_
  rw [mem_firstSeen, List.mem_map, List.mem_map]
  constructor
  · rintro ⟨result, hresult, rfl⟩
    obtain ⟨rep, hrep, hresult⟩ := List.mem_flatMap.mp hresult
    exact ⟨rep, hrep, (threadOf_runScriptedTurns exec case hresult).symm⟩
  · rintro ⟨rep, hrep, rfl⟩
    obtain ⟨result, hresult⟩ := List.exists_mem_of_ne_nil _
      (runScriptedTurns_ne_nil exec case (exec.threadId case rep) hturns)
    exact ⟨result, List.mem_flatMap.mpr ⟨rep, hrep, hresult⟩,
      threadOf_runScriptedTurns exec case hresult⟩

theorem length_threads {messages : List MessageRole} (hturns : 0 < turnCount messages) (reps : ℕ) :
    (firstSeen ((exec.runConversation case messages reps).map threadOf)).length = reps := by
  rw [(threads_perm exec case hturns reps).length_eq, List.length_map, List.length_range]

end Threads

/-! ### The outcome of a case -/

section Case
variable (exec : Execution) {graders : List Grader} (reps : ℕ) (case : EvalCase)

/-- The names by which the active graders sign. -/
def signatures (graders : List Grader) (case : EvalCase) : List String :=
  (gradersForCase graders case.graders).filterMap (·.name)

theorem gradersForCase_subset {g : Grader} {names : List String}
    (h : g ∈ gradersForCase graders names) : g ∈ graders := by
  unfold gradersForCase at h
  dsimp only at h
  split_ifs at h with hnames hempty
  · exact h
  · exact h
  · exact (List.mem_filter.mp h).1

theorem gradersForCase_ne_nil (hne : graders ≠ []) (names : List String) :
    gradersForCase graders names ≠ [] := by
  unfold gradersForCase
  dsimp only
  split_ifs with hnames hempty
  · exact hne
  · exact hne
  · simpa using hempty

theorem map_grader_of_mem_gradesOf (hnamed : ∀ g ∈ graders, g.name.isSome)
    {grades : List GradeResult} (h : grades ∈ gradesOf exec graders reps case) :
    grades.map (·.grader) = signatures graders case := by
  rw [gradesOf, gradesPerRep_eq] at h
  obtain ⟨rep, -, rfl⟩ := List.mem_map.mp h
  rw [List.map_map, signatures]
  have hsub : ∀ g ∈ gradersForCase graders case.graders, g.name.isSome := fun g hg =>
    hnamed g (gradersForCase_subset hg)
  revert hsub
  induction gradersForCase graders case.graders with
  | nil => exact fun _ => rfl
  | cons g gs ih =>
    intro hsub
    obtain ⟨hg, hgs⟩ := List.forall_mem_cons.mp hsub
    obtain ⟨name, hname⟩ := Option.isSome_iff_exists.mp hg
    rw [List.map_cons, ih hgs, List.filterMap_cons, hname]
    exact congrArg (· :: _) (exec.grade_signed g case rep name hname)

theorem length_gradesOf : (gradesOf exec graders reps case).length =
    (repetitionsOf exec reps case).length := by
  rw [gradesOf, gradesPerRep_eq, List.length_map]

theorem outcomeRun_spec :
    (outcomeRun exec graders reps case).2.length = reps ∧
      (∀ grades ∈ (outcomeRun exec graders reps case).2, ∃ row ∈ gradesOf exec graders reps case,
        grades.map (·.grader) = row.map (·.grader) ∧ grades.map (·.label) = row.map (·.label)) ∧
      ((∀ rep ∈ repetitionsOf exec reps case, rep.error = none) →
        ∀ rep ∈ (outcomeRun exec graders reps case).1, rep.error = none) := by
  unfold outcomeRun
  split_ifs with hconversation
  · obtain ⟨messages, hmessages⟩ := Option.isSome_iff_exists.mp hconversation
    have hfst : ((repetitionsOf exec reps case).zip (gradesOf exec graders reps case)).map
      Prod.fst =
        repetitionsOf exec reps case :=
      List.map_fst_zip (length_gradesOf exec reps case).ge
    have hthreads : ((repetitionsOf exec reps case).zip (gradesOf exec graders reps case)).map
        (fun turn => threadOf turn.1) = (exec.runConversation case messages reps).map threadOf := by
      have hruns : repetitionsOf exec reps case = exec.runConversation case messages reps := by
        rw [repetitionsOf, hmessages]
      rw [← hruns, ← congrArg (List.map threadOf) hfst, List.map_map]
      rfl
    unfold collapseConversationTurns
    rw [List.unzip_fst, List.unzip_snd]
    refine ⟨?_, fun grades hgrades => ?_, fun hnone rep hrep => ?_⟩
    · rw [List.length_map, length_collapsedThreads, hthreads]
      exact length_threads exec case (case.turns_pos messages hmessages) reps
    · obtain ⟨collapsed, hcollapsed, rfl⟩ := List.mem_map.mp hgrades
      obtain ⟨⟨turn, hturn, hspec⟩, -⟩ := collapsedThreads_spec hcollapsed
      exact ⟨turn.2, (List.of_mem_zip hturn).2, hspec⟩
    · obtain ⟨collapsed, hcollapsed, rfl⟩ := List.mem_map.mp hrep
      exact (collapsedThreads_spec hcollapsed).2 fun turn hturn =>
        hnone turn.1 (List.of_mem_zip hturn).1
  · refine ⟨?_, fun grades hgrades => ⟨grades, hgrades, rfl, rfl⟩, fun hnone => hnone⟩
    have hmessages : case.messages = none := by simpa using hconversation
    rw [length_gradesOf, repetitionsOf, hmessages]
    simp [Execution.runCase]

/-- **A case has as many labels as it has repetitions.** -/
theorem length_labels : (runScenario exec graders reps case).perRepetitionLabel.length = reps := by
  rw [runScenario, length_labels_outcomeFor]
  exact (outcomeRun_spec exec reps case).1

section Perfect
variable {exec reps case} (hperfect : PerfectCase exec graders reps case)
include hperfect

theorem allPass_outcomeRun {grades : List GradeResult}
    (h : grades ∈ (outcomeRun exec graders reps case).2) : AllPass grades := by
  obtain ⟨row, hrow, -, hlabels⟩ := (outcomeRun_spec exec reps case).2.1 grades h
  intro r hr
  have hmem : r.label ∈ row.map (·.label) := hlabels ▸ List.mem_map_of_mem hr
  obtain ⟨r', hr', heq⟩ := List.mem_map.mp hmem
  rw [← heq]
  exact hperfect.2 row hrow r' hr'

/-- **Where everything passes**, every label is PASS. -/
theorem labels_of_perfect (hne : graders ≠ []) :
    (runScenario exec graders reps case).perRepetitionLabel = List.replicate reps .pass := by
  obtain ⟨hlength, hrows, herror⟩ := outcomeRun_spec exec reps case
  rw [runScenario, labels_outcomeFor case (herror hperfect.1) ?_
    fun grades hgrades => allPass_outcomeRun hperfect hgrades, hlength]
  intro grades hgrades hnil
  obtain ⟨row, hrow, -, hlabels⟩ := hrows grades hgrades
  rw [hnil, List.map_nil] at hlabels
  rw [gradesOf, gradesPerRep_eq] at hrow
  obtain ⟨rep, -, rfl⟩ := List.mem_map.mp hrow
  have hempty := List.map_eq_nil_iff.mp (List.map_eq_nil_iff.mp hlabels.symm)
  exact gradersForCase_ne_nil hne _ hempty

theorem graderLabels_of_perfect (hnamed : ∀ g ∈ graders, g.name.isSome) (grader : String) :
    (runScenario exec graders reps case).perGraderLabel.get? grader =
      if reps * (signatures graders case).count grader = 0 then none
      else some (List.replicate (reps * (signatures graders case).count grader) .pass) := by
  obtain ⟨hlength, hrows, -⟩ := outcomeRun_spec exec reps case
  have hsigned : ∀ grades ∈ (outcomeRun exec graders reps case).2,
      grades.map (·.grader) = signatures graders case := by
    intro grades hgrades
    obtain ⟨row, hrow, hgraders, -⟩ := hrows grades hgrades
    rw [hgraders, map_grader_of_mem_gradesOf exec reps case hnamed hrow]
  have hlen := length_signed grader hsigned
  rw [hlength] at hlen
  have hreplicate : (((outcomeRun exec graders reps case).2.flatten.filter fun r =>
      r.grader = grader).map (·.label)) =
        List.replicate (reps * (signatures graders case).count grader) .pass := by
    refine List.eq_replicate_iff.mpr ⟨by rw [List.length_map, hlen], fun label hlabel => ?_⟩
    obtain ⟨r, hr, rfl⟩ := List.mem_map.mp hlabel
    obtain ⟨grades, hgrades, hr⟩ := List.mem_flatten.mp (List.mem_filter.mp hr).1
    exact allPass_outcomeRun hperfect hgrades r hr
  rw [runScenario, get?_perGraderLabel]
  dsimp only
  rw [hreplicate]
  simp only [List.replicate_eq_nil_iff]

end Perfect
end Case

/-! ### Loops -/

section Loop
variable {loop : OptimizationLoop} {exec : Execution}

theorem outcomes_ne_nil : loop.outcomes exec ≠ [] := by
  rw [OptimizationLoop.outcomes, Ne, List.map_eq_nil_iff]
  exact loop.suite.cases_ne

theorem length_of_mem_outcomes {o : CaseOutcome} (ho : o ∈ loop.outcomes exec) :
    o.perRepetitionLabel.length = loop.reps := by
  obtain ⟨case, -, rfl⟩ := List.mem_map.mp ho
  exact length_labels exec loop.reps case

section Perfect
variable (hperfect : Perfect exec loop)
include hperfect

theorem labels_of_mem_outcomes {o : CaseOutcome} (ho : o ∈ loop.outcomes exec) :
    o.perRepetitionLabel ≠ [] ∧ ∀ label ∈ o.perRepetitionLabel, label = .pass := by
  obtain ⟨case, hcase, rfl⟩ := List.mem_map.mp ho
  rw [labels_of_perfect (hperfect case hcase) loop.suite.graders_ne]
  have := loop.reps_pos
  refine ⟨?_, fun label hlabel => List.eq_of_mem_replicate hlabel⟩
  rw [Ne, List.replicate_eq_nil_iff]
  omega

theorem mem_windowsOf (grader : String) (w : List GradeLabel) :
    w ∈ windowsOf grader (loop.outcomes exec) ↔
      ∃ case ∈ loop.suite.cases, grader ∈ signatures loop.suite.graders case ∧
        w = List.replicate (loop.reps *
          (signatures loop.suite.graders case).count grader) .pass := by
  rw [windowsOf, OptimizationLoop.outcomes, List.filterMap_map, List.mem_filterMap]
  refine exists_congr fun case => and_congr_right fun hcase => ?_
  rw [Function.comp_apply,
    graderLabels_of_perfect (hperfect case hcase) loop.suite.graders_named grader]
  have hpos : loop.reps * (signatures loop.suite.graders case).count grader = 0 ↔
      grader ∉ signatures loop.suite.graders case := by
    have := loop.reps_pos
    rw [Nat.mul_eq_zero, or_iff_right (by omega), List.count_eq_zero]
  by_cases hsigned : grader ∈ signatures loop.suite.graders case
  · have hne : ¬loop.reps * (signatures loop.suite.graders case).count grader = 0 := fun h =>
      hpos.mp h hsigned
    rw [if_neg hne, and_iff_right hsigned, Option.filter_some, if_pos (by simpa using hne),
      Option.some.injEq]
    exact eq_comm
  · rw [if_pos (hpos.mpr hsigned)]
    simp [hsigned]

/-- **Where everything passes**, a metric of the labels of cases is worth 1 when the repetitions are
enough for it. -/
theorem computeMetric_none_iff {name : String} (hname : PassMetric name) :
    computeMetric name (loop.outcomes exec) none = .ok 1 ↔ Reaches name loop.reps := by
  rw [computeMetric_eq_one_iff hname outcomes_ne_nil fun o => labels_of_mem_outcomes hperfect]
  constructor
  · intro h
    obtain ⟨o, ho⟩ := List.exists_mem_of_ne_nil _ (outcomes_ne_nil)
    exact length_of_mem_outcomes ho ▸ h o ho
  · intro h o ho
    rw [length_of_mem_outcomes ho]
    exact h

end Perfect
end Loop

/-- So many repetitions are enough for the primary metric, over the labels that it is scored on. -/
def PrimaryReaches (suite : Suite) (name : String) (reps : ℕ) : Option String → Prop
  | none => Reaches name reps
  | some grader =>
    (∃ case ∈ suite.cases, grader ∈ signatures suite.graders case) ∧
      ∀ case ∈ suite.cases, grader ∈ signatures suite.graders case →
        Reaches name (reps * (signatures suite.graders case).count grader)

theorem computeMetric_primary_iff {loop : OptimizationLoop} {exec : Execution}
    (hperfect : Perfect exec loop) {name : String} (hname : PassMetric name)
    (primaryGrader : Option String) :
    computeMetric name (loop.outcomes exec) primaryGrader = .ok 1 ↔
      PrimaryReaches loop.suite name loop.reps primaryGrader := by
  rcases primaryGrader with _ | grader
  · exact computeMetric_none_iff hperfect hname
  · have hwindows := mem_windowsOf hperfect grader
    rw [computeMetric_some hname outcomes_ne_nil, computePassMetricForGrader_eq_one_iff hname ?_,
      PrimaryReaches]
    · refine and_congr ?_ ?_
      · constructor
        · intro hne
          obtain ⟨w, hw⟩ := List.exists_mem_of_ne_nil _ hne
          obtain ⟨case, hcase, hsigned, -⟩ := (hwindows w).mp hw
          exact ⟨case, hcase, hsigned⟩
        · rintro ⟨case, hcase, hsigned⟩
          exact List.ne_nil_of_mem ((hwindows _).mpr ⟨case, hcase, hsigned, rfl⟩)
      · constructor
        · intro h case hcase hsigned
          have := h _ ((hwindows _).mpr ⟨case, hcase, hsigned, rfl⟩)
          rwa [List.length_replicate] at this
        · intro h w hw
          obtain ⟨case, hcase, hsigned, rfl⟩ := (hwindows w).mp hw
          rw [List.length_replicate]
          exact h case hcase hsigned
    · intro w hw
      obtain ⟨case, hcase, hsigned, rfl⟩ := (hwindows w).mp hw
      refine ⟨?_, fun label hlabel => List.eq_of_mem_replicate hlabel⟩
      have := loop.reps_pos
      have := List.count_pos_iff.mpr hsigned
      rw [Ne, List.replicate_eq_nil_iff]
      exact (Nat.mul_pos (by omega) this).ne'

/-! ### An execution in which everything passes -/

/-- Every invocation succeeds and every grader passes. -/
def Execution.passing : Execution where
  invoke _ _ _ := { traceId := "" }
  threadId _ rep := String.ofList (List.replicate rep 't')
  grade g _ _ := { grader := g.name.getD "", label := .pass, reason := "" }
  threadId_injective _ rep rep' h := by simpa using congrArg (fun s => s.toList.length) h
  grade_signed g _ _ name hname := by rw [Option.mem_def.mp hname, Option.getD_some]

theorem perfect_passing (loop : OptimizationLoop) : Perfect .passing loop := by
  intro case _
  constructor
  · have hturns : ∀ (n rep position : ℕ) (threadId : String),
        ∀ result ∈ Execution.passing.runScriptedTurns case rep threadId position n,
          result.error = none := by
      intro n
      induction n with
      | zero => exact fun _ _ _ result h => absurd h List.not_mem_nil
      | succ n ih =>
        intro rep position threadId result h
        rcases List.mem_cons.mp h with rfl | h
        · rfl
        · exact ih rep (position + 1) threadId result h
    intro result hresult
    unfold repetitionsOf at hresult
    split at hresult
    · obtain ⟨rep, -, hresult⟩ := List.mem_flatMap.mp hresult
      exact hturns _ _ _ _ result hresult
    · obtain ⟨rep, -, rfl⟩ := List.mem_map.mp hresult
      rfl
  · intro grades hgrades r hr
    rw [gradesOf, gradesPerRep_eq] at hgrades
    obtain ⟨rep, -, rfl⟩ := List.mem_map.mp hgrades
    obtain ⟨g, -, rfl⟩ := List.mem_map.mp hr
    rfl

/-! ### When a launch gives every declared metric its due -/

/-- So many repetitions are enough for what the experiment declares. -/
structure RepsSuffice (experiment : Experiment) (suite : Suite) (reps : ℕ) : Prop where
  passHat : ∀ name ∈ experiment.declaredMetrics, ∀ k ∈ Experiment.passHatK name, k ≤ reps
  passAt : ∀ name ∈ experiment.target.guardrails.map (·.name) ++ experiment.reliability.metrics,
    ∀ k ∈ passAtK name, 0 < sliceLength k reps
  primary : PassMetric experiment.target.primary.name →
    PrimaryReaches suite experiment.target.primary.name reps experiment.target.primaryGrader

theorem declaredRepetitionsRun_loop_iff (loop : OptimizationLoop) :
    DeclaredRepetitionsRun loop ↔ RepsSuffice loop.experiment loop.suite loop.reps := by
  constructor
  · intro h
    obtain ⟨hlabels, hmetrics⟩ := h .passing (loop.outcomes .passing) (.refl _)
    obtain ⟨hprimary, hothers⟩ := hmetrics (perfect_passing loop)
    refine ⟨fun name hname k hk => ?_, fun name hname k hk => ?_, fun hname => ?_⟩
    · obtain ⟨o, ho⟩ := List.exists_mem_of_ne_nil _ (outcomes_ne_nil)
      exact length_of_mem_outcomes ho ▸ hlabels o ho name hname k hk
    · have hpass : PassMetric name := .inl (Option.isSome_of_mem hk)
      exact ((computeMetric_none_iff (perfect_passing loop) hpass).mp (hothers name hname hpass)).2
        k hk
    · exact (computeMetric_primary_iff (perfect_passing loop) hname _).mp (hprimary hname)
  · rintro ⟨hhat, hat, hprimary⟩ exec outcomes hperm
    refine ⟨fun o ho name hname k hk => ?_,
      fun hperfect => ⟨fun hname => ?_, fun name hname hpass => ?_⟩⟩
    · rw [length_of_mem_outcomes (hperm.mem_iff.mp ho)]
      exact hhat name hname k hk
    · rw [computeMetric_congr hperm]
      exact (computeMetric_primary_iff hperfect hname _).mpr (hprimary hname)
    · rw [computeMetric_congr hperm]
      have hdeclared : name ∈ loop.experiment.declaredMetrics := List.mem_cons_of_mem _ hname
      exact (computeMetric_none_iff hperfect hpass).mpr ⟨hhat name hdeclared, hat name hname⟩

/-- **A launch gives every declared metric its due** exactly when the repetitions it asks for, one
if it asks for none, are enough. -/
theorem declaredRepetitionsRun_iff (experiment : Experiment) (suite : Suite)
    (body : RunExperimentRequest) (id : String) (now : Time) :
    (∃ loop, buildLoop experiment suite (launchExperimentRun experiment body id now) = some loop ∧
        DeclaredRepetitionsRun loop) ↔
      RepsSuffice experiment suite (launchReps body) := by
  rw [buildLoop_launchExperimentRun]
  constructor
  · rintro ⟨loop, hloop, h⟩
    obtain rfl := Option.some.inj hloop
    exact (declaredRepetitionsRun_loop_iff _).mp h
  · intro h
    exact ⟨_, rfl, (declaredRepetitionsRun_loop_iff _).mpr h⟩

/-- An experiment that runs every case three times, for `pass^3`. -/
def threefold : Experiment :=
  { Experiment.minimal with
    target := { primary := ⟨"pass^3", .ge, 9 / 10⟩ }
    run := { Experiment.minimal.run with repetitionsPerCase := 3 } }

/-- A case and a grader. -/
def oneCase : Suite where
  graders := [.mk (some "deterministic") (.inl (.cls .deterministic)) []]
  cases := [{ id := "case_1", turns_pos := turns_pos_none }]
  graders_ne := by simp
  cases_ne := by simp
  graders_named := by simp [Grader.name]

/-- Launched without `reps`, its cases are run once. -/
theorem not_all_declaredRepetitionsRun : ¬∀ (experiment : Experiment) (suite : Suite)
    (body : RunExperimentRequest) (id : String) (now : Time), experiment.Valid →
      ∃ loop, buildLoop experiment suite (launchExperimentRun experiment body id now) = some loop ∧
        DeclaredRepetitionsRun loop := by
  intro h
  have hvalid : threefold.Valid := by decide +kernel
  obtain ⟨loop, hloop, hrun⟩ := h threefold oneCase { reps_pos := by simp } "job_1" 0 hvalid
  rw [buildLoop_launchExperimentRun] at hloop
  obtain rfl := Option.some.inj hloop
  obtain ⟨hhat, -, -⟩ := (declaredRepetitionsRun_loop_iff _).mp hrun
  have hthree : (3 : ℤ) ≤ 1 := hhat "pass^3" (by decide) 3 (by decide)
  exact absurd hthree (by decide)

end Selfevals.Optimization.Repetitions
