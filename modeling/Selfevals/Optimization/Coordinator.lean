import Selfevals.Worker.ScenarioRunner

/-!
# The coordinator's aggregate

When the barrier of an iteration is clear, the coordinator aggregates the outcome rows. Rows are
written by the workers that succeed, and dead-lettering a job writes none, so what the aggregate
counts is all that was planned exactly when every dead-lettered job of the iteration happens to have
a row of errors (`accounted_iff`). In a run where no job is dead-lettered without one, every clear
barrier is followed by a full aggregate (`accounted_of_covered`).
-/

namespace Selfevals.Optimization.Coordinator

open Lib.Run Lib.Sql Schemas.Base Schemas.Enums Schemas.Job Graders.Base Optimization.Aggregator
  Optimization.ScenarioOutcomes Storage.ScenarioQueries Worker.LeaseSweeper Worker.ScenarioRunner

/-! ### Planned cases and counted cases -/

/-- The jobs of an iteration, one for each planned case. -/
def planned (s : Store) (runJobId : String) (iteration : ℕ) : List ScenarioJob :=
  s.scenarioJobs.filter (ofIteration runJobId iteration)

/-- `aggregate_iteration_from_storage`. -/
def aggregateIterationFromStorage (s : Store) (runJobId : String) (iteration : ℕ)
    (primaryMetric : String) (reliabilityMetrics : Option (List String))
    (primaryGrader : Option String) : Option (Except MetricError IterationAggregate) :=
  aggregateRows (scenarioOutcomesForIteration s.outcomes runJobId iteration) primaryMetric
    reliabilityMetrics primaryGrader

/-- Every repetition is labelled ERROR, and there is one. -/
def AllErrors (o : CaseOutcome) : Prop :=
  o.perRepetitionLabel ≠ [] ∧ ∀ label ∈ o.perRepetitionLabel, label = .error

/-- The aggregate counts every planned case, and each dead-lettered one as errored. -/
def Accounted (s : Store) (runJobId : String) (iteration : ℕ) (a : IterationAggregate) : Prop :=
  a.caseCount = (planned s runJobId iteration).length ∧
    ∀ j ∈ planned s runJobId iteration, j.status = .deadLettered →
      ∃ o ∈ a.caseOutcomes, o.caseId = j.caseId ∧ AllErrors o

/-- A row of errors. -/
def ErrorRow (r : OutcomeRow) : Prop :=
  r.fields.labels ≠ [] ∧ ∀ label ∈ r.fields.labels, label = Coded.value GradeLabel.error
deriving Decidable

/-- A row of errors is stored for a job. -/
def ErrorStored (s : Store) (j : ScenarioJob) : Prop :=
  ∃ r ∈ s.outcomes, outcomeKey r = jobKey j ∧ ErrorRow r
deriving Decidable

/-! ### The rows of an iteration -/

section Rows
variable {s : Store} {runJobId : String} {iteration : ℕ}

theorem errorRow_iff {r : OutcomeRow} {o : CaseOutcome} (h : r.fields = caseOutcomeToFields o) :
    ErrorRow r ↔ AllErrors o := by
  unfold ErrorRow AllErrors
  rw [h]
  simp only [caseOutcomeToFields, ne_eq, List.map_eq_nil_iff, List.forall_mem_map]
  refine and_congr_right fun _ => forall₂_congr fun label _ => ?_
  exact (Coded.value_injective (α := GradeLabel)).eq_iff

theorem mem_outcomesOfIteration {outcomes : List OutcomeRow} {r : OutcomeRow} :
    r ∈ outcomesOfIteration outcomes runJobId iteration ↔
      r ∈ outcomes ∧ r.runJobId = runJobId ∧ r.iteration = iteration := by
  rw [outcomesOfIteration, (orderBy_perm _ _).mem_iff, List.mem_filter]
  simp

theorem mem_planned {j : ScenarioJob} :
    j ∈ planned s runJobId iteration ↔
      j ∈ s.scenarioJobs ∧ j.runJobId = runJobId ∧ j.iteration = iteration := by
  rw [planned, List.mem_filter, ofIteration_iff]

theorem exists_outcomes (rows : List OutcomeRow)
    (h : ∀ r ∈ rows, ∃ o, r.fields = caseOutcomeToFields o) :
    ∃ outcomes : List CaseOutcome, rows.map (·.fields) = outcomes.map caseOutcomeToFields := by
  induction rows with
  | nil => exact ⟨[], rfl⟩
  | cons r rows ih =>
    obtain ⟨o, ho⟩ := h r List.mem_cons_self
    obtain ⟨outcomes, houtcomes⟩ := ih fun r hr => h r (List.mem_cons_of_mem _ hr)
    exact ⟨o :: outcomes, by rw [List.map_cons, List.map_cons, ho, houtcomes]⟩

theorem nodup_planned_cases (h : (s.scenarioJobs.map jobKey).Nodup) :
    ((planned s runJobId iteration).map (·.caseId)).Nodup := by
  have hkeys : ((planned s runJobId iteration).map jobKey).Nodup :=
    (List.filter_sublist.map jobKey).nodup h
  have heq : (planned s runJobId iteration).map jobKey =
      ((planned s runJobId iteration).map (·.caseId)).map fun c => (runJobId, iteration, c) := by
    rw [List.map_map]
    refine List.map_congr_left fun j hj => ?_
    obtain ⟨-, hrun, hit⟩ := mem_planned.mp hj
    show (j.runJobId, j.iteration, j.caseId) = (runJobId, iteration, j.caseId)
    rw [hrun, hit]
  rw [heq] at hkeys
  exact hkeys.of_map _

theorem nodup_row_cases (h : (s.outcomes.map outcomeKey).Nodup) :
    ((outcomesOfIteration s.outcomes runJobId iteration).map (·.fields.caseId)).Nodup := by
  have hkeys : ((outcomesOfIteration s.outcomes runJobId iteration).map outcomeKey).Nodup :=
    ((orderBy_perm _ _).map _).nodup_iff.mpr ((List.filter_sublist.map outcomeKey).nodup h)
  have heq : (outcomesOfIteration s.outcomes runJobId iteration).map outcomeKey =
      ((outcomesOfIteration s.outcomes runJobId iteration).map (·.fields.caseId)).map
        fun c => (runJobId, iteration, c) := by
    rw [List.map_map]
    refine List.map_congr_left fun r hr => ?_
    obtain ⟨-, hrun, hit⟩ := mem_outcomesOfIteration.mp hr
    show (r.runJobId, r.iteration, r.fields.caseId) = (runJobId, iteration, r.fields.caseId)
    rw [hrun, hit]
  rw [heq] at hkeys
  exact hkeys.of_map _

theorem length_rows (h : TablesInv s.scenarioJobs s.outcomes)
    (hall : ∀ j ∈ planned s runJobId iteration, HasOutcome s.outcomes (jobKey j)) :
    (outcomesOfIteration s.outcomes runJobId iteration).length =
      (planned s runJobId iteration).length := by
  have hperm : ((outcomesOfIteration s.outcomes runJobId iteration).map (·.fields.caseId)).Perm
      ((planned s runJobId iteration).map (·.caseId)) := by
    refine (List.perm_ext_iff_of_nodup (nodup_row_cases h.outcomeKeys)
      (nodup_planned_cases h.keys)).mpr fun c => ?_
    rw [List.mem_map, List.mem_map]
    constructor
    · rintro ⟨r, hr, rfl⟩
      obtain ⟨hmem, hrun, hit⟩ := mem_outcomesOfIteration.mp hr
      obtain ⟨j, hj, hkey⟩ := List.mem_map.mp (h.outcomeJobs _ (List.mem_map_of_mem hmem))
      obtain ⟨hrun', hit', hcase⟩ : j.runJobId = r.runJobId ∧ j.iteration = r.iteration ∧
          j.caseId = r.fields.caseId := by simpa [jobKey, outcomeKey] using hkey
      exact ⟨j, mem_planned.mpr ⟨hj, hrun'.trans hrun, hit'.trans hit⟩, hcase⟩
    · rintro ⟨j, hj, rfl⟩
      obtain ⟨-, hrun, hit⟩ := mem_planned.mp hj
      obtain ⟨r, hr, hkey⟩ := List.mem_map.mp (hall j hj)
      obtain ⟨hrun', hit', hcase⟩ : r.runJobId = j.runJobId ∧ r.iteration = j.iteration ∧
          r.fields.caseId = j.caseId := by simpa [jobKey, outcomeKey] using hkey
      exact ⟨r, mem_outcomesOfIteration.mpr ⟨hr, hrun'.trans hrun, hit'.trans hit⟩, hcase⟩
  simpa using hperm.length_eq

theorem status_of_clear (h : TablesInv s.scenarioJobs s.outcomes)
    (hclear : inFlight s.scenarioJobs runJobId iteration = 0) {j : ScenarioJob}
    (hj : j ∈ planned s runJobId iteration) :
    j.status = .succeeded ∨ j.status = .deadLettered := by
  obtain ⟨hmem, hof⟩ := List.mem_filter.mp hj
  obtain ⟨hp, hc, -⟩ := inFlight_eq_zero.mp hclear j hmem hof
  rcases h.statuses j hmem with hs | hs | hs | hs
  · exact absurd hs hp
  · exact absurd hs hc
  · exact Or.inl hs
  · exact Or.inr hs

/-- **A clear barrier is followed by a full aggregate exactly when each dead-lettered job of the
iteration has a row of errors.** -/
theorem accounted_iff (h : TablesInv s.scenarioJobs s.outcomes)
    (hclear : inFlight s.scenarioJobs runJobId iteration = 0) {primaryMetric : String}
    {reliabilityMetrics : Option (List String)} {primaryGrader : Option String}
    {a : IterationAggregate}
    (ha : aggregateIterationFromStorage s runJobId iteration primaryMetric reliabilityMetrics
      primaryGrader = some (.ok a)) :
    Accounted s runJobId iteration a ↔
      ∀ j ∈ planned s runJobId iteration, j.status = .deadLettered → ErrorStored s j := by
  obtain ⟨outcomes, hfields⟩ := exists_outcomes (outcomesOfIteration s.outcomes runJobId iteration)
    fun r hr => h.written r (mem_outcomesOfIteration.mp hr).1
  rw [aggregateIterationFromStorage, scenarioOutcomesForIteration, hfields,
    aggregateRows_toFields] at ha
  obtain ⟨houtcomes, hcount⟩ := caseOutcomes_of_ok (Option.some.inj ha)
  have hlength : (outcomesOfIteration s.outcomes runJobId iteration).length = a.caseCount := by
    rw [hcount]
    simpa using congrArg List.length hfields
  constructor
  · rintro ⟨-, hdead⟩ j hj hstatus
    obtain ⟨o, ho, hcase, herrors⟩ := hdead j hj hstatus
    rw [houtcomes] at ho
    have hrow : caseOutcomeToFields o ∈
        (outcomesOfIteration s.outcomes runJobId iteration).map (·.fields) := by
      rw [hfields]
      exact List.mem_map_of_mem ho
    obtain ⟨r, hr, hrf⟩ := List.mem_map.mp hrow
    obtain ⟨hmem, hrun, hit⟩ := mem_outcomesOfIteration.mp hr
    obtain ⟨-, hjrun, hjit⟩ := mem_planned.mp hj
    refine ⟨r, hmem, ?_, (errorRow_iff hrf).mpr herrors⟩
    have hrcase : r.fields.caseId = j.caseId := by
      rw [hrf]
      exact hcase
    simp only [outcomeKey, jobKey, hrun, hit, hjrun, hjit, hrcase]
  · intro hdead
    have hall : ∀ j ∈ planned s runJobId iteration, HasOutcome s.outcomes (jobKey j) := by
      intro j hj
      rcases status_of_clear h hclear hj with hs | hs
      · exact h.done j (mem_planned.mp hj).1 hs
      · obtain ⟨r, hr, hkey, -⟩ := hdead j hj hs
        exact List.mem_map.mpr ⟨r, hr, hkey⟩
    refine ⟨by rw [← hlength, length_rows h hall], fun j hj hstatus => ?_⟩
    obtain ⟨r, hr, hkey, herrors⟩ := hdead j hj hstatus
    obtain ⟨-, hjrun, hjit⟩ := mem_planned.mp hj
    obtain ⟨hrun, hit, hcase⟩ : r.runJobId = j.runJobId ∧ r.iteration = j.iteration ∧
        r.fields.caseId = j.caseId := by simpa [jobKey, outcomeKey] using hkey
    have hrow : r.fields ∈ outcomes.map caseOutcomeToFields := by
      rw [← hfields]
      exact List.mem_map_of_mem
        (mem_outcomesOfIteration.mpr ⟨hr, hrun.trans hjrun, hit.trans hjit⟩)
    obtain ⟨o, ho, hof⟩ := List.mem_map.mp hrow
    refine ⟨o, by rw [houtcomes]; exact ho, ?_, (errorRow_iff hof.symm).mp herrors⟩
    rw [← hcase, ← hof]
    rfl

end Rows

/-! ### Runs -/

section Runs
variable {ι : Type} [DecidableEq ι]

/-- The step dead-letters no job, or one that has a row of errors. -/
def Covered (s : State ι) : Op ι → Prop
  | .fail p _ _ =>
    match (s.worker p).held with
    | [] => True
    | sj :: _ => sj.attempt < sj.maxAttempts ∨ ErrorStored s.store sj
  | _ => True

instance (s : State ι) (op : Op ι) : Decidable (Covered s op) := by
  unfold Covered
  split
  · split <;> infer_instance
  · infer_instance

/-- Every dead-lettered job has a row of errors. -/
def DeadCovered (s : Store) : Prop :=
  ∀ j ∈ s.scenarioJobs, j.status = .deadLettered → ErrorStored s j

theorem deadCovered_step {s s' : State ι} {op : Op ι} (hinv : Inv s) (h : DeadCovered s.store)
    (hcov : Covered s op) (hs : step s op = some s') : DeadCovered s'.store := by
  cases op with
  | putRunJob row => obtain rfl := Option.some.inj hs; exact h
  | putExperiment row => obtain rfl := Option.some.inj hs; exact h
  | plan runJob iteration cases reps now =>
    simp only [step] at hs
    split_ifs at hs with hnew
    obtain rfl := Option.some.inj hs
    intro j hj hdead
    rcases (hinv.tables.plan runJob iteration reps now hnew.2.1 hnew.2.2).2.1 j hj with hj | ⟨case,
      -, rfl⟩
    · exact h j hj hdead
    · cases hdead
  | claim p runJobId iteration workerId leaseUntil batch locked =>
    simp only [step] at hs
    split_ifs at hs
    obtain rfl := Option.some.inj hs
    intro j hj hdead
    rcases mem_claim hinv.tables.ids hj with ⟨_, _, _, rfl, -⟩ | hj
    · cases hdead
    · exact h j hj hdead
  | writeOutcome p outcome outcomeId now =>
    simp only [step] at hs
    split at hs
    · cases hs
    · next sj rest hp =>
      split_ifs at hs with hcond
      obtain rfl := Option.some.inj hs
      intro j hj hdead
      obtain ⟨r, hr, hkey, herrors⟩ := h j hj hdead
      obtain ⟨j', hj', -, hkey', hclaimed⟩ := hinv.held p sj (by rw [hp]; exact List.mem_cons_self)
      -- the row written is that of a claimed job, and this job is dead
      have hne : outcomeKey r ≠ outcomeKey (outcomeRow sj outcome outcomeId now) := by
        intro heq
        have hsj : outcomeKey (outcomeRow sj outcome outcomeId now) = jobKey sj := by
          show (sj.runJobId, sj.iteration, outcome.caseId) = _
          rw [hcond.2]
          rfl
        obtain rfl := hinv.tables.eq_of_key hj' hj
          (hkey'.trans (hsj.symm.trans (heq.symm.trans hkey)))
        rw [hclaimed] at hdead
        cases hdead
      exact ⟨r, mem_writeScenarioOutcome_of_ne hr hne, hkey, herrors⟩
  | succeed p now =>
    simp only [step] at hs
    split at hs
    · cases hs
    · split_ifs at hs
      obtain rfl := Option.some.inj hs
      intro j hj hdead
      rcases mem_finalize hj with ⟨_, _, _, _, _, hst⟩ | ⟨hj, -⟩
      · rw [hst] at hdead
        cases hdead
      · exact h j hj hdead
  | fail p error now =>
    simp only [step] at hs
    split at hs
    · cases hs
    · next sj rest hp =>
      obtain rfl := Option.some.inj hs
      intro j hj hdead
      rcases mem_finalize hj with ⟨j₀, hj₀, hid, hkey, -, hst⟩ | ⟨hj, -⟩
      · simp only [Covered, hp] at hcov
        rw [hst, ScenarioJob.markFailedOrDeadLettered_status] at hdead
        split_ifs at hdead with hmax
        obtain ⟨r, hr, hrkey, herrors⟩ := hcov.resolve_left (Nat.not_lt.mpr hmax)
        obtain ⟨j₁, hj₁, hid₁, hkey₁, -⟩ := hinv.held p sj (by rw [hp]; exact List.mem_cons_self)
        obtain rfl := hinv.tables.eq_of_id hj₀ hj₁ (hid.trans hid₁.symm)
        exact ⟨r, hr, hrkey.trans (hkey₁.symm.trans hkey.symm), herrors⟩
      · exact h j hj hdead
  | die p => obtain rfl := Option.some.inj hs; exact h
  | sweep now batch withQueue =>
    obtain rfl := Option.some.inj hs
    obtain ⟨hjobs, houtcomes⟩ := sweepOnce_same s.store now batch withQueue
    intro j hj hdead
    rw [hjobs] at hj
    obtain ⟨r, hr, hrow⟩ := h j hj hdead
    exact ⟨r, by rw [houtcomes]; exact hr, hrow⟩

/-- **A run that dead-letters no job without a row of errors loses no case**: whenever a barrier is
clear, the aggregate counts all that was planned, the dead-lettered cases as errored. -/
theorem accounted_of_covered {as : List (Op ι)} {s : State ι}
    (hcov : Guarded step Covered init as) (hs : exec step init as = some s) {runJobId : String}
    {iteration : ℕ} (hclear : inFlight s.store.scenarioJobs runJobId iteration = 0)
    {primaryMetric : String} {reliabilityMetrics : Option (List String)}
    {primaryGrader : Option String} {a : IterationAggregate}
    (ha : aggregateIterationFromStorage s.store runJobId iteration primaryMetric reliabilityMetrics
      primaryGrader = some (.ok a)) : Accounted s.store runJobId iteration a := by
  have hboth : Inv s ∧ DeadCovered s.store := by
    refine inv_of_guarded (I := fun t => Inv t ∧ DeadCovered t.store) ?_
      ⟨inv_init, fun j hj => absurd hj List.not_mem_nil⟩ hcov hs
    exact fun t op t' ht hop hstep =>
      ⟨inv_step t op t' ht.1 hstep, deadCovered_step ht.1 ht.2 hop hstep⟩
  exact (accounted_iff hboth.1.tables hclear ha).mpr fun j hj => hboth.2 j (mem_planned.mp hj).1

end Runs

/-! ### Two cases, one of which fails for good -/

def onceRun : RunJob := Api.RunJobs.newRunJob "r" "w" "e" 0 1 1 Nat.one_pos

/-- Two cases are planned and claimed, and the first passes. -/
def firstPassed : List (Op Unit) :=
  [.putRunJob onceRun, .plan onceRun 0 [("c1", "j1"), ("c2", "j2")] 1 0,
    .claim () "r" 0 "w1" 10 4 [], .writeOutcome () passed "o1" 1, .succeed () 1]

def erred : CaseOutcome := ⟨"c2", [.error], [0], [], 0, 0, 0, 0, [], .empty, .empty, []⟩

/-- The second ends in errors, and recording that fails. -/
def secondErred : List (Op Unit) :=
  firstPassed ++ [.writeOutcome () erred "o2" 2, .fail () "connection lost" 3]

/-- The second raises. -/
def secondRaised : List (Op Unit) := firstPassed ++ [.fail () "boom" 2]

def stateAfter (as : List (Op Unit)) : State Unit := (exec step init as).getD init

/-- The aggregate of the first iteration, by pass@1. -/
def firstAggregate (s : Store) : IterationAggregate :=
  match aggregateIterationFromStorage s "r" 0 "pass@1" none none with
  | some (.ok a) => a
  | _ => { primaryMetric := "pass@1", primaryValue := 0 }

theorem exec_eq_stateAfter (as : List (Op Unit)) (h : (exec step init as).isSome = true) :
    exec step init as = some (stateAfter as) := by
  obtain ⟨s, hs⟩ := Option.isSome_iff_exists.mp h
  rw [stateAfter, hs]
  rfl

theorem aggregate_eq_firstAggregate {s : Store} (h : TablesInv s.scenarioJobs s.outcomes) :
    aggregateIterationFromStorage s "r" 0 "pass@1" none none = some (.ok (firstAggregate s)) := by
  obtain ⟨outcomes, hfields⟩ := exists_outcomes (outcomesOfIteration s.outcomes "r" 0)
    fun r hr => h.written r (mem_outcomesOfIteration.mp hr).1
  obtain ⟨a, ha⟩ := aggregateIteration_passAt1 outcomes
  have heq : aggregateIterationFromStorage s "r" 0 "pass@1" none none = some (.ok a) := by
    rw [aggregateIterationFromStorage, scenarioOutcomesForIteration, hfields,
      aggregateRows_toFields, ha]
  rw [firstAggregate, heq]

theorem accounted_secondErred :
    Accounted (stateAfter secondErred).store "r" 0
      (firstAggregate (stateAfter secondErred).store) :=
  have hs := exec_eq_stateAfter secondErred (by decide +kernel)
  accounted_of_covered (by decide +kernel) hs (by decide +kernel)
    (aggregate_eq_firstAggregate (inv_reachable ⟨_, hs⟩).tables)

/-- The case that raised is planned, and counted nowhere. -/
theorem secondRaised_lost :
    exec step init secondRaised = some (stateAfter secondRaised) ∧
      inFlight (stateAfter secondRaised).store.scenarioJobs "r" 0 = 0 ∧
      (planned (stateAfter secondRaised).store "r" 0).length = 2 ∧
      (firstAggregate (stateAfter secondRaised).store).caseCount = 1 ∧
      ¬ Accounted (stateAfter secondRaised).store "r" 0
        (firstAggregate (stateAfter secondRaised).store) := by
  have hs := exec_eq_stateAfter secondRaised (by decide +kernel)
  have hcount : (firstAggregate (stateAfter secondRaised).store).caseCount = 1 := by decide +kernel
  refine ⟨hs, by decide +kernel, by decide +kernel, hcount, fun h => ?_⟩
  have hlen : (planned (stateAfter secondRaised).store "r" 0).length = 2 := by decide +kernel
  have hboth := h.1
  omega

end Selfevals.Optimization.Coordinator
