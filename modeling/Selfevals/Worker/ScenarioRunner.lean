import Selfevals.Worker.LeaseSweeper

/-!
# Coordinators, scenario workers and the sweeper

The store and the worker processes of sharded runs. A coordinator plans an iteration's scenario
jobs; a worker claims a batch, and for each job of it in turn writes the outcome and finalizes the
job, or records a failure; it may die at any point. The sweeper makes its passes. Run jobs and
experiments are rows that other processes write at any time.

* `moved_step`: all that a step does to the scenario jobs and to what the workers hold.
-/

namespace Selfevals.Worker.ScenarioRunner

open Lib.Run Lib.Sql Schemas.Base Schemas.Job Schemas.Experiments Storage.ScenarioQueries
  Optimization.Aggregator Optimization.ScenarioOutcomes Worker.LeaseSweeper

/-! ### The system -/

/-- A worker process: the jobs of its batch that are not finished, in order, and whether the outcome
of the first of them is written. -/
structure WorkerState where
  held : List ScenarioJob := []
  wrote : Bool := false

/-- The tables, and what each worker holds. -/
structure State (ι : Type) where
  store : Store
  worker : ι → WorkerState

/-- What workers and the sweeper do. -/
inductive Op (ι : Type)
  /-- Some process writes a run job. -/
  | putRunJob (row : RunJob)
  /-- Some process writes an experiment. -/
  | putExperiment (row : Experiment)
  /-- `plan_scenario_jobs`, by a coordinator with its copy of the run job; each case comes with the
  id made for its job. -/
  | plan (runJob : RunJob) (iteration : ℕ) (cases : List (String × String)) (reps : ℕ) (now : Time)
  /-- The claim of `run_scenario_jobs_once`. -/
  | claim (p : ι) (runJobId : String) (iteration : ℕ) (workerId : String) (leaseUntil : Time)
      (batch : ℕ) (locked : List String)
  /-- The case has run and its outcome is written. -/
  | writeOutcome (p : ι) (outcome : CaseOutcome) (outcomeId : String) (now : Time)
  | succeed (p : ι) (now : Time)
  /-- The case raised, or writing its result did. -/
  | fail (p : ι) (error : String) (now : Time)
  /-- The process dies, or its batch is abandoned. -/
  | die (p : ι)
  | sweep (now : Time) (batch : ℕ) (withQueue : Bool)

/-- The job `plan_scenario_jobs` makes for a case. -/
def newScenarioJob (runJob : RunJob) (iteration reps : ℕ) (now : Time) (case : String × String) :
    ScenarioJob where
  id := case.2
  workspaceId := runJob.workspaceId
  createdAt := now
  updatedAt := now
  runJobId := runJob.id
  experimentId := runJob.experimentId
  iteration
  caseId := case.1
  reps
  maxAttempts := runJob.maxAttempts
  maxAttempts_pos := runJob.maxAttempts_pos

/-- The row `_run_one_scenario_job` writes for an outcome. -/
def outcomeRow (sj : ScenarioJob) (outcome : CaseOutcome) (outcomeId : String) (now : Time) :
    OutcomeRow where
  id := outcomeId
  workspaceId := sj.workspaceId
  createdAt := now
  updatedAt := now
  runJobId := sj.runJobId
  scenarioJobId := sj.id
  experimentId := sj.experimentId
  iteration := sj.iteration
  fields := caseOutcomeToFields outcome

variable {ι : Type}

/-- Tables without rows, and idle workers. -/
def init : State ι := ⟨{}, fun _ => {}⟩

section Step
variable [DecidableEq ι]

def State.setWorker (s : State ι) (p : ι) (w : WorkerState) : State ι :=
  { s with worker := Function.update s.worker p w }

/-- The first job a worker holds is finalized, and the worker goes on to the next. -/
def State.finish (s : State ι) (p : ι) (sj : ScenarioJob) (status : ScenarioJobStatus)
    (error : Option String) (now : Time) : State ι :=
  { s.setWorker p { held := (s.worker p).held.tail } with
    store := { s.store with
      scenarioJobs := finalizeScenarioJob s.store.scenarioJobs sj.id status error now } }

/-- One step; `none` where it cannot be taken. A planned job refers to a stored run job, and the ids
made for new jobs are new. -/
def step (s : State ι) : Op ι → Option (State ι)
  | .putRunJob row =>
    some { s with store := { s.store with runJobs := setRow s.store.runJobs row } }
  | .putExperiment row =>
    some { s with store := { s.store with experiments := setRow s.store.experiments row } }
  | .plan runJob iteration cases reps now =>
    if runJob.id ∈ s.store.runJobs.map (·.id) ∧ (cases.map Prod.snd).Nodup ∧
        ∀ case ∈ cases, case.2 ∉ s.store.scenarioJobs.map (·.id) then
      some { s with
        store := { s.store with
          scenarioJobs := insertScenarioJobs s.store.scenarioJobs
            (cases.map (newScenarioJob runJob iteration reps now)) } }
    else none
  | .claim p runJobId iteration workerId leaseUntil batch locked =>
    if (s.worker p).held.isEmpty ∧ runJobId ∈ s.store.runJobs.map (·.id) then
      let (jobs, held) := claimScenarioJobs s.store.scenarioJobs runJobId iteration workerId
        leaseUntil batch locked
      some { s.setWorker p { held } with store := { s.store with scenarioJobs := jobs } }
    else none
  | .writeOutcome p outcome outcomeId now =>
    match (s.worker p).held with
    | [] => none
    | sj :: _ =>
      if (s.worker p).wrote = false ∧ outcome.caseId = sj.caseId then
        some { s.setWorker p { s.worker p with wrote := true } with
          store := { s.store with
            outcomes := writeScenarioOutcome s.store.outcomes
              (outcomeRow sj outcome outcomeId now) } }
      else none
  | .succeed p now =>
    match (s.worker p).held with
    | [] => none
    | sj :: _ => if (s.worker p).wrote then some (s.finish p sj .succeeded none now) else none
  | .fail p error now =>
    match (s.worker p).held with
    | [] => none
    | sj :: _ =>
      let failed := (sj.markFailedOrDeadLettered error now).1
      some (s.finish p sj failed.status (some error) now)
  | .die p => some (s.setWorker p {})
  | .sweep now batch withQueue =>
    some { s with store := (sweepOnce s.store now batch withQueue).store }

/-! ### The invariant -/

/-- A key has an outcome row. -/
def HasOutcome (outcomes : List OutcomeRow) (k : Key) : Prop := k ∈ outcomes.map outcomeKey

/-- The row of a job a worker holds: claimed, and of the same case. -/
def ClaimedRow (jobs : List ScenarioJob) (sj : ScenarioJob) : Prop :=
  ∃ j ∈ jobs, j.id = sj.id ∧ jobKey j = jobKey sj ∧ j.status = .claimed

/-- What the tables hold. -/
structure TablesInv (jobs : List ScenarioJob) (outcomes : List OutcomeRow) : Prop where
  ids : (jobs.map (·.id)).Nodup
  keys : (jobs.map jobKey).Nodup
  statuses : ∀ j ∈ jobs, j.status = .pending ∨ j.status = .claimed ∨ j.status = .succeeded ∨
    j.status = .deadLettered
  outcomeKeys : (outcomes.map outcomeKey).Nodup
  outcomeJobs : ∀ k, HasOutcome outcomes k → k ∈ jobs.map jobKey
  written : ∀ r ∈ outcomes, ∃ o, r.fields = caseOutcomeToFields o
  done : ∀ j ∈ jobs, j.status = .succeeded → HasOutcome outcomes (jobKey j)

/-- The tables, and the workers: what a worker holds is claimed, and held by no other. -/
structure Inv (s : State ι) : Prop where
  tables : TablesInv s.store.scenarioJobs s.store.outcomes
  held : ∀ p, ∀ sj ∈ (s.worker p).held, ClaimedRow s.store.scenarioJobs sj
  heldIds : ∀ p, ((s.worker p).held.map (·.id)).Nodup
  apart : ∀ p q, p ≠ q → ∀ sj ∈ (s.worker p).held, ∀ sj' ∈ (s.worker q).held, sj.id ≠ sj'.id
  wrote : ∀ p sj rest, (s.worker p).held = sj :: rest → (s.worker p).wrote = true →
    HasOutcome s.store.outcomes (jobKey sj)

omit [DecidableEq ι] in
theorem inv_init : Inv (init : State ι) where
  tables :=
    { ids := List.nodup_nil
      keys := List.nodup_nil
      statuses := fun _ h => absurd h List.not_mem_nil
      outcomeKeys := List.nodup_nil
      outcomeJobs := fun _ h => absurd h List.not_mem_nil
      written := fun _ h => absurd h List.not_mem_nil
      done := fun _ h => absurd h List.not_mem_nil }
  held _ _ h := absurd h List.not_mem_nil
  heldIds _ := List.nodup_nil
  apart _ _ _ _ h := absurd h List.not_mem_nil
  wrote _ _ _ h := by cases h

theorem TablesInv.eq_of_key {jobs : List ScenarioJob} {outcomes : List OutcomeRow}
    (h : TablesInv jobs outcomes) {j j' : ScenarioJob} (hj : j ∈ jobs) (hj' : j' ∈ jobs)
    (hkey : jobKey j = jobKey j') : j = j' :=
  Lib.Sql.eq_of_key h.keys hj hj' hkey

theorem TablesInv.eq_of_id {jobs : List ScenarioJob} {outcomes : List OutcomeRow}
    (h : TablesInv jobs outcomes) {j j' : ScenarioJob} (hj : j ∈ jobs) (hj' : j' ∈ jobs)
    (hid : j.id = j'.id) : j = j' :=
  Lib.Sql.eq_of_key h.ids hj hj' hid

/-! ### What each step does to the tables -/

section Tables
variable {jobs : List ScenarioJob} {outcomes : List OutcomeRow}

theorem TablesInv.plan (h : TablesInv jobs outcomes) (runJob : RunJob) (iteration reps : ℕ)
    (now : Time) {cases : List (String × String)} (hnodup : (cases.map Prod.snd).Nodup)
    (hnew : ∀ case ∈ cases, case.2 ∉ jobs.map (·.id)) :
    (∀ j ∈ jobs, j ∈ insertScenarioJobs jobs
      (cases.map (newScenarioJob runJob iteration reps now))) ∧
      (∀ j ∈ insertScenarioJobs jobs (cases.map (newScenarioJob runJob iteration reps now)),
        j ∈ jobs ∨ ∃ case ∈ cases, j = newScenarioJob runJob iteration reps now case) ∧
      TablesInv (insertScenarioJobs jobs (cases.map (newScenarioJob runJob iteration reps now)))
        outcomes := by
  obtain ⟨added, hsub, heq, hkeys⟩ := insertScenarioJobs_eq jobs
    (cases.map (newScenarioJob runJob iteration reps now)) h.keys
  have hadded : ∀ j ∈ added, ∃ case ∈ cases, j = newScenarioJob runJob iteration reps now case := by
    intro j hj
    obtain ⟨case, hcase, hj⟩ := List.mem_map.mp (hsub.subset hj)
    exact ⟨case, hcase, hj.symm⟩
  have hrows : ∀ j ∈ jobs ++ added,
      j ∈ jobs ∨ ∃ case ∈ cases, j = newScenarioJob runJob iteration reps now case :=
    fun j hj => (List.mem_append.mp hj).imp_right (hadded j)
  have hpending : ∀ j ∈ jobs ++ added, j ∈ jobs ∨ j.status = .pending := by
    intro j hj
    rcases hrows j hj with hj | ⟨case, -, rfl⟩
    · exact Or.inl hj
    · exact Or.inr rfl
  have hids : (added.map (·.id)).Nodup := by
    have hmap : (cases.map (newScenarioJob runJob iteration reps now)).map (·.id) =
        cases.map Prod.snd := by
      rw [List.map_map]
      rfl
    exact (hsub.map (fun j : ScenarioJob => j.id)).nodup (hmap ▸ hnodup)
  rw [heq]
  refine ⟨fun j hj => List.mem_append_left _ hj, hrows, ?_⟩
  exact {
    ids := by
      rw [List.map_append]
      refine List.nodup_append.mpr ⟨h.ids, hids, ?_⟩
      rintro id hold id' hadd rfl
      obtain ⟨j, hj, rfl⟩ := List.mem_map.mp hadd
      obtain ⟨case, hcase, rfl⟩ := hadded j hj
      exact hnew case hcase hold
    keys := hkeys
    statuses := fun j hj => (hpending j hj).elim (h.statuses j) Or.inl
    outcomeKeys := h.outcomeKeys
    outcomeJobs := fun k hk => by
      rw [List.map_append]
      exact List.mem_append_left _ (h.outcomeJobs k hk)
    written := h.written
    done := fun j hj hstatus => by
      rcases hpending j hj with hj | hp
      · exact h.done j hj hstatus
      · rw [hp] at hstatus
        cases hstatus }

theorem TablesInv.claim (h : TablesInv jobs outcomes) (runJobId : String) (iteration : ℕ)
    (workerId : String) (leaseUntil : Time) (batch : ℕ) (locked : List String) :
    TablesInv (claimScenarioJobs jobs runJobId iteration workerId leaseUntil batch locked).1
      outcomes where
  ids := by rw [map_id_claim]; exact h.ids
  keys := by rw [map_key_claim]; exact h.keys
  statuses j hj := by
    rcases mem_claim h.ids hj with ⟨_, _, _, rfl, -⟩ | hj
    · exact Or.inr (Or.inl rfl)
    · exact h.statuses j hj
  outcomeKeys := h.outcomeKeys
  outcomeJobs k hk := by rw [map_key_claim]; exact h.outcomeJobs k hk
  written := h.written
  done j hj hstatus := by
    rcases mem_claim h.ids hj with ⟨_, _, _, rfl, -⟩ | hj
    · cases hstatus
    · exact h.done j hj hstatus

theorem TablesInv.write (h : TablesInv jobs outcomes) {sj : ScenarioJob} {outcome : CaseOutcome}
    (hrow : jobKey sj ∈ jobs.map jobKey) (hcase : outcome.caseId = sj.caseId) (outcomeId : String)
    (now : Time) :
    TablesInv jobs (writeScenarioOutcome outcomes (outcomeRow sj outcome outcomeId now)) := by
  have hkey : outcomeKey (outcomeRow sj outcome outcomeId now) = jobKey sj := by
    show (sj.runJobId, sj.iteration, outcome.caseId) = (sj.runJobId, sj.iteration, sj.caseId)
    rw [hcase]
  exact {
    ids := h.ids
    keys := h.keys
    statuses := h.statuses
    outcomeKeys := nodup_writeScenarioOutcome _ h.outcomeKeys
    outcomeJobs := fun k hk => by
      obtain ⟨r, hr, rfl⟩ := List.mem_map.mp hk
      rcases mem_writeScenarioOutcome hr with ⟨hr, -⟩ | ⟨hr, -⟩
      · exact h.outcomeJobs _ (List.mem_map_of_mem hr)
      · rw [hr, hkey]
        exact hrow
    written := fun r hr => by
      rcases mem_writeScenarioOutcome hr with ⟨hr, -⟩ | ⟨-, hr⟩
      · exact h.written r hr
      · exact ⟨outcome, hr⟩
    done := fun j hj hstatus =>
      key_mem_writeScenarioOutcome _ (Or.inl (h.done j hj hstatus)) }

theorem TablesInv.finalize (h : TablesInv jobs outcomes) {sj : ScenarioJob}
    (hrow : ClaimedRow jobs sj) {status : ScenarioJobStatus}
    (hstatus : status = .pending ∨ status = .deadLettered ∨
      status = .succeeded ∧ HasOutcome outcomes (jobKey sj))
    (error : Option String) (now : Time) :
    TablesInv (finalizeScenarioJob jobs sj.id status error now) outcomes where
  ids := by rw [map_id_finalize]; exact h.ids
  keys := by rw [map_key_finalize]; exact h.keys
  statuses j hj := by
    rcases mem_finalize hj with ⟨_, _, _, _, _, hst⟩ | ⟨hj, -⟩
    · rw [hst]
      rcases hstatus with hs | hs | ⟨hs, -⟩ <;> simp [hs]
    · exact h.statuses j hj
  outcomeKeys := h.outcomeKeys
  outcomeJobs k hk := by rw [map_key_finalize]; exact h.outcomeJobs k hk
  written := h.written
  done j hj hsucc := by
    rcases mem_finalize hj with ⟨j₀, hj₀, hid, hkey, -, hst⟩ | ⟨hj, -⟩
    · obtain ⟨j₁, hj₁, hid₁, hkey₁, -⟩ := hrow
      obtain rfl := h.eq_of_id hj₀ hj₁ (hid.trans hid₁.symm)
      rw [hst] at hsucc
      rcases hstatus with hs | hs | ⟨-, hout⟩
      · rw [hs] at hsucc; cases hsucc
      · rw [hs] at hsucc; cases hsucc
      · rw [hkey, hkey₁]
        exact hout
    · exact h.done j hj hsucc

end Tables

/-! ### Steps and runs -/

section Workers
variable {s : State ι}

@[simp] theorem setWorker_self (s : State ι) (p : ι) (w : WorkerState) :
    (s.setWorker p w).worker p = w :=
  Function.update_self ..

theorem setWorker_of_ne {p q : ι} (h : q ≠ p) (s : State ι) (w : WorkerState) :
    (s.setWorker p w).worker q = s.worker q :=
  Function.update_of_ne h ..

theorem Inv.drop (h : Inv s) {p : ι} {held : List ScenarioJob}
    (hsub : held.Sublist (s.worker p).held) : Inv (s.setWorker p { held }) := by
  have hheld : ∀ q, ((s.setWorker p { held }).worker q).held.Sublist (s.worker q).held := by
    intro q
    by_cases hq : q = p
    · subst hq
      rwa [setWorker_self]
    · rw [setWorker_of_ne hq]
  exact {
    tables := h.tables
    held := fun q sj hsj => h.held q sj ((hheld q).subset hsj)
    heldIds := fun q => ((hheld q).map (fun j : ScenarioJob => j.id)).nodup (h.heldIds q)
    apart := fun q q' hne sj hsj sj' hsj' =>
      h.apart q q' hne sj ((hheld q).subset hsj) sj' ((hheld q').subset hsj')
    wrote := fun q sj rest hq hw => by
      by_cases hqp : q = p
      · subst hqp
        rw [setWorker_self] at hw
        cases hw
      · rw [setWorker_of_ne hqp] at hq hw
        exact h.wrote q sj rest hq hw }

omit [DecidableEq ι] in
theorem Inv.withTables (h : Inv s) {store : Store}
    (htables : TablesInv store.scenarioJobs store.outcomes)
    (hrows : ∀ p, ∀ sj ∈ (s.worker p).held, ClaimedRow store.scenarioJobs sj)
    (hkeys : ∀ k, HasOutcome s.store.outcomes k → HasOutcome store.outcomes k) :
    Inv { s with store } where
  tables := htables
  held := hrows
  heldIds := h.heldIds
  apart := h.apart
  wrote p sj rest hp hw := hkeys _ (h.wrote p sj rest hp hw)

theorem Inv.finish (h : Inv s) {p : ι} {sj : ScenarioJob} {rest : List ScenarioJob}
    (hp : (s.worker p).held = sj :: rest) {status : ScenarioJobStatus}
    (hstatus : status = .pending ∨ status = .deadLettered ∨
      status = .succeeded ∧ HasOutcome s.store.outcomes (jobKey sj))
    (error : Option String) (now : Time) : Inv (s.finish p sj status error now) := by
  have hrow := h.held p sj (by rw [hp]; exact List.mem_cons_self)
  have hdrop : Inv (s.setWorker p { held := (s.worker p).held.tail }) :=
    h.drop (List.tail_sublist _)
  refine hdrop.withTables (h.tables.finalize hrow hstatus error now) ?_ fun _ hk => hk
  intro q sj' hsj'
  -- what is held now has another id than the job that was finished
  have hne : sj'.id ≠ sj.id := by
    by_cases hq : q = p
    · subst hq
      rw [setWorker_self, hp] at hsj'
      have hnodup := h.heldIds q
      rw [hp, List.map_cons, List.nodup_cons] at hnodup
      exact fun heq => hnodup.1 (heq ▸ List.mem_map_of_mem hsj')
    · rw [setWorker_of_ne hq] at hsj'
      exact h.apart q p hq sj' hsj' sj (by rw [hp]; exact List.mem_cons_self)
  obtain ⟨j, hj, hid, hkey, hclaimed⟩ := hdrop.held q sj' hsj'
  exact ⟨j, mem_finalize_of_ne hj (by rw [hid]; exact hne), hid, hkey, hclaimed⟩

theorem Inv.claim (h : Inv s) {p : ι} (hp : (s.worker p).held = []) (runJobId : String)
    (iteration : ℕ) (workerId : String) (leaseUntil : Time) (batch : ℕ) (locked : List String) :
    Inv { s.setWorker p
      { held := (claimScenarioJobs s.store.scenarioJobs runJobId iteration workerId
            leaseUntil batch locked).2 } with
          store := { s.store with
            scenarioJobs := (claimScenarioJobs s.store.scenarioJobs runJobId iteration workerId
              leaseUntil batch locked).1 } } := by
  have hids := h.tables.ids
  have hold : ∀ q, ∀ sj ∈ (s.worker q).held, ClaimedRow (claimScenarioJobs s.store.scenarioJobs
      runJobId iteration workerId leaseUntil batch locked).1 sj := by
    intro q sj hsj
    obtain ⟨j, hj, hid, hkey, hclaimed⟩ := h.held q sj hsj
    exact ⟨j, mem_claim_of_not_pending hids hj (by rw [hclaimed]; decide), hid, hkey, hclaimed⟩
  -- what is claimed was pending, so no other worker holds it
  have hfresh :
    ∀ sj ∈ (claimScenarioJobs s.store.scenarioJobs runJobId iteration workerId leaseUntil
      batch locked).2, ∀ q, ∀ sj' ∈ (s.worker q).held, sj.id ≠ sj'.id := by
    intro sj hsj q sj' hsj' heq
    obtain ⟨-, -, j, hj, hid, hpending⟩ := mem_claimed_rows hids hsj
    obtain ⟨j', hj', hid', -, hclaimed⟩ := h.held q sj' hsj'
    obtain rfl := h.tables.eq_of_id hj hj' (hid.trans (heq.trans hid'.symm))
    rw [hpending] at hclaimed
    cases hclaimed
  have hworker : ∀ q, q ≠ p → (Function.update s.worker p { held := (claimScenarioJobs
      s.store.scenarioJobs runJobId iteration workerId leaseUntil batch locked).2 } q) =
        s.worker q :=
    fun q hq => Function.update_of_ne hq ..
  refine ⟨h.tables.claim runJobId iteration workerId leaseUntil batch locked, ?_, ?_, ?_, ?_⟩
  · intro q sj hsj
    by_cases hq : q = p
    · subst hq
      simp only [State.setWorker, Function.update_self] at hsj
      obtain ⟨hrow, hclaimed, -⟩ := mem_claimed_rows hids hsj
      exact ⟨sj, hrow, rfl, rfl, hclaimed⟩
    · simp only [State.setWorker, hworker q hq] at hsj
      exact hold q sj hsj
  · intro q
    by_cases hq : q = p
    · subst hq
      simp only [State.setWorker, Function.update_self]
      exact nodup_claimed_rows hids
    · simp only [State.setWorker, hworker q hq]
      exact h.heldIds q
  · intro q q' hne sj hsj sj' hsj'
    by_cases hq : q = p
    · subst hq
      simp only [State.setWorker, Function.update_self] at hsj
      simp only [State.setWorker, hworker q' (Ne.symm hne)] at hsj'
      exact hfresh sj hsj q' sj' hsj'
    · simp only [State.setWorker, hworker q hq] at hsj
      by_cases hq' : q' = p
      · subst hq'
        simp only [State.setWorker, Function.update_self] at hsj'
        exact (hfresh sj' hsj' q sj hsj).symm
      · simp only [State.setWorker, hworker q' hq'] at hsj'
        exact h.apart q q' hne sj hsj sj' hsj'
  · intro q sj rest hqheld hw
    by_cases hq : q = p
    · subst hq
      simp only [State.setWorker, Function.update_self] at hw
      cases hw
    · simp only [State.setWorker, hworker q hq] at hqheld hw
      exact h.wrote q sj rest hqheld hw

theorem Inv.write (h : Inv s) {p : ι} {sj : ScenarioJob} {rest : List ScenarioJob}
    (hp : (s.worker p).held = sj :: rest) {outcome : CaseOutcome}
    (hcase : outcome.caseId = sj.caseId) (outcomeId : String) (now : Time) :
    Inv { s.setWorker p { s.worker p with wrote := true } with
          store := { s.store with
            outcomes := writeScenarioOutcome s.store.outcomes
              (outcomeRow sj outcome outcomeId now) } } := by
  obtain ⟨j, hj, -, hkey, -⟩ := h.held p sj (by rw [hp]; exact List.mem_cons_self)
  have hrow : jobKey sj ∈ s.store.scenarioJobs.map jobKey := hkey ▸ List.mem_map_of_mem hj
  have hheld : ∀ q, ((s.setWorker p { s.worker p with wrote := true }).worker q).held =
      (s.worker q).held := by
    intro q
    by_cases hq : q = p
    · subst hq
      rw [setWorker_self]
    · rw [setWorker_of_ne hq]
  refine ⟨h.tables.write hrow hcase outcomeId now, ?_, ?_, ?_, ?_⟩
  · intro q sj' hsj'
    exact h.held q sj' (hheld q ▸ hsj')
  · intro q
    have hids := h.heldIds q
    rw [← hheld q] at hids
    exact hids
  · intro q q' hne sj₁ hsj₁ sj₂ hsj₂
    exact h.apart q q' hne sj₁ (hheld q ▸ hsj₁) sj₂ (hheld q' ▸ hsj₂)
  · intro q sj' rest' hq hw
    refine key_mem_writeScenarioOutcome _ ?_
    by_cases hqp : q = p
    · subst hqp
      have hcons : sj' :: rest' = sj :: rest := hq.symm.trans ((hheld q).trans hp)
      obtain ⟨rfl, -⟩ := List.cons.inj hcons
      refine Or.inr ?_
      show (sj'.runJobId, sj'.iteration, sj'.caseId) = (sj'.runJobId, sj'.iteration, outcome.caseId)
      rw [hcase]
    · have hworker : (s.setWorker p { s.worker p with wrote := true }).worker q = s.worker q :=
        setWorker_of_ne hqp ..
      exact Or.inl (h.wrote q sj' rest' (hworker ▸ hq) (hworker ▸ hw))

end Workers

/-- **The invariant holds in every reachable state.** -/
theorem inv_step (s : State ι) (op : Op ι) (s' : State ι) (h : Inv s) (hs : step s op = some s') :
    Inv s' := by
  cases op with
  | putRunJob row =>
    obtain rfl := Option.some.inj hs
    exact h.withTables h.tables h.held fun _ hk => hk
  | putExperiment row =>
    obtain rfl := Option.some.inj hs
    exact h.withTables h.tables h.held fun _ hk => hk
  | plan runJob iteration cases reps now =>
    simp only [step] at hs
    split_ifs at hs with hnew
    obtain rfl := Option.some.inj hs
    obtain ⟨hkept, -, htables⟩ := h.tables.plan runJob iteration reps now hnew.2.1 hnew.2.2
    refine h.withTables htables (fun p sj hsj => ?_) fun _ hk => hk
    obtain ⟨j, hj, hrow⟩ := h.held p sj hsj
    exact ⟨j, hkept j hj, hrow⟩
  | claim p runJobId iteration workerId leaseUntil batch locked =>
    simp only [step] at hs
    split_ifs at hs with hidle
    obtain rfl := Option.some.inj hs
    exact h.claim (List.isEmpty_iff.mp hidle.1) runJobId iteration workerId leaseUntil batch locked
  | writeOutcome p outcome outcomeId now =>
    simp only [step] at hs
    split at hs
    · cases hs
    · next sj rest hp =>
      split_ifs at hs with hcond
      obtain rfl := Option.some.inj hs
      exact h.write hp hcond.2 outcomeId now
  | succeed p now =>
    simp only [step] at hs
    split at hs
    · cases hs
    · next sj rest hp =>
      split_ifs at hs with hwrote
      obtain rfl := Option.some.inj hs
      exact h.finish hp (Or.inr (Or.inr ⟨rfl, h.wrote p sj rest hp hwrote⟩)) none now
  | fail p error now =>
    simp only [step] at hs
    split at hs
    · cases hs
    · next sj rest hp =>
      obtain rfl := Option.some.inj hs
      refine h.finish hp ?_ (some error) now
      rw [ScenarioJob.markFailedOrDeadLettered_status]
      split_ifs
      · exact Or.inr (Or.inl rfl)
      · exact Or.inl rfl
  | die p =>
    obtain rfl := Option.some.inj hs
    exact h.drop (List.nil_sublist _)
  | sweep now batch withQueue =>
    obtain rfl := Option.some.inj hs
    obtain ⟨hjobs, houtcomes⟩ := sweepOnce_same s.store now batch withQueue
    refine h.withTables ?_ (fun p sj hsj => ?_) fun k hk => ?_
    · rw [hjobs, houtcomes]
      exact h.tables
    · rw [hjobs]
      exact h.held p sj hsj
    · rw [houtcomes]
      exact hk

/-! ### What a step moves -/

/-- The job whose execution the step ends: the first one the worker holds. -/
def ended (s : State ι) : Op ι → Option ScenarioJob
  | .succeed p _ | .fail p _ _ | .die p => (s.worker p).held.head?
  | _ => none

/-- What a step does to the scenario jobs, and to what the workers hold. -/
inductive Moved (s : State ι) (op : Op ι) (s' : State ι) : Prop
  | still (hop : ended s op = none) (hjobs : s'.store.scenarioJobs = s.store.scenarioJobs)
      (hheld : ∀ p, (s'.worker p).held = (s.worker p).held)
  | planned (hop : ended s op = none) (hold : ∀ j ∈ s.store.scenarioJobs, j ∈ s'.store.scenarioJobs)
      (hnew : ∀ j ∈ s'.store.scenarioJobs,
        j ∈ s.store.scenarioJobs ∨ j.status = .pending ∧ j.attempt = 0)
      (hheld : ∀ p, (s'.worker p).held = (s.worker p).held)
  | claimed (hop : ended s op = none) (p : ι) (runJobId : String) (iteration : ℕ)
      (workerId : String) (leaseUntil : Time) (batch : ℕ) (locked : List String)
      (hjobs : s'.store.scenarioJobs = (claimScenarioJobs s.store.scenarioJobs runJobId iteration
        workerId leaseUntil batch locked).1)
      (hself : (s'.worker p).held = (claimScenarioJobs s.store.scenarioJobs runJobId iteration
        workerId leaseUntil batch locked).2)
      (hheld : ∀ q, q ≠ p → (s'.worker q).held = (s.worker q).held)
  | finished (p : ι) (sj : ScenarioJob) (rest : List ScenarioJob) (status : ScenarioJobStatus)
      (error : Option String) (now : Time) (hop : ended s op = some sj)
      (hp : (s.worker p).held = sj :: rest)
      (hstatus : status = .succeeded ∨
        status = if sj.maxAttempts ≤ sj.attempt then .deadLettered else .pending)
      (hjobs : s'.store.scenarioJobs =
        finalizeScenarioJob s.store.scenarioJobs sj.id status error now)
      (hself : (s'.worker p).held = rest)
      (hheld : ∀ q, q ≠ p → (s'.worker q).held = (s.worker q).held)
  | died (p : ι) (hop : ended s op = (s.worker p).held.head?)
      (hjobs : s'.store.scenarioJobs = s.store.scenarioJobs) (hself : (s'.worker p).held = [])
      (hheld : ∀ q, q ≠ p → (s'.worker q).held = (s.worker q).held)

theorem moved_finish {s : State ι} {op : Op ι} {p : ι} {sj : ScenarioJob}
    {rest : List ScenarioJob} (hp : (s.worker p).held = sj :: rest) (hop : ended s op = some sj)
    {status : ScenarioJobStatus} (hstatus : status = .succeeded ∨
      status = if sj.maxAttempts ≤ sj.attempt then .deadLettered else .pending)
    (error : Option String) (now : Time) : Moved s op (s.finish p sj status error now) := by
  refine .finished p sj rest status error now hop hp hstatus rfl ?_ fun q hq => ?_
  · simp [State.finish, State.setWorker, hp]
  · simp [State.finish, State.setWorker, hq]

theorem moved_step {s s' : State ι} {op : Op ι} (h : Inv s) (hs : step s op = some s') :
    Moved s op s' := by
  cases op with
  | putRunJob row => obtain rfl := Option.some.inj hs; exact .still rfl rfl fun _ => rfl
  | putExperiment row => obtain rfl := Option.some.inj hs; exact .still rfl rfl fun _ => rfl
  | plan runJob iteration cases reps now =>
    simp only [step] at hs
    split_ifs at hs with hnew
    obtain rfl := Option.some.inj hs
    obtain ⟨hold, hrows, -⟩ := h.tables.plan runJob iteration reps now hnew.2.1 hnew.2.2
    refine .planned rfl hold (fun j hj => (hrows j hj).imp_right ?_) fun _ => rfl
    rintro ⟨case, -, rfl⟩
    exact ⟨rfl, rfl⟩
  | claim p runJobId iteration workerId leaseUntil batch locked =>
    simp only [step] at hs
    split_ifs at hs with hidle
    obtain rfl := Option.some.inj hs
    refine .claimed rfl p runJobId iteration workerId leaseUntil batch locked rfl ?_ fun q hq => ?_
    · simp [State.setWorker]
    · simp [State.setWorker, hq]
  | writeOutcome p outcome outcomeId now =>
    simp only [step] at hs
    split at hs
    · cases hs
    · split_ifs at hs
      obtain rfl := Option.some.inj hs
      refine .still rfl rfl fun q => ?_
      by_cases hq : q = p
      · subst hq
        simp [State.setWorker]
      · simp [State.setWorker, hq]
  | succeed p now =>
    simp only [step] at hs
    split at hs
    · cases hs
    · next sj rest hp =>
      split_ifs at hs
      obtain rfl := Option.some.inj hs
      exact moved_finish hp (by simp [ended, hp]) (Or.inl rfl) none now
  | fail p error now =>
    simp only [step] at hs
    split at hs
    · cases hs
    · next sj rest hp =>
      obtain rfl := Option.some.inj hs
      exact moved_finish hp (by simp [ended, hp])
        (Or.inr (ScenarioJob.markFailedOrDeadLettered_status sj error now)) (some error) now
  | die p =>
    obtain rfl := Option.some.inj hs
    refine .died p rfl rfl ?_ fun q hq => ?_
    · rw [setWorker_self]
    · rw [setWorker_of_ne hq]
  | sweep now batch withQueue =>
    obtain rfl := Option.some.inj hs
    exact .still rfl (sweepOnce_same s.store now batch withQueue).1 fun _ => rfl

theorem inv_reachable {s : State ι} (h : Reachable step init s) : Inv s :=
  inv_of_reachable inv_step inv_init h

end Step

end Selfevals.Worker.ScenarioRunner
