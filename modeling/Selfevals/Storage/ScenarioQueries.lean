import Selfevals.Lib.Sql
import Selfevals.Optimization.ScenarioOutcomes
import Selfevals.Schemas.Experiments
import Selfevals.Schemas.Job

/-!
# The tables of a sharded run

`Store` holds the rows that the coordinator, the workers and the sweeper share. The functions are
the queries of `storage/postgres/queries.py` on it: planning, claiming and finalizing scenario jobs,
the barrier's counts, and writing and reading outcome rows.

* `insertScenarioJobs_eq` : planning appends some of the new jobs, one for each key;
* `mem_writeScenarioOutcome`, `key_mem_writeScenarioOutcome` : an outcome row is replaced under its
  key or added, and no key loses its row.
-/

namespace Selfevals.Storage.ScenarioQueries

open Lib.Sql Schemas.Base Schemas.Job Schemas.Experiments Optimization.ScenarioOutcomes

/-- A row of `scenario_outcomes`. -/
structure OutcomeRow where
  id : String
  workspaceId : String
  version : ℕ := 1
  createdAt : Time
  updatedAt : Time
  runJobId : String
  scenarioJobId : String
  experimentId : String
  iteration : ℕ
  fields : OutcomeFields

/-- The tables of run jobs, scenario jobs and outcomes. -/
structure Store where
  runJobs : List RunJob := []
  experiments : List Experiment := []
  scenarioJobs : List ScenarioJob := []
  outcomes : List OutcomeRow := []

/-- What `UNIQUE (run_job_id, iteration, case_id)` compares. -/
abbrev Key := String × ℕ × String

/-- What jobs are unique by. -/
def jobKey (j : ScenarioJob) : Key := (j.runJobId, j.iteration, j.caseId)

/-- What outcomes are unique by. -/
def outcomeKey (r : OutcomeRow) : Key := (r.runJobId, r.iteration, r.fields.caseId)

/-- `WHERE run_job_id = %s AND iteration = %s`. -/
def ofIteration (runJobId : String) (iteration : ℕ) (j : ScenarioJob) : Bool :=
  j.runJobId == runJobId && j.iteration == iteration

/-! ### Scenario jobs -/

/-- A claimed row: `updated_at` is set to the end of the lease, as the query has it. -/
def claimed (workerId : String) (leaseUntil : Time) (j : ScenarioJob) : ScenarioJob :=
  { j with
    status := .claimed
    workerId := some workerId
    leaseUntil := some leaseUntil
    attempt := j.attempt + 1
    updatedAt := leaseUntil }

/-- The ids a claim takes; `locked` are the rows that other claims hold and it skips. -/
def claimable (jobs : List ScenarioJob) (runJobId : String) (iteration : ℕ) (locked : List String)
    (batch : ℕ) : List String :=
  ((orderBy (·.id) (jobs.filter fun j =>
    ofIteration runJobId iteration j && j.status == .pending && j.id ∉ locked)).take batch).map
    (·.id)

/-- `claim_scenario_jobs`: the table after it, and the rows it returns. -/
def claimScenarioJobs (jobs : List ScenarioJob) (runJobId : String) (iteration : ℕ)
    (workerId : String) (leaseUntil : Time) (batch : ℕ) (locked : List String) :
    List ScenarioJob × List ScenarioJob :=
  let ids := claimable jobs runJobId iteration locked batch
  (updateWhere (fun j => j.id ∈ ids) (claimed workerId leaseUntil) jobs,
    (jobs.filter fun j => j.id ∈ ids).map (claimed workerId leaseUntil))

/-- `ON CONFLICT (run_job_id, iteration, case_id) DO NOTHING`. -/
def insertScenarioJob (jobs : List ScenarioJob) (job : ScenarioJob) : List ScenarioJob :=
  if jobs.any fun j => jobKey j == jobKey job then jobs else jobs ++ [job]

/-- `insert_scenario_jobs`. -/
def insertScenarioJobs (jobs new : List ScenarioJob) : List ScenarioJob :=
  new.foldl insertScenarioJob jobs

/-- `barrier_counts`, for one status. -/
def barrierCount (jobs : List ScenarioJob) (runJobId : String) (iteration : ℕ)
    (status : ScenarioJobStatus) : ℕ :=
  jobs.countP fun j => ofIteration runJobId iteration j && j.status == status

/-- The `in_flight` of `_await_barrier`. -/
def inFlight (jobs : List ScenarioJob) (runJobId : String) (iteration : ℕ) : ℕ :=
  barrierCount jobs runJobId iteration .pending + barrierCount jobs runJobId iteration .claimed +
    barrierCount jobs runJobId iteration .running

/-- `finalize_scenario_job`. -/
def finalizeScenarioJob (jobs : List ScenarioJob) (jobId : String) (status : ScenarioJobStatus)
    (error : Option String) (finishedAt : Time) : List ScenarioJob :=
  updateWhere (fun j => j.id == jobId) (fun j =>
    { j with
      status
      error
      workerId := none
      leaseUntil := none
      finishedAt := if status = .pending then j.finishedAt else some finishedAt
      updatedAt := finishedAt }) jobs

/-- The `WHERE` of `expired_scenario_job_leases`. -/
def scenarioLeaseExpired (j : ScenarioJob) (now : Time) : Bool :=
  (j.status == .claimed || j.status == .running) && j.leaseUntil.any (· < now)

/-- `expired_scenario_job_leases`. -/
def expiredScenarioJobLeases (jobs : List ScenarioJob) (now : Time) (limit : ℕ) :
    List (String × String) :=
  ((orderBy (fun j => j.leaseUntil.getD 0) (jobs.filter (scenarioLeaseExpired · now))).take
    limit).map fun j => (j.workspaceId, j.id)

/-! ### Outcomes -/

/-- `ON CONFLICT … DO UPDATE`: a row stored under the key keeps its `id` and `created_at` only. -/
def replaceOutcome (row : OutcomeRow) (outcomes : List OutcomeRow) : List OutcomeRow :=
  updateWhere (fun r => outcomeKey r == outcomeKey row)
    (fun r => { row with id := r.id, createdAt := r.createdAt }) outcomes

/-- `write_scenario_outcome`. -/
def writeScenarioOutcome (outcomes : List OutcomeRow) (row : OutcomeRow) : List OutcomeRow :=
  if outcomes.any fun r => outcomeKey r == outcomeKey row then replaceOutcome row outcomes
  else outcomes ++ [row]

/-- The rows of one iteration, in case order. -/
def outcomesOfIteration (outcomes : List OutcomeRow) (runJobId : String) (iteration : ℕ) :
    List OutcomeRow :=
  orderBy (·.fields.caseId) (outcomes.filter fun r =>
    r.runJobId == runJobId && r.iteration == iteration)

/-- `scenario_outcomes_for_iteration`. -/
def scenarioOutcomesForIteration (outcomes : List OutcomeRow) (runJobId : String)
    (iteration : ℕ) : List OutcomeFields :=
  (outcomesOfIteration outcomes runJobId iteration).map (·.fields)

/-! ### What the queries do -/

theorem ofIteration_iff {runJobId : String} {iteration : ℕ} {j : ScenarioJob} :
    ofIteration runJobId iteration j = true ↔ j.runJobId = runJobId ∧ j.iteration = iteration := by
  simp [ofIteration]

theorem inFlight_eq_zero {jobs : List ScenarioJob} {runJobId : String} {iteration : ℕ} :
    inFlight jobs runJobId iteration = 0 ↔ ∀ j ∈ jobs, ofIteration runJobId iteration j = true →
      j.status ≠ .pending ∧ j.status ≠ .claimed ∧ j.status ≠ .running := by
  unfold inFlight barrierCount
  rw [Nat.add_eq_zero_iff, Nat.add_eq_zero_iff, List.countP_eq_zero, List.countP_eq_zero,
    List.countP_eq_zero]
  constructor
  · rintro ⟨⟨hp, hc⟩, hr⟩ j hj hof
    refine ⟨fun h => hp j hj ?_, fun h => hc j hj ?_, fun h => hr j hj ?_⟩ <;> simp [hof, h]
  · intro h
    refine ⟨⟨fun j hj hb => ?_, fun j hj hb => ?_⟩, fun j hj hb => ?_⟩ <;>
      · simp only [Bool.and_eq_true, beq_iff_eq] at hb
        have := h j hj hb.1
        simp [hb.2] at this

theorem insertScenarioJobs_eq (jobs new : List ScenarioJob) (h : (jobs.map jobKey).Nodup) :
    ∃ added, added.Sublist new ∧ insertScenarioJobs jobs new = jobs ++ added ∧
      ((jobs ++ added).map jobKey).Nodup := by
  induction new generalizing jobs with
  | nil => exact ⟨[], .slnil, by simp [insertScenarioJobs], by simpa using h⟩
  | cons job new ih =>
    rw [insertScenarioJobs, List.foldl_cons, insertScenarioJob]
    by_cases hkey : jobs.any fun j => jobKey j == jobKey job
    · rw [if_pos hkey]
      obtain ⟨added, hsub, heq, hnodup⟩ := ih jobs h
      exact ⟨added, hsub.cons _, heq, hnodup⟩
    · rw [if_neg hkey]
      have hnew : jobKey job ∉ jobs.map jobKey := by simpa using hkey
      have hone : ((jobs ++ [job]).map jobKey).Nodup := by
        rw [List.map_append, List.map_singleton, ← List.concat_eq_append]
        exact h.concat hnew
      obtain ⟨added, hsub, heq, hnodup⟩ := ih _ hone
      refine ⟨job :: added, hsub.cons_cons _, ?_, ?_⟩
      · rw [← List.append_cons] at heq
        exact heq
      · rwa [← List.append_cons] at hnodup

theorem mem_claimable {jobs : List ScenarioJob} {runJobId : String} {iteration : ℕ}
    {locked : List String} {batch : ℕ} {id : String}
    (h : id ∈ claimable jobs runJobId iteration locked batch) :
    ∃ j ∈ jobs, j.id = id ∧ ofIteration runJobId iteration j = true ∧ j.status = .pending := by
  obtain ⟨j, hj, rfl⟩ := List.mem_map.mp h
  have hmem := (orderBy_perm _ _).mem_iff.mp (List.mem_of_mem_take hj)
  obtain ⟨hrow, hcond⟩ := List.mem_filter.mp hmem
  simp only [Bool.and_eq_true, beq_iff_eq] at hcond
  exact ⟨j, hrow, rfl, hcond.1.1, hcond.1.2⟩

theorem map_key_replaceOutcome (row : OutcomeRow) (outcomes : List OutcomeRow) :
    (replaceOutcome row outcomes).map outcomeKey = outcomes.map outcomeKey := by
  rw [replaceOutcome, updateWhere, List.map_map]
  refine List.map_congr_left fun r _ => ?_
  by_cases hr : outcomeKey r = outcomeKey row
  · have hset : outcomeKey { row with id := r.id, createdAt := r.createdAt } = outcomeKey row := rfl
    simp [hr, hset]
  · simp [hr]

section Jobs
variable {jobs : List ScenarioJob} {runJobId workerId : String} {iteration batch : ℕ}
  {leaseUntil : Time} {locked : List String}

theorem map_id_claim :
    (claimScenarioJobs jobs runJobId iteration workerId leaseUntil batch locked).1.map (·.id) =
      jobs.map (·.id) := by
  apply map_updateWhere
  exact fun _ => rfl

theorem map_key_claim :
    (claimScenarioJobs jobs runJobId iteration workerId leaseUntil batch locked).1.map jobKey =
      jobs.map jobKey := by
  apply map_updateWhere
  exact fun _ => rfl

theorem mem_claim (hids : (jobs.map (·.id)).Nodup) {j' : ScenarioJob}
    (h : j' ∈ (claimScenarioJobs jobs runJobId iteration workerId leaseUntil batch locked).1) :
    (∃ j ∈ jobs, j.status = .pending ∧ j' = claimed workerId leaseUntil j ∧
      j' ∈ (claimScenarioJobs jobs runJobId iteration workerId leaseUntil batch locked).2) ∨
      j' ∈ jobs := by
  rcases mem_updateWhere.mp h with ⟨j, hj, hid, rfl⟩ | ⟨hj, -⟩
  · obtain ⟨j₀, hj₀, heq, -, hpending⟩ := mem_claimable (of_decide_eq_true hid)
    obtain rfl := eq_of_key hids hj₀ hj heq
    exact Or.inl ⟨j₀, hj, hpending, rfl,
      List.mem_map_of_mem (List.mem_filter.mpr ⟨hj, hid⟩)⟩
  · exact Or.inr hj

theorem mem_claim_of_not_pending (hids : (jobs.map (·.id)).Nodup) {j : ScenarioJob} (h : j ∈ jobs)
    (hne : j.status ≠ .pending) :
    j ∈ (claimScenarioJobs jobs runJobId iteration workerId leaseUntil batch locked).1 := by
  refine mem_updateWhere.mpr (Or.inr ⟨h, decide_eq_false fun hid => hne ?_⟩)
  obtain ⟨j₀, hj₀, heq, -, hpending⟩ := mem_claimable hid
  obtain rfl := eq_of_key hids hj₀ h heq
  exact hpending

theorem mem_claimed_rows (hids : (jobs.map (·.id)).Nodup) {sj : ScenarioJob}
    (h : sj ∈ (claimScenarioJobs jobs runJobId iteration workerId leaseUntil batch locked).2) :
    sj ∈ (claimScenarioJobs jobs runJobId iteration workerId leaseUntil batch locked).1 ∧
      sj.status = .claimed ∧ ∃ j ∈ jobs, j.id = sj.id ∧ j.status = .pending := by
  obtain ⟨j, hj, rfl⟩ := List.mem_map.mp h
  obtain ⟨hmem, hid⟩ := List.mem_filter.mp hj
  obtain ⟨j₀, hj₀, heq, -, hpending⟩ := mem_claimable (of_decide_eq_true hid)
  obtain rfl := eq_of_key hids hj₀ hmem heq
  exact ⟨mem_updateWhere.mpr (Or.inl ⟨j₀, hmem, hid, rfl⟩), rfl, j₀, hmem, rfl, hpending⟩

theorem nodup_claimed_rows (hids : (jobs.map (·.id)).Nodup) :
    ((claimScenarioJobs jobs runJobId iteration workerId leaseUntil batch locked).2.map
      (·.id)).Nodup := by
  rw [claimScenarioJobs, List.map_map]
  exact (List.filter_sublist.map (fun j : ScenarioJob => j.id)).nodup hids

variable {jobId : String} {status : ScenarioJobStatus} {error : Option String} {finishedAt : Time}

theorem map_id_finalize :
    (finalizeScenarioJob jobs jobId status error finishedAt).map (·.id) = jobs.map (·.id) := by
  apply map_updateWhere
  exact fun _ => rfl

theorem map_key_finalize :
    (finalizeScenarioJob jobs jobId status error finishedAt).map jobKey = jobs.map jobKey := by
  apply map_updateWhere
  exact fun _ => rfl

/-- A row after `finalize_scenario_job` is the job's, with the new status, or another's as it was.
-/
theorem mem_finalize {j' : ScenarioJob}
    (h : j' ∈ finalizeScenarioJob jobs jobId status error finishedAt) :
    (∃ j ∈ jobs, j.id = jobId ∧ jobKey j' = jobKey j ∧ j'.id = jobId ∧ j'.status = status) ∨
      (j' ∈ jobs ∧ j'.id ≠ jobId) := by
  rcases mem_updateWhere.mp h with ⟨j, hj, hid, rfl⟩ | ⟨hj, hne⟩
  · have hid' : j.id = jobId := by simpa using hid
    exact Or.inl ⟨j, hj, hid', rfl, hid', rfl⟩
  · exact Or.inr ⟨hj, by simpa using hne⟩

theorem mem_finalize_of_ne {j : ScenarioJob} (h : j ∈ jobs) (hne : j.id ≠ jobId) :
    j ∈ finalizeScenarioJob jobs jobId status error finishedAt :=
  mem_updateWhere.mpr (Or.inr ⟨h, by simpa using hne⟩)

end Jobs

theorem mem_writeScenarioOutcome {outcomes : List OutcomeRow} {row r : OutcomeRow}
    (h : r ∈ writeScenarioOutcome outcomes row) :
    (r ∈ outcomes ∧ outcomeKey r ≠ outcomeKey row) ∨
      (outcomeKey r = outcomeKey row ∧ r.fields = row.fields) := by
  unfold writeScenarioOutcome at h
  split_ifs at h with hkey
  · rcases mem_updateWhere.mp h with ⟨r₀, -, -, rfl⟩ | ⟨hr, hne⟩
    · exact Or.inr ⟨rfl, rfl⟩
    · exact Or.inl ⟨hr, by simpa using hne⟩
  · rcases List.mem_append.mp h with hr | hr
    · refine Or.inl ⟨hr, fun heq => hkey ?_⟩
      exact List.any_eq_true.mpr ⟨r, hr, by simpa using heq⟩
    · rw [List.mem_singleton] at hr
      subst hr
      exact Or.inr ⟨rfl, rfl⟩

theorem mem_writeScenarioOutcome_of_ne {outcomes : List OutcomeRow} {row r : OutcomeRow}
    (h : r ∈ outcomes) (hne : outcomeKey r ≠ outcomeKey row) :
    r ∈ writeScenarioOutcome outcomes row := by
  unfold writeScenarioOutcome
  split_ifs
  · exact mem_updateWhere.mpr (Or.inr ⟨h, by simpa using hne⟩)
  · exact List.mem_append_left _ h

theorem key_mem_writeScenarioOutcome {outcomes : List OutcomeRow} (row : OutcomeRow) {k : Key}
    (h : k ∈ outcomes.map outcomeKey ∨ k = outcomeKey row) :
    k ∈ (writeScenarioOutcome outcomes row).map outcomeKey := by
  unfold writeScenarioOutcome
  split_ifs with hkey
  · rw [map_key_replaceOutcome]
    rcases h with h | rfl
    · exact h
    · obtain ⟨r, hr, heq⟩ := List.any_eq_true.mp hkey
      exact List.mem_map.mpr ⟨r, hr, by simpa using heq⟩
  · rw [List.map_append, List.mem_append]
    rcases h with h | rfl
    · exact Or.inl h
    · exact Or.inr (by simp)

theorem nodup_writeScenarioOutcome {outcomes : List OutcomeRow} (row : OutcomeRow)
    (h : (outcomes.map outcomeKey).Nodup) :
    ((writeScenarioOutcome outcomes row).map outcomeKey).Nodup := by
  unfold writeScenarioOutcome
  split_ifs with hkey
  · rwa [map_key_replaceOutcome]
  · have hnew : outcomeKey row ∉ outcomes.map outcomeKey := by simpa using hkey
    rw [List.map_append, List.map_singleton, ← List.concat_eq_append]
    exact h.concat hnew

/-! ### Rows written one after the other -/

theorem nodup_foldl_write {outcomes : List OutcomeRow} (rows : List OutcomeRow)
    (h : (outcomes.map outcomeKey).Nodup) :
    ((rows.foldl writeScenarioOutcome outcomes).map outcomeKey).Nodup := by
  induction rows generalizing outcomes with
  | nil => exact h
  | cons row rows ih => exact ih (nodup_writeScenarioOutcome row h)

/-- **A row holds what was written last under its key**, or is an old one. -/
theorem mem_foldl_write {outcomes : List OutcomeRow} (rows : List OutcomeRow) {r : OutcomeRow}
    (h : r ∈ rows.foldl writeScenarioOutcome outcomes) :
    (∃ row, (rows.filter fun row => outcomeKey row = outcomeKey r).getLast? = some row ∧
      r.fields = row.fields) ∨
      (r ∈ outcomes ∧ ∀ row ∈ rows, outcomeKey row ≠ outcomeKey r) := by
  induction rows using List.reverseRecOn with
  | nil => exact .inr ⟨h, fun _ hrow => absurd hrow List.not_mem_nil⟩
  | append_singleton rows last ih =>
    rw [List.foldl_append] at h
    rcases mem_writeScenarioOutcome h with ⟨hr, hne⟩ | ⟨hkey, hfields⟩
    · refine (ih hr).imp (fun ⟨row, hlast, hrow⟩ => ⟨row, ?_, hrow⟩) fun ⟨hr, hold⟩ => ⟨hr, ?_⟩
      · rwa [List.filter_append, List.filter_cons_of_neg (by simpa using hne.symm),
          List.filter_nil, List.append_nil]
      · intro row hrow
        rcases List.mem_append.mp hrow with hrow | hrow
        · exact hold row hrow
        · rw [List.mem_singleton.mp hrow]
          exact hne.symm
    · refine .inl ⟨last, ?_, hfields⟩
      rw [List.filter_append, List.filter_cons_of_pos (by simpa using hkey.symm), List.filter_nil,
        List.getLast?_concat]

theorem key_mem_foldl_write {outcomes : List OutcomeRow} (rows : List OutcomeRow) {k : Key}
    (h : k ∈ outcomes.map outcomeKey ∨ k ∈ rows.map outcomeKey) :
    k ∈ (rows.foldl writeScenarioOutcome outcomes).map outcomeKey := by
  induction rows generalizing outcomes with
  | nil => exact h.resolve_right List.not_mem_nil
  | cons row rows ih =>
    rw [List.map_cons, List.mem_cons, ← or_assoc] at h
    exact ih (h.imp_left (key_mem_writeScenarioOutcome row))

end Selfevals.Storage.ScenarioQueries
