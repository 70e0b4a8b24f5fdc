import Selfevals.Api.RunJobs
import Selfevals.Lib.Result
import Selfevals.Runner.ExperimentStates
import Selfevals.Storage.ScenarioQueries

/-!
# The lease sweeper

`sweepOnce` is one pass of `worker/lease_sweeper.py`: the run jobs whose lease has lapsed are
listed, and each is read again and put through `mark_run_job_failed`.
-/

namespace Selfevals.Worker.LeaseSweeper

open Lib.Result Lib.Sql Schemas.Base Schemas.Job Schemas.Experiments Storage.Entity
  Storage.ScenarioQueries
open Api.RunJobs (leaseExpired midFlight)
open Runner.ExperimentStates (abortCopy abortCopy_eq)

/-- `_SWEEP_ERROR`. -/
def sweepError : String := "lease expired: worker presumed dead (OOMKill/SIGKILL)"

/-! ### Rows by id -/

section Tables
variable {α : Type} [Entity α]

open Entity (base)

/-- The row with an id. -/
def findRow (rows : List α) (id : String) : Option α := rows.find? fun r => (base r).id == id

/-- A table after a row is upserted. -/
def setRow (rows : List α) (row : α) : List α :=
  if rows.any fun r => (base r).id == (base row).id then
    updateWhere (fun r => (base r).id == (base row).id) (fun _ => row) rows
  else rows ++ [row]

/-- `put_entity` on a table. -/
def putRow (rows : List α) (workspaceId : String) (entity : α) : Except StorageError (List α) :=
  (putEntity workspaceId (findRow rows (base entity).id) entity).map (setRow rows)

end Tables

/-! ### One pass -/

/-- `_abort_experiment_in_scope`. -/
def abortExperimentInScope (s : Store) (workspaceId experimentId : String) :
    Except StorageError Store :=
  match (findRow s.experiments experimentId).filter (·.workspaceId == workspaceId) with
  | none => .ok s
  | some e =>
    match abortCopy e with
    | none => .ok s
    | some e' => (putRow s.experiments workspaceId e').map fun rows =>
      { s with experiments := rows }

/-- `mark_run_job_failed`: the store after it, and the verdict. -/
def markRunJobFailed (s : Store) (job : RunJob) (error : String) (now : Time) :
    Except StorageError (Store × FailureOutcome) :=
  let failed := job.markFailedOrDeadLettered error now
  (if failed.2 =
    .dead then abortExperimentInScope s job.workspaceId job.experimentId else .ok s) >>=
    fun s => (putRow s.runJobs job.workspaceId failed.1).map fun rows =>
      ({ s with runJobs := rows }, failed.2)

/-- `get_run_job`. -/
def getRunJob (s : Store) (workspaceId jobId : String) : Except StorageError (Option RunJob) :=
  match findRow s.runJobs jobId with
  | none => .ok none
  | some job =>
    if job.workspaceId = workspaceId then .ok (some job)
    else .error (.workspaceMismatch workspaceId job.workspaceId)

/-- What is listed of a run job. -/
def listing (j : RunJob) : String × String := (j.workspaceId, j.id)

/-- `expired_run_job_leases`. -/
def expiredRunJobLeases (s : Store) (now : Time) (limit : ℕ) : List (String × String) :=
  ((orderBy (fun j : RunJob => j.leaseExpiresAt.getD 0)
    (s.runJobs.filter (leaseExpired · now))).take limit).map listing

/-- What the body of the loop does for one listed job: the store, and the verdict if it reaped. -/
def sweepJob (s : Store) (now : Time) (listed : String × String) :
    Except StorageError (Store × Option FailureOutcome) :=
  getRunJob s listed.1 listed.2 >>= fun
    | none => .ok (s, none)
    | some job =>
      if job.isTerminal then .ok (s, none)
      else (markRunJobFailed s job sweepError now).map fun result => (result.1, some result.2)

/-- The store after a pass, how many jobs it reaped, and the ids it re-enqueued. -/
structure SweepResult where
  store : Store
  reaped : ℕ := 0
  requeued : List String := []

/-- The loop over the listed jobs; an error ends the pass. -/
def sweepListed (now : Time) (withQueue : Bool) : List (String × String) → SweepResult → SweepResult
  | [], r => r
  | listed :: rest, r =>
    match sweepJob r.store now listed with
    | .error _ => r
    | .ok (store, none) => sweepListed now withQueue rest { r with store }
    | .ok (store, some outcome) =>
      sweepListed now withQueue rest
        { store
          reaped := r.reaped + 1
          requeued :=
            if outcome = .retry ∧ withQueue then r.requeued ++ [listed.2] else r.requeued }

/-- `sweep_once`. -/
def sweepOnce (s : Store) (now : Time) (batch : ℕ) (withQueue : Bool) : SweepResult :=
  sweepListed now withQueue (expiredRunJobLeases s now batch) { store := s }

/-! ### Scenario jobs and outcomes -/

/-- The tables of the sharded work are the same in both stores. -/
def SameScenarios (s s' : Store) : Prop :=
  s'.scenarioJobs = s.scenarioJobs ∧ s'.outcomes = s.outcomes

theorem SameScenarios.trans {s t u : Store} (h : SameScenarios s t) (h' : SameScenarios t u) :
    SameScenarios s u :=
  ⟨h'.1.trans h.1, h'.2.trans h.2⟩

theorem abortExperimentInScope_same {s s' : Store} {workspaceId experimentId : String}
    (h : abortExperimentInScope s workspaceId experimentId = .ok s') :
    SameScenarios s s' ∧ s'.runJobs = s.runJobs := by
  unfold abortExperimentInScope at h
  split at h
  · obtain rfl := Except.ok.inj h
    exact ⟨⟨rfl, rfl⟩, rfl⟩
  · split at h
    · obtain rfl := Except.ok.inj h
      exact ⟨⟨rfl, rfl⟩, rfl⟩
    · obtain ⟨rows, -, rfl⟩ := map_eq_ok.mp h
      exact ⟨⟨rfl, rfl⟩, rfl⟩

theorem markRunJobFailed_same {s : Store} {job : RunJob} {error : String} {now : Time}
    {result : Store × FailureOutcome} (h : markRunJobFailed s job error now = .ok result) :
    SameScenarios s result.1 := by
  obtain ⟨t, habort, hput⟩ := bind_eq_ok.mp h
  obtain ⟨rows, -, rfl⟩ := map_eq_ok.mp hput
  split_ifs at habort
  · exact (abortExperimentInScope_same habort).1
  · obtain rfl := Except.ok.inj habort
    exact ⟨rfl, rfl⟩

theorem sweepJob_same {s : Store} {now : Time} {listed : String × String}
    {result : Store × Option FailureOutcome} (h : sweepJob s now listed = .ok result) :
    SameScenarios s result.1 := by
  obtain ⟨found, -, hbody⟩ := bind_eq_ok.mp h
  cases found with
  | none =>
    obtain rfl := Except.ok.inj hbody
    exact ⟨rfl, rfl⟩
  | some job =>
    dsimp only at hbody
    split_ifs at hbody
    · obtain rfl := Except.ok.inj hbody
      exact ⟨rfl, rfl⟩
    · obtain ⟨marked, hmark, rfl⟩ := map_eq_ok.mp hbody
      exact markRunJobFailed_same hmark

theorem sweepListed_same (now : Time) (withQueue : Bool) (listed : List (String × String))
    (r : SweepResult) : SameScenarios r.store (sweepListed now withQueue listed r).store := by
  induction listed generalizing r with
  | nil => exact ⟨rfl, rfl⟩
  | cons job rest ih =>
    unfold sweepListed
    split
    · exact ⟨rfl, rfl⟩
    · next hjob => exact (sweepJob_same hjob).trans (ih _)
    · next hjob => exact (sweepJob_same hjob).trans (ih _)

/-- **A pass touches no scenario job**, and no outcome. -/
theorem sweepOnce_same (s : Store) (now : Time) (batch : ℕ) (withQueue : Bool) :
    SameScenarios s (sweepOnce s now batch withQueue).store :=
  sweepListed_same now withQueue _ { store := s }

/-! ### Run jobs -/

section Tables
variable {α : Type} [Entity α]

open Entity (base)

theorem findRow_some {rows : List α} {id : String} {r : α} (h : findRow rows id = some r) :
    r ∈ rows ∧ (base r).id = id := by
  unfold findRow at h
  have hid := List.find?_some h
  exact ⟨List.mem_of_find?_eq_some h, by simpa using hid⟩

theorem findRow_of_mem {rows : List α} (hids : (rows.map fun r => (base r).id).Nodup) {r : α}
    (h : r ∈ rows) : findRow rows (base r).id = some r := by
  have hsome : (findRow rows (base r).id).isSome := by
    rw [findRow, List.find?_isSome]
    exact ⟨r, h, by simp⟩
  obtain ⟨r', hr'⟩ := Option.isSome_iff_exists.mp hsome
  obtain ⟨hmem, hid⟩ := findRow_some hr'
  rw [hr', eq_of_key hids hmem h hid]

theorem putRow_of_same {rows : List α} {row : α} (copy : α)
    (hfind : findRow rows (base row).id = some row) (hbase : base copy = base row) :
    putRow rows (base row).workspaceId copy =
      .ok (updateWhere (fun r => (base r).id == (base row).id)
        (fun _ => Entity.withCreatedAt copy (base row).createdAt) rows) := by
  have hput : putEntity (base row).workspaceId (some row) copy =
      .ok (Entity.withCreatedAt copy (base row).createdAt) := by
    rw [← hbase]
    rw [putEntity_of_same (by rw [hbase]) (by rw [hbase])]
    rw [upsert, hbase]
  have hmem := (findRow_some hfind).1
  have hany : rows.any fun r => (base r).id == (base row).id :=
    List.any_eq_true.mpr ⟨row, hmem, by simp⟩
  rw [putRow, hbase, hfind, hput]
  simp only [Except.map, setRow, Entity.base_withCreatedAt, hbase]
  rw [if_pos hany]

theorem mem_ids_setRow {rows : List α} {row : α} {id : String}
    (h : id ∈ rows.map fun r => (base r).id) : id ∈ (setRow rows row).map fun r => (base r).id := by
  obtain ⟨r, hr, rfl⟩ := List.mem_map.mp h
  unfold setRow
  split_ifs
  · by_cases hid : (base r).id = (base row).id
    · exact List.mem_map.mpr ⟨row, mem_updateWhere.mpr (Or.inl ⟨r, hr, by simpa using hid, rfl⟩),
        hid.symm⟩
    · exact List.mem_map.mpr ⟨r, mem_updateWhere.mpr (Or.inr ⟨hr, by simpa using hid⟩), rfl⟩
  · exact List.mem_map.mpr ⟨r, List.mem_append_left _ hr, rfl⟩

end Tables

theorem markRunJobFailed_ids {s : Store} {job : RunJob} {error : String} {now : Time}
    {result : Store × FailureOutcome} (h : markRunJobFailed s job error now = .ok result)
    {id : String} (hid : id ∈ s.runJobs.map (·.id)) : id ∈ result.1.runJobs.map (·.id) := by
  obtain ⟨t, habort, hput⟩ := bind_eq_ok.mp h
  obtain ⟨rows, hrows, rfl⟩ := map_eq_ok.mp hput
  have ht : t.runJobs = s.runJobs := by
    split_ifs at habort
    · exact (abortExperimentInScope_same habort).2
    · obtain rfl := Except.ok.inj habort
      rfl
  obtain ⟨row, -, rfl⟩ := map_eq_ok.mp hrows
  rw [ht]
  have hset : id ∈ (setRow s.runJobs row).map fun r => (Entity.base r).id := mem_ids_setRow hid
  exact hset

theorem sweepJob_ids {s : Store} {now : Time} {listed : String × String}
    {result : Store × Option FailureOutcome} (h : sweepJob s now listed = .ok result)
    {id : String} (hid : id ∈ s.runJobs.map (·.id)) : id ∈ result.1.runJobs.map (·.id) := by
  obtain ⟨found, -, hbody⟩ := bind_eq_ok.mp h
  cases found with
  | none =>
    obtain rfl := Except.ok.inj hbody
    exact hid
  | some job =>
    dsimp only at hbody
    split_ifs at hbody
    · obtain rfl := Except.ok.inj hbody
      exact hid
    · obtain ⟨marked, hmark, rfl⟩ := map_eq_ok.mp hbody
      exact markRunJobFailed_ids hmark hid

theorem sweepListed_ids (now : Time) (withQueue : Bool) (listed : List (String × String))
    {r : SweepResult} {id : String} (hid : id ∈ r.store.runJobs.map (·.id)) :
    id ∈ (sweepListed now withQueue listed r).store.runJobs.map (·.id) := by
  induction listed generalizing r with
  | nil => exact hid
  | cons job rest ih =>
    unfold sweepListed
    split
    · exact hid
    · next hjob => exact ih (sweepJob_ids hjob hid)
    · next hjob => exact ih (sweepJob_ids hjob hid)

theorem abortExperimentInScope_ok (s : Store) (workspaceId experimentId : String) :
    ∃ s', abortExperimentInScope s workspaceId experimentId = .ok s' := by
  unfold abortExperimentInScope
  cases hfind : (findRow s.experiments experimentId).filter (·.workspaceId == workspaceId) with
  | none => exact ⟨s, rfl⟩
  | some e =>
    obtain ⟨hrow, hws⟩ := Option.filter_eq_some_iff.mp hfind
    obtain ⟨-, hid⟩ := findRow_some hrow
    obtain rfl : e.workspaceId = workspaceId := by simpa using hws
    obtain rfl : e.id = experimentId := hid
    dsimp only
    rw [abortCopy_eq]
    by_cases hterm : e.isTerminal
    · exact ⟨s, by rw [if_pos hterm]⟩
    · rw [if_neg hterm]
      dsimp only
      have hput := putRow_of_same { e with state := .aborted } hrow rfl
      exact ⟨_, by rw [show e.workspaceId = (Entity.base e).workspaceId from rfl, hput]; rfl⟩

theorem markRunJobFailed_spec {s : Store} {job : RunJob} (hids : (s.runJobs.map (·.id)).Nodup)
    (hmem : job ∈ s.runJobs) (error : String) (now : Time) :
    ∃ s' outcome, markRunJobFailed s job error now = .ok (s', outcome) ∧
      s'.runJobs.map listing = s.runJobs.map listing ∧
      ∀ r ∈ s'.runJobs, midFlight r = false ∨ (r ∈ s.runJobs ∧ r.id ≠ job.id) := by
  let failed := job.markFailedOrDeadLettered error now
  have hfind : findRow s.runJobs job.id = some job := findRow_of_mem hids hmem
  have habort : ∃ t, (if failed.2 = .dead then
      abortExperimentInScope s job.workspaceId job.experimentId else .ok s) = .ok t ∧
      t.runJobs = s.runJobs := by
    by_cases hdead : failed.2 = .dead
    · obtain ⟨t, ht⟩ := abortExperimentInScope_ok s job.workspaceId job.experimentId
      exact ⟨t, by rw [if_pos hdead, ht], (abortExperimentInScope_same ht).2⟩
    · exact ⟨s, by rw [if_neg hdead], rfl⟩
  obtain ⟨t, ht, hrows⟩ := habort
  have hbase : failed.1.toBaseEntity = job.toBaseEntity :=
    RunJob.markFailedOrDeadLettered_base job error now
  have hput := putRow_of_same failed.1 hfind hbase
  have hstatus : midFlight failed.1 = false := by
    by_cases hmax : job.maxAttempts ≤ job.attempt
    · simp [midFlight, failed, (RunJob.markFailedOrDeadLettered_dead job error now hmax).1]
    · simp [midFlight, failed,
        (RunJob.markFailedOrDeadLettered_retry job error now (Nat.lt_of_not_le hmax)).1]
  refine ⟨_, failed.2, bind_eq_ok.mpr ⟨t, ht, map_eq_ok.mpr ⟨_, by rw [hrows]; exact hput, rfl⟩⟩,
    ?_, ?_⟩
  · rw [updateWhere, List.map_map]
    refine List.map_congr_left fun r hr => ?_
    by_cases hid : r.id = job.id
    · obtain rfl := eq_of_key hids hr hmem hid
      show listing (if r.id == r.id then _ else r) = listing r
      rw [if_pos (by simp)]
      show (failed.1.workspaceId, failed.1.id) = listing r
      rw [show failed.1.workspaceId = r.workspaceId by rw [hbase],
        show failed.1.id = r.id by rw [hbase]]
      rfl
    · show listing (if r.id == job.id then _ else r) = listing r
      rw [if_neg (by simpa using hid)]
  · intro r hr
    rcases mem_updateWhere.mp hr with ⟨-, -, -, rfl⟩ | ⟨hold, hne⟩
    · exact Or.inl hstatus
    · have hid : (r.id == job.id) = false := hne
      exact Or.inr ⟨hold, by simpa using hid⟩

theorem sweepJob_spec {s : Store} {job : RunJob} (hids : (s.runJobs.map (·.id)).Nodup)
    (hmem : job ∈ s.runJobs) (now : Time) :
    ∃ s' outcome, sweepJob s now (listing job) = .ok (s', outcome) ∧
      s'.runJobs.map listing = s.runJobs.map listing ∧
      ∀ r ∈ s'.runJobs, midFlight r = false ∨ (r ∈ s.runJobs ∧ r.id ≠ job.id) := by
  have hget : getRunJob s job.workspaceId job.id = .ok (some job) := by
    have hfind : findRow s.runJobs job.id = some job := findRow_of_mem hids hmem
    rw [getRunJob, hfind]
    exact if_pos rfl
  by_cases hterm : job.isTerminal
  · refine ⟨s, none, bind_eq_ok.mpr ⟨some job, hget, if_pos hterm⟩, rfl, fun r hr => ?_⟩
    by_cases hid : r.id = job.id
    · obtain rfl := eq_of_key hids hr hmem hid
      rcases (RunJob.isTerminal_iff r).mp hterm with h | h | h | h <;> simp [midFlight, h]
    · exact Or.inr ⟨hr, hid⟩
  · obtain ⟨s', outcome, hmark, hlisting, hrows⟩ := markRunJobFailed_spec hids hmem sweepError now
    refine ⟨s', some outcome, bind_eq_ok.mpr ⟨some job, hget, ?_⟩, hlisting, hrows⟩
    dsimp only
    rw [if_neg hterm]
    exact map_eq_ok.mpr ⟨_, hmark, rfl⟩

theorem nodup_ids_of_listing {rows rows' : List RunJob} (h : rows'.map listing = rows.map listing)
    (hids : (rows.map (·.id)).Nodup) : (rows'.map (·.id)).Nodup := by
  have hsnd : ∀ rows : List RunJob, rows.map (·.id) = (rows.map listing).map Prod.snd := by
    intro rows
    rw [List.map_map]
    rfl
  rwa [hsnd, h, ← hsnd]

theorem sweepListed_runJobs (now : Time) (withQueue : Bool) (listed : List (String × String)) :
    ∀ r : SweepResult, (r.store.runJobs.map (·.id)).Nodup →
      (∀ l ∈ listed, l ∈ r.store.runJobs.map listing) →
      ∀ j ∈ (sweepListed now withQueue listed r).store.runJobs,
        midFlight j = false ∨ (j ∈ r.store.runJobs ∧ listing j ∉ listed) := by
  induction listed with
  | nil => exact fun r _ _ j hj => Or.inr ⟨hj, by simp⟩
  | cons l rest ih =>
    intro r hids hrows j hj
    obtain ⟨job, hmem, rfl⟩ := List.mem_map.mp (hrows l List.mem_cons_self)
    obtain ⟨s', outcome, hjob, hlisting, hspec⟩ := sweepJob_spec hids hmem now
    have hids' := nodup_ids_of_listing hlisting hids
    have hrest : ∀ l ∈ rest, l ∈ s'.runJobs.map listing := by
      intro l hl
      rw [hlisting]
      exact hrows l (List.mem_cons_of_mem _ hl)
    have hleft : midFlight j = false ∨ (j ∈ s'.runJobs ∧ listing j ∉ rest) := by
      rw [sweepListed, hjob] at hj
      cases outcome with
      | none => exact ih { r with store := s' } hids' hrest j hj
      | some outcome => exact ih ⟨s', _, _⟩ hids' hrest j hj
    rcases hleft with hflight | ⟨hin, hnot⟩
    · exact Or.inl hflight
    · rcases hspec j hin with hflight | ⟨hold, hne⟩
      · exact Or.inl hflight
      · refine Or.inr ⟨hold, fun hl => ?_⟩
        rcases List.mem_cons.mp hl with heq | hl
        · exact hne (congrArg Prod.snd heq)
        · exact hnot hl

/-- **No run job is left in flight with its lease over** after a pass whose batch holds them all. -/
theorem sweepOnce_runJobs {s : Store} (hids : (s.runJobs.map (·.id)).Nodup) {now : Time} {batch : ℕ}
    (hbatch : (s.runJobs.filter (leaseExpired · now)).length ≤ batch) (withQueue : Bool) :
    ∀ j ∈ (sweepOnce s now batch withQueue).store.runJobs, leaseExpired j now = false := by
  have hperm := orderBy_perm (fun j : RunJob => j.leaseExpiresAt.getD 0)
    (s.runJobs.filter (leaseExpired · now))
  have hall : expiredRunJobLeases s now batch =
      (orderBy (fun j : RunJob => j.leaseExpiresAt.getD 0)
        (s.runJobs.filter (leaseExpired · now))).map listing := by
    rw [expiredRunJobLeases, List.take_of_length_le (by rwa [hperm.length_eq])]
  have hrows : ∀ l ∈ expiredRunJobLeases s now batch, l ∈ s.runJobs.map listing := by
    intro l hl
    rw [hall] at hl
    obtain ⟨j, hj, rfl⟩ := List.mem_map.mp hl
    exact List.mem_map_of_mem (List.mem_of_mem_filter (hperm.mem_iff.mp hj))
  intro j hj
  rcases sweepListed_runJobs now withQueue _ { store := s } hids hrows j hj with hflight | ⟨hold,
    hno⟩
  · simp [leaseExpired, hflight]
  · by_contra hexp
    have hin : j ∈ s.runJobs.filter (leaseExpired · now) :=
      List.mem_filter.mpr ⟨hold, by simpa using hexp⟩
    rw [hall] at hno
    exact hno (List.mem_map_of_mem (hperm.mem_iff.mpr hin))

theorem defaultMaxAttempts_pos : 1 ≤ 3 := by decide

/-- A worker died in the last attempt of a job. -/
def lastAttempt : RunJob where
  id := "job_1"
  workspaceId := "ws_1"
  createdAt := 0
  updatedAt := 0
  experimentId := "exp_1"
  status := .running
  attempt := 3
  leaseOwner := some "worker_1"
  leaseExpiresAt := some 5
  maxAttempts_pos := defaultMaxAttempts_pos

theorem sweepOnce_runJobs_lastAttempt : leaseExpired lastAttempt 10 = true ∧
    ∀ j ∈ (sweepOnce { runJobs := [lastAttempt] } 10 50 true).store.runJobs,
      leaseExpired j 10 = false :=
  ⟨by decide, sweepOnce_runJobs (s := { runJobs := [lastAttempt] }) (List.nodup_singleton _)
    (by decide) true⟩

end Selfevals.Worker.LeaseSweeper
