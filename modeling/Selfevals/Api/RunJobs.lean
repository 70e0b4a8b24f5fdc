import Selfevals.Schemas.Job
import Selfevals.Storage.Entity

/-!
# Run-job helpers

The pure part of `api/run_jobs.py`, on one run job: what `lease_run_job` decides from the row it has
read, what the `mark_run_job_*` helpers and `request_cancel_run_job` write, and the direct `UPDATE`
of the heartbeat.
-/

namespace Selfevals.Api.RunJobs

open Schemas.Base Schemas.Job Storage.Entity

/-- `DEFAULT_MAX_ATTEMPTS`. -/
def defaultMaxAttempts : ℕ := 3

theorem one_le_defaultMaxAttempts : 1 ≤ defaultMaxAttempts := by decide

/-- `DEFAULT_LEASE_SECONDS`. -/
def defaultLeaseSeconds : ℤ := 300

/-- The job `create_run_job` persists. -/
def newRunJob (id workspaceId experimentId : String) (now : Time) (reps : ℕ)
    (maxAttempts : ℕ) (hmax : 1 ≤ maxAttempts) : RunJob where
  id := id
  workspaceId := workspaceId
  createdAt := now
  updatedAt := now
  experimentId := experimentId
  maxAttempts := maxAttempts
  maxAttempts_pos := hmax
  reps := reps

/-- The lease is free at `now`: there is none, or it is over. -/
def leaseFree (job : RunJob) (now : Time) : Bool :=
  match job.leaseExpiresAt with
  | none => true
  | some t => t ≤ now

/-- What `lease_run_job` decides from the job it has read: the leased copy, or nothing. -/
def leaseDecision (job : RunJob) (now : Time) (owner : String) (leaseSeconds : ℤ) :
    Option RunJob :=
  if job.isTerminal then none
  else if !leaseFree job now then none
  else some ({ job with attempt := job.attempt + 1 }.markLeased owner (now + seconds leaseSeconds))

/-- The whole of `lease_run_job` when nothing comes between its read and its write: the row it
leaves and the job it yields. -/
def leaseRunJob (stored : RunJob) (now : Time) (owner : String) (leaseSeconds : ℤ) :
    Except StorageError (RunJob × Option RunJob) :=
  match leaseDecision stored now owner leaseSeconds with
  | none => .ok (stored, none)
  | some leased => (putEntity leased.workspaceId (some stored) leased).map fun row =>
      (row, some leased)

/-- The copy `request_cancel_run_job` writes. -/
def cancelRequested (job : RunJob) (now : Time) : RunJob :=
  let job := job.markCancelRequested now
  if job.status = .queued then job.markCancelled now else job

/-- The row the `UPDATE` of `touch_run_job_lease` applies to. -/
def midFlight (job : RunJob) : Bool := job.status = .leased || job.status = .running

/-- `touch_run_job_lease`: the row after it, and whether a row was renewed. -/
def touchRunJobLease (row : RunJob) (owner : String) (leaseExpiresAt : Time) : RunJob × Bool :=
  if midFlight row then
    ({ row with
        leaseOwner := some owner
        leaseExpiresAt := some leaseExpiresAt
        updatedAt := leaseExpiresAt }, true)
  else (row, false)

/-- The `WHERE` of `expired_run_job_leases`. -/
def leaseExpired (row : RunJob) (now : Time) : Bool :=
  midFlight row && row.leaseExpiresAt.any (· < now)

/-- The statuses that are meant to be final: SUCCEEDED, CANCELLED and DEAD_LETTERED. -/
def Final (job : RunJob) : Prop :=
  job.status = .succeeded ∨ job.status = .cancelled ∨ job.status = .deadLettered
deriving Decidable

theorem isTerminal_iff_final (job : RunJob) :
    job.isTerminal = true ↔ Final job ∨ job.status = .failed := by
  rw [RunJob.isTerminal_iff]
  unfold Final
  tauto

theorem not_final_of_not_terminal {job : RunJob} (h : job.isTerminal = false) : ¬ Final job := by
  intro hfin
  rw [← Bool.not_eq_true, isTerminal_iff_final] at h
  exact h (Or.inl hfin)

theorem not_final_of_midFlight {job : RunJob} (h : midFlight job = true) : ¬ Final job := by
  intro hfin
  unfold midFlight at h
  rcases hfin with hfin | hfin | hfin <;> simp [hfin] at h

theorem Final.congr {job job' : RunJob} (h : job'.status = job.status) (hfin : Final job) :
    Final job' := by
  unfold Final at hfin ⊢
  rw [h]
  exact hfin

theorem leaseDecision_eq_some {job leased : RunJob} {now : Time} {owner : String} {n : ℤ}
    (h : leaseDecision job now owner n = some leased) :
    job.isTerminal = false ∧ leaseFree job now = true ∧
      leased = ({ job with attempt := job.attempt + 1 }.markLeased owner (now + seconds n)) := by
  unfold leaseDecision at h
  split_ifs at h with h1 h2
  exact ⟨by simpa using h1, by simpa using h2, (Option.some.inj h).symm⟩

theorem leaseRunJob_of_free {job : RunJob} {now : Time} (hterm : job.isTerminal = false)
    (hfree : leaseFree job now = true) (owner : String) (n : ℤ) :
    ∃ row leased, leaseRunJob job now owner n = .ok (row, some leased) ∧
      leased.leaseOwner = some owner ∧ leased.leaseExpiresAt = some (now + seconds n) := by
  let leased := { job with attempt := job.attempt + 1 }.markLeased owner (now + seconds n)
  have hd : leaseDecision job now owner n = some leased := by
    unfold leaseDecision
    rw [if_neg (by simp [hterm]), if_neg (by simp [hfree])]
  have hput : putEntity leased.workspaceId (some job) leased = .ok (upsert (some job) leased) :=
    putEntity_of_same (α := RunJob) rfl rfl
  refine ⟨upsert (some job) leased, leased, ?_, rfl, rfl⟩
  unfold leaseRunJob
  rw [hd]
  dsimp only
  rw [hput]
  rfl

theorem leaseRunJob_of_terminal {job : RunJob} (h : job.isTerminal = true) (now : Time)
    (owner : String) (n : ℤ) : leaseRunJob job now owner n = .ok (job, none) := by
  unfold leaseRunJob leaseDecision
  simp [h]

end Selfevals.Api.RunJobs
