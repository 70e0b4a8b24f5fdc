import Selfevals.Schemas.Base

/-!
# Run jobs and scenario jobs

`RunJob` is the durable envelope of one launched run, `ScenarioJob` one sharded unit of it (a case
of an iteration). The `mark_*` methods are functions from the job to the job they leave behind;
`mark_failed_or_dead_lettered` returns its verdict as well. A job's budget of attempts is positive,
which the schema checks and the structures carry.
-/

namespace Selfevals.Schemas.Job

open Schemas.Base

/-! ### Run jobs -/

/-- `RunJobStatus`. -/
inductive RunJobStatus
  | queued | leased | running | succeeded | failed | cancelled | deadLettered
deriving DecidableEq, Repr

/-- The verdict of `mark_failed_or_dead_lettered`. -/
inductive FailureOutcome
  | retry | dead
deriving DecidableEq, Repr

/-- `RunJob`. -/
structure RunJob extends BaseEntity where
  experimentId : String
  status : RunJobStatus := .queued
  attempt : ℕ := 0
  maxAttempts : ℕ := 3
  leaseOwner : Option String := none
  leaseExpiresAt : Option Time := none
  cancelRequestedAt : Option Time := none
  startedAt : Option Time := none
  finishedAt : Option Time := none
  lastError : Option String := none
  reps : ℕ := 1
  maxAttempts_pos : 1 ≤ maxAttempts := by decide
deriving DecidableEq

instance : Entity RunJob where
  base j := j.toBaseEntity
  withCreatedAt j t := { j with createdAt := t }
  base_withCreatedAt _ _ := rfl

namespace RunJob

/-- `is_terminal`. -/
def isTerminal (j : RunJob) : Bool :=
  match j.status with
  | .succeeded | .failed | .cancelled | .deadLettered => true
  | .queued | .leased | .running => false

/-- `should_cancel`. -/
def shouldCancel (j : RunJob) : Bool := j.cancelRequestedAt.isSome

/-- `mark_cancel_requested`. -/
def markCancelRequested (j : RunJob) (when : Time) : RunJob :=
  if !j.isTerminal && j.cancelRequestedAt.isNone then { j with cancelRequestedAt := some when }
  else j

/-- `mark_leased`. -/
def markLeased (j : RunJob) (owner : String) (leaseExpiresAt : Time) : RunJob :=
  { j with status := .leased, leaseOwner := some owner, leaseExpiresAt := some leaseExpiresAt }

/-- `mark_running`. -/
def markRunning (j : RunJob) (owner : String) (leaseExpiresAt startedAt : Time) : RunJob :=
  { j with
    status := .running
    leaseOwner := some owner
    leaseExpiresAt := some leaseExpiresAt
    startedAt := some (j.startedAt.getD startedAt) }

/-- `mark_succeeded`. -/
def markSucceeded (j : RunJob) (when : Time) : RunJob :=
  { j with
    status := .succeeded
    finishedAt := some when
    leaseOwner := none
    leaseExpiresAt := none
    lastError := none }

/-- `mark_cancelled`. -/
def markCancelled (j : RunJob) (when : Time) : RunJob :=
  { j with
    status := .cancelled
    finishedAt := some when
    leaseOwner := none
    leaseExpiresAt := none }

/-- `mark_failed_or_dead_lettered`. -/
def markFailedOrDeadLettered (j : RunJob) (error : String) (when : Time) :
    RunJob × FailureOutcome :=
  let j' : RunJob :=
    { j with lastError := some error, leaseOwner := none, leaseExpiresAt := none }
  if j.maxAttempts ≤ j.attempt then
    ({ j' with status := .deadLettered, finishedAt := some when }, .dead)
  else ({ j' with status := .failed }, .retry)

theorem isTerminal_iff (j : RunJob) :
    j.isTerminal = true ↔ j.status = .succeeded ∨ j.status = .failed ∨ j.status = .cancelled ∨
      j.status = .deadLettered := by
  unfold isTerminal
  cases j.status <;> simp

theorem markFailedOrDeadLettered_dead (j : RunJob) (error : String) (when : Time)
    (h : j.maxAttempts ≤ j.attempt) :
    (j.markFailedOrDeadLettered error when).1.status = .deadLettered ∧
      (j.markFailedOrDeadLettered error when).2 = .dead := by
  unfold markFailedOrDeadLettered
  simp [h]

theorem markFailedOrDeadLettered_retry (j : RunJob) (error : String) (when : Time)
    (h : j.attempt < j.maxAttempts) :
    (j.markFailedOrDeadLettered error when).1.status = .failed ∧
      (j.markFailedOrDeadLettered error when).2 = .retry := by
  unfold markFailedOrDeadLettered
  simp [Nat.not_le.mpr h]

@[simp] theorem markFailedOrDeadLettered_base (j : RunJob) (error : String) (when : Time) :
    (j.markFailedOrDeadLettered error when).1.toBaseEntity = j.toBaseEntity := by
  unfold markFailedOrDeadLettered
  dsimp only
  split_ifs <;> rfl

@[simp] theorem markFailedOrDeadLettered_cancel (j : RunJob) (error : String) (when : Time) :
    (j.markFailedOrDeadLettered error when).1.cancelRequestedAt = j.cancelRequestedAt := by
  unfold markFailedOrDeadLettered
  dsimp only
  split_ifs <;> rfl

@[simp] theorem markCancelRequested_base (j : RunJob) (when : Time) :
    (j.markCancelRequested when).toBaseEntity = j.toBaseEntity := by
  unfold markCancelRequested
  split_ifs <;> rfl

@[simp] theorem markCancelRequested_status (j : RunJob) (when : Time) :
    (j.markCancelRequested when).status = j.status := by
  unfold markCancelRequested
  split_ifs <;> rfl

theorem markCancelRequested_of_some {j : RunJob} {when t : Time}
    (h : j.cancelRequestedAt = some t) : j.markCancelRequested when = j := by
  unfold markCancelRequested
  rw [if_neg]
  simp [h]

end RunJob

/-! ### Scenario jobs -/

/-- `ScenarioJobStatus`. -/
inductive ScenarioJobStatus
  | pending | claimed | running | succeeded | failed | deadLettered | cancelled
deriving DecidableEq, Repr

/-- `ScenarioJob`. -/
structure ScenarioJob extends BaseEntity where
  runJobId : String
  experimentId : String
  iteration : ℕ := 0
  caseId : String
  reps : ℕ := 1
  status : ScenarioJobStatus := .pending
  attempt : ℕ := 0
  maxAttempts : ℕ := 3
  leaseUntil : Option Time := none
  workerId : Option String := none
  error : Option String := none
  startedAt : Option Time := none
  finishedAt : Option Time := none
  maxAttempts_pos : 1 ≤ maxAttempts := by decide
deriving DecidableEq

instance : Entity ScenarioJob where
  base j := j.toBaseEntity
  withCreatedAt j t := { j with createdAt := t }
  base_withCreatedAt _ _ := rfl

namespace ScenarioJob

/-- `is_terminal`. -/
def isTerminal (j : ScenarioJob) : Bool :=
  match j.status with
  | .succeeded | .failed | .deadLettered | .cancelled => true
  | .pending | .claimed | .running => false

/-- A retryable scenario job goes back to the claimable frontier (`pending`). -/
def markFailedOrDeadLettered (j : ScenarioJob) (error : String) (when : Time) :
    ScenarioJob × FailureOutcome :=
  let j' : ScenarioJob := { j with error := some error, workerId := none, leaseUntil := none }
  if j.maxAttempts ≤ j.attempt then
    ({ j' with status := .deadLettered, finishedAt := some when }, .dead)
  else ({ j' with status := .pending }, .retry)

theorem markFailedOrDeadLettered_status (j : ScenarioJob) (error : String) (when : Time) :
    (j.markFailedOrDeadLettered error when).1.status =
      if j.maxAttempts ≤ j.attempt then .deadLettered else .pending := by
  unfold markFailedOrDeadLettered
  dsimp only
  split_ifs <;> rfl

end ScenarioJob

end Selfevals.Schemas.Job
