import Selfevals.Api.TerminalAbsorption

/-!
# Is a run job leased within its budget of attempts?

`lease_run_job` adds one to the counter of the copy it has read and never compares it with
`max_attempts`: the comparison is in `mark_failed_or_dead_lettered`, which a job that is leased
again from an expired lease does not pass. The counter is a field of the copies like any other, so a
late write also puts an older count back.
-/

namespace Selfevals.Api.AttemptBudget

open Schemas.Base Schemas.Job Storage.Entity Api.RunJobs Api.JobSystem Lib.Run
open Api.TerminalAbsorption (basis basis_of_writes)

variable {ι : Type}

/-- How often the step gives the job to a worker. -/
def leasedBy (s : JobState ι) : Op ι → ℕ
  | .leasePut p =>
    match s.phase p with
    | .leaseDecided _ leased => if (s.tryPut leased).isSome then 1 else 0
    | _ => 0
  | _ => 0

/-- A step that writes a copy makes it from one with the stored count, and one that writes a lease
finds an attempt left. -/
def Counted (s : JobState ι) (op : Op ι) : Prop :=
  (∀ job ∈ basis s op, job.attempt = s.row.attempt) ∧
    (leasedBy s op = 1 → s.row.attempt < s.row.maxAttempts)
deriving Decidable

/-- What a lease was decided on has one attempt less than what it will write. -/
def Charges : Phase → Prop
  | .leaseDecided read leased => leased.attempt = read.attempt + 1
  | _ => True

theorem failed_attempt (job : RunJob) (error : String) (now : Time) :
    (job.markFailedOrDeadLettered error now).1.attempt = job.attempt := by
  unfold RunJob.markFailedOrDeadLettered
  dsimp only
  split_ifs <;> rfl

theorem cancelRequested_attempt (job : RunJob) (now : Time) :
    (cancelRequested job now).attempt = job.attempt := by
  have hreq : (job.markCancelRequested now).attempt = job.attempt := by
    unfold RunJob.markCancelRequested
    split_ifs <;> rfl
  unfold cancelRequested
  dsimp only
  split_ifs
  · exact hreq
  · exact hreq

theorem touched_attempt (row : RunJob) (o : String) (e : Time) :
    (touchRunJobLease row o e).1.attempt = row.attempt := by
  unfold touchRunJobLease
  split_ifs <;> rfl

theorem kept_maxAttempts (m : ℕ) : Kept (fun j => j.maxAttempts = m) fun _ => True where
  leased j now o n j' h hd := by
    obtain ⟨-, -, rfl⟩ := leaseDecision_eq_some hd
    exact h
  running _ _ _ _ h := h
  succeeded _ _ h := h
  failed j error now _ h := by
    unfold RunJob.markFailedOrDeadLettered
    dsimp only
    split_ifs
    · exact h
    · exact h
  cancelled _ _ h := h
  cancelRequested j now h := by
    have hreq : (j.markCancelRequested now).maxAttempts = m := by
      unfold RunJob.markCancelRequested
      split_ifs
      · exact h
      · exact h
    unfold cancelRequested
    dsimp only
    split_ifs
    · exact hreq
    · exact hreq
  touched j o e h := by
    unfold touchRunJobLease
    split_ifs
    · exact h
    · exact h
  upserted _ _ _ hc := hc

section Step
variable [DecidableEq ι] {owner : ι → String}

/-- How often the job is given to a worker along the run. -/
def leases (owner : ι → String) (s : JobState ι) (ops : List (Op ι)) : ℕ :=
  tally (step owner) leasedBy s ops

theorem charges_step {s s' : JobState ι} {op : Op ι} (h : ∀ p, Charges (s.phase p))
    (hs : step owner s op = some s') : ∀ p, Charges (s'.phase p) := by
  rcases phase_step hs with heq | ⟨p, ph, he, heq⟩ <;> rw [heq]
  · exact h
  · intro q
    by_cases hq : q = p
    · subst hq
      rw [Function.update_self]
      cases he with
      | leaseDecided hp hd =>
        obtain ⟨-, -, rfl⟩ := leaseDecision_eq_some hd
        rfl
      | _ => trivial
    · rw [Function.update_of_ne hq]
      exact h q

/-- **A counted step adds to the stored counter what it leases.** -/
theorem attempt_step {s s' : JobState ι} {op : Op ι} (hch : ∀ p, Charges (s.phase p))
    (hc : Counted s op) (hs : step owner s op = some s') :
    s'.row.attempt = s.row.attempt + leasedBy s op := by
  by_cases hlease : ∃ p, op = .leasePut p
  · obtain ⟨p, rfl⟩ := hlease
    simp only [step] at hs
    split at hs
    · next read leased hp =>
      have hread : read.attempt = s.row.attempt := hc.1 read (by simp [basis, hp])
      have hleased : leased.attempt = read.attempt + 1 := by simpa [hp, Charges] using hch p
      split at hs
      · next hput => cases hs; simp [leasedBy, hp, hput, JobState.setPhase]
      · next row hput =>
        cases hs
        have hrow : row.attempt = leased.attempt := by rw [tryPut_eq_some hput]; rfl
        simp [leasedBy, hp, hput, hrow, hleased, hread]
    · cases hs
  · -- every other write keeps the count of the copy it is made from
    have hnone : leasedBy s op = 0 := by
      cases op with
      | leasePut p => exact absurd ⟨p, rfl⟩ hlease
      | _ => rfl
    rw [hnone, Nat.add_zero]
    rcases row_step hs with heq | ⟨o, e, heq⟩ | ⟨read, copy, hw, heq⟩ <;> rw [heq]
    · exact touched_attempt _ _ _
    · have hread : read.attempt = s.row.attempt := hc.1 read (basis_of_writes hw)
      show copy.attempt = _
      rw [← hread]
      cases hw with
      | lease hp => exact absurd ⟨_, rfl⟩ hlease
      | running now n hp | succeeded now hp | cancelled now hp => rfl
      | failed error now hp | swept now hp => exact failed_attempt _ _ _
      | cancelRequested hp => exact cancelRequested_attempt _ _

omit [DecidableEq ι] in
theorem leasedBy_le_one (s : JobState ι) (op : Op ι) : leasedBy s op ≤ 1 := by
  unfold leasedBy
  split
  · split
    · split_ifs <;> omega
    · omega
  · omega

/-- The invariant: the job was leased as often as its counter says, within the budget. -/
structure WithinBudget (m leased : ℕ) (s : JobState ι) : Prop where
  charges : ∀ p, Charges (s.phase p)
  budget : AllCopies (fun j => j.maxAttempts = m) s
  counter : s.row.attempt = leased
  within : leased ≤ m

omit [DecidableEq ι] in
theorem withinBudget_init (job : RunJob) (hnew : job.attempt = 0) (clock : Time) :
    WithinBudget job.maxAttempts 0 (JobState.init (ι := ι) job clock) where
  charges _ := trivial
  budget := allCopies_init (P := fun j => j.maxAttempts = job.maxAttempts) rfl clock
  counter := hnew
  within := Nat.zero_le _

theorem withinBudget_step {m n : ℕ} {s s' : JobState ι} {op : Op ι} (h : WithinBudget m n s)
    (hc : Counted s op) (hs : step owner s op = some s') :
    WithinBudget m (n + leasedBy s op) s' where
  charges := charges_step h.charges hs
  budget := allCopies_step (kept_maxAttempts m) h.budget (failsOnly_true s op) hs
  counter := by rw [attempt_step h.charges hc hs, h.counter]
  within := by
    have hmax : s.row.maxAttempts = m := h.budget.1
    have hcounter := h.counter
    have hone := leasedBy_le_one s op
    have hlt := hc.2
    have hwithin := h.within
    omega

theorem withinBudget_exec {m n : ℕ} {s s' : JobState ι} {ops : List (Op ι)}
    (h : WithinBudget m n s) (hG : Guarded (step owner) Counted s ops)
    (hs : exec (step owner) s ops = some s') : WithinBudget m (n + leases owner s ops) s' :=
  inv_of_tally (I := WithinBudget m) (fun _ _ _ _ hI hg ht => withinBudget_step hI hg ht) h hG hs

/-- At every moment of the run the job has been leased at most `max_attempts` times, and its counter
is at most `max_attempts` and never less than before. -/
def KeepsBudget (owner : ι → String) (job : RunJob) (clock : Time) (ops : List (Op ι)) : Prop :=
  ∀ pre mid post s s', ops = pre ++ mid ++ post →
    exec (step owner) (.init job clock) pre = some s →
    exec (step owner) (.init job clock) (pre ++ mid) = some s' →
      leases owner (.init job clock) (pre ++ mid) ≤ job.maxAttempts ∧
        s'.row.attempt ≤ job.maxAttempts ∧ s.row.attempt ≤ s'.row.attempt

/-- **The budget is kept** in every run in which each lease finds an attempt left and each write is
made from a copy with the stored count. -/
theorem budget_of_counted (owner : ι → String) (job : RunJob) (hnew : job.attempt = 0)
    (clock : Time) (ops : List (Op ι))
    (hG : Guarded (step owner) Counted (.init job clock) ops) :
    KeepsBudget owner job clock ops := by
  intro pre mid post s s' hops hs hs'
  subst hops
  have hG' := (guarded_append hG hs').1
  have hall := withinBudget_exec (withinBudget_init job hnew clock) hG' hs'
  -- the rest of the run starts within the budget too
  obtain ⟨hpre, hmid⟩ := guarded_append hG' hs
  have hstart := withinBudget_exec (withinBudget_init job hnew clock) hpre hs
  have hgrow := withinBudget_exec hstart hmid (by rw [← exec_append_of hs]; exact hs')
  have hcounter := hall.counter
  have hwithin := hall.within
  refine ⟨by omega, by omega, ?_⟩
  rw [hstart.counter, hgrow.counter]
  exact Nat.le_add_right _ _

end Step

/-! ### A worker that dies -/

/-- A job with two attempts, queued. -/
def queuedTwice : RunJob := newRunJob "job_1" "ws_1" "exp_1" 0 1 2 (by decide)

/-- A worker leases the job and dies; when the lease is over another leases it, and fails. -/
def diesOnce : List (Op Bool) :=
  [.leaseGet true 0 300, .leaseDecide true, .leasePut true, .drop true,
    .leaseGet false (seconds 300) 300, .leaseDecide false, .leasePut false,
    .markFailed false "boom" (seconds 301)]

theorem budget_diesOnce : queuedTwice.attempt = 0 ∧
    Guarded (step fun p => cond p "a" "b") Counted (.init queuedTwice 0) diesOnce ∧
    KeepsBudget (fun p => cond p "a" "b") queuedTwice 0 diesOnce :=
  ⟨rfl, by decide, budget_of_counted (fun p => cond p "a" "b") queuedTwice rfl 0 diesOnce
    (by decide)⟩

/-- The second worker dies too, and a third time the job is leased. -/
def diesTwice : List (Op Bool) :=
  [.leaseGet true 0 300, .leaseDecide true, .leasePut true, .drop true,
    .leaseGet false (seconds 300) 300, .leaseDecide false, .leasePut false, .drop false,
    .leaseGet true (seconds 600) 300, .leaseDecide true, .leasePut true]

/-- A worker whose lease went to another records its failure. -/
def failsLate : List (Op Bool) :=
  [.leaseGet true 0 300, .leaseDecide true, .leasePut true,
    .leaseGet false (seconds 300) 300, .leaseDecide false, .leasePut false,
    .markFailed true "boom" (seconds 301)]

theorem not_keepsBudget (pre mid : List (Op Bool)) {s s' : JobState Bool}
    (hs : exec (step fun p => cond p "a" "b") (.init queuedTwice 0) pre = some s)
    (hs' : exec (step fun p => cond p "a" "b") (.init queuedTwice 0) (pre ++ mid) = some s')
    (h : 2 < s'.row.attempt ∨ s'.row.attempt < s.row.attempt) :
    ¬ KeepsBudget (fun p => cond p "a" "b") queuedTwice 0 (pre ++ mid) := by
  intro hkeep
  obtain ⟨-, hmax, hmono⟩ := hkeep pre mid [] s s' (List.append_nil _).symm hs hs'
  have htwo : queuedTwice.maxAttempts = 2 := rfl
  omega

/-- A job with two attempts is leased three times, and its counter goes to three; a late failure
takes the counter back from two to one. -/
theorem budget_exceeded :
    leases (fun p => cond p "a" "b") (.init queuedTwice 0) diesTwice = 3 ∧
      ¬ KeepsBudget (fun p => cond p "a" "b") queuedTwice 0 diesTwice ∧
      ¬ KeepsBudget (fun p => cond p "a" "b") queuedTwice 0 failsLate := by
  refine ⟨rfl, ?_, ?_⟩
  · exact not_keepsBudget diesTwice [] rfl rfl (Or.inl (by decide))
  · exact not_keepsBudget (failsLate.take 6) (failsLate.drop 6) rfl rfl (Or.inr (by decide))

end Selfevals.Api.AttemptBudget
