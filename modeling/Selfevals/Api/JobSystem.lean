import Selfevals.Api.RunJobs
import Selfevals.Lib.Run

/-!
# One run job and any number of processes

The stored row of one run job, and processes that each work on the copies of it they hold in memory:
workers (`lease_run_job`, `mark_run_job_*`, the heartbeat thread), `request_cancel_run_job`, and the
lease sweeper's pass over this job. A helper that reads the row and later writes it back is split
there, so that other processes come in between; a helper that only writes the copy it is given is
one step. Every reading of the clock is in the label, as is every choice of who moves.

* `synced_exec`: no helper changes the version, the workspace or the creation time of the job, so
  the version check of `put_entity` accepts every write of every copy (`tryPut_of_synced`).
-/

namespace Selfevals.Api.JobSystem

open Schemas.Base Schemas.Job Storage.Entity Api.RunJobs Lib.Run

/-- What a process is in the middle of, with the copies of the row it holds. -/
inductive Phase
  | idle
  /-- `lease_run_job` has read the clock and the row. -/
  | leaseRead (now : Time) (leaseSeconds : ℤ) (job : RunJob)
  /-- `lease_run_job` has decided to lease: the copy it read and the one it will write. -/
  | leaseDecided (read leased : RunJob)
  /-- The job a worker was given by `lease_run_job` or last wrote. -/
  | holding (job : RunJob)
  /-- `request_cancel_run_job` has read the clock and the row. -/
  | cancelRead (now : Time) (job : RunJob)
  /-- `expired_run_job_leases` has returned the job. -/
  | sweepListed
  /-- The sweeper has reloaded the job and found it not terminal. -/
  | sweepRead (job : RunJob)
deriving DecidableEq

/-- The copies of the job that a process holds. -/
def Phase.copies : Phase → List RunJob
  | .idle | .sweepListed => []
  | .leaseRead _ _ job | .holding job | .cancelRead _ job | .sweepRead job => [job]
  | .leaseDecided read leased => [read, leased]

/-- The last verdict on the job that was written. -/
inductive Recorded
  | failure (outcome : FailureOutcome) | success | cancel
deriving DecidableEq, Repr

/-- The stored row and what each process is doing. The last three fields are history that no step
reads: the lease each worker was last granted, the worker granted the stored lease, and the last
failure, success or cancel recorded. -/
structure JobState (ι : Type) where
  row : RunJob
  phase : ι → Phase
  clock : Time
  granted : ι → Option Time
  grantee : Option ι
  recorded : Option Recorded

/-- What the API, the workers and the sweeper do to a job. -/
inductive Op (ι : Type)
  | leaseGet (p : ι) (now : Time) (leaseSeconds : ℤ)
  | leaseDecide (p : ι)
  | leasePut (p : ι)
  | markRunning (p : ι) (now : Time) (leaseSeconds : ℤ)
  | markSucceeded (p : ι) (now : Time)
  | markFailed (p : ι) (error : String) (now : Time)
  | markCancelled (p : ι) (now : Time)
  | heartbeat (p : ι) (now : Time) (leaseSeconds : ℤ)
  | cancelGet (p : ι) (now : Time)
  | cancelPut (p : ι)
  | sweepList (p : ι) (now : Time)
  | sweepGet (p : ι)
  | sweepPut (p : ι) (now : Time)
  /-- The process dies, or returns without writing. -/
  | drop (p : ι)
  /-- Time passes. -/
  | tick (now : Time)
deriving DecidableEq

/-- The error the sweeper records. -/
def sweepError : String := "lease expired: worker presumed dead (OOMKill/SIGKILL)"

variable {ι : Type} [DecidableEq ι]

/-- A job nobody works on yet. -/
def JobState.init (job : RunJob) (clock : Time) : JobState ι where
  row := job
  phase _ := .idle
  clock := clock
  granted _ := none
  grantee := none
  recorded := none

def JobState.setPhase (s : JobState ι) (p : ι) (ph : Phase) : JobState ι :=
  { s with phase := Function.update s.phase p ph }

/-- The row after `put_entity` of a copy, if it is accepted. -/
def JobState.tryPut (s : JobState ι) (copy : RunJob) : Option RunJob :=
  Storage.Entity.tryPut s.row copy

/-- A cancel is recorded when the row written carries a cancel request. -/
def recordCancel (written : RunJob) (before : Option Recorded) : Option Recorded :=
  if written.shouldCancel then some .cancel else before

/-- One step. A rejected write raises, which ends the process's work on the job. -/
def step (owner : ι → String) (s : JobState ι) : Op ι → Option (JobState ι)
  | .leaseGet p now n =>
    match s.phase p with
    | .idle => some { s.setPhase p (.leaseRead now n s.row) with clock := now }
    | _ => none
  | .leaseDecide p =>
    match s.phase p with
    | .leaseRead now n job =>
      match leaseDecision job now (owner p) n with
      | none => some (s.setPhase p .idle)
      | some leased => some (s.setPhase p (.leaseDecided job leased))
    | _ => none
  | .leasePut p =>
    match s.phase p with
    | .leaseDecided _ leased =>
      match s.tryPut leased with
      | none => some (s.setPhase p .idle)
      | some row => some { s.setPhase p (.holding leased) with
          row := row
          granted := Function.update s.granted p leased.leaseExpiresAt
          grantee := some p }
    | _ => none
  | .markRunning p now n =>
    match s.phase p with
    | .holding job =>
      let job := job.markRunning (owner p) (now + seconds n) now
      match s.tryPut job with
      | none => some { s.setPhase p .idle with clock := now }
      | some row => some { s.setPhase p (.holding job) with
          row := row
          clock := now
          granted := Function.update s.granted p job.leaseExpiresAt
          grantee := some p }
    | _ => none
  | .markSucceeded p now =>
    match s.phase p with
    | .holding job =>
      match s.tryPut (job.markSucceeded now) with
      | none => some { s.setPhase p .idle with clock := now }
      | some row => some { s.setPhase p .idle with
          row := row
          clock := now
          granted := Function.update s.granted p none
          recorded := some .success }
    | _ => none
  | .markFailed p error now =>
    match s.phase p with
    | .holding job =>
      let (job, outcome) := job.markFailedOrDeadLettered error now
      match s.tryPut job with
      | none => some { s.setPhase p .idle with clock := now }
      | some row => some { s.setPhase p .idle with
          row := row
          clock := now
          granted := Function.update s.granted p none
          recorded := some (.failure outcome) }
    | _ => none
  | .markCancelled p now =>
    match s.phase p with
    | .holding job =>
      match s.tryPut (job.markCancelled now) with
      | none => some { s.setPhase p .idle with clock := now }
      | some row => some { s.setPhase p .idle with
          row := row
          clock := now
          granted := Function.update s.granted p none
          recorded := some .cancel }
    | _ => none
  | .heartbeat p now n =>
    let (row, renewed) := touchRunJobLease s.row (owner p) (now + seconds n)
    if renewed then some { s with
      row := row
      clock := now
      granted := Function.update s.granted p row.leaseExpiresAt
      grantee := some p }
    else some { s with clock := now }
  | .cancelGet p now =>
    match s.phase p with
    | .idle => some { s.setPhase p (.cancelRead now s.row) with clock := now }
    | _ => none
  | .cancelPut p =>
    match s.phase p with
    | .cancelRead now job =>
      match s.tryPut (cancelRequested job now) with
      | none => some (s.setPhase p .idle)
      | some row => some { s.setPhase p .idle with
          row := row
          recorded := recordCancel row s.recorded }
    | _ => none
  | .sweepList p now =>
    match s.phase p with
    | .idle =>
      let ph := if leaseExpired s.row now then .sweepListed else .idle
      some { s.setPhase p ph with clock := now }
    | _ => none
  | .sweepGet p =>
    match s.phase p with
    | .sweepListed =>
      let ph := if s.row.isTerminal then .idle else .sweepRead s.row
      some (s.setPhase p ph)
    | _ => none
  | .sweepPut p now =>
    match s.phase p with
    | .sweepRead job =>
      let (job, outcome) := job.markFailedOrDeadLettered sweepError now
      match s.tryPut job with
      | none => some { s.setPhase p .idle with clock := now }
      | some row => some { s.setPhase p .idle with
          row := row
          clock := now
          recorded := some (.failure outcome) }
    | _ => none
  | .drop p => some { s.setPhase p .idle with granted := Function.update s.granted p none }
  | .tick now => some { s with clock := now }

/-! ### What a step writes, and where a process goes -/

/-- The step writes `copy` back, made from `basis`, which the process read or last wrote. -/
inductive Writes (owner : ι → String) (s : JobState ι) : Op ι → RunJob → RunJob → Prop
  | lease {p : ι} {read leased : RunJob} (hp : s.phase p = .leaseDecided read leased) :
      Writes owner s (.leasePut p) read leased
  | running {p : ι} {job : RunJob} (now : Time) (n : ℤ) (hp : s.phase p = .holding job) :
      Writes owner s (.markRunning p now n) job
        (job.markRunning (owner p) (now + seconds n) now)
  | succeeded {p : ι} {job : RunJob} (now : Time) (hp : s.phase p = .holding job) :
      Writes owner s (.markSucceeded p now) job (job.markSucceeded now)
  | failed {p : ι} {job : RunJob} (error : String) (now : Time) (hp : s.phase p = .holding job) :
      Writes owner s (.markFailed p error now) job (job.markFailedOrDeadLettered error now).1
  | cancelled {p : ι} {job : RunJob} (now : Time) (hp : s.phase p = .holding job) :
      Writes owner s (.markCancelled p now) job (job.markCancelled now)
  | cancelRequested {p : ι} {job : RunJob} {now : Time} (hp : s.phase p = .cancelRead now job) :
      Writes owner s (.cancelPut p) job (cancelRequested job now)
  | swept {p : ι} {job : RunJob} (now : Time) (hp : s.phase p = .sweepRead job) :
      Writes owner s (.sweepPut p now) job (job.markFailedOrDeadLettered sweepError now).1

/-- The phases a process can come to in one step. -/
inductive Enters (owner : ι → String) (s : JobState ι) (p : ι) : Phase → Prop
  | idle : Enters owner s p .idle
  | leaseRead (now : Time) (n : ℤ) : Enters owner s p (.leaseRead now n s.row)
  | leaseDecided {now : Time} {n : ℤ} {job leased : RunJob} (hp : s.phase p = .leaseRead now n job)
      (hd : leaseDecision job now (owner p) n = some leased) :
      Enters owner s p (.leaseDecided job leased)
  | leased {read leased : RunJob} (hp : s.phase p = .leaseDecided read leased) :
      Enters owner s p (.holding leased)
  | running {job : RunJob} (now : Time) (n : ℤ) (hp : s.phase p = .holding job) :
      Enters owner s p (.holding (job.markRunning (owner p) (now + seconds n) now))
  | cancelRead (now : Time) : Enters owner s p (.cancelRead now s.row)
  | sweepListed {now : Time} (h : leaseExpired s.row now = true) : Enters owner s p .sweepListed
  | sweepRead (h : s.row.isTerminal = false) : Enters owner s p (.sweepRead s.row)

/-- **What a step does to the row**: nothing, or the heartbeat's update, or the write of a copy. -/
theorem row_step {owner : ι → String} {s s' : JobState ι} {op : Op ι}
    (hs : step owner s op = some s') :
    s'.row = s.row ∨ (∃ o e, s'.row = (touchRunJobLease s.row o e).1) ∨
      ∃ basis copy, Writes owner s op basis copy ∧ s'.row = upsert (some s.row) copy := by
  have hwrite : ∀ {basis copy row : RunJob}, Writes owner s op basis copy →
      s.tryPut copy = some row →
      row = s.row ∨ (∃ o e, row = (touchRunJobLease s.row o e).1) ∨
        ∃ basis copy, Writes owner s op basis copy ∧ row = upsert (some s.row) copy :=
    fun hw hput => Or.inr (Or.inr ⟨_, _, hw, tryPut_eq_some hput⟩)
  cases op with
  | leaseGet p now n | cancelGet p now | sweepList p now | sweepGet p =>
    simp only [step] at hs
    split at hs <;> cases hs
    exact Or.inl rfl
  | leaseDecide p =>
    simp only [step] at hs
    split at hs
    · split at hs <;> cases hs <;> exact Or.inl rfl
    · cases hs
  | leasePut p =>
    simp only [step] at hs
    split at hs
    · next read leased hp =>
      split at hs <;> cases hs
      · exact Or.inl rfl
      · next row hput => exact hwrite (.lease hp) hput
    · cases hs
  | markRunning p now n =>
    simp only [step] at hs
    split at hs
    · next job hp =>
      split at hs <;> cases hs
      · exact Or.inl rfl
      · next row hput => exact hwrite (.running now n hp) hput
    · cases hs
  | markSucceeded p now =>
    simp only [step] at hs
    split at hs
    · next job hp =>
      split at hs <;> cases hs
      · exact Or.inl rfl
      · next row hput => exact hwrite (.succeeded now hp) hput
    · cases hs
  | markFailed p error now =>
    simp only [step] at hs
    split at hs
    · next job hp =>
      split at hs <;> cases hs
      · exact Or.inl rfl
      · next row hput => exact hwrite (.failed error now hp) hput
    · cases hs
  | markCancelled p now =>
    simp only [step] at hs
    split at hs
    · next job hp =>
      split at hs <;> cases hs
      · exact Or.inl rfl
      · next row hput => exact hwrite (.cancelled now hp) hput
    · cases hs
  | heartbeat p now n =>
    simp only [step] at hs
    split_ifs at hs <;> cases hs
    · exact Or.inr (Or.inl ⟨_, _, rfl⟩)
    · exact Or.inl rfl
  | cancelPut p =>
    simp only [step] at hs
    split at hs
    · next now job hp =>
      split at hs <;> cases hs
      · exact Or.inl rfl
      · next row hput => exact hwrite (.cancelRequested hp) hput
    · cases hs
  | sweepPut p now =>
    simp only [step] at hs
    split at hs
    · next job hp =>
      split at hs <;> cases hs
      · exact Or.inl rfl
      · next row hput => exact hwrite (.swept now hp) hput
    · cases hs
  | drop p | tick now => cases hs; exact Or.inl rfl

/-- **Where the processes go**: at most one of them moves. -/
theorem phase_step {owner : ι → String} {s s' : JobState ι} {op : Op ι}
    (hs : step owner s op = some s') :
    s'.phase = s.phase ∨ ∃ p ph, Enters owner s p ph ∧ s'.phase = Function.update s.phase p ph := by
  have henter : ∀ {p : ι} {ph : Phase}, Enters owner s p ph →
      Function.update s.phase p ph = s.phase ∨
        ∃ q ph', Enters owner s q ph' ∧
          Function.update s.phase p ph = Function.update s.phase q ph' :=
    fun he => Or.inr ⟨_, _, he, rfl⟩
  cases op with
  | leaseGet p now n =>
    simp only [step] at hs
    split at hs <;> cases hs
    exact henter (.leaseRead now n)
  | leaseDecide p =>
    simp only [step] at hs
    split at hs
    · next now n job hp =>
      split at hs <;> cases hs
      · exact henter .idle
      · next leased hd => exact henter (.leaseDecided hp hd)
    · cases hs
  | leasePut p =>
    simp only [step] at hs
    split at hs
    · next read leased hp =>
      split at hs <;> cases hs
      · exact henter .idle
      · exact henter (.leased hp)
    · cases hs
  | markRunning p now n =>
    simp only [step] at hs
    split at hs
    · next job hp =>
      split at hs <;> cases hs
      · exact henter .idle
      · exact henter (.running now n hp)
    · cases hs
  | markSucceeded p now | markFailed p error now | markCancelled p now | cancelPut p
  | sweepPut p now =>
    simp only [step] at hs
    split at hs
    · split at hs <;> cases hs <;> exact henter .idle
    · cases hs
  | heartbeat p now n =>
    simp only [step] at hs
    split_ifs at hs <;> cases hs <;> exact Or.inl rfl
  | cancelGet p now =>
    simp only [step] at hs
    split at hs <;> cases hs
    exact henter (.cancelRead now)
  | sweepList p now =>
    simp only [step] at hs
    split at hs <;> cases hs
    refine henter ?_
    split_ifs with h
    · exact .sweepListed h
    · exact .idle
  | sweepGet p =>
    simp only [step] at hs
    split at hs <;> cases hs
    refine henter ?_
    split_ifs with h
    · exact .idle
    · exact .sweepRead (by simpa using h)
  | drop p => cases hs; exact henter .idle
  | tick now => cases hs; exact Or.inl rfl

/-! ### What the helpers preserve of a job -/

/-- `P` holds of the stored row and of every copy of it in memory. -/
def AllCopies (P : RunJob → Prop) (s : JobState ι) : Prop :=
  P s.row ∧ ∀ p, ∀ j ∈ (s.phase p).copies, P j

/-- Every helper preserves `P`; a failure need only do so where `MayFail` holds. -/
structure Kept (P MayFail : RunJob → Prop) : Prop where
  leased : ∀ j now o n j', P j → leaseDecision j now o n = some j' → P j'
  running : ∀ j o e now, P j → P (j.markRunning o e now)
  succeeded : ∀ j now, P j → P (j.markSucceeded now)
  failed : ∀ j error now, MayFail j → P j → P (j.markFailedOrDeadLettered error now).1
  cancelled : ∀ j now, P j → P (j.markCancelled now)
  cancelRequested : ∀ j now, P j → P (cancelRequested j now)
  touched : ∀ j o e, P j → P (touchRunJobLease j o e).1
  upserted : ∀ row copy : RunJob, P row → P copy → P (upsert (some row) copy)

/-- A step that records a failure does so on a copy where `MayFail` holds. -/
def FailsOnly (MayFail : RunJob → Prop) (s : JobState ι) : Op ι → Prop
  | .markFailed p _ _ => ∀ job, s.phase p = .holding job → MayFail job
  | .sweepPut p _ => ∀ job, s.phase p = .sweepRead job → MayFail job
  | _ => True

omit [DecidableEq ι] in
theorem AllCopies.mem {P : RunJob → Prop} {s : JobState ι} (h : AllCopies P s) {p : ι}
    {ph : Phase} (hp : s.phase p = ph) {j : RunJob} (hj : j ∈ ph.copies) : P j :=
  h.2 p j (by rw [hp]; exact hj)

theorem AllCopies.update {P : RunJob → Prop} {s s' : JobState ι} (h : AllCopies P s) {p : ι}
    {ph : Phase} (hrow : P s'.row) (hphase : s'.phase = Function.update s.phase p ph)
    (hph : ∀ j ∈ ph.copies, P j) : AllCopies P s' := by
  refine ⟨hrow, fun q j hj => ?_⟩
  rw [hphase] at hj
  by_cases hq : q = p
  · subst hq
    rw [Function.update_self] at hj
    exact hph j hj
  · rw [Function.update_of_ne hq] at hj
    exact h.2 q j hj

/-- **What the helpers preserve** holds of the row and of every copy after a step. -/
theorem allCopies_step {P MayFail : RunJob → Prop} (hk : Kept P MayFail) {owner : ι → String}
    {s s' : JobState ι} {op : Op ι} (h : AllCopies P s) (hf : FailsOnly MayFail s op)
    (hs : step owner s op = some s') : AllCopies P s' := by
  have hrow : P s'.row := by
    rcases row_step hs with heq | ⟨o, e, heq⟩ | ⟨basis, copy, hw, heq⟩ <;> rw [heq]
    · exact h.1
    · exact hk.touched _ _ _ h.1
    · refine hk.upserted _ _ h.1 ?_
      cases hw with
      | lease hp => exact h.mem hp (by simp [Phase.copies])
      | running now n hp => exact hk.running _ _ _ _ (h.mem hp (by simp [Phase.copies]))
      | succeeded now hp => exact hk.succeeded _ _ (h.mem hp (by simp [Phase.copies]))
      | failed e now hp => exact hk.failed _ _ _ (hf _ hp) (h.mem hp (by simp [Phase.copies]))
      | cancelled now hp => exact hk.cancelled _ _ (h.mem hp (by simp [Phase.copies]))
      | cancelRequested hp => exact hk.cancelRequested _ _ (h.mem hp (by simp [Phase.copies]))
      | swept now hp => exact hk.failed _ _ _ (hf _ hp) (h.mem hp (by simp [Phase.copies]))
  rcases phase_step hs with heq | ⟨p, ph, he, heq⟩
  · exact ⟨hrow, by rw [heq]; exact h.2⟩
  · refine h.update hrow heq ?_
    cases he with
    | idle | sweepListed _ => simp [Phase.copies]
    | leaseRead now n | cancelRead now | sweepRead hterm => simpa [Phase.copies] using h.1
    | @leaseDecided now n job leased hp hd =>
      have hjob : P job := h.mem hp (by simp [Phase.copies])
      simpa [Phase.copies, hjob] using hk.leased _ _ _ _ _ hjob hd
    | leased hp => simpa [Phase.copies] using h.mem hp (by simp [Phase.copies])
    | running now n hp =>
      simpa [Phase.copies] using hk.running _ _ _ _ (h.mem hp (by simp [Phase.copies]))

omit [DecidableEq ι] in
theorem allCopies_init {P : RunJob → Prop} {job : RunJob} (h : P job) (clock : Time) :
    AllCopies P (JobState.init (ι := ι) job clock) :=
  ⟨h, fun p j hj => absurd hj (by simp [JobState.init, Phase.copies])⟩

/-! ### Every write of a copy is accepted -/

/-- The job has the fields that decide what `put_entity` does with it. -/
def SameBase (row : RunJob) (j : RunJob) : Prop :=
  j.workspaceId = row.workspaceId ∧ j.version = row.version ∧ j.createdAt = row.createdAt

/-- Every copy of the row can be written back. -/
def Synced (s : JobState ι) : Prop := AllCopies (SameBase s.row) s

theorem sameBase_of_base {row j j' : RunJob} (h : j'.toBaseEntity = j.toBaseEntity)
    (hj : SameBase row j) : SameBase row j' := by
  unfold SameBase at hj ⊢
  rw [h]; exact hj

theorem cancelRequested_base (job : RunJob) (now : Time) :
    (cancelRequested job now).toBaseEntity = job.toBaseEntity := by
  unfold cancelRequested
  dsimp only
  split_ifs
  · exact RunJob.markCancelRequested_base job now
  · exact RunJob.markCancelRequested_base job now

theorem kept_sameBase (row : RunJob) : Kept (SameBase row) fun _ => True where
  leased j now o n j' h hd := by
    obtain ⟨-, -, rfl⟩ := leaseDecision_eq_some hd
    exact sameBase_of_base rfl h
  running _ _ _ _ h := sameBase_of_base rfl h
  succeeded _ _ h := sameBase_of_base rfl h
  failed _ _ _ _ h := sameBase_of_base (RunJob.markFailedOrDeadLettered_base _ _ _) h
  cancelled _ _ h := sameBase_of_base rfl h
  cancelRequested _ _ h := sameBase_of_base (cancelRequested_base _ _) h
  touched j o e h := by
    unfold touchRunJobLease
    split_ifs
    · exact h
    · exact h
  upserted _ _ hr hc := ⟨hc.1, hc.2.1, hr.2.2⟩

omit [DecidableEq ι] in
theorem failsOnly_true (s : JobState ι) (op : Op ι) : FailsOnly (fun _ => True) s op := by
  cases op <;> simp [FailsOnly]

omit [DecidableEq ι] in
theorem synced_init (job : RunJob) (clock : Time) : Synced (JobState.init (ι := ι) job clock) :=
  allCopies_init ⟨rfl, rfl, rfl⟩ clock

theorem synced_step {owner : ι → String} {s s' : JobState ι} {op : Op ι} (h : Synced s)
    (hs : step owner s op = some s') : Synced s' := by
  obtain ⟨hrow, hcopies⟩ := allCopies_step (kept_sameBase s.row) h (failsOnly_true s op) hs
  have hiff : ∀ j, SameBase s.row j → SameBase s'.row j := fun j hj =>
    ⟨hj.1.trans hrow.1.symm, hj.2.1.trans hrow.2.1.symm, hj.2.2.trans hrow.2.2.symm⟩
  exact ⟨hiff _ hrow, fun p j hj => hiff j (hcopies p j hj)⟩

theorem synced_exec {owner : ι → String} {s s' : JobState ι} {ops : List (Op ι)} (h : Synced s)
    (hs : exec (step owner) s ops = some s') : Synced s' :=
  inv_of_exec (fun _ _ _ hI ht => synced_step hI ht) h hs

omit [DecidableEq ι] in
/-- **The version check accepts every write**: no helper changes the version, so a copy read at any
time is written over whatever the row has become. -/
theorem tryPut_of_synced {s : JobState ι} (h : Synced s) {p : ι} {ph : Phase}
    (hp : s.phase p = ph) {j : RunJob} (hj : j ∈ ph.copies) {copy : RunJob}
    (hcopy : copy.toBaseEntity = j.toBaseEntity) : s.tryPut copy = some copy := by
  obtain ⟨hws, hv, hc⟩ := sameBase_of_base hcopy (h.mem hp hj)
  unfold JobState.tryPut
  rw [tryPut_of_same hws hv]
  show some { copy with createdAt := s.row.createdAt } = _
  rw [← hc]

end Selfevals.Api.JobSystem
