import Selfevals.Api.TerminalAbsorption
import Selfevals.Lib.Sql

/-!
# Run jobs and the stream they are found by

A run job is found by a message of the Redis stream, by the poll of the queued jobs, or by the
sweeper once its lease has lapsed. `run_worker` takes a message, executes its job, and acknowledges
the message whatever came of it. A failure that is to be retried leaves the job FAILED, which no
query lists and no worker leases; what is left of it is the message it is put back with, and that
message is acknowledged by the worker that finds the job FAILED.
-/

namespace Selfevals.Worker.RunStream

open Lib.Run Lib.Sql Schemas.Base Schemas.Job Api.RunJobs
open Api.JobSystem (JobState AllCopies Kept Synced Writes row_step allCopies_step allCopies_init
  failsOnly_true synced_step synced_init tryPut_of_synced Phase.copies)
open Api.TerminalAbsorption (Held held_step)

/-! ### The stream and the processes -/

/-- A message of the stream that is not acknowledged. Without a consumer it is not delivered. -/
structure Message (ι : Type) where
  id : ℕ
  job : ℕ
  consumer : Option ι := none

/-- A job that a worker is to execute, with the message it came by; a polled job has none. -/
structure Item where
  job : ℕ
  message : Option ℕ := none
deriving DecidableEq

/-- What a process is doing. -/
inductive Task
  | idle
  /-- `launch_experiment_run` has created the job. -/
  | created (n : ℕ)
  /-- `run_worker` calls `execute_run_job`. -/
  | called (item : Item)
  /-- `execute_run_job` is inside `lease_run_job`. -/
  | working (item : Item)
  /-- `mark_run_job_failed` has returned RETRY. -/
  | requeueing (item : Item)
  /-- `execute_run_job` has returned. -/
  | returned (item : Item)
  /-- `sweep_once` has failed a job that is to be retried. -/
  | swept (n : ℕ)
deriving DecidableEq

/-- The jobs in the order they were created, the stream, and what each process has at hand and does.
-/
structure State (ι : Type) where
  jobs : List (JobState ι)
  stream : List (Message ι)
  lastId : ℕ
  batch : ι → List Item
  task : ι → Task

/-- What the system of jobs, stream and workers does. -/
inductive Op (ι : Type)
  /-- A launch creates its job. -/
  | create (p : ι) (id workspaceId experimentId : String) (reps : ℕ) (now : Time)
  /-- It puts a message on the stream, unless Redis is away. -/
  | enqueue (p : ι) (sent : Bool)
  /-- `consume` delivers a message. -/
  | consume (p : ι) (id : ℕ)
  /-- `reclaim_stale` takes over delivered messages. -/
  | reclaim (p : ι) (ids : List ℕ)
  /-- `_queued_durable_jobs`. -/
  | poll (p : ι) (limit : ℕ)
  /-- The worker comes to the next job at hand. -/
  | next (p : ι)
  /-- `lease_run_job` reads the job. -/
  | call (p : ι) (now : Time) (leaseSeconds : ℤ)
  /-- A helper that `execute_run_job` calls. -/
  | work (p : ι) (op : Api.JobSystem.Op ι)
  | requeue (p : ι) (sent : Bool)
  /-- The worker acknowledges the message, if there is one. -/
  | finish (p : ι)
  /-- A step of the sweeper on a job. -/
  | sweep (p : ι) (n : ℕ) (op : Api.JobSystem.Op ι)
  | sweepRequeue (p : ι) (sent : Bool)
  /-- A cancel request, a heartbeat, or the clock. -/
  | other (n : ℕ) (op : Api.JobSystem.Op ι)
  /-- The process dies. -/
  | crash (p : ι)

variable {ι : Type}

def init : State ι := ⟨[], [], 0, fun _ => [], fun _ => .idle⟩

/-- `SELECT … WHERE p ORDER BY key LIMIT limit`, of the run jobs. -/
def selectJobs (p : RunJob → Bool) (key : RunJob → Time) (jobs : List (JobState ι)) (limit : ℕ) :
    List ℕ :=
  ((orderBy (fun job => key job.1.row) (jobs.zipIdx.filter fun job =>
    p job.1.row)).take limit).map Prod.snd

def queuedRunJobs (jobs : List (JobState ι)) (limit : ℕ) : List ℕ :=
  selectJobs (fun row => row.status = .queued && row.deletedAt.isNone) (·.createdAt) jobs limit

def expiredRunJobLeases (jobs : List (JobState ι)) (now : Time) (limit : ℕ) : List ℕ :=
  selectJobs (leaseExpired · now) (fun row => row.leaseExpiresAt.getD 0) jobs limit

section Step
variable [DecidableEq ι]

namespace State
variable (s : State ι)

def setTask (p : ι) (task : Task) : State ι := { s with task := Function.update s.task p task }

def setBatch (p : ι) (items : List Item) : State ι :=
  { s with batch := Function.update s.batch p items }

/-- `xadd`. -/
def add (n : ℕ) : State ι :=
  { s with stream := s.stream ++ [{ id := s.lastId + 1, job := n }], lastId := s.lastId + 1 }

/-- `xack`. -/
def ack (id : ℕ) : State ι := { s with stream := s.stream.filter (·.id ≠ id) }

/-- The process dies; its messages stay delivered to it. -/
def kill (p : ι) : State ι :=
  { (s.setTask p .idle).setBatch p [] with
    jobs := s.jobs.map fun j =>
      { j.setPhase p .idle with granted := Function.update j.granted p none } }

/-- The messages that a consumer is given, and the jobs at hand with them. -/
def deliver (p : ι) (given : Message ι → Bool) : State ι :=
  { s.setBatch p ((s.stream.filter given).map fun m => ⟨m.job, some m.id⟩) with
    stream := s.stream.map fun m => if given m then { m with consumer := some p } else m }

end State

/-- A helper that `execute_run_job` calls once it has read the job. -/
def worksOn (p : ι) : Api.JobSystem.Op ι → Bool
  | .leaseDecide q | .leasePut q | .markRunning q _ _ | .markSucceeded q _ | .markFailed q _ _
  | .markCancelled q _ => q = p
  | _ => false

def sweeps (p : ι) : Api.JobSystem.Op ι → Bool
  | .sweepList q _ | .sweepGet q | .sweepPut q _ => q = p
  | _ => false

def isOther : Api.JobSystem.Op ι → Bool
  | .cancelGet _ _ | .cancelPut _ | .heartbeat _ _ _ | .tick _ => true
  | _ => false

/-- Where `execute_run_job` is after a helper has returned. -/
def afterWork (p : ι) (item : Item) (j j' : JobState ι) (op : Api.JobSystem.Op ι) : Task :=
  match op, j.phase p with
  | .markFailed _ error now, .holding job =>
    if (job.markFailedOrDeadLettered error now).2 = .retry then .requeueing item else .returned item
  | _, _ => if j'.phase p = .idle then .returned item else .working item

/-- Where `sweep_once` is after a step on a job. -/
def afterSweep (p : ι) (n : ℕ) (j : JobState ι) (op : Api.JobSystem.Op ι) : Task :=
  match op, j.phase p with
  | .sweepPut _ now, .sweepRead job =>
    if (job.markFailedOrDeadLettered Api.JobSystem.sweepError now).2 =
      .retry then .swept n else .idle
  | _, _ => .idle

/-- A step on a stored job, after which the process does what `after` says. -/
def onJob (owner : ι → String) (s : State ι) (n : ℕ) (op : Api.JobSystem.Op ι)
    (after : JobState ι → JobState ι → State ι → State ι) : Option (State ι) :=
  match s.jobs[n]? with
  | none => none
  | some j => (Api.JobSystem.step owner j op).map fun j' =>
    after j j' { s with jobs := s.jobs.set n j' }

/-- One step. -/
def step (owner : ι → String) (s : State ι) : Op ι → Option (State ι)
  | .create p id workspaceId experimentId reps now =>
    if s.task p = .idle then
      let job := newRunJob id workspaceId experimentId now reps defaultMaxAttempts
        one_le_defaultMaxAttempts
      some { s.setTask p (.created s.jobs.length) with jobs := s.jobs ++ [.init job now] }
    else none
  | .enqueue p sent =>
    match s.task p with
    | .created n => some ((if sent then s.add n else s).setTask p .idle)
    | _ => none
  | .consume p id =>
    if s.task p = .idle ∧ s.batch p = [] then
      some (s.deliver p fun m => m.id = id && m.consumer.isNone)
    else none
  | .reclaim p ids =>
    if s.task p = .idle ∧ s.batch p = [] then
      some (s.deliver p fun m => m.id ∈ ids && m.consumer.isSome)
    else none
  | .poll p limit =>
    if s.task p = .idle ∧ s.batch p = [] then
      some (s.setBatch p ((queuedRunJobs s.jobs limit).map fun n => { job := n }))
    else none
  | .next p =>
    match s.task p, s.batch p with
    | .idle, item :: items => some ((s.setBatch p items).setTask p (.called item))
    | _, _ => none
  | .call p now leaseSeconds =>
    match s.task p with
    | .called item =>
      onJob owner s item.job (.leaseGet p now leaseSeconds) fun _ _ t => t.setTask p (.working item)
    | _ => none
  | .work p op =>
    match s.task p with
    | .working item =>
      if worksOn p op then
        onJob owner s item.job op fun j j' t => t.setTask p (afterWork p item j j' op)
      else none
    | _ => none
  | .requeue p sent =>
    match s.task p with
    -- an error of Redis ends the worker
    | .requeueing item =>
      some (if sent then (s.add item.job).setTask p (.returned item) else s.kill p)
    | _ => none
  | .finish p =>
    match s.task p with
    | .returned item => some ((item.message.elim s s.ack).setTask p .idle)
    | _ => none
  | .sweep p n op =>
    if s.task p = .idle ∧ sweeps p op then
      onJob owner s n op fun j _ t => t.setTask p (afterSweep p n j op)
    else none
  | .sweepRequeue p sent =>
    match s.task p with
    -- an error of Redis ends the pass
    | .swept n => some (if sent then (s.add n).setTask p .idle else s.kill p)
    | _ => none
  | .other n op => if isOther op then onJob owner s n op fun _ _ t => t else none
  | .crash p => some (s.kill p)

/-! ### Finding a job -/

/-- The job has a message that is not delivered or not acknowledged. -/
def Live (s : State ι) (n : ℕ) : Prop := ∃ m ∈ s.stream, m.job = n

/-- The job is over, or under an unexpired lease, or some worker or sweep will find it: by a
message, or by one of the queries, as far down as they are read. -/
def Found (s : State ι) (now : Time) (n : ℕ) (row : RunJob) : Prop :=
  Final row ∨ (∃ t, row.leaseExpiresAt = some t ∧ now ≤ t) ∨ Live s n ∨
    (∃ limit, n ∈ queuedRunJobs s.jobs limit) ∨ ∃ limit, n ∈ expiredRunJobLeases s.jobs now limit

/-- **No job is orphaned.** -/
def NoOrphan (s : State ι) : Prop :=
  ∀ n j, s.jobs[n]? = some j → ∀ now, Found s now n j.row

/-- The step leaves the job FAILED: a failure that is to be retried is recorded, or a FAILED copy is
written back. -/
def RecordsRetry (j : JobState ι) : Api.JobSystem.Op ι → Prop
  | .markFailed p _ _ => ∃ job, j.phase p = .holding job ∧ job.attempt < job.maxAttempts
  | .sweepPut p _ => ∃ job, j.phase p = .sweepRead job ∧ job.attempt < job.maxAttempts
  | .cancelPut p => ∃ now job, j.phase p = .cancelRead now job ∧ job.status = .failed
  | _ => False

/-- The step leaves a job FAILED only while it has a message, and acknowledges no message that is
the last of a FAILED job. -/
def Covered (s : State ι) : Op ι → Prop
  | .work p op => ∀ item, s.task p = .working item → ∀ j, s.jobs[item.job]? = some j →
      RecordsRetry j op → Live s item.job
  | .sweep _ n op | .other n op => ∀ j, s.jobs[n]? = some j → RecordsRetry j op → Live s n
  | .finish p => ∀ item, s.task p = .returned item → ∀ id ∈ item.message,
      ∀ n j, s.jobs[n]? = some j → j.row.status = .failed → ∃ m ∈ s.stream, m.job = n ∧ m.id ≠ id
  | _ => True

/-! ### The queries -/

omit [DecidableEq ι] in
theorem mem_selectJobs {p : RunJob → Bool} {key : RunJob → Time} {jobs : List (JobState ι)} {n : ℕ}
    {j : JobState ι} (hj : jobs[n]? = some j) :
    (∃ limit, n ∈ selectJobs p key jobs limit) ↔ p j.row = true := by
  have hmem : ∀ job : JobState ι × ℕ, job ∈ orderBy (fun job => key job.1.row)
      (jobs.zipIdx.filter fun job => p job.1.row) ↔
        jobs[job.2]? = some job.1 ∧ p job.1.row = true := by
    intro job
    rw [(orderBy_perm _ _).mem_iff, List.mem_filter, List.mem_zipIdx_iff_getElem?]
  constructor
  · rintro ⟨limit, hn⟩
    obtain ⟨⟨j', n'⟩, hjob, rfl⟩ := List.mem_map.mp hn
    obtain ⟨hj', hp⟩ := (hmem _).mp (List.mem_of_mem_take hjob)
    obtain rfl := Option.some.inj (hj.symm.trans hj')
    exact hp
  · intro hp
    have hrow := (hmem (j, n)).mpr ⟨hj, hp⟩
    refine ⟨(orderBy (fun job => key job.1.row) (jobs.zipIdx.filter fun job => p job.1.row)).length,
      ?_⟩
    rw [selectJobs, List.take_length]
    exact List.mem_map_of_mem hrow

/-- A job in flight has a lease, and no job is deleted. -/
def WellFormed (job : RunJob) : Prop :=
  (midFlight job = true → job.leaseExpiresAt.isSome) ∧ job.deletedAt = none

theorem kept_wellFormed : Kept WellFormed fun _ => True where
  leased j now o n j' h hd := by
    obtain ⟨-, -, rfl⟩ := leaseDecision_eq_some hd
    exact ⟨fun _ => rfl, h.2⟩
  running j o e now h := ⟨fun _ => rfl, h.2⟩
  succeeded j now h := ⟨fun hm => by simp [midFlight, RunJob.markSucceeded] at hm, h.2⟩
  failed j error now _ h := by
    have hdeleted := RunJob.markFailedOrDeadLettered_base j error now
    refine ⟨fun hm => ?_, ?_⟩
    · unfold RunJob.markFailedOrDeadLettered at hm
      dsimp only at hm
      split_ifs at hm <;> simp [midFlight] at hm
    · rw [hdeleted]
      exact h.2
  cancelled j now h := ⟨fun hm => by simp [midFlight, RunJob.markCancelled] at hm, h.2⟩
  cancelRequested j now h := by
    unfold cancelRequested RunJob.markCancelRequested
    dsimp only
    split_ifs with hreq hqueued
    · exact ⟨fun hm => by simp [midFlight, RunJob.markCancelled] at hm, h.2⟩
    · exact h
    · exact ⟨fun hm => by simp [midFlight, RunJob.markCancelled] at hm, h.2⟩
    · exact h
  touched j o e h := by
    unfold touchRunJobLease
    split_ifs
    · exact ⟨fun _ => rfl, h.2⟩
    · exact h
  upserted row copy _ hcopy := hcopy

/-- What holds of each job. -/
structure JobInv (j : JobState ι) : Prop where
  synced : Synced j
  held : ∀ p, Held (j.phase p)
  wellFormed : AllCopies WellFormed j

theorem jobInv_step {owner : ι → String} {j j' : JobState ι} {op : Api.JobSystem.Op ι}
    (h : JobInv j)
    (hs : Api.JobSystem.step owner j op = some j') : JobInv j' where
  synced := synced_step h.synced hs
  held := held_step h.held hs
  wellFormed := allCopies_step kept_wellFormed h.wellFormed (failsOnly_true j op) hs

omit [DecidableEq ι] in
theorem jobInv_init {job : RunJob} (h : WellFormed job) (now : Time) :
    JobInv (JobState.init (ι := ι) job now) where
  synced := synced_init job now
  held _ := trivial
  wellFormed := allCopies_init h now

omit [DecidableEq ι] in
/-- **A job is lost** exactly when it is FAILED and has no message. -/
theorem forall_found_iff {s : State ι} {n : ℕ} {j : JobState ι} (hinv : JobInv j)
    (hj : s.jobs[n]? = some j) :
    (∀ now, Found s now n j.row) ↔ (j.row.status = .failed → Live s n) := by
  obtain ⟨hlease, hdeleted⟩ := hinv.wellFormed.1
  constructor
  · intro h hfailed
    -- when the lease it may have is over
    rcases h (j.row.leaseExpiresAt.getD 0 + 1) with hfinal | ⟨t, ht,
      hle⟩ | hlive | hqueued | hexpired
    · simp [Final, hfailed] at hfinal
    · rw [ht, Option.getD_some] at hle
      exact absurd hle (not_le.mpr (lt_add_one t))
    · exact hlive
    · have hp := (mem_selectJobs hj).mp hqueued
      simp [hfailed] at hp
    · have hp := (mem_selectJobs hj).mp hexpired
      simp [leaseExpired, midFlight, hfailed] at hp
  · intro h now
    have hflight : midFlight j.row = true → Found s now n j.row := by
      intro hm
      obtain ⟨t, ht⟩ := Option.isSome_iff_exists.mp (hlease hm)
      by_cases hle : now ≤ t
      · exact .inr (.inl ⟨t, ht, hle⟩)
      · refine .inr (.inr (.inr (.inr ((mem_selectJobs hj).mpr ?_))))
        have hlt : t < now := not_le.mp hle
        simp [leaseExpired, hm, ht, hlt]
    cases hstatus : j.row.status with
    | queued =>
      refine .inr (.inr (.inr (.inl ((mem_selectJobs hj).mpr ?_))))
      simp [hstatus, hdeleted]
    | leased => exact hflight (by simp [midFlight, hstatus])
    | running => exact hflight (by simp [midFlight, hstatus])
    | succeeded => exact .inl (.inl hstatus)
    | failed => exact .inr (.inr (.inl (h hstatus)))
    | cancelled => exact .inl (.inr (.inl hstatus))
    | deadLettered => exact .inl (.inr (.inr hstatus))

/-! ### What a step does to the jobs and the stream -/

section JobStep
variable {owner : ι → String} {j j' : JobState ι} {op : Api.JobSystem.Op ι} (hinv : JobInv j)
include hinv

theorem failed_of_recordsRetry (hrecords : RecordsRetry j op)
    (hs : Api.JobSystem.step owner j op = some j') : j'.row.status = .failed := by
  cases op with
  | markFailed p error now =>
    obtain ⟨job, hp, hlt⟩ := hrecords
    have hput := tryPut_of_synced hinv.synced hp (by simp [Phase.copies])
      (RunJob.markFailedOrDeadLettered_base job error now)
    simp only [Api.JobSystem.step, hp, hput, Option.some.injEq] at hs
    obtain rfl := hs
    exact (job.markFailedOrDeadLettered_retry error now hlt).1
  | sweepPut p now =>
    obtain ⟨job, hp, hlt⟩ := hrecords
    have hput := tryPut_of_synced hinv.synced hp (by simp [Phase.copies])
      (RunJob.markFailedOrDeadLettered_base job Api.JobSystem.sweepError now)
    simp only [Api.JobSystem.step, hp, hput, Option.some.injEq] at hs
    obtain rfl := hs
    exact (job.markFailedOrDeadLettered_retry Api.JobSystem.sweepError now hlt).1
  | cancelPut p =>
    obtain ⟨now, job, hp, hstatus⟩ := hrecords
    have hput := tryPut_of_synced hinv.synced hp (by simp [Phase.copies])
      (Api.JobSystem.cancelRequested_base job now)
    simp only [Api.JobSystem.step, hp, hput, Option.some.injEq] at hs
    obtain rfl := hs
    show (cancelRequested job now).status = .failed
    simp [cancelRequested, hstatus]
  | leaseGet | leaseDecide | leasePut | markRunning | markSucceeded | markCancelled | heartbeat
  | cancelGet | sweepList | sweepGet | drop | tick => cases hrecords

theorem failed_of_not_recordsRetry (hrecords : ¬RecordsRetry j op)
    (hs : Api.JobSystem.step owner j op = some j') (hfailed : j'.row.status = .failed) :
    j.row.status = .failed := by
  have hretry : ∀ {job : RunJob} {error : String} {now : Time},
      (job.markFailedOrDeadLettered error now).1.status = .failed →
        job.attempt < job.maxAttempts := by
    intro job error now h
    by_contra hge
    rw [(job.markFailedOrDeadLettered_dead error now (by omega)).1] at h
    cases h
  rcases row_step hs with heq | ⟨o, e, heq⟩ | ⟨basis, copy, hw, heq⟩
  · rwa [heq] at hfailed
  · rw [heq] at hfailed
    unfold touchRunJobLease at hfailed
    split_ifs at hfailed
    · exact hfailed
    · exact hfailed
  · rw [heq] at hfailed
    have hcopy : copy.status = .failed := hfailed
    cases hw with
    | @lease p read leased hp =>
      have hheld := hinv.held p
      rw [hp] at hheld
      have hflight := hheld.2.1
      simp [midFlight, hcopy] at hflight
    | running now n hp => simp [RunJob.markRunning] at hcopy
    | succeeded now hp => simp [RunJob.markSucceeded] at hcopy
    | cancelled now hp => simp [RunJob.markCancelled] at hcopy
    | failed error now hp => exact absurd ⟨_, hp, hretry hcopy⟩ hrecords
    | swept now hp => exact absurd ⟨_, hp, hretry hcopy⟩ hrecords
    | @cancelRequested p _ now hp =>
      refine absurd ⟨now, basis, hp, ?_⟩ hrecords
      unfold cancelRequested at hcopy
      dsimp only at hcopy
      split_ifs at hcopy
      · simp [RunJob.markCancelled] at hcopy
      · rwa [RunJob.markCancelRequested_status] at hcopy

end JobStep

section SystemStep
variable {owner : ι → String} {s s' : State ι}

omit [DecidableEq ι] in
theorem noOrphan_of_kept (hinv : ∀ j ∈ s.jobs, JobInv j) (hinv' : ∀ j ∈ s'.jobs, JobInv j)
    (h : NoOrphan s) (hlive : ∀ n, Live s n → Live s' n)
    (hfailed : ∀ (n : ℕ) (j' : JobState ι), s'.jobs[n]? = some j' → j'.row.status = .failed →
      ∃ j : JobState ι, s.jobs[n]? = some j ∧ j.row.status = .failed) : NoOrphan s' := by
  intro n j' hj'
  refine (forall_found_iff (hinv' j' (List.mem_of_getElem? hj')) hj').mpr fun hstatus => ?_
  obtain ⟨j, hj, hstatus⟩ := hfailed n j' hj' hstatus
  exact hlive n ((forall_found_iff (hinv j (List.mem_of_getElem? hj)) hj).mp (h n j hj) hstatus)

theorem onJob_eq_some {n : ℕ} {op : Api.JobSystem.Op ι}
    {after : JobState ι → JobState ι → State ι → State ι}
    (hafter : ∀ j j' t, (after j j' t).jobs = t.jobs ∧ (after j j' t).stream = t.stream)
    (hs : onJob owner s n op after = some s') :
    ∃ j j', s.jobs[n]? = some j ∧ Api.JobSystem.step owner j op = some j' ∧
      s'.jobs = s.jobs.set n j' ∧ s'.stream = s.stream := by
  unfold onJob at hs
  split at hs
  · cases hs
  · next j hj =>
    obtain ⟨j', hj', rfl⟩ := Option.map_eq_some_iff.mp hs
    exact ⟨j, j', hj, hj', (hafter j j' _).1, (hafter j j' _).2⟩

theorem jobInv_onJob (hinv : ∀ j ∈ s.jobs, JobInv j) {n : ℕ} {op : Api.JobSystem.Op ι}
    {j j' : JobState ι}
    (hj : s.jobs[n]? = some j) (hstep : Api.JobSystem.step owner j op = some j')
    (hjobs : s'.jobs = s.jobs.set n j') : ∀ k ∈ s'.jobs, JobInv k := by
  intro k hk
  rw [hjobs] at hk
  rcases List.mem_or_eq_of_mem_set hk with hk | rfl
  · exact hinv k hk
  · exact jobInv_step (hinv j (List.mem_of_getElem? hj)) hstep

/-- **A step on a job** loses none exactly when it leaves the job FAILED only with a message. -/
theorem noOrphan_onJob_iff (hinv : ∀ j ∈ s.jobs, JobInv j) (h : NoOrphan s) {n : ℕ}
    {op : Api.JobSystem.Op ι} {j j' : JobState ι} (hj : s.jobs[n]? = some j)
    (hstep : Api.JobSystem.step owner j op = some j') (hjobs : s'.jobs = s.jobs.set n j')
    (hstream : s'.stream = s.stream) : NoOrphan s' ↔ (RecordsRetry j op → Live s n) := by
  have hinv' := jobInv_onJob hinv hj hstep hjobs
  have hj' : s'.jobs[n]? = some j' := by
    rw [hjobs, List.getElem?_set_self (List.getElem?_eq_some_iff.mp hj).1]
  have hjinv := hinv j (List.mem_of_getElem? hj)
  have hlive : ∀ k, Live s' k ↔ Live s k := fun k => by rw [Live, Live, hstream]
  constructor
  · intro h' hrecords
    rw [← hlive]
    exact (forall_found_iff (hinv' j' (List.mem_of_getElem? hj')) hj').mp (h' n j' hj')
      (failed_of_recordsRetry hjinv hrecords hstep)
  · intro hrecords
    by_cases hretry : RecordsRetry j op
    · intro k i hi
      refine (forall_found_iff (hinv' i (List.mem_of_getElem? hi)) hi).mpr fun hstatus => ?_
      rw [hlive]
      by_cases hk : n = k
      · subst hk
        exact hrecords hretry
      · rw [hjobs, List.getElem?_set_ne hk] at hi
        exact (forall_found_iff (hinv i (List.mem_of_getElem? hi)) hi).mp (h k i hi) hstatus
    · refine noOrphan_of_kept hinv hinv' h (fun k => (hlive k).mpr) fun k i hi hstatus => ?_
      by_cases hk : n = k
      · subst hk
        obtain rfl := Option.some.inj (hj'.symm.trans hi)
        exact ⟨j, hj, failed_of_not_recordsRetry hjinv hretry hstep hstatus⟩
      · rw [hjobs, List.getElem?_set_ne hk] at hi
        exact ⟨i, hi, hstatus⟩

omit [DecidableEq ι] in
theorem live_add (n k : ℕ) (h : Live s k) : Live (s.add n) k := by
  obtain ⟨m, hm, hjob⟩ := h
  exact ⟨m, List.mem_append_left _ hm, hjob⟩

theorem live_deliver (p : ι) (given : Message ι → Bool) (n : ℕ) (h : Live s n) :
    Live (s.deliver p given) n := by
  obtain ⟨m, hm, hjob⟩ := h
  refine ⟨_, List.mem_map_of_mem hm, ?_⟩
  split_ifs
  · exact hjob
  · exact hjob

theorem getElem?_kill {p : ι} {n : ℕ} {j' : JobState ι} (h : (s.kill p).jobs[n]? = some j')
    (owner : ι → String) :
    ∃ j, s.jobs[n]? = some j ∧ j'.row = j.row ∧ Api.JobSystem.step owner j (.drop p) = some j' := by
  rw [State.kill, List.getElem?_map] at h
  obtain ⟨j, hj, rfl⟩ := Option.map_eq_some_iff.mp h
  exact ⟨j, hj, rfl, rfl⟩

theorem jobInv_kill (hinv : ∀ j ∈ s.jobs, JobInv j) (p : ι) : ∀ j ∈ (s.kill p).jobs, JobInv j := by
  intro j' hj'
  obtain ⟨n, hn⟩ := List.mem_iff_getElem?.mp hj'
  obtain ⟨j, hj, -, hstep⟩ := getElem?_kill hn fun _ => ""
  exact jobInv_step (hinv j (List.mem_of_getElem? hj)) hstep

theorem noOrphan_kill (hinv : ∀ j ∈ s.jobs, JobInv j) (h : NoOrphan s) (p : ι) :
    NoOrphan (s.kill p) := by
  refine noOrphan_of_kept hinv (jobInv_kill hinv p) h (fun _ hlive => hlive) fun n j' hj' hstatus =>
    ?_
  obtain ⟨j, hj, hrow, -⟩ := getElem?_kill hj' fun _ => ""
  exact ⟨j, hj, hrow ▸ hstatus⟩

/-- What a step does to the jobs and the stream, and when it is covered. -/
inductive Effect (owner : ι → String) (s s' : State ι) (covered : Prop) : Prop
  /-- One job moves. -/
  | moved (n : ℕ) (op : Api.JobSystem.Op ι) (j j' : JobState ι) (hj : s.jobs[n]? = some j)
      (hstep : Api.JobSystem.step owner j op = some j') (hjobs : s'.jobs = s.jobs.set n j')
      (hstream : s'.stream = s.stream) (hcovered : covered ↔ (RecordsRetry j op → Live s n))
  /-- A message is acknowledged. -/
  | acked (id : ℕ) (hjobs : s'.jobs = s.jobs) (hstream : s'.stream = s.stream.filter (·.id ≠ id))
      (hcovered : covered ↔ ∀ n j, s.jobs[n]? = some j → j.row.status = .failed →
        ∃ m ∈ s.stream, m.job = n ∧ m.id ≠ id)
  /-- Jobs and messages come, and none goes. -/
  | grown (created : List (JobState ι)) (hcreated : ∀ j ∈ created,
    JobInv j ∧ j.row.status = .queued)
      (hjobs : s'.jobs = s.jobs ++ created) (hlive : ∀ n, Live s n → Live s' n) (hcovered : covered)
  /-- A process dies. -/
  | killed (p : ι) (hs : s' = s.kill p) (hcovered : covered)

theorem Effect.kept {covered : Prop} (hjobs : s'.jobs = s.jobs) (hlive : ∀ n, Live s n → Live s' n)
    (hcovered : covered) : Effect owner s s' covered :=
  .grown [] (fun _ hj => absurd hj List.not_mem_nil) (by rw [hjobs, List.append_nil]) hlive hcovered

theorem Effect.of_onJob {n : ℕ} {op : Api.JobSystem.Op ι} {covered : Prop}
    {after : JobState ι → JobState ι → State ι → State ι} (hs : onJob owner s n op after = some s')
    (hafter : ∀ j j' t, (after j j' t).jobs = t.jobs ∧ (after j j' t).stream = t.stream)
    (hcovered : ∀ j, s.jobs[n]? = some j → (covered ↔ (RecordsRetry j op → Live s n))) :
    Effect owner s s' covered := by
  obtain ⟨j, j', hj, hstep, hjobs, hstream⟩ := onJob_eq_some hafter hs
  exact .moved n op j j' hj hstep hjobs hstream (hcovered j hj)

theorem wellFormed_newRunJob (id workspaceId experimentId : String) (now : Time) (reps : ℕ) :
    WellFormed (newRunJob id workspaceId experimentId now reps defaultMaxAttempts
      one_le_defaultMaxAttempts) :=
  ⟨fun h => by simp [midFlight, newRunJob] at h, rfl⟩

/-- **What one step can do.** -/
theorem step_effect {op : Op ι} (hs : step owner s op = some s') :
    Effect owner s s' (Covered s op) := by
  cases op with
  | create p id workspaceId experimentId reps now =>
    simp only [step] at hs
    split_ifs at hs
    obtain rfl := Option.some.inj hs
    refine .grown _ (fun j hj => ?_) rfl (fun _ hlive => hlive) trivial
    obtain rfl := List.mem_singleton.mp hj
    exact ⟨jobInv_init (wellFormed_newRunJob id workspaceId experimentId now reps) now, rfl⟩
  | enqueue p sent =>
    simp only [step] at hs
    split at hs
    · next n _ =>
      obtain rfl := Option.some.inj hs
      cases sent with
      | true => exact .kept rfl (fun k hlive => live_add n k hlive) trivial
      | false => exact .kept rfl (fun _ hlive => hlive) trivial
    · cases hs
  | consume p id =>
    simp only [step] at hs
    split_ifs at hs
    obtain rfl := Option.some.inj hs
    exact .kept rfl (fun n hlive => live_deliver p _ n hlive) trivial
  | reclaim p ids =>
    simp only [step] at hs
    split_ifs at hs
    obtain rfl := Option.some.inj hs
    exact .kept rfl (fun n hlive => live_deliver p _ n hlive) trivial
  | poll p limit =>
    simp only [step] at hs
    split_ifs at hs
    obtain rfl := Option.some.inj hs
    exact .kept rfl (fun _ hlive => hlive) trivial
  | next p =>
    simp only [step] at hs
    split at hs
    · obtain rfl := Option.some.inj hs
      exact .kept rfl (fun _ hlive => hlive) trivial
    · cases hs
  | call p now leaseSeconds =>
    simp only [step] at hs
    split at hs
    · refine .of_onJob hs (fun _ _ _ => ⟨rfl, rfl⟩) fun j hj => ?_
      exact iff_of_true trivial fun hrecords => hrecords.elim
    · cases hs
  | work p op =>
    simp only [step] at hs
    split at hs
    · next item htask =>
      split_ifs at hs
      refine .of_onJob hs (fun _ _ _ => ⟨rfl, rfl⟩) fun j hj => ?_
      simp [Covered, htask, hj]
    · cases hs
  | requeue p sent =>
    simp only [step] at hs
    split at hs
    · next item _ =>
      obtain rfl := Option.some.inj hs
      cases sent with
      | true => exact .kept rfl (fun k hlive => live_add item.job k hlive) trivial
      | false => exact .killed p rfl trivial
    · cases hs
  | finish p =>
    simp only [step] at hs
    split at hs
    · next item htask =>
      obtain rfl := Option.some.inj hs
      cases hmessage : item.message with
      | none => exact .kept rfl (fun _ hlive => hlive) (by simp [Covered, htask, hmessage])
      | some id => exact .acked id rfl rfl (by simp [Covered, htask, hmessage])
    · cases hs
  | sweep p n op =>
    simp only [step] at hs
    split_ifs at hs
    refine .of_onJob hs (fun _ _ _ => ⟨rfl, rfl⟩) fun j hj => ?_
    simp [Covered, hj]
  | sweepRequeue p sent =>
    simp only [step] at hs
    split at hs
    · next n _ =>
      obtain rfl := Option.some.inj hs
      cases sent with
      | true => exact .kept rfl (fun k hlive => live_add n k hlive) trivial
      | false => exact .killed p rfl trivial
    · cases hs
  | other n op =>
    simp only [step] at hs
    split_ifs at hs
    refine .of_onJob hs (fun _ _ _ => ⟨rfl, rfl⟩) fun j hj => ?_
    simp [Covered, hj]
  | crash p =>
    obtain rfl := Option.some.inj hs
    exact .killed p rfl trivial

theorem jobInv_of_effect {covered : Prop} (hinv : ∀ j ∈ s.jobs, JobInv j)
    (he : Effect owner s s' covered) : ∀ j ∈ s'.jobs, JobInv j := by
  cases he with
  | moved n op j j' hj hstep hjobs => exact jobInv_onJob hinv hj hstep hjobs
  | acked id hjobs => rwa [hjobs]
  | grown created hcreated hjobs =>
    intro j hj
    rw [hjobs, List.mem_append] at hj
    rcases hj with hj | hj
    · exact hinv j hj
    · exact (hcreated j hj).1
  | killed p hs =>
    subst hs
    exact jobInv_kill hinv p

/-- **One step** loses no job exactly when it is covered. -/
theorem noOrphan_of_effect_iff {covered : Prop} (hinv : ∀ j ∈ s.jobs, JobInv j) (h : NoOrphan s)
    (he : Effect owner s s' covered) : NoOrphan s' ↔ covered := by
  have hinv' := jobInv_of_effect hinv he
  cases he with
  | moved n op j j' hj hstep hjobs hstream hcovered =>
    rw [hcovered]
    exact noOrphan_onJob_iff hinv h hj hstep hjobs hstream
  | acked id hjobs hstream hcovered =>
    have hlive : ∀ n, Live s' n ↔ ∃ m ∈ s.stream, m.job = n ∧ m.id ≠ id := by
      intro n
      simp only [Live, hstream, List.mem_filter, decide_eq_true_eq, and_assoc]
      exact exists_congr fun m => and_congr_right fun _ => and_comm
    have hfound : ∀ n j, s'.jobs[n]? = some j →
        ((∀ now, Found s' now n j.row) ↔
          (j.row.status = .failed → ∃ m ∈ s.stream, m.job = n ∧ m.id ≠ id)) := by
      intro n j hj
      rw [← hlive, forall_found_iff (hinv' j (List.mem_of_getElem? hj)) hj]
    rw [hcovered]
    constructor
    · intro h' n j hj
      rw [← hjobs] at hj
      exact (hfound n j hj).mp (h' n j hj)
    · intro hlast n j hj
      refine (hfound n j hj).mpr (hlast n j ?_)
      rwa [← hjobs]
  | grown created hcreated hjobs hlive hcovered =>
    refine iff_of_true (noOrphan_of_kept hinv hinv' h hlive fun n j hj hfailed => ?_) hcovered
    rw [hjobs, List.getElem?_append] at hj
    split_ifs at hj
    · exact ⟨j, hj, hfailed⟩
    · have hqueued := (hcreated j (List.mem_of_getElem? hj)).2
      rw [hfailed] at hqueued
      cases hqueued
  | killed p hs hcovered =>
    subst hs
    exact iff_of_true (noOrphan_kill hinv h p) hcovered

end SystemStep

/-- **No job is lost all along a run** exactly when each step leaves a job FAILED only while it has
a message, and acknowledges no message that is the last of a FAILED job. -/
theorem noOrphans_iff (owner : ι → String) (ops : List (Op ι)) (s : State ι)
    (hs : exec (step owner) init ops = some s) :
    (∀ done left t, ops = done ++ left → exec (step owner) init done = some t → NoOrphan t) ↔
      Guarded (step owner) Covered init ops := by
  refine holds_iff_guarded (J := fun s => ∀ j ∈ s.jobs, JobInv j) (H := fun _ _ => True) ?_ ?_ ?_ ?_
    (guarded_true ops init) hs
  · exact fun s op s' hinv _ hs => jobInv_of_effect hinv (step_effect hs)
  · exact fun s op s' hinv h _ hs => noOrphan_of_effect_iff hinv h (step_effect hs)
  · exact fun j hj => absurd hj List.not_mem_nil
  · exact fun n j hj => absurd hj (by simp [init])

end Step

/-! ### A worker that dies, and a failure that is retried -/

def stateAfter (ops : List (Op Unit)) : State Unit := (exec (step fun _ => "w1") init ops).getD init

theorem exec_eq_stateAfter (ops : List (Op Unit))
    (h : (exec (step fun _ => "w1") init ops).isSome = true) :
    exec (step fun _ => "w1") init ops = some (stateAfter ops) := by
  obtain ⟨s, hs⟩ := Option.isSome_iff_exists.mp h
  rw [stateAfter, hs]
  rfl

/-- A worker takes the message and dies. -/
def died : List (Op Unit) :=
  [.create () "run1" "ws" "exp" 1 0, .enqueue () true, .consume () 1, .next (), .crash ()]

theorem noOrphans_died : exec (step fun _ => "w1") init died = some (stateAfter died) ∧
    ∀ done left t, died = done ++ left →
      exec (step fun _ => "w1") init done = some t → NoOrphan t := by
  have hrun := exec_eq_stateAfter died (by decide +kernel)
  refine ⟨hrun, (noOrphans_iff (fun _ => "w1") died (stateAfter died) hrun).mpr ?_⟩
  exact ⟨trivial, fun _ _ => ⟨trivial, fun _ _ => ⟨trivial, fun _ _ => ⟨trivial, fun _ _ =>
    ⟨trivial, fun _ _ => trivial⟩⟩⟩⟩⟩

/-- The worker fails, puts the job back, and takes the new message. -/
def retried : List (Op Unit) :=
  [.create () "run1" "ws" "exp" 1 0, .enqueue () true, .consume () 1, .next (), .call () 1 60,
    .work () (.leaseDecide ()), .work () (.leasePut ()), .work () (.markRunning () 1 60),
    .work () (.markFailed () "boom" 2), .requeue () true, .finish (),
    .consume () 2, .next (), .call () 3 60, .work () (.leaseDecide ()), .finish ()]

/-- The job is FAILED, with two attempts left and no message. -/
theorem not_all_noOrphans : ¬ ∀ (ops : List (Op Unit)) (s : State Unit),
    exec (step fun _ => "w1") init ops = some s → NoOrphan s := by
  intro h
  have hs := exec_eq_stateAfter retried (by decide +kernel)
  have hinv : ∀ j ∈ (stateAfter retried).jobs, JobInv j := by
    refine inv_of_exec (I := fun s => ∀ j ∈ s.jobs, JobInv j) ?_ ?_ hs
    · exact fun s op s' hinv hs => jobInv_of_effect hinv (step_effect hs)
    · exact fun j hj => absurd hj List.not_mem_nil
  have hrow : (stateAfter retried).jobs.map
      (fun j => (j.row.status, j.row.attempt, j.row.maxAttempts)) = [(.failed, 1, 3)] := by
    decide +kernel
  have hstream : (stateAfter retried).stream = [] := List.length_eq_zero_iff.mp (by decide +kernel)
  obtain ⟨j, hj, hstatus⟩ :
    ∃ j, (stateAfter retried).jobs[0]? = some j ∧ j.row.status = .failed := by
    cases hjobs : (stateAfter retried).jobs with
    | nil => simp [hjobs] at hrow
    | cons j js =>
      rw [hjobs] at hrow
      simp only [List.map_cons, List.cons.injEq, Prod.mk.injEq] at hrow
      exact ⟨j, rfl, hrow.1.1⟩
  obtain ⟨m, hm, -⟩ := (forall_found_iff (hinv j (List.mem_of_getElem? hj)) hj).mp
    (h retried _ hs 0 j hj) hstatus
  rw [hstream] at hm
  exact absurd hm List.not_mem_nil

end Selfevals.Worker.RunStream
