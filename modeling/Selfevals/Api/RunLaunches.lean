import Selfevals.Api.JobSystem
import Selfevals.Schemas.Experiments

/-!
# Does an experiment have one active run at a time?

`launch_experiment_run` refuses an experiment that is stored as queued, running or paused;
`selfevals run` refuses none. What is active is in the job table: the job is created after the
check, and the stored state follows it only when a worker has come as far as to write it.

* `step` is the system of the launches, the jobs they create and the stored experiment, which other
  processes write at any time.
-/

namespace Selfevals.Api.RunLaunches

open Schemas.Base Schemas.Job Schemas.Enums Schemas.Experiments Storage.Entity Lib.Run Api.RunJobs
open Api.JobSystem (JobState Writes row_step)

/-- `fastapi.HTTPException`. -/
structure HttpError where
  statusCode : ℕ
  detail : String
deriving DecidableEq, Repr

/-- `_ACTIVE_STATES`. -/
def activeStates : List ExperimentState := [.queued, .running, .paused]

/-- The guard of `launch_experiment_run`, on the experiment stored under the spec's id. -/
def checkActive (existing : Option Experiment) (experimentId : String) : Except HttpError Unit :=
  match existing with
  | none => .ok ()
  | some existing =>
    if existing.state ∈ activeStates then
      .error ⟨409, "experiment " ++ experimentId ++ " already has an active run"⟩
    else .ok ()

/-- What a launch is in the middle of. `seen` is history that no step reads: how many jobs there
were when it started. -/
inductive Phase
  | idle
  /-- `launch_experiment_run` has passed its guard. -/
  | checked (spec : Experiment) (seen : ℕ)
  /-- The spec's experiment is written, and the job is next. -/
  | persisted (spec : Experiment) (seen : ℕ)

/-- The stored experiment, its jobs in the order they were created, and the launches. -/
structure State (ι : Type) where
  experiment : Option Experiment
  jobs : List (JobState ι)
  launch : ι → Phase

/-- What launches, workers and other writers do. -/
inductive Op (ι : Type)
  /-- A request of `launch_experiment_run` comes to its guard. -/
  | request (p : ι) (spec : Experiment)
  /-- It writes the spec's experiment. -/
  | persist (p : ι)
  /-- `cmd_run` builds the loop, which writes the spec's experiment. -/
  | build (p : ι) (spec : Experiment)
  /-- `create_run_job`, by either. -/
  | create (p : ι) (id : String) (reps : ℕ) (now : Time)
  /-- The launch raises, or its process dies. -/
  | abandon (p : ι)
  /-- A worker, a canceller or the sweeper does a step on a job. -/
  | job (n : ℕ) (op : JobSystem.Op ι)
  /-- Some other process writes the experiment. -/
  | write (row : Experiment)

variable {ι : Type}

/-- No job is launched yet. -/
def init (experiment : Option Experiment) : State ι := ⟨experiment, [], fun _ => .idle⟩

section Step
variable [DecidableEq ι]

def State.setLaunch (s : State ι) (p : ι) (ph : Phase) : State ι :=
  { s with launch := Function.update s.launch p ph }

/-- The launch writes the spec's experiment, or raises. -/
def State.persist (s : State ι) (p : ι) (spec : Experiment) (seen : ℕ) : State ι :=
  match putEntity spec.workspaceId s.experiment spec with
  | .error _ => s.setLaunch p .idle
  | .ok row => { s.setLaunch p (.persisted spec seen) with experiment := some row }

/-- One step; `none` where it is not that process's turn. -/
def step (owner : ι → String) (s : State ι) : Op ι → Option (State ι)
  | .request p spec =>
    match s.launch p with
    | .idle =>
      match checkActive s.experiment spec.id with
      | .error _ => some s
      | .ok () => some (s.setLaunch p (.checked spec s.jobs.length))
    | _ => none
  | .persist p =>
    match s.launch p with
    | .checked spec seen => some (s.persist p spec seen)
    | _ => none
  | .build p spec =>
    match s.launch p with
    | .idle => some (s.persist p spec s.jobs.length)
    | _ => none
  | .create p id reps now =>
    match s.launch p with
    | .persisted spec _ =>
      let job := newRunJob id spec.workspaceId spec.id now reps defaultMaxAttempts
        one_le_defaultMaxAttempts
      some { s.setLaunch p .idle with jobs := s.jobs ++ [.init job now] }
    | _ => none
  | .abandon p => some (s.setLaunch p .idle)
  | .job n op =>
    match s.jobs[n]? with
    | none => none
    | some j => (JobSystem.step owner j op).map fun j' => { s with jobs := s.jobs.set n j' }
  | .write row => some { s with experiment := some row }

/-- What a request is answered, if it is refused. -/
def response (s : State ι) : Op ι → Option HttpError
  | .request _ spec =>
    match checkActive s.experiment spec.id with
    | .error e => some e
    | .ok () => none
  | _ => none

/-! ### What is asked of the launches -/

/-- The job is queued, leased or running. -/
def Active (j : JobState ι) : Prop := j.row.isTerminal = false
deriving Decidable

/-- At most one job is active. -/
def OneActive (s : State ι) : Prop :=
  ∀ (m n : ℕ) (a b : JobState ι), s.jobs[m]? = some a → s.jobs[n]? = some b →
    Active a → Active b → m = n

/-- Some job is active. -/
def Busy (s : State ι) : Prop := ∃ j ∈ s.jobs, Active j
deriving Decidable

/-- A launch starts. -/
def Starts : Op ι → Prop
  | .request _ _ | .build _ _ => True
  | _ => False

/-- A launch that finds an active job is refused with 409, and changes nothing. -/
def RefusesSecond (owner : ι → String) (s : State ι) (op : Op ι) : Prop :=
  Starts op → Busy s →
    (∃ e, response s op = some e ∧ e.statusCode = 409) ∧
      ∀ s', step owner s op = some s' → s' = s

end Step

/-- The step makes a terminal job active again: it writes a lease, a start or a cancel request from
a copy read before the job ended. -/
def revives (j : JobState ι) (op : JobSystem.Op ι) : Bool :=
  j.row.isTerminal &&
    match op with
    | .leasePut p =>
      match j.phase p with
      | .leaseDecided _ _ => true
      | _ => false
    | .markRunning p _ _ =>
      match j.phase p with
      | .holding _ => true
      | _ => false
    | .cancelPut p =>
      match j.phase p with
      | .cancelRead _ job => midFlight job
      | _ => false
    | _ => false

/-- A request that finds an active job finds the experiment stored as queued, running or paused, and
`selfevals run` finds none; a launch creates its job before another does; and no step makes a
terminal job active again. -/
def Calm (s : State ι) : Op ι → Prop
  | .request _ _ => Busy s → ∃ e ∈ s.experiment, e.state ∈ activeStates
  | .build _ _ => ¬ Busy s
  | .create p _ _ _ =>
    match s.launch p with
    | .persisted _ seen => s.jobs.length = seen
    | _ => True
  | .job n op => ∀ j ∈ s.jobs[n]?, revives j op = false
  | _ => True

instance (s : State ι) (op : Op ι) : Decidable (Calm s op) := by
  cases op with
  | create p id reps now => unfold Calm; dsimp only; split <;> infer_instance
  | _ => unfold Calm; infer_instance

/-! ### Terminal jobs -/

theorem terminal_of_status {job job' : RunJob} (h : job'.status = job.status) :
    job'.isTerminal = job.isTerminal := by
  unfold RunJob.isTerminal
  rw [h]

theorem failed_terminal (job : RunJob) (error : String) (now : Time) :
    (job.markFailedOrDeadLettered error now).1.isTerminal = true := by
  unfold RunJob.markFailedOrDeadLettered RunJob.isTerminal
  dsimp only
  split_ifs <;> rfl

theorem cancelRequested_terminal {job : RunJob} (h : midFlight job = false) (now : Time) :
    (cancelRequested job now).isTerminal = true := by
  unfold cancelRequested
  dsimp only
  rw [RunJob.markCancelRequested_status]
  split_ifs with hq
  · rfl
  · rw [terminal_of_status (RunJob.markCancelRequested_status job now), RunJob.isTerminal_iff]
    unfold midFlight at h
    cases hst : job.status with
    | queued => exact absurd hst hq
    | leased | running => simp [hst] at h
    | succeeded | failed | cancelled | deadLettered => simp

theorem touch_terminal {row : RunJob} (h : row.isTerminal = true) (o : String) (e : Time) :
    (touchRunJobLease row o e).1 = row := by
  have hmid : midFlight row = false := by
    rw [RunJob.isTerminal_iff] at h
    unfold midFlight
    rcases h with h | h | h | h <;> simp [h]
  simp [touchRunJobLease, hmid]

section Step
variable [DecidableEq ι] {owner : ι → String}

/-- **A terminal job stays terminal** in a step that does not make it active again. -/
theorem terminal_step {j j' : JobState ι} {op : JobSystem.Op ι} (h : j.row.isTerminal = true)
    (hr : revives j op = false) (hs : JobSystem.step owner j op = some j') :
    j'.row.isTerminal = true := by
  rcases row_step hs with heq | ⟨o, e, heq⟩ | ⟨read, copy, hw, heq⟩ <;> rw [heq]
  · exact h
  · rw [touch_terminal h]
    exact h
  · show copy.isTerminal = true
    cases hw with
    | lease hp | running now n hp => simp [revives, h, hp] at hr
    | succeeded now hp | cancelled now hp => rfl
    | failed error now hp | swept now hp => exact failed_terminal _ _ _
    | cancelRequested hp =>
      refine cancelRequested_terminal ?_ _
      simpa [revives, h, hp] using hr

/-! ### Calm runs -/

/-- A launch under way, that no other has overtaken, will find no active job. -/
def Clear (s : State ι) : Phase → Prop
  | .idle => True
  | .checked _ seen | .persisted _ seen =>
    seen ≤ s.jobs.length ∧ (s.jobs.length = seen → ¬ Busy s)

/-- At most one job is active, and none is when a launch comes to create its own. -/
structure CalmInv (s : State ι) : Prop where
  one : OneActive s
  clear : ∀ p, Clear s (s.launch p)

omit [DecidableEq ι] in
theorem calmInv_init (experiment : Option Experiment) :
    CalmInv (init (ι := ι) experiment) where
  one m n a b ha := by simp [init] at ha
  clear _ := trivial

theorem CalmInv.setLaunch {s : State ι} (h : CalmInv s) {p : ι} {ph : Phase} (hp : Clear s ph) :
    CalmInv (s.setLaunch p ph) := by
  refine ⟨h.one, fun q => ?_⟩
  show Clear s (Function.update s.launch p ph q)
  by_cases hq : q = p
  · subst hq
    rw [Function.update_self]
    exact hp
  · rw [Function.update_of_ne hq]
    exact h.clear q

theorem CalmInv.persist {s : State ι} (h : CalmInv s) {p : ι} {spec : Experiment} {seen : ℕ}
    (hp : Clear s (.persisted spec seen)) : CalmInv (s.persist p spec seen) := by
  unfold State.persist
  split
  · exact h.setLaunch trivial
  · next row hput =>
    have hset := h.setLaunch (p := p) hp
    exact ⟨hset.one, hset.clear⟩

theorem CalmInv.create {s : State ι} (h : CalmInv s) {p : ι} {spec : Experiment} {seen : ℕ}
    (hp : s.launch p = .persisted spec seen) (hseen : s.jobs.length = seen) (j : JobState ι) :
    CalmInv { s.setLaunch p .idle with jobs := s.jobs ++ [j] } := by
  have hclear := h.clear p
  rw [hp] at hclear
  have hnone : ∀ a ∈ s.jobs, ¬ Active a := fun a ha hact => hclear.2 hseen ⟨a, ha, hact⟩
  have hlast : ∀ (n : ℕ) (a : JobState ι), (s.jobs ++ [j])[n]? = some a → Active a →
      n = s.jobs.length := by
    intro n a ha hact
    rcases lt_trichotomy n s.jobs.length with hlt | heq | hgt
    · rw [List.getElem?_append_left hlt] at ha
      exact absurd hact (hnone a (List.mem_of_getElem? ha))
    · exact heq
    · rw [List.getElem?_eq_none (by simp; omega)] at ha
      cases ha
  refine ⟨fun m n a b ha hb hacta hactb => ?_, fun q => ?_⟩
  · rw [hlast m a ha hacta, hlast n b hb hactb]
  · -- the launches under way have been overtaken
    have hidle : CalmInv (s.setLaunch p .idle) := h.setLaunch trivial
    have hold := hidle.clear q
    show Clear _ ((s.setLaunch p .idle).launch q)
    cases hq : (s.setLaunch p .idle).launch q with
    | idle => trivial
    | checked spec' seen' | persisted spec' seen' =>
      rw [hq] at hold
      have hle : seen' ≤ s.jobs.length := hold.1
      refine ⟨?_, fun heq => ?_⟩
      · show seen' ≤ (s.jobs ++ [j]).length
        simp only [List.length_append, List.length_singleton]
        omega
      · have heq' : (s.jobs ++ [j]).length = seen' := heq
        simp only [List.length_append, List.length_singleton] at heq'
        omega

omit [DecidableEq ι] in
theorem CalmInv.setJob {s : State ι} (h : CalmInv s) {n : ℕ} {j j' : JobState ι}
    (hj : s.jobs[n]? = some j) (hkeep : Active j' → Active j) :
    CalmInv { s with jobs := s.jobs.set n j' } := by
  have hback : ∀ (m : ℕ) (a : JobState ι), (s.jobs.set n j')[m]? = some a → Active a →
      ∃ a', s.jobs[m]? = some a' ∧ Active a' := by
    intro m a ha hact
    by_cases hm : n = m
    · subst hm
      rw [List.getElem?_set_self (List.getElem?_eq_some_iff.mp hj).1] at ha
      obtain rfl := Option.some.inj ha
      exact ⟨j, hj, hkeep hact⟩
    · rw [List.getElem?_set_ne hm] at ha
      exact ⟨a, ha, hact⟩
  have hbusy : Busy { s with jobs := s.jobs.set n j' } → Busy s := by
    rintro ⟨a, ha, hact⟩
    obtain ⟨m, hm⟩ := List.mem_iff_getElem?.mp ha
    obtain ⟨a', ha', hact'⟩ := hback m a hm hact
    exact ⟨a', List.mem_of_getElem? ha', hact'⟩
  refine ⟨fun m k a b ha hb hacta hactb => ?_, fun q => ?_⟩
  · obtain ⟨a', ha', hacta'⟩ := hback m a ha hacta
    obtain ⟨b', hb', hactb'⟩ := hback k b hb hactb
    exact h.one m k a' b' ha' hb' hacta' hactb'
  · have hold := h.clear q
    show Clear _ (s.launch q)
    cases hq : s.launch q with
    | idle => trivial
    | checked spec seen | persisted spec seen =>
      rw [hq] at hold
      refine ⟨?_, fun heq hb => ?_⟩
      · show seen ≤ (s.jobs.set n j').length
        rw [List.length_set]
        exact hold.1
      · have heq' : (s.jobs.set n j').length = seen := heq
        rw [List.length_set] at heq'
        exact hold.2 heq' (hbusy hb)

theorem calmInv_step {s s' : State ι} {op : Op ι} (h : CalmInv s) (hc : Calm s op)
    (hs : step owner s op = some s') : CalmInv s' := by
  cases op with
  | request p spec =>
    simp only [step] at hs
    split at hs
    · split at hs
      · obtain rfl := Option.some.inj hs
        exact h
      · next hcheck =>
        obtain rfl := Option.some.inj hs
        refine h.setLaunch ⟨le_rfl, fun _ hbusy => ?_⟩
        obtain ⟨e, he, hactive⟩ := hc hbusy
        rw [Option.mem_def] at he
        simp [checkActive, he, hactive] at hcheck
    · cases hs
  | persist p =>
    simp only [step] at hs
    split at hs
    · next spec seen hp =>
      obtain rfl := Option.some.inj hs
      have hclear := h.clear p
      rw [hp] at hclear
      exact h.persist hclear
    · cases hs
  | build p spec =>
    simp only [step] at hs
    split at hs
    · obtain rfl := Option.some.inj hs
      exact h.persist ⟨le_rfl, fun _ => hc⟩
    · cases hs
  | create p id reps now =>
    simp only [step] at hs
    split at hs
    · next spec seen hp =>
      obtain rfl := Option.some.inj hs
      simp only [Calm, hp] at hc
      exact h.create hp hc _
    · cases hs
  | abandon p =>
    obtain rfl := Option.some.inj hs
    exact h.setLaunch trivial
  | job n op =>
    simp only [step] at hs
    split at hs
    · cases hs
    · next j hj =>
      obtain ⟨j', hstep, rfl⟩ := Option.map_eq_some_iff.mp hs
      refine h.setJob hj fun hact => ?_
      by_contra hterm
      have hterm' : j.row.isTerminal = true := by simpa [Active] using hterm
      have := terminal_step hterm' (hc j hj) hstep
      rw [Active, this] at hact
      cases hact
  | write row =>
    obtain rfl := Option.some.inj hs
    exact ⟨h.one, h.clear⟩

theorem refuses_of_calm {s : State ι} {op : Op ι} (hc : Calm s op) : RefusesSecond owner s op := by
  intro hstart hbusy
  cases op with
  | request p spec =>
    obtain ⟨e, he, hactive⟩ := hc hbusy
    rw [Option.mem_def] at he
    have hcheck : checkActive s.experiment spec.id =
        .error ⟨409, "experiment " ++ spec.id ++ " already has an active run"⟩ := by
      simp [checkActive, he, hactive]
    have hanswer : response s (.request p spec) =
        some ⟨409, "experiment " ++ spec.id ++ " already has an active run"⟩ := by
      simp only [response, hcheck]
    refine ⟨⟨_, hanswer, rfl⟩, fun s' hs => ?_⟩
    simp only [step, hcheck] at hs
    split at hs
    · exact (Option.some.inj hs).symm
    · cases hs
  | build p spec => exact absurd hbusy hc
  | _ => exact absurd hstart (by simp [Starts])

/-- **One active run**, and every second launch refused, in every run of calm steps. -/
theorem one_active_of_calm (owner : ι → String) (experiment : Option Experiment)
    (ops : List (Op ι)) {s : State ι} (hs : exec (step owner) (init experiment) ops = some s)
    (hG : Guarded (step owner) Calm (init experiment) ops) :
    OneActive s ∧ Guarded (step owner) (RefusesSecond owner) (init experiment) ops := by
  have hinv : CalmInv s :=
    inv_of_guarded (fun _ _ _ hI hc ht => calmInv_step hI hc ht) (calmInv_init experiment) hG hs
  exact ⟨hinv.one, hG.mono fun _ _ hc => refuses_of_calm hc⟩

end Step

/-! ### Two launches -/

/-- The experiment of the spec. -/
def spec : Experiment := Experiment.minimal

/-- A request that launches a run. -/
def launching (p : Bool) (id : String) : List (Op Bool) :=
  [.request p spec, .persist p, .create p id 1 0]

/-- A worker brings the run as far as RUNNING; a second request is refused; the run ends, and a
third request launches another. -/
def inTurn : List (Op Bool) :=
  launching false "job_1" ++
    [.job 0 (.leaseGet false 1 300), .job 0 (.leaseDecide false), .job 0 (.leasePut false),
      .job 0 (.markRunning false 2 300), .write { spec with state := .running }, .request true spec,
      .write { spec with state := .completed }, .job 0 (.markSucceeded false 3)] ++
    launching true "job_2"

theorem one_active_inTurn : ∃ s, exec (step fun _ => "w") (init none) inTurn = some s ∧
    s.jobs.length = 2 ∧ OneActive s := by
  refine ⟨_, rfl, rfl, ?_⟩
  exact (one_active_of_calm (fun _ => "w") none inTurn rfl (by decide +kernel)).1

/-- A second request comes before a worker has written RUNNING: the stored experiment is a draft,
and the request launches a second job. -/
theorem two_active : ∃ s s', exec (step fun _ => "w") (init none)
    (launching false "job_1") = some s ∧
    exec (step fun _ => "w") s (launching true "job_2") = some s' ∧
    Busy s ∧ response s (.request true spec) = none ∧ ¬ OneActive s' := by
  refine ⟨_, _, rfl, rfl, by decide +kernel, rfl, fun h => ?_⟩
  exact absurd (h 0 1 _ _ rfl rfl rfl rfl) (by decide)

end Selfevals.Api.RunLaunches
