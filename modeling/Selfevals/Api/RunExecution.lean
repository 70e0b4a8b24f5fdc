import Selfevals.Api.RunJobs
import Selfevals.Lib.Triples
import Selfevals.Repo.Loader.SpecRoundTrip
import Selfevals.Runner.ExperimentStates

/-!
# What a worker leaves when it is done with a run job

`executeRunJob` takes the lease, marks the job as running, builds the spec of the payload and runs
the coordinator's loop over it. Everything after the spec is in a `try` whose handler records the
failure. What may raise, and where, is the input of the execution; what raises is an `Exception`.
-/

namespace Selfevals.Api.RunExecution

open Lib.Effects Lib.JsonValue Lib.Triples Schemas.Base Schemas.Enums Schemas.Job Schemas.EvalCases
  Schemas.Experiments Storage.Entity Repo.Loader.Models Repo.Loader.Specs Repo.Loader.SpecRoundTrip
  Api.RunJobs
open Runner.ExperimentStates (startLoop)

/-! ### The store and what is raised -/

/-- The stored job, and the stored experiments by their ids. -/
structure World where
  job : RunJob
  experiments : String → Option Experiment

/-- What is raised. -/
inductive Raised
  | load (e : LoadError)
  | storage (e : StorageError)
  | transition (e : Experiment.IllegalStateTransition)
  | other (text : String)

/-- A run of an experiment over the world. -/
abbrev Run := Scoped World Raised

/-- What happens to the rows while the loop runs: the drain claims a batch, whose loop writes the
experiment of the payload, or the heartbeat renews the lease. -/
inductive Event
  | batch
  | heartbeat (now : Time)

/-- One execution: who executes, the readings of the clock, and what is raised at each step, if
anything. -/
structure Execution where
  owner : String
  leaseNow : Time
  runNow : Time
  endNow : Time
  /-- `storage.open(spec.workspace_id)`. -/
  openScope : Option Raised
  /-- The span sink and the payload router. -/
  wiring : Option Raised
  /-- `build_loop`, before it writes the experiment and after. -/
  buildBefore : Option Raised
  buildAfter : Option Raised
  /-- The coordinator and the heartbeat thread. -/
  coordinate : Option Raised
  /-- The iterations: what happens in them, and what ends them before their time. -/
  events : List Event
  iterations : Option Raised
  /-- `executor.aclose()`. -/
  closing : Option Raised
  /-- `queue.requeue(job)`. -/
  requeue : Option Raised
  /-- `str(exc)`. -/
  str : Raised → String

/-! ### Writes -/

/-- The write of the run job. -/
def putJob (job : RunJob) : Run Unit := tryWrite fun w =>
  ((putEntity job.workspaceId (some w.job) job).map fun row =>
    { w with job := row }).mapError .storage

/-- The write of the experiment. -/
def putExperiment (workspaceId : String) (e : Experiment) : Run Unit := tryWrite fun w =>
  ((putEntity workspaceId (w.experiments e.id) e).map fun row =>
    { w with experiments := Function.update w.experiments e.id (some row) }).mapError .storage

/-- `_abort_experiment_in_scope`. -/
def abortExperimentInScope (workspaceId experimentId : String) : Run Unit := do
  let stored ← query (·.experiments experimentId)
  match stored with
  | none => pure ()
  | some e =>
    if e.workspaceId ≠ workspaceId ∨ e.isTerminal then pure ()
    else do
      let e ← ofExcept ((e.transitionTo .aborted).mapError .transition)
      putExperiment workspaceId e

/-- `lease_run_job`. -/
def leaseRunJob (x : Execution) : Run (Option RunJob) := do
  let stored ← query (·.job)
  match leaseDecision stored x.leaseNow x.owner defaultLeaseSeconds with
  | none => pure none
  | some leased => do
    putJob leased
    pure (some leased)

/-- `mark_run_job_cancelled`. -/
def markRunJobCancelled (x : Execution) (job : RunJob) : Run Unit := do
  abortExperimentInScope job.workspaceId job.experimentId
  putJob (job.markCancelled x.endNow)

/-- `mark_run_job_failed`: whether the job is to be retried. -/
def markRunJobFailed (x : Execution) (job : RunJob) (exc : Raised) : Run Bool :=
  let failed := job.markFailedOrDeadLettered (x.str exc) x.endNow
  match failed.2 with
  | .dead => do
    abortExperimentInScope job.workspaceId job.experimentId
    putJob failed.1
    pure false
  | .retry => do
    putJob failed.1
    pure true

/-! ### The run -/

/-- `_run_iterations` up to its first write. -/
def beginLoop (e : Experiment) : Run Experiment :=
  match startLoop e with
  | some e => pure e
  | none => raise (.other
    ("OptimizationLoop.run() requires state in \x7bDRAFT, QUEUED, RUNNING\x7d; got " ++
      Coded.value e.state))

/-- The process writes to the rows while the loop runs. -/
def happen (x : Execution) (workspaceId : String) (e : Experiment) : Event → Run Unit
  | .batch => putExperiment workspaceId e
  | .heartbeat now => tryWrite fun w =>
    .ok { w with job := (touchRunJobLease w.job x.owner (now + seconds defaultLeaseSeconds)).1 }

/-- `coordinator.run()` over the experiment of the spec. -/
def runIterations (x : Execution) (workspaceId : String) (e : Experiment) : Run Unit := do
  let running ← beginLoop e
  putExperiment workspaceId running
  forEach (happen x workspaceId e) x.events
  mayRaise x.iterations
  let completed ← ofExcept ((running.transitionTo .completed).mapError .transition)
  putExperiment workspaceId completed

/-- `build_loop`, as far as it writes the experiment. -/
def buildLoop (x : Execution) (workspaceId : String) (e : Experiment) : Run Unit := do
  mayRaise x.buildBefore
  putExperiment workspaceId e
  mayRaise x.buildAfter

section Job
variable {κ : Type}

def workspaceText (host : Host) (spec : ExperimentSpec κ) : String :=
  match spec.workspaceId with
  | .str s => s
  | v => host.str v

/-- The body of the `try`. -/
def runLoop (host : Host) (x : Execution) (job : RunJob) (spec : ExperimentSpec κ) : Run Bool := do
  let workspaceId := workspaceText host spec
  mayRaise x.openScope
  mayRaise x.wiring
  buildLoop x workspaceId spec.experiment
  mayRaise x.coordinate
  ensuring (runIterations x workspaceId spec.experiment) (mayRaise x.closing)
  putJob (job.markSucceeded x.endNow)
  pure true

/-- The handler of the `try`. -/
def handleFailure (x : Execution) (job : RunJob) (exc : Raised) : Run Bool := do
  let retry ← markRunJobFailed x job exc
  if retry then do
    mayRaise x.requeue
    pure false
  else pure false

/-- `execute_run_job` once the job is marked as running. -/
def executeRunning (S : Schemas κ) (host : Host) (payload : Object) (x : Execution) (job : RunJob) :
    Run Bool := do
  let spec ← ofExcept ((deserializeExperimentSpec S host payload).mapError .load)
  attempt (runLoop host x job spec) (handleFailure x job)

/-- `execute_run_job`. -/
def executeRunJob (S : Schemas κ) (host : Host) (payload : Object) (x : Execution) : Run Bool := do
  let leased ← leaseRunJob x
  match leased with
  | none => pure false
  | some job =>
    if job.shouldCancel then do
      markRunJobCancelled x job
      pure true
    else do
      let job := job.markRunning x.owner (x.runNow + seconds defaultLeaseSeconds) x.runNow
      putJob job
      executeRunning S host payload x job

/-- A stored run job: its experiment is stored in its workspace, and its payload, as far as it can
be read, is of that experiment. -/
structure StoredRun (S : Schemas κ) (host : Host) where
  job : RunJob
  payload : Object
  experiments : String → Option Experiment
  experiment : Experiment
  stored : experiments job.experimentId = some experiment
  key : experiment.id = job.experimentId
  workspace : experiment.workspaceId = job.workspaceId
  payload_id : ∀ spec, deserializeExperimentSpec S host payload = .ok spec →
    spec.experiment.id = job.experimentId

/-- The world that a stored run starts in. -/
def StoredRun.world {S : Schemas κ} {host : Host} (run : StoredRun S host) : World :=
  ⟨run.job, run.experiments⟩

end Job

/-! ### The property -/

/-- The stored experiment of the job meets a condition. -/
def OfExperiment (w : World) (P : Experiment → Prop) : Prop :=
  ∃ e, w.experiments w.job.experimentId = some e ∧ P e

/-- The job is not leased or running; if it is dead-lettered or cancelled its experiment is
terminal, and if it succeeded its experiment is completed. -/
structure Settled (w : World) : Prop where
  notInFlight : w.job.status ≠ .leased ∧ w.job.status ≠ .running
  ended : w.job.status = .deadLettered ∨ w.job.status = .cancelled →
    OfExperiment w fun e => e.isTerminal = true
  succeeded : w.job.status = .succeeded → OfExperiment w fun e => e.state = .completed

/-! ### What the steps leave -/

/-- The stored job can be written over by the worker's copy, and its experiment is stored in its
workspace. -/
structure Held (job : RunJob) (w : World) : Prop where
  workspace : w.job.workspaceId = job.workspaceId
  version : w.job.version = job.version
  experimentId : w.job.experimentId = job.experimentId
  stored : ∃ e, w.experiments job.experimentId = some e ∧ e.id = job.experimentId ∧
    e.workspaceId = job.workspaceId

/-- An experiment is stored in a state. -/
def StoredAs (experiments : String → Option Experiment) (id : String) (state : ExperimentState) :
    Prop :=
  ∃ e, experiments id = some e ∧ e.state = state

section Steps
variable {job job' : RunJob} {w : World}

/-- A copy of the same job. -/
def SameJob (job job' : RunJob) : Prop :=
  job'.workspaceId = job.workspaceId ∧ job'.version = job.version ∧
    job'.experimentId = job.experimentId

theorem triple_putJob (hsame : SameJob job job') (F : (String → Option Experiment) → Prop) :
    Triple (fun w => Held job w ∧ F w.experiments) (putJob job')
      (fun _ w => Held job w ∧ w.job.status = job'.status ∧ F w.experiments) (fun _ _ =>
        False) := by
  obtain ⟨hws, hversion, hexp⟩ := hsame
  have hput : ∀ w, Held job w →
      putEntity job'.workspaceId (some w.job) job' = .ok (upsert (some w.job) job') := fun w hw =>
    putEntity_of_same (α := RunJob) (hws.trans hw.workspace.symm) (hversion.trans hw.version.symm)
  refine triple_tryWrite (fun w w' hw hwrite => ?_) fun w e hw hwrite => ?_
  · rw [hput w hw.1] at hwrite
    obtain rfl := Except.ok.inj hwrite
    exact ⟨⟨hws, hversion, hexp, hw.1.stored⟩, rfl, hw.2⟩
  · rw [hput w hw.1] at hwrite
    cases hwrite

theorem triple_putExperiment (workspaceId : String) (e : Experiment) :
    Triple (Held job) (putExperiment workspaceId e)
      (fun _ w => Held job w ∧ StoredAs w.experiments e.id e.state) (fun _ => Held job) := by
  refine triple_tryWrite (fun w w' hw hwrite => ?_) fun w e' hw _ => hw
  rcases hput : putEntity workspaceId (w.experiments e.id) e with err | row
  · rw [hput] at hwrite
    cases hwrite
  · rw [hput] at hwrite
    obtain rfl := Except.ok.inj hwrite
    obtain ⟨hcheck, rfl⟩ := putEntity_eq_ok hput
    obtain ⟨stored, hstored, hid, hws⟩ := hw.stored
    have hstate : (upsert (w.experiments e.id) e).state = e.state := by
      cases w.experiments e.id <;> rfl
    refine ⟨⟨hw.workspace, hw.version, hw.experimentId, ?_⟩, _, Function.update_self .., hstate⟩
    by_cases hkey : job.experimentId = e.id
    · rw [← hkey, hstored] at hcheck
      obtain ⟨hown, hrow⟩ := checkPut_eq_ok hcheck
      refine ⟨upsert (w.experiments e.id) e, ?_, ?_, ?_⟩
      · rw [hkey]
        exact Function.update_self ..
      · rw [hkey]
        cases w.experiments e.id <;> rfl
      · have hwsrow : (upsert (w.experiments e.id) e).workspaceId = e.workspaceId := by
          cases w.experiments e.id <;> rfl
        rw [hwsrow]
        exact hown.trans (hrow.symm.trans hws)
    · exact ⟨stored, (Function.update_of_ne hkey ..).trans hstored, hid, hws⟩

theorem triple_putBack (e : Experiment) (state : ExperimentState) :
    Triple (fun w => Held job w ∧ w.experiments job.experimentId = some e)
      (putExperiment job.workspaceId { e with state })
      (fun _ w => Held job w ∧ StoredAs w.experiments job.experimentId state) (fun _ _ =>
        False) := by
  have hput : ∀ w, Held job w → w.experiments job.experimentId = some e →
      putEntity job.workspaceId (w.experiments e.id) { e with state } = .ok { e with state } ∧
        e.id = job.experimentId ∧ e.workspaceId = job.workspaceId := by
    intro w hw hstored
    obtain ⟨e', he', hid, hws⟩ := hw.stored
    obtain rfl := Option.some.inj (he'.symm.trans hstored)
    rw [hid, hstored, ← hws]
    exact ⟨putEntity_of_same (α := Experiment) rfl rfl, rfl, rfl⟩
  refine triple_tryWrite (fun w w' hw hwrite => ?_) fun w err hw hwrite => ?_
  · obtain ⟨hok, hid, hws⟩ := hput w hw.1 hw.2
    dsimp only at hwrite
    rw [hok] at hwrite
    obtain rfl := Except.ok.inj hwrite
    have hrow : Function.update w.experiments e.id (some { e with state }) job.experimentId =
        some { e with state } := by
      rw [← hid]
      exact Function.update_self ..
    exact ⟨⟨hw.1.workspace, hw.1.version, hw.1.experimentId, _, hrow, hid, hws⟩, _, hrow, rfl⟩
  · dsimp only at hwrite
    rw [(hput w hw.1 hw.2).1] at hwrite
    cases hwrite

/-- The experiment of a job is terminal. -/
def Ended (job : RunJob) (experiments : String → Option Experiment) : Prop :=
  ∃ e, experiments job.experimentId = some e ∧ e.isTerminal = true

/-- **An abort leaves the experiment terminal**, and does not raise. -/
theorem triple_abort : Triple (Held job) (abortExperimentInScope job.workspaceId job.experimentId)
    (fun _ w => Held job w ∧ Ended job w.experiments) (fun _ _ => False) := by
  refine Triple.bind (Q := fun stored w => Held job w ∧ w.experiments job.experimentId = stored)
    (triple_query _ fun w hw => ⟨hw, rfl⟩) fun stored => ?_
  rcases stored with _ | e
  · refine triple_pure () fun w hw => ?_
    obtain ⟨e, he, -⟩ := hw.1.stored
    rw [hw.2] at he
    cases he
  · dsimp only
    split_ifs with hskip
    · refine triple_pure () fun w hw => ⟨hw.1, e, hw.2, ?_⟩
      obtain ⟨e', he', -, hws⟩ := hw.1.stored
      obtain rfl := Option.some.inj (he'.symm.trans hw.2)
      exact hskip.resolve_left fun h => h hws
    · push Not at hskip
      have hlegal := Experiment.transitionTo_of_legal
        (Experiment.aborted_mem_legalTransitions (Bool.eq_false_iff.mpr hskip.2))
      rw [hlegal]
      refine Triple.bind (Q := fun aborted w => aborted = { e with state := .aborted } ∧
        Held job w ∧ w.experiments job.experimentId = some e)
        (triple_ofExcept (fun aborted w h hw => ⟨(Except.ok.inj h).symm, hw⟩) fun _ _ h =>
          nomatch h)
        fun aborted => triple_of_and ?_
      rintro rfl
      refine (triple_putBack e .aborted).post fun _ w hw => ⟨hw.1, ?_⟩
      obtain ⟨row, hrow, hstate⟩ := hw.2
      exact ⟨row, hrow, by rw [Experiment.isTerminal, hstate]⟩

theorem settled_of_status (hw : Held job w)
    (hflight : w.job.status ≠ .leased ∧ w.job.status ≠ .running)
    (hended : w.job.status = .deadLettered ∨ w.job.status = .cancelled → Ended job w.experiments)
    (hsucceeded : w.job.status = .succeeded →
      StoredAs w.experiments job.experimentId .completed) : Settled w := by
  refine ⟨hflight, fun h => ?_, fun h => ?_⟩
  · unfold OfExperiment
    rw [hw.experimentId]
    exact hended h
  · unfold OfExperiment
    rw [hw.experimentId]
    exact hsucceeded h

/-- **A recorded failure settles the job.** -/
theorem triple_markRunJobFailed (x : Execution) (exc : Raised) :
    Triple (Held job) (markRunJobFailed x job exc) (fun _ => Settled) (fun _ _ => False) := by
  unfold markRunJobFailed
  dsimp only
  have hsame : SameJob job (job.markFailedOrDeadLettered (x.str exc) x.endNow).1 := by
    unfold RunJob.markFailedOrDeadLettered
    dsimp only
    split_ifs <;> exact ⟨rfl, rfl, rfl⟩
  by_cases hattempts : job.maxAttempts ≤ job.attempt
  · obtain ⟨hstatus, hdead⟩ :=
      RunJob.markFailedOrDeadLettered_dead job (x.str exc) x.endNow hattempts
    rw [hdead]
    refine triple_abort.bind fun _ => ?_
    refine (triple_putJob hsame (Ended job)).bind fun _ => triple_pure false fun w hw => ?_
    rw [hstatus] at hw
    exact settled_of_status hw.1 (by simp [hw.2.1]) (fun _ => hw.2.2) (by simp [hw.2.1])
  · obtain ⟨hstatus, hretry⟩ :=
      RunJob.markFailedOrDeadLettered_retry job (x.str exc) x.endNow (not_le.mp hattempts)
    rw [hretry]
    refine ((triple_putJob hsame fun _ => True).pre fun w hw => ⟨hw, trivial⟩).bind fun _ =>
      triple_pure true fun w hw => ?_
    rw [hstatus] at hw
    exact settled_of_status hw.1 (by simp [hw.2.1]) (by simp [hw.2.1]) (by simp [hw.2.1])

theorem triple_markRunJobCancelled (x : Execution) :
    Triple (Held job) (markRunJobCancelled x job) (fun _ => Settled) (fun _ _ => False) := by
  refine triple_abort.bind fun _ => ?_
  have hsame : SameJob job (job.markCancelled x.endNow) := ⟨rfl, rfl, rfl⟩
  refine (triple_putJob hsame (Ended job)).post fun _ w hw => ?_
  have hstatus : w.job.status = .cancelled := hw.2.1
  exact settled_of_status hw.1 (by simp [hstatus]) (fun _ => hw.2.2) (by simp [hstatus])

/-! ### The loop -/

theorem startLoop_spec {e e' : Experiment} (h : startLoop e = some e') :
    e'.state = .running ∧ e'.id = e.id := by
  unfold startLoop at h
  cases hstate : e.state <;>
    simp [hstate, Experiment.transitionTo, Experiment.legalTransitions, Except.toOption] at h <;>
    obtain rfl := h
  · exact ⟨rfl, rfl⟩
  · exact ⟨rfl, rfl⟩
  · exact ⟨hstate, rfl⟩

theorem triple_happen (x : Execution) (workspaceId : String) (e : Experiment) (event : Event) :
    Triple (Held job) (happen x workspaceId e event) (fun _ => Held job) (fun _ => Held job) := by
  rcases event with _ | now
  · exact (triple_putExperiment workspaceId e).post fun _ _ hw => hw.1
  · unfold happen
    refine triple_tryWrite (fun w w' hw hwrite => ?_) fun w err _ hwrite => ?_
    · obtain rfl := Except.ok.inj hwrite
      unfold touchRunJobLease
      split_ifs <;> exact ⟨hw.workspace, hw.version, hw.experimentId, hw.stored⟩
    · cases hwrite

/-- **Iterations that end leave the experiment of the spec completed**; if they raise, the job is as
it was. -/
theorem triple_runIterations (x : Execution) (workspaceId : String) (e : Experiment) :
    Triple (Held job) (runIterations x workspaceId e)
      (fun _ w => Held job w ∧ StoredAs w.experiments e.id .completed) (fun _ => Held job) := by
  have hbegin : Triple (Held job) (beginLoop e)
      (fun running w => (running.state = .running ∧ running.id = e.id) ∧ Held job w)
      (fun _ => Held job) := by
    unfold beginLoop
    rcases hstart : startLoop e with _ | running
    · exact triple_raise _ fun _ hw => hw
    · exact triple_pure running fun _ hw => ⟨startLoop_spec hstart, hw⟩
  refine hbegin.bind fun running => triple_of_and fun ⟨hstate, hid⟩ => ?_
  refine ((triple_putExperiment workspaceId running).post fun _ _ hw => hw.1).bind fun _ => ?_
  refine (triple_forEach (triple_happen x workspaceId e) x.events).bind fun _ => ?_
  refine (triple_mayRaise (Q := fun _ => Held job) x.iterations (fun _ hw => hw)
    fun _ _ hw => hw).bind fun _ => ?_
  have hlegal : running.transitionTo .completed = .ok { running with state := .completed } :=
    Experiment.transitionTo_of_legal (by rw [hstate]; decide)
  rw [hlegal]
  refine Triple.bind (Q := fun completed w =>
    completed = { running with state := .completed } ∧ Held job w)
    (triple_ofExcept (fun completed w h hw => ⟨(Except.ok.inj h).symm, hw⟩) fun _ _ h => nomatch h)
    fun completed => triple_of_and ?_
  rintro rfl
  refine (triple_putExperiment workspaceId _).post fun _ w hw => ?_
  rw [← hid]
  exact hw

theorem triple_step (raised : Option Raised) :
    Triple (Held job) (mayRaise raised) (fun _ => Held job) (fun _ => Held job) :=
  triple_mayRaise raised (fun _ hw => hw) fun _ _ hw => hw

/-- **The body of the `try`** returns with a settled job, or raises with the job as it was. -/
theorem triple_runLoop {κ : Type} (host : Host) (x : Execution) {spec : ExperimentSpec κ}
    (hid : spec.experiment.id = job.experimentId) :
    Triple (Held job) (runLoop host x job spec) (fun _ => Settled) (fun _ => Held job) := by
  unfold runLoop
  dsimp only
  refine (triple_step x.openScope).bind fun _ => (triple_step x.wiring).bind fun _ => ?_
  have hbuild : Triple (Held job) (buildLoop x (workspaceText host spec) spec.experiment)
      (fun _ => Held job) (fun _ => Held job) :=
    (triple_step x.buildBefore).bind fun _ =>
      ((triple_putExperiment _ spec.experiment).post fun _ _ hw => hw.1).bind fun _ =>
        triple_step x.buildAfter
  refine hbuild.bind fun _ => (triple_step x.coordinate).bind fun _ => ?_
  refine ((triple_runIterations x _ spec.experiment).ensuring x.closing (fun _ _ _ hw => hw.1)
    fun _ _ _ hw => hw).bind fun _ => ?_
  rw [hid]
  have hsame : SameJob job (job.markSucceeded x.endNow) := ⟨rfl, rfl, rfl⟩
  refine ((triple_putJob hsame fun experiments =>
    StoredAs experiments job.experimentId .completed).safe).bind fun _ =>
      triple_pure true fun w hw => ?_
  have hstatus : w.job.status = .succeeded := hw.2.1
  exact settled_of_status hw.1 (by simp [hstatus]) (by simp [hstatus]) fun _ => hw.2.2

theorem triple_handleFailure (x : Execution) (exc : Raised) :
    Triple (Held job) (handleFailure x job exc) (fun _ => Settled) (fun _ => Settled) := by
  unfold handleFailure
  refine (triple_markRunJobFailed x exc).safe.bind fun retry => ?_
  split_ifs
  · exact (triple_mayRaise (Q := fun _ => Settled) x.requeue (fun _ hw => hw)
      fun _ _ hw => hw).bind fun _ => triple_pure false fun _ hw => hw
  · exact triple_pure false fun _ hw => hw

end Steps

/-! ### The whole execution -/

section Job
variable {κ : Type} {S : Schemas κ} {host : Host}

theorem StoredRun.held (run : StoredRun S host) {job : RunJob} (hsame : SameJob run.job job) :
    Held job run.world :=
  ⟨hsame.1.symm, hsame.2.1.symm, hsame.2.2.symm, run.experiment,
    by rw [hsame.2.2]; exact run.stored, by rw [hsame.2.2]; exact run.key,
    by rw [hsame.1]; exact run.workspace⟩

theorem triple_leaseRunJob (run : StoredRun S host) (x : Execution) {leased : RunJob}
    (h : leaseDecision run.job x.leaseNow x.owner defaultLeaseSeconds = some leased) :
    Triple (fun w => w = run.world) (leaseRunJob x) (fun job w => job = some leased ∧ Held leased w)
      (fun _ _ => False) := by
  obtain ⟨-, -, hleased⟩ := leaseDecision_eq_some h
  have hsame : SameJob run.job leased := by
    rw [hleased]
    exact ⟨rfl, rfl, rfl⟩
  refine Triple.bind (Q := fun stored w => stored = run.job ∧ w = run.world)
    (triple_query _ fun w hw => ⟨by rw [hw]; rfl, hw⟩) fun stored => triple_of_and ?_
  rintro rfl
  rw [h]
  have hput : Triple (fun w => w = run.world) (putJob leased)
      (fun _ w => Held leased w ∧ w.job.status = leased.status ∧ True) fun _ _ => False :=
    (triple_putJob ⟨rfl, rfl, rfl⟩ fun _ => True).pre fun w hw =>
      ⟨by rw [hw]; exact run.held hsame, trivial⟩
  exact hput.bind fun _ => triple_pure _ fun w hw => ⟨rfl, hw.1⟩

theorem triple_executeRunJob (run : StoredRun S host) (x : Execution) {leased : RunJob}
    (h : leaseDecision run.job x.leaseNow x.owner defaultLeaseSeconds = some leased)
    {F : World → Prop}
    (hcancel : leased.shouldCancel = true →
      Triple (Held leased) (markRunJobCancelled x leased) (fun _ => F) fun _ => F)
    (hrun : leased.shouldCancel = false → ∀ job, SameJob run.job job →
      Triple (fun w =>
        Held job w ∧ w.job.status = .running) (executeRunning S host run.payload x job)
        (fun _ => F) fun _ => F) :
    F ((executeRunJob S host run.payload x).run run.world).2 := by
  have htriple : Triple (fun w => w = run.world) (executeRunJob S host run.payload x) (fun _ => F)
      fun _ => F := by
    refine (triple_leaseRunJob run x h).safe.bind fun job => triple_of_and ?_
    rintro rfl
    dsimp only
    split_ifs with hshould
    · exact (hcancel hshould).bind fun _ => triple_pure true fun _ hw => hw
    · have hsame : SameJob run.job leased := by
        obtain ⟨-, -, hleased⟩ := leaseDecision_eq_some h
        rw [hleased]
        exact ⟨rfl, rfl, rfl⟩
      let running := leased.markRunning x.owner (x.runNow + seconds defaultLeaseSeconds) x.runNow
      have hcopy : SameJob leased running := ⟨rfl, rfl, rfl⟩
      have hput : Triple (Held leased) (putJob running)
          (fun _ w => Held running w ∧ w.job.status = .running) fun _ => F :=
        ((triple_putJob hcopy fun _ => True).safe.pre fun w hw => ⟨hw, trivial⟩).post fun _ w hw =>
          ⟨⟨hw.1.workspace, hw.1.version, hw.1.experimentId, hw.1.stored⟩, hw.2.1⟩
      exact hput.bind fun _ => hrun (Bool.eq_false_iff.mpr hshould) running hsame
  exact htriple.store rfl

/-- **A worker that takes the lease settles the job if and only if** the job was to be cancelled, or
the spec of its payload can be built. -/
theorem settled_iff (run : StoredRun S host) (x : Execution) {leased : RunJob}
    (h : leaseDecision run.job x.leaseNow x.owner defaultLeaseSeconds = some leased) :
    Settled ((executeRunJob S host run.payload x).run run.world).2 ↔
      run.job.shouldCancel = true ∨ (deserializeExperimentSpec S host run.payload).isOk = true := by
  have hshould : leased.shouldCancel = run.job.shouldCancel := by
    obtain ⟨-, -, hleased⟩ := leaseDecision_eq_some h
    rw [hleased]
    rfl
  rcases hspec : deserializeExperimentSpec S host run.payload with e | spec
  · by_cases hcancel : run.job.shouldCancel = true
    · refine iff_of_true ?_ (.inl hcancel)
      refine triple_executeRunJob run x h
        (fun _ => (triple_markRunJobCancelled x).safe) fun hno => ?_
      rw [hshould, hcancel] at hno
      cases hno
    · -- the spec cannot be built: what is raised passes the handler by
      refine iff_of_false (fun hsettled => ?_) fun hor => ?_
      · have hrunning :
          ((executeRunJob S host run.payload x).run run.world).2.job.status = .running := by
          refine triple_executeRunJob run x h (F := fun w => w.job.status = .running)
            (fun hyes => absurd (hshould.symm.trans hyes) hcancel) fun _ job _ => ?_
          unfold executeRunning
          rw [hspec]
          exact Triple.bind (Q := fun _ _ => False)
            (triple_ofExcept (fun _ _ h => nomatch h) fun _ _ _ hw => hw.2) fun _ s hs => hs.elim
        exact hsettled.notInFlight.2 hrunning
      · rcases hor with hyes | hok
        · exact hcancel hyes
        · cases hok
  · refine iff_of_true ?_ (.inr rfl)
    refine triple_executeRunJob run x h (fun _ => (triple_markRunJobCancelled x).safe)
      fun _ job hsame => ?_
    unfold executeRunning
    rw [hspec]
    have hid : spec.experiment.id = job.experimentId :=
      (run.payload_id spec hspec).trans hsame.2.2.symm
    refine Triple.bind (Q := fun built w => built = spec ∧ Held job w)
      (triple_ofExcept (fun built w hb hw => ⟨(Except.ok.inj hb).symm, hw.1⟩) fun _ _ h =>
        nomatch h)
      fun built => triple_of_and ?_
    rintro rfl
    exact (triple_runLoop host x hid).attempt fun exc => triple_handleFailure x exc

end Job

/-! ### A launch over another dataset -/

/-- Nothing is raised, and nothing happens while the loop runs. -/
def quiet : Execution where
  owner := "worker"
  leaseNow := 0
  runNow := 1
  endNow := 2
  openScope := none
  wiring := none
  buildBefore := none
  buildAfter := none
  coordinate := none
  events := []
  iterations := none
  closing := none
  requeue := none
  str _ := ""

/-- The job of a spec as it is launched. -/
def launchedJob : RunJob :=
  newRunJob "run_1" "ws_1" "exp_1" 0 1 defaultMaxAttempts one_le_defaultMaxAttempts

def refundRun : StoredRun (refundSchemas 0) emptyHost where
  job := launchedJob
  payload := serializeExperimentSpec (refundSchemas 0) (refundSpec none)
  experiments id := if id = "exp_1" then some (refundSpec none).experiment else none
  experiment := (refundSpec none).experiment
  stored := rfl
  key := rfl
  workspace := rfl
  payload_id spec h := by
    obtain rfl := Except.ok.inj ((deserialize_refund 0).symm.trans h)
    rfl

/-- The job of a spec that can be built is settled. -/
theorem settled_refund :
    Settled ((executeRunJob (refundSchemas 0) emptyHost refundRun.payload quiet).run
      refundRun.world).2 :=
  (settled_iff refundRun quiet rfl).mpr (.inr (by rw [refundRun, deserialize_refund]; rfl))

/-- An experiment whose primary grader is `tone`. -/
def toned : Experiment :=
  { Experiment.minimal with target :=
    { Experiment.minimal.target with primaryGrader := some "tone" } }

def tonedSchemas : Schemas EvalCase :=
  { refundSchemas 0 with
    experiment := { (refundSchemas 0).experiment with validate := fun _ => .ok toned } }

/-- What is launched where the case asks for the grader and the request puts another dataset in place
of the case. -/
def tonedSpec : ExperimentSpec EvalCase :=
  { refundSpec none with
    experiment := { toned with
      datasets := { toned.datasets with optimization := ⟨"ds_2", none⟩ }
      frozen := { toned.frozen with datasets := [⟨"ds_2", none⟩] } }
    cases := []
    datasetSource := .ref ⟨⟨"ds_2", none⟩⟩ }

theorem deserialize_toned : (deserializeExperimentSpec tonedSchemas emptyHost
    (serializeExperimentSpec tonedSchemas tonedSpec)).isOk = false := rfl

def tonedRun : StoredRun tonedSchemas emptyHost where
  job := launchedJob
  payload := serializeExperimentSpec tonedSchemas tonedSpec
  experiments id := if id = "exp_1" then some tonedSpec.experiment else none
  experiment := tonedSpec.experiment
  stored := rfl
  key := rfl
  workspace := rfl
  payload_id spec h := by
    have hrefused := deserialize_toned
    rw [h] at hrefused
    cases hrefused

/-- **The worker raises, and the job stays running.** -/
theorem not_all_settled :
    ¬∀ (run : StoredRun tonedSchemas emptyHost) (x : Execution) (leased : RunJob),
      leaseDecision run.job x.leaseNow x.owner defaultLeaseSeconds = some leased →
        Settled ((executeRunJob tonedSchemas emptyHost run.payload x).run run.world).2 := by
  intro h
  have hsettled := h tonedRun quiet _ rfl
  exact hsettled.notInFlight.2 rfl

end Selfevals.Api.RunExecution
