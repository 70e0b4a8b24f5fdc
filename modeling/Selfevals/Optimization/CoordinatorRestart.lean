import Selfevals.Lib.Run
import Selfevals.Optimization.Proposers
import Selfevals.Schemas.Job

/-!
# A coordinator that is started again

The coordinator of a run job proposes, plans the scenario jobs of the iteration, waits for the
workers, aggregates their outcomes and stores the record. A process may die at any point; the next
one starts from iteration 0. Jobs that are planned already stay as they are, and a second record of
an iteration is refused.

* `step` is the system of the coordinators and the workers of one run job;
-/

namespace Selfevals.Optimization.CoordinatorRestart

open Lib.JsonValue Lib.Run Schemas.Experiments Schemas.Job Optimization.GridProposer
  Optimization.Proposers

/-! ### Tables -/

/-- A row of `scenario_jobs`. -/
structure ScenarioRow where
  iteration : ℕ
  caseId : String
  parameterOverrides : Object
  status : ScenarioJobStatus := .pending

/-- A row of `scenario_outcomes`; what the case was run with is history. -/
structure OutcomeRow where
  iteration : ℕ
  caseId : String
  producedWith : Object
deriving DecidableEq

/-- A row of `iteration_records`; the outcomes that were aggregated are history. -/
structure RecordRow where
  iteration : ℕ
  proposedParameters : Object
  outcomes : List OutcomeRow
deriving DecidableEq

/-- What `UNIQUE (run_job_id, iteration, case_id)` compares, in one run job. -/
def ScenarioRow.key (j : ScenarioRow) : ℕ × String := (j.iteration, j.caseId)

def OutcomeRow.key (o : OutcomeRow) : ℕ × String := (o.iteration, o.caseId)

/-- The outcome that a job is to have. -/
def ScenarioRow.planned (j : ScenarioRow) :
    OutcomeRow := ⟨j.iteration, j.caseId, j.parameterOverrides⟩

/-- `ON CONFLICT (run_job_id, iteration, case_id) DO NOTHING`. -/
def insertScenarioJob (jobs : List ScenarioRow) (job : ScenarioRow) : List ScenarioRow :=
  if job.key ∈ jobs.map (·.key) then jobs else jobs ++ [job]

/-- `plan_scenario_jobs`. -/
def planScenarioJobs (jobs : List ScenarioRow) (caseIds : List String) (iteration : ℕ)
    (parameterOverrides : Object) : List ScenarioRow :=
  (caseIds.map fun caseId =>
    ⟨iteration, caseId, parameterOverrides, .pending⟩).foldl insertScenarioJob jobs

/-- The job gets a status, if its own is as asked for. -/
def setStatus (key : ℕ × String) (asked : ScenarioJobStatus → Bool) (status : ScenarioJobStatus)
    (jobs : List ScenarioRow) : List ScenarioRow :=
  jobs.map fun j => if j.key = key ∧ asked j.status then { j with status } else j

/-- `write_scenario_outcome`. -/
def writeOutcome (outcomes : List OutcomeRow) (row : OutcomeRow) : List OutcomeRow :=
  outcomes.filter (·.key ≠ row.key) ++ [row]

/-- The `in_flight` of the barrier. -/
def inFlight (jobs : List ScenarioRow) (iteration : ℕ) : ℕ :=
  jobs.countP fun j => j.iteration = iteration ∧
    (j.status = .pending ∨ j.status = .claimed ∨ j.status = .running)

/-! ### The system -/

/-- Where a coordinator is in its iteration. -/
inductive Phase
  | proposing
  | proposed (parameters : Object) (consumed : Option HypothesisRecord)
  /-- The hypothesis that was consumed is written back. -/
  | ready (parameters : Object)
  | draining (parameters : Object)
  /-- The barrier is clear, and the outcomes are aggregated. -/
  | collected (parameters : Object) (outcomes : List OutcomeRow)
  | over

/-- The process that drives a run. -/
structure Coordinator (R : Type) where
  index : ℕ := 0
  rng : R
  failureModes : List String := []
  phase : Phase := .proposing

/-- The tables, the coordinator's process if one is alive, the workers with the job that each has
claimed, and whether the run job has succeeded. -/
structure State (R ι : Type) where
  jobs : List ScenarioRow
  outcomes : List OutcomeRow
  records : List RecordRow
  hypotheses : List HypothesisRecord
  coordinator : Option (Coordinator R)
  worker : ι → Option ScenarioRow
  succeeded : Bool

/-- What the coordinator, its workers and the sweeper do. -/
inductive Op (R ι : Type)
  /-- A process takes up the run job. -/
  | start (entropy : R)
  | propose
  | persistConsumed
  | plan
  /-- The barrier is clear: the outcomes are aggregated. -/
  | collect
  /-- The record is put; the loop goes on unless it has converged. -/
  | store (converged : Bool) (failureModes : List String)
  /-- The run job succeeds. -/
  | finish
  /-- The process dies, or raises. -/
  | die
  | claim (w : ι) (key : ℕ × String)
  | writeOutcome (w : ι)
  /-- The job is finalized: it succeeded, is to be tried again or is dead-lettered. -/
  | finalize (w : ι) (status : ScenarioJobStatus)
  | workerDies (w : ι)
  /-- The lease of a claimed job has expired. -/
  | sweep (key : ℕ × String) (deadLetter : Bool)

/-- A run job of an experiment that had none before. -/
def init {R ι : Type} (hypotheses : List HypothesisRecord) : State R ι :=
  ⟨[], [], [], hypotheses, none, fun _ => none, false⟩

/-- A run job: its experiment, its proposer and its cases. -/
structure RunSpec (R : Type) where
  generator : Generator R
  pyStr : Json → String
  proposer : Proposer R
  experiment : Experiment
  caseIds : List String

section Step
variable {R ι : Type} [DecidableEq ι] (run : RunSpec R)

/-- The coordinator goes on. -/
def State.advance (s : State R ι) (c : Coordinator R) (phase : Phase) : State R ι :=
  { s with coordinator := some { c with phase } }

/-- The coordinator's process is gone. -/
def State.stopped (s : State R ι) : State R ι := { s with coordinator := none }

def State.setWorker (s : State R ι) (w : ι) (held : Option ScenarioRow) : State R ι :=
  { s with worker := Function.update s.worker w held }

/-- A turn of the loop up to the proposal. -/
def proposeStep (s : State R ι) (c : Coordinator R) : State R ι :=
  let context : ProposerContext :=
    { iterationIndex := c.index
      failureModes := c.failureModes
      pendingHypotheses := pendingHypotheses run.experiment.id s.hypotheses }
  match run.proposer.propose run.generator run.pyStr run.experiment context c.rng with
  | (.proposal p, rng, consumed) => s.advance { c with rng } (.proposed p.parameters consumed)
  | (.exhausted _, rng, _) => s.advance { c with rng } .over
  | _ => s.stopped

/-- `put_entity(iteration_record)` under `UNIQUE (workspace_id, experiment_id, iteration)`, and the
end of the turn. -/
def storeStep (s : State R ι) (c : Coordinator R) (parameters : Object) (outcomes : List OutcomeRow)
    (converged : Bool) (failureModes : List String) : State R ι :=
  if c.index ∈ s.records.map (·.iteration) then s.stopped
  else
    let stored := { s with records := s.records ++ [RecordRow.mk c.index parameters outcomes] }
    if converged ∨ run.experiment.run.maxIterations ≤ c.index + 1 then stored.advance c .over
    else stored.advance { c with index := c.index + 1, failureModes } .proposing

/-- One step; `none` where it is not possible. -/
def step (s : State R ι) : Op R ι → Option (State R ι)
  | .start entropy =>
    if s.coordinator.isNone ∧ s.succeeded = false then
      some { s with coordinator := some { rng := run.proposer.start run.generator entropy } }
    else none
  | .propose =>
    match s.coordinator with
    | some c =>
      match c.phase with
      | .proposing => some (proposeStep run s c)
      | _ => none
    | none => none
  | .persistConsumed =>
    match s.coordinator with
    | some c =>
      match c.phase with
      | .proposed p consumed =>
        let hypotheses := s.hypotheses.map fun h => (consumed.filter (·.id = h.id)).getD h
        some (State.advance { s with hypotheses } c (.ready p))
      | _ => none
    | none => none
  | .plan =>
    match s.coordinator with
    | some c =>
      match c.phase with
      | .ready p =>
        some (State.advance { s with jobs := planScenarioJobs s.jobs run.caseIds c.index p } c
          (.draining p))
      | _ => none
    | none => none
  | .collect =>
    match s.coordinator with
    | some c =>
      match c.phase with
      | .draining p =>
        if inFlight s.jobs c.index = 0 then
          some (s.advance c (.collected p (s.outcomes.filter (·.iteration = c.index))))
        else none
      | _ => none
    | none => none
  | .store converged failureModes =>
    match s.coordinator with
    | some c =>
      match c.phase with
      | .collected p outcomes => some (storeStep run s c p outcomes converged failureModes)
      | _ => none
    | none => none
  | .finish =>
    match s.coordinator with
    | some c =>
      match c.phase with
      | .over => some { s.stopped with succeeded := true }
      | _ => none
    | none => none
  | .die => some s.stopped
  | .claim w key =>
    match s.worker w, s.jobs.find? (fun j => j.key = key ∧ j.status = .pending) with
    | none, some j =>
      some (State.setWorker { s with jobs := setStatus key (· = .pending) .claimed s.jobs } w
        (some j))
    | _, _ => none
  | .writeOutcome w =>
    match s.worker w with
    | some j =>
      some { s with outcomes := writeOutcome s.outcomes j.planned }
    | none => none
  | .finalize w status =>
    match s.worker w with
    | some j =>
      if status = .succeeded → j.key ∈ s.outcomes.map (·.key) then
        some (State.setWorker { s with jobs := setStatus j.key (fun _ => true) status s.jobs } w
          none)
      else none
    | none => none
  | .workerDies w => some (s.setWorker w none)
  | .sweep key deadLetter =>
    some { s with
      jobs := setStatus key (· = .claimed) (if deadLetter then .deadLettered else .pending) s.jobs }

end Step

/-! ### The law -/

section Law
variable {R ι : Type}

/-- Every outcome that was aggregated into a record was produced with the parameters that it names.
-/
def Consistent (records : List RecordRow) : Prop :=
  ∀ r ∈ records, ∀ o ∈ r.outcomes, o.producedWith = r.proposedParameters

/-- The iteration, the parameters and the outcomes of the record that the coordinator is to store.
-/
def storing (s : State R ι) : Option (ℕ × Object × List OutcomeRow) :=
  s.coordinator.bind fun c =>
    match c.phase with
    | .collected parameters outcomes => some (c.index, parameters, outcomes)
    | _ => none

/-- What a step is to do: no record is refused, and the records stay consistent. -/
structure Lawful (s : State R ι) (op : Op R ι) (s' : State R ι) : Prop where
  accepted : ∀ converged failureModes, op = .store converged failureModes → ∀ x ∈ storing s,
    x.1 ∉ s.records.map (·.iteration)
  consistent : Consistent s'.records

/-- When a process stores its first record, none is stored yet, and the jobs whose outcomes it
aggregated were planned with the parameters that it proposed. -/
def FirstRecord (s : State R ι) : Op R ι → Prop
  | .store _ _ => ∀ x ∈ storing s, x.1 = 0 → s.records = [] ∧
      ∀ j ∈ s.jobs, j.key ∈ x.2.2.map (·.key) → j.parameterOverrides = x.2.1
  | _ => True

instance (s : State R ι) (op : Op R ι) : Decidable (FirstRecord s op) := by
  cases op <;> unfold FirstRecord <;> infer_instance

/-! ### The invariant -/

/-- The outcomes that the jobs are to have. -/
def plans (s : State R ι) : List OutcomeRow := s.jobs.map (·.planned)

/-- Beyond the first iteration, the jobs of an iteration were planned by the process that is in it.
-/
def PhaseInv (plans : List OutcomeRow) (index : ℕ) : Phase → Prop
  | .proposing | .proposed _ _ | .ready _ => 0 < index → ∀ o ∈ plans, o.iteration < index
  | .draining p => 0 < index → ∀ o ∈ plans, o.iteration ≤ index ∧
      (o.iteration = index → o.producedWith = p)
  | .collected p outcomes => (0 < index → ∀ o ∈ plans, o.iteration ≤ index ∧
      (o.iteration = index → o.producedWith = p)) ∧ ∀ o ∈ outcomes, o ∈ plans ∧ o.iteration = index
  | .over => True

/-- What a coordinator in its loop knows of the tables. -/
def CoordinatorInv (plans : List OutcomeRow) (records : ℕ) (c : Coordinator R) : Prop :=
  c.phase ≠ .over → (c.index = 0 ∨ c.index = records) ∧ PhaseInv plans c.index c.phase

/-- What holds in every state of a run. -/
structure Inv (s : State R ι) : Prop where
  keys : ((plans s).map (·.key)).Nodup
  outcomes : ∀ o ∈ s.outcomes, o ∈ plans s
  held : ∀ w, ∀ j ∈ s.worker w, j.planned ∈ plans s
  iterations : s.records.map (·.iteration) = List.range s.records.length
  consistent : Consistent s.records
  first : s.records = [] → ∀ o ∈ plans s, o.iteration = 0
  coordinator : ∀ c ∈ s.coordinator, CoordinatorInv (plans s) s.records.length c

theorem inv_init (hypotheses : List HypothesisRecord) : Inv (init hypotheses : State R ι) where
  keys := List.nodup_nil
  outcomes _ h := absurd h List.not_mem_nil
  held _ _ h := by cases h
  iterations := rfl
  consistent _ h := absurd h List.not_mem_nil
  first _ _ h := absurd h List.not_mem_nil
  coordinator _ h := by cases h

/-! ### Tables -/

theorem plans_setStatus {s s' : State R ι} (key : ℕ × String) (asked : ScenarioJobStatus → Bool)
    (status : ScenarioJobStatus) (h : s'.jobs = setStatus key asked status s.jobs) :
    plans s' = plans s := by
  rw [plans, h, setStatus, List.map_map]
  refine List.map_congr_left fun j _ => ?_
  rw [Function.comp]
  split_ifs <;> rfl

theorem mem_writeOutcome {outcomes : List OutcomeRow} {row o : OutcomeRow}
    (h : o ∈ writeOutcome outcomes row) : o ∈ outcomes ∨ o = row := by
  obtain h | h := List.mem_append.mp h
  · exact .inl (List.mem_of_mem_filter h)
  · exact .inr (List.mem_singleton.mp h)

/-- **Planning** leaves what is planned, and adds jobs of the iteration with the parameters. -/
theorem planScenarioJobs_spec {jobs : List ScenarioRow} (caseIds : List String) (iteration : ℕ)
    (p : Object) (h : ((jobs.map (·.planned)).map (·.key)).Nodup) :
    (((planScenarioJobs jobs caseIds iteration p).map (·.planned)).map (·.key)).Nodup ∧
      (∀ o ∈ jobs.map (·.planned),
        o ∈ (planScenarioJobs jobs caseIds iteration p).map (·.planned)) ∧
      ∀ o ∈ (planScenarioJobs jobs caseIds iteration p).map (·.planned),
        o ∈ jobs.map (·.planned) ∨ o.iteration = iteration ∧ o.producedWith = p := by
  unfold planScenarioJobs
  induction caseIds generalizing jobs with
  | nil => exact ⟨h, fun _ ho => ho, fun _ ho => .inl ho⟩
  | cons caseId caseIds ih =>
    rw [List.map_cons, List.foldl_cons]
    have hkeys : (jobs.map (·.planned)).map (·.key) = jobs.map (·.key) := by
      rw [List.map_map]
      rfl
    by_cases hkey : (iteration, caseId) ∈ jobs.map (·.key)
    · have hinsert : insertScenarioJob jobs ⟨iteration, caseId, p, .pending⟩ = jobs := if_pos hkey
      rw [hinsert]
      exact ih h
    · have hinsert : insertScenarioJob jobs ⟨iteration, caseId, p, .pending⟩ =
          jobs ++ [⟨iteration, caseId, p, .pending⟩] := if_neg hkey
      rw [hinsert]
      have hadded : (((jobs ++ [ScenarioRow.mk iteration caseId p .pending]).map (·.planned)).map
          (·.key)).Nodup := by
        rw [List.map_append, List.map_append, hkeys, List.nodup_append]
        refine ⟨hkeys ▸ h, by simp, ?_⟩
        rintro k hk k' hk' rfl
        rw [List.map_singleton, List.map_singleton, List.mem_singleton] at hk'
        exact hkey (by rwa [hk'] at hk)
      obtain ⟨hnodup, hkeep, hnew⟩ := ih hadded
      refine ⟨hnodup, fun o ho => hkeep o (by simp [ho]), fun o ho => ?_⟩
      obtain ho | ho := hnew o ho
      · rw [List.map_append, List.mem_append] at ho
        obtain ho | ho := ho
        · exact .inl ho
        · rw [List.map_singleton, List.mem_singleton] at ho
          rw [ho]
          exact .inr ⟨rfl, rfl⟩
      · exact .inr ho

/-! ### Steps -/

variable {run : RunSpec R} {s s' : State R ι}

theorem Inv.congr (h : Inv s) (hplans : plans s' = plans s) (hrecords : s'.records = s.records)
    (houtcomes : ∀ o ∈ s'.outcomes, o ∈ plans s) (hheld : ∀ w, ∀ j ∈ s'.worker w,
      j.planned ∈ plans s)
    (hcoordinator : ∀ c ∈ s'.coordinator, CoordinatorInv (plans s) s.records.length c) :
    Inv s' where
  keys := hplans ▸ h.keys
  outcomes := hplans ▸ houtcomes
  held := hplans ▸ hheld
  iterations := hrecords ▸ h.iterations
  consistent := hrecords ▸ h.consistent
  first := by
    rw [hplans, hrecords]
    exact h.first
  coordinator := by
    rw [hplans, hrecords]
    exact hcoordinator

theorem Inv.advance (h : Inv s) {c : Coordinator R} {phase : Phase}
    (hindex : c.index = 0 ∨
      c.index = s.records.length) (hphase : PhaseInv (plans s) c.index phase) :
    Inv (s.advance c phase) := by
  refine h.congr rfl rfl h.outcomes h.held fun c' hc' => ?_
  obtain rfl := Option.some.inj hc'
  exact fun _ => ⟨hindex, hphase⟩

theorem Inv.over (h : Inv s) (c : Coordinator R) : Inv (s.advance c .over) := by
  refine h.congr rfl rfl h.outcomes h.held fun c' hc' => ?_
  obtain rfl := Option.some.inj hc'
  exact fun hover => absurd rfl hover

theorem Inv.stopped (h : Inv s) : Inv s.stopped :=
  h.congr rfl rfl h.outcomes h.held fun c hc => by cases hc

theorem inv_proposeStep {c : Coordinator R} (h : Inv s)
    (hc : CoordinatorInv (plans s) s.records.length c) (hphase : c.phase = .proposing) :
    Inv (proposeStep run s c) ∧ (proposeStep run s c).records = s.records := by
  obtain ⟨hindex, hknown⟩ := hc (by simp [hphase])
  rw [hphase] at hknown
  simp only [proposeStep]
  split
  · exact ⟨h.advance hindex hknown, rfl⟩
  · exact ⟨h.over _, rfl⟩
  · exact ⟨h.stopped, rfl⟩

theorem Inv.plan (h : Inv s) {c : Coordinator R} {p : Object} (caseIds : List String)
    (hc : CoordinatorInv (plans s) s.records.length c) (hphase : c.phase = .ready p) :
    Inv (State.advance { s with jobs := planScenarioJobs s.jobs caseIds c.index p } c
      (.draining p)) := by
  obtain ⟨hindex, hknown⟩ := hc (by simp [hphase])
  rw [hphase] at hknown
  obtain ⟨hnodup, hkeep, hnew⟩ := planScenarioJobs_spec caseIds c.index p h.keys
  exact {
    keys := hnodup
    outcomes := fun o ho => hkeep o (h.outcomes o ho)
    held := fun w j hj => hkeep _ (h.held w j hj)
    iterations := h.iterations
    consistent := h.consistent
    first := fun hnil o ho => by
      have hnil' : s.records = [] := hnil
      have hzero : c.index = 0 := by
        obtain h0 | hlength := hindex
        · exact h0
        · rw [hlength, hnil']
          rfl
      obtain hold | ⟨hiteration, -⟩ := hnew o ho
      · exact h.first hnil' o hold
      · rw [hiteration, hzero]
    coordinator := fun c' hc' => by
      obtain rfl := Option.some.inj hc'
      refine fun _ => ⟨hindex, fun hpos o ho => ?_⟩
      obtain hold | ⟨hiteration, hp⟩ := hnew o ho
      · have hlt : o.iteration < c.index := hknown hpos o hold
        exact ⟨hlt.le, fun heq => absurd heq hlt.ne⟩
      · exact ⟨hiteration.le, fun _ => hp⟩ }

theorem Inv.collect (h : Inv s) {c : Coordinator R} {p : Object}
    (hc : CoordinatorInv (plans s) s.records.length c) (hphase : c.phase = .draining p) :
    Inv (s.advance c (.collected p (s.outcomes.filter (·.iteration = c.index)))) := by
  obtain ⟨hindex, hknown⟩ := hc (by simp [hphase])
  rw [hphase] at hknown
  refine h.advance hindex ⟨hknown, fun o ho => ?_⟩
  obtain ⟨ho, hiteration⟩ := List.mem_filter.mp ho
  exact ⟨h.outcomes o ho, by simpa using hiteration⟩

theorem Inv.work (h : Inv s) (hplans : plans s' = plans s) (hrecords : s'.records = s.records)
    (hcoordinator : s'.coordinator = s.coordinator) (houtcomes : ∀ o ∈ s'.outcomes, o ∈ plans s)
    (hheld : ∀ w, ∀ j ∈ s'.worker w, j.planned ∈ plans s) : Inv s' :=
  h.congr hplans hrecords houtcomes hheld (hcoordinator ▸ h.coordinator)

theorem storing_eq_some {c : Coordinator R} {p : Object} {os : List OutcomeRow}
    (hc : s.coordinator = some c) (hphase : c.phase = .collected p os) :
    storing s = some (c.index, p, os) := by
  rw [storing, hc, Option.bind_some, hphase]

theorem Inv.producedWith_iff (h : Inv s) {os : List OutcomeRow} (hos : ∀ o ∈ os, o ∈ plans s)
    (p : Object) :
    (∀ o ∈ os, o.producedWith = p) ↔
      ∀ j ∈ s.jobs, j.key ∈ os.map (·.key) → j.parameterOverrides = p := by
  constructor
  · intro hall j hj hkey
    obtain ⟨o, ho, hkey⟩ := List.mem_map.mp hkey
    have hplanned : j.planned ∈ plans s := List.mem_map_of_mem hj
    obtain rfl : o = j.planned := List.inj_on_of_nodup_map h.keys (hos o ho) hplanned hkey
    exact hall _ ho
  · intro hall o ho
    obtain ⟨j, hj, rfl⟩ := List.mem_map.mp (hos o ho)
    exact hall j hj (List.mem_map_of_mem ho)

theorem records_storeStep {c : Coordinator R} {p : Object} {os : List OutcomeRow} {converged : Bool}
    {failureModes : List String} :
    (storeStep run s c p os converged failureModes).records =
      if c.index ∈ s.records.map (·.iteration) then s.records else s.records ++
        [⟨c.index, p, os⟩] := by
  unfold storeStep
  split_ifs <;> rfl

theorem consistent_append {records : List RecordRow} (h : Consistent records) {r : RecordRow} :
    Consistent (records ++ [r]) ↔ ∀ o ∈ r.outcomes, o.producedWith = r.proposedParameters := by
  unfold Consistent
  rw [List.forall_mem_append, List.forall_mem_singleton]
  exact and_iff_right h

theorem Inv.store (h : Inv s) {c : Coordinator R} {p : Object} {os : List OutcomeRow}
    {converged : Bool}
    {failureModes : List String} (hlength : c.index = s.records.length)
    (hbefore : ∀ o ∈ plans s, o.iteration ≤ c.index) (hos : ∀ o ∈ os, o.producedWith = p) :
    Inv (storeStep run s c p os converged failureModes) := by
  have hnew : c.index ∉ s.records.map (·.iteration) := by
    rw [h.iterations, List.mem_range, hlength]
    exact lt_irrefl _
  have hiterations : (s.records ++ [RecordRow.mk c.index p os]).map (·.iteration) =
      List.range (s.records ++ [RecordRow.mk c.index p os]).length := by
    rw [List.map_append, h.iterations, List.length_append, List.length_singleton, List.range_succ,
      hlength]
    rfl
  have hstored : Inv
      ({ s.stopped with records := s.records ++ [RecordRow.mk c.index p os] } : State R ι) :=
    { keys := h.keys
      outcomes := h.outcomes
      held := h.held
      iterations := hiterations
      consistent := (consistent_append h.consistent).mpr hos
      first := fun hnil => absurd hnil (by simp)
      coordinator := fun c hc => by cases hc }
  unfold storeStep
  rw [if_neg hnew]
  simp only
  have hindex : c.index + 1 = (s.records ++ [RecordRow.mk c.index p os]).length := by simp [hlength]
  have hbelow : PhaseInv (plans s) (c.index + 1) .proposing :=
    fun _ o ho => Nat.lt_succ_of_le (hbefore o ho)
  split_ifs
  · exact hstored.over c
  · exact hstored.advance (c := { c with index := c.index + 1, failureModes }) (.inr hindex) hbelow

end Law

section Steps
variable {R ι : Type} [DecidableEq ι] {run : RunSpec R} {s s' : State R ι}

theorem held_setWorker (h : Inv s) {w : ι} {held : Option ScenarioRow}
    (hheld : ∀ j ∈ held, j.planned ∈ plans s) (w' : ι) :
    ∀ j ∈ Function.update s.worker w held w', j.planned ∈ plans s := by
  by_cases hw : w' = w
  · rw [hw, Function.update_self]
    exact hheld
  · rw [Function.update_of_ne hw]
    exact h.held w'

theorem inv_propose (h : Inv s) (hs : step run s .propose = some s') :
    Inv s' ∧ s'.records = s.records := by
  simp only [step] at hs
  split at hs
  · next c hc =>
    split at hs
    · next hphase =>
      obtain rfl := Option.some.inj hs
      exact inv_proposeStep h (h.coordinator c hc) hphase
    · cases hs
  · cases hs

theorem inv_persistConsumed (h : Inv s) (hs : step run s .persistConsumed = some s') :
    Inv s' ∧ s'.records = s.records := by
  simp only [step] at hs
  split at hs
  · next c hc =>
    split at hs
    · next p consumed hphase =>
      obtain rfl := Option.some.inj hs
      obtain ⟨hindex, hknown⟩ := h.coordinator c hc (by simp [hphase])
      rw [hphase] at hknown
      refine ⟨h.congr rfl rfl h.outcomes h.held fun c' hc' => ?_, rfl⟩
      obtain rfl := Option.some.inj hc'
      exact fun _ => ⟨hindex, hknown⟩
    · cases hs
  · cases hs

theorem inv_plan (h : Inv s) (hs : step run s .plan = some s') :
    Inv s' ∧ s'.records = s.records := by
  simp only [step] at hs
  split at hs
  · next c hc =>
    split at hs
    · next p hphase =>
      obtain rfl := Option.some.inj hs
      exact ⟨h.plan run.caseIds (h.coordinator c hc) hphase, rfl⟩
    · cases hs
  · cases hs

theorem inv_collect (h : Inv s) (hs : step run s .collect = some s') :
    Inv s' ∧ s'.records = s.records := by
  simp only [step] at hs
  split at hs
  · next c hc =>
    split at hs
    · next p hphase =>
      split_ifs at hs with hclear
      obtain rfl := Option.some.inj hs
      exact ⟨h.collect (h.coordinator c hc) hphase, rfl⟩
    · cases hs
  · cases hs

theorem inv_finish (h : Inv s) (hs : step run s .finish = some s') :
    Inv s' ∧ s'.records = s.records := by
  simp only [step] at hs
  split at hs
  · split at hs
    · obtain rfl := Option.some.inj hs
      exact ⟨h.congr rfl rfl h.outcomes h.held fun c hc => (by cases hc), rfl⟩
    · cases hs
  · cases hs

theorem inv_claim {w : ι} {key : ℕ × String} (h : Inv s)
    (hs : step run s (.claim w key) = some s') : Inv s' ∧ s'.records = s.records := by
  simp only [step] at hs
  split at hs
  · next j hidle hj =>
    obtain rfl := Option.some.inj hs
    have hmem : j.planned ∈ plans s := List.mem_map_of_mem (List.mem_of_find?_eq_some hj)
    refine ⟨h.work (plans_setStatus key (· = .pending) .claimed rfl) rfl rfl h.outcomes ?_, rfl⟩
    exact held_setWorker h fun j' hj' => by rwa [← Option.some.inj hj']
  · cases hs

theorem inv_writeOutcome {w : ι} (h : Inv s) (hs : step run s (.writeOutcome w) = some s') :
    Inv s' ∧ s'.records = s.records := by
  simp only [step] at hs
  split at hs
  · next j hj =>
    obtain rfl := Option.some.inj hs
    refine ⟨h.work rfl rfl rfl (fun o ho => ?_) h.held, rfl⟩
    obtain ho | rfl := mem_writeOutcome ho
    · exact h.outcomes o ho
    · exact h.held w j hj
  · cases hs

theorem inv_finalize {w : ι} {status : ScenarioJobStatus} (h : Inv s)
    (hs : step run s (.finalize w status) = some s') : Inv s' ∧ s'.records = s.records := by
  simp only [step] at hs
  split at hs
  · next held hheld =>
    split_ifs at hs with hwritten
    obtain rfl := Option.some.inj hs
    exact ⟨h.work (plans_setStatus held.key (fun _ => true) status rfl) rfl rfl h.outcomes
      (held_setWorker h fun j hj => by cases hj), rfl⟩
  · cases hs

theorem inv_step_of_ne_store {op : Op R ι} (h : Inv s) (hs : step run s op = some s')
    (hop : ∀ converged failureModes, op ≠ .store converged failureModes) :
    Inv s' ∧ s'.records = s.records := by
  cases op with
  | store converged failureModes => exact absurd rfl (hop converged failureModes)
  | start entropy =>
    simp only [step] at hs
    split_ifs at hs with hidle
    obtain rfl := Option.some.inj hs
    refine ⟨h.congr rfl rfl h.outcomes h.held fun c hc => ?_, rfl⟩
    obtain rfl := Option.some.inj hc
    exact fun _ => ⟨.inl rfl, fun hpos => absurd hpos (lt_irrefl 0)⟩
  | propose => exact inv_propose h hs
  | persistConsumed => exact inv_persistConsumed h hs
  | plan => exact inv_plan h hs
  | collect => exact inv_collect h hs
  | finish => exact inv_finish h hs
  | die =>
    obtain rfl := Option.some.inj hs
    exact ⟨h.stopped, rfl⟩
  | claim w key => exact inv_claim h hs
  | writeOutcome w => exact inv_writeOutcome h hs
  | finalize w status => exact inv_finalize h hs
  | workerDies w =>
    obtain rfl := Option.some.inj hs
    exact ⟨h.work rfl rfl rfl h.outcomes (held_setWorker h fun j hj => by cases hj), rfl⟩
  | sweep key deadLetter =>
    obtain rfl := Option.some.inj hs
    exact ⟨h.work (plans_setStatus key (· = .claimed) _ rfl) rfl rfl h.outcomes h.held, rfl⟩

omit [DecidableEq ι] in
theorem lawful_store_iff {c : Coordinator R} {p : Object} {os : List OutcomeRow} {converged : Bool}
    {failureModes : List String} (h : Inv s) (hstoring : storing s = some (c.index, p, os)) :
    Lawful s (.store converged failureModes) (storeStep run s c p os converged failureModes) ↔
      c.index ∉ s.records.map (·.iteration) ∧ ∀ o ∈ os, o.producedWith = p := by
  constructor
  · rintro ⟨haccepted, hconsistent⟩
    have hnew := haccepted _ _ rfl _ hstoring
    rw [records_storeStep, if_neg hnew, consistent_append h.consistent] at hconsistent
    exact ⟨hnew, hconsistent⟩
  · rintro ⟨hnew, hall⟩
    refine ⟨fun _ _ _ x hx => ?_, ?_⟩
    · obtain rfl := Option.some.inj (hstoring.symm.trans hx)
      exact hnew
    · rw [records_storeStep, if_neg hnew, consistent_append h.consistent]
      exact hall

/-- **Storing a record** is lawful unless it is the first record of a process that finds others, or
other parameters. -/
theorem store_spec {converged : Bool} {failureModes : List String} (h : Inv s)
    (hs : step run s (.store converged failureModes) = some s') :
    (Lawful s (.store converged failureModes) s' ↔ FirstRecord s (.store converged failureModes)) ∧
      (FirstRecord s (.store converged failureModes) → Inv s') := by
  simp only [step] at hs
  split at hs
  swap
  · cases hs
  next c hc =>
  split at hs
  swap
  · cases hs
  next p os hphase =>
  obtain rfl := Option.some.inj hs
  obtain ⟨hindex, hknown⟩ := h.coordinator c hc (by simp [hphase])
  rw [hphase] at hknown
  obtain ⟨hknown, hos⟩ := hknown
  have hstoring := storing_eq_some hc hphase
  have hproduced := h.producedWith_iff (fun o ho => (hos o ho).1) p
  have hfirst : FirstRecord s (.store converged failureModes) ↔
      (c.index = 0 → s.records = [] ∧ ∀ o ∈ os, o.producedWith = p) := by
    simp only [FirstRecord, hstoring, Option.mem_def, Option.some.injEq, forall_eq', hproduced]
  rw [lawful_store_iff h hstoring, hfirst, h.iterations, List.mem_range, not_lt]
  by_cases hzero : c.index = 0
  · rw [hzero, Nat.le_zero, List.length_eq_zero_iff]
    refine ⟨⟨fun hnone _ => hnone, fun hnone => hnone rfl⟩, fun hnone => ?_⟩
    obtain ⟨hnil, hall⟩ := hnone rfl
    exact h.store (by rw [hzero, hnil, List.length_nil])
      (fun o ho => (h.first hnil o ho).le.trans (Nat.zero_le _)) hall
  · -- the process has planned the iteration itself
    have hlength : c.index = s.records.length := hindex.resolve_left hzero
    have hpos : 0 < c.index := Nat.pos_of_ne_zero hzero
    have hall : ∀ o ∈ os, o.producedWith = p :=
      fun o ho => (hknown hpos o (hos o ho).1).2 (hos o ho).2
    exact ⟨iff_of_true ⟨hlength.ge, hall⟩ fun h0 => absurd h0 hzero,
      fun _ => h.store hlength (fun o ho => (hknown hpos o ho).1) hall⟩

/-- **Every step**: it is lawful just when a first record is as asked for, and then keeps the
invariant. -/
theorem inv_step {op : Op R ι} (h : Inv s) (hs : step run s op = some s') :
    (Lawful s op s' ↔ FirstRecord s op) ∧ (FirstRecord s op → Inv s') := by
  by_cases hop : ∃ converged failureModes, op = .store converged failureModes
  · obtain ⟨converged, failureModes, rfl⟩ := hop
    exact store_spec h hs
  · push Not at hop
    obtain ⟨hinv, hrecords⟩ := inv_step_of_ne_store h hs hop
    have hfirst : FirstRecord s op := by
      cases op with
      | store converged failureModes => exact absurd rfl (hop converged failureModes)
      | _ => trivial
    have hlawful : Lawful s op s' :=
      ⟨fun converged failureModes heq => absurd heq (hop converged failureModes),
        hrecords ▸ h.consistent⟩
    exact ⟨iff_of_true hlawful hfirst, fun _ => hinv⟩

/-- **Every record of a run is accepted and names the parameters of its outcomes**, whatever
processes die and are started again, exactly if every first record of a process is as asked for. -/
theorem restart_consistent_iff (run : RunSpec R) (hypotheses : List HypothesisRecord)
    (ops : List (Op R ι))
    (hrun : ∃ t, exec (step run) (init hypotheses) ops = some t) :
    (∀ pre op post s s', ops = pre ++ op :: post → exec (step run) (init hypotheses) pre = some s →
        step run s op = some s' → Lawful s op s') ↔
      Guarded (step run) FirstRecord (init hypotheses) ops := by
  obtain ⟨t, hrun⟩ := hrun
  have hguarded : Guarded (step run) (fun _ _ => True) (init hypotheses) ops := guarded_true _ _
  refine steps_iff_guarded ?_ (inv_init hypotheses) hguarded hrun
  intro s op s' h _ hs
  exact inv_step h hs

end Steps

/-! ### A process that is started again -/

/-- A generator that is not asked. -/
def constant : Generator Unit :=
  ⟨fun _ => (), fun _ _ => (0, ()), fun _ lo _ => (lo, ()), fun _ => none⟩

/-- A run job of one case, with this proposer. -/
def oneCase (proposer : Proposer Unit) : RunSpec Unit :=
  ⟨constant, fun _ => "", proposer, Experiment.minimal, ["case_1"]⟩

/-- A process plans the first iteration. -/
def planned : List (Op Unit Unit) := [.start (), .propose, .persistConsumed, .plan]

/-- The worker runs the job, and the outcome is aggregated. -/
def worked : List (Op Unit Unit) :=
  [.claim () (0, "case_1"), .writeOutcome (), .finalize () .succeeded, .collect]

/-- The process dies once the job is planned. -/
def restarted : List (Op Unit Unit) := planned ++ .die :: planned ++ worked

def cold : Object := [("model_params", .obj [("temperature", .int 0)])]

def warm : Object := [("model_params", .obj [("temperature", .int 1)])]

/-- The manual proposer of one proposal. -/
def manualCold : RunSpec Unit := oneCase (.manual [{ parameters := cold, hypothesis := "colder" }])

/-- The next process plans the same. -/
theorem lawful_manual :
    (∃ t, exec (step manualCold) (init []) (restarted ++ [.store true []]) = some t) ∧
    ∀ pre op post s s', restarted ++ [.store true []] = pre ++ op :: post →
      exec (step manualCold) (init []) pre = some s → step manualCold s op = some s' →
      Lawful s op s' := by
  have hrun : ∃ t, exec (step manualCold) (init []) (restarted ++ [.store true []]) = some t :=
    Option.isSome_iff_exists.mp (by decide +kernel)
  exact ⟨hrun, (restart_consistent_iff manualCold [] _ hrun).mpr (by decide +kernel)⟩

/-- The experiment's hypotheses are applied without an LLM. -/
def offline : RunSpec Unit := oneCase (.llm none)

def pendingPair : List HypothesisRecord :=
  [⟨"hyp_1", "exp_1", 0, "slow", "colder", cold, none⟩,
    ⟨"hyp_2", "exp_1", 1, "slow", "warmer", warm, none⟩]

/-- **The next process consumes the next hypothesis**, and its record names the parameters of that
one. -/
theorem not_lawful_offline : ¬∀ (run : RunSpec Unit) (hypotheses : List HypothesisRecord)
    (ops : List (Op Unit Unit)), (∃ t, exec (step run) (init hypotheses) ops = some t) →
    ∀ pre op post s s', ops = pre ++ op :: post → exec (step run) (init hypotheses) pre = some s →
      step run s op = some s' → Lawful s op s' := by
  intro h
  have hrecords : ((exec (step offline) (init pendingPair) restarted).bind fun s =>
      (step offline s (.store true [])).map (·.records)) =
        some [⟨0, warm, [⟨0, "case_1", cold⟩]⟩] := by decide +kernel
  obtain ⟨s, hs, hrecords⟩ := Option.bind_eq_some_iff.mp hrecords
  obtain ⟨s', hs', hrecords⟩ := Option.map_eq_some_iff.mp hrecords
  have hrun : exec (step offline) (init pendingPair) (restarted ++ [.store true []]) = some s' :=
    (exec_snoc hs _).trans hs'
  have hlawful := h offline pendingPair _ ⟨s', hrun⟩ restarted (.store true []) [] s s' rfl hs hs'
  have hwith : cold = warm :=
    hlawful.consistent ⟨0, warm, [⟨0, "case_1", cold⟩]⟩ (by simp [hrecords])
    ⟨0, "case_1", cold⟩ (by simp)
  exact absurd hwith (by decide)

end Selfevals.Optimization.CoordinatorRestart
