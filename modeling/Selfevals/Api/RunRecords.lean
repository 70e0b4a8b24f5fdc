import Selfevals.Api.RunLaunches
import Selfevals.Lib.Sql

/-!
# The records of an experiment's runs

An experiment may be launched again once its run is over. A run is known by its job; the records of
its iterations are unique for a workspace, an experiment and an iteration, and the traces that a
record lists are looked up by the same three. Each execution of a run starts from iteration 0.

* `moved_step` : all that a step does to the executions and their records;
* `kept_iff` : in one step, when the record is stored and lists only what the run's own workers
  recorded;
-/

namespace Selfevals.Api.RunRecords

open Lib.Run Lib.Sql Schemas.Base Schemas.Enums Schemas.Job Schemas.Experiments Storage.Entity
  Api.RunJobs
open Api.RunLaunches (checkActive)

/-! ### Tables -/

/-- An iteration of an experiment: the columns of `iteration_records_unique`. -/
structure Key where
  workspaceId : String
  experimentId : String
  iteration : ℕ
deriving DecidableEq

def Key.next (k : Key) : Key := { k with iteration := k.iteration + 1 }

/-- An earlier iteration of the same experiment. -/
def Key.Before (k k' : Key) : Prop :=
  k.workspaceId = k'.workspaceId ∧ k.experimentId = k'.experimentId ∧ k.iteration < k'.iteration
deriving Decidable

/-- A row of `traces`, as far as the lookup reads it. -/
structure TraceRow where
  id : String
  workspaceId : String
  runId : String
  runExperimentId : Option String
  runIteration : Option ℕ
  startedAt : Time

/-- A row of `iteration_records` with its `iteration_trace_runs`. Which run it is of is history that
no step reads. -/
structure RecordRow where
  id : String
  key : Key
  traceRunIds : List String
  run : ℕ

/-- The `WHERE` of `traces_for_experiment_iteration`. -/
def TraceRow.ofIteration (k : Key) (t : TraceRow) : Bool :=
  t.workspaceId = k.workspaceId && t.runExperimentId = some k.experimentId &&
    t.runIteration = some k.iteration

/-- `traces_for_experiment_iteration`. -/
def tracesForExperimentIteration (traces : List TraceRow) (k : Key) : List TraceRow :=
  orderBy (·.startedAt) (traces.filter (·.ofIteration k))

/-- `IterationRecordMapper.upsert`: a row is replaced under its id, and another row with its key
violates the constraint. -/
def upsertRecord (records : List RecordRow) (row : RecordRow) : Except String (List RecordRow) :=
  if ∃ r ∈ records, r.key = row.key ∧ r.id ≠ row.id then .error "iteration_records_unique"
  else .ok (upsertOn (·.id) records row)

/-! ### The system -/

/-- Where an execution is in the iteration of its key. -/
inductive Phase
  | proposing
  /-- The scenario jobs are planned, and the workers run them. -/
  | draining
  /-- The traces are looked up: what `_run_iteration` returns. -/
  | collected (persistedRunIds : List String)
  | over
deriving DecidableEq

/-- `execute_run_job` on the job of a run, as far as its coordinator has come. -/
structure Execution where
  run : ℕ
  key : Key
  phase : Phase

/-- The stored experiments; the run jobs in the order of their launches; the iterations that have
scenario jobs, with their runs; the executions; and the two tables. Which traces the workers of a
run recorded is history. -/
structure State where
  experiments : String → Option Experiment
  jobs : List RunJob
  planned : List (ℕ × ℕ)
  executions : List Execution
  traces : List TraceRow
  records : List RecordRow
  recorded : ℕ → List String

/-- What executions and their storage do. -/
inductive Op
  /-- `launch_experiment_run`, with the id of the job it creates. -/
  | launch (spec : Experiment) (id : String) (reps : ℕ) (now : Time)
  /-- Some process writes an experiment, or the row of a run's job. -/
  | writeExperiment (row : Experiment)
  | writeJob (n : ℕ) (row : RunJob)
  /-- A worker leases the job and starts its coordinator. -/
  | execute (n : ℕ)
  /-- `plan_scenario_jobs` for the next iteration. -/
  | plan (a : ℕ)
  /-- A scenario worker of the run persists the trace of a repetition. -/
  | recordTrace (n iteration : ℕ) (id runId : String) (startedAt : Time)
  /-- Some other process writes a trace. -/
  | writeTrace (row : TraceRow)
  /-- The barrier is clear, and the coordinator looks the traces up. -/
  | collect (a : ℕ)
  /-- It puts the record, under the id made for it. -/
  | store (a : ℕ) (id : String)
  /-- The loop ends, or raises, or its process dies. -/
  | stop (a : ℕ)

/-- No run is launched yet. -/
def init (experiments : String → Option Experiment) : State :=
  ⟨experiments, [], [], [], [], [], fun _ => []⟩

/-- The job is of a run of the experiment. -/
def OfExperiment (spec : Experiment) (job : RunJob) : Prop :=
  job.workspaceId = spec.workspaceId ∧ job.experimentId = spec.id
deriving Decidable

/-- `launch_experiment_run`, or the state as it is if it raises. -/
def State.launch (s : State) (spec : Experiment) (id : String) (reps : ℕ) (now : Time) : State :=
  let stored := s.experiments spec.id
  match checkActive (stored.filter fun e => e.workspaceId = spec.workspaceId) spec.id with
  | .error _ => s
  | .ok () =>
    match putEntity spec.workspaceId stored spec with
    | .error _ => s
    | .ok row =>
      { s with
        experiments := Function.update s.experiments spec.id (some row)
        jobs := s.jobs ++
          [newRunJob id spec.workspaceId spec.id now reps defaultMaxAttempts
            one_le_defaultMaxAttempts] }

def State.setExecution (s : State) (a : ℕ) (x : Execution) : State :=
  { s with executions := s.executions.set a x }

/-- The iteration's record, as `_build_iteration_record` makes it. -/
def Execution.record (x : Execution) (id : String) (persistedRunIds : List String) : RecordRow :=
  ⟨id, x.key, persistedRunIds, x.run⟩

/-- The record is put: the loop goes on to the next iteration, or the put raises and ends it. -/
def State.store (s : State) (a : ℕ) (x : Execution) (row : RecordRow) : State :=
  match upsertRecord s.records row with
  | .error _ => s.setExecution a { x with phase := .over }
  | .ok records =>
    { s.setExecution a { x with key := x.key.next, phase := .proposing } with records }

/-- One step; `none` where it cannot be taken. A run of an experiment is launched once the jobs of
its earlier runs are terminal; a job stays of its run; the id made for a record is new. -/
def step (s : State) : Op → Option State
  | .launch spec id reps now =>
    if ∀ job ∈ s.jobs, OfExperiment spec job → job.isTerminal = true then
      some (s.launch spec id reps now)
    else none
  | .writeExperiment row =>
    some { s with experiments := Function.update s.experiments row.id (some row) }
  | .writeJob n row =>
    match s.jobs[n]? with
    | none => none
    | some job =>
      if row.id = job.id ∧ row.workspaceId = job.workspaceId ∧
          row.experimentId = job.experimentId then
        some { s with jobs := s.jobs.set n row }
      else none
  | .execute n =>
    match s.jobs[n]? with
    | none => none
    | some job =>
      if job.isTerminal then none
      else some { s with
        executions := s.executions ++ [⟨n, ⟨job.workspaceId, job.experimentId, 0⟩, .proposing⟩] }
  | .plan a =>
    match s.executions[a]? with
    | some ⟨run, key, .proposing⟩ =>
      some { s.setExecution a ⟨run, key, .draining⟩ with planned := (run,
        key.iteration) :: s.planned }
    | _ => none
  | .recordTrace n iteration id runId startedAt =>
    match s.jobs[n]? with
    | none => none
    | some job =>
      if (n, iteration) ∈ s.planned then
        some { s with
          traces := upsertOn (·.id) s.traces
            ⟨id, job.workspaceId, runId, some job.experimentId, some iteration, startedAt⟩
          recorded := Function.update s.recorded n (runId :: s.recorded n) }
      else none
  | .writeTrace row => some { s with traces := upsertOn (·.id) s.traces row }
  | .collect a =>
    match s.executions[a]? with
    | some ⟨run, key, .draining⟩ =>
      let traces := tracesForExperimentIteration s.traces key
      some (s.setExecution a ⟨run, key, .collected (traces.map (·.runId))⟩)
    | _ => none
  | .store a id =>
    match s.executions[a]? with
    | some ⟨run, key, .collected persistedRunIds⟩ =>
      let x : Execution := ⟨run, key, .collected persistedRunIds⟩
      if id ∈ s.records.map (·.id) then none else some (s.store a x (x.record id persistedRunIds))
    | _ => none
  | .stop a => (s.executions[a]?).map fun x => s.setExecution a { x with phase := .over }

/-! ### What is asked of the runs -/

/-- What is listed was recorded by the workers of the run. -/
def OwnTraces (recorded : ℕ → List String) (run : ℕ) (runIds : List String) : Prop :=
  ∀ runId ∈ runIds, runId ∈ recorded run

/-- The records of a run, and what its coordinators have looked up, list only traces that its own
workers recorded. -/
structure Unmixed (s : State) : Prop where
  records : ∀ r ∈ s.records, OwnTraces s.recorded r.run r.traceRunIds
  collected : ∀ x ∈ s.executions, ∀ runIds, x.phase = .collected runIds →
    OwnTraces s.recorded x.run runIds

/-- A record that is put is stored. -/
def StoreKept (s : State) (op : Op) : Prop :=
  ∀ s', step s op = some s' → ∀ a id, op = .store a id → id ∈ s'.records.map (·.id)

/-- The step leaves every record with traces of its own run. -/
def TracesKept (s : State) (op : Op) : Prop := ∀ s', step s op = some s' → Unmixed s'

/-- The runs do not mix in the step. -/
def Kept (s : State) (op : Op) : Prop := StoreKept s op ∧ TracesKept s op

/-- Every trace that is stored for the iteration when it is looked up was recorded by the run's own
workers; and when a record is put, no execution of a run of the experiment has gone past its
iteration. -/
def Apart (s : State) : Op → Prop
  | .collect a => ∀ x ∈ s.executions[a]?, x.phase = .draining →
      ∀ t ∈ s.traces, t.ofIteration x.key = true → t.runId ∈ s.recorded x.run
  | .store a id => id ∉ s.records.map (·.id) → ∀ x ∈ s.executions[a]?, ∀ runIds,
      x.phase = .collected runIds → ∀ y ∈ s.executions, ¬x.key.Before y.key
  | _ => True

/-! ### Executions and their records -/

/-- An iteration has a record exactly when some execution of the experiment has gone past it. -/
def Inv (s : State) : Prop :=
  ∀ k, (∃ r ∈ s.records, r.key = k) ↔ ∃ x ∈ s.executions, k.Before x.key

theorem Key.before_next {k k' : Key} : k.Before k'.next ↔ k.Before k' ∨ k = k' := by
  obtain ⟨ws, exp, i⟩ := k
  obtain ⟨ws', exp', i'⟩ := k'
  simp only [Key.Before, Key.next, Key.mk.injEq]
  constructor
  · rintro ⟨rfl, rfl, h⟩
    rcases Nat.lt_succ_iff_lt_or_eq.mp h with h | h
    · exact .inl ⟨rfl, rfl, h⟩
    · exact .inr ⟨rfl, rfl, h⟩
  · rintro (⟨rfl, rfl, h⟩ | ⟨rfl, rfl, rfl⟩)
    · exact ⟨rfl, rfl, by omega⟩
    · exact ⟨rfl, rfl, by omega⟩

theorem exists_mem_set {l : List Execution} {a : ℕ} {x x' : Execution} {P : Execution → Prop}
    (hx : l[a]? = some x) (h : P x → P x') : (∃ y ∈ l.set a x', P y) ↔ (∃ y ∈ l, P y) ∨ P x' := by
  have hlt : a < l.length := (List.getElem?_eq_some_iff.mp hx).1
  constructor
  · rintro ⟨y, hy, hP⟩
    rcases List.mem_or_eq_of_mem_set hy with hy | rfl
    · exact .inl ⟨y, hy, hP⟩
    · exact .inr hP
  · rintro (⟨y, hy, hP⟩ | hP)
    · obtain ⟨j, hj⟩ := List.mem_iff_getElem?.mp hy
      by_cases hja : a = j
      · subst hja
        obtain rfl := Option.some.inj (hx.symm.trans hj)
        exact ⟨x', List.mem_set hlt x', h hP⟩
      · exact ⟨y, List.mem_of_getElem? ((List.getElem?_set_ne hja).trans hj), hP⟩
    · exact ⟨x', List.mem_set hlt x', hP⟩

section Step
variable {s s' : State} {op : Op}

/-! ### What a step does -/

/-- The records stay as they are, and the history grows. -/
structure KeepsRecords (s s' : State) : Prop where
  records : s'.records = s.records
  recorded : ∀ run, s.recorded run ⊆ s'.recorded run

theorem KeepsRecords.of_eq (hrecords : s'.records = s.records)
    (hrecorded : s'.recorded = s.recorded) :
    KeepsRecords s s' :=
  ⟨hrecords, fun run => by rw [hrecorded]; exact List.Subset.refl _⟩

/-- All that a step does to the executions and their records: none, it begins an execution, it goes
on within an iteration, or it puts a record. -/
inductive Moved (s : State) (op : Op) (s' : State) : Prop
  | still (hexecutions : s'.executions = s.executions) (h : KeepsRecords s s')
  | begun (x : Execution) (hkey : x.key.iteration = 0) (hphase : x.phase = .proposing)
      (hexecutions : s'.executions = s.executions ++ [x]) (h : KeepsRecords s s')
  | within (a : ℕ) (x : Execution) (phase : Phase) (hx : s.executions[a]? = some x)
      (hexecutions : s'.executions = s.executions.set a { x with phase }) (h : KeepsRecords s s')
      (hphase : ∀ runIds, phase = .collected runIds → op = .collect a ∧ x.phase = .draining ∧
        runIds = (tracesForExperimentIteration s.traces x.key).map (·.runId))
  | put (a : ℕ) (id : String) (x : Execution) (runIds : List String) (hop : op = .store a id)
      (hx : s.executions[a]? = some x) (hphase : x.phase = .collected runIds)
      (hid : id ∉ s.records.map (·.id)) (hput : s' = s.store a x (x.record id runIds))

theorem moved_step (hs : step s op = some s') : Moved s op s' := by
  cases op with
  | launch spec id reps now =>
    simp only [step] at hs
    split_ifs at hs
    obtain rfl := Option.some.inj hs
    unfold State.launch
    dsimp only
    split
    · exact .still rfl (.of_eq rfl rfl)
    · split
      · exact .still rfl (.of_eq rfl rfl)
      · exact .still rfl (.of_eq rfl rfl)
  | writeExperiment row =>
    obtain rfl := Option.some.inj hs
    exact .still rfl (.of_eq rfl rfl)
  | writeJob n row =>
    simp only [step] at hs
    split at hs
    · cases hs
    · split_ifs at hs
      obtain rfl := Option.some.inj hs
      exact .still rfl (.of_eq rfl rfl)
  | execute n =>
    simp only [step] at hs
    split at hs
    · cases hs
    · split_ifs at hs
      obtain rfl := Option.some.inj hs
      exact .begun _ rfl rfl rfl (.of_eq rfl rfl)
  | plan a =>
    simp only [step] at hs
    split at hs
    · next run key hx =>
      obtain rfl := Option.some.inj hs
      exact .within a _ .draining hx rfl (.of_eq rfl rfl) fun _ hphase => by cases hphase
    · cases hs
  | recordTrace n iteration id runId startedAt =>
    simp only [step] at hs
    split at hs
    · cases hs
    · split_ifs at hs
      obtain rfl := Option.some.inj hs
      refine .still rfl ⟨rfl, fun run => ?_⟩
      show s.recorded run ⊆ Function.update s.recorded n (runId :: s.recorded n) run
      by_cases hrun : run = n
      · subst hrun
        rw [Function.update_self]
        exact List.subset_cons_self _ _
      · rw [Function.update_of_ne hrun]
        exact List.Subset.refl _
  | writeTrace row =>
    obtain rfl := Option.some.inj hs
    exact .still rfl (.of_eq rfl rfl)
  | collect a =>
    simp only [step] at hs
    split at hs
    · next run key hx =>
      obtain rfl := Option.some.inj hs
      refine .within a _ _ hx rfl (.of_eq rfl rfl) fun runIds hphase => ⟨rfl, rfl, ?_⟩
      exact (Phase.collected.inj hphase).symm
    · cases hs
  | store a id =>
    simp only [step] at hs
    split at hs
    · next run key runIds hx =>
      split_ifs at hs with hid
      exact .put a id _ runIds rfl hx rfl hid (Option.some.inj hs).symm
    · cases hs
  | stop a =>
    simp only [step] at hs
    obtain ⟨x, hx, rfl⟩ := Option.map_eq_some_iff.mp hs
    exact .within a x .over hx rfl (.of_eq rfl rfl) fun _ hphase => by cases hphase

/-! ### Executions and their records -/

theorem before_set_phase {a : ℕ} {x : Execution} (hx : s.executions[a]? = some x) (phase : Phase)
    (k : Key) : (∃ y ∈ s.executions.set a { x with phase }, k.Before y.key) ↔
      ∃ y ∈ s.executions, k.Before y.key := by
  have hkey : k.Before x.key → k.Before ({ x with phase } : Execution).key := id
  rw [exists_mem_set hx (P := fun y => k.Before y.key) hkey]
  constructor
  · rintro (hk | hk)
    · exact hk
    · exact ⟨x, List.mem_of_getElem? hx, hk⟩
  · exact .inl

theorem upsertRecord_eq (h : Inv s) {row : RecordRow} (hid : row.id ∉ s.records.map (·.id)) :
    upsertRecord s.records row =
      if ∃ x ∈ s.executions, row.key.Before x.key then .error "iteration_records_unique"
      else .ok (s.records ++ [row]) := by
  unfold upsertRecord
  rw [upsertOn_of_new hid]
  refine if_congr ?_ rfl rfl
  rw [← h row.key]
  constructor
  · rintro ⟨r, hr, hkey, -⟩
    exact ⟨r, hr, hkey⟩
  · rintro ⟨r, hr, hkey⟩
    exact ⟨r, hr, hkey, fun heq => hid (List.mem_map.mpr ⟨r, hr, heq⟩)⟩

theorem Inv.store (h : Inv s) {a : ℕ} {x : Execution} (hx : s.executions[a]? = some x)
    {row : RecordRow} (hkey : row.key = x.key) (hid : row.id ∉ s.records.map (·.id)) :
    Inv (s.store a x row) := by
  unfold State.store
  rw [upsertRecord_eq h hid]
  split_ifs with hpast
  · exact fun k => (h k).trans (before_set_phase hx .over k).symm
  · intro k
    show (∃ r ∈ s.records ++ [row], r.key = k) ↔
      ∃ y ∈ s.executions.set a { x with key := x.key.next, phase := .proposing }, k.Before y.key
    rw [exists_mem_set hx (P := fun y => k.Before y.key) fun hk => Key.before_next.mpr (.inl hk),
      Key.before_next, ← h k]
    simp only [List.mem_append, List.mem_singleton, or_and_right, exists_or, exists_eq_left, hkey]
    constructor
    · rintro (hk | hk)
      · exact .inl hk
      · exact .inr (.inr hk.symm)
    · rintro (hk | hk | hk)
      · exact .inl hk
      · exact .inl ((h k).mpr ⟨x, List.mem_of_getElem? hx, hk⟩)
      · exact .inr hk.symm

theorem inv_step (h : Inv s) (hs : step s op = some s') : Inv s' := by
  rcases moved_step hs with ⟨hexecutions, hkeeps⟩ | ⟨x, hkey, -, hexecutions, hkeeps⟩ |
    ⟨a, x, phase, hx, hexecutions, hkeeps, -⟩ | ⟨a, id, x, runIds, -, hx, -, hid, rfl⟩
  · intro k
    rw [hexecutions, hkeeps.records]
    exact h k
  · intro k
    have hnew : ¬k.Before x.key := fun hk => by
      have := hk.2.2
      omega
    rw [hexecutions, hkeeps.records, h k]
    simp only [List.mem_append, List.mem_singleton, or_and_right, exists_or, exists_eq_left, hnew,
      or_false]
  · intro k
    rw [hexecutions, hkeeps.records]
    exact (h k).trans (before_set_phase hx phase k).symm
  · exact h.store hx rfl hid

/-! ### Records and their traces -/

theorem mem_tracesForExperimentIteration {traces : List TraceRow} {k : Key} {t : TraceRow} :
    t ∈ tracesForExperimentIteration traces k ↔ t ∈ traces ∧ t.ofIteration k = true := by
  rw [tracesForExperimentIteration, (orderBy_perm _ _).mem_iff, List.mem_filter]

theorem Unmixed.keeps (h : Unmixed s) (hkeeps : KeepsRecords s s')
    (hexecutions : ∀ x ∈ s'.executions, x ∈ s.executions ∨
      ∀ runIds, x.phase = .collected runIds → OwnTraces s.recorded x.run runIds) : Unmixed s' := by
  refine ⟨fun r hr runId hmem => ?_, fun x hx runIds hphase runId hmem => ?_⟩
  · rw [hkeeps.records] at hr
    exact hkeeps.recorded _ (h.records r hr runId hmem)
  · rcases hexecutions x hx with hx | hown
    · exact hkeeps.recorded _ (h.collected x hx runIds hphase runId hmem)
    · exact hkeeps.recorded _ (hown runIds hphase runId hmem)

theorem Unmixed.store (h : Unmixed s) {a : ℕ} {x : Execution} {row : RecordRow} (hinv : Inv s)
    (hid : row.id ∉ s.records.map (·.id)) (hrow : OwnTraces s.recorded row.run row.traceRunIds) :
    Unmixed (s.store a x row) := by
  have hset : ∀ x' : Execution, (∀ runIds, x'.phase ≠ .collected runIds) →
      Unmixed (s.setExecution a x') := fun x' hphase =>
    h.keeps (.of_eq rfl rfl) fun y hy => by
      rcases List.mem_or_eq_of_mem_set hy with hy | rfl
      · exact .inl hy
      · exact .inr fun runIds heq => absurd heq (hphase runIds)
  unfold State.store
  rw [upsertRecord_eq hinv hid]
  split_ifs
  · exact hset _ fun _ hphase => by cases hphase
  · refine ⟨fun r hr => ?_, (hset _ fun _ hphase => by cases hphase).collected⟩
    rcases List.mem_append.mp hr with hr | hr
    · exact h.records r hr
    · obtain rfl := List.mem_singleton.mp hr
      exact hrow

theorem unmixed_step (hinv : Inv s) (h : Unmixed s) (hapart : ∀ a, op = .collect a → Apart s op)
    (hs : step s op = some s') : Unmixed s' := by
  rcases moved_step hs with ⟨hexecutions, hkeeps⟩ | ⟨x, -, hphase, hexecutions, hkeeps⟩ |
    ⟨a, x, phase, hx, hexecutions, hkeeps, hphase⟩ | ⟨a, id, x, runIds, -, hx, hphase, hid, rfl⟩
  · refine h.keeps hkeeps fun y hy => .inl ?_
    rwa [hexecutions] at hy
  · refine h.keeps hkeeps fun y hy => ?_
    rw [hexecutions] at hy
    rcases List.mem_append.mp hy with hy | hy
    · exact .inl hy
    · obtain rfl := List.mem_singleton.mp hy
      exact .inr fun runIds heq => by rw [hphase] at heq; cases heq
  · refine h.keeps hkeeps fun y hy => ?_
    rw [hexecutions] at hy
    rcases List.mem_or_eq_of_mem_set hy with hy | rfl
    · exact .inl hy
    · refine .inr fun runIds heq runId hmem => ?_
      obtain ⟨rfl, hdraining, rfl⟩ := hphase runIds heq
      obtain ⟨t, ht, rfl⟩ := List.mem_map.mp hmem
      obtain ⟨ht, hof⟩ := mem_tracesForExperimentIteration.mp ht
      exact hapart a rfl x hx hdraining t ht hof
  · exact h.store hinv hid (h.collected x (List.mem_of_getElem? hx) runIds hphase)

/-- **What is looked up is of the run** if and only if every trace of the iteration is. -/
theorem tracesKept_collect_iff (hinv : Inv s) (h : Unmixed s) (a : ℕ) :
    TracesKept s (.collect a) ↔ Apart s (.collect a) := by
  constructor
  · intro hkept x hx hphase t ht hof
    rw [Option.mem_def] at hx
    obtain ⟨run, key, phase⟩ := x
    dsimp only at hphase hof
    subst hphase
    let lookedUp : Execution :=
      ⟨run, key, .collected ((tracesForExperimentIteration s.traces key).map (·.runId))⟩
    have hs : step s (.collect a) = some (s.setExecution a lookedUp) := by
      simp only [step, hx, lookedUp]
    have hmem : lookedUp ∈ (s.setExecution a lookedUp).executions :=
      List.mem_set (List.getElem?_eq_some_iff.mp hx).1 _
    refine (hkept _ hs).collected lookedUp hmem _ rfl t.runId ?_
    exact List.mem_map_of_mem (mem_tracesForExperimentIteration.mpr ⟨ht, hof⟩)
  · exact fun hapart s' hs => unmixed_step hinv h (fun _ _ => hapart) hs

/-- **A record is stored if and only if** no execution has gone past its iteration. -/
theorem storeKept_store_iff (hinv : Inv s) (a : ℕ) (id : String) :
    StoreKept s (.store a id) ↔ Apart s (.store a id) := by
  have hstore : ∀ x : Execution, ∀ runIds, id ∉ s.records.map (·.id) →
      (id ∈ (s.store a x (x.record id runIds)).records.map (·.id) ↔
        ∀ y ∈ s.executions, ¬x.key.Before y.key) := by
    intro x runIds hid
    have hupsert : upsertRecord s.records (x.record id runIds) = _ := upsertRecord_eq hinv hid
    unfold State.store
    rw [hupsert]
    split_ifs with hpast
    · obtain ⟨y, hy, hbefore⟩ := hpast
      exact iff_of_false hid fun hnone => hnone y hy hbefore
    · refine iff_of_true ?_ fun y hy hbefore => hpast ⟨y, hy, hbefore⟩
      simp [Execution.record]
  constructor
  · intro hkept hid x hx runIds hphase
    rw [Option.mem_def] at hx
    obtain ⟨run, key, phase⟩ := x
    dsimp only at hphase
    subst hphase
    have hs : step s (.store a id) = some (s.store a ⟨run, key, .collected runIds⟩
        (Execution.record ⟨run, key, .collected runIds⟩ id runIds)) := by
      simp only [step, hx, if_neg hid]
    exact (hstore _ runIds hid).mp (hkept _ hs a id rfl)
  · intro hapart s' hs a' id' hop
    obtain ⟨rfl, rfl⟩ := Op.store.inj hop
    simp only [step] at hs
    split at hs
    · next run key runIds hx =>
      split_ifs at hs with hid
      obtain rfl := Option.some.inj hs
      exact (hstore _ runIds hid).mpr (hapart hid _ hx runIds rfl)
    · cases hs

theorem kept_iff (hinv : Inv s) (h : Unmixed s) (op : Op) : Kept s op ↔ Apart s op := by
  cases op with
  | collect a =>
    have hstore : StoreKept s (.collect a) := fun _ _ _ _ hop => by cases hop
    exact (and_iff_right hstore).trans (tracesKept_collect_iff hinv h a)
  | store a id =>
    have htraces : TracesKept s (.store a id) := fun s' hs =>
      unmixed_step hinv h (fun _ hop => by cases hop) hs
    exact (and_iff_left htraces).trans (storeKept_store_iff hinv a id)
  | _ =>
    refine iff_of_true ⟨fun _ _ _ _ hop => (by cases hop), fun s' hs => ?_⟩ trivial
    exact unmixed_step hinv h (fun _ hop => by cases hop) hs

end Step

/-! ### Runs of the system -/

theorem inv_init (experiments : String → Option Experiment) : Inv (init experiments) := by
  intro k
  simp [init]

theorem unmixed_init (experiments : String → Option Experiment) : Unmixed (init experiments) :=
  ⟨fun _ hr => (nomatch hr), fun _ hx => (nomatch hx)⟩

/-- **The runs of an experiment do not mix if and only if** no record is put for an iteration that
an execution has gone past, and no trace of another run is stored for an iteration when its traces
are looked up. -/
theorem guarded_kept_iff (experiments : String → Option Experiment) (ops : List Op) :
    Guarded step Kept (init experiments) ops ↔ Guarded step Apart (init experiments) ops := by
  refine guarded_congr (I := fun s => Inv s ∧ Unmixed s) (fun s op h => kept_iff h.1 h.2 op)
    (fun s op s' h hapart hs => ?_) ⟨inv_init experiments, unmixed_init experiments⟩
  exact ⟨inv_step h.1 hs, ((kept_iff h.1 h.2 op).mpr hapart).2 s' hs⟩

/-! ### A second run -/

def spec : Experiment := Experiment.minimal

/-- An execution of the run up to the barrier of its first iteration, in which a worker records a
trace. -/
def firstIteration (n : ℕ) (traceId runId : String) : List Op :=
  [.execute n, .plan n, .recordTrace n 0 traceId runId 0]

/-- The job of the run as it succeeds. -/
def succeeded (id : String) : RunJob :=
  (newRunJob id spec.workspaceId spec.id 0 1 defaultMaxAttempts
    one_le_defaultMaxAttempts).markSucceeded 1

/-- The experiment is launched, its run stores a record and is over, and the experiment is launched
again. -/
def relaunched : List Op :=
  [.launch spec "job_1" 1 0] ++ firstIteration 0 "tr_1" "run_1" ++
    [.collect 0, .store 0 "iter_1", .stop 0, .writeJob 0 (succeeded "job_1"),
      .writeExperiment { spec with state := .completed }] ++
    [.launch spec "job_2" 1 2] ++ firstIteration 1 "tr_2" "run_2"

/-- **The second run lists the trace of the first, and cannot store its record.** -/
theorem not_all_kept : (¬∀ ops, Guarded step TracesKept (init fun _ => none) ops) ∧
    ¬∀ ops, Guarded step StoreKept (init fun _ => none) ops := by
  constructor
  · intro h
    have hkept : TracesKept _ (.collect 1) :=
      guarded_iff.mp (h (relaunched ++ [.collect 1])) relaunched _ [] _ rfl rfl
    have hown := (hkept _ rfl).collected _ (List.mem_of_getElem? (i := 1) rfl) _ rfl
    exact absurd (hown "run_1" (by decide)) (by decide)
  · intro h
    have hkept : StoreKept _ (.store 1 "iter_2") :=
      guarded_iff.mp (h (relaunched ++ [.collect 1, .store 1 "iter_2"])) (relaunched ++ [.collect 1])
        _ [] _ rfl rfl
    exact absurd (hkept _ rfl 1 "iter_2" rfl) (by decide)

end Selfevals.Api.RunRecords
