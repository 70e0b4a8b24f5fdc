import Selfevals.Decision.Matrix
import Selfevals.Optimization.GridProposer
import Selfevals.Optimization.IterationLoop
import Mathlib.Data.List.MinMax

/-!
# A whole run of the optimization loop

`run` asks the proposer, runs the iteration, has it decided about and recorded, and keeps the best
aggregate as the baseline of the next, until the proposer has nothing left, the iterations are used
up, the values no longer improve, or something raises.
-/

namespace Selfevals.Optimization.OptimizationRun

open Decision.Matrix Lib.JsonValue Lib.Mapping Optimization.Aggregator Optimization.GridProposer
  Optimization.IterationLoop Runner.ExperimentStates Schemas.Enums Schemas.Experiments
  Schemas.Iterations

/-! ### The loop -/

/-- What a proposer is shown. -/
structure ProposerContext where
  iterationIndex : ℕ
  history : List IterationRecord
  failureModes : List String

/-- The proposers that a run can have. -/
inductive Proposer
  | grid (pyStr : Json → String)
  | other (propose : Experiment → ProposerContext → Proposed)

/-- `propose`. -/
def Proposer.propose (proposer : Proposer) (e : Experiment) (context : ProposerContext) :
    Proposed :=
  match proposer with
  | .grid pyStr => GridProposer.propose pyStr e context.iterationIndex
  | .other propose => propose e context

/-- `isinstance(proposer, GridProposer)`. -/
def Proposer.isGrid : Proposer → Bool
  | .grid _ => true
  | .other _ => false

/-- A loop: the evaluator, and what runs a proposal, come from outside. -/
structure OptimizationLoop where
  experiment : Experiment
  proposer : Proposer
  evaluate : Experiment → IterationAggregate → Option IterationAggregate → DecisionOutcome × String
  execute : ℕ → Proposal → Execution

/-- `terminated_reason`, or that the run raised. -/
inductive Termination
  | maxIterations
  | converged
  | searchSpaceExhausted (message : String)
  | raised
deriving DecidableEq, Repr

/-- `has_converged`. -/
def hasConverged (values : List ℚ) (minDelta : ℚ) (patience : ℕ) : Bool :=
  if values.length < patience + 1 then false
  else
    let tail := values.drop (values.length - (patience + 1))
    match tail.dropLast.max?, tail.getLast? with
    | some bestOld, some latest => latest - bestOld < minDelta
    | _, _ => false

/-- `_early_stop_enabled`. -/
def earlyStopEnabled (override : Option Bool) (proposer : Proposer) : Bool :=
  override.getD !proposer.isGrid

/-- `_dominant_modes`. -/
def dominantModes (failureModeCounts : Dict String ℕ) : List String :=
  (failureModeCounts.items.mergeSort fun a b => b.2 < a.2 ∨ b.2 = a.2 ∧ a.1 ≤ b.1).map Prod.fst

/-- What the loop carries from round to round. -/
structure Progress where
  iterations : List IterationOutcome := []
  baseline : Option IterationAggregate := none
  recentPrimary : List ℚ := []
  prevFailureModes : List String := []

namespace OptimizationLoop

variable (loop : OptimizationLoop)

/-- What the loop takes over from an iteration. -/
def advance (s : Progress) (it : IterationOutcome) : Progress where
  iterations := s.iterations ++ [it]
  baseline := nextBaseline s.baseline it.aggregate
  recentPrimary := s.recentPrimary ++ [it.aggregate.primaryValue]
  prevFailureModes := dominantModes it.aggregate.failureModeCounts

/-- The iteration of a proposal; `none` where something raises. -/
def iterate (s : Progress) (index : ℕ) (proposal : Proposal) : Option IterationOutcome := do
  let e := loop.experiment
  let (aggregate, _) ← runIteration e index (loop.execute index proposal)
  let (outcome, rationale) := loop.evaluate e aggregate s.baseline
  runRound e index s.baseline {
    proposal
    execution := loop.execute index proposal
    outcome
    rationale }

/-- What the proposer is shown in a round. -/
def context (s : Progress) (index : ℕ) : ProposerContext where
  iterationIndex := index
  history := s.iterations.map (·.iterationRecord)
  failureModes := s.prevFailureModes

/-- A round, and why the loop ends with it if it does. -/
def round (s : Progress) (index : ℕ) : Progress × Option Termination :=
  let e := loop.experiment
  match loop.proposer.propose e (context s index) with
  | .exhausted message => (s, some (.searchSpaceExhausted message))
  | .raised _ | .rejected _ => (s, some .raised)
  | .proposal proposal =>
    match loop.iterate s index proposal with
    | none => (s, some .raised)
    | some it =>
      let s' := advance s it
      let convergence := e.run.convergence
      if earlyStopEnabled convergence.earlyStop loop.proposer ∧
          hasConverged s'.recentPrimary convergence.minDelta convergence.patience then
        (s', some .converged)
      else (s', none)

/-- `for index in range(max_iter)`, from one round on. -/
def runFrom (s : Progress) (index : ℕ) : ℕ → Progress × Termination
  | 0 => (s, .maxIterations)
  | remaining + 1 =>
    match loop.round s index with
    | (s', some reason) => (s', reason)
    | (s', none) => runFrom s' (index + 1) remaining

/-- The size of the grid is asked for first, which raises where the grid is empty. -/
def gridRaises : Bool :=
  loop.proposer.isGrid ∧ (ensureCombos loop.experiment.searchSpace).toOption.isNone

/-- `_run_iterations`: what was recorded, and why it ended. -/
def run : Progress × Termination :=
  match startLoop loop.experiment with
  | none => ({}, .raised)
  | some _ =>
    if loop.gridRaises then ({}, .raised)
    else loop.runFrom {} 0 loop.experiment.run.maxIterations

end OptimizationLoop

/-- `best_iteration`: the first with the greatest value. -/
def bestIteration (iterations : List IterationOutcome) : Option IterationOutcome :=
  iterations.argmax fun it => it.aggregate.primaryValue

/-! ### One round -/

section Round
variable {loop : OptimizationLoop} {s : Progress} {index : ℕ}

/-- What is recorded of an iteration that was held against a baseline. -/
structure Recorded (loop : OptimizationLoop) (baseline : Option IterationAggregate)
    (it : IterationOutcome) : Prop where
  value : it.iterationRecord.metrics.map (·.primary.value) = some it.aggregate.primaryValue
  delta : it.iterationRecord.metrics.map (·.primary.deltaVsBaseline) =
    some (baseline.map fun b => it.aggregate.primaryValue - b.primaryValue)
  outcome : it.iterationRecord.decision.map (·.outcome) =
    some (loop.evaluate loop.experiment it.aggregate baseline).1
  decision : it.decisionRecord.outcome = (loop.evaluate loop.experiment it.aggregate baseline).1

theorem iterationMetrics_eq_some {aggregate : IterationAggregate}
    {baseline : Option IterationAggregate} {metrics : IterationMetrics}
    (h : iterationMetrics aggregate baseline = some metrics) :
    metrics.primary.value = aggregate.primaryValue ∧
      metrics.primary.deltaVsBaseline =
        baseline.map fun b => aggregate.primaryValue - b.primaryValue := by
  simp only [iterationMetrics, Option.dite_none_right_eq_some] at h
  obtain ⟨hvalid, hmetrics⟩ := h
  obtain rfl := Option.some.inj hmetrics
  exact ⟨rfl, rfl⟩

theorem iterate_spec {proposal : Proposal} {it : IterationOutcome}
    (h : loop.iterate s index proposal = some it) :
    it.iteration = index ∧ it.proposal = proposal ∧ Recorded loop s.baseline it := by
  simp only [OptimizationLoop.iterate, Option.bind_eq_bind, Option.bind_eq_some_iff] at h
  obtain ⟨⟨aggregate, caseRuns⟩, hrun, hround⟩ := h
  simp only [runRound, Option.bind_eq_bind, Option.bind_eq_some_iff] at hround
  obtain ⟨⟨aggregate', caseRuns'⟩, hrun', record, hrecord, hit⟩ := hround
  rw [hrun] at hrun'
  obtain ⟨rfl, rfl⟩ := Prod.mk.inj (Option.some.inj hrun')
  obtain rfl := Option.some.inj hit
  simp only [buildIterationRecord, Option.bind_eq_bind, Option.bind_eq_some_iff] at hrecord
  obtain ⟨metrics, hmetrics, hrecord⟩ := hrecord
  split_ifs at hrecord with hrationale
  obtain rfl := Option.some.inj hrecord
  obtain ⟨hvalue, hdelta⟩ := iterationMetrics_eq_some hmetrics
  exact ⟨rfl, rfl, congrArg some hvalue, congrArg some hdelta, rfl, rfl⟩

/-- A proposal of the proposer, and the iteration that it gives. -/
structure Executes (loop : OptimizationLoop) (s : Progress) (index : ℕ) (proposal : Proposal)
    (it : IterationOutcome) : Prop where
  proposed : loop.proposer.propose loop.experiment (OptimizationLoop.context s index) =
    .proposal proposal
  iterated : loop.iterate s index proposal = some it

/-- What makes the loop end in a round of this number. -/
inductive Stops (loop : OptimizationLoop) (s : Progress) (index : ℕ) : Termination → Prop
  | converged :
      earlyStopEnabled loop.experiment.run.convergence.earlyStop loop.proposer = true →
      hasConverged s.recentPrimary loop.experiment.run.convergence.minDelta
        loop.experiment.run.convergence.patience = true →
      Stops loop s index .converged
  | exhausted {message : String} :
      loop.proposer.propose loop.experiment (OptimizationLoop.context s index) =
        .exhausted message →
      Stops loop s index (.searchSpaceExhausted message)
  | unproposed :
      (∀ proposal, loop.proposer.propose loop.experiment (OptimizationLoop.context s index) ≠
        .proposal proposal) →
      Stops loop s index .raised
  | unrecorded {proposal : Proposal} :
      loop.proposer.propose loop.experiment (OptimizationLoop.context s index) =
        .proposal proposal →
      loop.iterate s index proposal = none →
      Stops loop s index .raised

/-- **A round** ends the loop, or takes over one iteration, after which the loop may end. -/
theorem round_spec (loop : OptimizationLoop) (s : Progress) (index : ℕ) :
    (∃ reason, loop.round s index = (s, some reason) ∧ Stops loop s index reason) ∨
      ∃ proposal it, Executes loop s index proposal it ∧
        (loop.round s index = (OptimizationLoop.advance s it, none) ∨
          loop.round s index = (OptimizationLoop.advance s it, some .converged) ∧
            Stops loop (OptimizationLoop.advance s it) (index + 1) .converged) := by
  unfold OptimizationLoop.round
  dsimp only
  split
  · next message hproposed => exact .inl ⟨_, rfl, .exhausted hproposed⟩
  · next hproposed => exact .inl ⟨_, rfl, .unproposed fun _ h => by simp [hproposed] at h⟩
  · next hproposed => exact .inl ⟨_, rfl, .unproposed fun _ h => by simp [hproposed] at h⟩
  · next proposal hproposed =>
    split
    · next hnone => exact .inl ⟨_, rfl, .unrecorded hproposed hnone⟩
    · next it hit =>
      refine .inr ⟨proposal, it, ⟨hproposed, hit⟩, ?_⟩
      split_ifs with hstop
      · exact .inr ⟨rfl, .converged hstop.1 hstop.2⟩
      · exact .inl rfl

end Round

/-! ### The whole run -/

section Run
variable {loop : OptimizationLoop}

@[simp] theorem iterations_advance (s : Progress) (it : IterationOutcome) :
    (OptimizationLoop.advance s it).iterations = s.iterations ++ [it] := rfl

/-- Why a run ended that has recorded so much. -/
inductive Ended (loop : OptimizationLoop) (s : Progress) : Termination → Prop
  | maxIterations :
      s.iterations.length = loop.experiment.run.maxIterations → Ended loop s .maxIterations
  | unstarted :
      startLoop loop.experiment = none ∨ loop.gridRaises = true → s.iterations = [] →
      Ended loop s .raised
  | round {reason : Termination} :
      Stops loop s s.iterations.length reason → Ended loop s reason

theorem runFrom_induct {I : Progress → Prop}
    (hround : ∀ s proposal it, I s → Executes loop s s.iterations.length proposal it →
      I (OptimizationLoop.advance s it)) (remaining : ℕ) {s : Progress} (hs : I s)
    (hmax : s.iterations.length + remaining = loop.experiment.run.maxIterations) :
    I (loop.runFrom s s.iterations.length remaining).1 ∧
      Ended loop (loop.runFrom s s.iterations.length remaining).1
        (loop.runFrom s s.iterations.length remaining).2 := by
  induction remaining generalizing s with
  | zero => exact ⟨hs, .maxIterations hmax⟩
  | succ remaining ih =>
    unfold OptimizationLoop.runFrom
    obtain ⟨reason, hstop, hends⟩ | ⟨proposal, it, hexecutes, hnext | ⟨hstop, hends⟩⟩ :=
      round_spec loop s s.iterations.length
    · rw [hstop]
      exact ⟨hs, .round hends⟩
    · have hlength : (OptimizationLoop.advance s it).iterations.length =
          s.iterations.length + 1 := by simp
      rw [hnext]
      dsimp only
      rw [← hlength]
      exact ih (hround s proposal it hs hexecutes) (by rw [hlength, ← hmax]; omega)
    · rw [hstop]
      refine ⟨hround s proposal it hs hexecutes, .round ?_⟩
      simpa using hends

theorem run_spec {I : Progress → Prop} (hstart : I {})
    (hround : ∀ s proposal it, I s → Executes loop s s.iterations.length proposal it →
      I (OptimizationLoop.advance s it)) : I loop.run.1 ∧ Ended loop loop.run.1 loop.run.2 := by
  unfold OptimizationLoop.run
  split
  · next hnone => exact ⟨hstart, .unstarted (.inl hnone) rfl⟩
  · split_ifs with hgrid
    · exact ⟨hstart, .unstarted (.inr hgrid) rfl⟩
    · exact runFrom_induct hround _ hstart (Nat.zero_add _)

theorem run_induct {I : Progress → Prop} (hstart : I {})
    (hround : ∀ s proposal it, I s → Executes loop s s.iterations.length proposal it →
      I (OptimizationLoop.advance s it)) : I loop.run.1 :=
  (run_spec hstart hround).1

/-- **Why the run ended.** -/
theorem ended_run : Ended loop loop.run.1 loop.run.2 :=
  (run_spec (I := fun _ => True) trivial fun _ _ _ _ _ => trivial).2

/-- What the loop carries after these iterations. -/
def progressOf (its : List IterationOutcome) : Progress := its.foldl OptimizationLoop.advance {}

theorem progressOf_concat (its : List IterationOutcome) (it : IterationOutcome) :
    progressOf (its ++ [it]) = OptimizationLoop.advance (progressOf its) it := by
  rw [progressOf, List.foldl_append]
  rfl

/-- Each recorded iteration is the one of what was proposed after the iterations before it. -/
structure Accounted (loop : OptimizationLoop) (s : Progress) : Prop where
  progress : s = progressOf s.iterations
  executed : ∀ (i : ℕ) (it : IterationOutcome), s.iterations[i]? = some it →
    Executes loop (progressOf (s.iterations.take i)) i it.proposal it

theorem Accounted.advance {s : Progress} (h : Accounted loop s) {proposal : Proposal}
    {it : IterationOutcome} (hit : Executes loop s s.iterations.length proposal it) :
    Accounted loop (OptimizationLoop.advance s it) where
  progress := by rw [iterations_advance, progressOf_concat, ← h.progress]
  executed i it' hi := by
    rw [iterations_advance] at hi ⊢
    obtain hlt | rfl | hgt := lt_trichotomy i s.iterations.length
    · rw [List.getElem?_append_left hlt] at hi
      rw [List.take_append_of_le_length hlt.le]
      exact h.executed i it' hi
    · rw [List.getElem?_concat_length] at hi
      obtain rfl := Option.some.inj hi
      rw [List.take_append_of_le_length le_rfl, List.take_length, ← h.progress,
        (iterate_spec hit.iterated).2.1]
      exact hit
    · have hlength := (List.getElem?_eq_some_iff.mp hi).1
      rw [List.length_append, List.length_singleton] at hlength
      omega

theorem accounted_run : Accounted loop loop.run.1 :=
  run_induct ⟨rfl, by simp⟩ fun _ _ _ h hit => h.advance hit

theorem runIterations_concat {e : Experiment} {inputs : List IterationInput}
    {input : IterationInput}
    {start : ℕ} {baseline : Option IterationAggregate} {live : List IterationOutcome}
    {it : IterationOutcome} (hlive : runIterations e start baseline inputs = some live)
    (hround : runRound e (start + inputs.length)
      (live.foldl (fun b it => nextBaseline b it.aggregate) baseline) input = some it) :
    runIterations e start baseline (inputs ++ [input]) = some (live ++ [it]) := by
  induction inputs generalizing start baseline live with
  | nil =>
    obtain rfl := Option.some.inj hlive
    have hfirst : runRound e start baseline input = some it := hround
    simp [runIterations, hfirst]
  | cons input' inputs ih =>
    simp only [runIterations, Option.bind_eq_bind, Option.bind_eq_some_iff] at hlive
    obtain ⟨outcome, houtcome, outcomes, hrest, hlive⟩ := hlive
    obtain rfl := Option.some.inj hlive
    have hround' : runRound e (start + 1 + inputs.length) (outcomes.foldl
        (fun b it => nextBaseline b it.aggregate) (nextBaseline baseline outcome.aggregate)) input =
        some it := by
      rw [← hround]
      congr 1
      rw [List.length_cons]
      omega
    have htail := ih hrest hround'
    simp [runIterations, houtcome, htail]

/-- **The recorded iterations** are the rounds of some inputs, in order. -/
theorem iterations_eq_runIterations :
    ∃ inputs, runIterations loop.experiment 0 none inputs = some loop.run.1.iterations := by
  have hrounds :
    ∃ inputs, runIterations loop.experiment 0 none inputs = some loop.run.1.iterations ∧
      inputs.length = loop.run.1.iterations.length ∧ loop.run.1.baseline =
        loop.run.1.iterations.foldl (fun b it => nextBaseline b it.aggregate) none := by
    refine run_induct (I := fun s => ∃ inputs,
      runIterations loop.experiment 0 none inputs = some s.iterations ∧
      inputs.length = s.iterations.length ∧
      s.baseline = s.iterations.foldl (fun b it => nextBaseline b it.aggregate) none)
      ⟨[], rfl, rfl, rfl⟩ ?_
    rintro s proposal it ⟨inputs, hlive, hlength, hbaseline⟩ ⟨-, hit⟩
    simp only [OptimizationLoop.iterate, Option.bind_eq_bind, Option.bind_eq_some_iff] at hit
    obtain ⟨⟨aggregate, caseRuns⟩, -, hround⟩ := hit
    rw [hbaseline, ← hlength, ← Nat.zero_add inputs.length] at hround
    refine ⟨_, runIterations_concat hlive hround, by simp [hlength], ?_⟩
    simp [OptimizationLoop.advance, hbaseline]
  obtain ⟨inputs, hlive, -⟩ := hrounds
  exact ⟨inputs, hlive⟩

/-- The baseline is the best aggregate so far, and each iteration was held against the best before
it. -/
structure Tracked (loop : OptimizationLoop) (s : Progress) : Prop where
  baseline : s.baseline = (bestIteration s.iterations).map (·.aggregate)
  recorded : ∀ (i : ℕ) (it : IterationOutcome), s.iterations[i]? = some it →
    Recorded loop ((bestIteration (s.iterations.take i)).map (·.aggregate)) it

theorem bestIteration_concat (its : List IterationOutcome) (it : IterationOutcome) :
    (bestIteration (its ++ [it])).map (·.aggregate) =
      nextBaseline ((bestIteration its).map (·.aggregate)) it.aggregate := by
  unfold bestIteration nextBaseline
  rw [List.argmax_concat]
  cases its.argmax fun it => it.aggregate.primaryValue with
  | none => rfl
  | some best =>
    dsimp only [Option.map_some]
    split_ifs <;> rfl

theorem Tracked.advance {s : Progress} (h : Tracked loop s) {index : ℕ} {proposal : Proposal}
    {it : IterationOutcome} (hit : loop.iterate s index proposal = some it) :
    Tracked loop (OptimizationLoop.advance s it) where
  baseline := by
    show nextBaseline s.baseline it.aggregate = (bestIteration (s.iterations ++ [it])).map _
    rw [bestIteration_concat, h.baseline]
  recorded i it' hi := by
    show Recorded loop ((bestIteration ((s.iterations ++ [it]).take i)).map (·.aggregate)) it'
    have hi' : (s.iterations ++ [it])[i]? = some it' := hi
    obtain hlt | rfl | hgt := lt_trichotomy i s.iterations.length
    · rw [List.getElem?_append_left hlt] at hi'
      rw [List.take_append_of_le_length hlt.le]
      exact h.recorded i it' hi'
    · rw [List.getElem?_concat_length] at hi'
      obtain rfl := Option.some.inj hi'
      rw [List.take_append_of_le_length le_rfl, List.take_length, ← h.baseline]
      exact (iterate_spec hit).2.2
    · have hlength := (List.getElem?_eq_some_iff.mp hi').1
      rw [List.length_append, List.length_singleton] at hlength
      omega

theorem tracked_run : Tracked loop loop.run.1 :=
  run_induct ⟨rfl, by simp⟩ fun _ _ _ h hit => h.advance hit.iterated

end Run

/-! ### The decision matrix -/

/-- `DecisionMatrixEvaluator.evaluate`; how numbers are printed comes from outside. -/
def matrixEvaluate (render : List Piece → String) (e : Experiment) (aggregate : IterationAggregate)
    (baseline : Option IterationAggregate) : DecisionOutcome × String :=
  ((evaluateIteration e aggregate baseline).outcome,
    render (evaluateIteration e aggregate baseline).rationale)

/-- The loop under the decision matrix. -/
def OptimizationLoop.withMatrix (loop : OptimizationLoop) (render : List Piece → String) :
    OptimizationLoop :=
  { loop with evaluate := matrixEvaluate render }

section Law
variable {e : Experiment}

theorem keepCandidate_iff {aggregate best : IterationAggregate} :
    (evaluateIteration e aggregate (some best)).outcome = .keepCandidate ↔
      guardrailsViolated aggregate e.target.guardrails = [] ∧
        best.primaryValue < aggregate.primaryValue := by
  unfold evaluateIteration
  dsimp only
  by_cases hviolated : guardrailsViolated aggregate e.target.guardrails = []
  · rw [if_neg (not_not.mpr hviolated), and_iff_right hviolated]
    unfold evaluatePrimary
    dsimp only
    split_ifs with hdelta hmeets
    · exact iff_of_false (by simp) (by linarith)
    · refine iff_of_false ?_ (by linarith)
      cases e.decision.ifRegressionFails <;> simp [outcomeForRegression]
    · exact iff_of_true rfl (by linarith)
  · rw [if_pos hviolated]
    refine iff_of_false ?_ fun h => hviolated h.1
    cases e.decision.ifGuardrailFails <;> simp [outcomeForGuardrail]

/-- The values of the first iterations. -/
def valuesBefore (s : Progress) (i : ℕ) : Set ℚ :=
  {v | ∃ it ∈ s.iterations.take i, it.aggregate.primaryValue = v}

theorem isGreatest_valuesBefore {s : Progress} {i : ℕ} {best : IterationOutcome}
    (h : bestIteration (s.iterations.take i) = some best) :
    IsGreatest (valuesBefore s i) best.aggregate.primaryValue := by
  refine ⟨⟨best, List.argmax_mem h, rfl⟩, ?_⟩
  rintro v ⟨it, hit, rfl⟩
  exact List.le_of_mem_argmax (f := fun it : IterationOutcome => it.aggregate.primaryValue) hit h

theorem bestIteration_eq_some {its : List IterationOutcome} {best : IterationOutcome}
    (h : bestIteration its = some best) :
    ∃ k : ℕ, its[k]? = some best ∧ ∀ (j : ℕ) (it : IterationOutcome), its[j]? = some it →
      it.aggregate.primaryValue ≤ best.aggregate.primaryValue ∧
        (j < k → it.aggregate.primaryValue < best.aggregate.primaryValue) := by
  induction its using List.reverseRecOn generalizing best with
  | nil => exact nomatch h
  | append_singleton its last ih =>
    unfold bestIteration at h ih
    rw [List.argmax_concat] at h
    cases hbest : its.argmax fun it => it.aggregate.primaryValue with
    | none =>
      rw [hbest] at h
      obtain rfl := Option.some.inj h
      obtain rfl := List.argmax_eq_none.mp hbest
      refine ⟨0, rfl, fun j it hit => ?_⟩
      cases j with
      | zero =>
        obtain rfl := Option.some.inj hit
        exact ⟨le_rfl, fun hlt => absurd hlt (lt_irrefl 0)⟩
      | succ j => simp at hit
    | some old =>
      rw [hbest] at h
      dsimp only at h
      obtain ⟨k, hk, hall⟩ := ih hbest
      have hklt := (List.getElem?_eq_some_iff.mp hk).1
      split_ifs at h with hlt
      · obtain rfl := Option.some.inj h
        refine ⟨its.length, by simp, fun j it hit => ?_⟩
        by_cases hj : j < its.length
        · rw [List.getElem?_append_left hj] at hit
          have hle := (hall j it hit).1
          exact ⟨hle.trans hlt.le, fun _ => hle.trans_lt hlt⟩
        · have hj' := (List.getElem?_eq_some_iff.mp hit).1
          rw [List.length_append, List.length_singleton] at hj'
          obtain rfl : j = its.length := by omega
          rw [List.getElem?_concat_length] at hit
          obtain rfl := Option.some.inj hit
          exact ⟨le_rfl, fun hlt' => absurd hlt' (lt_irrefl _)⟩
      · obtain rfl := Option.some.inj h
        refine ⟨k, by rw [List.getElem?_append_left hklt, hk], fun j it hit => ?_⟩
        by_cases hj : j < its.length
        · rw [List.getElem?_append_left hj] at hit
          exact hall j it hit
        · have hj' := (List.getElem?_eq_some_iff.mp hit).1
          rw [List.length_append, List.length_singleton] at hj'
          obtain rfl : j = its.length := by omega
          rw [List.getElem?_concat_length] at hit
          obtain rfl := Option.some.inj hit
          exact ⟨not_lt.mp hlt, fun hlt' => absurd hlt' (by omega)⟩

/-- The iteration was held against the greatest value before it. -/
def Held (e : Experiment) (s : Progress) (i : ℕ) (it : IterationOutcome) : Prop :=
  ∃ m, IsGreatest (valuesBefore s i) m ∧
    it.iterationRecord.metrics.map (·.primary.deltaVsBaseline) =
      some (some (it.aggregate.primaryValue - m)) ∧
    (it.iterationRecord.decision.map (·.outcome) = some .keepCandidate ↔
      guardrailsViolated it.aggregate e.target.guardrails = [] ∧ m < it.aggregate.primaryValue) ∧
    (it.decisionRecord.outcome = .keepCandidate ↔
      guardrailsViolated it.aggregate e.target.guardrails = [] ∧ m < it.aggregate.primaryValue)

/-- What is to hold of a run under the decision matrix, and of why it ended. -/
structure Lawful (loop : OptimizationLoop) (s : Progress) (reason : Termination) : Prop where
  /-- The recorded iterations are the rounds of some inputs, in order. -/
  rounds : ∃ inputs, runIterations loop.experiment 0 none inputs = some s.iterations
  /-- The iterations are those of what was proposed, one after the other. -/
  executed : ∀ (i : ℕ) (it : IterationOutcome), s.iterations[i]? = some it →
    Executes loop (progressOf (s.iterations.take i)) i it.proposal it
  /-- No iteration is missing at the end. -/
  ended : Ended loop s reason
  /-- A later iteration is held against the greatest value before it. -/
  held : ∀ (i : ℕ) (it : IterationOutcome), s.iterations[i]? = some it → 0 < i →
    Held loop.experiment s i it
  /-- The best iteration is the first of the greatest, and the baseline. -/
  best : s.iterations ≠ [] → ∃ (k : ℕ) (it : IterationOutcome), s.iterations[k]? = some it ∧
    (∀ (j : ℕ) (it' : IterationOutcome), s.iterations[j]? = some it' →
      it'.aggregate.primaryValue ≤ it.aggregate.primaryValue ∧
        (j < k → it'.aggregate.primaryValue < it.aggregate.primaryValue)) ∧
    bestIteration s.iterations = some it ∧ s.baseline = some it.aggregate

theorem held_of_tracked {loop : OptimizationLoop} {render : List Piece → String} {s : Progress}
    (htracked : Tracked (loop.withMatrix render) s) {i : ℕ} {it : IterationOutcome}
    (hit : s.iterations[i]? = some it) (hi : 0 < i) : Held loop.experiment s i it := by
  have hne : s.iterations.take i ≠ [] := by
    have hlt := (List.getElem?_eq_some_iff.mp hit).1
    rw [← List.length_pos_iff, List.length_take]
    omega
  obtain ⟨best, hbest⟩ : ∃ best, bestIteration (s.iterations.take i) = some best :=
    Option.ne_none_iff_exists'.mp fun hnone => hne (List.argmax_eq_none.mp hnone)
  have hrecorded := htracked.recorded i it hit
  rw [hbest, Option.map_some] at hrecorded
  have hkeep : (evaluateIteration loop.experiment it.aggregate (some best.aggregate)).outcome =
      .keepCandidate ↔ _ := keepCandidate_iff
  refine ⟨_, isGreatest_valuesBefore hbest, hrecorded.delta, ?_, ?_⟩
  · rw [hrecorded.outcome, ← hkeep, Option.some.injEq]
    rfl
  · rw [hrecorded.decision, ← hkeep]
    rfl

theorem best_of_tracked {loop : OptimizationLoop} {s : Progress} (htracked : Tracked loop s)
    (hne : s.iterations ≠ []) :
    ∃ (k : ℕ) (it : IterationOutcome), s.iterations[k]? = some it ∧
      (∀ (j : ℕ) (it' : IterationOutcome), s.iterations[j]? = some it' →
        it'.aggregate.primaryValue ≤ it.aggregate.primaryValue ∧
          (j < k → it'.aggregate.primaryValue < it.aggregate.primaryValue)) ∧
      bestIteration s.iterations = some it ∧ s.baseline = some it.aggregate := by
  obtain ⟨best, hbest⟩ : ∃ best, bestIteration s.iterations = some best :=
    Option.ne_none_iff_exists'.mp fun hnone => hne (List.argmax_eq_none.mp hnone)
  obtain ⟨k, hk, hall⟩ := bestIteration_eq_some hbest
  refine ⟨k, best, hk, hall, hbest, ?_⟩
  rw [htracked.baseline, hbest]
  rfl

/-- **The law of decisions**, for every run, however it ends. -/
theorem decision_law (loop : OptimizationLoop) (render : List Piece → String) :
    Lawful (loop.withMatrix render) (loop.withMatrix render).run.1
      (loop.withMatrix render).run.2 where
  rounds := iterations_eq_runIterations
  executed := accounted_run.executed
  ended := ended_run
  held _ _ hit hi := held_of_tracked tracked_run hit hi
  best hne := best_of_tracked tracked_run hne

end Law

end Selfevals.Optimization.OptimizationRun
