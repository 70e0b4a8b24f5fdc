import Selfevals.Optimization.OptimizationRun

/-!
# What a run under the grid proposer covers

A combination is named by its choices: which agent, and which value on each axis. `choices` lists
them in the order of the search space, the last axis varying fastest; the run goes through them in
that order.
-/

namespace Selfevals.Optimization.GridCoverage

open Decision.Matrix Lib.JsonValue Lib.Mapping Optimization.Aggregator Optimization.GridProposer
  Optimization.IterationLoop Optimization.OptimizationRun Runner.ExperimentStates Schemas.Enums
  Schemas.Experiments Schemas.Iterations

/-! ### Choices -/

/-- How much there is to choose from: the agents, where there are any, then each axis. -/
def sizes (sp : SearchSpace) : List ℕ :=
  (if sp.agents = [] then [] else [sp.agents.length]) ++ (axes sp.modelParams).map (·.2.length)

/-- The choices, in order. -/
def choices (sp : SearchSpace) : List (List ℕ) := product ((sizes sp).map List.range)

/-- The chosen value of each axis. -/
def chosenValues (modelParams : Object) (c : List ℕ) : List Json :=
  List.zipWith (fun axis i => axis.2.getD i .null) (axes modelParams) c

/-- The parameters of a choice: its agent, and its model parameters with the constants. -/
def parametersOf (sp : SearchSpace) (c : List ℕ) : Object :=
  (if sp.agents = [] then [] else [("agent", .obj (sp.agents.getD c.head! []))]) ++
    if sp.modelParams = [] then []
    else
      let ofAxes := if sp.agents = [] then c else c.tail
      [("model_params", .obj (combine sp.modelParams (chosenValues sp.modelParams ofAxes)))]

/-- There is something to vary or to hold constant, and no axis is empty. -/
structure Spans (sp : SearchSpace) : Prop where
  nonempty : sp.agents ≠ [] ∨ sp.modelParams ≠ []
  axes : ∀ axis ∈ axes sp.modelParams, axis.2 ≠ []

theorem mem_choices {sp : SearchSpace} {c : List ℕ} :
    c ∈ choices sp ↔ List.Forall₂ (· < ·) c (sizes sp) := by
  rw [choices, mem_product, List.forall₂_map_right_iff]
  simp

theorem length_choices (sp : SearchSpace) : (choices sp).length = (sizes sp).prod := by
  rw [choices, length_product, List.map_map]
  simp [Function.comp_def]

theorem pairwise_choices (sp : SearchSpace) : (choices sp).Pairwise (List.Lex (· < ·)) := by
  refine pairwise_product fun xs hxs => ?_
  obtain ⟨n, -, rfl⟩ := List.mem_map.mp hxs
  exact List.pairwise_lt_range

theorem product_eq_map_range {α : Type} (d : α) (xss : List (List α)) :
    product xss = (product (xss.map fun xs => List.range xs.length)).map
      (List.zipWith (fun xs i => xs.getD i d) xss) := by
  induction xss with
  | nil => rfl
  | cons xs xss ih =>
    have hxs : (List.range xs.length).map (fun i => xs.getD i d) = xs := by
      refine List.ext_getElem (by simp) fun i hi hi' => ?_
      simp [hi']
    simp only [List.map_cons, product, List.map_flatMap, List.map_map]
    conv_lhs => rw [← hxs, List.flatMap_map]
    congr 1
    funext i
    rw [ih, List.map_map]
    rfl

theorem gridCombinations_eq {modelParams : Object} (h : modelParams ≠ []) :
    gridCombinations modelParams =
      (product ((axes modelParams).map fun axis => List.range axis.2.length)).map
        fun c => combine modelParams (chosenValues modelParams c) := by
  unfold gridCombinations
  split_ifs with haxes hconstants
  · -- every parameter is an axis or a constant
    obtain ⟨⟨k, v⟩, hmem⟩ := List.exists_mem_of_ne_nil modelParams h
    have haxis := List.filterMap_eq_nil_iff.mp haxes (k, v) hmem
    have hconstant := List.filter_eq_nil_iff.mp hconstants (k, v) hmem
    cases v <;> simp at haxis hconstant
  · rw [haxes]
    simp [product, combine, chosenValues, haxes]
  · rw [product_eq_map_range .null, List.map_map, List.map_map]
    congr 1
    funext c
    simp [chosenValues, List.zipWith_map_left]

theorem gridCombinations_ne_nil {modelParams : Object} (h : modelParams ≠ [])
    (haxes : ∀ axis ∈ axes modelParams, axis.2 ≠ []) : gridCombinations modelParams ≠ [] := by
  rw [gridCombinations_eq h, Ne, List.map_eq_nil_iff, product_eq_nil]
  intro hmem
  obtain ⟨axis, haxis, hrange⟩ := List.mem_map.mp hmem
  rw [List.range_eq_nil, List.length_eq_zero_iff] at hrange
  exact haxes axis haxis hrange

/-- **The combinations** are those of the choices, in the same order. -/
theorem ensureCombos_of_spans {sp : SearchSpace} (h : Spans sp) :
    ensureCombos sp = .ok ((choices sp).map (parametersOf sp)) := by
  have hagents : sp.agents = (List.range sp.agents.length).map fun i => sp.agents.getD i [] := by
    refine List.ext_getElem (by simp) fun i hi _ => ?_
    simp [hi]
  by_cases hmodel : sp.modelParams = []
  · have hne : sp.agents ≠ [] := h.nonempty.resolve_right (not_not.mpr hmodel)
    have hgrid : gridCombinations sp.modelParams = [] := by rw [hmodel]; rfl
    have haxes : axes sp.modelParams = [] := by rw [hmodel]; rfl
    simp only [ensureCombos, hgrid, hne, and_false, if_false, if_true]
    congr 1
    conv_lhs => rw [hagents, List.map_map]
    have hchoices : choices sp = (List.range sp.agents.length).map fun i => [i] := by
      rw [List.map_eq_flatMap]
      simp [choices, sizes, hne, haxes, product]
    rw [hchoices, List.map_map]
    congr 1
    funext i
    simp [parametersOf, hne, hmodel]
  · have hgrid := gridCombinations_ne_nil hmodel h.axes
    simp only [ensureCombos, hgrid, false_and, if_false]
    by_cases hne : sp.agents = []
    · rw [if_pos hne, gridCombinations_eq hmodel]
      congr 1
      rw [List.map_map, choices, sizes, if_pos hne, List.nil_append, List.map_map]
      congr 1
      funext c
      simp [parametersOf, hne, hmodel]
    · rw [if_neg hne, gridCombinations_eq hmodel]
      congr 1
      conv_lhs => rw [hagents, List.flatMap_map]
      simp only [choices, sizes, hne, if_false, List.singleton_append, List.map_cons, product,
        List.map_flatMap, List.map_map]
      congr 1
      funext i
      congr 1
      funext c
      simp [parametersOf, hne, hmodel]

theorem ensureCombos_of_not_spans {sp : SearchSpace} (hagents : sp.agents = []) (h : ¬Spans sp) :
    ensureCombos sp = .error emptyGrid := by
  have hgrid : gridCombinations sp.modelParams = [] := by
    by_cases hmodel : sp.modelParams = []
    · rw [hmodel]
      rfl
    · by_contra hne
      refine h ⟨.inr hmodel, fun axis haxis hnil => hne ?_⟩
      rw [gridCombinations_eq hmodel, List.map_eq_nil_iff, product_eq_nil]
      exact List.mem_map.mpr ⟨axis, haxis, by rw [hnil]; rfl⟩
  simp [ensureCombos, hgrid, hagents]

/-! ### The run -/

section Run
variable {loop : OptimizationLoop} {pyStr : Json → String} {combos : List Object}

/-- What has been evaluated are the first combinations, in order. -/
structure Covered (combos : List Object) (s : Progress) : Prop where
  parameters : s.iterations.map (·.proposal.parameters) = combos.take s.iterations.length
  length_le : s.iterations.length ≤ combos.length

/-- Why a run that does not raise ends, and with how many iterations. -/
def EndsWith (size maxIterations : ℕ) (iterations : ℕ) (reason : Termination) : Prop :=
  if size < maxIterations then
    iterations = size ∧
      reason = .searchSpaceExhausted ("grid exhausted after " ++ toString size ++ " combinations")
  else iterations = maxIterations ∧ reason = .maxIterations

theorem Covered.advance {s : Progress} (h : Covered combos s) {it : IterationOutcome}
    (hit : combos[s.iterations.length]? = some it.proposal.parameters) :
    Covered combos (OptimizationLoop.advance s it) where
  parameters := by
    rw [iterations_advance, List.map_append, h.parameters, List.length_append,
      List.length_singleton, List.take_add_one, hit]
    rfl
  length_le := by
    have hlt := (List.getElem?_eq_some_iff.mp hit).1
    rw [iterations_advance, List.length_append, List.length_singleton]
    omega

/-- **A round of the grid** is past the combinations, raises, or evaluates the next one. -/
theorem round_grid (hgrid : loop.proposer = .grid pyStr)
    (hearly : loop.experiment.run.convergence.earlyStop ≠ some true)
    (hcombos : ensureCombos loop.experiment.searchSpace = .ok combos) (s : Progress) (index : ℕ) :
    combos.length ≤ index ∧ loop.round s index =
        (s, some (.searchSpaceExhausted
          ("grid exhausted after " ++ toString combos.length ++ " combinations"))) ∨
      loop.round s index = (s, some .raised) ∨
      ∃ it, combos[index]? = some it.proposal.parameters ∧
        loop.round s index = (OptimizationLoop.advance s it, none) := by
  have hoff : earlyStopEnabled loop.experiment.run.convergence.earlyStop loop.proposer = false := by
    rw [hgrid]
    cases hover : loop.experiment.run.convergence.earlyStop with
    | none => rfl
    | some override =>
      cases override with
      | false => rfl
      | true => exact absurd hover hearly
  have hpropose : ∀ context, loop.proposer.propose loop.experiment context =
      GridProposer.propose pyStr loop.experiment context.iterationIndex := by
    rw [hgrid]
    exact fun _ => rfl
  unfold OptimizationLoop.round
  simp only [hpropose, GridProposer.propose, OptimizationLoop.context, hcombos, hoff]
  cases hparams : combos[index]? with
  | none => exact .inl ⟨List.getElem?_eq_none_iff.mp hparams, rfl⟩
  | some params =>
    right
    dsimp only
    by_cases hviolations : violationsAgainst params loop.experiment.editable = []
    · rw [if_pos hviolations]
      dsimp only
      split
      · exact .inl rfl
      · next it hit =>
        refine .inr ⟨it, ?_, by simp⟩
        rw [(iterate_spec hit).2.1]
    · rw [if_neg hviolations]
      exact .inl rfl

/-- **A run of the grid** goes through the combinations in order, to their end or that of the
iterations, unless something raises. -/
theorem runFrom_grid (hgrid : loop.proposer = .grid pyStr)
    (hearly : loop.experiment.run.convergence.earlyStop ≠ some true)
    (hcombos : ensureCombos loop.experiment.searchSpace = .ok combos) (remaining : ℕ) {s : Progress}
    (hs : Covered combos s) :
    Covered combos (loop.runFrom s s.iterations.length remaining).1 ∧
      ((loop.runFrom s s.iterations.length remaining).2 ≠ .raised →
        EndsWith combos.length (s.iterations.length + remaining)
          (loop.runFrom s s.iterations.length remaining).1.iterations.length
          (loop.runFrom s s.iterations.length remaining).2) := by
  induction remaining generalizing s with
  | zero =>
    have hle := hs.length_le
    refine ⟨hs, fun _ => ?_⟩
    rw [EndsWith, if_neg (by omega)]
    exact ⟨rfl, rfl⟩
  | succ remaining ih =>
    unfold OptimizationLoop.runFrom
    obtain ⟨hle, hround⟩ | hround | ⟨it, hit, hround⟩ :=
      round_grid hgrid hearly hcombos s s.iterations.length
    · have hlength := hs.length_le
      rw [hround]
      refine ⟨hs, fun _ => ?_⟩
      rw [EndsWith, if_pos (by omega)]
      exact ⟨by dsimp only; omega, rfl⟩
    · rw [hround]
      exact ⟨hs, fun hraised => absurd rfl hraised⟩
    · rw [hround]
      have hlength :
        (OptimizationLoop.advance s it).iterations.length = s.iterations.length + 1 := by
        simp
      have hnext := ih (hs.advance hit)
      rw [hlength,
        show s.iterations.length + 1 + remaining = s.iterations.length + (remaining + 1) by
        omega] at hnext
      exact hnext

/-- What a run under the grid proposer is to have covered. -/
structure Coverage (loop : OptimizationLoop) (cs : List (List ℕ)) : Prop where
  /-- The combinations are in order, none twice. -/
  inOrder : cs.Pairwise (List.Lex (· < ·))
  /-- There is one for each choice of an agent, and of a value on each axis. -/
  all : ∀ c, c ∈ cs ↔ List.Forall₂ (· < ·) c (sizes loop.experiment.searchSpace)
  /-- What is evaluated, even where something raises later. -/
  evaluated : loop.run.1.iterations.map (·.proposal.parameters) =
    (cs.map (parametersOf loop.experiment.searchSpace)).take loop.run.1.iterations.length
  /-- A run that does not raise evaluates them all. -/
  complete : loop.run.2 ≠ .raised → loop.run.1.iterations.map (·.proposal.parameters) =
    cs.map (parametersOf loop.experiment.searchSpace)
  /-- It then ends, and asks the proposer once more only where an iteration is left. -/
  reason : loop.run.2 ≠ .raised →
    loop.run.2 =
      if cs.length < loop.experiment.run.maxIterations then
        .searchSpaceExhausted ("grid exhausted after " ++ toString cs.length ++ " combinations")
      else .maxIterations

theorem run_grid (hgrid : loop.proposer = .grid pyStr)
    (hearly : loop.experiment.run.convergence.earlyStop ≠ some true)
    (hcombos : ensureCombos loop.experiment.searchSpace = .ok combos) :
    Covered combos loop.run.1 ∧ (loop.run.2 ≠ .raised →
      EndsWith combos.length loop.experiment.run.maxIterations loop.run.1.iterations.length
        loop.run.2) := by
  have hstart : Covered combos {} := ⟨rfl, Nat.zero_le _⟩
  have hraises : loop.gridRaises = false := by
    simp [OptimizationLoop.gridRaises, hcombos, Except.toOption]
  unfold OptimizationLoop.run
  split
  · exact ⟨hstart, fun hraised => absurd rfl hraised⟩
  · rw [hraises]
    have hrun := runFrom_grid hgrid hearly hcombos loop.experiment.run.maxIterations hstart
    rw [show ({} : Progress).iterations.length = 0 from rfl, Nat.zero_add] at hrun
    exact hrun

/-- **Grid coverage.** -/
theorem grid_coverage (loop : OptimizationLoop) (pyStr : Json → String)
    (hgrid : loop.proposer = .grid pyStr)
    (hearly : loop.experiment.run.convergence.earlyStop ≠ some true)
    (hsize : (sizes loop.experiment.searchSpace).prod ≤ loop.experiment.run.maxIterations) :
    (Spans loop.experiment.searchSpace → ∃ cs, Coverage loop cs) ∧
      (loop.experiment.searchSpace.agents = [] → ¬Spans loop.experiment.searchSpace →
        loop.run = ({}, .raised)) := by
  constructor
  · intro hspans
    have hcombos := ensureCombos_of_spans hspans
    obtain ⟨hcovered, hends⟩ := run_grid hgrid hearly hcombos
    rw [List.length_map, length_choices] at hends
    have hall : loop.run.2 ≠ .raised →
        loop.run.1.iterations.length = (sizes loop.experiment.searchSpace).prod := by
      intro hraised
      have h := hends hraised
      unfold EndsWith at h
      split_ifs at h
      · exact h.1
      · omega
    refine ⟨choices loop.experiment.searchSpace, pairwise_choices _, fun _ => mem_choices,
      hcovered.parameters, fun hraised => ?_, fun hraised => ?_⟩
    · rw [hcovered.parameters, hall hraised, List.take_of_length_le]
      rw [List.length_map, length_choices]
    · have h := hends hraised
      rw [length_choices]
      unfold EndsWith at h
      split_ifs at h ⊢
      · exact h.2
      · exact h.2
  · intro hagents hspans
    have hcombos := ensureCombos_of_not_spans hagents hspans
    have hraises : loop.gridRaises = true := by
      simp [OptimizationLoop.gridRaises, hcombos, hgrid, Proposer.isGrid, Except.toOption]
    unfold OptimizationLoop.run
    split
    · rfl
    · rw [if_pos hraises]

end Run

/-- Two agents, each at two temperatures. -/
def bakeOff : OptimizationLoop where
  experiment := { Experiment.minimal with
    editable := { modelChoice := true }
    searchSpace := {
      agents := [[("name", .str "a")], [("name", .str "b")]]
      modelParams := [("temperature", .arr [.int 0, .int 1]), ("top_p", .int 1)] } }
  proposer := .grid fun _ => "{}"
  evaluate := matrixEvaluate fun _ => "worse"
  execute := fun _ _ => .inProcess [(⟨"case_1"⟩, failing)]

theorem grid_coverage_bakeOff : (∃ cs, Coverage bakeOff cs) ∧ bakeOff.experiment.Valid ∧
    bakeOff.run.1.iterations.length = 4 ∧
    bakeOff.run.2 = .searchSpaceExhausted "grid exhausted after 4 combinations" :=
  ⟨(grid_coverage bakeOff (fun _ => "{}") rfl (by decide) (by decide)).1 ⟨.inl (by decide), by
    intro axis haxis
    obtain rfl := List.mem_singleton.mp haxis
    decide⟩, by decide +kernel, by decide +kernel, by decide +kernel⟩

/-- A space of one combination, and no iteration left after it. -/
def oneShot : OptimizationLoop :=
  { bakeOff with
    experiment := { Experiment.minimal with
      searchSpace := { modelParams := [("temperature", .int 0)] }
      run := { sandbox := .mock, maxIterations := 1 } } }

/-- A run with as many iterations as combinations is not told that the grid is exhausted. -/
theorem not_exhausted : ¬∀ (loop : OptimizationLoop) (pyStr : Json → String),
    loop.experiment.Valid → loop.proposer = .grid pyStr →
    loop.experiment.run.convergence.earlyStop ≠ some true →
    (sizes loop.experiment.searchSpace).prod ≤ loop.experiment.run.maxIterations →
    Spans loop.experiment.searchSpace → loop.run.2 ≠ .raised →
    ∃ message, loop.run.2 = .searchSpaceExhausted message := by
  intro h
  have hrun : oneShot.run.2 = .maxIterations := by decide +kernel
  obtain ⟨message, hexhausted⟩ := h oneShot (fun _ => "{}") (by decide +kernel) rfl (by decide)
    (by decide) ⟨.inr (by decide), fun axis haxis => absurd haxis List.not_mem_nil⟩ (by simp [hrun])
  rw [hrun] at hexhausted
  cases hexhausted

end Selfevals.Optimization.GridCoverage
