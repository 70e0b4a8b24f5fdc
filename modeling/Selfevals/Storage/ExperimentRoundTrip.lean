import Selfevals.Lib.Relational
import Selfevals.Storage.ExperimentMapper

/-!
# What comes back of a stored experiment

`load` after `upsert`, on any tables: first insert or update, whatever child rows the experiment had
before, whatever else is stored.
-/

namespace Selfevals.Storage.ExperimentRoundTrip

open Lib.JsonValue Lib.Sql
open Lib.Relational (bind_of_eq_some)
open Schemas.Base Schemas.Enums Schemas.Experiments Storage.Columns Storage.ExperimentMapper
open SqlCodec (encode decode decode_encode)

/-! ### The row -/

/-- What each column of the row of an experiment holds. -/
def cells (e : Experiment) : Row
  | .id => encode e.id
  | .workspaceId => encode e.workspaceId
  | .version => encode e.version
  | .createdAt => encode e.createdAt
  | .updatedAt => encode e.updatedAt
  | .deletedAt => encode e.deletedAt
  | .name => encode e.name
  | .goal => encode e.goal
  | .mode => encode e.mode
  | .state => encode e.state
  | .contentHash => encode e.contentHash
  | .taxonomyTargetFeatures => encode e.taxonomy.targetFeatures
  | .taxonomyTargetLevels => encode e.taxonomy.targetLevels
  | .taxonomyDatasetTypes => encode e.taxonomy.datasetTypes
  | .datasetOptimizationId => encode e.datasets.optimization.id
  | .datasetOptimizationVersion => encode e.datasets.optimization.version
  | .targetPrimaryName => encode e.target.primary.name
  | .targetPrimaryOperator => encode e.target.primary.operator
  | .targetPrimaryValue => encode e.target.primary.value
  | .targetPrimaryGrader => encode e.target.primaryGrader
  | .editablePrompt => encode e.editable.prompt
  | .editableModelParams => encode e.editable.modelParams
  | .editableModelChoice => encode e.editable.modelChoice
  | .editableToolDescriptions => encode e.editable.toolDescriptions
  | .editableToolCode => encode e.editable.toolCode
  | .editableWorkflowGraph => encode e.editable.workflowGraph
  | .editableSkills => encode e.editable.skills
  | .editableDataset => encode e.editable.dataset
  | .editableGraders => encode e.editable.graders
  | .searchSpaceModelParams => encode e.searchSpace.modelParams
  | .searchSpacePromptVariables => encode e.searchSpace.promptVariables
  | .searchSpaceToolParams => encode e.searchSpace.toolParams
  | .frozenFleetId => encode e.frozen.fleet.id
  | .frozenFleetVersion => encode e.frozen.fleet.version
  | .frozenRiskRegistryId => encode (e.frozen.riskRegistry.map (·.id))
  | .frozenRiskRegistryVersion => encode (e.frozen.riskRegistry.bind (·.version))
  | .frozenFeatureRegistryId => encode (e.frozen.featureRegistry.map (·.id))
  | .frozenFeatureRegistryVersion => encode (e.frozen.featureRegistry.bind (·.version))
  | .proposerStrategy => encode e.proposer.strategy
  | .proposerAllowSearchSpaceExpansion => encode e.proposer.allowSearchSpaceExpansion
  | .proposerParameters => encode e.proposer.parameters
  | .runSandbox => encode e.run.sandbox
  | .runRuntime => encode e.run.runtime
  | .runSampleStrategy => encode e.run.sampleStrategy
  | .runMaxIterations => encode e.run.maxIterations
  | .runRepetitionsPerCase => encode e.run.repetitionsPerCase
  | .runParallelism => encode e.run.parallelism
  | .runSeed => encode e.run.seed
  | .runPersistTraces => encode e.run.persistTraces
  | .runConvergenceMinDelta => encode e.run.convergence.minDelta
  | .runConvergencePatience => encode e.run.convergence.patience
  | .runConvergenceEarlyStop => encode e.run.convergence.earlyStop
  | .jdHoldoutVisibleToProposer => encode e.judgeDefenses.holdoutVisibleToProposer
  | .jdOverfitPenaltyMaxDelta => encode e.judgeDefenses.overfitPenaltyMaxDelta
  | .jdPanelPresent => encode e.judgeDefenses.panel.isSome
  | .jdPanelMembers => encode ((e.judgeDefenses.panel.map (·.panelMembers)).getD [])
  | .jdPanelConsensusRule => encode ((e.judgeDefenses.panel.map (·.consensusRule)).getD .majority)
  | .jdCfEnabled => encode e.judgeDefenses.counterfactuals.enabled
  | .jdCfGenerationStrategy => encode e.judgeDefenses.counterfactuals.generationStrategy
  | .jdCfPairsPerCase => encode e.judgeDefenses.counterfactuals.pairsPerCase
  | .jdCfMaxScoreVariance => encode e.judgeDefenses.counterfactuals.maxScoreVariance
  | .jdHscEnabled => encode e.judgeDefenses.humanSpotCheck.enabled
  | .jdHscSampleRate => encode e.judgeDefenses.humanSpotCheck.sampleRate
  | .jdHscTriggerOnJump => encode e.judgeDefenses.humanSpotCheck.triggerOnJump
  | .jdAdversarialDatasetId => encode (e.judgeDefenses.adversarialDataset.map (·.id))
  | .jdAdversarialDatasetVersion => encode (e.judgeDefenses.adversarialDataset.bind (·.version))
  | .jdOutcomeMetricsPresent => encode e.judgeDefenses.outcomeMetrics.isSome
  | .jdOutcomeMetrics => encode ((e.judgeDefenses.outcomeMetrics.map (·.metrics)).getD [])
  | .reliabilityRepetitionsPerCase => encode e.reliability.repetitionsPerCase
  | .reliabilityMetrics => encode e.reliability.metrics
  | .decisionIfRegressionFails => encode e.decision.ifRegressionFails
  | .decisionIfGuardrailFails => encode e.decision.ifGuardrailFails
  | .decisionIfJudgeHumanDisagree => encode e.decision.ifJudgeHumanDisagree
  | .eaEnabled => encode e.errorAnalysis.enabled
  | .eaTaxonomy => encode e.errorAnalysis.taxonomy
  | .eaTriggerWhen => encode e.errorAnalysis.trigger.when
  | .eaTriggerThreshold => encode e.errorAnalysis.trigger.threshold
  | .eaScope => encode e.errorAnalysis.scope
/-- **The values of a row stand under their columns.** -/
theorem ofValues_experimentRowValues (e : Experiment) :
    ofValues (experimentRowValues (sharedValues e.toBaseEntity) e) = cells e := by
  have hpair : ∀ ref : Option EntityRef,
      refPair ref = (ref.map (·.id), ref.bind (·.version)) := by
    intro ref
    cases ref <;> rfl
  unfold experimentRowValues
  rw [hpair, hpair, hpair]
  funext c
  cases c <;> rfl

theorem mem_updateColumns {c : Column} : c ∈ updateColumns ↔ c ≠ .id ∧ c ≠ .createdAt := by
  have hall : c ∈ allColumns := by cases c <;> decide
  unfold updateColumns
  simp [hall]

/-- The row that is stored under the id before the write. -/
def storedRow (db : Tables) (experimentId : String) : Option Row :=
  db.experiments.find? (·.hasId experimentId)

theorem updated_apply (row new : Row) (c : Column) :
    row.updated new c = if c ∈ updateColumns then new c else row c := rfl

theorem cells_hasId (e : Experiment) : (cells e).hasId e.id = true := by
  simp [Row.hasId, cells]

theorem cells_hasWorkspace (e : Experiment) : (cells e).hasWorkspace e.workspaceId = true := by
  simp [Row.hasWorkspace, cells]

theorem updated_found {e : Experiment} {old : Row} (h : old.hasId e.id = true) :
    ((old.updated (cells e)).hasId e.id &&
      (old.updated (cells e)).hasWorkspace e.workspaceId) = true := by
  have hid : old.updated (cells e) .id = old .id := by
    rw [updated_apply, if_neg (by decide)]
  have hws : old.updated (cells e) .workspaceId = cells e .workspaceId := by
    rw [updated_apply, if_pos (by decide)]
  have hnew := cells_hasWorkspace e
  unfold Row.hasId Row.hasWorkspace at *
  rw [hid, hws, h, hnew]
  rfl

theorem find_upsertRow (rows : List Row) (e : Experiment) :
    (upsertRow rows e.id (cells e)).find?
        (fun row => row.hasId e.id && row.hasWorkspace e.workspaceId) =
      some (((rows.find? (·.hasId e.id)).map (·.updated (cells e))).getD (cells e)) := by
  unfold upsertRow
  split_ifs with hany
  · obtain ⟨old, hold⟩ : ∃ old, rows.find? (·.hasId e.id) = some old := by
      rw [← Option.isSome_iff_exists, List.find?_isSome]
      simpa using hany
    have hcomp : ((fun row : Row => row.hasId e.id && row.hasWorkspace e.workspaceId) ∘
        fun row => if row.hasId e.id = true then row.updated (cells e) else row) =
        fun row : Row => row.hasId e.id := by
      funext row
      rw [Function.comp_apply]
      by_cases hrow : row.hasId e.id = true
      · rw [if_pos hrow, updated_found hrow, hrow]
      · rw [if_neg hrow]
        simp [hrow]
    rw [List.find?_map, hcomp, hold, Option.map_some, if_pos (List.find?_some hold)]
    rfl
  · have hnone : rows.find? (·.hasId e.id) = none := by
      rw [List.find?_eq_none]
      intro row hrow hid
      exact hany (List.any_eq_true.mpr ⟨row, hrow, hid⟩)
    have hnone' :
      rows.find? (fun row => row.hasId e.id && row.hasWorkspace e.workspaceId) = none := by
      rw [List.find?_eq_none]
      intro row hrow hboth
      rw [Bool.and_eq_true] at hboth
      exact List.find?_eq_none.mp hnone row hrow hboth.1
    rw [hnone, List.find?_append, hnone', Option.none_or]
    simp [cells_hasId, cells_hasWorkspace]

/-! ### The children -/

theorem filter_replaced {α : Type} (key : α → String) (eid : String) (old new : List α)
    (hnew : ∀ row ∈ new, key row = eid) :
    (old.filter (fun row => key row != eid) ++ new).filter (fun row => key row == eid) = new := by
  have hold : (old.filter fun row => key row != eid).filter (fun row => key row == eid) = [] := by
    rw [List.filter_filter, List.filter_eq_nil_iff]
    intro row _
    simp
  have hself : new.filter (fun row => key row == eid) = new := by
    rw [List.filter_eq_self]
    intro row hrow
    simpa using hnew row hrow
  rw [List.filter_append, hold, hself, List.nil_append]

variable (db : Tables) (e : Experiment)

theorem loadGuardrails_written :
    loadGuardrails (writeExperimentChildren db e) e.id = some e.target.guardrails := by
  have hrows : ∀ row ∈ guardrailRows e, row.experimentId = e.id := by
    intro row hrow
    obtain ⟨g, -, rfl⟩ := List.mem_map.mp hrow
    rfl
  unfold loadGuardrails writeExperimentChildren
  dsimp only
  rw [filter_replaced _ _ _ _ hrows, orderBy_of_pairwise]
  · exact mapM_zipIdx fun p _ => by simp
  · exact List.pairwise_map.mpr (pairwise_zipIdx _)

theorem loadGates_written : loadGates (writeExperimentChildren db e) e.id = e.datasets.gates := by
  have hrows : ∀ row ∈ datasetGateRows e, row.experimentId = e.id := by
    intro row hrow
    obtain ⟨g, -, rfl⟩ := List.mem_map.mp hrow
    rfl
  unfold loadGates writeExperimentChildren
  dsimp only
  rw [filter_replaced _ _ _ _ hrows, orderBy_of_pairwise]
  · unfold datasetGateRows
    rw [List.map_map]
    exact List.zipIdx_map_fst 0 _
  · exact List.pairwise_map.mpr (pairwise_zipIdx _)

theorem mem_frozenRefRows {eid kind : String} {refs : List EntityRef} {row : FrozenRefRow}
    (h : row ∈ frozenRefRows eid kind refs) : row.experimentId = eid ∧ row.refKind = kind := by
  obtain ⟨r, -, rfl⟩ := List.mem_map.mp h
  exact ⟨rfl, rfl⟩

/-- The references of a kind. -/
def refsOfKind (e : Experiment) (kind : String) : List EntityRef :=
  if kind = "agent" then e.frozen.agents
  else if kind = "tool" then e.frozen.tools
  else if kind = "dataset" then e.frozen.datasets
  else if kind = "grader" then e.frozen.graders
  else []

theorem filter_frozenRefRows (eid kind kind' : String) (refs : List EntityRef) :
    (frozenRefRows eid kind' refs).filter (·.refKind == kind) =
      if kind' = kind then frozenRefRows eid kind' refs else [] := by
  split_ifs with h
  · rw [List.filter_eq_self]
    intro row hrow
    rw [(mem_frozenRefRows hrow).2, h]
    simp
  · rw [List.filter_eq_nil_iff]
    intro row hrow
    rw [(mem_frozenRefRows hrow).2]
    simpa using h

theorem pairwise_frozenRefRows (eid kind : String) (refs : List EntityRef) :
    (frozenRefRows eid kind refs).Pairwise fun a b =>
      toLex (a.refKind, a.position) ≤ toLex (b.refKind, b.position) := by
  refine List.pairwise_map.mpr ((pairwise_zipIdx refs).imp fun {a b} hab => ?_)
  rw [Prod.Lex.toLex_le_toLex]
  exact Or.inr ⟨rfl, hab⟩

theorem loadFrozen_written (kind : String) (hkind : kind ∈ ["agent", "tool", "dataset", "grader"]) :
    loadFrozen (writeExperimentChildren db e) e.id kind = refsOfKind e kind := by
  have hrows : ∀ row ∈ frozenRefRows e.id "agent" e.frozen.agents ++
      frozenRefRows e.id "tool" e.frozen.tools ++ frozenRefRows e.id "dataset" e.frozen.datasets ++
      frozenRefRows e.id "grader" e.frozen.graders, row.experimentId = e.id := by
    intro row hrow
    simp only [List.mem_append] at hrow
    rcases hrow with ((hrow | hrow) | hrow) | hrow <;> exact (mem_frozenRefRows hrow).1
  have hgroup : (frozenRefRows e.id "agent" e.frozen.agents ++
      frozenRefRows e.id "tool" e.frozen.tools ++ frozenRefRows e.id "dataset" e.frozen.datasets ++
      frozenRefRows e.id "grader" e.frozen.graders).filter (·.refKind == kind) =
      frozenRefRows e.id kind (refsOfKind e kind) := by
    simp only [List.filter_append, filter_frozenRefRows]
    simp only [List.mem_cons, List.not_mem_nil, or_false] at hkind
    rcases hkind with rfl | rfl | rfl | rfl <;> simp [refsOfKind]
  unfold loadFrozen writeExperimentChildren
  dsimp only
  rw [filter_replaced _ _ _ _ hrows, filter_orderBy, hgroup]
  · unfold frozenRefRows
    rw [List.map_map]
    exact List.zipIdx_map_fst 0 _
  · rw [hgroup]
    exact pairwise_frozenRefRows _ _ _

/-! ### The blocks -/

@[simp] theorem buildRef_encode (ref : Option EntityRef) :
    buildRef (encode (ref.map (·.id))) (encode (ref.bind (·.version))) = some ref := by
  unfold buildRef
  cases ref with
  | none => simp
  | some ref => simp

theorem buildBase_cells : buildBase (cells e) = some e.toBaseEntity := by
  simp [buildBase, cells]

theorem buildTaxonomy_cells : buildTaxonomy (cells e) = some e.taxonomy := by
  simp [buildTaxonomy, cells]

theorem buildTarget_cells : buildTarget (cells e) e.target.guardrails = some e.target := by
  simp [buildTarget, cells]

theorem buildEditable_cells : buildEditable (cells e) = some e.editable := by
  simp [buildEditable, cells]

theorem buildSearchSpace_cells :
    buildSearchSpace (cells e) = some { e.searchSpace with agents := [] } := by
  simp [buildSearchSpace, cells]

theorem buildFrozen_cells {frozenByKind : String → List EntityRef}
    (h : ∀ kind ∈ ["agent", "tool", "dataset", "grader"], frozenByKind kind = refsOfKind e kind) :
    buildFrozen (cells e) frozenByKind = some e.frozen := by
  simp only [List.mem_cons, List.not_mem_nil, or_false, forall_eq_or_imp, forall_eq] at h
  obtain ⟨hagent, htool, hdataset, hgrader⟩ := h
  simp [buildFrozen, cells, hagent, htool, hdataset, hgrader, refsOfKind]

theorem buildProposer_cells : buildProposer (cells e) = some e.proposer := by
  simp [buildProposer, cells]

theorem buildRun_cells : buildRun (cells e) = some { e.run with retry := {}, rateLimit := {} } := by
  simp [buildRun, cells]

theorem buildPanel_cells : buildPanel (cells e) = some e.judgeDefenses.panel := by
  unfold buildPanel
  cases hp : e.judgeDefenses.panel <;> simp [cells, hp]

theorem buildOutcomeMetrics_cells :
    buildOutcomeMetrics (cells e) = some e.judgeDefenses.outcomeMetrics := by
  unfold buildOutcomeMetrics
  cases hm : e.judgeDefenses.outcomeMetrics <;> simp [cells, hm]

theorem buildJudgeDefenses_cells : buildJudgeDefenses (cells e) = some e.judgeDefenses := by
  unfold buildJudgeDefenses
  rw [buildPanel_cells, buildOutcomeMetrics_cells]
  simp [cells]

theorem buildReliability_cells : buildReliability (cells e) = some e.reliability := by
  simp [buildReliability, cells]

theorem buildDecision_cells : buildDecision (cells e) = some e.decision := by
  simp [buildDecision, cells]

theorem buildErrorAnalysis_cells : buildErrorAnalysis (cells e) = some e.errorAnalysis := by
  simp [buildErrorAnalysis, cells]

/-! ### The experiment -/

/-- What the tables keep of an experiment: no column holds the agents of the search space, the retry
settings or the rate limits, and the creation time is that of the first insert. -/
def kept (e : Experiment) (createdAt : Time) : Experiment :=
  { e with
    createdAt := createdAt
    searchSpace := { e.searchSpace with agents := [] }
    run := { e.run with retry := {}, rateLimit := {} } }

theorem kept_eq_iff (createdAt : Time) : kept e createdAt = e ↔
    e.searchSpace.agents = [] ∧ e.run.retry = {} ∧ e.run.rateLimit = {} ∧
      createdAt = e.createdAt := by
  constructor
  · intro h
    have hagents : ([] : List Object) = e.searchSpace.agents := congrArg (·.searchSpace.agents) h
    have hretry : ({} : RetrySpec) = e.run.retry := congrArg (·.run.retry) h
    have hlimit : ({} : RateLimitSpec) = e.run.rateLimit := congrArg (·.run.rateLimit) h
    have hcreated : createdAt = e.createdAt := congrArg (·.createdAt) h
    exact ⟨hagents.symm, hretry.symm, hlimit.symm, hcreated⟩
  · rintro ⟨hagents, hretry, hlimit, rfl⟩
    unfold kept
    rw [← hagents, ← hretry, ← hlimit]

variable {e} in
theorem kept_valid (h : e.Valid) (createdAt : Time) : (kept e createdAt).Valid where
  base := h.base
  names := h.names
  taxonomy := h.taxonomy
  datasets := h.datasets
  target := h.target
  frozen := h.frozen
  run := by
    obtain ⟨h1, h2, h3, h4, -, -⟩ := h.run
    have hretry : RetrySpec.Valid {} := by norm_num [RetrySpec.Valid, IsRate]
    have hlimit : RateLimitSpec.Valid {} := by simp [RateLimitSpec.Valid]
    exact ⟨h1, h2, h3, h4, hretry, hlimit⟩
  judgeDefenses := h.judgeDefenses
  reliability := h.reliability
  errorAnalysis := h.errorAnalysis
  editableRequiresAgentLoop := h.editableRequiresAgentLoop
  liveCanaryRequiresOutcomeMetrics := h.liveCanaryRequiresOutcomeMetrics
  passHatKIsReachable := h.passHatKIsReachable
  proposerStrategyIsImplemented := h.proposerStrategyIsImplemented

theorem buildExperiment_cells (h : e.Valid) :
    buildExperiment (writeExperimentChildren db e) (cells e) = some (kept e e.createdAt) := by
  have hchildren : loadExperimentChildren (writeExperimentChildren db e) e.id =
      some ⟨e.target.guardrails, e.datasets.gates,
        loadFrozen (writeExperimentChildren db e) e.id⟩ := by
    unfold loadExperimentChildren
    rw [loadGuardrails_written, loadGates_written]
    rfl
  have hfrozen := buildFrozen_cells e (loadFrozen_written db e)
  have hvalid := kept_valid h e.createdAt
  unfold buildExperiment
  -- one field after the other, in the order in which the mapper reads them
  refine (bind_of_eq_some (buildBase_cells e) _).trans ?_
  refine (bind_of_eq_some hchildren _).trans ?_
  refine (bind_of_eq_some (decode_encode e.name) _).trans ?_
  refine (bind_of_eq_some (decode_encode e.goal) _).trans ?_
  refine (bind_of_eq_some (decode_encode e.mode) _).trans ?_
  refine (bind_of_eq_some (decode_encode e.state) _).trans ?_
  refine (bind_of_eq_some (decode_encode e.contentHash) _).trans ?_
  refine (bind_of_eq_some (buildTaxonomy_cells e) _).trans ?_
  refine (bind_of_eq_some (decode_encode e.datasets.optimization.id) _).trans ?_
  refine (bind_of_eq_some (decode_encode e.datasets.optimization.version) _).trans ?_
  refine (bind_of_eq_some (buildTarget_cells e) _).trans ?_
  refine (bind_of_eq_some (buildEditable_cells e) _).trans ?_
  refine (bind_of_eq_some (buildSearchSpace_cells e) _).trans ?_
  refine (bind_of_eq_some hfrozen _).trans ?_
  refine (bind_of_eq_some (buildProposer_cells e) _).trans ?_
  refine (bind_of_eq_some (buildRun_cells e) _).trans ?_
  refine (bind_of_eq_some (buildJudgeDefenses_cells e) _).trans ?_
  refine (bind_of_eq_some (buildReliability_cells e) _).trans ?_
  refine (bind_of_eq_some (buildDecision_cells e) _).trans ?_
  refine (bind_of_eq_some (buildErrorAnalysis_cells e) _).trans ?_
  exact if_pos hvalid

/-! ### The round trip -/

/-- The creation time that is stored after the write: that of the first insert. -/
def createdAtAfter : Option Time :=
  match storedRow db e.id with
  | none => some e.createdAt
  | some row => decode (row .createdAt)

theorem updated_cells {old : Row} {t : Time} (hid : old.hasId e.id = true)
    (ht : (decode (old .createdAt) : Option Time) = some t) :
    old.updated (cells e) = cells { e with createdAt := t } := by
  have hid' : old .id = encode e.id := eq_text_of_decode (by simpa [Row.hasId] using hid)
  have ht' : old .createdAt = encode t := eq_int_of_decode ht
  funext c
  rw [updated_apply]
  by_cases hc : c ∈ updateColumns
  · rw [if_pos hc]
    have hne := (mem_updateColumns.mp hc).2
    cases c <;> first | rfl | exact absurd rfl hne
  · rw [if_neg hc]
    have hkeys : c = .id ∨ c = .createdAt := by
      by_contra hne
      rw [not_or] at hne
      exact hc (mem_updateColumns.mpr hne)
    rcases hkeys with rfl | rfl
    · exact hid'
    · exact ht'

variable {e} in
/-- **What comes back** of a valid experiment, on first insert and on every update. -/
theorem load_upsert (h : e.Valid) : load (upsert db e) e.workspaceId e.id =
    match createdAtAfter db e with
    | none => .error ⟨⟩
    | some t => .ok (some (kept e t)) := by
  have hrows : (upsert db e).experiments = upsertRow db.experiments e.id (cells e) := by
    rw [← ofValues_experimentRowValues]
    rfl
  have hbuild :
    ∀ d, buildExperiment (upsert db e) d = buildExperiment (writeExperimentChildren db e) d :=
    fun _ => rfl
  unfold load
  rw [hrows, find_upsertRow]
  unfold createdAtAfter storedRow
  cases hold : db.experiments.find? (·.hasId e.id) with
  | none =>
    dsimp only [Option.map_none, Option.getD_none]
    rw [hbuild, buildExperiment_cells db e h]
  | some old =>
    have hid : old.hasId e.id = true := List.find?_some (p := fun row : Row => row.hasId e.id) hold
    dsimp only [Option.map_some, Option.getD_some]
    cases ht : (decode (old .createdAt) : Option Time) with
    | none =>
      have hnone : buildBase (old.updated (cells e)) = none := by
        have hcell : old.updated (cells e) .createdAt = old .createdAt := by
          rw [updated_apply, if_neg (by decide)]
        unfold buildBase
        rw [hcell, ht]
        simp
      rw [hbuild]
      unfold buildExperiment
      rw [hnone]
      rfl
    | some t =>
      have hvalid : ({ e with createdAt := t } : Experiment).Valid := by
        obtain ⟨h1, h2, h3, h4, h5, h6, h7, h8, h9, h10, h11, h12, h13, h14⟩ := h
        exact ⟨h1, h2, h3, h4, h5, h6, h7, h8, h9, h10, h11, h12, h13, h14⟩
      rw [updated_cells e hid ht, hbuild]
      have := buildExperiment_cells db { e with createdAt := t } hvalid
      have hchildren : writeExperimentChildren db { e with createdAt := t } =
          writeExperimentChildren db e := rfl
      rw [hchildren] at this
      rw [this]
      rfl

variable {e} in
/-- **A valid experiment comes back as it was written if and only if** it has no agents axis, the
default retries and rate limits, and the creation time already stored, if a row is. -/
theorem load_upsert_iff (h : e.Valid) :
    load (upsert db e) e.workspaceId e.id = .ok (some e) ↔
      e.searchSpace.agents = [] ∧ e.run.retry = {} ∧ e.run.rateLimit = {} ∧
        ∀ row, storedRow db e.id = some row →
          (decode (row .createdAt) : Option Time) = some e.createdAt := by
  rw [load_upsert db h]
  unfold createdAtAfter
  cases hrow : storedRow db e.id with
  | none => simp [kept_eq_iff]
  | some row =>
    cases ht : (decode (row .createdAt) : Option Time) with
    | none => simp [ht]
    | some t => simp [kept_eq_iff, ht]

/-! ### One experiment -/

/-- An experiment with two guardrails. -/
def guarded : Experiment :=
  { Experiment.minimal with target.guardrails := [⟨"cost", .le, 1⟩, ⟨"latency", .le, 2⟩] }

/-- Nothing is lost on first insert, nor on an update that drops the guardrails. -/
theorem load_upsert_guarded :
    load (upsert {} guarded) "ws_1" "exp_1" = .ok (some guarded) ∧
      load (upsert (upsert {} guarded) Experiment.minimal) "ws_1" "exp_1" =
        .ok (some Experiment.minimal) := by
  have hvalid : guarded.Valid := by decide +kernel
  have hstored : storedRow (upsert {} guarded) "exp_1" = some (cells guarded) := by
    show List.find? _ [ofValues _] = _
    rw [ofValues_experimentRowValues]
    exact List.find?_cons_of_pos (cells_hasId guarded)
  refine ⟨(load_upsert_iff {} hvalid).mpr ⟨rfl, rfl, rfl, by simp [storedRow]⟩, ?_⟩
  refine (load_upsert_iff (upsert {} guarded) Experiment.minimal_valid).mpr
    ⟨rfl, rfl, rfl, fun row hrow => ?_⟩
  obtain rfl : cells guarded = row := Option.some.inj (hstored.symm.trans hrow)
  rfl

/-- An experiment that compares two agents and turns retries off comes back without the agents and
with two retries. -/
theorem binding_axis_lost :
    let e : Experiment := { Experiment.minimal with
      searchSpace.agents := [[("type", .str "http")], [("type", .str "cli")]]
      run.retry := { maxRetries := 0 } }
    e.Valid ∧ ∃ e', load (upsert {} e) "ws_1" "exp_1" = .ok (some e') ∧
      e'.searchSpace.agents = [] ∧ e'.run.retry.maxRetries = 2 ∧ e' ≠ e := by
  intro e
  have hvalid : e.Valid := by decide +kernel
  refine ⟨hvalid, kept e 0, load_upsert {} hvalid, rfl, rfl, fun h => ?_⟩
  have := ((kept_eq_iff e 0).mp h).1
  simp [e] at this

end Selfevals.Storage.ExperimentRoundTrip
