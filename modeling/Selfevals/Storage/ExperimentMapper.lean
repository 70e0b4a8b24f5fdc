import Mathlib.Data.Prod.Lex
import Mathlib.Data.String.Basic
import Selfevals.Schemas.Experiments
import Selfevals.Storage.Columns

/-!
# The experiment mapper

`upsert` writes an experiment into the row of its id, one column for each field it knows, and
replaces its rows in the three child tables; `load` reads them back and rebuilds the experiment,
which the model then validates. The columns stand in the order of `_ALL_COLUMNS`, the values of
`rowValues` in that of `experiment_row_values`.
-/

namespace Selfevals.Storage.ExperimentMapper

open Lib.JsonValue Lib.Sql Schemas.Base Schemas.Enums Schemas.Experiments Storage.Columns
open SqlCodec (encode decode)

/-! ### Columns -/

/-- The columns of `experiments`. -/
inductive Column
  | id | workspaceId | version | createdAt | updatedAt | deletedAt
  | name | goal | mode | state | contentHash
  | taxonomyTargetFeatures | taxonomyTargetLevels | taxonomyDatasetTypes
  | datasetOptimizationId | datasetOptimizationVersion
  | targetPrimaryName | targetPrimaryOperator | targetPrimaryValue | targetPrimaryGrader
  | editablePrompt | editableModelParams | editableModelChoice | editableToolDescriptions
  | editableToolCode | editableWorkflowGraph | editableSkills | editableDataset | editableGraders
  | searchSpaceModelParams | searchSpacePromptVariables | searchSpaceToolParams
  | frozenFleetId | frozenFleetVersion | frozenRiskRegistryId | frozenRiskRegistryVersion
  | frozenFeatureRegistryId | frozenFeatureRegistryVersion
  | proposerStrategy | proposerAllowSearchSpaceExpansion | proposerParameters
  | runSandbox | runRuntime | runSampleStrategy | runMaxIterations | runRepetitionsPerCase
  | runParallelism | runSeed | runPersistTraces
  | runConvergenceMinDelta | runConvergencePatience | runConvergenceEarlyStop
  | jdHoldoutVisibleToProposer | jdOverfitPenaltyMaxDelta
  | jdPanelPresent | jdPanelMembers | jdPanelConsensusRule
  | jdCfEnabled | jdCfGenerationStrategy | jdCfPairsPerCase | jdCfMaxScoreVariance
  | jdHscEnabled | jdHscSampleRate | jdHscTriggerOnJump
  | jdAdversarialDatasetId | jdAdversarialDatasetVersion
  | jdOutcomeMetricsPresent | jdOutcomeMetrics
  | reliabilityRepetitionsPerCase | reliabilityMetrics
  | decisionIfRegressionFails | decisionIfGuardrailFails | decisionIfJudgeHumanDisagree
  | eaEnabled | eaTaxonomy | eaTriggerWhen | eaTriggerThreshold | eaScope
deriving DecidableEq, Repr

open Column

/-- `SHARED_COLUMNS`. -/
def sharedColumns : List Column := [.id, workspaceId, version, createdAt, updatedAt, deletedAt]

/-- `_EXTRA_COLUMNS`. -/
def extraColumns : List Column :=
  [name, goal, mode, state, contentHash,
    taxonomyTargetFeatures, taxonomyTargetLevels, taxonomyDatasetTypes,
    datasetOptimizationId, datasetOptimizationVersion,
    targetPrimaryName, targetPrimaryOperator, targetPrimaryValue, targetPrimaryGrader,
    editablePrompt, editableModelParams, editableModelChoice, editableToolDescriptions,
    editableToolCode, editableWorkflowGraph, editableSkills, editableDataset, editableGraders,
    searchSpaceModelParams, searchSpacePromptVariables, searchSpaceToolParams,
    frozenFleetId, frozenFleetVersion, frozenRiskRegistryId, frozenRiskRegistryVersion,
    frozenFeatureRegistryId, frozenFeatureRegistryVersion,
    proposerStrategy, proposerAllowSearchSpaceExpansion, proposerParameters,
    runSandbox, runRuntime, runSampleStrategy, runMaxIterations, runRepetitionsPerCase,
    runParallelism, runSeed, runPersistTraces,
    runConvergenceMinDelta, runConvergencePatience, runConvergenceEarlyStop,
    jdHoldoutVisibleToProposer, jdOverfitPenaltyMaxDelta,
    jdPanelPresent, jdPanelMembers, jdPanelConsensusRule,
    jdCfEnabled, jdCfGenerationStrategy, jdCfPairsPerCase, jdCfMaxScoreVariance,
    jdHscEnabled, jdHscSampleRate, jdHscTriggerOnJump,
    jdAdversarialDatasetId, jdAdversarialDatasetVersion,
    jdOutcomeMetricsPresent, jdOutcomeMetrics,
    reliabilityRepetitionsPerCase, reliabilityMetrics,
    decisionIfRegressionFails, decisionIfGuardrailFails, decisionIfJudgeHumanDisagree,
    eaEnabled, eaTaxonomy, eaTriggerWhen, eaTriggerThreshold, eaScope]

def allColumns : List Column := sharedColumns ++ extraColumns

/-- The columns that `ON CONFLICT` updates. -/
def updateColumns : List Column := allColumns.filter fun c => c ≠ .id && c ≠ .createdAt

/-- A row of `experiments`. -/
abbrev Row := Column → SqlValue

/-- The row that `INSERT` makes of the values. -/
def ofValues (values : List SqlValue) : Row := fun c =>
  ((allColumns.zip values).lookup c).getD .null

/-! ### Child tables -/

structure GuardrailRow where
  experimentId : String
  position : ℕ
  name : String
  operator : String
  value : ℚ
deriving DecidableEq, Repr

structure DatasetGateRow where
  experimentId : String
  position : ℕ
  datasetId : String
  datasetVersion : Option ℕ
deriving DecidableEq, Repr

structure FrozenRefRow where
  experimentId : String
  refKind : String
  position : ℕ
  refId : String
  refVersion : Option ℕ
deriving DecidableEq, Repr

/-- The four tables of the mapper. -/
structure Tables where
  experiments : List Row := []
  experimentGuardrails : List GuardrailRow := []
  experimentDatasetGates : List DatasetGateRow := []
  experimentFrozenRefs : List FrozenRefRow := []

/-! ### `experiment_write.py` -/

/-- `_ref_pair`. -/
def refPair (ref : Option EntityRef) : Option String × Option ℕ :=
  match ref with
  | none => (none, none)
  | some ref => (some ref.id, ref.version)

/-- The values of a row of `experiments`. -/
def experimentRowValues (shared : List SqlValue) (e : Experiment) : List SqlValue :=
  let risk := refPair e.frozen.riskRegistry
  let feat := refPair e.frozen.featureRegistry
  let adv := refPair e.judgeDefenses.adversarialDataset
  let panel := e.judgeDefenses.panel
  let cf := e.judgeDefenses.counterfactuals
  let hsc := e.judgeDefenses.humanSpotCheck
  let om := e.judgeDefenses.outcomeMetrics
  shared ++
  [encode e.name, encode e.goal, encode e.mode, encode e.state, encode e.contentHash,
    encode e.taxonomy.targetFeatures, encode e.taxonomy.targetLevels,
    encode e.taxonomy.datasetTypes,
    encode e.datasets.optimization.id, encode e.datasets.optimization.version,
    encode e.target.primary.name, encode e.target.primary.operator, encode e.target.primary.value,
    encode e.target.primaryGrader,
    encode e.editable.prompt, encode e.editable.modelParams, encode e.editable.modelChoice,
    encode e.editable.toolDescriptions, encode e.editable.toolCode, encode e.editable.workflowGraph,
    encode e.editable.skills, encode e.editable.dataset, encode e.editable.graders,
    encode e.searchSpace.modelParams, encode e.searchSpace.promptVariables,
    encode e.searchSpace.toolParams,
    encode e.frozen.fleet.id, encode e.frozen.fleet.version,
    encode risk.1, encode risk.2, encode feat.1, encode feat.2,
    encode e.proposer.strategy, encode e.proposer.allowSearchSpaceExpansion,
    encode e.proposer.parameters,
    encode e.run.sandbox, encode e.run.runtime, encode e.run.sampleStrategy,
    encode e.run.maxIterations, encode e.run.repetitionsPerCase, encode e.run.parallelism,
    encode e.run.seed, encode e.run.persistTraces,
    encode e.run.convergence.minDelta, encode e.run.convergence.patience,
    encode e.run.convergence.earlyStop,
    encode e.judgeDefenses.holdoutVisibleToProposer, encode e.judgeDefenses.overfitPenaltyMaxDelta,
    encode panel.isSome, encode ((panel.map (·.panelMembers)).getD []),
    encode ((panel.map (·.consensusRule)).getD .majority),
    encode cf.enabled, encode cf.generationStrategy, encode cf.pairsPerCase,
    encode cf.maxScoreVariance,
    encode hsc.enabled, encode hsc.sampleRate, encode hsc.triggerOnJump,
    encode adv.1, encode adv.2,
    encode om.isSome, encode ((om.map (·.metrics)).getD []),
    encode e.reliability.repetitionsPerCase, encode e.reliability.metrics,
    encode e.decision.ifRegressionFails, encode e.decision.ifGuardrailFails,
    encode e.decision.ifJudgeHumanDisagree,
    encode e.errorAnalysis.enabled, encode e.errorAnalysis.taxonomy,
    encode e.errorAnalysis.trigger.when, encode e.errorAnalysis.trigger.threshold,
    encode e.errorAnalysis.scope]

/-- The rows of the guardrails. -/
def guardrailRows (e : Experiment) : List GuardrailRow :=
  e.target.guardrails.zipIdx.map fun (g, pos) =>
    ⟨e.id, pos, g.name, Coded.value g.operator, g.value⟩

/-- The rows of the gates. -/
def datasetGateRows (e : Experiment) : List DatasetGateRow :=
  e.datasets.gates.zipIdx.map fun (ref, pos) => ⟨e.id, pos, ref.id, ref.version⟩

/-- The rows of frozen references. -/
def frozenRefRows (experimentId kind : String) (refs : List EntityRef) : List FrozenRefRow :=
  refs.zipIdx.map fun (ref, pos) => ⟨experimentId, kind, pos, ref.id, ref.version⟩

/-- The child rows of the experiment are deleted and written anew. -/
def writeExperimentChildren (db : Tables) (e : Experiment) : Tables :=
  { db with
    experimentGuardrails :=
      db.experimentGuardrails.filter (·.experimentId != e.id) ++ guardrailRows e
    experimentDatasetGates :=
      db.experimentDatasetGates.filter (·.experimentId != e.id) ++ datasetGateRows e
    experimentFrozenRefs :=
      db.experimentFrozenRefs.filter (·.experimentId != e.id) ++
        (frozenRefRows e.id "agent" e.frozen.agents ++ frozenRefRows e.id "tool" e.frozen.tools ++
          frozenRefRows e.id "dataset" e.frozen.datasets ++
          frozenRefRows e.id "grader" e.frozen.graders) }

def Row.hasId (row : Row) (experimentId : String) : Bool := decode (row .id) == some experimentId

def Row.hasWorkspace (row : Row) (workspace : String) : Bool :=
  decode (row workspaceId) == some workspace

/-- The row after `DO UPDATE SET`. -/
def Row.updated (row new : Row) : Row := fun c => if c ∈ updateColumns then new c else row c

/-- `INSERT … ON CONFLICT (id) DO UPDATE`. -/
def upsertRow (rows : List Row) (experimentId : String) (new : Row) : List Row :=
  if rows.any (·.hasId experimentId) then
    rows.map fun row => if row.hasId experimentId then row.updated new else row
  else rows ++ [new]

/-- The writes of `put_entity`. -/
def upsert (db : Tables) (e : Experiment) : Tables :=
  let new := ofValues (experimentRowValues (sharedValues e.toBaseEntity) e)
  writeExperimentChildren { db with experiments := upsertRow db.experiments e.id new } e

/-! ### `experiment_build.py` -/

/-- The rows below an experiment. -/
structure Children where
  guardrails : List MetricTarget
  gates : List EntityRef
  frozenByKind : String → List EntityRef

/-- The guardrails that the rows hold. -/
def loadGuardrails (db : Tables) (eid : String) : Option (List MetricTarget) :=
  (orderBy (·.position) (db.experimentGuardrails.filter (·.experimentId == eid))).mapM fun row => do
    return { name := row.name, operator := ← Coded.ofValue row.operator, value := row.value }

/-- The gates that the rows hold. -/
def loadGates (db : Tables) (eid : String) : List EntityRef :=
  (orderBy (·.position) (db.experimentDatasetGates.filter (·.experimentId == eid))).map fun row =>
    ⟨row.datasetId, row.datasetVersion⟩

/-- The frozen references of one kind, in the order of the query, which sorts by kind and position.
-/
def loadFrozen (db : Tables) (eid kind : String) : List EntityRef :=
  ((orderBy (fun row => toLex (row.refKind, row.position))
    (db.experimentFrozenRefs.filter (·.experimentId == eid))).filter (·.refKind == kind)).map
      fun row => ⟨row.refId, row.refVersion⟩

/-- `_load_experiment_children`. -/
def loadExperimentChildren (db : Tables) (eid : String) : Option Children := do
  return {
    guardrails := ← loadGuardrails db eid
    gates := loadGates db eid
    frozenByKind := loadFrozen db eid }

/-- A reference kept in two columns, absent where the id is `NULL`. -/
def buildRef (idCell versionCell : SqlValue) : Option (Option EntityRef) := do
  let refId : Option String ← decode idCell
  match refId with
  | none => return none
  | some refId => return some ⟨refId, ← decode versionCell⟩

/-- The taxonomy that a row holds. -/
def buildTaxonomy (d : Row) : Option ExperimentTaxonomy := do
  return {
    targetFeatures := ← decode (d taxonomyTargetFeatures)
    targetLevels := ← decode (d taxonomyTargetLevels)
    datasetTypes := ← decode (d taxonomyDatasetTypes) }

/-- The target that a row holds. -/
def buildTarget (d : Row) (guardrails : List MetricTarget) : Option TargetSpec := do
  return {
    primary := {
      name := ← decode (d targetPrimaryName)
      operator := ← decode (d targetPrimaryOperator)
      value := ← decode (d targetPrimaryValue) }
    guardrails := guardrails
    primaryGrader := ← decode (d targetPrimaryGrader) }

/-- The contract that a row holds. -/
def buildEditable (d : Row) : Option EditableContract := do
  return {
    prompt := ← decode (d editablePrompt)
    modelParams := ← decode (d editableModelParams)
    modelChoice := ← decode (d editableModelChoice)
    toolDescriptions := ← decode (d editableToolDescriptions)
    toolCode := ← decode (d editableToolCode)
    workflowGraph := ← decode (d editableWorkflowGraph)
    skills := ← decode (d editableSkills)
    dataset := ← decode (d editableDataset)
    graders := ← decode (d editableGraders) }

/-- `SearchSpace(...)`: no column holds `agents`, which takes its default. -/
def buildSearchSpace (d : Row) : Option SearchSpace := do
  return {
    modelParams := ← decode (d searchSpaceModelParams)
    promptVariables := ← decode (d searchSpacePromptVariables)
    toolParams := ← decode (d searchSpaceToolParams) }

/-- `_build_frozen`. -/
def buildFrozen (d : Row) (frozenByKind : String → List EntityRef) : Option FrozenSnapshot := do
  let risk ← buildRef (d frozenRiskRegistryId) (d frozenRiskRegistryVersion)
  let feat ← buildRef (d frozenFeatureRegistryId) (d frozenFeatureRegistryVersion)
  return {
    fleet := ⟨← decode (d frozenFleetId), ← decode (d frozenFleetVersion)⟩
    agents := frozenByKind "agent"
    tools := frozenByKind "tool"
    datasets := frozenByKind "dataset"
    graders := frozenByKind "grader"
    riskRegistry := risk
    featureRegistry := feat }

/-- The proposer that a row holds. -/
def buildProposer (d : Row) : Option ProposerSpec := do
  return {
    strategy := ← decode (d proposerStrategy)
    allowSearchSpaceExpansion := ← decode (d proposerAllowSearchSpaceExpansion)
    parameters := ← decode (d proposerParameters) }

/-- `RunSpec(...)`: no column holds `retry` or `rate_limit`, which take their defaults. -/
def buildRun (d : Row) : Option RunSpec := do
  return {
    sandbox := ← decode (d runSandbox)
    runtime := ← decode (d runRuntime)
    sampleStrategy := ← decode (d runSampleStrategy)
    maxIterations := ← decode (d runMaxIterations)
    repetitionsPerCase := ← decode (d runRepetitionsPerCase)
    parallelism := ← decode (d runParallelism)
    seed := ← decode (d runSeed)
    persistTraces := ← decode (d runPersistTraces)
    convergence := {
      minDelta := ← decode (d runConvergenceMinDelta)
      patience := ← decode (d runConvergencePatience)
      earlyStop := ← decode (d runConvergenceEarlyStop) } }

/-- The panel that a row holds. -/
def buildPanel (d : Row) : Option (Option JudgePanel) := do
  let present : Bool ← decode (d jdPanelPresent)
  if present then
    return some {
      panelMembers := ← decode (d jdPanelMembers)
      consensusRule := ← decode (d jdPanelConsensusRule) }
  else return none

def buildOutcomeMetrics (d : Row) : Option (Option OutcomeMetricsSpec) := do
  let present : Bool ← decode (d jdOutcomeMetricsPresent)
  if present then
    return some { metrics := ← decode (d jdOutcomeMetrics) }
  else return none

/-- `_build_judge_defenses`. -/
def buildJudgeDefenses (d : Row) : Option JudgeDefenses := do
  let panel ← buildPanel d
  let outcomeMetrics ← buildOutcomeMetrics d
  let adv ← buildRef (d jdAdversarialDatasetId) (d jdAdversarialDatasetVersion)
  return {
    holdoutVisibleToProposer := ← decode (d jdHoldoutVisibleToProposer)
    overfitPenaltyMaxDelta := ← decode (d jdOverfitPenaltyMaxDelta)
    panel := panel
    counterfactuals := {
      enabled := ← decode (d jdCfEnabled)
      generationStrategy := ← decode (d jdCfGenerationStrategy)
      pairsPerCase := ← decode (d jdCfPairsPerCase)
      maxScoreVariance := ← decode (d jdCfMaxScoreVariance) }
    humanSpotCheck := {
      enabled := ← decode (d jdHscEnabled)
      sampleRate := ← decode (d jdHscSampleRate)
      triggerOnJump := ← decode (d jdHscTriggerOnJump) }
    adversarialDataset := adv
    outcomeMetrics := outcomeMetrics }

def buildReliability (d : Row) : Option ReliabilitySpec := do
  return {
    repetitionsPerCase := ← decode (d reliabilityRepetitionsPerCase)
    metrics := ← decode (d reliabilityMetrics) }

/-- The decision policy that a row holds. -/
def buildDecision (d : Row) : Option DecisionPolicy := do
  return {
    ifRegressionFails := ← decode (d decisionIfRegressionFails)
    ifGuardrailFails := ← decode (d decisionIfGuardrailFails)
    ifJudgeHumanDisagree := ← decode (d decisionIfJudgeHumanDisagree) }

def buildErrorAnalysis (d : Row) : Option ErrorAnalysisSpec := do
  return {
    enabled := ← decode (d eaEnabled)
    taxonomy := ← decode (d eaTaxonomy)
    trigger := { when := ← decode (d eaTriggerWhen), threshold := ← decode (d eaTriggerThreshold) }
    scope := ← decode (d eaScope) }

/-- The fields that all entities have. -/
def buildBase (d : Row) : Option BaseEntity := do
  return {
    id := ← decode (d .id)
    workspaceId := ← decode (d workspaceId)
    version := ← decode (d version)
    createdAt := ← decode (d createdAt)
    updatedAt := ← decode (d updatedAt)
    deletedAt := ← decode (d deletedAt) }

/-- `build_experiment`; `none` where the model raises `ValidationError`. -/
def buildExperiment (db : Tables) (d : Row) : Option Experiment := do
  let base ← buildBase d
  let children ← loadExperimentChildren db base.id
  let e : Experiment := {
    toBaseEntity := base
    name := ← decode (d name)
    goal := ← decode (d goal)
    mode := ← decode (d mode)
    state := ← decode (d state)
    contentHash := ← decode (d contentHash)
    taxonomy := ← buildTaxonomy d
    datasets := {
      optimization := ⟨← decode (d datasetOptimizationId), ← decode (d datasetOptimizationVersion)⟩
      gates := children.gates }
    target := ← buildTarget d children.guardrails
    editable := ← buildEditable d
    searchSpace := ← buildSearchSpace d
    frozen := ← buildFrozen d children.frozenByKind
    proposer := ← buildProposer d
    run := ← buildRun d
    judgeDefenses := ← buildJudgeDefenses d
    reliability := ← buildReliability d
    decision := ← buildDecision d
    errorAnalysis := ← buildErrorAnalysis d }
  if e.Valid then return e else none

/-- The row and its children do not make a valid experiment. -/
structure ValidationError where

/-- `ExperimentMapper.load`. -/
def load (db : Tables) (workspace experimentId : String) :
    Except ValidationError (Option Experiment) :=
  match db.experiments.find? fun row => row.hasId experimentId && row.hasWorkspace workspace with
  | none => .ok none
  | some row =>
    match buildExperiment db row with
    | none => .error ⟨⟩
    | some e => .ok (some e)

end Selfevals.Storage.ExperimentMapper
