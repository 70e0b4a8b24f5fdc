import Selfevals.Repo.Loader.Models
import Selfevals.Schemas.EvalCases

/-!
# The model classes of a spec

`Experiment` and `EvalCase` as they are validated and dumped, from their fields. Where pydantic
converts what it reads (numbers, flags, moments) it is a parameter, which reads what it writes.

* `experiment_comes_back`, `evalCase_comes_back` : when a valid one comes back from its dump.
-/

namespace Selfevals.Repo.Loader.ModelClasses

open Lib.JsonValue Lib.Records Schemas.Base Schemas.Enums Schemas.Experiments Schemas.EvalCases
  Repo.Loader.Models

/-- What pydantic reads as a value of a scalar type, and how it writes a `datetime`. -/
class Pydantic where
  int : Json → Option ℤ
  float : Json → Option ℚ
  bool : Json → Option Bool
  datetime : Json → Option DateTime
  isoformat : DateTime → String
  /-- What a free-form field holds, as JSON: a value or a key that JSON lacks, as a YAML file may
  have, is changed. -/
  jsonable : Object → Object
  /-- The text of a `ValidationError`. -/
  message : Object → String
  int_int : ∀ n, int (.int n) = some n
  float_float : ∀ q, float (.float q) = some q
  bool_bool : ∀ b, bool (.bool b) = some b
  datetime_isoformat : ∀ t, datetime (.str (isoformat t)) = some t

variable [Pydantic]

/-! ### Scalars -/

instance : Document ℕ where
  dump n := .int n
  read j := (Pydantic.int j).bind fun n => if 0 ≤ n then some n.toNat else none
  read_dump n := by simp [Pydantic.int_int]
  dump_ne_null _ := nofun

instance : Document ℚ := ⟨.float, Pydantic.float, Pydantic.float_float, fun _ => nofun⟩

instance : Document Bool := ⟨.bool, Pydantic.bool, Pydantic.bool_bool, fun _ => nofun⟩

instance : Document DateTime :=
  ⟨fun t => .str (Pydantic.isoformat t), Pydantic.datetime, Pydantic.datetime_isoformat,
    fun _ => nofun⟩

omit [Pydantic] in
instance {α : Type} [Coded α] : Document α where
  dump a := .str (Coded.value a)
  read j := j.asStr.bind Coded.ofValue
  read_dump a := Coded.ofValue_value a
  dump_ne_null _ := nofun

/-- A moment at UTC; `_utc_only` refuses one without an offset. -/
@[reducible] def moment : Document Time where
  dump t := .str (Pydantic.isoformat ⟨t, some 0⟩)
  read j := (Pydantic.datetime j).bind fun t => t.offset.map (t.clock - ·)
  read_dump t := by simp [Pydantic.datetime_isoformat]
  dump_ne_null _ := nofun

section Moments
attribute [local instance] moment

/-- The fields of `BaseEntity`; `now` is `utc_now()`. -/
def baseFields {σ β : Type} (now : Time) (base : σ → BaseEntity) (make : BaseEntity → β) :
    Fields σ β :=
  Fields.pure (fun id workspaceId version createdAt updatedAt deletedAt =>
      make ⟨id, workspaceId, version, createdAt, updatedAt, deletedAt⟩)
    |>.req "id" (base · |>.id) |>.req "workspace_id" (base · |>.workspaceId)
    |>.dft "version" (base · |>.version) 1 |>.dft "created_at" (base · |>.createdAt) now
    |>.dft "updated_at" (base · |>.updatedAt) now |>.opt "deleted_at" (base · |>.deletedAt)

end Moments

instance : Document ℤ := ⟨.int, Pydantic.int, Pydantic.int_int, fun _ => nofun⟩

/-! ### `schemas/experiment.py` -/

instance : Document EntityRef :=
  (Fields.pure EntityRef.mk |>.req "id" (·.id) |>.opt "version" (·.version)).document

instance : Document MetricTarget :=
  (Fields.pure MetricTarget.mk |>.req "name" (·.name) |>.req "operator" (·.operator)
    |>.req "value" (·.value)).document

instance : Document TargetSpec :=
  (Fields.pure TargetSpec.mk |>.req "primary" (·.primary) |>.dft "guardrails" (·.guardrails) []
    |>.opt "primary_grader" (·.primaryGrader)).document

instance : Document EditableContract :=
  (Fields.pure EditableContract.mk |>.dft "prompt" (·.prompt) true
    |>.dft "model_params" (·.modelParams) true |>.dft "model_choice" (·.modelChoice) false
    |>.dft "tool_descriptions" (·.toolDescriptions) false |>.dft "tool_code" (·.toolCode) false
    |>.dft "workflow_graph" (·.workflowGraph) false |>.dft "skills" (·.skills) false
    |>.dft "dataset" (·.dataset) false |>.dft "graders" (·.graders) false).document

instance : Document SearchSpace :=
  (Fields.pure SearchSpace.mk |>.dft "model_params" (·.modelParams) []
    |>.dft "prompt_variables" (·.promptVariables) [] |>.dft "tool_params" (·.toolParams) []
    |>.dft "agents" (·.agents) []).document

instance : Document FrozenSnapshot :=
  (Fields.pure FrozenSnapshot.mk |>.req "fleet" (·.fleet) |>.req "agents" (·.agents)
    |>.dft "tools" (·.tools) [] |>.req "datasets" (·.datasets) |>.dft "graders" (·.graders) []
    |>.opt "risk_registry" (·.riskRegistry) |>.opt "feature_registry" (·.featureRegistry)).document

instance : Document ProposerSpec :=
  (Fields.pure ProposerSpec.mk |>.req "strategy" (·.strategy)
    |>.dft "allow_search_space_expansion" (·.allowSearchSpaceExpansion) false
    |>.dft "parameters" (·.parameters) []).document

instance : Document ConvergenceSpec :=
  (Fields.pure ConvergenceSpec.mk |>.dft "min_delta" (·.minDelta) (5 / 1000)
    |>.dft "patience" (·.patience) 3 |>.opt "early_stop" (·.earlyStop)).document

instance : Document DatasetUsage :=
  (Fields.pure DatasetUsage.mk |>.req "optimization" (·.optimization)
    |>.dft "gates" (·.gates) []).document

instance : Document RetrySpec :=
  (Fields.pure RetrySpec.mk |>.dft "max_retries" (·.maxRetries) 2
    |>.dft "base_delay_seconds" (·.baseDelaySeconds) (1 / 2)
    |>.dft "max_delay_seconds" (·.maxDelaySeconds) 30 |>.dft "multiplier" (·.multiplier) 2
    |>.dft "jitter" (·.jitter) (1 / 2)).document

instance : Document RateLimitSpec :=
  (Fields.pure RateLimitSpec.mk |>.opt "requests_per_minute" (·.requestsPerMinute)
    |>.opt "burst" (·.burst)).document

instance : Document RunSpec :=
  (Fields.pure RunSpec.mk |>.req "sandbox" (·.sandbox) |>.dft "runtime" (·.runtime) .offline
    |>.dft "sample_strategy" (·.sampleStrategy) .full |>.dft "max_iterations" (·.maxIterations) 20
    |>.dft "repetitions_per_case" (·.repetitionsPerCase) 1 |>.dft "parallelism" (·.parallelism) 8
    |>.dft "convergence" (·.convergence) {} |>.dft "retry" (·.retry) {}
    |>.dft "rate_limit" (·.rateLimit) {} |>.opt "seed" (·.seed)
    |>.dft "persist_traces" (·.persistTraces) .failed).document

instance : Document JudgePanel :=
  (Fields.pure JudgePanel.mk |>.dft "members" (·.panelMembers) []
    |>.dft "consensus_rule" (·.consensusRule) .majority).document

instance : Document CounterfactualSpec :=
  (Fields.pure CounterfactualSpec.mk |>.dft "enabled" (·.enabled) false
    |>.dft "generation_strategy" (·.generationStrategy) .paraphrase
    |>.dft "pairs_per_case" (·.pairsPerCase) 3
    |>.dft "max_score_variance" (·.maxScoreVariance) (5 / 100)).document

instance : Document HumanSpotCheckSpec :=
  (Fields.pure HumanSpotCheckSpec.mk |>.dft "enabled" (·.enabled) false
    |>.dft "sample_rate" (·.sampleRate) (5 / 100)
    |>.dft "trigger_on_jump" (·.triggerOnJump) (1 / 10)).document

instance : Document OutcomeMetricsSpec :=
  (Fields.pure OutcomeMetricsSpec.mk |>.req "metrics" (·.metrics)).document

instance : Document JudgeDefenses :=
  (Fields.pure JudgeDefenses.mk
    |>.dft "holdout_visible_to_proposer" (·.holdoutVisibleToProposer) false
    |>.dft "overfit_penalty_max_delta" (·.overfitPenaltyMaxDelta) (5 / 100)
    |>.opt "panel" (·.panel) |>.dft "counterfactuals" (·.counterfactuals) {}
    |>.dft "human_spot_check" (·.humanSpotCheck) {}
    |>.opt "adversarial_dataset" (·.adversarialDataset)
    |>.opt "outcome_metrics" (·.outcomeMetrics)).document

instance : Document ReliabilitySpec :=
  (Fields.pure ReliabilitySpec.mk |>.dft "repetitions_per_case" (·.repetitionsPerCase) 1
    |>.dft "metrics" (·.metrics) []).document

instance : Document DecisionPolicy :=
  (Fields.pure DecisionPolicy.mk |>.dft "if_regression_fails" (·.ifRegressionFails) .reject
    |>.dft "if_guardrail_fails" (·.ifGuardrailFails) .requireTradeoffReview
    |>.dft "if_judge_human_disagree" (·.ifJudgeHumanDisagree) .escalateToCalibration).document

instance : Document AnalysisTriggerSpec :=
  (Fields.pure AnalysisTriggerSpec.mk |>.dft "when" (·.when) .failRateAbove
    |>.dft "threshold" (·.threshold) (1 / 10)).document

instance : Document ErrorAnalysisSpec :=
  (Fields.pure ErrorAnalysisSpec.mk |>.dft "enabled" (·.enabled) false
    |>.dft "taxonomy" (·.taxonomy) .workspace |>.dft "trigger" (·.trigger) {}
    |>.dft "scope" (·.scope) .failedOnly).document

instance : Document ExperimentTaxonomy :=
  (Fields.pure ExperimentTaxonomy.mk |>.req "target_features" (·.targetFeatures)
    |>.dft "target_levels" (·.targetLevels) [] |>.req "dataset_types" (·.datasetTypes)).document

/-- The fields of `Experiment`. -/
def experimentFields (now : Time) : Fields Experiment Experiment :=
  baseFields now (·.toBaseEntity) Experiment.mk
    |>.req "name" (·.name) |>.req "goal" (·.goal) |>.req "mode" (·.mode)
    |>.req "taxonomy" (·.taxonomy) |>.req "datasets" (·.datasets) |>.req "target" (·.target)
    |>.dft "editable" (·.editable) {} |>.dft "search_space" (·.searchSpace) {}
    |>.req "frozen" (·.frozen) |>.req "proposer" (·.proposer) |>.req "run" (·.run)
    |>.dft "judge_defenses" (·.judgeDefenses) {} |>.dft "reliability" (·.reliability) {}
    |>.dft "decision" (·.decision) {} |>.dft "error_analysis" (·.errorAnalysis) {}
    |>.dft "state" (·.state) .draft |>.opt "content_hash" (·.contentHash)

/-! ### `schemas/eval_case.py` -/

instance : Document FeatureTag :=
  (Fields.pure FeatureTag.mk |>.req "primary" (·.primary)
    |>.dft "secondary" (·.secondary) []).document

instance : Document SourceInfo :=
  (Fields.pure SourceInfo.mk |>.req "type" (·.type) |>.opt "failure_type" (·.failureType)
    |>.opt "failure_id" (·.failureId) |>.opt "parent_case_id" (·.parentCaseId)).document

instance : Document RiskProfile :=
  (Fields.pure RiskProfile.mk |>.req "overall" (·.overall) |>.opt "user_trust" (·.userTrust)
    |>.opt "privacy" (·.privacy) |>.opt "reversibility" (·.reversibility)
    |>.opt "safety" (·.safety) |>.opt "cost" (·.cost)).document

instance : Document GroundTruthSpec :=
  (Fields.pure GroundTruthSpec.mk |>.req "methods" (·.methods)).document

instance : Document CaseTaxonomy :=
  (Fields.pure CaseTaxonomy.mk |>.req "level" (·.level) |>.req "feature" (·.feature)
    |>.req "source" (·.source) |>.req "ground_truth" (·.groundTruth)
    |>.dft "runtime" (·.runtime) .offline |>.req "dataset_type" (·.datasetType)
    |>.opt "risk" (·.risk)).document

instance : Document Expected :=
  (Fields.pure Expected.mk |>.opt "outcome" (·.outcome) |>.dft "must_include" (·.mustInclude) []
    |>.opt "min_recall" (·.minRecall) |>.dft "must_not_include" (·.mustNotInclude) []
    |>.dft "required_tools" (·.requiredTools) [] |>.dft "forbidden_tools" (·.forbiddenTools) []
    |>.dft "required_citations" (·.requiredCitations) [] |>.dft "policy_flags" (·.policyFlags) []
    |>.opt "structured_output" (·.structuredOutput) |>.opt "output_schema" (·.outputSchema)
    |>.dft "required_sections" (·.requiredSections) [] |>.dft "aliases" (·.aliases) ⟨[]⟩).document

instance : Document Blocking :=
  (Fields.pure Blocking.mk |>.dft "merge" (·.merge) false
    |>.dft "release" (·.release) false).document

instance : Document CaseMetadata :=
  (Fields.pure CaseMetadata.mk |>.opt "owner" (·.owner) |>.dft "tags" (·.tags) []
    |>.dft "pii_status" (·.piiStatus) .raw |>.opt "approved_raw_by" (·.approvedRawBy)
    |>.opt "approved_raw_at" (·.approvedRawAt) |>.opt "notes" (·.notes)).document

/-- The fields of `EvalCase`. -/
def evalCaseFields (now : Time) : Fields EvalCase EvalCase :=
  baseFields now (·.toBaseEntity) EvalCase.mk
    |>.opt "experiment_id" (·.experimentId) |>.req "name" (·.name) |>.req "task_type" (·.taskType)
    |>.dft "modalities" (·.modalities) [.text] |>.req "input" (·.input)
    |>.opt "context" (·.context) |>.dft "expected" (·.expected) {} |>.req "taxonomy" (·.taxonomy)
    |>.dft "graders" (·.graders) [] |>.dft "failure_weights" (·.failureWeights) ⟨[]⟩
    |>.dft "critical_failure_modes" (·.criticalFailureModes) []
    |>.opt "reference_output" (·.referenceOutput) |>.dft "metadata" (·.metadata) {}
    |>.dft "blocking" (·.blocking) {} |>.dft "holdout" (·.holdout) false
    |>.opt "content_hash" (·.contentHash)

/-! ### Model classes -/

/-- What `mode="json"` makes of the free-form fields. -/
def jsonableExperiment (e : Experiment) : Experiment :=
  { e with
    searchSpace := {
      modelParams := Pydantic.jsonable e.searchSpace.modelParams
      promptVariables := Pydantic.jsonable e.searchSpace.promptVariables
      toolParams := Pydantic.jsonable e.searchSpace.toolParams
      agents := e.searchSpace.agents.map Pydantic.jsonable }
    proposer := { e.proposer with parameters := Pydantic.jsonable e.proposer.parameters } }

/-- A case after its fields were written and read. -/
def jsonableCase (c : EvalCase) : EvalCase :=
  { c with
    input := Pydantic.jsonable c.input
    context := c.context.map Pydantic.jsonable
    expected := { c.expected with
      structuredOutput := c.expected.structuredOutput.map Pydantic.jsonable
      outputSchema := c.expected.outputSchema.map Pydantic.jsonable } }

/-- A model class: a record that is read and meets what the class asks is one of its models. -/
def modelClass {σ : Type} (F : Fields σ σ) (Valid : σ → Prop) [DecidablePred Valid]
    (jsonable : σ → σ) : ModelClass σ where
  validate payload :=
    match F.read payload with
    | some a => if Valid a then .ok a else .error (Pydantic.message payload)
    | none => .error (Pydantic.message payload)
  modelDump a := F.dumpAll (jsonable a)

section ModelClass
variable {σ : Type} {F : Fields σ σ} {Valid : σ → Prop} [DecidablePred Valid] {jsonable : σ → σ}
  {payload : Object} {a : σ}

theorem validate_eq_ok_iff :
    (modelClass F Valid jsonable).validate payload = .ok a ↔ F.read payload = some a ∧ Valid a := by
  unfold modelClass
  dsimp only
  cases F.read payload with
  | none => simp
  | some b =>
    by_cases hb : Valid b
    · simp only [if_pos hb, Except.ok.injEq, Option.some.injEq]
      exact ⟨fun h => ⟨h, h ▸ hb⟩, And.left⟩
    · simp only [if_neg hb, reduceCtorEq, Option.some.injEq, false_iff]
      rintro ⟨rfl, ha⟩
      exact hb ha

theorem validate_dumpAll (hnodup : F.keys.Nodup) (hremake : ∀ s, F.remake s = s) (ha : Valid a) :
    (modelClass F Valid jsonable).validate (F.dumpAll a) = .ok a :=
  validate_eq_ok_iff.mpr ⟨F.read_dump hnodup hremake a, ha⟩

theorem validate_modelDump_iff (hnodup : F.keys.Nodup) (hremake : ∀ s, F.remake s = s)
    (ha : Valid a) :
    (modelClass F Valid jsonable).validate ((modelClass F Valid jsonable).modelDump a) = .ok a ↔
      jsonable a = a := by
  rw [validate_eq_ok_iff]
  show F.read (F.dumpAll (jsonable a)) = some a ∧ _ ↔ _
  rw [F.read_dump hnodup hremake, Option.some.injEq, and_iff_left ha]

theorem writesIds (hid : "id" ∈ F.keys) (hworkspace : "workspace_id" ∈ F.keys) :
    (modelClass F Valid jsonable).WritesIds a :=
  ⟨Fields.isSome_lookup_dumpAll hid _, Fields.isSome_lookup_dumpAll hworkspace _⟩

end ModelClass

/-- The model classes of the loader, in a process at a time. -/
def specSchemas (now : Time) (splitAllocation : Object → Except String SplitAllocation) :
    Schemas EvalCase where
  experiment := modelClass (experimentFields now) Experiment.Valid jsonableExperiment
  evalCase := modelClass (evalCaseFields now) EvalCase.Valid jsonableCase
  caseGraders := EvalCase.graders
  splitAllocation := splitAllocation

variable {now : Time} {splitAllocation : Object → Except String SplitAllocation}

theorem specSchemas_experiment : (specSchemas now splitAllocation).experiment =
    modelClass (experimentFields now) Experiment.Valid jsonableExperiment := rfl

theorem specSchemas_evalCase : (specSchemas now splitAllocation).evalCase =
    modelClass (evalCaseFields now) EvalCase.Valid jsonableCase := rfl

theorem specSchemas_caseGraders :
    (specSchemas now splitAllocation).caseGraders = EvalCase.graders := rfl

-- A spec holds for its classes whatever they are made of.
attribute [irreducible] specSchemas

theorem nodup_experimentFields : (experimentFields now).keys.Nodup := by
  simp only [experimentFields, baseFields, Fields.keys_req, Fields.keys_dft, Fields.keys_opt,
    Fields.keys]
  decide

theorem nodup_evalCaseFields : (evalCaseFields now).keys.Nodup := by
  simp only [evalCaseFields, baseFields, Fields.keys_req, Fields.keys_dft, Fields.keys_opt,
    Fields.keys]
  decide

theorem remake_experimentFields (e : Experiment) : (experimentFields now).remake e = e := rfl

theorem remake_evalCaseFields (c : EvalCase) : (evalCaseFields now).remake c = c := rfl

theorem valid_of_validate_experiment {payload : Object} {e : Experiment}
    (h : (specSchemas now splitAllocation).experiment.validate payload = .ok e) : e.Valid := by
  rw [specSchemas_experiment, validate_eq_ok_iff] at h
  exact h.2

theorem valid_of_validate_evalCase {payload : Object} {c : EvalCase}
    (h : (specSchemas now splitAllocation).evalCase.validate payload = .ok c) : c.Valid := by
  rw [specSchemas_evalCase, validate_eq_ok_iff] at h
  exact h.2

theorem validate_dumpAll_evalCase {c : EvalCase} (h : c.Valid) :
    (specSchemas now splitAllocation).evalCase.validate ((evalCaseFields now).dumpAll c) =
      .ok c := by
  rw [specSchemas_evalCase, validate_dumpAll nodup_evalCaseFields remake_evalCaseFields h]

/-- **A valid experiment comes back from its dump** when its free-form fields are JSON. -/
theorem experiment_comes_back {e : Experiment} (h : e.Valid) :
    (specSchemas now splitAllocation).experiment.validate
      ((specSchemas now splitAllocation).experiment.modelDump e) = .ok e ↔
        jsonableExperiment e = e := by
  rw [specSchemas_experiment, validate_modelDump_iff nodup_experimentFields
    remake_experimentFields h]

theorem evalCase_comes_back {c : EvalCase} (h : c.Valid) :
    (specSchemas now splitAllocation).evalCase.validate
      ((specSchemas now splitAllocation).evalCase.modelDump c) = .ok c ↔ jsonableCase c = c := by
  rw [specSchemas_evalCase, validate_modelDump_iff nodup_evalCaseFields remake_evalCaseFields h]

theorem dumpAll_experimentFields (now later : Time) (e : Experiment) :
    (experimentFields now).dumpAll e = (experimentFields later).dumpAll e := by
  simp only [experimentFields, baseFields, Fields.dumpAll_req, Fields.dumpAll_dft,
    Fields.dumpAll_opt, Fields.dumpAll]

theorem dumpAll_evalCaseFields (now later : Time) (c : EvalCase) :
    (evalCaseFields now).dumpAll c = (evalCaseFields later).dumpAll c := by
  simp only [evalCaseFields, baseFields, Fields.dumpAll_req, Fields.dumpAll_dft,
    Fields.dumpAll_opt, Fields.dumpAll]

theorem writesIds_experiment (e : Experiment) :
    (specSchemas now splitAllocation).experiment.WritesIds e := by
  rw [specSchemas_experiment]
  exact writesIds (by simp [experimentFields, baseFields]) (by simp [experimentFields, baseFields])

theorem writesIds_evalCase (c : EvalCase) :
    (specSchemas now splitAllocation).evalCase.WritesIds c := by
  rw [specSchemas_evalCase]
  exact writesIds (by simp [evalCaseFields, baseFields]) (by simp [evalCaseFields, baseFields])

end Selfevals.Repo.Loader.ModelClasses
