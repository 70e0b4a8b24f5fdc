import Selfevals.Lib.Mapping
import Selfevals.Repo.Loader.Models

/-!
# Eval cases and datasets

`EvalCase` is one case, `Dataset` a manifest that refers to cases by id and version. Of a case the
functions here read its name, how it is classified and whether it is held out; the other authored
fields (input, expected, graders, …) are one value of a type `κ`, equal when they are. `CaseDump` is
`model_dump_canonical` of a case: all of it but `updated_at`, `deleted_at` and `version`.

The validators of `Dataset` are fields of the structure: no case is referred to twice, and a frozen
or active dataset has a manifest hash. `Dataset.__setattr__` guards the attributes of one object in
memory (`Dataset.setCases`). `DatasetBaseline` is what later runs over a dataset are measured
against.
-/

namespace Selfevals.Schemas.Datasets

open Lib.JsonValue Lib.Mapping Schemas.Base Schemas.Enums
open Repo.Loader.Models (SplitAllocation)

/-! ### Cases -/

/-- How a case is classified, as far as it is read here. -/
structure CaseTaxonomy where
  level : Level
  featurePrimary : String
  sourceType : DatasetSource
  datasetType : DatasetType
  riskOverall : Option String := none
deriving DecidableEq, Repr

/-- What the author of a case writes. -/
structure CaseContent (κ : Type) where
  name : String
  taxonomy : CaseTaxonomy
  piiStatus : PiiStatus := .raw
  holdout : Bool := false
  rest : κ
deriving DecidableEq

/-- A case whose content is of any type. -/
structure EvalCase (κ : Type) extends BaseEntity where
  experimentId : Option String := none
  content : CaseContent κ
deriving DecidableEq

instance {κ : Type} : Entity (EvalCase κ) where
  base c := c.toBaseEntity
  withCreatedAt c t := { c with createdAt := t }
  base_withCreatedAt _ _ := rfl

/-- What is hashed of a case. -/
structure CaseDump (κ : Type) where
  id : String
  workspaceId : String
  createdAt : Time
  experimentId : Option String
  content : CaseContent κ
deriving DecidableEq

/-- `model_dump_canonical`. -/
def EvalCase.modelDumpCanonical {κ : Type} (c : EvalCase κ) : CaseDump κ where
  id := c.id
  workspaceId := c.workspaceId
  createdAt := c.createdAt
  experimentId := c.experimentId
  content := c.content

/-- Two cases dump alike when they have the same id, workspace, creation time, experiment and
content. -/
theorem EvalCase.modelDumpCanonical_eq {κ : Type} {c c' : EvalCase κ} :
    c.modelDumpCanonical = c'.modelDumpCanonical ↔
      c.id = c'.id ∧ c.workspaceId = c'.workspaceId ∧ c.createdAt = c'.createdAt ∧
        c.experimentId = c'.experimentId ∧ c.content = c'.content := by
  unfold modelDumpCanonical
  rw [CaseDump.mk.injEq]

/-! ### Datasets -/

/-- The counts of a dataset's cases. -/
structure DatasetStatistics where
  totalCases : ℕ
  byLevel : Dict String ℕ
  byFeature : Dict String ℕ
  bySource : Dict String ℕ
  byRisk : Dict String ℕ
  holdoutCount : ℕ
  piiBreakdown : Dict String ℕ

/-- The manifest hash says something. -/
def HasHash (manifestHash : Option String) : Prop := ∃ h ∈ manifestHash, h ≠ ""
deriving Decidable

/-- `Dataset`. -/
structure Dataset extends BaseEntity where
  name : String
  description : Option String := none
  datasetType : DatasetType
  cases : List EntityRef := []
  splitAllocation : SplitAllocation
  sourceDatasetId : Option String := none
  manifestHash : Option String := none
  status : DatasetStatus := .draft
  statistics : Option DatasetStatistics := none
  noDuplicateCases : (cases.map (·.id)).Nodup
  requiresManifestHash : status = .frozen ∨ status = .active → HasHash manifestHash

instance : Entity Dataset where
  base d := d.toBaseEntity
  withCreatedAt d t := { d with createdAt := t }
  base_withCreatedAt _ _ := rfl

namespace Dataset

/-- The ids of the cases the dataset refers to. -/
def refIds (d : Dataset) : List String := d.cases.map (·.id)

/-- A regression dataset that is frozen. -/
def FrozenRegression (d : Dataset) : Prop := d.status = .frozen ∧ d.datasetType = .regression
deriving Decidable

/-- What validation raises, or `__setattr__` on a frozen dataset. -/
inductive DatasetError
  | duplicateCases
  | frozen
deriving DecidableEq, Repr

/-- `dataset.cases = cases`: refused on a frozen regression dataset, and else the cached statistics
are cleared. -/
def setCases (d : Dataset) (cases : List EntityRef) : Except DatasetError Dataset :=
  if d.FrozenRegression then .error .frozen
  else if h : (cases.map (·.id)).Nodup then
    .ok { d with cases := cases, statistics := none, noDuplicateCases := h }
  else .error .duplicateCases

end Dataset

/-! ### Baselines -/

/-- The iteration that a dataset is measured against, with its headline metrics. -/
structure BaselineValues where
  iterationId : String
  experimentId : String
  primaryMetric : String
  primaryValue : ℚ
  errorRate : ℚ := 0
  confusion : Option Object := none
  named : iterationId ≠ "" ∧ experimentId ≠ "" ∧ primaryMetric ≠ ""
  isRate : 0 ≤ errorRate ∧ errorRate ≤ 1

/-- `DatasetBaseline`. -/
structure DatasetBaseline extends BaseEntity, BaselineValues where
  datasetId : String
  version_pos : 1 ≤ version

instance : Entity DatasetBaseline where
  base b := b.toBaseEntity
  withCreatedAt b t := { b with createdAt := t }
  base_withCreatedAt _ _ := rfl

end Selfevals.Schemas.Datasets
