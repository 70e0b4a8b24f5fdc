import Selfevals.Repo.Datasets

/-!
# Cases and datasets at launch

`runner/launch/datasets.py` and the part of `build_loop` that calls it: a referenced dataset is
resolved, the experiment is written, its cases are stamped with its id and written, and an inline
dataset is materialized over them.

The cases of the workspace come in a listing of the store at the start (`IsListing`), as the query
of `_resolve_ref_dataset` is made before anything is written.
-/

namespace Selfevals.Runner.LaunchDatasets

open Lib.Effects Lib.PyStr Schemas.Base Schemas.Datasets Schemas.Experiments Repo.Datasets
  Storage.DatasetStore
open Repo.Loader.Models (DatasetSpec InlineDatasetSource SplitAllocation)

/-- An `ExperimentSpec`, as far as a launch reads it here. -/
structure LaunchSpec (κ : Type) where
  workspaceId : String
  experiment : Experiment
  cases : List (EvalCase κ)
  datasetSource : DatasetSpec (EvalCase κ)

variable {κ : Type}

/-- The experiment with its dataset references set. -/
def linkDataset (e : Experiment) (ref : EntityRef) : Experiment :=
  { e with
    datasets := { e.datasets with optimization := ref }
    frozen := { e.frozen with datasets := [ref] } }

/-- `_resolve_ref_dataset`. -/
def resolveRefDataset (listed : List (EvalCase κ)) (spec : LaunchSpec κ) (ref : EntityRef) :
    Scope κ (LaunchSpec κ × Option SplitAllocation) := do
  let dataset ← tryQuery fun s =>
    (getEntity s.datasets spec.workspaceId ref.id).mapError fun _ =>
      .refNotFound ref.id spec.workspaceId
  if (casesOf dataset listed).isEmpty then raise (.zeroCases ref.id)
  else
    return ({ spec with
      cases := casesOf dataset listed
      experiment := linkDataset spec.experiment ⟨dataset.id, some dataset.version⟩ },
      some dataset.splitAllocation)

/-- `_resolve_dataset_source`, with a scope. -/
def resolveDatasetSource (listed : List (EvalCase κ)) (spec : LaunchSpec κ) :
    Scope κ (LaunchSpec κ × Option SplitAllocation) :=
  match spec.datasetSource with
  | .inline source => pure (spec, source.splitAllocation)
  | .ref source => resolveRefDataset listed spec source.ref

theorem run_resolveRefDataset (listed : List (EvalCase κ)) (spec : LaunchSpec κ) (ref : EntityRef)
    (s : Store κ) :
    (resolveRefDataset listed spec ref).run s =
      match getEntity s.datasets spec.workspaceId ref.id with
      | .error _ => (.error (.refNotFound ref.id spec.workspaceId), s)
      | .ok d =>
        if (casesOf d listed).isEmpty then (.error (.zeroCases ref.id), s)
        else
          (.ok ({ spec with
            cases := casesOf d listed
            experiment := linkDataset spec.experiment ⟨d.id, some d.version⟩ },
            some d.splitAllocation), s) := by
  unfold resolveRefDataset
  rw [run_tryQuery_bind]
  cases hget : getEntity s.datasets spec.workspaceId ref.id with
  | error e => rfl
  | ok d =>
    show Scoped.run (if _ then _ else _) s = _
    dsimp only
    split_ifs <;> rfl

theorem resolveDatasetSource_store (listed : List (EvalCase κ)) (spec : LaunchSpec κ)
    (s : Store κ) : ((resolveDatasetSource listed spec).run s).2 = s := by
  unfold resolveDatasetSource
  cases spec.datasetSource with
  | inline source => rfl
  | ref source =>
    dsimp only
    rw [run_resolveRefDataset]
    split
    · rfl
    · split_ifs <;> rfl

theorem resolveDatasetSource_eq_ok {listed : List (EvalCase κ)} {spec spec' : LaunchSpec κ}
    {split : Option SplitAllocation} {s t : Store κ}
    (h : (resolveDatasetSource listed spec).run s = (.ok (spec', split), t)) :
    spec'.workspaceId = spec.workspaceId ∧ spec'.experiment.id = spec.experiment.id ∧
      spec'.datasetSource = spec.datasetSource ∧
      ∀ source, spec.datasetSource = .inline source → spec'.cases = spec.cases := by
  unfold resolveDatasetSource at h
  cases hsource : spec.datasetSource with
  | inline source =>
    rw [hsource] at h
    obtain ⟨rfl, -⟩ := Prod.mk.inj (Except.ok.inj (congrArg Prod.fst h))
    exact ⟨rfl, rfl, hsource, fun _ _ => rfl⟩
  | ref source =>
    rw [hsource] at h
    dsimp only at h
    rw [run_resolveRefDataset] at h
    split at h
    · cases h
    · split_ifs at h with hempty
      · cases h
      · obtain ⟨rfl, -⟩ := Prod.mk.inj (Except.ok.inj (congrArg Prod.fst h))
        exact ⟨rfl, rfl, hsource, fun _ hinline => nomatch hinline⟩

/-- `case.experiment_id = spec.experiment.id`, where it is another. -/
def stampCase (experimentId : String) (c : EvalCase κ) : EvalCase κ :=
  if c.experimentId ≠ some experimentId then { c with experimentId := some experimentId } else c

theorem stampCase_eq (experimentId : String) (c : EvalCase κ) :
    stampCase experimentId c = { c with experimentId := some experimentId } := by
  unfold stampCase
  split_ifs with h
  · rfl
  · rw [← not_not.mp h]

@[simp] theorem stampCase_id (experimentId : String) (c : EvalCase κ) :
    (stampCase experimentId c).id = c.id := by rw [stampCase_eq]

/-- The spec after its cases are stamped, in place. -/
def stampSpec (spec : LaunchSpec κ) : LaunchSpec κ :=
  { spec with cases := spec.cases.map (stampCase spec.experiment.id) }

/-- `_persist_cases`, of a spec that is stamped. -/
def persistCases (spec : LaunchSpec κ) : Scope κ Unit :=
  putCases spec.workspaceId spec.cases

/-- `_inline_dataset_id`. -/
def inlineDatasetId (experimentId : String) : String :=
  match partition '_' experimentId with
  | some (_, suffix) => "ds_" ++ suffix
  | none => "ds_" ++ experimentId

/-- What an inline dataset is built with, over its first case. -/
def inlineArgs (now : Time) (spec : LaunchSpec κ) (source : InlineDatasetSource (EvalCase κ))
    (first : EvalCase κ) : DatasetArgs where
  name :=
    match source.name with
    | some name => if name ≠ "" then name else spec.experiment.name ++ " dataset"
    | none => spec.experiment.name ++ " dataset"
  datasetType := source.datasetType.getD first.content.taxonomy.datasetType
  description := source.description
  splitAllocation := source.splitAllocation
  datasetId := inlineDatasetId spec.experiment.id
  now := now

/-- The dataset, at the version of the one it replaces. -/
def atVersionOf {ε : Type} (prior : Except ε Dataset) (dataset : Dataset) : Dataset :=
  match prior with
  | .ok d => if d.version ≠ 0 then { dataset with version := d.version } else dataset
  | .error _ => dataset

theorem atVersionOf_eq {ε : Type} (prior : Except ε Dataset) (dataset : Dataset) :
    (atVersionOf prior dataset).id = dataset.id ∧
      (atVersionOf prior dataset).status = dataset.status := by
  unfold atVersionOf
  split
  · split_ifs <;> exact ⟨rfl, rfl⟩
  · exact ⟨rfl, rfl⟩

section Launch
variable (digest : Payload κ → String)

/-- `_materialize_inline_dataset`. -/
def materializeInlineDataset (now : Time) (spec : LaunchSpec κ) : Scope κ (LaunchSpec κ) :=
  match spec.datasetSource, spec.cases with
  | .ref _, _ | .inline _, [] => pure spec
  | .inline source, first :: _ => do
    let prior ← query fun s =>
      getEntity s.datasets spec.workspaceId (inlineDatasetId spec.experiment.id)
    let built ← tryQuery fun _ =>
      (buildDataset digest spec.workspaceId (inlineArgs now spec source first) spec.cases).mapError
        .dataset
    let dataset := atVersionOf prior built
    putEntity spec.workspaceId (.dataset dataset)
    return { spec with
      experiment := linkDataset spec.experiment ⟨dataset.id, some dataset.version⟩ }

/-- What `build_loop` does to the store; the spec the experiment runs on. -/
def buildLoop (now : Time) (listed : List (EvalCase κ)) (spec : LaunchSpec κ) :
    Scope κ (LaunchSpec κ) := do
  let (spec, _) ← resolveDatasetSource listed spec
  putEntity spec.workspaceId (.experiment spec.experiment)
  persistCases (stampSpec spec)
  materializeInlineDataset digest now (stampSpec spec)

end Launch

example : inlineDatasetId "exp_01H" = "ds_01H" := by decide

end Selfevals.Runner.LaunchDatasets
