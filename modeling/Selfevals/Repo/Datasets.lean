import Selfevals.Storage.DatasetStore

/-!
# Materializing datasets

`repo/datasets.py`: rows become cases, cases are hashed and counted, and a dataset is built over
them and persisted. `content_hash` is over the canonical JSON of what it is given; `digest` stands
for the encoding and SHA-256 together, as a parameter.

What a row leaves out (`id`, `created_at`, `updated_at`) is made at the import, and is in its
`Stamp`. What pydantic makes of a payload is `CasePayload`, by a parameter.
-/

namespace Selfevals.Repo.Datasets

open Lib.Effects Lib.JsonValue Lib.Mapping Lib.Result Schemas.Base Schemas.Datasets Schemas.Enums
open Repo.Loader.Models (SplitAllocation)
open Storage.DatasetStore

variable {κ : Type}

/-! ### Rows -/

/-- What is made for a row when it is imported. -/
structure Stamp where
  id : String
  createdAt : Time
  updatedAt : Time

/-- What validation makes of the payload of a case. -/
structure CasePayload (κ : Type) where
  id : String
  workspaceId : String
  version : ℕ := 1
  createdAt : Option Time := none
  updatedAt : Option Time := none
  deletedAt : Option Time := none
  experimentId : Option String := none
  content : CaseContent κ

/-- `EvalCase(**payload)`, for a payload that validates. -/
def CasePayload.toCase (p : CasePayload κ) (stamp : Stamp) : EvalCase κ where
  id := p.id
  workspaceId := p.workspaceId
  version := p.version
  createdAt := p.createdAt.getD stamp.createdAt
  updatedAt := p.updatedAt.getD stamp.updatedAt
  deletedAt := p.deletedAt
  experimentId := p.experimentId
  content := p.content

/-- The payload of a row, with the keys that are set when it has none. -/
def rowPayload (workspaceId : String) (stamp : Stamp) (row : Object) : Object :=
  setDefault (setDefault row "id" (.str stamp.id)) "workspace_id" (.str workspaceId)

/-- One row of `load_cases_from_rows`, the `i`-th. -/
def loadRow (validate : Object → Except String (CasePayload κ)) (workspaceId : String)
    (stamp : Stamp) (i : ℕ) : Json → Except String (EvalCase κ)
  | .obj row =>
    match validate (rowPayload workspaceId stamp row) with
    | .ok payload => .ok (payload.toCase stamp)
    | .error e => .error s!"invalid case #{i}: {e}"
  | row => .error s!"case #{i} must be a mapping, got {row.typeName}"

/-- `load_cases_from_rows`; the message of a `DatasetImportError` otherwise. -/
def loadCasesFromRows (validate : Object → Except String (CasePayload κ)) (workspaceId : String)
    (stamps : ℕ → Stamp) (rows : List Json) : Except String (List (EvalCase κ)) :=
  if rows = [] then .error "no cases provided"
  else rows.zipIdx.mapM fun (row, i) => loadRow validate workspaceId (stamps i) i row

/-! ### Hashes and counts -/

/-- What `content_hash` is given. -/
inductive Payload (κ : Type)
  | case (dump : CaseDump κ)
  | hashes (hs : List String)
deriving DecidableEq

section Hash
variable (digest : Payload κ → String)

/-- The hash of a payload. -/
def contentHash (payload : Payload κ) : String := "sha256:" ++ digest payload

/-- `compute_manifest_hash`. -/
def computeManifestHash (cases : List (EvalCase κ)) : String :=
  contentHash digest (.hashes (sorted
    (cases.map fun c => contentHash digest (.case c.modelDumpCanonical))))

/-- `compute_statistics`. -/
def computeStatistics (cases : List (EvalCase κ)) : DatasetStatistics where
  totalCases := cases.length
  byLevel := .count (cases.map fun c => Coded.value c.content.taxonomy.level)
  byFeature := .count (cases.map fun c => c.content.taxonomy.featurePrimary)
  bySource := .count (cases.map fun c => Coded.value c.content.taxonomy.sourceType)
  byRisk := .count (cases.filterMap fun c => c.content.taxonomy.riskOverall)
  holdoutCount := cases.countP fun c => c.content.holdout
  piiBreakdown := .count (cases.map fun c => Coded.value c.content.piiStatus)

theorem computeManifestHash_congr {cases cases' : List (EvalCase κ)}
    (h : (cases.map (·.modelDumpCanonical)).Perm (cases'.map (·.modelDumpCanonical))) :
    computeManifestHash digest cases = computeManifestHash digest cases' := by
  unfold computeManifestHash
  have hperm := h.map fun dump => contentHash digest (.case dump)
  rw [List.map_map, List.map_map] at hperm
  exact congrArg (fun hs => contentHash digest (.hashes hs)) (sorted_congr hperm)

theorem contentHash_ne_empty (payload : Payload κ) : contentHash digest payload ≠ "" := by
  intro h
  have hlen := congrArg String.length h
  rw [contentHash, String.length_append] at hlen
  have hseven : "sha256:".length = 7 := rfl
  have hzero : "".length = 0 := rfl
  omega

theorem hasHash_contentHash (payload : Payload κ) : HasHash (some (contentHash digest payload)) :=
  ⟨_, rfl, contentHash_ne_empty digest payload⟩

/-! ### Building and persisting -/

/-- `SplitAllocation()`. -/
def defaultSplit : SplitAllocation where
  rates := by decide +kernel
  sums_to_one := by decide +kernel

/-- What a dataset is built with, besides its cases. -/
structure DatasetArgs where
  name : String
  datasetType : DatasetType
  description : Option String := none
  splitAllocation : Option SplitAllocation := none
  status : DatasetStatus := .active
  datasetId : String
  sourceDatasetId : Option String := none
  now : Time

/-- A reference to a version of a case. -/
def caseRef (c : EvalCase κ) : EntityRef := ⟨c.id, some c.version⟩

/-- `build_dataset`. -/
def buildDataset (workspaceId : String) (args : DatasetArgs) (cases : List (EvalCase κ)) :
    Except Dataset.DatasetError Dataset :=
  if h : ((cases.map caseRef).map (·.id)).Nodup then
    .ok {
      id := args.datasetId
      workspaceId
      createdAt := args.now
      updatedAt := args.now
      name := args.name
      description := args.description
      datasetType := args.datasetType
      cases := cases.map caseRef
      splitAllocation := args.splitAllocation.getD defaultSplit
      sourceDatasetId := args.sourceDatasetId
      manifestHash := some (computeManifestHash digest cases)
      status := args.status
      statistics := some (computeStatistics cases)
      noDuplicateCases := h
      requiresManifestHash := fun _ => hasHash_contentHash digest _ }
  else .error .duplicateCases

theorem buildDataset_eq_ok {workspaceId : String} {args : DatasetArgs} {cases : List (EvalCase κ)}
    {d : Dataset} (h : buildDataset digest workspaceId args cases = .ok d) :
    (cases.map (·.id)).Nodup ∧ d.id = args.datasetId ∧ d.workspaceId = workspaceId ∧
      d.cases = cases.map caseRef ∧ d.manifestHash = some (computeManifestHash digest cases) ∧
      d.status = args.status := by
  unfold buildDataset at h
  split_ifs at h with hnodup
  obtain rfl := Except.ok.inj h
  rw [List.map_map] at hnodup
  exact ⟨hnodup, rfl, rfl, rfl, rfl, rfl⟩

/-- `persist_dataset`: the cases are written before the dataset is built. -/
def persistDataset (workspaceId : String) (args : DatasetArgs) (cases : List (EvalCase κ)) :
    Scope κ Dataset := do
  putCases workspaceId cases
  let dataset ← tryQuery fun _ => (buildDataset digest workspaceId args cases).mapError .dataset
  putEntity workspaceId (.dataset dataset)
  return dataset

theorem persistDataset_eq_ok {workspaceId : String} {args : DatasetArgs} {cases : List (EvalCase κ)}
    {d : Dataset} {s t : Store κ}
    (h : (persistDataset digest workspaceId args cases).run s = (.ok d, t)) :
    buildDataset digest workspaceId args cases = .ok d ∧
      ∃ u, (putCases workspaceId cases).run s = (.ok (), u) ∧
        u.put workspaceId (.dataset d) = .ok t := by
  obtain ⟨⟨⟩, u, hcases, h₁⟩ := run_bind_eq_ok.mp h
  obtain ⟨d', v, hquery, h₂⟩ := run_bind_eq_ok.mp h₁
  obtain ⟨hbuild, rfl⟩ := run_tryQuery_eq_ok.mp hquery
  obtain ⟨⟨⟩, w, hput, h₃⟩ := run_bind_eq_ok.mp h₂
  obtain ⟨hok, rfl⟩ := Prod.mk.inj h₃
  obtain rfl := Except.ok.inj hok
  exact ⟨mapError_eq_ok.mp hbuild, v, hcases, putEntity_eq_ok.mp hput⟩

/-- The manifest hash and the statistics of a dataset are computed again. -/
def rehash (cases : List (EvalCase κ)) (d : Dataset) : Dataset :=
  { d with
    manifestHash := some (computeManifestHash digest cases)
    statistics := some (computeStatistics cases)
    requiresManifestHash := fun _ => hasHash_contentHash digest _ }

end Hash

end Selfevals.Repo.Datasets
