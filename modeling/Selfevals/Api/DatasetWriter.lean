import Selfevals.Repo.Datasets

/-!
# The write path for datasets

`api/dataset_writer.py`: a dataset is created from rows, frozen, and a regression case is appended
to it. `dataset create` and `dataset freeze` of the command line make the same writes.

A frozen dataset is appended to by a new dataset over its cases and the new one. What is made afresh
by a request (ids, times) is in `Minted`.
-/

namespace Selfevals.Api.DatasetWriter

open Lib.Effects Lib.JsonValue Lib.Result Schemas.Base Schemas.Datasets Schemas.Enums Repo.Datasets
  Storage Storage.DatasetStore Storage.Entity
open Repo.Loader.Models (SplitAllocation)

/-- What a request makes afresh. -/
structure Minted where
  datasetId : String
  now : Time
  stamps : ℕ → Stamp

/-- The body of a request for a new dataset. -/
structure CreateDatasetRequest where
  name : String
  datasetType : String
  cases : List Json
  description : Option String := none
  splitAllocation : Option Object := none

/-- The validation of the models, which may raise with a message. -/
structure Models (κ : Type) where
  evalCase : Object → Except String (CasePayload κ)
  splitAllocation : Object → Except String SplitAllocation

/-- `_resolve_type`. -/
def resolveType (raw : String) : Except WriteError DatasetType :=
  match Coded.ofValue raw with
  | some type => .ok type
  | none => .error (.unknownDatasetType raw)

/-- The fields of `_resolve_split`: the known splits, and the others under `other`. -/
def splitFields (raw : Object) : Object :=
  let known := fun key : String => key ∈ ["optimization", "holdout", "reliability"]
  let other := raw.filter fun field => !known field.1
  raw.filter (fun field => known field.1) ++ if other.isEmpty then [] else [("other", .obj other)]

/-- `_resolve_split`. -/
def resolveSplit (validate : Object → Except String SplitAllocation) :
    Option Object → Except WriteError (Option SplitAllocation)
  | none => .ok none
  | some raw =>
    match validate (splitFields raw) with
    | .ok split => .ok (some split)
    | .error e => .error (.datasetWrite s!"invalid split_allocation: {e}")

variable {κ : Type} (digest : Payload κ → String) (models : Models κ)

/-- What `create_dataset_from_request` makes of a body with `cases`. -/
def createInput (workspaceId : String) (minted : Minted) (body : CreateDatasetRequest) :
    Except WriteError (DatasetArgs × List (EvalCase κ)) := do
  let datasetType ← resolveType body.datasetType
  let splitAllocation ← resolveSplit models.splitAllocation body.splitAllocation
  let cases ←
    (loadCasesFromRows models.evalCase workspaceId minted.stamps body.cases).mapError .datasetWrite
  return ({
    name := body.name
    datasetType
    description := body.description
    splitAllocation
    datasetId := minted.datasetId
    now := minted.now }, cases)

theorem createInput_eq_ok {models : Models κ} {workspaceId : String} {minted : Minted}
    {body : CreateDatasetRequest} {args : DatasetArgs} {cases : List (EvalCase κ)}
    (h : createInput models workspaceId minted body = .ok (args, cases)) :
    args.datasetId = minted.datasetId ∧ args.status = .active := by
  obtain ⟨_, -, h⟩ := bind_eq_ok.mp h
  obtain ⟨_, -, h⟩ := bind_eq_ok.mp h
  obtain ⟨_, -, h⟩ := bind_eq_ok.mp h
  obtain ⟨rfl, -⟩ := Prod.mk.inj (Except.ok.inj h)
  exact ⟨rfl, rfl⟩

/-- `create_dataset_from_request`. -/
def createDataset (workspaceId : String) (minted : Minted) (body : CreateDatasetRequest) :
    Scope κ Dataset := do
  let (args, cases) ← tryQuery fun _ => createInput models workspaceId minted body
  persistDataset digest workspaceId args cases

/-- `ds.status = DatasetStatus.FROZEN`, of a dataset that has a hash. -/
def setFrozen (d : Dataset) : Except WriteError Dataset :=
  if h : HasHash d.manifestHash then
    .ok { d with status := .frozen, requiresManifestHash := fun _ => h }
  else .error (.datasetWrite "cannot freeze: no cases resolved and no manifest_hash present")

theorem setFrozen_eq_ok {d d' : Dataset} (h : setFrozen d = .ok d') :
    d'.toBaseEntity = d.toBaseEntity ∧ d'.cases = d.cases ∧ d'.datasetType = d.datasetType ∧
      d'.status = .frozen ∧ d'.manifestHash = d.manifestHash := by
  unfold setFrozen at h
  split_ifs at h with hhash
  obtain rfl := Except.ok.inj h
  exact ⟨rfl, rfl, rfl, rfl, rfl⟩

/-- The dataset, frozen over the cases that are found. -/
def frozenOver (cases : List (EvalCase κ)) (d : Dataset) : Except WriteError Dataset :=
  setFrozen (if cases.isEmpty then d else rehash digest cases d)

theorem frozenOver_eq_ok {cases : List (EvalCase κ)} {d d' : Dataset}
    (h : frozenOver digest cases d = .ok d') :
    d'.toBaseEntity = d.toBaseEntity ∧ d'.cases = d.cases ∧ d'.datasetType = d.datasetType ∧
      d'.status = .frozen ∧ d'.manifestHash =
        if cases.isEmpty then d.manifestHash else some (computeManifestHash digest cases) := by
  obtain ⟨hbase, hcases, htype, hstatus, hhash⟩ := setFrozen_eq_ok h
  rw [hbase, hcases, htype, hhash]
  split_ifs <;> exact ⟨rfl, rfl, rfl, hstatus, rfl⟩

/-- `freeze_dataset`, on a listing of the store. -/
def freezeDataset (workspaceId datasetId : String) (listed : List (EvalCase κ)) : Scope κ Unit := do
  let d ← tryQuery fun s =>
    (getEntity s.datasets workspaceId datasetId).mapError fun _ => .datasetNotFound datasetId
  let frozen ← tryQuery fun _ => frozenOver digest (casesOf d listed) d
  putEntity workspaceId (.dataset frozen)

/-- What `append_case_to_dataset` raises for a dataset that it does not get. -/
def notFound (datasetId : String) : StorageError → WriteError
  | .entityNotFound _ _ => .datasetNotFound datasetId
  | e => .storage e

/-- `_cases_for_dataset`. -/
def casesForDataset (workspaceId : String) (d : Dataset) (s : Store κ) :
    Except WriteError (List (EvalCase κ)) :=
  d.cases.mapM fun ref => (getEntity s.cases workspaceId ref.id).mapError .storage

/-- The case of a request to append. -/
def confirmedCase (workspaceId : String) (stamp : Stamp) (caseData : Object) :
    Except WriteError (EvalCase κ) :=
  match models.evalCase (rowPayload workspaceId stamp caseData) with
  | .error e => .error (.datasetWrite s!"invalid case: {e}")
  | .ok payload =>
    let c := payload.toCase stamp
    if c.workspaceId ≠ workspaceId then
      .error (.datasetWrite "case workspace_id does not match route workspace")
    else if c.content.taxonomy.datasetType ≠ .regression then
      .error (.datasetWrite "promoted cases must have taxonomy.dataset_type=regression")
    else .ok c

/-- What a new dataset over a frozen one is built with. -/
def successorArgs (minted : Minted) (d : Dataset) : DatasetArgs where
  name := d.name ++ " + regression"
  datasetType := .regression
  description := d.description
  splitAllocation := some d.splitAllocation
  status := .active
  datasetId := minted.datasetId
  sourceDatasetId := some d.id
  now := minted.now

/-- The dataset with one case more. -/
def extended (existing : List (EvalCase κ)) (c : EvalCase κ) (d : Dataset) :
    Except WriteError Dataset :=
  ((d.setCases (d.cases ++ [caseRef c])).map (rehash digest (existing ++ [c]))).mapError .dataset

theorem extended_eq_ok {existing : List (EvalCase κ)} {c : EvalCase κ} {d d' : Dataset}
    (h : extended digest existing c d = .ok d') : d'.id = d.id ∧ d'.status = d.status := by
  unfold extended Dataset.setCases at h
  split_ifs at h with hfrozen hnodup
  · cases h
  · obtain rfl := Except.ok.inj h
    exact ⟨rfl, rfl⟩
  · cases h

theorem casesForDataset_stored {workspaceId : String} {d : Dataset} {s : Store κ}
    {cases : List (EvalCase κ)} (h : casesForDataset workspaceId d s = .ok cases) :
    (∀ c ∈ cases, s.cases.find? c.id = some c ∧ c.workspaceId = workspaceId) ∧
      cases.map (·.id) = d.refIds := by
  unfold casesForDataset at h
  unfold Dataset.refIds
  generalize d.cases = refs at h
  induction refs generalizing cases with
  | nil =>
    obtain rfl := Except.ok.inj h
    simp
  | cons ref refs ih =>
    rw [List.mapM_cons] at h
    obtain ⟨c, hc, h⟩ := bind_eq_ok.mp h
    obtain ⟨cs, hcs, h⟩ := bind_eq_ok.mp h
    obtain rfl := Except.ok.inj h
    obtain ⟨hfind, hws⟩ := getEntity_eq_ok (mapError_eq_ok.mp hc)
    obtain ⟨hstored, hids⟩ := ih hcs
    have hid : c.id = ref.id := (Tables.Table.find?_eq_some.mp hfind).2
    rw [← hid] at hfind
    exact ⟨List.forall_mem_cons.mpr ⟨⟨hfind, hws⟩, hstored⟩, congrArg₂ List.cons hid hids⟩

/-- What `append_case_to_dataset` reads before it writes: the dataset, its cases and the new one. -/
def appendInput (workspaceId datasetId : String) (stamp : Stamp) (caseData : Object)
    (createVersionIfFrozen : Bool) (s : Store κ) :
    Except WriteError (Dataset × List (EvalCase κ) × EvalCase κ) := do
  let c ← confirmedCase models workspaceId stamp caseData
  let d ← (getEntity s.datasets workspaceId datasetId).mapError (notFound datasetId)
  if d.datasetType ≠ .regression then
    .error (.datasetWrite "target dataset must have dataset_type=regression")
  else
    let existing ← casesForDataset workspaceId d s
    if d.status = .frozen ∧ !createVersionIfFrozen then
      .error (.datasetWrite "target regression dataset is frozen; create a new version")
    else return (d, existing, c)

/-- The input of a call whose dataset, cases and new case pass. -/
structure Input (workspaceId datasetId : String) (s : Store κ) (d : Dataset)
    (existing : List (EvalCase κ)) (c : EvalCase κ) : Prop where
  found : s.datasets.find? datasetId = some d
  workspace : d.workspaceId = workspaceId
  stored : ∀ c ∈ existing, s.cases.find? c.id = some c ∧ c.workspaceId = workspaceId
  ids : existing.map (·.id) = d.refIds

theorem input_of_appendInput {models : Models κ} {workspaceId datasetId : String} {stamp : Stamp}
    {caseData : Object} {createVersionIfFrozen : Bool} {s : Store κ}
    {d : Dataset} {existing : List (EvalCase κ)} {c : EvalCase κ}
    (h : appendInput models workspaceId datasetId stamp caseData createVersionIfFrozen s =
      .ok (d, existing, c)) : Input workspaceId datasetId s d existing c := by
  unfold appendInput at h
  obtain ⟨_, -, h⟩ := bind_eq_ok.mp h
  obtain ⟨_, hget, h⟩ := bind_eq_ok.mp h
  split at h
  · cases h
  · obtain ⟨_, hexisting, h⟩ := bind_eq_ok.mp h
    split at h
    · cases h
    · obtain ⟨rfl, heq⟩ := Prod.mk.inj (Except.ok.inj h)
      obtain ⟨rfl, -⟩ := Prod.mk.inj heq
      obtain ⟨hfind, hws⟩ := getEntity_eq_ok (mapError_eq_ok.mp hget)
      obtain ⟨hstored, hids⟩ := casesForDataset_stored hexisting
      exact ⟨hfind, hws, hstored, hids⟩

/-- `append_case_to_dataset`: whether a new dataset is created. -/
def appendCaseToDataset (workspaceId datasetId : String) (minted : Minted) (caseData : Object)
    (createVersionIfFrozen : Bool) : Scope κ Bool := do
  let (d, existing, c) ← tryQuery
    (appendInput models workspaceId datasetId (minted.stamps 0) caseData createVersionIfFrozen)
  if d.status = .frozen then
    let _ ← persistDataset digest workspaceId (successorArgs minted d) (existing ++ [c])
    return true
  else
    putEntity workspaceId (.case c)
    let d' ← tryQuery fun _ => extended digest existing c d
    putEntity workspaceId (.dataset d')
    return false

end Selfevals.Api.DatasetWriter
