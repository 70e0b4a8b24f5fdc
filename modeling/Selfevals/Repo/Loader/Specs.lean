import Selfevals.Repo.Loader.Agent
import Selfevals.Repo.Loader.Datasets
import Selfevals.Repo.Loader.Graders

/-!
# Experiment specs: load, serialize, deserialize, launch

`buildSpecFromMapping` builds a spec from a document, `serializeExperimentSpec` writes one into the
payload of a run job and `deserializeExperimentSpec` builds it again from there. `launchSpec` is
what the endpoint makes of a request: the spec of its source, with the dataset of the request and
the overrides put in.
-/

namespace Selfevals.Repo.Loader.Specs

open Lib.JsonValue Lib.Result Schemas.Base Schemas.Enums Schemas.Experiments Repo.Loader.Models
  Repo.Loader.Agent Repo.Loader.Datasets Repo.Loader.Graders

variable {κ : Type}

/-! ### Building -/

/-- `_build_experiment`. -/
def buildExperiment (S : Schemas κ) (host : Host) (specPath : String) (raw : Object)
    (workspaceId : Json) : Except LoadError Experiment :=
  match dictGet raw "experiment" with
  | .obj payload =>
    let payload := setDefault payload "id" (.str host.experimentId)
    let payload := setDefault payload "workspace_id" workspaceId
    match S.experiment.validate payload with
    | .ok e => .ok e
    | .error exc => .error (.located specPath s!"invalid experiment payload: {exc}")
  | _ => .error (.located specPath "missing or non-mapping `experiment:` section")

/-- The names of the graders that run: those declared, those that a case asks for, and the implicit
default where there is none. -/
def graderNames (graders : List GraderSpec) (caseGraders : List String) : List String :=
  let names := graders.map (·.name.val) ++ caseGraders
  if names = [] then ["deterministic"] else names

/-- The primary grader, if there is one, is a grader that runs. -/
def PrimaryRuns (e : Experiment) (graders : List GraderSpec) (caseGraders : List String) : Prop :=
  ∀ primary ∈ e.target.primaryGrader, primary ∈ graderNames graders caseGraders
deriving Decidable

/-- `_validate_primary_grader`; the message ends in the sorted names. -/
def validatePrimaryGrader (specPath : String) (e : Experiment) (graders : List GraderSpec)
    (caseGraders : List String) : Except LoadError Unit :=
  match e.target.primaryGrader with
  | none => .ok ()
  | some primary =>
    let names := graderNames graders caseGraders
    if primary ∈ names then .ok ()
    else .error (.loaderError [.text s!"{specPath}: target.primary_grader ", .repr (.str primary),
      .text " is not a configured grader. Available: ",
      .repr (.arr ((names.dedup.insertionSort (· ≤ ·)).map .str))])

theorem validatePrimaryGrader_ok_iff (specPath : String) (e : Experiment)
    (graders : List GraderSpec) (caseGraders : List String) :
    validatePrimaryGrader specPath e graders caseGraders = .ok () ↔
      PrimaryRuns e graders caseGraders := by
  unfold validatePrimaryGrader PrimaryRuns
  cases e.target.primaryGrader with
  | none => simp
  | some primary =>
    by_cases h : primary ∈ graderNames graders caseGraders
    · simp [h]
    · simp [h]

/-- `workspace_id or raw.get("workspace") or raw.get("workspace_id")`. -/
def workspaceOf (workspaceId : Option String) (raw : Object) : Json :=
  ((workspaceId.map Json.str).getD .null).orElse
    ((dictGet raw "workspace").orElse (dictGet raw "workspace_id"))

/-- The cases of a spec: an inline source declares them, those of a reference come from storage. -/
def sourceCases : DatasetSpec κ → List κ
  | .inline source => source.cases
  | .ref _ => []

/-- The path that errors name: a spec with no file has none to resolve against. -/
def specPathOf (sourceDir : Option String) : String :=
  match sourceDir with
  | none => "<inline>"
  | some dir => dir ++ "/<inline>"

/-- `build_spec_from_mapping`. -/
def buildSpecFromMapping (S : Schemas κ) (host : Host) (raw : Object) (workspaceId : Option String)
    (sourceDir : Option String) : Except LoadError (ExperimentSpec κ) := do
  let wsId := workspaceOf workspaceId raw
  if wsId.truthy = false then
    .error (.loaderError [.text
      "workspace_id missing — pass --workspace or set top-level `workspace:` key"])
  else
    let specPath := specPathOf sourceDir
    let experiment ← buildExperiment S host specPath raw wsId
    let datasetSource ← buildDatasetSource S host specPath raw wsId
    let cases := sourceCases datasetSource
    let agent ← buildAgentSpec specPath raw
    let graders ← buildGraderSpecs specPath raw
    validatePrimaryGrader specPath experiment graders (cases.flatMap S.caseGraders)
    return {
      workspaceId := wsId
      experiment := experiment
      cases := cases
      agent := agent
      datasetSource := datasetSource
      graders := graders }

/-- `load_experiment_spec`; `parent` is the directory of the file. -/
def loadExperimentSpec (S : Schemas κ) (host : Host) (path parent : String)
    (workspaceId : Option String) : Except LoadError (ExperimentSpec κ) :=
  match host.readYaml path with
  | none => .error (.loaderError [.text s!"experiment spec not found: {path}"])
  | some (.error exc) => .error (.loaderError [.text s!"could not parse YAML {path}: {exc}"])
  | some (.ok (.obj raw)) => buildSpecFromMapping S host raw workspaceId (some parent)
  | some (.ok v) => .error (.located path
      ("expected a mapping at the top level, got " ++ v.typeName))

/-! ### The payload of a run job -/

/-- `serialize_experiment_spec`: the payload of a job. -/
def serializeExperimentSpec (S : Schemas κ) (spec : ExperimentSpec κ) : Object :=
  [("workspace", spec.workspaceId), ("experiment", .obj (S.experiment.modelDump spec.experiment)),
    ("dataset", .obj (dumpDatasetSource S spec)), ("agent", .obj (dumpAgentSpec spec.agent)),
    ("graders", .arr (spec.graders.map fun g => .obj (dumpGraderSpec g)))]

/-- `str(payload.get("workspace") or "")`. -/
def payloadWorkspace (host : Host) (payload : Object) : String :=
  match (dictGet payload "workspace").orElse (.str "") with
  | .str s => s
  | v => host.str v

/-- `deserialize_experiment_spec`: in the worker. -/
def deserializeExperimentSpec (S : Schemas κ) (host : Host) (payload : Object) :
    Except LoadError (ExperimentSpec κ) :=
  buildSpecFromMapping S host payload (some (payloadWorkspace host payload)) none

/-! ### `api/run_launcher.py` -/

/-- The body of a launch, with exactly one source: a file, with its directory, or the spec itself.
-/
structure RunExperimentRequest where
  source : (String × String) ⊕ Object
  datasetId : Option String := none
  maxIterations : Option ℕ := none
  persistTraces : Option PersistTraces := none

/-- `_override_dataset`. -/
def overrideDataset (spec : ExperimentSpec κ) (datasetId : String) :
    Except LoadError (ExperimentSpec κ) :=
  match entityRef datasetId none with
  | none => .error .validationError
  | some ref =>
    let e := spec.experiment
    .ok { spec with
      experiment := { e with
        datasets := { e.datasets with optimization := ref }
        frozen := { e.frozen with datasets := [ref] } }
      datasetSource := .ref ⟨ref⟩
      cases := [] }

/-- The spec of either source; the workspace of the path wins over that of the spec. -/
def sourceSpec (S : Schemas κ) (host : Host) (workspaceId : NonEmptyStr) :
    (String × String) ⊕ Object → Except LoadError (ExperimentSpec κ)
  | .inl (path, parent) => loadExperimentSpec S host path parent (some workspaceId.val)
  | .inr raw => buildSpecFromMapping S host raw (some workspaceId.val) none

/-- `_load_spec`. -/
def loadSpec (S : Schemas κ) (host : Host) (workspaceId : NonEmptyStr)
    (body : RunExperimentRequest) : Except LoadError (ExperimentSpec κ) := do
  let spec ← sourceSpec S host workspaceId body.source
  match body.datasetId with
  | none => return spec
  | some datasetId => overrideDataset spec datasetId

/-- `_apply_overrides`: the request, then the environment, then the spec. -/
def applyOverrides (host : Host) (spec : ExperimentSpec κ) (body : RunExperimentRequest) :
    Except LoadError (ExperimentSpec κ) :=
  let run := spec.experiment.run
  let run := { run with
    persistTraces := ((body.persistTraces.or host.traceSamplingOverride).getD run.persistTraces) }
  match body.maxIterations with
  | none => .ok { spec with experiment := { spec.experiment with run := run } }
  | some n =>
    if 1 ≤ n ∧ n ≤ 10000 then
      .ok { spec with experiment := { spec.experiment with run := { run with maxIterations := n } }
        }
    else .error .validationError

/-- The spec that `launch_experiment_run` writes into the run job. -/
def launchSpec (S : Schemas κ) (host : Host) (workspaceId : NonEmptyStr)
    (body : RunExperimentRequest) : Except LoadError (ExperimentSpec κ) := do
  let spec ← loadSpec S host workspaceId body
  applyOverrides host spec body

/-! ### What is launched -/

theorem workspaceOf_some {w : NonEmptyStr} (raw : Object) :
    workspaceOf (some w.val) raw = .str w.val := by
  simp [workspaceOf, Json.orElse, Json.truthy, w.property]

theorem buildSpecFromMapping_eq_ok {S : Schemas κ} {host : Host} {raw : Object} {w : NonEmptyStr}
    {sourceDir : Option String} {spec : ExperimentSpec κ} :
    buildSpecFromMapping S host raw (some w.val) sourceDir = .ok spec ↔
      (spec.workspaceId = .str w.val ∧ spec.cases = sourceCases spec.datasetSource) ∧
      buildExperiment S host (specPathOf sourceDir) raw (.str w.val) = .ok spec.experiment ∧
      buildDatasetSource S host (specPathOf sourceDir) raw (.str w.val) = .ok spec.datasetSource ∧
      buildAgentSpec (specPathOf sourceDir) raw = .ok spec.agent ∧
      buildGraderSpecs (specPathOf sourceDir) raw = .ok spec.graders ∧
      PrimaryRuns spec.experiment spec.graders (spec.cases.flatMap S.caseGraders) := by
  have htruthy : ¬ (Json.str w.val).truthy = false := by simp [Json.truthy, w.property]
  rw [buildSpecFromMapping, workspaceOf_some]
  dsimp only
  rw [if_neg htruthy]
  simp only [bind_eq_ok]
  constructor
  · rintro ⟨experiment, hexperiment, source, hsource, agent, hagent, graders, hgraders, _, hprimary,
      h⟩
    obtain rfl := Except.ok.inj h
    exact ⟨⟨rfl, rfl⟩, hexperiment, hsource, hagent, hgraders,
      (validatePrimaryGrader_ok_iff _ _ _ _).mp hprimary⟩
  · rintro ⟨⟨hw, hcases⟩, hexperiment, hsource, hagent, hgraders, hprimary⟩
    rw [hcases] at hprimary
    refine ⟨_, hexperiment, _, hsource, _, hagent, _, hgraders, (),
      (validatePrimaryGrader_ok_iff _ _ _ _).mpr hprimary, ?_⟩
    rw [← hw, ← hcases]
    rfl

/-- What every launched spec satisfies. The primary grader was checked against the cases that the
spec declared, which a dataset of the request replaces. -/
structure Launched (S : Schemas κ) (spec : ExperimentSpec κ) : Prop where
  workspace : ∃ w : NonEmptyStr, spec.workspaceId = .str w.val
  experiment : (∀ payload e, S.experiment.validate payload = .ok e → e.Valid) →
    spec.experiment.Valid
  cases_eq : spec.cases = sourceCases spec.datasetSource
  source : SourceOk S spec.datasetSource
  graders : ∃ specPath raw, buildGraderSpecs specPath raw = .ok spec.graders
  primary : ∀ source, spec.datasetSource = .inline source →
    PrimaryRuns spec.experiment spec.graders (spec.cases.flatMap S.caseGraders)

theorem exists_validate_of_buildExperiment {S : Schemas κ} {host : Host} {specPath : String}
    {raw : Object} {workspaceId : Json} {e : Experiment}
    (h : buildExperiment S host specPath raw workspaceId = .ok e) :
    ∃ payload, S.experiment.validate payload = .ok e := by
  unfold buildExperiment at h
  split at h
  · dsimp only at h
    split at h
    · next hvalidate =>
      obtain rfl := Except.ok.inj h
      exact ⟨_, hvalidate⟩
    · cases h
  · cases h

theorem buildSpecFromMapping_launched {S : Schemas κ} {host : Host} {raw : Object}
    {w : NonEmptyStr} {sourceDir : Option String} {spec : ExperimentSpec κ}
    (h : buildSpecFromMapping S host raw (some w.val) sourceDir = .ok spec) :
    Launched S spec := by
  obtain ⟨⟨hw, hcases⟩, hexperiment, hsource, -, hgraders, hprimary⟩ :=
    buildSpecFromMapping_eq_ok.mp h
  obtain ⟨payload, hvalidate⟩ := exists_validate_of_buildExperiment hexperiment
  exact ⟨⟨w, hw⟩, fun hvalid => hvalid payload _ hvalidate, hcases, buildDatasetSource_ok hsource,
    ⟨_, raw, hgraders⟩, fun _ _ => hprimary⟩

theorem overrideDataset_launched {S : Schemas κ} {spec spec' : ExperimentSpec κ}
    {datasetId : String} (hspec : Launched S spec)
    (h : overrideDataset spec datasetId = .ok spec') : Launched S spec' := by
  unfold overrideDataset at h
  split at h
  · cases h
  · next ref href =>
    obtain rfl := Except.ok.inj h
    have hvalid := entityRef_valid href
    refine ⟨hspec.workspace, fun hvalidate => ?_, rfl, hvalid, hspec.graders, fun _ h => (nomatch h)⟩
    obtain ⟨h1, h2, h3, hdatasets, h5, ⟨hagents, -, hfrozen⟩, h7, h8, h9, h10, h11, h12, h13, h14⟩ :=
      hspec.experiment hvalidate
    refine ⟨h1, h2, h3, ?_, h5, ⟨hagents, List.cons_ne_nil _ _, ?_⟩, h7, h8, h9, h10, h11, h12, h13,
      h14⟩
    · exact List.forall_mem_cons.mpr ⟨hvalid, fun r hr => hdatasets r (List.mem_cons_of_mem _ hr)⟩
    · simp only [List.mem_append, List.mem_cons, List.not_mem_nil, or_false] at hfrozen ⊢
      grind

theorem applyOverrides_launched {S : Schemas κ} {host : Host} {spec spec' : ExperimentSpec κ}
    {body : RunExperimentRequest} (hspec : Launched S spec)
    (h : applyOverrides host spec body = .ok spec') : Launched S spec' := by
  unfold applyOverrides at h
  dsimp only at h
  split at h
  · obtain rfl := Except.ok.inj h
    refine ⟨hspec.workspace, fun hvalidate => ?_, hspec.cases_eq, hspec.source, hspec.graders,
      hspec.primary⟩
    obtain ⟨h1, h2, h3, h4, h5, h6, h7, h8, h9, h10, h11, h12, h13, h14⟩ :=
      hspec.experiment hvalidate
    exact ⟨h1, h2, h3, h4, h5, h6, h7, h8, h9, h10, h11, h12, h13, h14⟩
  · split_ifs at h with hn
    obtain rfl := Except.ok.inj h
    refine ⟨hspec.workspace, fun hvalidate => ?_, hspec.cases_eq, hspec.source, hspec.graders,
      hspec.primary⟩
    obtain ⟨h1, h2, h3, h4, h5, h6, ⟨-, hrun⟩, h8, h9, h10, h11, h12, h13, h14⟩ :=
      hspec.experiment hvalidate
    exact ⟨h1, h2, h3, h4, h5, h6, ⟨hn, hrun⟩, h8, h9, h10, h11, h12, h13, h14⟩

theorem sourceSpec_launched {S : Schemas κ} {host : Host} {workspaceId : NonEmptyStr}
    {source : (String × String) ⊕ Object} {spec : ExperimentSpec κ}
    (h : sourceSpec S host workspaceId source = .ok spec) : Launched S spec := by
  cases source with
  | inl file =>
    change loadExperimentSpec S host file.1 file.2 (some workspaceId.val) = .ok spec at h
    unfold loadExperimentSpec at h
    split at h
    · cases h
    · cases h
    · exact buildSpecFromMapping_launched h
    · cases h
  | inr raw => exact buildSpecFromMapping_launched h

/-- **Every launched spec** has a workspace, an experiment that the model accepts, a source that
holds, its cases from there, graders that were parsed, and over declared cases a primary grader that
runs. -/
theorem launchSpec_launched {S : Schemas κ} {host : Host} {workspaceId : NonEmptyStr}
    {body : RunExperimentRequest} {spec : ExperimentSpec κ}
    (h : launchSpec S host workspaceId body = .ok spec) : Launched S spec := by
  obtain ⟨loaded, hload, h⟩ := bind_eq_ok.mp h
  refine applyOverrides_launched ?_ h
  obtain ⟨built, hbuilt, hload⟩ := bind_eq_ok.mp hload
  have hlaunched := sourceSpec_launched hbuilt
  split at hload
  · obtain rfl := Except.ok.inj hload
    exact hlaunched
  · exact overrideDataset_launched hlaunched hload

end Selfevals.Repo.Loader.Specs
