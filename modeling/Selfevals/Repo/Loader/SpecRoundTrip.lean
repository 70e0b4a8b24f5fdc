import Selfevals.Repo.Loader.ModelClasses
import Selfevals.Repo.Loader.Specs

/-!
# The round trip of a spec through the payload of a run job

A worker runs the spec that it builds from the payload. The dumps leave out the timeout of an
embedded agent and the manifest of an inline dataset, what a free-form field holds is written as
JSON, and the primary grader is checked again, without the cases that a dataset of the request has
replaced.

* `deserialize_eq_ok_iff` : when a launched spec comes back, over any model classes;
-/

namespace Selfevals.Repo.Loader.SpecRoundTrip

open Lib.JsonValue Lib.Records Schemas.Base Schemas.Enums Schemas.Experiments Schemas.EvalCases
  Repo.Loader.Models Repo.Loader.ModelClasses Repo.Loader.Agent Repo.Loader.Datasets
  Repo.Loader.Graders Repo.Loader.Specs

variable {κ : Type}

/-! ### What comes back -/

theorem payloadWorkspace_serialize {S : Schemas κ} (host : Host) {spec : ExperimentSpec κ}
    {w : NonEmptyStr} (hw : spec.workspaceId = .str w.val) :
    payloadWorkspace host (serializeExperimentSpec S spec) = w.val := by
  have hget : dictGet (serializeExperimentSpec S spec) "workspace" = .str w.val := by
    rw [← hw]
    rfl
  have htruthy : (Json.str w.val).orElse (.str "") = .str w.val := by
    simp [Json.orElse, Json.truthy, w.property]
  rw [payloadWorkspace, hget, htruthy]

theorem buildExperiment_serialize {S : Schemas κ} {spec : ExperimentSpec κ}
    (h : S.experiment.WritesIds spec.experiment) {host : Host} {specPath : String}
    {workspaceId : Json} {e : Experiment} :
    buildExperiment S host specPath (serializeExperimentSpec S spec) workspaceId = .ok e ↔
      S.experiment.validate (S.experiment.modelDump spec.experiment) = .ok e := by
  have hget : dictGet (serializeExperimentSpec S spec) "experiment" =
      .obj (S.experiment.modelDump spec.experiment) := rfl
  simp only [buildExperiment, hget, setDefault_of_isSome h.id_isSome,
    setDefault_of_isSome h.workspaceId_isSome]
  cases S.experiment.validate (S.experiment.modelDump spec.experiment) <;> simp

/-- An inline dataset has no manifest. -/
def NoManifest (spec : ExperimentSpec κ) : Prop :=
  ∀ source, spec.datasetSource = .inline source →
    source.name = none ∧ source.datasetType = none ∧ source.splitAllocation = none ∧
      source.description = none

theorem buildDatasetSource_serialize {S : Schemas κ} {spec : ExperimentSpec κ}
    (hspec : Launched S spec) (hids : ∀ case, S.evalCase.WritesIds case) {host : Host}
    {specPath : String} {workspaceId : Json} :
    buildDatasetSource S host specPath (serializeExperimentSpec S spec) workspaceId =
      .ok spec.datasetSource ↔
        (∀ case ∈ spec.cases, S.evalCase.validate (S.evalCase.modelDump case) = .ok case) ∧
          NoManifest spec := by
  have hraw : (serializeExperimentSpec S spec).lookup "dataset" =
      some (.obj (dumpDatasetSource S spec)) := rfl
  have hok := hspec.source
  have hcasesEq := hspec.cases_eq
  unfold NoManifest
  cases hsource : spec.datasetSource with
  | ref source =>
    rw [hsource] at hok hcasesEq
    have hcases : spec.cases = [] := hcasesEq
    rw [hcases]
    exact iff_of_true (buildDatasetSource_dump_ref S host specPath workspaceId hsource hok hraw)
      ⟨nofun, nofun⟩
  | inline source =>
    rw [hsource] at hok hcasesEq
    have hcases : spec.cases = source.cases := hcasesEq
    rw [buildDatasetSource_dump_inline hids hsource hcases (hcases ▸ hok.1) hraw]
    simp only [DatasetSpec.inline.injEq, forall_eq']

/-! ### When the spec itself comes back -/

/-- Nothing of the spec is left out: an embedded agent has no timeout, an inline dataset no
manifest; and the primary grader over a reference is declared. -/
structure Carried (spec : ExperimentSpec κ) : Prop where
  embedded : ∀ a, spec.agent = .embedded a → a.timeoutSeconds = none
  inline : NoManifest spec
  ref : ∀ source, spec.datasetSource = .ref source → PrimaryRuns spec.experiment spec.graders []

theorem primaryRuns_iff {S : Schemas κ} {spec : ExperimentSpec κ} (hspec : Launched S spec) :
    PrimaryRuns spec.experiment spec.graders (spec.cases.flatMap S.caseGraders) ↔
      ∀ source, spec.datasetSource = .ref source →
        PrimaryRuns spec.experiment spec.graders [] := by
  have hcasesEq := hspec.cases_eq
  cases hsource : spec.datasetSource with
  | ref source =>
    rw [hsource] at hcasesEq
    rw [hcasesEq]
    exact ⟨fun h _ _ => h, fun h => h source rfl⟩
  | inline source => exact ⟨fun _ _ h => (nomatch h), fun _ => hspec.primary source hsource⟩

theorem deserialize_eq_ok_iff {S : Schemas κ} {spec : ExperimentSpec κ} (hspec : Launched S spec)
    (hexperiment : S.experiment.WritesIds spec.experiment)
    (hcase : ∀ case, S.evalCase.WritesIds case) {host : Host} :
    deserializeExperimentSpec S host (serializeExperimentSpec S spec) = .ok spec ↔
      (S.experiment.validate (S.experiment.modelDump spec.experiment) = .ok spec.experiment ∧
        ∀ case ∈ spec.cases, S.evalCase.validate (S.evalCase.modelDump case) = .ok case) ∧
      Carried spec := by
  obtain ⟨w, hw⟩ := hspec.workspace
  obtain ⟨specPath, raw, hgraders⟩ := hspec.graders
  have hagent : buildAgentSpec "<inline>" (serializeExperimentSpec S spec) =
      .ok (rehydrated spec.agent) := buildAgentSpec_dump _ rfl
  have hback : buildGraderSpecs "<inline>" (serializeExperimentSpec S spec) = .ok spec.graders :=
    buildGraderSpecs_dump hgraders "<inline>" rfl
  rw [deserializeExperimentSpec, payloadWorkspace_serialize host hw, buildSpecFromMapping_eq_ok]
  dsimp only [specPathOf]
  rw [buildExperiment_serialize hexperiment, buildDatasetSource_serialize hspec hcase, hagent,
    hback, Except.ok.injEq, rehydrated_eq_self, primaryRuns_iff hspec]
  constructor
  · rintro ⟨-, he, ⟨hcases, hinline⟩, hembedded, -, href⟩
    exact ⟨⟨he, hcases⟩, hembedded, hinline, href⟩
  · rintro ⟨⟨he, hcases⟩, hembedded, hinline, href⟩
    exact ⟨⟨hw, hspec.cases_eq⟩, he, ⟨hcases, hinline⟩, hembedded, rfl, href⟩

section Worker
variable [Pydantic]

/-- What the free-form fields of the experiment and the cases hold is JSON. -/
def FreeFormIsJson (spec : ExperimentSpec EvalCase) : Prop :=
  jsonableExperiment spec.experiment = spec.experiment ∧
    ∀ case ∈ spec.cases, jsonableCase case = case

variable {now later : Time} {splitAllocation : Object → Except String SplitAllocation}
  {spec : ExperimentSpec EvalCase}

theorem launched_later (h : Launched (specSchemas now splitAllocation) spec) :
    Launched (specSchemas later splitAllocation) spec where
  workspace := h.workspace
  experiment _ := h.experiment fun _ _ => valid_of_validate_experiment
  cases_eq := h.cases_eq
  source := by
    have hok := h.source
    cases hsource : spec.datasetSource with
    | ref source =>
      rw [hsource] at hok
      exact hok
    | inline source =>
      rw [hsource] at hok
      refine ⟨hok.1, fun case hcase => ?_⟩
      obtain ⟨payload, hvalidate⟩ := hok.2 case hcase
      exact ⟨_, validate_dumpAll_evalCase (valid_of_validate_evalCase hvalidate)⟩
  graders := h.graders
  primary := by
    have hprimary := h.primary
    rw [specSchemas_caseGraders] at hprimary ⊢
    exact hprimary

theorem valid_of_mem_cases (h : Launched (specSchemas now splitAllocation) spec) {case : EvalCase}
    (hcase : case ∈ spec.cases) : case.Valid := by
  have hok := h.source
  rw [h.cases_eq] at hcase
  cases hsource : spec.datasetSource with
  | ref source =>
    rw [hsource] at hcase
    cases hcase
  | inline source =>
    rw [hsource] at hok hcase
    obtain ⟨payload, hvalidate⟩ := hok.2 case hcase
    exact valid_of_validate_evalCase hvalidate

theorem serialize_eq (later : Time) (spec : ExperimentSpec EvalCase) :
    serializeExperimentSpec (specSchemas now splitAllocation) spec =
      serializeExperimentSpec (specSchemas later splitAllocation) spec := by
  have hexperiment : (specSchemas now splitAllocation).experiment.modelDump =
      (specSchemas later splitAllocation).experiment.modelDump := by
    rw [specSchemas_experiment, specSchemas_experiment]
    exact funext fun e => dumpAll_experimentFields now later _
  have hcase : (specSchemas now splitAllocation).evalCase.modelDump =
      (specSchemas later splitAllocation).evalCase.modelDump := by
    rw [specSchemas_evalCase, specSchemas_evalCase]
    exact funext fun c => dumpAll_evalCaseFields now later _
  simp only [serializeExperimentSpec, dumpDatasetSource, hexperiment, hcase]

theorem deserialize_launched_iff (h : Launched (specSchemas now splitAllocation) spec)
    (worker : Host) :
    deserializeExperimentSpec (specSchemas later splitAllocation) worker
        (serializeExperimentSpec (specSchemas now splitAllocation) spec) = .ok spec ↔
      FreeFormIsJson spec ∧ Carried spec := by
  have hlater : Launched (specSchemas later splitAllocation) spec := launched_later h
  have hvalid := h.experiment fun _ _ => valid_of_validate_experiment
  rw [serialize_eq later, deserialize_eq_ok_iff hlater (writesIds_experiment _)
    writesIds_evalCase, experiment_comes_back hvalid]
  refine and_congr_left' (and_congr_right' (forall₂_congr fun case hcase => ?_))
  exact evalCase_comes_back (valid_of_mem_cases h hcase)

/-- **The spec of a launch comes back from the payload of its job exactly when nothing of it is lost
on the way.** The worker is another process, at another time, than the one that launched. -/
theorem deserialize_serialize_iff (now later : Time)
    (splitAllocation : Object → Except String SplitAllocation) (api worker : Host)
    (workspaceId : NonEmptyStr) (body : RunExperimentRequest) (spec : ExperimentSpec EvalCase)
    (hlaunch : launchSpec (specSchemas now splitAllocation) api workspaceId body = .ok spec) :
    deserializeExperimentSpec (specSchemas later splitAllocation) worker
        (serializeExperimentSpec (specSchemas now splitAllocation) spec) = .ok spec ↔
      FreeFormIsJson spec ∧ Carried spec :=
  deserialize_launched_iff (launchSpec_launched hlaunch) worker

end Worker

/-! ### A launch -/

def epoch : DateTime := ⟨0, some 0⟩

/-- The epoch as it is written, and any other moment by a number. -/
def writeMoment (t : DateTime) : String :=
  if t = epoch then "1970-01-01T00:00:00Z"
  else String.ofList (List.replicate (Encodable.encode (t.clock, t.offset)) '+')

def readMoment (s : String) : Option DateTime :=
  if s = "1970-01-01T00:00:00Z" then some epoch
  else (Encodable.decode s.toList.length).map fun t : ℤ × Option ℤ => ⟨t.1, t.2⟩

theorem readMoment_writeMoment (t : DateTime) : readMoment (writeMoment t) = some t := by
  unfold writeMoment
  split_ifs with h
  · rw [h]
    rfl
  · have hplus : ∀ n, String.ofList (List.replicate n '+') ≠ "1970-01-01T00:00:00Z" := by
      intro n heq
      have hmem : '1' ∈ (String.ofList (List.replicate n '+')).toList := by
        rw [heq]
        decide
      rw [String.toList_ofList] at hmem
      exact absurd (List.eq_of_mem_replicate hmem) (by decide)
    rw [readMoment, if_neg (hplus _), String.toList_ofList, List.length_replicate,
      Encodable.encodek]
    rfl

/-- Numbers and flags are read as they are, and free-form fields hold JSON. -/
instance strict : Pydantic where
  int
    | .int n => some n
    | _ => none
  float
    | .int n => some n
    | .float q => some q
    | _ => none
  bool
    | .bool b => some b
    | _ => none
  datetime j := j.asStr.bind readMoment
  isoformat := writeMoment
  jsonable o := o
  message _ := "validation error"
  int_int _ := rfl
  float_float _ := rfl
  bool_bool _ := rfl
  datetime_isoformat := readMoment_writeMoment

/-- The model classes of a process that looks at its clock at a time. -/
def refundSchemas (now : Time) : Schemas EvalCase :=
  specSchemas now fun _ => .error "no split allocation"

/-- A host without files. -/
def emptyHost : Host where
  readLines _ := none
  readYaml _ := none
  loadsJson _ := .error "no document"
  resolve dir path := dir ++ path.typeName
  str v := v.typeName
  experimentId := "exp_2"
  caseId i := s!"ec_{i}"
  traceSamplingOverride := none

/-- An experiment with nothing but what it has to have. -/
def refundExperiment : Object :=
  let ref (id : String) : Json := .obj [("id", .str id)]
  [("id", .str "exp_1"), ("name", .str "refunds"), ("goal", .str "answer refund questions"),
    ("mode", .str "agent_loop"),
    ("taxonomy", .obj [("target_features", .arr [.str "refunds"]),
      ("dataset_types", .arr [.str "smoke"])]),
    ("datasets", .obj [("optimization", .obj [("id", .str "ds_1"), ("version", .int 1)])]),
    ("target", .obj [("primary",
      .obj [("name", .str "pass@1"), ("operator", .str ">="), ("value", .float (9 / 10))])]),
    ("frozen", .obj [("fleet", ref "fleet_1"), ("agents", .arr [ref "agent_1"]),
      ("datasets", .arr [ref "ds_1"])]),
    ("proposer", .obj [("strategy", .str "grid")]), ("run", .obj [("sandbox", .str "mock")])]

/-- A case as a request writes it. -/
def lateParcel : Object :=
  [("name", .str "late parcel"), ("task_type", .str "refund"),
    ("input", .obj [("question", .str "Where is my parcel?")]),
    ("taxonomy", .obj [("level", .str "agent"), ("feature", .obj [("primary", .str "refunds")]),
      ("source", .obj [("type", .str "handcrafted")]),
      ("ground_truth", .obj [("methods", .arr [.str "exact_match"])]),
      ("dataset_type", .str "smoke")])]

/-- One case, and an embedded agent with the given timeout. -/
def refundPayload (timeout : Json) : Object :=
  [("experiment", .obj refundExperiment),
    ("dataset", .obj [("cases_inline", .arr [.obj lateParcel])]),
    ("agent", .obj [("entrypoint", .str "pkg.agent:run"), ("timeout_seconds", timeout)])]

/-- A launch with one case and an embedded agent. -/
def refundRequest (timeout : Json) : RunExperimentRequest where
  source := .inr (refundPayload timeout)

/-- The case that is read from the request. -/
def lateParcelCase : EvalCase where
  id := "ec_0"
  workspaceId := "ws_1"
  createdAt := 0
  updatedAt := 0
  name := "late parcel"
  taskType := "refund"
  input := [("question", .str "Where is my parcel?")]
  taxonomy := {
    level := .agent
    feature := { primary := "refunds" }
    source := { type := .handcrafted }
    groundTruth := ⟨[.exactMatch]⟩
    datasetType := .smoke }

/-- The spec that is launched for such a request. -/
def refundSpec (timeout : Option Timeout) : ExperimentSpec EvalCase where
  workspaceId := .str "ws_1"
  experiment := Experiment.minimal
  cases := [lateParcelCase]
  agent := .embedded {
    entrypoint := ⟨"pkg.agent:run", "pkg.agent", "run", by decide⟩
    timeoutSeconds := timeout
    named := by decide }
  datasetSource := .inline { cases := [lateParcelCase] }
  graders := []

theorem validate_refund : (refundSchemas 0).experiment.validate
    (refundExperiment ++ [("workspace_id", .str "ws_1")]) = .ok Experiment.minimal := by
  unfold refundSchemas
  rw [specSchemas_experiment, validate_eq_ok_iff]
  exact ⟨rfl, Experiment.minimal_valid⟩

theorem validate_lateParcel : (refundSchemas 0).evalCase.validate
    (lateParcel ++ [("id", .str "ec_0"), ("workspace_id", .str "ws_1")]) = .ok lateParcelCase := by
  unfold refundSchemas
  rw [specSchemas_evalCase, validate_eq_ok_iff]
  exact ⟨rfl, by decide +kernel⟩

theorem launchSpec_refund {timeout : Json} {t : Option Timeout}
    (hagent : buildAgentSpec "<inline>" (refundPayload timeout) = .ok (refundSpec t).agent) :
    launchSpec (refundSchemas 0) emptyHost ⟨"ws_1", by decide⟩ (refundRequest timeout) =
      .ok (refundSpec t) := by
  have hexperiment : buildExperiment (refundSchemas 0) emptyHost "<inline>" (refundPayload timeout)
      (.str "ws_1") = .ok Experiment.minimal := by
    have hpayload : dictGet (refundPayload timeout) "experiment" = .obj refundExperiment := rfl
    have hfilled : setDefault (setDefault refundExperiment "id" (.str emptyHost.experimentId))
        "workspace_id" (.str "ws_1") = refundExperiment ++ [("workspace_id", .str "ws_1")] := rfl
    simp only [buildExperiment, hpayload, hfilled, validate_refund]
  have hcase : buildCase (refundSchemas 0) emptyHost "<inline>" (.str "ws_1") 0 (.obj lateParcel) =
      .ok lateParcelCase := by
    have hid : emptyHost.caseId 0 = "ec_0" := rfl
    have hpayload : setDefault (setDefault lateParcel "id" (.str "ec_0")) "workspace_id"
        (.str "ws_1") = lateParcel ++ [("id", .str "ec_0"), ("workspace_id", .str "ws_1")] := rfl
    simp only [buildCase, hid, hpayload, validate_lateParcel]
  have hsource : buildDatasetSource (refundSchemas 0) emptyHost "<inline>" (refundPayload timeout)
      (.str "ws_1") = .ok (refundSpec t).datasetSource := by
    change (((buildCase (refundSchemas 0) emptyHost "<inline>" (.str "ws_1") 0
      (.obj lateParcel) >>= _) >>= _).map _) = _
    rw [hcase]
    rfl
  have hbuilt : buildSpecFromMapping (refundSchemas 0) emptyHost (refundPayload timeout)
      (some "ws_1") none = .ok (refundSpec t) :=
    (buildSpecFromMapping_eq_ok (w := ⟨"ws_1", by decide⟩)).mpr
      ⟨⟨rfl, rfl⟩, hexperiment, hsource, hagent, rfl, by rintro _ ⟨⟩⟩
  change (buildSpecFromMapping (refundSchemas 0) emptyHost (refundPayload timeout) (some "ws_1")
    none >>= _) >>= _ = _
  rw [hbuilt]
  rfl

theorem carried_refund : FreeFormIsJson (refundSpec none) ∧ Carried (refundSpec none) := by
  refine ⟨⟨rfl, ?_⟩, ?_, ?_, nofun⟩
  · intro case hcase
    obtain rfl := List.mem_singleton.mp hcase
    rfl
  · rintro _ ⟨⟩
    rfl
  · rintro _ ⟨⟩
    exact ⟨rfl, rfl, rfl, rfl⟩

theorem deserialize_refund (later : Time) : deserializeExperimentSpec (refundSchemas later) emptyHost
    (serializeExperimentSpec (refundSchemas 0) (refundSpec none)) = .ok (refundSpec none) :=
  have hlaunch : launchSpec (refundSchemas 0) emptyHost ⟨"ws_1", by decide⟩
      (refundRequest .null) = .ok (refundSpec none) := launchSpec_refund rfl
  (deserialize_launched_iff (launchSpec_launched hlaunch) emptyHost).mpr carried_refund

/-- Without a timeout the spec of the request comes back. -/
theorem refundSpec_comes_back :
    deserializeExperimentSpec (refundSchemas 1) emptyHost
      (serializeExperimentSpec (refundSchemas 0) (refundSpec none)) = .ok (refundSpec none) :=
  (deserialize_serialize_iff 0 1 (fun _ => .error "no split allocation") emptyHost emptyHost
    ⟨"ws_1", by decide⟩ (refundRequest .null) (refundSpec none) (launchSpec_refund rfl)).mpr
      carried_refund

/-- The spec of a launch comes back from the payload of its job. -/
def RoundTrips (now later : Time) (api worker : Host) (workspaceId : NonEmptyStr)
    (body : RunExperimentRequest) : Prop :=
  ∀ spec, launchSpec (refundSchemas now) api workspaceId body = .ok spec →
    deserializeExperimentSpec (refundSchemas later) worker
      (serializeExperimentSpec (refundSchemas now) spec) = .ok spec

/-- **An embedded agent with a timeout of 30 seconds runs without one in the worker.** -/
theorem timeout_lost :
    ¬ RoundTrips 0 1 emptyHost emptyHost ⟨"ws_1", by decide⟩ (refundRequest (.int 30)) := by
  intro h
  have hlaunch : launchSpec (refundSchemas 0) emptyHost ⟨"ws_1", by decide⟩
      (refundRequest (.int 30)) = .ok (refundSpec (some ⟨30, by decide⟩)) := launchSpec_refund rfl
  obtain ⟨-, hcarried⟩ :=
    (deserialize_launched_iff (launchSpec_launched hlaunch) emptyHost).mp (h _ hlaunch)
  cases hcarried.embedded _ rfl

end Selfevals.Repo.Loader.SpecRoundTrip
