import Selfevals.Lib.PyStr
import Selfevals.Schemas.Experiments

/-!
# Experiment specs

The typed blocks of an experiment spec. The loader only builds a block from data that it has
checked, so what it checks is a field of the block: an entrypoint splits, a timeout is positive, a
command is not empty, the fractions of a split sum to one. Errors carry the text of their message,
with the values that the text prints by `repr` left as values.

* `AgentEntrypoint.ofRaw?_raw` : an entrypoint is found again from its text.
-/

namespace Selfevals.Repo.Loader.Models

open Lib.JsonValue Lib.PyStr Schemas.Base Schemas.Enums Schemas.Experiments

/-! ### Errors -/

/-- A piece of a message: text, the `repr` of a value, or what pydantic says of a model. -/
inductive Part
  | text (s : String)
  | repr (v : Json)
  | invalid (model : String)
deriving Repr

/-- What building a spec raises: `LoaderError` with its message, `TypeError` where a set is asked
for an unhashable value, and the `ValidationError` of a validated assignment. -/
inductive LoadError
  | loaderError (message : List Part)
  | typeError
  | validationError
deriving Repr

namespace LoadError

/-- `LoaderError(f"{spec_path}: …")`. -/
def located (specPath text : String) : LoadError := .loaderError [.text s!"{specPath}: {text}"]

/-- A message that ends in the value it refuses. -/
def refused (specPath text : String) (got : Json) : LoadError :=
  .loaderError [.text s!"{specPath}: {text}", .repr got]

end LoadError

/-! ### Agents -/

/-- Where the agent callable is: `module:callable`, and its two parts, `module` and `attribute`. -/
structure AgentEntrypoint where
  raw : String
  module : String
  callable : String
  parts : partition ':' raw = some (module, callable)
deriving DecidableEq, Repr

namespace AgentEntrypoint

/-- The entrypoint that a text spells, if it has a colon. -/
def ofRaw? (raw : String) : Option AgentEntrypoint :=
  match h : partition ':' raw with
  | none => none
  | some (module, callable) => some ⟨raw, module, callable, h⟩

theorem ofRaw?_raw (e : AgentEntrypoint) : ofRaw? e.raw = some e := by
  obtain ⟨raw, module, callable, parts⟩ := e
  unfold ofRaw?
  split
  · rename_i h
    rw [parts] at h
    cases h
  · rename_i module' callable' h
    obtain ⟨rfl, rfl⟩ := Prod.mk.inj (Option.some.inj (parts.symm.trans h))
    rfl

/-- Neither part is empty. -/
def Named (e : AgentEntrypoint) : Prop := e.module ≠ "" ∧ e.callable ≠ ""
deriving Decidable

end AgentEntrypoint

/-- A per-case wall-clock cap, in seconds. -/
abbrev Timeout := {q : ℚ // 0 < q}

/-- A string with something other than white space in it. -/
abbrev NonBlank := {s : String // strip s ≠ ""}

/-- A string with something in it. -/
abbrev NonEmptyStr := {s : String // s ≠ ""}

/-- The model an agent runs on; advisory. -/
structure AgentModelDecl where
  provider : NonBlank
  name : NonBlank
deriving DecidableEq, Repr

/-- An agent that is a Python function. -/
structure EmbeddedAgentSpec where
  entrypoint : AgentEntrypoint
  timeoutSeconds : Option Timeout := none
  named : entrypoint.Named
deriving DecidableEq, Repr

/-- An agent that is a command. -/
structure CliAgentSpec where
  command : List String
  env : Option (List (String × String)) := none
  timeoutSeconds : Option Timeout := none
  model : Option AgentModelDecl := none
  cwd : Option String := none
  command_ne_nil : command ≠ []
deriving DecidableEq, Repr

/-- An agent behind a URL. -/
structure HttpAgentSpec where
  url : NonBlank
  headers : Option (List (String × String)) := none
  timeoutSeconds : Option Timeout := none
  model : Option AgentModelDecl := none
deriving DecidableEq, Repr

/-- `AgentSpec`: one of the three kinds of agents. -/
inductive AgentSpec
  | embedded (a : EmbeddedAgentSpec)
  | cli (a : CliAgentSpec)
  | http (a : HttpAgentSpec)
deriving DecidableEq, Repr

/-! ### Graders -/

/-- `_SUPPORTED_GRADER_TYPES`. -/
inductive GraderType
  | deterministic | llmJudge | judgePanel | pairwise | setMatch | funnel | confusion
deriving DecidableEq, Repr

instance : Coded GraderType where
  value
    | .deterministic => "deterministic"
    | .llmJudge => "llm_judge"
    | .judgePanel => "judge_panel"
    | .pairwise => "pairwise"
    | .setMatch => "set_match"
    | .funnel => "funnel"
    | .confusion => "confusion"
  members := [.deterministic, .llmJudge, .judgePanel, .pairwise, .setMatch, .funnel, .confusion]

/-- A number of judges. -/
abbrev JudgeCount := {n : ℤ // 1 ≤ n}

/-- A grader as declared; `params` is the bag of its type-specific settings. -/
structure GraderSpec where
  type : GraderType
  name : NonEmptyStr
  rubric : Option NonBlank := none
  judgeEntrypoint : Option AgentEntrypoint := none
  nJudges : Option JudgeCount := none
  consensus : Option ConsensusRule := none
  params : Object := []
deriving Repr

/-! ### Datasets -/

/-- The fractions of a dataset for each split; they are rates and sum to one within `1e-6`. -/
structure SplitAllocation where
  optimization : ℚ := 7 / 10
  holdout : ℚ := 2 / 10
  reliability : ℚ := 1 / 10
  other : List (String × ℚ) := []
  rates : ∀ q ∈ optimization :: holdout :: reliability :: other.map Prod.snd, IsRate q
  sums_to_one : |optimization + holdout + reliability + (other.map Prod.snd).sum - 1| ≤ 1 / 10 ^ 6
deriving DecidableEq, Repr

/-- Cases declared in the spec, and the manifest of the dataset that is made of them. -/
structure InlineDatasetSource (κ : Type) where
  cases : List κ
  name : Option String := none
  datasetType : Option DatasetType := none
  splitAllocation : Option SplitAllocation := none
  description : Option String := none

/-- A persisted dataset, resolved at launch. -/
structure RefDatasetSource where
  ref : EntityRef
deriving DecidableEq, Repr

/-- Where the cases come from. -/
inductive DatasetSpec (κ : Type)
  | inline (source : InlineDatasetSource κ)
  | ref (source : RefDatasetSource)

/-! ### The spec -/

/-- An experiment spec over the cases `κ`. The loader passes `workspace_id` on as it finds it. -/
structure ExperimentSpec (κ : Type) where
  workspaceId : Json
  experiment : Experiment
  cases : List κ
  agent : AgentSpec
  datasetSource : DatasetSpec κ
  graders : List GraderSpec := []

/-! ### What the loader calls -/

/-- A pydantic model class: `Model(**payload)`, which may raise with a message, and
`model_dump(mode="json")`. -/
structure ModelClass (α : Type) where
  validate : Object → Except String α
  modelDump : α → Object

/-- A dump has the two ids, which the loader puts in where a payload has none. -/
structure ModelClass.WritesIds {α : Type} (M : ModelClass α) (a : α) : Prop where
  id_isSome : ((M.modelDump a).lookup "id").isSome
  workspaceId_isSome : ((M.modelDump a).lookup "workspace_id").isSome

/-- The model classes of a spec; of a case the loader reads its graders. -/
structure Schemas (κ : Type) where
  experiment : ModelClass Experiment
  evalCase : ModelClass κ
  caseGraders : κ → List String
  splitAllocation : Object → Except String SplitAllocation

/-- What differs from one process to the next: its files, the ids it makes, its environment. -/
structure Host where
  /-- The lines of a file, if it exists. -/
  readLines : String → Option (List String)
  /-- The document of a YAML file, if it exists; the text of the `YAMLError` otherwise. -/
  readYaml : String → Option (Except String Json)
  /-- `json.loads`, or the text of the `JSONDecodeError`. -/
  loadsJson : String → Except String Json
  /-- `spec_path.parent / str(cases_path)`. -/
  resolve : String → Json → String
  /-- `str(v)` of what is no string. -/
  str : Json → String
  experimentId : String
  caseId : ℕ → String
  traceSamplingOverride : Option PersistTraces

end Selfevals.Repo.Loader.Models
