import Selfevals.Lib.Records
import Selfevals.Schemas.Experiments

/-!
# Eval cases, with all their fields

`schemas/eval_case.py` as the loader validates it. `EvalCase.Valid` says what the field constraints
and the validators say; a message of a conversation is read from the input where there is one.
-/

namespace Selfevals.Schemas.EvalCases

open Lib.JsonValue Lib.Records Schemas.Base Schemas.Enums Schemas.Experiments

/-! ### Enumerations -/

inductive GroundTruthMethod
  | exactMatch | schemaValidation | deterministicAssertion | referenceAnswer | rubric
  | pairwisePreference | outcomeBased | humanJudgment | llmJudge | hybrid
deriving DecidableEq, Repr

instance : Coded GroundTruthMethod where
  value
    | .exactMatch => "exact_match"
    | .schemaValidation => "schema_validation"
    | .deterministicAssertion => "deterministic_assertion"
    | .referenceAnswer => "reference_answer"
    | .rubric => "rubric"
    | .pairwisePreference => "pairwise_preference"
    | .outcomeBased => "outcome_based"
    | .humanJudgment => "human_judgment"
    | .llmJudge => "llm_judge"
    | .hybrid => "hybrid"
  members := [.exactMatch, .schemaValidation, .deterministicAssertion, .referenceAnswer, .rubric,
    .pairwisePreference, .outcomeBased, .humanJudgment, .llmJudge, .hybrid]

inductive Modality
  | text | image | audio | voice | browserUse | sensor
deriving DecidableEq, Repr

instance : Coded Modality where
  value
    | .text => "text"
    | .image => "image"
    | .audio => "audio"
    | .voice => "voice"
    | .browserUse => "browser_use"
    | .sensor => "sensor"
  members := [.text, .image, .audio, .voice, .browserUse, .sensor]

/-! ### Cases -/

/-- The features of a case. -/
structure FeatureTag where
  primary : String
  secondary : List String := []

/-- Where a case came from. -/
structure SourceInfo where
  type : DatasetSource
  failureType : Option String := none
  failureId : Option String := none
  parentCaseId : Option String := none

/-- How much is at risk. -/
structure RiskProfile where
  overall : String
  userTrust : Option String := none
  privacy : Option String := none
  reversibility : Option String := none
  safety : Option String := none
  cost : Option String := none

/-- How a case can be judged. -/
structure GroundTruthSpec where
  methods : List GroundTruthMethod

/-- `CaseTaxonomy`. -/
structure CaseTaxonomy where
  level : Level
  feature : FeatureTag
  source : SourceInfo
  groundTruth : GroundTruthSpec
  runtime : RuntimeLocation := .offline
  datasetType : DatasetType
  risk : Option RiskProfile := none

/-- The expectations that graders read. -/
structure Expected where
  outcome : Option String := none
  mustInclude : List String := []
  minRecall : Option ℚ := none
  mustNotInclude : List String := []
  requiredTools : List String := []
  forbiddenTools : List String := []
  requiredCitations : List String := []
  policyFlags : List String := []
  structuredOutput : Option Object := none
  outputSchema : Option Object := none
  requiredSections : List String := []
  aliases : Items String := ⟨[]⟩

/-- What a failure blocks. -/
structure Blocking where
  merge : Bool := false
  release : Bool := false

/-- A `datetime`: its microseconds on the clock of its offset, and the offset, if it has one. -/
structure DateTime where
  clock : ℤ
  offset : Option ℤ
deriving DecidableEq

/-- `CaseMetadata`. -/
structure CaseMetadata where
  owner : Option String := none
  tags : List String := []
  piiStatus : PiiStatus := .raw
  approvedRawBy : Option String := none
  approvedRawAt : Option DateTime := none
  notes : Option String := none

/-- `EvalCase`. -/
structure EvalCase extends BaseEntity where
  experimentId : Option String := none
  name : String
  taskType : String
  modalities : List Modality := [.text]
  input : Object
  context : Option Object := none
  expected : Expected := {}
  taxonomy : CaseTaxonomy
  graders : List String := []
  failureWeights : Items ℤ := ⟨[]⟩
  criticalFailureModes : List String := []
  referenceOutput : Option String := none
  metadata : CaseMetadata := {}
  blocking : Blocking := {}
  holdout : Bool := false
  contentHash : Option String := none

/-! ### Conversations -/

/-- A field that may be left out, and is of a kind where it is not. -/
def optionally (o : Object) (key : String) (kind : Json → Bool) : Bool := (o.lookup key).all kind

/-- A text, or null. -/
def isText (j : Json) : Bool := j.asStr.isSome || j.isNull

/-- `ContentBlock`, with any further keys. -/
def isContentBlock : Json → Bool
  | .obj o => optionally o "type" (fun j => (j.asStr.bind (Coded.ofValue (α := Modality))).isSome) &&
      optionally o "text" isText
  | _ => false

/-- The role of a `Message`, if it is one. -/
def messageRole : Json → Option String
  | .obj o => do
    let role ← (o.lookup "role").bind Json.asStr
    let content ← o.lookup "content"
    let valid := match content with
      | .str _ => true
      | .arr blocks => blocks ≠ [] && blocks.all isContentBlock
      | _ => false
    guard (valid && optionally o "name" isText && role ∈ ["system", "user", "assistant", "tool"] &&
      o.all fun item => item.1 ∈ ["role", "content", "name"])
    return role
  | _ => none

/-- `_validate_conversation_shape`: a conversation has a message that is not the assistant's. -/
def isInput (input : Object) : Bool :=
  match input.lookup "messages" with
  | none => true
  | some (.arr messages) =>
    match messages.mapM messageRole with
    | none => false
    | some roles => roles.any (· ≠ "assistant")
  | some _ => false

/-! ### Field constraints and validators -/

/-- Strings with something in them, each once. -/
def UniqueNames (names : List String) : Prop := (∀ s ∈ names, NonEmpty s) ∧ names.Nodup
deriving Decidable

/-- What the fields of a profile meet. -/
def RiskProfile.Valid (r : RiskProfile) : Prop :=
  NonEmpty r.overall ∧ ∀ level ∈ r.userTrust.toList ++ r.privacy.toList ++ r.reversibility.toList ++
    r.safety.toList ++ r.cost.toList, NonEmpty level
deriving Decidable

/-- What the fields of a taxonomy meet. -/
def CaseTaxonomy.Valid (t : CaseTaxonomy) : Prop :=
  (NonEmpty t.feature.primary ∧ UniqueNames t.feature.secondary ∧
    t.feature.primary ∉ t.feature.secondary) ∧
    (t.groundTruth.methods ≠ [] ∧ t.groundTruth.methods.Nodup) ∧ ∀ r ∈ t.risk, RiskProfile.Valid r
deriving Decidable

/-- `_pii_contract`: raw data of production or staging has been approved. -/
def PiiContract (source : DatasetSource) (m : CaseMetadata) : Prop :=
  (source = .production ∨ source = .staging) → m.piiStatus = .raw →
    (∃ by_ ∈ m.approvedRawBy, NonEmpty by_) ∧ m.approvedRawAt.isSome
deriving Decidable

/-- What the model accepts. -/
def EvalCase.Valid (c : EvalCase) : Prop :=
  (BaseEntity.Valid c.toBaseEntity ∧ (∀ e ∈ c.experimentId, NonEmpty e) ∧ NonEmpty c.name ∧
    NonEmpty c.taskType ∧ c.modalities ≠ [] ∧ c.modalities.Nodup ∧ isInput c.input = true) ∧
  (CaseTaxonomy.Valid c.taxonomy ∧ UniqueNames c.graders ∧ UniqueNames c.criticalFailureModes ∧
    (∀ w ∈ c.failureWeights.items, 0 ≤ w.2) ∧ (∀ q ∈ c.expected.minRecall, IsRate q) ∧
    (∀ owner ∈ c.metadata.owner, NonEmpty owner) ∧ PiiContract c.taxonomy.source.type c.metadata ∧
    ∀ tool ∈ c.expected.requiredTools, tool ∉ c.expected.forbiddenTools)
deriving Decidable

/-- A case that leaves every optional field at its default. -/
def EvalCase.minimal : EvalCase where
  id := "ec_1"
  workspaceId := "ws_1"
  createdAt := 0
  updatedAt := 0
  name := "refund"
  taskType := "qa"
  input := [("message", .str "Where is my refund?")]
  taxonomy := {
    level := .finalResponse
    feature := { primary := "refunds" }
    source := { type := .handcrafted }
    groundTruth := { methods := [.rubric] }
    datasetType := .capability }

theorem EvalCase.minimal_valid : EvalCase.minimal.Valid := by decide

theorem EvalCase.Valid.minRecall {c : EvalCase} (h : c.Valid) :
    ∀ q ∈ c.expected.minRecall, IsRate q :=
  h.2.2.2.2.2.1

instance : Entity EvalCase where
  base c := c.toBaseEntity
  withCreatedAt c t := { c with createdAt := t }
  base_withCreatedAt _ _ := rfl

end Selfevals.Schemas.EvalCases
