import Selfevals.Graders.Base
import Selfevals.Lib.Result

/-!
# Completeness of an artifact

An artifact is held against a subset of JSON Schema and a list of sections. `validateSchema` lists
what is wrong with a value; `Satisfies` says, with no order and no texts, what it means that nothing
is. The keywords are `type`, `required` and `properties`, and the rest is ignored.
-/

namespace Selfevals.Graders.Artifact

open Lib.JsonValue Lib.Result Graders.Base
open Schemas.EvalCases (EvalCase)

/-! ### The schema check -/

/-- The `TypeError` of a list or a dict that a dict is asked for, or what a judge raises. -/
inductive Raised
  | unhashable (typeName : String)
  | judge (text : String)
deriving DecidableEq, Repr

/-- `repr`, of a string and of a value. -/
structure Library where
  reprText : String → String
  repr : Json → String

/-- `_PRIMITIVE_TYPES`. -/
def primitiveTypes : List (String × String) :=
  [("string", "str"), ("boolean", "bool"), ("object", "dict"), ("array", "list"),
    ("null", "NoneType")]

/-- `_type_matches`. -/
def typeMatches (value : Json) (typeName : String) : Bool :=
  if typeName = "integer" then value.typeName == "int"
  else if typeName = "number" then value.typeName == "int" || value.typeName == "float"
  else
    match primitiveTypes.lookup typeName with
    | none => true
    | some expected => value.typeName == expected

/-- `path or '<root>'`. -/
def shown (path : String) : String := if path = "" then "<root>" else path

/-- `f"{path}.{key}" if path else key`. -/
def childPath (path key : String) : String := if path = "" then key else path ++ "." ++ key

variable (lib : Library)

/-- The violation of `type`, if it is one that is understood. -/
def typeError? (value : Json) (schema : Object) (path : String) : Option String :=
  match dictGet schema "type" with
  | .str typeName =>
    if typeMatches value typeName then none
    else
      let actual := if value.isNull then "null" else value.typeName
      some (shown path ++ ": expected type " ++ lib.reprText typeName ++ ", got " ++ actual)
  | _ => none

/-- `key not in value`, which raises for a key that has no hash. -/
def missingFrom (fields : Object) : Json → Except Raised Bool
  | .str name => .ok (fields.lookup name).isNone
  | key => if key.unhashable then .error (.unhashable key.typeName) else .ok true

/-- The violations of `required`. -/
def requiredErrors (fields : Object) (path : String) : List Json → Except Raised (List String)
  | [] => .ok []
  | key :: keys => do
    let missing ← missingFrom fields key
    let errors ← requiredErrors fields path keys
    return if missing then
      (shown path ++ ": missing required property " ++ lib.repr key) :: errors
    else errors

theorem sizeOf_lookup_lt {schema : Object} {key : String} {v : Json}
    (h : schema.lookup key = some v) : sizeOf v < sizeOf schema := by
  induction schema with
  | nil => cases h
  | cons field schema ih =>
    obtain ⟨k, w⟩ := field
    rw [List.lookup_cons] at h
    split at h
    · cases h
      simp
      omega
    · have := ih h
      simp
      omega

mutual

/-- `_validate_schema`: an artifact of the wrong type is not looked into. -/
def validateSchema (value : Json) (schema : Object) (path : String) :
    Except Raised (List String) :=
  match typeError? lib value schema path with
  | some error => .ok [error]
  | none =>
    match value with
    | .obj fields => do
      let missing ← (match dictGet schema "required" with
        | .arr required => requiredErrors lib fields path required
        | _ => .ok [])
      let nested ← (match _h : schema.lookup "properties" with
        | some (.obj properties) => validateProperties fields properties path
        | _ => .ok [])
      return missing ++ nested
    | _ => .ok []
termination_by sizeOf schema
decreasing_by
  have := sizeOf_lookup_lt _h
  simp at this
  omega

/-- The violations of `properties`: of the sub-schemas whose key the value has. -/
def validateProperties (fields : Object) (properties : Object) (path : String) :
    Except Raised (List String) :=
  match properties with
  | [] => .ok []
  | (key, subSchema) :: rest => do
    let errors ← (match subSchema, fields.lookup key with
      | .obj sub, some v => validateSchema v sub (childPath path key)
      | _, _ => .ok [])
    let others ← validateProperties fields rest path
    return errors ++ others
termination_by sizeOf properties

end

/-! ### What satisfies a schema -/

/-- The type names that are understood. -/
def typeNames : List String :=
  ["string", "boolean", "object", "array", "null", "integer", "number"]

/-- A value has the type of a name; a name that is not understood asks for nothing. A boolean is
neither an integer nor a number. -/
inductive HasType : String → Json → Prop
  | string (s : String) : HasType "string" (.str s)
  | boolean (b : Bool) : HasType "boolean" (.bool b)
  | object (fields : Object) : HasType "object" (.obj fields)
  | array (items : List Json) : HasType "array" (.arr items)
  | null : HasType "null" .null
  | integer (n : ℤ) : HasType "integer" (.int n)
  | numberInt (n : ℤ) : HasType "number" (.int n)
  | numberFloat (q : ℚ) : HasType "number" (.float q)
  | unknown {name : String} (h : name ∉ typeNames) (value : Json) : HasType name value

/-- `type`, where it is a name. -/
def TypeHolds (schema : Object) (value : Json) : Prop :=
  ∀ name, schema.lookup "type" = some (.str name) → HasType name value

/-- `required`, where it is a list: every entry is the key of a field. -/
def RequiredHolds (schema : Object) (fields : Object) : Prop :=
  ∀ required, schema.lookup "required" = some (.arr required) → ∀ key ∈ required,
    ∃ name, key = .str name ∧ (fields.lookup name).isSome

/-- What it means to satisfy a schema of the subset. -/
inductive Satisfies : Object → Json → Prop
  | plain {schema : Object} {value : Json} (htype : TypeHolds schema value)
      (hplain : ∀ fields, value ≠ .obj fields) : Satisfies schema value
  | object {schema fields : Object} (htype : TypeHolds schema (.obj fields))
      (hrequired : RequiredHolds schema fields)
      (hproperties : ∀ properties name sub v,
        schema.lookup "properties" = some (.obj properties) → (name, .obj sub) ∈ properties →
          fields.lookup name = some v → Satisfies sub v) :
      Satisfies schema (.obj fields)

namespace Satisfies
variable {schema fields : Object} {value : Json}

theorem typeHolds (h : Satisfies schema value) : TypeHolds schema value := by
  cases h with
  | plain htype _ => exact htype
  | object htype _ _ => exact htype

theorem requiredHolds (h : Satisfies schema (.obj fields)) : RequiredHolds schema fields := by
  cases h with
  | plain _ hplain => exact absurd rfl (hplain fields)
  | object _ hrequired _ => exact hrequired

theorem property (h : Satisfies schema (.obj fields)) {properties sub : Object} {name : String}
    {v : Json} (hlookup : schema.lookup "properties" = some (.obj properties))
    (hmem : (name, .obj sub) ∈ properties) (hv : fields.lookup name = some v) :
    Satisfies sub v := by
  cases h with
  | plain _ hplain => exact absurd rfl (hplain fields)
  | object _ _ hproperties => exact hproperties properties name sub v hlookup hmem hv

end Satisfies

theorem typeMatches_iff (value : Json) (name : String) :
    typeMatches value name = true ↔ HasType name value := by
  constructor
  · intro h
    by_cases hname : name ∈ typeNames
    · simp only [typeNames, List.mem_cons, List.not_mem_nil, or_false] at hname
      rcases hname with rfl | rfl | rfl | rfl | rfl | rfl | rfl <;> cases value <;>
        first
        | simp [typeMatches, primitiveTypes, List.lookup_cons, Json.typeName] at h; done
        | constructor
    · exact .unknown hname value
  · intro h
    cases h with
    | unknown hname =>
      simp only [typeNames, List.mem_cons, List.not_mem_nil, or_false, not_or] at hname
      have hnone : primitiveTypes.lookup name = none := by
        rw [List.lookup_eq_none_iff]
        simp [primitiveTypes, hname]
      simp [typeMatches, hname, hnone]
    | _ => rfl

theorem typeError?_eq_none_iff (value : Json) (schema : Object) (path : String) :
    typeError? lib value schema path = none ↔ TypeHolds schema value := by
  unfold typeError? TypeHolds dictGet
  cases hlookup : schema.lookup "type" with
  | none => simp
  | some given =>
    cases given with
    | str name => simp [← typeMatches_iff]
    | _ => simp

theorem append_eq_nil_iff {x y : Except Raised (List String)} :
    (do
      let a ← x
      let b ← y
      return a ++ b) = .ok [] ↔ x = .ok [] ∧ y = .ok [] := by
  cases x with
  | error e => exact ⟨fun h => (nomatch h), fun h => (nomatch h.1)⟩
  | ok a =>
    cases y with
    | error e => exact ⟨fun h => (nomatch h), fun h => (nomatch h.2)⟩
    | ok b =>
      show Except.ok (a ++ b) = _ ↔ _
      simp

theorem missingFrom_eq_false_iff (fields : Object) (key : Json) :
    missingFrom fields key = .ok false ↔ ∃ name, key = .str name ∧ (fields.lookup name).isSome := by
  cases key with
  | str name =>
    simp [missingFrom, Option.isSome_iff_ne_none]
  | _ => simp [missingFrom, Json.unhashable]

theorem requiredErrors_eq_nil_iff (fields : Object) (path : String) (required : List Json) :
    requiredErrors lib fields path required = .ok [] ↔ ∀ key ∈ required,
      ∃ name, key = .str name ∧ (fields.lookup name).isSome := by
  induction required with
  | nil => exact ⟨fun _ _ hkey => absurd hkey List.not_mem_nil, fun _ => rfl⟩
  | cons key keys ih =>
    rw [List.forall_mem_cons, ← missingFrom_eq_false_iff, ← ih, requiredErrors]
    cases missingFrom fields key with
    | error e => exact ⟨fun h => (nomatch h), fun h => (nomatch h.1)⟩
    | ok missing =>
      cases requiredErrors lib fields path keys with
      | error e => exact ⟨fun h => (nomatch h), fun h => (nomatch h.2)⟩
      | ok errors => cases missing <;> simp [bind, Except.bind, pure, Except.pure]

theorem requiredHolds_iff (schema fields : Object) (path : String) :
    (match dictGet schema "required" with
      | .arr required => requiredErrors lib fields path required
      | _ => .ok []) = .ok [] ↔ RequiredHolds schema fields := by
  unfold dictGet RequiredHolds
  cases hlookup : schema.lookup "required" with
  | none => simp
  | some given =>
    cases given with
    | arr required => simp [requiredErrors_eq_nil_iff]
    | _ => simp

theorem validateSchema_of_typeError {value : Json} {schema : Object} {path error : String}
    (h : typeError? lib value schema path = some error) :
    validateSchema lib value schema path = .ok [error] := by
  rw [validateSchema.eq_def, h]

theorem validateSchema_plain {value : Json} {schema : Object} {path : String}
    (h : typeError? lib value schema path = none) (hplain : ∀ fields, value ≠ .obj fields) :
    validateSchema lib value schema path = .ok [] := by
  rw [validateSchema.eq_def, h]
  cases value with
  | obj fields => exact absurd rfl (hplain fields)
  | _ => rfl

/-- Of an object of the right type, nothing is wrong when nothing is missing and each property is
right. -/
theorem validateSchema_obj_iff {schema fields : Object} {path : String}
    (h : typeError? lib (.obj fields) schema path = none) :
    validateSchema lib (.obj fields) schema path = .ok [] ↔
      RequiredHolds schema fields ∧ ∀ properties,
        schema.lookup "properties" = some (.obj properties) →
          validateProperties lib fields properties path = .ok [] := by
  rw [validateSchema.eq_def, h]
  dsimp only
  rw [append_eq_nil_iff, requiredHolds_iff]
  refine and_congr_right fun _ => ?_
  split
  · rename_i properties hlookup
    rw [hlookup]
    simp
  · rename_i hnone
    refine ⟨fun _ properties hlookup => absurd hlookup (hnone properties), fun _ => rfl⟩

mutual

theorem validateSchema_iff (value : Json) (schema : Object) (path : String) :
    validateSchema lib value schema path = .ok [] ↔ Satisfies schema value := by
  cases htype : typeError? lib value schema path with
  | some error =>
    rw [validateSchema_of_typeError lib htype]
    have hnot : ¬TypeHolds schema value := by
      rw [← typeError?_eq_none_iff lib value schema path, htype]
      exact Option.some_ne_none error
    exact ⟨fun h => by simp at h, fun h => absurd h.typeHolds hnot⟩
  | none =>
    have hholds := (typeError?_eq_none_iff lib value schema path).mp htype
    by_cases hplain : ∀ fields, value ≠ .obj fields
    · rw [validateSchema_plain lib htype hplain]
      exact ⟨fun _ => .plain hholds hplain, fun _ => rfl⟩
    · obtain ⟨fields, rfl⟩ := not_forall_not.mp hplain
      rw [validateSchema_obj_iff lib htype]
      constructor
      · rintro ⟨hrequired, hproperties⟩
        refine .object hholds hrequired fun properties name sub v hlookup hmem hv => ?_
        have hsize := sizeOf_lookup_lt hlookup
        exact (validateProperties_iff fields properties path).mp (hproperties _ hlookup)
          name sub v hmem hv
      · intro h
        refine ⟨h.requiredHolds, fun properties hlookup => ?_⟩
        have hsize := sizeOf_lookup_lt hlookup
        exact (validateProperties_iff fields properties path).mpr fun name sub v hmem hv =>
          h.property hlookup hmem hv
termination_by sizeOf schema
decreasing_by
  all_goals
    simp at hsize
    omega

theorem validateProperties_iff (fields properties : Object) (path : String) :
    validateProperties lib fields properties path = .ok [] ↔ ∀ name sub v,
      (name, .obj sub) ∈ properties → fields.lookup name = some v → Satisfies sub v := by
  match properties with
  | [] =>
    rw [validateProperties]
    exact ⟨fun _ _ _ _ hmem => absurd hmem List.not_mem_nil, fun _ => rfl⟩
  | (key, subSchema) :: rest =>
    rw [validateProperties.eq_def]
    dsimp only
    rw [append_eq_nil_iff, validateProperties_iff fields rest path]
    have hhead : (match subSchema, fields.lookup key with
        | .obj sub, some v => validateSchema lib v sub (childPath path key)
        | _, _ => .ok []) = .ok [] ↔ ∀ sub v, subSchema = .obj sub →
          fields.lookup key = some v → Satisfies sub v := by
      cases subSchema with
      | obj sub =>
        cases fields.lookup key with
        | none => simp
        | some v => simp [validateSchema_iff v sub (childPath path key)]
      | _ => simp
    rw [hhead]
    constructor
    · rintro ⟨hfirst, hrest⟩ name sub v hmem hv
      rcases List.mem_cons.mp hmem with heq | hmem
      · obtain ⟨rfl, rfl⟩ := Prod.mk.inj heq
        exact hfirst sub v rfl hv
      · exact hrest name sub v hmem hv
    · intro h
      refine ⟨fun sub v heq hv => ?_, fun name sub v hmem hv =>
        h name sub v (List.mem_cons_of_mem _ hmem) hv⟩
      subst heq
      exact h key sub v List.mem_cons_self hv
termination_by sizeOf properties

end

/-- **The schema check** finds nothing wrong exactly with the values that satisfy the schema, and no
boolean passes for an integer or a number. -/
theorem validateSchema_eq_nil_iff (value : Json) (schema : Object) (path : String) :
    (validateSchema lib value schema path = .ok [] ↔ Satisfies schema value) ∧
      ∀ name ∈ ["integer", "number"], schema.lookup "type" = some (.str name) →
        ∀ b, validateSchema lib (.bool b) schema path ≠ .ok [] := by
  refine ⟨validateSchema_iff lib value schema path, fun name hname hlookup b h => ?_⟩
  have hholds := ((validateSchema_iff lib (.bool b) schema path).mp h).typeHolds name hlookup
  rw [← typeMatches_iff] at hholds
  simp only [List.mem_cons, List.not_mem_nil, or_false] at hname
  rcases hname with rfl | rfl
  · simp [typeMatches, Json.typeName] at hholds
  · simp [typeMatches, Json.typeName] at hholds

/-- `enum`, where it is a list: the value is one of its members. -/
def EnumHolds (schema : Object) (value : Json) : Prop :=
  ∀ members, schema.lookup "enum" = some (.arr members) → value ∈ members

/-- `items`, where it is a schema: each item of an array satisfies it. -/
def ItemsHold (schema : Object) (value : Json) : Prop :=
  ∀ sub items, schema.lookup "items" = some (.obj sub) → value = .arr items →
    ∀ item ∈ items, Satisfies sub item

/-- The keywords `enum` and `items` are ignored. -/
theorem enum_items_ignored :
    let lib : Library := { reprText := fun s => s, repr := Json.typeName }
    let oneOf : Object := [("enum", .arr [.str "a"])]
    let texts : Object := [("type", .str "array"), ("items", .obj [("type", .str "string")])]
    validateSchema lib (.str "b") oneOf "" = .ok [] ∧ ¬EnumHolds oneOf (.str "b") ∧
      validateSchema lib (.arr [.int 1]) texts "" = .ok [] ∧ ¬ItemsHold texts (.arr [.int 1]) := by
  refine ⟨?_, fun h => ?_, ?_, fun h => ?_⟩
  · simp [validateSchema, typeError?, dictGet, List.lookup_cons]
  · exact absurd (h _ rfl) (by simp)
  · simp [validateSchema, typeError?, dictGet, typeMatches, primitiveTypes, Json.typeName,
      List.lookup_cons]
  · have hitem := (h _ _ rfl rfl (.int 1) List.mem_cons_self).typeHolds "string" rfl
    rw [← typeMatches_iff] at hitem
    simp [typeMatches, primitiveTypes, Json.typeName] at hitem

/-! ### The grader -/

/-- A grader that the constructor admits. -/
structure ArtifactCompletenessGrader where
  name : String := "artifact_completeness"
  qualityJudge : Option (GraderContext → Except Raised GradeResult) := none
  name_ne : name ≠ ""

/-- `not artifact`. -/
def isEmptyArtifact (artifact : Option Object) : Bool := (artifact.getD []).isEmpty

/-- A section counts when it is not null and not an empty text or container. -/
def isNonEmptyValue : Json → Bool
  | .null => false
  | .str s => s ≠ ""
  | .arr items => !items.isEmpty
  | .obj fields => !fields.isEmpty
  | _ => true

/-- `key.removeprefix("section:")`. -/
def withoutSection (key : String) : String :=
  if "section:".toList.isPrefixOf key.toList then String.ofList (key.toList.drop 8) else key

/-- The node of a required section. -/
def sectionChild (artifact : Object) (section_ : String) : BreakdownNode :=
  let present := isNonEmptyValue (dictGet artifact section_)
  { key := "section:" ++ section_
    label := some (if present then .pass else .fail)
    score := some (if present then 1 else 0)
    reason := if present then "present" else "missing or empty"
    failureModes := if present then [] else ["missing_section"] }

/-- The sections that an artifact lacks. -/
def missingSections (artifact : Object) (sections : List String) : List String :=
  sections.filter fun s => !isNonEmptyValue (dictGet artifact s)

def optFloat : Option ℚ → Json
  | none => .null
  | some q => .float q

namespace ArtifactCompletenessGrader
variable (g : ArtifactCompletenessGrader) (context : GraderContext)

/-- What the judge says of the quality, as a child without weight and as a detail. -/
def runQualityJudge : Except Raised (Option (BreakdownNode × Json)) :=
  match g.qualityJudge with
  | none => .ok none
  | some judge => do
    let judged ← judge context
    let detail : Object := [
      ("advisory", .bool true),
      ("grader", .str judged.grader),
      ("label", .str (Schemas.Enums.Coded.value judged.label)),
      ("reason", .str judged.reason),
      ("score", optFloat judged.score),
      ("confidence", optFloat judged.confidence)]
    return some (
      { key := "quality:" ++ judged.grader
        label := some judged.label
        score := judged.score
        weight := 0
        reason := judged.reason
        failureModes := judged.failureModes },
      .obj detail)

/-- `_result`. -/
def result (label : GradeLabel) (reason : String) (score : ℚ) (failureModes : List String)
    (sectionChildren : List BreakdownNode) (quality : Option (BreakdownNode × Json)) :
    GradeResult where
  grader := g.name
  label
  reason
  score := some score
  failureModes
  details :=
    [("required_sections", .arr (sectionChildren.map fun c => .str (withoutSection c.key))),
      ("missing_sections", .arr ((sectionChildren.filter fun c => c.label == some .fail).map
        fun c => .str (withoutSection c.key)))] ++
      optField "quality" (quality.map Prod.snd)
  breakdown := some {
    key := "artifact_completeness"
    label := some label
    score := some score
    reason
    failureModes
    children := sectionChildren ++ (quality.map Prod.fst).toList }

/-- The violations of the case's schema, if it has one. -/
def schemaErrors (artifact : Object) : Except Raised (List String) :=
  match context.case.expected.outputSchema with
  | none => .ok []
  | some schema => validateSchema lib (.obj artifact) schema ""

/-- `ArtifactCompletenessGrader.grade`. -/
def grade : Except Raised GradeResult := do
  let quality ← g.runQualityJudge context
  if isEmptyArtifact context.structuredOutput then
    return g.result .fail "artifact is empty: structured_output missing or has no keys" 0
      ["empty_artifact"] [] quality
  let artifact := context.structuredOutput.getD []
  let errors ← schemaErrors lib context artifact
  if errors ≠ [] then
    return g.result .fail ("artifact does not satisfy output_schema: " ++ "; ".intercalate errors) 0
      ["schema_invalid"] [] quality
  let sections := context.case.expected.requiredSections
  let children := sections.map (sectionChild artifact)
  let missing := missingSections artifact sections
  if missing ≠ [] then
    return g.result .partialPass
      ("schema valid but missing required sections: " ++ ", ".intercalate missing)
      ((sections.length - missing.length) / sections.length) ["missing_section"] children quality
  return g.result .pass
    (if sections.length = 0 then
      "artifact non-empty and schema valid (no required sections declared)"
    else "artifact complete: schema valid and all required sections present")
    1 [] children quality

end ArtifactCompletenessGrader

/-! ### The labels -/

/-- The artifact has keys and satisfies the schema of its case. -/
def SchemaHolds (context : GraderContext) : Prop :=
  context.structuredOutput.getD [] ≠ [] ∧ ∀ schema ∈ context.case.expected.outputSchema,
    Satisfies schema (.obj (context.structuredOutput.getD []))

/-- It has every section, with something in it. -/
def SectionsPresent (context : GraderContext) : Prop :=
  ∀ s ∈ context.case.expected.requiredSections,
    isNonEmptyValue (dictGet (context.structuredOutput.getD []) s) = true

theorem schemaErrors_eq_nil_iff (context : GraderContext) (artifact : Object) :
    ArtifactCompletenessGrader.schemaErrors lib context artifact = .ok [] ↔
      ∀ schema ∈ context.case.expected.outputSchema, Satisfies schema (.obj artifact) := by
  unfold ArtifactCompletenessGrader.schemaErrors
  cases context.case.expected.outputSchema with
  | none => simp
  | some schema => simp [validateSchema_iff]

theorem missingSections_eq_nil_iff (context : GraderContext) :
    missingSections (context.structuredOutput.getD []) context.case.expected.requiredSections = [] ↔
      SectionsPresent context := by
  unfold missingSections SectionsPresent
  rw [List.filter_eq_nil_iff]
  simp

/-- **The label of an artifact**: it fails without a valid document, passes with every section and
is partial otherwise, whatever the judge of its quality says. -/
theorem grade_label {g : ArtifactCompletenessGrader} {context : GraderContext} {r : GradeResult}
    (h : g.grade lib context = .ok r) :
    (r.label = .fail ↔ ¬SchemaHolds context) ∧
      (r.label = .pass ↔ SchemaHolds context ∧ SectionsPresent context) ∧
      (r.label = .partialPass ↔ SchemaHolds context ∧ ¬SectionsPresent context) := by
  obtain ⟨quality, -, h⟩ := bind_eq_ok.mp h
  by_cases hempty : isEmptyArtifact context.structuredOutput = true
  · -- no document, or one without keys
    have hnot : ¬SchemaHolds context := fun hholds =>
      hholds.1 (List.isEmpty_iff.mp hempty)
    rw [if_pos hempty] at h
    cases h
    simp [ArtifactCompletenessGrader.result, hnot]
  rw [if_neg hempty] at h
  have hne : context.structuredOutput.getD [] ≠ [] := fun hnil =>
    hempty (List.isEmpty_iff.mpr hnil)
  obtain ⟨errors, herrors, h⟩ := bind_eq_ok.mp h
  have hschema : errors = [] ↔ SchemaHolds context := by
    rw [SchemaHolds, and_iff_right hne, ← schemaErrors_eq_nil_iff lib, herrors]
    exact ⟨fun heq => heq ▸ rfl, fun heq => Except.ok.inj heq⟩
  by_cases hvalid : errors = []
  · rw [if_neg (not_not.mpr hvalid)] at h
    have hholds := hschema.mp hvalid
    have hsections := missingSections_eq_nil_iff context
    by_cases hmissing : missingSections (context.structuredOutput.getD [])
        context.case.expected.requiredSections = []
    · rw [if_neg (not_not.mpr hmissing)] at h
      cases h
      simp [ArtifactCompletenessGrader.result, hholds, hsections.mp hmissing]
    · rw [if_pos hmissing] at h
      cases h
      simp [ArtifactCompletenessGrader.result, hholds, mt hsections.mpr hmissing]
  · rw [if_pos hvalid] at h
    cases h
    simp [ArtifactCompletenessGrader.result, mt hschema.mpr hvalid]

theorem grade_label_oneSection :
    let lib : Library := { reprText := fun s => s, repr := Json.typeName }
    let context : GraderContext := {
      case := { EvalCase.minimal with expected := { requiredSections := ["summary"] } }
      trace := .minimal
      response := some { content := none, structuredOutput := some [("summary", .str "done")] }
      case_valid := by decide }
    ∃ r, ArtifactCompletenessGrader.grade lib { name_ne := by decide } context = .ok r ∧
      (r.label = .fail ↔ ¬SchemaHolds context) ∧
      (r.label = .pass ↔ SchemaHolds context ∧ SectionsPresent context) ∧
      (r.label = .partialPass ↔ SchemaHolds context ∧ ¬SectionsPresent context) := by
  intro lib context
  obtain ⟨r, hr⟩ : ∃ r, ArtifactCompletenessGrader.grade lib { name_ne := by decide } context =
    .ok r := ⟨_, rfl⟩
  exact ⟨r, hr, grade_label lib hr⟩

end Selfevals.Graders.Artifact
