import Selfevals.Repo.Loader.Funnel

/-!
# The `graders:` block

`buildGraderSpecs` parses the list of graders, each with the settings of its type and a name of its
own; `dumpGraderSpec` writes a grader out again.
-/

namespace Selfevals.Repo.Loader.Graders

open Lib.JsonValue Lib.PyStr Lib.Result Schemas.Enums Schemas.Experiments Repo.Loader.Models
  Repo.Loader.GraderParams Repo.Loader.Funnel

/-! ### One grader -/

/-- The types that need a rubric, and may name a judge. -/
def takesRubric : GraderType → Bool
  | .llmJudge | .judgePanel | .pairwise => true
  | _ => false

/-- A setting that only some types have. -/
def onlyIf {α : Type} (b : Bool) (x : Except LoadError α) : Except LoadError (Option α) :=
  if b then x.map some else .ok none

/-- The type of a grader. -/
def parseGraderType (specPath : String) (i : ℕ) (value : Json) : Except LoadError GraderType :=
  let refused := LoadError.refused specPath (s!"graders[{i}].type must be one of " ++
    "['confusion', 'deterministic', 'funnel', 'judge_panel', 'llm_judge', 'pairwise', " ++
    "'set_match']; got ") value
  match value with
  | .str s =>
    match Coded.ofValue s with
    | some type => .ok type
    | none => .error refused
  | _ => .error refused

/-- `entry.get("name") or type_`, which has to be new. -/
def parseGraderName (specPath : String) (i : ℕ) (seen : List String) (type : GraderType)
    (value : Json) : Except LoadError NonEmptyStr := do
  let name ← parseStr (.located specPath s!"graders[{i}].name must be a non-empty string")
    (value.orElse (dumpMember type))
  if name.val ∈ seen then
    .error (.loaderError [.text s!"{specPath}: graders[{i}].name ", .repr (dumpStr name),
      .text " is duplicated"])
  else return name

def dumpNonBlank (s : NonBlank) : Json := .str s.val

/-- The rubric of a judge. -/
def parseRubric (specPath : String) (i : ℕ) (type : GraderType) (value : Json) :
    Except LoadError NonBlank :=
  let refused := LoadError.located specPath
    (s!"graders[{i}] (" ++ Coded.value type ++ ") requires a non-empty `rubric`")
  match value with
  | .str s => if h : strip s ≠ "" then .ok ⟨s, h⟩ else .error refused
  | _ => .error refused

/-- `_parse_judge_entrypoint`: its parts may be empty. -/
def parseJudgeEntrypoint (specPath : String) (i : ℕ) (value : Json) :
    Except LoadError (Option AgentEntrypoint) :=
  let refused := LoadError.refused specPath
    s!"graders[{i}].judge_entrypoint must be 'module:callable', got " value
  match value with
  | .null => .ok none
  | .str raw =>
    match AgentEntrypoint.ofRaw? raw with
    | some e => .ok (some e)
    | none => .error refused
  | _ => .error refused

/-- `_parse_n_judges`. -/
def parseNJudges (specPath : String) (i : ℕ) (value : Json) : Except LoadError JudgeCount :=
  let refused := LoadError.refused specPath
    s!"graders[{i}].n_judges must be an integer >= 1, got " value
  match value with
  | .int n => if h : 1 ≤ n then .ok ⟨n, h⟩ else .error refused
  | _ => .error refused

/-- `_parse_consensus`. -/
def parseConsensus (specPath : String) (i : ℕ) (value : Json) : Except LoadError ConsensusRule :=
  parseMember (.refused specPath
    (s!"graders[{i}].consensus must be one of ['majority', 'unanimous', 'weighted'], got ") value)
    value

/-- The parameters that a type keeps. -/
def parseParams (specPath : String) (i : ℕ) (type : GraderType) (entry : Object) :
    Except LoadError Object :=
  match type with
  | .pairwise => rawParams specPath i entry >>= parsePairwiseParams specPath i
  | .setMatch => rawParams specPath i entry >>= parseSetMatchParams specPath i
  | .funnel => rawParams specPath i entry >>= parseFunnelParams specPath i
  | .confusion => rawParams specPath i entry >>= parseConfusionParams specPath i
  | .deterministic | .llmJudge | .judgePanel => .ok []

/-- The grader of one entry, whose name is not among those seen. -/
def buildGraderSpec (specPath : String) (i : ℕ) (seen : List String) (entry : Json) :
    Except LoadError GraderSpec :=
  match entry with
  | .obj entry => do
    let type ← parseGraderType specPath i (dictGet entry "type")
    let name ← parseGraderName specPath i seen type (dictGet entry "name")
    let rubric ← onlyIf (takesRubric type) (parseRubric specPath i type (dictGet entry "rubric"))
    let judge ← onlyIf (takesRubric type)
      (parseJudgeEntrypoint specPath i (dictGet entry "judge_entrypoint"))
    let nJudges ← onlyIf (type == .judgePanel)
      (parseNJudges specPath i (dictGetD entry "n_judges" (.int 3)))
    let consensus ← onlyIf (type == .judgePanel)
      (parseConsensus specPath i (dictGetD entry "consensus" (.str "majority")))
    let params ← parseParams specPath i type entry
    return {
      type := type
      name := name
      rubric := rubric
      judgeEntrypoint := judge.join
      nJudges := nJudges
      consensus := consensus
      params := params }
  | v => .error (.located specPath (s!"graders[{i}] must be a mapping, got " ++ v.typeName))

/-- The graders of a list of entries, the first of which is number `i`. -/
def buildEntries (specPath : String) : ℕ → List String → List Json →
    Except LoadError (List GraderSpec)
  | _, _, [] => .ok []
  | i, seen, entry :: entries => do
    let spec ← buildGraderSpec specPath i seen entry
    let specs ← buildEntries specPath (i + 1) (spec.name.val :: seen) entries
    return spec :: specs

/-- `build_grader_specs`: the `graders:` section. -/
def buildGraderSpecs (specPath : String) (raw : Object) : Except LoadError (List GraderSpec) :=
  match dictGet raw "graders" with
  | .null => .ok []
  | .arr entries => buildEntries specPath 0 [] entries
  | _ => .error (.located specPath "`graders:` must be a list of mappings")

/-! ### The dump -/

/-- One entry of the `graders:` section. -/
def dumpGraderSpec (grader : GraderSpec) : Object :=
  [("type", dumpMember grader.type), ("name", dumpStr grader.name)] ++
    (optField "rubric" (grader.rubric.map dumpNonBlank) ++
      (optField "judge_entrypoint" (grader.judgeEntrypoint.map fun e => .str e.raw) ++
        (optField "n_judges" (grader.nJudges.map fun n => .int n.val) ++
          (optField "consensus" (grader.consensus.map dumpMember) ++
            optField "params" (if grader.params = [] then none else some (.obj grader.params))))))

theorem onlyIf_dump {α : Type} {b : Bool} {x y : Except LoadError α} {r : Option α}
    (h : onlyIf b x = .ok r) (hy : ∀ a, r = some a → y = .ok a) : onlyIf b y = .ok r := by
  unfold onlyIf at h ⊢
  cases b with
  | false => exact h
  | true =>
    rw [if_pos rfl] at h ⊢
    obtain ⟨a, -, rfl⟩ := map_eq_ok.mp h
    rw [hy a rfl]
    rfl

theorem parseGraderType_dump (specPath : String) (i : ℕ) (type : GraderType) :
    parseGraderType specPath i (dumpMember type) = .ok type := by
  simp [parseGraderType, dumpMember]

theorem parseGraderName_dump (specPath : String) (i : ℕ) {seen : List String} (type : GraderType)
    {name : NonEmptyStr} (hseen : name.val ∉ seen) :
    parseGraderName specPath i seen type (dumpStr name) = .ok name := by
  have hname : (dumpStr name).orElse (dumpMember type) = dumpStr name := by
    simp [Json.orElse, Json.truthy, dumpStr, name.property]
  rw [parseGraderName, hname, parseStr_dump]
  exact if_neg hseen

theorem not_mem_of_parseGraderName {specPath : String} {i : ℕ} {seen : List String}
    {type : GraderType} {value : Json} {name : NonEmptyStr}
    (h : parseGraderName specPath i seen type value = .ok name) : name.val ∉ seen := by
  obtain ⟨name', -, h⟩ := bind_eq_ok.mp h
  split_ifs at h with hseen
  obtain rfl := Except.ok.inj h
  exact hseen

theorem parseRubric_dump (specPath : String) (i : ℕ) (type : GraderType) (s : NonBlank) :
    parseRubric specPath i type (dumpNonBlank s) = .ok s := by
  unfold parseRubric dumpNonBlank
  exact dif_pos s.property

theorem parseJudgeEntrypoint_dump (specPath : String) (i : ℕ) (e : Option AgentEntrypoint) :
    parseJudgeEntrypoint specPath i ((e.map fun e => Json.str e.raw).getD .null) = .ok e := by
  cases e with
  | none => rfl
  | some e => simp [parseJudgeEntrypoint, e.ofRaw?_raw]

theorem parseNJudges_dump (specPath : String) (i : ℕ) (n : JudgeCount) :
    parseNJudges specPath i (.int n.val) = .ok n := by
  show (if h : 1 ≤ n.val then _ else _) = _
  rw [dif_pos n.property]

theorem parseParams_dump {specPath : String} {i : ℕ} {type : GraderType} {entry params : Object}
    (h : parseParams specPath i type entry = .ok params) (specPath' : String) (i' : ℕ)
    {entry' : Object} (hentry : dictGetD entry' "params" (.obj []) = .obj params) :
    parseParams specPath' i' type entry' = .ok params := by
  have hraw : rawParams specPath' i' entry' = .ok params := by rw [rawParams, hentry]
  cases type with
  | pairwise =>
    obtain ⟨raw, -, h⟩ := bind_eq_ok.mp h
    exact bind_eq_ok.mpr ⟨params, hraw, parsePairwiseParams_params h specPath' i'⟩
  | setMatch =>
    obtain ⟨raw, -, h⟩ := bind_eq_ok.mp h
    exact bind_eq_ok.mpr ⟨params, hraw, parseSetMatchParams_params h specPath' i'⟩
  | funnel =>
    obtain ⟨raw, -, h⟩ := bind_eq_ok.mp h
    exact bind_eq_ok.mpr ⟨params, hraw, parseFunnelParams_params h specPath' i'⟩
  | confusion =>
    obtain ⟨raw, -, h⟩ := bind_eq_ok.mp h
    exact bind_eq_ok.mpr ⟨params, hraw, parseConfusionParams_params h specPath' i'⟩
  | deterministic => exact h
  | llmJudge => exact h
  | judgePanel => exact h

theorem dictGet_dump_rubric (g : GraderSpec) : dictGet (dumpGraderSpec g) "rubric" =
    (g.rubric.map dumpNonBlank).getD .null := by
  simp [dumpGraderSpec, dictGet, List.lookup_append, List.lookup_cons]

theorem dictGet_dump_judgeEntrypoint (g : GraderSpec) :
    dictGet (dumpGraderSpec g) "judge_entrypoint" =
      (g.judgeEntrypoint.map fun e => Json.str e.raw).getD .null := by
  simp [dumpGraderSpec, dictGet, List.lookup_append, List.lookup_cons]

theorem dictGetD_dump_nJudges (g : GraderSpec) (default : Json) :
    dictGetD (dumpGraderSpec g) "n_judges" default =
      (g.nJudges.map fun n => Json.int n.val).getD default := by
  simp [dumpGraderSpec, dictGetD, List.lookup_append, List.lookup_cons]

theorem dictGetD_dump_consensus (g : GraderSpec) (default : Json) :
    dictGetD (dumpGraderSpec g) "consensus" default =
      (g.consensus.map dumpMember).getD default := by
  simp [dumpGraderSpec, dictGetD, List.lookup_append, List.lookup_cons]

theorem dictGetD_dump_params (g : GraderSpec) :
    dictGetD (dumpGraderSpec g) "params" (.obj []) = .obj g.params := by
  by_cases h : g.params = []
  · simp [dumpGraderSpec, dictGetD, List.lookup_append, List.lookup_cons, h]
  · simp [dumpGraderSpec, dictGetD, List.lookup_append, List.lookup_cons, h]

/-- **A grader reads back from its dump**, where the same names were seen before it. -/
theorem buildGraderSpec_dump {specPath : String} {i : ℕ} {seen : List String} {entry : Json}
    {grader : GraderSpec} (h : buildGraderSpec specPath i seen entry = .ok grader)
    (specPath' : String) (i' : ℕ) :
    buildGraderSpec specPath' i' seen (.obj (dumpGraderSpec grader)) = .ok grader := by
  cases entry with
  | obj entry =>
    obtain ⟨type, -, h⟩ := bind_eq_ok.mp h
    obtain ⟨name, hname, h⟩ := bind_eq_ok.mp h
    obtain ⟨rubric, hrubric, h⟩ := bind_eq_ok.mp h
    obtain ⟨judge, hjudge, h⟩ := bind_eq_ok.mp h
    obtain ⟨nJudges, hnJudges, h⟩ := bind_eq_ok.mp h
    obtain ⟨consensus, hconsensus, h⟩ := bind_eq_ok.mp h
    obtain ⟨params, hparams, h⟩ := bind_eq_ok.mp h
    obtain rfl := Except.ok.inj h
    have hseen := not_mem_of_parseGraderName hname
    refine bind_eq_ok.mpr ⟨type, parseGraderType_dump specPath' i' type, ?_⟩
    refine bind_eq_ok.mpr ⟨name, parseGraderName_dump specPath' i' type hseen, ?_⟩
    refine bind_eq_ok.mpr ⟨rubric, onlyIf_dump hrubric ?_, ?_⟩
    · rintro s rfl
      rw [dictGet_dump_rubric]
      exact parseRubric_dump specPath' i' type s
    refine bind_eq_ok.mpr ⟨judge, onlyIf_dump hjudge ?_, ?_⟩
    · rintro e rfl
      rw [dictGet_dump_judgeEntrypoint]
      exact parseJudgeEntrypoint_dump specPath' i' e
    refine bind_eq_ok.mpr ⟨nJudges, onlyIf_dump hnJudges ?_, ?_⟩
    · rintro n rfl
      rw [dictGetD_dump_nJudges]
      exact parseNJudges_dump specPath' i' n
    refine bind_eq_ok.mpr ⟨consensus, onlyIf_dump hconsensus ?_, ?_⟩
    · rintro rule rfl
      rw [dictGetD_dump_consensus]
      exact parseMember_dump _ rule
    refine bind_eq_ok.mpr ⟨params, parseParams_dump hparams specPath' i' ?_, rfl⟩
    exact dictGetD_dump_params _
  | _ => cases h

theorem buildEntries_dump {specPath : String} {i : ℕ} {seen : List String} {entries : List Json}
    {graders : List GraderSpec} (h : buildEntries specPath i seen entries = .ok graders)
    (specPath' : String) (i' : ℕ) :
    buildEntries specPath' i' seen (graders.map fun g => .obj (dumpGraderSpec g)) =
      .ok graders := by
  induction entries generalizing i seen graders i' with
  | nil =>
    obtain rfl := Except.ok.inj h
    rfl
  | cons entry entries ih =>
    rw [buildEntries] at h
    obtain ⟨grader, hgrader, h⟩ := bind_eq_ok.mp h
    obtain ⟨rest, hrest, h⟩ := bind_eq_ok.mp h
    obtain rfl := Except.ok.inj h
    rw [List.map_cons, buildEntries]
    refine bind_eq_ok.mpr ⟨grader, buildGraderSpec_dump hgrader specPath' i', ?_⟩
    exact bind_eq_ok.mpr ⟨rest, ih hrest (i' + 1), rfl⟩

/-- **Every list of graders comes back from its dump.** -/
theorem buildGraderSpecs_dump {specPath : String} {raw : Object} {graders : List GraderSpec}
    (h : buildGraderSpecs specPath raw = .ok graders) (specPath' : String) {raw' : Object}
    (hraw : raw'.lookup "graders" = some (.arr (graders.map fun g => .obj (dumpGraderSpec g)))) :
    buildGraderSpecs specPath' raw' = .ok graders := by
  have hget : dictGet raw' "graders" = .arr (graders.map fun g => .obj (dumpGraderSpec g)) := by
    rw [dictGet, hraw]
    rfl
  unfold buildGraderSpecs at h
  simp only [buildGraderSpecs, hget]
  split at h
  · obtain rfl := Except.ok.inj h
    rfl
  · exact buildEntries_dump h specPath' 0
  · cases h

end Selfevals.Repo.Loader.Graders
