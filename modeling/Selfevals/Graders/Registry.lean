import Mathlib.Data.String.Basic
import Selfevals.Lib.Mapping
import Selfevals.Repo.Loader.GraderParams

/-!
# The grader registry

`_REGISTRY` maps names to factories. A factory is the data its closure captures; calling one makes a
`Grader`, an instance with the name it calls itself by. A name with a colon is a path to a class
that is imported on demand; any other is looked up.

* `get?_unregisterAll` : what a name reads after a list of names was popped;
-/

namespace Selfevals.Graders.Registry

open Lib.JsonValue Lib.Mapping Lib.PyStr Lib.Result Graders.Select Schemas.Enums Schemas.Experiments
  Repo.Loader.Models Repo.Loader.GraderParams

/-- What wiring a run may raise. A message prints the values that it shows by `repr`. -/
inductive LaunchError
  | userError (message : List Part)
  | valueError (message : List Part)
  | keyError (key : String)
  | typeError
  | recursionError
  /-- Whatever code outside the package raises. -/
  | raised (what : String)

/-! ### Factories and graders -/

/-- The classes that are registered on import. -/
inductive GraderClass
  | artifactCompleteness | classification | deterministic | guardrail | setMatch | trajectory
deriving DecidableEq, Repr

/-- The default of `name` in the constructor. -/
def GraderClass.defaultName : GraderClass → String
  | .artifactCompleteness => "artifact_completeness"
  | .classification => "classification"
  | .deterministic => "deterministic"
  | .guardrail => "guardrail"
  | .setMatch => "set_match"
  | .trajectory => "trajectory"

/-- The callable that judges, and where it was found. -/
structure JudgeAdapter where
  callable : String
  entrypoint : AgentEntrypoint
deriving DecidableEq, Repr

/-- A value of the registry: a class, a closure with what it captured, or a factory that other code
registered. -/
inductive GraderFactory
  | cls (c : GraderClass)
  | plugin (id : String)
  | deterministic (name : String)
  | llmJudge (name : String) (judge : JudgeAdapter) (rubric : String)
  | judgePanel (name : String) (judge : JudgeAdapter) (rubric : String) (nJudges : ℤ)
      (consensus : ConsensusRule)
  | pairwise (name : String) (judge : JudgeAdapter) (rubric : String) (compareAgainst : Json)
      (tieIsPass swapAndAverage : Bool)
  | setMatch (name : String) (gating : Json) (threshold : ℚ) (caseSensitive : Bool)
  | funnel (name : String) (levels : Json)
  | confusion (name extract : String) (expectedFrom : Option String) (caseSensitive : Bool)

/-- A grader instance: its `name`, if it has one, what it was made by (a factory, or the path of its
class), and the graders it refers to. -/
inductive Grader
  | mk (name : Option String) (madeBy : GraderFactory ⊕ String) (references : List Grader)

/-- `getattr(g, "name", None)`. -/
def Grader.name : Grader → Option String
  | .mk name _ _ => name

/-- Factories of graders by name. -/
abbrev GraderRegistry := Dict String GraderFactory

/-- `target()` of a subclass of `Grader`. -/
inductive Construction
  | made (grader : Grader)
  | typeError (text : String)
  | raised (what : String)

/-- What a module has under a name. -/
inductive Target
  | graderClass (construct : Construction)
  | other

/-- `importlib.import_module`. -/
inductive Import
  | module (attributes : String → Option Target)
  | importError (text : String)
  | raised (what : String)

/-- What a run finds outside the package. -/
structure GraderHost where
  importModule : String → Import
  /-- A factory registered by other code, called. -/
  callPlugin : String → Except LaunchError Grader
  /-- `float(s)` of a string. -/
  parseFloat : String → Option ℚ
  /-- `str(v)` of what is no string. -/
  str : Json → String
  recursionLimit : ℕ

/-! ### The registry -/

/-- `register_grader`: the last write wins. -/
def registerGrader (name : String) (factory : GraderFactory) (registry : GraderRegistry) :
    Except LaunchError GraderRegistry :=
  if name = "" then .error (.valueError [.text "grader name must be non-empty"])
  else .ok (registry.set name factory)

/-- `unregister_grader`: `_REGISTRY.pop(name, None)`. -/
def unregisterGrader (name : String) (registry : GraderRegistry) : GraderRegistry :=
  registry.filterMap fun key factory => if key = name then none else some factory

/-- The registry after import. -/
def builtins : GraderRegistry :=
  .ofItems [
    ("artifact_completeness", .cls .artifactCompleteness),
    ("confusion", .cls .classification),
    ("deterministic", .cls .deterministic),
    ("guardrail", .cls .guardrail),
    ("set_match", .cls .setMatch),
    ("trajectory", .cls .trajectory)]

theorem get?_unregisterGrader (name : String) (registry : GraderRegistry) (k : String) :
    (unregisterGrader name registry).get? k = if k = name then none else registry.get? k := by
  rw [unregisterGrader, Dict.get?_filterMap]
  by_cases hk : k = name
  · simp [hk]
  · simp [hk]

theorem get?_unregisterAll (names : List String) (registry : GraderRegistry) (k : String) :
    (names.foldl (fun r name => unregisterGrader name r) registry).get? k =
      if k ∈ names then none else registry.get? k := by
  induction names generalizing registry with
  | nil => simp
  | cons name names ih =>
    rw [List.foldl_cons, ih, get?_unregisterGrader]
    by_cases hmem : k ∈ names
    · simp [hmem]
    · simp [hmem]

/-! ### Calling a factory -/

/-- `_VALID_GATINGS`. -/
def validGatings : List String := ["completeness", "precision", "recall", "f1"]

/-- The checks of `SetMatchGrader.__init__` after that of the name. -/
def checkSetMatch (gating : Json) (threshold : ℚ) (extract : String) : Except LaunchError Unit := do
  match gating with
  | .arr _ | .obj _ => throw .typeError
  | .str s =>
    if s ∉ validGatings then
      throw (.valueError [.text ("set_match gating must be one of " ++
        "['completeness', 'f1', 'precision', 'recall']; got "), .repr gating])
  | _ =>
    throw (.valueError [.text ("set_match gating must be one of " ++
      "['completeness', 'f1', 'precision', 'recall']; got "), .repr gating])
  if ¬(0 ≤ threshold ∧ threshold ≤ 1) then
    throw (.valueError [.text "set_match threshold must be in [0, 1]; got ",
      .repr (.float threshold)])
  (validatePath extract).mapError .valueError

/-- `float(v)`. -/
def toFloat (host : GraderHost) : Json → Except LaunchError ℚ
  | .bool b => .ok (if b then 1 else 0)
  | .int n => .ok n
  | .float q => .ok q
  | .str s =>
    match host.parseFloat s with
    | some q => .ok q
    | none => .error (.valueError [.text "could not convert string to float: ", .repr (.str s)])
  | _ => .error .typeError

/-- `str(v)`. -/
def toStr (host : GraderHost) : Json → String
  | .str s => s
  | v => host.str v

/-- `d[key]`. -/
def item (d : Object) (key : String) : Except LaunchError Json :=
  match d.lookup key with
  | some v => .ok v
  | none => .error (.keyError key)

/-- What `for v in value` runs over. -/
def iterate : Json → Except LaunchError (List Json)
  | .arr items => .ok items
  | .obj fields => .ok (fields.map fun field => .str field.1)
  | .str s => .ok (s.toList.map fun c => .str (String.singleton c))
  | _ => .error .typeError

/-- What a level of a funnel is built into: its keys in preorder, and the graders it refers to. -/
structure Level where
  keys : List String
  references : List Grader

/-- The match of a builtin kind: what constructing it may raise. -/
def builtinMatch (host : GraderHost) (extract : Json) (fields : Object) (kind : Json) :
    Except LaunchError Unit :=
  match kind with
  | .arr _ | .obj _ => .error .typeError
  | .str "set_match" => do
    let threshold ← toFloat host (dictGetD fields "threshold" (.float 1))
    match extract.orElse (.str "detected") with
    | .str path => checkSetMatch (dictGetD fields "gating" (.str "completeness")) threshold path
    | _ => throw .typeError
  | .str "exists" => .ok ()
  | .str "equals" => do let _ ← item fields "value"
  | .str "by_key" => do
    let _ ← item fields "key"
    let _ ← item fields "value"
  | .str "by_index" => do
    let _ ← item fields "index"
    let _ ← item fields "value"
  | .str "tool_called" => do let _ ← item fields "tool"
  | .str "span_exists" => do
    match ← item fields "span_kind" with
    | .str s =>
      match (Coded.ofValue s : Option SpanKind) with
      | some _ => return ()
      | none => throw (.valueError [.repr (.str s), .text " is not a valid SpanKind"])
    | v => throw (.valueError [.repr v, .text " is not a valid SpanKind"])
  | _ => .error (.userError [.text "funnel: unknown match kind ", .repr kind])

/-- `_build_match`: the grader that the match refers to, if it refers to one. -/
def buildMatch (host : GraderHost) (resolve : String → Except LaunchError Grader) (extract : Json) :
    Json → Except LaunchError (List Grader)
  | .obj fields =>
    match fields.lookup "grader" with
    | some (.str ref) => (resolve ref).map fun g => [g]
    | some _ => .error .typeError
    | none => do
      let kind ← item fields "kind"
      builtinMatch host extract fields kind
      return []
  | _ => .error .typeError

/-- `_build_level`, for as deep as the stack goes. -/
def buildLevel (host : GraderHost) (resolve : String → Except LaunchError Grader) :
    ℕ → Json → Except LaunchError Level
  | 0, _ => .error .recursionError
  | depth + 1, .obj node => do
    let key ← item node "key"
    let matched ← buildMatch host resolve (dictGetD node "extract" (.str "")) (← item node "match")
    let nodes ← iterate (dictGetD node "children" (.arr []))
    let children ← nodes.mapM (buildLevel host resolve depth)
    -- the loader has checked that a key is a string
    return {
      keys := toStr host key :: children.flatMap Level.keys
      references := matched ++ children.flatMap Level.references }
  | _ + 1, _ => .error .typeError

/-- `FunnelGrader.__init__`. -/
def newFunnelGrader (name : String) (levels : Json) (built : List Level) :
    Except LaunchError Grader :=
  let keys := built.flatMap Level.keys
  if name = "" then .error (.valueError [.text "grader name must be non-empty"])
  else if built.isEmpty then .error (.valueError [.text "funnel must have at least one level"])
  else if ¬keys.Nodup then
    .error (.valueError [.text "funnel level keys must be unique across the tree; got ",
      .repr (.arr (keys.map .str))])
  else .ok (.mk (some name) (.inl (.funnel name levels)) (built.flatMap Level.references))

/-- The path of the expected label, if there is one. -/
def checkExpectedFrom : Option String → Except LaunchError Unit
  | some path => (validatePath path).mapError .valueError
  | none => .ok ()

/-- `factory()`. A funnel resolves the graders its levels refer to when it is built. -/
def GraderFactory.call (host : GraderHost) (resolve : String → Except LaunchError Grader)
    (depth : ℕ)
    (factory : GraderFactory) : Except LaunchError Grader :=
  match factory with
  | .cls c => .ok (.mk (some c.defaultName) (.inl factory) [])
  | .plugin id => host.callPlugin id
  | .deterministic name | .llmJudge name _ _ | .judgePanel name _ _ _ _ | .pairwise name _ _ _ _
    _ =>
    .ok (.mk (some name) (.inl factory) [])
  | .setMatch name gating threshold _ => do
    checkSetMatch gating threshold "detected"
    return .mk (some name) (.inl factory) []
  | .funnel name levels => do
    let nodes ← iterate levels
    let built ← nodes.mapM (buildLevel host resolve depth)
    newFunnelGrader name levels built
  | .confusion name extract expectedFrom _ => do
    (validatePath extract).mapError LaunchError.valueError
    checkExpectedFrom expectedFrom
    return .mk (some name) (.inl factory) []

/-! ### Resolution -/

/-- `unknown_grader`. -/
def unknownGrader (name : String) (registry : GraderRegistry) : LaunchError :=
  let available := sorted registry.keys
  .userError [.text "grader ", .repr (.str name), .text (" not registered; available: " ++
    if available.isEmpty then "(none)" else ", ".intercalate available)]

/-- `_resolve_dotted_grader`, of the path's two parts. -/
def resolveDottedGrader (host : GraderHost) (spec moduleName className : String) :
    Except LaunchError Grader :=
  let refused (rest : List Part) : Except LaunchError Grader :=
    .error (.userError ([.text "grader path ", .repr (.str spec)] ++ rest))
  if moduleName = "" ∨ className = "" then refused [.text " is missing a module or class name"]
  else
    match host.importModule moduleName with
    | .importError text =>
      refused [.text ": module ", .repr (.str moduleName),
        .text (" could not be imported: " ++ text)]
    | .raised what => .error (.raised what)
    | .module attributes =>
      match attributes className with
      | none =>
        refused [.text ": module ", .repr (.str moduleName), .text " has no attribute ",
          .repr (.str className)]
      | some .other => refused [.text ": ", .repr (.str className),
          .text " is not a subclass of Grader"]
      | some (.graderClass (.made grader)) => .ok grader
      | some (.graderClass (.typeError text)) =>
        refused [.text ": ", .repr (.str className),
          .text (" could not be constructed with no arguments: " ++ text)]
      | some (.graderClass (.raised what)) => .error (.raised what)

/-- One turn of the loop of `resolve_graders`, for as deep as the stack goes: a funnel may refer to
another, and to itself. -/
def resolveGrader (host : GraderHost) (registry : GraderRegistry) :
    ℕ → String → Except LaunchError Grader
  | 0, _ => .error .recursionError
  | depth + 1, n =>
    match partition ':' n with
    | some (moduleName, className) => resolveDottedGrader host n moduleName className
    | none =>
      match registry.get? n with
      | none => .error (unknownGrader n registry)
      | some factory => factory.call host (resolveGrader host registry depth) depth

/-- `resolve_graders`. -/
def resolveGraders (host : GraderHost) (registry : GraderRegistry) (names : List String) :
    Except LaunchError (List Grader) :=
  names.mapM (resolveGrader host registry host.recursionLimit)

/-- **The instances come one for each name**, in the order of the names. -/
theorem resolveGraders_eq_ok {host : GraderHost} {registry : GraderRegistry} {names : List String}
    {graders : List Grader} :
    resolveGraders host registry names = .ok graders ↔
      List.Forall₂ (fun n g => resolveGrader host registry host.recursionLimit n = .ok g) names
        graders := by
  unfold resolveGraders
  induction names generalizing graders with
  | nil =>
    rw [List.mapM_nil, List.forall₂_nil_left_iff]
    exact ⟨fun h => (Except.ok.inj h).symm, fun h => by rw [h]; rfl⟩
  | cons n names ih =>
    rw [List.mapM_cons, bind_eq_ok]
    constructor
    · rintro ⟨g, hg, h⟩
      obtain ⟨gs, hgs, h⟩ := bind_eq_ok.mp h
      obtain rfl := Except.ok.inj h
      exact .cons hg (ih.mp hgs)
    · rintro (_ | ⟨hg, hgs⟩)
      exact ⟨_, hg, bind_eq_ok.mpr ⟨_, ih.mpr hgs, rfl⟩⟩

/-! ### Assignments -/

/-- The assignments of a list of names to factories, in order. -/
def setAll (items : List (String × GraderFactory)) (registry : GraderRegistry) : GraderRegistry :=
  items.foldl (fun r entry => r.set entry.1 entry.2) registry

theorem get?_setAll (items : List (String × GraderFactory)) (registry : GraderRegistry)
    (k : String) :
    (setAll items registry).get? k = ((Dict.ofItems items).get? k).or (registry.get? k) := by
  have hfold : ∀ (d d' : GraderRegistry), (∀ j, d.get? j = (d'.get? j).or (registry.get? j)) →
      (items.foldl (fun r entry => r.set entry.1 entry.2) d).get? k =
        ((items.foldl (fun r entry => r.set entry.1 entry.2) d').get? k).or (registry.get? k) := by
    induction items with
    | nil => exact fun d d' h => h k
    | cons entry items ih =>
      intro d d' h
      refine ih _ _ fun j => ?_
      rw [Dict.get?_set, Dict.get?_set, h j]
      by_cases hj : j = entry.1
      · simp [hj]
      · simp [hj]
  exact hfold registry .empty fun j => by simp

/-- **Assignments leave a registry as it was** when each name that is set had the value it is last
set to. -/
theorem same_setAll_iff (items : List (String × GraderFactory)) (registry : GraderRegistry) :
    (setAll items registry).Same registry ↔
      ∀ name factory, (Dict.ofItems items).get? name = some factory →
        registry.get? name = some factory := by
  constructor
  · intro h name factory hlast
    have hname := h name
    rw [get?_setAll, hlast] at hname
    exact hname.symm
  · intro h name
    rw [get?_setAll]
    rcases hlast : (Dict.ofItems items).get? name with _ | factory
    · rfl
    · exact (h name factory hlast).symm

end Selfevals.Graders.Registry
