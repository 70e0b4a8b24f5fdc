import Selfevals.Repo.Loader.GraderParams

/-!
# The levels of a funnel

`params.levels` of a funnel is a tree: each level has a key of its own, a path, some flags, a match
and children. `level` walks it with the set of the keys seen so far, which are unique across the
tree.

* `level_eq_ok` : what an accepted level went through;
* `parseFunnelParams_params` : so the parameters of a funnel do.
-/

namespace Selfevals.Repo.Loader.Funnel

open Lib.JsonValue Lib.Result Schemas.Enums Repo.Loader.Models Repo.Loader.GraderParams

/-! ### The match of a level -/

/-- The match of a level: a declared grader, or a builtin kind with its settings. -/
inductive FunnelMatch
  | grader (ref : NonEmptyStr)
  | present
  | equals (value : Json) (caseSensitive : Option Bool)
  | setMatch (gating : Option Gating) (threshold : Option Rate) (caseSensitive : Option Bool)
  | byKey (key : NonEmptyStr) (value : Json) (caseSensitive : Option Bool)
  | byIndex (index : ℤ) (value : Json) (caseSensitive : Option Bool)
  | toolCalled (tool : NonEmptyStr)
  | spanExists (spanKind : SpanKind)

namespace FunnelMatch

/-- The dict that `_funnel_match` returns. -/
def toDict : FunnelMatch → Object
  | .grader ref => [("grader", dumpStr ref)]
  | .present => [("kind", dumpMember MatchKind.present)]
  | .equals value cs =>
    [("kind", dumpMember MatchKind.equals), ("value", value)] ++
      optField "case_sensitive" (cs.map .bool)
  | .setMatch gating threshold cs =>
    [("kind", dumpMember MatchKind.setMatch)] ++
      (optField "gating" (gating.map dumpMember) ++
        (optField "threshold" (threshold.map dumpRate) ++
          optField "case_sensitive" (cs.map .bool)))
  | .byKey key value cs =>
    [("kind", dumpMember MatchKind.byKey), ("key", dumpStr key), ("value", value)] ++
      optField "case_sensitive" (cs.map .bool)
  | .byIndex index value cs =>
    [("kind", dumpMember MatchKind.byIndex), ("index", .int index), ("value", value)] ++
      optField "case_sensitive" (cs.map .bool)
  | .toolCalled tool => [("kind", dumpMember MatchKind.toolCalled), ("tool", dumpStr tool)]
  | .spanExists spanKind =>
    [("kind", dumpMember MatchKind.spanExists), ("span_kind", dumpMember spanKind)]

end FunnelMatch

/-- `match_raw["value"]`, which has to be there; it may be anything. -/
def requireValue (missing : LoadError) (matchRaw : Object) : Except LoadError Json :=
  match matchRaw.lookup "value" with
  | none => .error missing
  | some value => .ok value

/-- An `int` that is no `bool`. -/
def parseIndex (refused : LoadError) (value : Json) : Except LoadError ℤ :=
  match value with
  | .int n => .ok n
  | _ => .error refused

/-- The match of a builtin kind; `level` is how errors name the level. -/
def kindMatch (specPath level : String) (matchRaw : Object) :
    MatchKind → Except LoadError FunnelMatch
  | .present => .ok .present
  | .equals => do
    let value ← requireValue (.located specPath s!"{level}.match (equals) requires `value`")
      matchRaw
    let caseSensitive ← parseCaseSensitive
    return .equals value caseSensitive
  | .byKey => do
    let key ← parseStr (.located specPath s!"{level}.match (by_key) requires a string `key`")
      (dictGet matchRaw "key")
    let value ← requireValue (.located specPath s!"{level}.match (by_key) requires `value`")
      matchRaw
    let caseSensitive ← parseCaseSensitive
    return .byKey key value caseSensitive
  | .byIndex => do
    let index ← parseIndex (.located specPath s!"{level}.match (by_index) requires an int `index`")
      (dictGet matchRaw "index")
    let value ← requireValue (.located specPath s!"{level}.match (by_index) requires `value`")
      matchRaw
    let caseSensitive ← parseCaseSensitive
    return .byIndex index value caseSensitive
  | .toolCalled => do
    let tool ← parseStr
      (.located specPath s!"{level}.match (tool_called) requires a string `tool`")
      (dictGet matchRaw "tool")
    return .toolCalled tool
  | .spanExists => do
    let spanKind ← parseMember
      (.refused specPath (s!"{level}.match (span_exists) requires `span_kind` in " ++
        "['agent_turn', 'custom', 'decision', 'error', 'guardrail_check', 'handoff', " ++
        "'human_intervention', 'llm_call', 'memory_read', 'memory_write', 'retrieval', 'stt', " ++
        "'tool_call', 'tts']; got ") (dictGet matchRaw "span_kind"))
      (dictGet matchRaw "span_kind")
    return .spanExists spanKind
  | .setMatch => do
    let gating ← optMember
      (.refused specPath (s!"{level}.match.gating must be one of " ++
        "['completeness', 'f1', 'precision', 'recall']; got ") (dictGet matchRaw "gating"))
      (dictGet matchRaw "gating")
    let threshold ← optThreshold
      (.refused specPath s!"{level}.match.threshold must be a number; got "
        (dictGet matchRaw "threshold"))
      (.refused specPath s!"{level}.match.threshold must be in [0, 1]; got "
        (dictGet matchRaw "threshold"))
      (dictGet matchRaw "threshold")
    let caseSensitive ← parseCaseSensitive
    return .setMatch gating threshold caseSensitive
where
  parseCaseSensitive : Except LoadError (Option Bool) :=
    optFlag (.located specPath s!"{level}.match.case_sensitive must be a boolean")
      (dictGet matchRaw "case_sensitive")

/-- `_funnel_match`: exactly one of `kind` and `grader`. -/
def funnelMatch (specPath level : String) (matchRaw : Json) : Except LoadError FunnelMatch :=
  match matchRaw with
  | .obj matchRaw =>
    let hasKind := (matchRaw.lookup "kind").isSome
    let hasGrader := (matchRaw.lookup "grader").isSome
    if hasKind = hasGrader then
      .error (.located specPath (s!"{level}.match must have exactly one of " ++
        "`kind` (builtin) or `grader` (a declared grader name)"))
    else if hasGrader then
      (parseStr (.located specPath s!"{level}.match.grader must be a non-empty string")
        (dictGet matchRaw "grader")).map .grader
    else do
      let kind ← parseMember
        (.refused specPath (s!"{level}.match.kind must be one of ['by_index', 'by_key', " ++
          "'equals', 'exists', 'set_match', 'span_exists', 'tool_called']; got ")
          (dictGet matchRaw "kind"))
        (dictGet matchRaw "kind")
      kindMatch specPath level matchRaw kind
  | _ => .error (.located specPath s!"{level}.match must be a mapping")

/-- **The match of a level reads back from its dict.** -/
theorem funnelMatch_toDict (specPath level : String) (m : FunnelMatch) :
    funnelMatch specPath level (.obj m.toDict) = .ok m := by
  cases m <;>
    simp [funnelMatch, FunnelMatch.toDict, kindMatch, kindMatch.parseCaseSensitive, requireValue,
      parseIndex, dictGet, List.lookup_append, List.lookup_cons] <;> rfl

/-! ### Levels -/

/-- What a level holds besides its key and its children. -/
structure LevelHead where
  extract : Path
  gate : Bool
  feedsExtract : Bool
  matchSpec : FunnelMatch
  failureMode : Option NonEmptyStr

/-- A flag that is off unless it is given. -/
def flagD (refused : LoadError) (value : Json) : Except LoadError Bool :=
  match value with
  | .bool b => .ok b
  | _ => .error refused

/-- The checks that `_level` makes after that of the key. -/
def levelHead (specPath level : String) (node : Object) : Except LoadError LevelHead := do
  let extract ← parsePath (.located specPath s!"{level}.extract must be a string")
    s!"{specPath}: {level}.extract: " (dictGetD node "extract" (.str ""))
  let gate ← flagD (.located specPath s!"{level}.gate must be a boolean")
    (dictGetD node "gate" (.bool false))
  let feeds ← flagD (.located specPath s!"{level}.feeds_extract must be a boolean")
    (dictGetD node "feeds_extract" (.bool false))
  let failureMode ← optStr
    (.located specPath s!"{level}.failure_mode must be a non-empty string")
    (dictGet node "failure_mode")
  let matchSpec ← funnelMatch specPath level (dictGet node "match")
  return {
    extract := extract
    gate := gate
    feedsExtract := feeds
    matchSpec := matchSpec
    failureMode := failureMode }

/-- The dict of a level. -/
def levelDict (key : NonEmptyStr) (head : LevelHead) (children : List Json) : Object :=
  [("key", dumpStr key), ("extract", dumpPath head.extract), ("gate", .bool head.gate),
    ("feeds_extract", .bool head.feedsExtract), ("match", .obj head.matchSpec.toDict),
    ("children", .arr children)] ++
    optField "failure_mode" (head.failureMode.map dumpStr)

theorem sizeOf_children_lt {node : Object} {children : List Json}
    (h : dictGetD node "children" (.arr []) = .arr children) :
    sizeOf children < sizeOf (Json.obj node) := by
  rw [Json.obj.sizeOf_spec]
  unfold dictGetD at h
  induction node with
  | nil =>
    obtain rfl : [] = children := Json.arr.inj h
    simp
  | cons field node ih =>
    obtain ⟨key, value⟩ := field
    rw [List.lookup_cons] at h
    split at h
    · obtain rfl : value = .arr children := h
      simp
      omega
    · have hlt := ih h
      simp
      omega

mutual

/-- `_level`: the dict of a node, and the keys seen after it. -/
def level (specPath : String) (i : ℕ) (seen : List String) (path : String) (node : Json) :
    Except LoadError (Json × List String) :=
  match node with
  | .obj node =>
    parseStr (.located specPath s!"graders[{i}].levels{path}.key must be a non-empty string")
      (dictGet node "key") >>= fun key =>
    let label := s!"graders[{i}].levels[" ++ key.val ++ "]"
    if key.val ∈ seen then
      .error (.loaderError [.text s!"{specPath}: graders[{i}].levels key ", .repr (dumpStr key),
        .text " is duplicated (keys must be unique across the funnel tree)"])
    else
      levelHead specPath label node >>= fun head =>
      match _h : dictGetD node "children" (.arr []) with
      | .arr nodes =>
        levels specPath i (key.val :: seen) (path ++ "[" ++ key.val ++ "].children") 0 nodes >>=
          fun (children, seen) => .ok (.obj (levelDict key head children), seen)
      | _ => .error (.located specPath (label ++ ".children must be a list"))
  | _ => .error (.located specPath s!"graders[{i}].levels{path} must be a mapping")
termination_by sizeOf node
decreasing_by exact sizeOf_children_lt _h

/-- The levels of a list of nodes, the first of which is number `j` under `base`. -/
def levels (specPath : String) (i : ℕ) (seen : List String) (base : String) (j : ℕ)
    (nodes : List Json) : Except LoadError (List Json × List String) :=
  match nodes with
  | [] => .ok ([], seen)
  | node :: nodes =>
    level specPath i seen s!"{base}[{j}]" node >>= fun (out, seen) =>
    levels specPath i seen base (j + 1) nodes >>= fun (outs, seen) =>
    .ok (out :: outs, seen)
termination_by sizeOf nodes

end

theorem level_eq_ok {specPath : String} {i : ℕ} {seen seen' : List String} {path : String}
    {node : Object} {out : Json} :
    level specPath i seen path (.obj node) = .ok (out, seen') ↔
      ∃ key head nodes children,
        parseStr (.located specPath s!"graders[{i}].levels{path}.key must be a non-empty string")
          (dictGet node "key") = .ok key ∧
        key.val ∉ seen ∧
        levelHead specPath (s!"graders[{i}].levels[" ++ key.val ++ "]") node = .ok head ∧
        dictGetD node "children" (.arr []) = .arr nodes ∧
        levels specPath i (key.val :: seen) (path ++ "[" ++ key.val ++ "].children") 0 nodes =
          .ok (children, seen') ∧
        out = .obj (levelDict key head children) := by
  rw [level, bind_eq_ok]
  refine exists_congr fun key => ?_
  by_cases hseen : key.val ∈ seen
  · simp [hseen]
  · simp only [if_neg hseen, bind_eq_ok]
    constructor
    · rintro ⟨hkey, head, hhead, h⟩
      split at h
      · rename_i nodes hnodes
        obtain ⟨⟨children, seen''⟩, hchildren, h⟩ := bind_eq_ok.mp h
        obtain ⟨rfl, rfl⟩ := Prod.mk.inj (Except.ok.inj h)
        exact ⟨head, nodes, children, hkey, hseen, hhead, hnodes, hchildren, rfl⟩
      · cases h
    · rintro ⟨head, nodes, children, hkey, -, hhead, hnodes, hchildren, rfl⟩
      refine ⟨hkey, head, hhead, ?_⟩
      split
      · rename_i nodes' hnodes'
        obtain rfl := Json.arr.inj (hnodes.symm.trans hnodes')
        rw [hchildren]
        rfl
      · rename_i hne
        exact absurd hnodes (hne nodes)

theorem levelHead_levelDict (specPath label : String) (key : NonEmptyStr) (head : LevelHead)
    (children : List Json) :
    levelHead specPath label (levelDict key head children) = .ok head := by
  refine bind_eq_ok.mpr ⟨head.extract, ?_, bind_eq_ok.mpr ⟨head.gate, ?_,
    bind_eq_ok.mpr ⟨head.feedsExtract, ?_, bind_eq_ok.mpr ⟨head.failureMode, ?_,
      bind_eq_ok.mpr ⟨head.matchSpec, ?_, rfl⟩⟩⟩⟩⟩
  all_goals simp [levelDict, flagD, dictGet, dictGetD, List.lookup_cons, funnelMatch_toDict]

mutual

/-- **A level reads back from the dict it was parsed into**, with the same keys seen. -/
theorem level_level {specPath : String} {i : ℕ} {seen seen' : List String} {path : String}
    {node out : Json} (h : level specPath i seen path node = .ok (out, seen'))
    (specPath' : String) (i' : ℕ) (path' : String) :
    level specPath' i' seen path' out = .ok (out, seen') := by
  cases node with
  | obj node =>
    obtain ⟨key, head, nodes, children, -, hseen, -, hnodes, hchildren, rfl⟩ := level_eq_ok.mp h
    have hsize : sizeOf nodes < sizeOf (Json.obj node) := sizeOf_children_lt hnodes
    have hkey : dictGet (levelDict key head children) "key" = dumpStr key := rfl
    have hsub : dictGetD (levelDict key head children) "children" (.arr []) = .arr children := rfl
    refine level_eq_ok.mpr ⟨key, head, children, children, ?_, hseen, ?_, hsub, ?_, rfl⟩
    · rw [hkey, parseStr_dump]
    · exact levelHead_levelDict _ _ key head children
    · exact levels_levels hchildren specPath' i' _ 0
  | _ => simp [level] at h
termination_by sizeOf node

theorem levels_levels {specPath : String} {i : ℕ} {seen seen' : List String} {base : String}
    {j : ℕ} {nodes outs : List Json}
    (h : levels specPath i seen base j nodes = .ok (outs, seen'))
    (specPath' : String) (i' : ℕ) (base' : String) (j' : ℕ) :
    levels specPath' i' seen base' j' outs = .ok (outs, seen') := by
  cases nodes with
  | nil =>
    rw [levels] at h
    obtain ⟨rfl, rfl⟩ := Prod.mk.inj (Except.ok.inj h)
    rw [levels]
  | cons node nodes =>
    rw [levels] at h
    obtain ⟨⟨out, mid⟩, hnode, h⟩ := bind_eq_ok.mp h
    obtain ⟨⟨rest, last⟩, hrest, h⟩ := bind_eq_ok.mp h
    obtain ⟨rfl, rfl⟩ := Prod.mk.inj (Except.ok.inj h)
    rw [levels, level_level hnode specPath' i' _]
    show (levels specPath' i' mid base' (j' + 1) rest >>= _) = _
    rw [levels_levels hrest specPath' i' base' (j' + 1)]
    rfl
termination_by sizeOf nodes

end

theorem levels_length {specPath : String} {i : ℕ} {seen seen' : List String} {base : String}
    {j : ℕ} {nodes outs : List Json}
    (h : levels specPath i seen base j nodes = .ok (outs, seen')) :
    outs.length = nodes.length := by
  induction nodes generalizing seen j outs with
  | nil =>
    rw [levels] at h
    obtain ⟨rfl, -⟩ := Prod.mk.inj (Except.ok.inj h)
    rfl
  | cons node nodes ih =>
    rw [levels] at h
    obtain ⟨⟨out, mid⟩, -, h⟩ := bind_eq_ok.mp h
    obtain ⟨⟨rest, last⟩, hrest, h⟩ := bind_eq_ok.mp h
    obtain ⟨rfl, rfl⟩ := Prod.mk.inj (Except.ok.inj h)
    rw [List.length_cons, List.length_cons, ih hrest]

/-! ### The tree -/

/-- `_parse_funnel_params`, from the mapping on. -/
def parseFunnelParams (specPath : String) (i : ℕ) (raw : Object) : Except LoadError Object :=
  let refused := LoadError.located specPath
    s!"graders[{i}] (funnel) requires a non-empty `params.levels` list"
  match dictGet raw "levels" with
  | .arr [] => .error refused
  | .arr nodes => do
    let (outs, _) ← levels specPath i [] "" 0 nodes
    return [("levels", .arr outs)]
  | _ => .error refused

theorem parseFunnelParams_params {specPath : String} {i : ℕ} {raw params : Object}
    (h : parseFunnelParams specPath i raw = .ok params) (specPath' : String) (i' : ℕ) :
    parseFunnelParams specPath' i' params = .ok params := by
  unfold parseFunnelParams at h
  dsimp only at h
  split at h
  · cases h
  · rename_i nodes hnil _
    obtain ⟨⟨outs, seen⟩, houts, h⟩ := bind_eq_ok.mp h
    obtain rfl := Except.ok.inj h
    have hlength := levels_length houts
    have hagain := levels_levels houts specPath' i' "" 0
    cases outs with
    | nil => exact absurd (List.length_eq_zero_iff.mp hlength.symm) hnil
    | cons out outs =>
      have hget : dictGet [("levels", Json.arr (out :: outs))] "levels" = .arr (out :: outs) := rfl
      simp only [parseFunnelParams, hget]
      rw [hagain]
      rfl
  · cases h

end Selfevals.Repo.Loader.Funnel
