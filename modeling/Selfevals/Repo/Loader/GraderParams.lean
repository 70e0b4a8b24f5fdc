import Selfevals.Graders.Select
import Selfevals.Lib.Result

/-!
# The parameters of graders

The fields of a grader's `params`. Each is parsed by one of a few parsers (a flag, a member of a
set, a threshold, a path, a string), which comes with the lemma that it reads back what it gave; so
the parameters of `set_match`, `pairwise` and `confusion` read back from the dict they were parsed
into.
-/

namespace Selfevals.Repo.Loader.GraderParams

open Lib.JsonValue Lib.Result Schemas.Enums Schemas.Experiments Graders.Select Repo.Loader.Models

/-! ### The sets of accepted values -/

/-- `_PAIRWISE_COMPARE_AGAINST`. -/
inductive CompareAgainst
  | reference
deriving DecidableEq, Repr

instance : Coded CompareAgainst where
  value _ := "reference"
  members := [.reference]

/-- `_SET_MATCH_GATINGS`. -/
inductive Gating
  | completeness | precision | recall | f1
deriving DecidableEq, Repr

instance : Coded Gating where
  value
    | .completeness => "completeness"
    | .precision => "precision"
    | .recall => "recall"
    | .f1 => "f1"
  members := [.completeness, .precision, .recall, .f1]

/-- `_FUNNEL_MATCH_KINDS`. -/
inductive MatchKind
  | present | equals | setMatch | byKey | byIndex | toolCalled | spanExists
deriving DecidableEq, Repr

instance : Coded MatchKind where
  value
    | .present => "exists"
    | .equals => "equals"
    | .setMatch => "set_match"
    | .byKey => "by_key"
    | .byIndex => "by_index"
    | .toolCalled => "tool_called"
    | .spanExists => "span_exists"
  members := [.present, .equals, .setMatch, .byKey, .byIndex, .toolCalled, .spanExists]

/-! ### Values -/

/-- A number in `[0, 1]`. -/
abbrev Rate := {q : ℚ // IsRate q}

/-- A well-formed path selector. -/
abbrev Path := {path : String // validatePath path = .ok ()}

def dumpMember {α : Type} [Coded α] (a : α) : Json := .str (Coded.value a)

def dumpRate (q : Rate) : Json := .float q.val

def dumpPath (path : Path) : Json := .str path.val

def dumpStr (s : NonEmptyStr) : Json := .str s.val

section Fields
variable {α : Type} [Coded α]

/-- `value in {…}`: a set cannot be asked for an unhashable value. -/
def parseMember (refused : LoadError) (value : Json) : Except LoadError α :=
  match value with
  | .str s =>
    match Coded.ofValue s with
    | some a => .ok a
    | none => .error refused
  | v => if v.unhashable then .error .typeError else .error refused

@[simp] theorem parseMember_dump (refused : LoadError) (a : α) :
    parseMember refused (dumpMember a) = .ok a := by
  simp [parseMember, dumpMember]

/-- A member of an enumeration, or null. -/
def optMember (refused : LoadError) (value : Json) : Except LoadError (Option α) :=
  if value.isNull then .ok none else (parseMember refused value).map some

@[simp] theorem optMember_dump (refused : LoadError) (a : Option α) :
    optMember refused ((a.map dumpMember).getD .null) = .ok a := by
  cases a with
  | none => rfl
  | some a =>
    show (parseMember refused (dumpMember a)).map some = _
    rw [parseMember_dump]
    rfl

end Fields

/-- A flag, or null. -/
def optFlag (refused : LoadError) (value : Json) : Except LoadError (Option Bool) :=
  match value with
  | .null => .ok none
  | .bool b => .ok (some b)
  | _ => .error refused

@[simp] theorem optFlag_dump (refused : LoadError) (b : Option Bool) :
    optFlag refused ((b.map Json.bool).getD .null) = .ok b := by
  cases b <;> rfl

/-- A number that is no `bool`, and then a rate. -/
def optThreshold (notNumber outOfRange : LoadError) (value : Json) :
    Except LoadError (Option Rate) :=
  match value with
  | .null => .ok none
  | .int n => if h : IsRate n then .ok (some ⟨n, h⟩) else .error outOfRange
  | .float q => if h : IsRate q then .ok (some ⟨q, h⟩) else .error outOfRange
  | _ => .error notNumber

@[simp] theorem optThreshold_dump (notNumber outOfRange : LoadError) (q : Option Rate) :
    optThreshold notNumber outOfRange ((q.map dumpRate).getD .null) = .ok q := by
  cases q with
  | none => rfl
  | some q =>
    show (if h : IsRate q.val then _ else _) = _
    rw [dif_pos q.property]

/-- A string that is a path; `text` stands before what `validate_path` says. -/
def parsePath (notString : LoadError) (text : String) (value : Json) : Except LoadError Path :=
  match value with
  | .str path =>
    match h : validatePath path with
    | .ok () => .ok ⟨path, h⟩
    | .error exc => .error (.loaderError (.text text :: exc))
  | _ => .error notString

@[simp] theorem parsePath_dump (notString : LoadError) (text : String) (path : Path) :
    parsePath notString text (dumpPath path) = .ok path := by
  simp only [parsePath, dumpPath]
  split
  · rfl
  · rename_i exc h
    rw [path.property] at h
    cases h

/-- A path, or null. -/
def optPath (notString : LoadError) (text : String) (value : Json) :
    Except LoadError (Option Path) :=
  if value.isNull then .ok none else (parsePath notString text value).map some

@[simp] theorem optPath_dump (notString : LoadError) (text : String) (path : Option Path) :
    optPath notString text ((path.map dumpPath).getD .null) = .ok path := by
  cases path with
  | none => rfl
  | some path =>
    show (parsePath notString text (dumpPath path)).map some = _
    rw [parsePath_dump]
    rfl

/-- A string that is not empty. -/
def parseStr (refused : LoadError) (value : Json) : Except LoadError NonEmptyStr :=
  match value with
  | .str s => if h : s ≠ "" then .ok ⟨s, h⟩ else .error refused
  | _ => .error refused

@[simp] theorem parseStr_dump (refused : LoadError) (s : NonEmptyStr) :
    parseStr refused (dumpStr s) = .ok s := by
  show (if h : s.val ≠ "" then _ else _) = _
  rw [dif_pos s.property]

/-- A string with something in it, or null. -/
def optStr (refused : LoadError) (value : Json) : Except LoadError (Option NonEmptyStr) :=
  if value.isNull then .ok none else (parseStr refused value).map some

@[simp] theorem optStr_dump (refused : LoadError) (s : Option NonEmptyStr) :
    optStr refused ((s.map dumpStr).getD .null) = .ok s := by
  cases s with
  | none => rfl
  | some s =>
    show (parseStr refused (dumpStr s)).map some = _
    rw [parseStr_dump]
    rfl

/-! ### Parameters -/

/-- `entry.get("params", {})`, which has to be a mapping. -/
def rawParams (specPath : String) (i : ℕ) (entry : Object) : Except LoadError Object :=
  match dictGetD entry "params" (.obj []) with
  | .obj raw => .ok raw
  | v => .error (.refused specPath s!"graders[{i}].params must be a mapping, got " v)

/-- `_parse_set_match_params`, from the mapping on. -/
def parseSetMatchParams (specPath : String) (i : ℕ) (raw : Object) : Except LoadError Object := do
  let gating : Option Gating ← optMember
    (.refused specPath (s!"graders[{i}].params.gating must be one of " ++
      "['completeness', 'f1', 'precision', 'recall'], got ") (dictGet raw "gating"))
    (dictGet raw "gating")
  let threshold ← optThreshold
    (.refused specPath s!"graders[{i}].params.threshold must be a number, got "
      (dictGet raw "threshold"))
    (.refused specPath s!"graders[{i}].params.threshold must be in [0, 1], got "
      (dictGet raw "threshold"))
    (dictGet raw "threshold")
  let caseSensitive ← optFlag
    (.refused specPath s!"graders[{i}].params.case_sensitive must be a boolean, got "
      (dictGet raw "case_sensitive"))
    (dictGet raw "case_sensitive")
  return optField "gating" (gating.map dumpMember) ++
    (optField "threshold" (threshold.map dumpRate) ++
      optField "case_sensitive" (caseSensitive.map .bool))

/-- `_parse_pairwise_params`, from the mapping on. -/
def parsePairwiseParams (specPath : String) (i : ℕ) (raw : Object) : Except LoadError Object := do
  let compareAgainst : Option CompareAgainst ← optMember
    (.refused specPath s!"graders[{i}].params.compare_against must be one of ['reference'], got "
      (dictGet raw "compare_against"))
    (dictGet raw "compare_against")
  let tieIsPass ← optFlag
    (.refused specPath s!"graders[{i}].params.tie_is_pass must be a boolean, got "
      (dictGet raw "tie_is_pass"))
    (dictGet raw "tie_is_pass")
  let swapAndAverage ← optFlag
    (.refused specPath s!"graders[{i}].params.swap_and_average must be a boolean, got "
      (dictGet raw "swap_and_average"))
    (dictGet raw "swap_and_average")
  return optField "compare_against" (compareAgainst.map dumpMember) ++
    (optField "tie_is_pass" (tieIsPass.map .bool) ++
      optField "swap_and_average" (swapAndAverage.map .bool))

/-- `_parse_confusion_params`, from the mapping on. -/
def parseConfusionParams (specPath : String) (i : ℕ) (raw : Object) : Except LoadError Object := do
  let extract ← optPath
    (.refused specPath s!"graders[{i}].params.extract must be a string, got "
      (dictGet raw "extract"))
    s!"{specPath}: graders[{i}].params.extract: " (dictGet raw "extract")
  let expectedFrom ← optPath
    (.refused specPath s!"graders[{i}].params.expected_from must be a string, got "
      (dictGet raw "expected_from"))
    s!"{specPath}: graders[{i}].params.expected_from: " (dictGet raw "expected_from")
  let caseSensitive ← optFlag
    (.refused specPath s!"graders[{i}].params.case_sensitive must be a boolean, got "
      (dictGet raw "case_sensitive"))
    (dictGet raw "case_sensitive")
  return optField "extract" (extract.map dumpPath) ++
    (optField "expected_from" (expectedFrom.map dumpPath) ++
      optField "case_sensitive" (caseSensitive.map .bool))

theorem parseSetMatchParams_params {specPath : String} {i : ℕ} {raw params : Object}
    (h : parseSetMatchParams specPath i raw = .ok params) (specPath' : String) (i' : ℕ) :
    parseSetMatchParams specPath' i' params = .ok params := by
  obtain ⟨gating, -, h⟩ := bind_eq_ok.mp h
  obtain ⟨threshold, -, h⟩ := bind_eq_ok.mp h
  obtain ⟨caseSensitive, -, h⟩ := bind_eq_ok.mp h
  obtain rfl := Except.ok.inj h
  refine bind_eq_ok.mpr ⟨gating, ?_,
    bind_eq_ok.mpr ⟨threshold, ?_, bind_eq_ok.mpr ⟨caseSensitive, ?_, rfl⟩⟩⟩
  all_goals simp [dictGet, List.lookup_append]

theorem parsePairwiseParams_params {specPath : String} {i : ℕ} {raw params : Object}
    (h : parsePairwiseParams specPath i raw = .ok params) (specPath' : String) (i' : ℕ) :
    parsePairwiseParams specPath' i' params = .ok params := by
  obtain ⟨compareAgainst, -, h⟩ := bind_eq_ok.mp h
  obtain ⟨tieIsPass, -, h⟩ := bind_eq_ok.mp h
  obtain ⟨swapAndAverage, -, h⟩ := bind_eq_ok.mp h
  obtain rfl := Except.ok.inj h
  refine bind_eq_ok.mpr ⟨compareAgainst, ?_,
    bind_eq_ok.mpr ⟨tieIsPass, ?_, bind_eq_ok.mpr ⟨swapAndAverage, ?_, rfl⟩⟩⟩
  all_goals simp [dictGet, List.lookup_append]

theorem parseConfusionParams_params {specPath : String} {i : ℕ} {raw params : Object}
    (h : parseConfusionParams specPath i raw = .ok params) (specPath' : String) (i' : ℕ) :
    parseConfusionParams specPath' i' params = .ok params := by
  obtain ⟨extract, -, h⟩ := bind_eq_ok.mp h
  obtain ⟨expectedFrom, -, h⟩ := bind_eq_ok.mp h
  obtain ⟨caseSensitive, -, h⟩ := bind_eq_ok.mp h
  obtain rfl := Except.ok.inj h
  refine bind_eq_ok.mpr ⟨extract, ?_,
    bind_eq_ok.mpr ⟨expectedFrom, ?_, bind_eq_ok.mpr ⟨caseSensitive, ?_, rfl⟩⟩⟩
  all_goals simp [dictGet, List.lookup_append]

end Selfevals.Repo.Loader.GraderParams
