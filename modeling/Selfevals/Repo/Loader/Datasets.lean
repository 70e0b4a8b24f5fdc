import Selfevals.Lib.Result
import Selfevals.Repo.Loader.Models

/-!
# The `dataset:` block

`buildDatasetSource` tells an inline source from a reference; `dumpDatasetSource` writes the id and
version of a reference, and of an inline source the cases of the spec.

* `buildDatasetSource_ok` : an accepted source is a valid reference or has cases that the model
  accepts.
-/

namespace Selfevals.Repo.Loader.Datasets

open Lib.JsonValue Lib.PyStr Lib.Result Schemas.Base Schemas.Enums Schemas.Experiments
  Repo.Loader.Models

variable {κ : Type}

/-! ### References -/

/-- `EntityRef(id=…, version=…)`; `none` for a `ValidationError`. -/
def entityRef (id : String) (version : Option ℤ) : Option EntityRef :=
  if id = "" then none
  else
    match version with
    | none => some ⟨id, none⟩
    | some v => if 1 ≤ v then some ⟨id, some v.toNat⟩ else none

/-- An `int` or `None`; a `bool` is an `int`, which the model turns into one. -/
def asVersion : Json → Option (Option ℤ)
  | .null => some none
  | .int n => some (some n)
  | .bool b => some (some (if b then 1 else 0))
  | _ => none

/-- `_build_ref_dataset_source`. -/
def buildRefDatasetSource (specPath : String) (dataset : Object) (ref : Json) :
    Except LoadError RefDatasetSource :=
  let noId := LoadError.located specPath "`dataset.ref:` must be a non-empty dataset id string"
  match ref with
  | .str id =>
    if id = "" then .error noId
    else
      match asVersion (dictGet dataset "version") with
      | none => .error (.located specPath "`dataset.version:` must be an integer when given")
      | some version =>
        match entityRef id version with
        | none => .error (.loaderError
            [.text s!"{specPath}: invalid `dataset.ref:`: ", .invalid "EntityRef"])
        | some ref => .ok ⟨ref⟩
  | _ => .error noId

theorem entityRef_valid {id : String} {version : Option ℤ} {ref : EntityRef}
    (h : entityRef id version = some ref) : EntityRef.Valid ref := by
  unfold entityRef at h
  split_ifs at h with hid
  cases version with
  | none =>
    obtain rfl := Option.some.inj h
    exact ⟨hid, by simp⟩
  | some v =>
    dsimp only at h
    split_ifs at h with hv
    obtain rfl := Option.some.inj h
    refine ⟨hid, fun n hn => ?_⟩
    obtain rfl := Option.some.inj hn
    omega

theorem entityRef_self {ref : EntityRef} (h : EntityRef.Valid ref) :
    entityRef ref.id (ref.version.map (↑)) = some ref := by
  obtain ⟨id, version⟩ := ref
  obtain ⟨hid, hversion⟩ := h
  simp only [entityRef, if_neg hid]
  cases version with
  | none => rfl
  | some n =>
    have hn : 1 ≤ n := hversion n rfl
    show (if (1 : ℤ) ≤ (n : ℤ) then _ else _) = _
    rw [if_pos (by omega), Int.toNat_natCast]

/-! ### The manifest of an inline source -/

/-- `_opt_str`. -/
def optStr (specPath : String) (dataset : Object) (key : String) :
    Except LoadError (Option String) :=
  let refused := LoadError.located specPath
    s!"`dataset.{key}:` must be a non-empty string when given"
  match dictGet dataset key with
  | .null => .ok none
  | .str s => if s = "" then .error refused else .ok (some s)
  | _ => .error refused

/-- `_opt_dataset_type`. -/
def optDatasetType (specPath : String) (dataset : Object) :
    Except LoadError (Option DatasetType) :=
  let refused := fun v : Json => LoadError.loaderError
    [.text s!"{specPath}: invalid `dataset.dataset_type:` ", .repr v, .text ": ", .repr v,
      .text " is not a valid DatasetType"]
  match dictGet dataset "dataset_type" with
  | .null => .ok none
  | .str s =>
    match Coded.ofValue s with
    | some type => .ok (some type)
    | none => .error (refused (.str s))
  | v => .error (refused v)

/-- `_opt_split_allocation`. -/
def optSplitAllocation (S : Schemas κ) (specPath : String) (dataset : Object) :
    Except LoadError (Option SplitAllocation) :=
  match dictGet dataset "split_allocation" with
  | .null => .ok none
  | .obj fields =>
    match S.splitAllocation fields with
    | .ok split => .ok (some split)
    | .error exc => .error (.located specPath s!"invalid `dataset.split_allocation:`: {exc}")
  | _ => .error (.located specPath "`dataset.split_allocation:` must be a mapping when given")

/-! ### Cases -/

/-- `_read_jsonl`: one object a line, blank lines skipped; `lineNo` is the number of the first line.
-/
def readJsonlFrom (host : Host) (path : String) : ℕ → List String → Except LoadError (List Json)
  | _, [] => .ok []
  | lineNo, line :: lines =>
    if strip line = "" then readJsonlFrom host path (lineNo + 1) lines
    else
      match host.loadsJson (strip line) with
      | .error exc => .error (.loaderError [.text s!"{path}:{lineNo}: invalid JSON: {exc}"])
      | .ok (.obj row) => do
        let rows ← readJsonlFrom host path (lineNo + 1) lines
        return .obj row :: rows
      | .ok v => .error (.loaderError
          [.text (s!"{path}:{lineNo}: expected an object, got " ++ v.typeName)])

/-- `_read_jsonl`. -/
def readJsonl (host : Host) (path : String) : Except LoadError (List Json) :=
  match host.readLines path with
  | none => .error (.loaderError [.text s!"dataset file not found: {path}"])
  | some lines => readJsonlFrom host path 1 lines

/-- The case of one row, with an id and the workspace put in where the row has none. -/
def buildCase (S : Schemas κ) (host : Host) (specPath : String) (workspaceId : Json) (i : ℕ)
    (row : Json) : Except LoadError κ :=
  match row with
  | .obj payload =>
    let payload := setDefault payload "id" (.str (host.caseId i))
    let payload := setDefault payload "workspace_id" workspaceId
    match S.evalCase.validate payload with
    | .ok case => .ok case
    | .error exc => .error (.located specPath s!"invalid case #{i}: {exc}")
  | v => .error (.located specPath (s!"case #{i} must be a mapping, got " ++ v.typeName))

/-- The cases of the rows, the first of which has number `i`. -/
def buildRows (S : Schemas κ) (host : Host) (specPath : String) (workspaceId : Json) :
    ℕ → List Json → Except LoadError (List κ)
  | _, [] => .ok []
  | i, row :: rows => do
    let case ← buildCase S host specPath workspaceId i row
    let cases ← buildRows S host specPath workspaceId (i + 1) rows
    return case :: cases

/-- The rows of the two ways to declare cases. -/
def caseRows (host : Host) (specPath : String) (dataset : Object) :
    Except LoadError (List Json) :=
  match dictGet dataset "cases_inline", dictGet dataset "cases_path" with
  | .null, .null => .error (.located specPath
      "dataset must provide `cases_inline:`, `cases_path:`, or `ref:`")
  | .null, path => readJsonl host (host.resolve specPath path)
  | .arr rows, .null => .ok rows
  | _, .null => .error (.located specPath "`cases_inline:` must be a list")
  | _, _ => .error (.located specPath
      "dataset cannot have both `cases_inline:` and `cases_path:`")

/-- The cases of a dataset section. -/
def buildCases (S : Schemas κ) (host : Host) (specPath : String) (dataset : Object)
    (workspaceId : Json) : Except LoadError (List κ) := do
  match ← caseRows host specPath dataset with
  | [] => .error (.located specPath "dataset yielded zero cases")
  | rows => buildRows S host specPath workspaceId 0 rows

/-! ### The source -/

/-- The cases that a section holds. -/
def buildInlineDatasetSource (S : Schemas κ) (host : Host) (specPath : String) (dataset : Object)
    (workspaceId : Json) : Except LoadError (InlineDatasetSource κ) := do
  let cases ← buildCases S host specPath dataset workspaceId
  let name ← optStr specPath dataset "name"
  let datasetType ← optDatasetType specPath dataset
  let splitAllocation ← optSplitAllocation S specPath dataset
  let description ← optStr specPath dataset "description"
  return {
    cases := cases
    name := name
    datasetType := datasetType
    splitAllocation := splitAllocation
    description := description }

/-- What a `dataset:` section asks for. -/
def buildDatasetSection (S : Schemas κ) (host : Host) (specPath : String) (dataset : Object)
    (workspaceId : Json) : Except LoadError (DatasetSpec κ) :=
  let ref := dictGet dataset "ref"
  let hasInline :=
    !(dictGet dataset "cases_inline").isNull || !(dictGet dataset "cases_path").isNull
  if ref.isNull then
    (buildInlineDatasetSource S host specPath dataset workspaceId).map .inline
  else if hasInline then .error (.located specPath
    ("dataset cannot mix `ref:` with `cases_inline:`/`cases_path:` " ++
      "— a ref reuses a persisted dataset, inline declares its own cases"))
  else (buildRefDatasetSource specPath dataset ref).map .ref

/-- `build_dataset_source`. -/
def buildDatasetSource (S : Schemas κ) (host : Host) (specPath : String) (raw : Object)
    (workspaceId : Json) : Except LoadError (DatasetSpec κ) :=
  match dictGetD raw "dataset" (.obj []) with
  | .obj dataset => buildDatasetSection S host specPath dataset workspaceId
  | _ => .error (.located specPath "`dataset:` must be a mapping")

/-! ### The dump -/

/-- `dump_dataset_source`. -/
def dumpDatasetSource (S : Schemas κ) (spec : ExperimentSpec κ) : Object :=
  match spec.datasetSource with
  | .ref source =>
    [("ref", .str source.ref.id)] ++
      optField "version" (source.ref.version.map fun v : ℕ => .int v)
  | .inline _ => [("cases_inline", .arr (spec.cases.map fun c => .obj (S.evalCase.modelDump c)))]

theorem readBack_version (version : Option ℕ) :
    asVersion ((version.map fun v : ℕ => Json.int v).getD .null) =
      some (version.map fun v : ℕ => (v : ℤ)) := by
  cases version <;> rfl

/-- **A valid reference comes back as it was.** -/
theorem buildDatasetSource_dump_ref (S : Schemas κ) (host : Host) (specPath : String)
    {raw : Object} (workspaceId : Json) {spec : ExperimentSpec κ} {source : RefDatasetSource}
    (hsource : spec.datasetSource = .ref source) (hvalid : EntityRef.Valid source.ref)
    (hraw : raw.lookup "dataset" = some (.obj (dumpDatasetSource S spec))) :
    buildDatasetSource S host specPath raw workspaceId = .ok (.ref source) := by
  have hget : dictGetD raw "dataset" (.obj []) = .obj (dumpDatasetSource S spec) := by
    rw [dictGetD, hraw]
    rfl
  have hdump : dumpDatasetSource S spec =
      [("ref", .str source.ref.id)] ++
        optField "version" (source.ref.version.map fun v : ℕ => Json.int v) := by
    simp only [dumpDatasetSource, hsource]
  have href : dictGet (dumpDatasetSource S spec) "ref" = .str source.ref.id := by
    rw [hdump]
    rfl
  have hversion : dictGet (dumpDatasetSource S spec) "version" =
      (source.ref.version.map fun v : ℕ => Json.int v).getD .null := by
    simp [hdump, dictGet, List.lookup_cons]
  have hinline : dictGet (dumpDatasetSource S spec) "cases_inline" = .null := by
    simp [hdump, dictGet, List.lookup_cons]
  have hpath : dictGet (dumpDatasetSource S spec) "cases_path" = .null := by
    simp [hdump, dictGet, List.lookup_cons]
  have hbuild : buildRefDatasetSource specPath (dumpDatasetSource S spec)
      (.str source.ref.id) = .ok source := by
    have hid : source.ref.id ≠ "" := hvalid.1
    simp only [buildRefDatasetSource, if_neg hid, hversion, readBack_version, entityRef_self hvalid]
  rw [buildDatasetSource, hget]
  simp only [buildDatasetSection, href, hinline, hpath, hbuild]
  rfl

theorem buildCase_dump {S : Schemas κ} {case : κ} (h : S.evalCase.WritesIds case) {case' : κ}
    {host : Host} {specPath : String} {workspaceId : Json} {i : ℕ} :
    buildCase S host specPath workspaceId i (.obj (S.evalCase.modelDump case)) = .ok case' ↔
      S.evalCase.validate (S.evalCase.modelDump case) = .ok case' := by
  simp only [buildCase, setDefault_of_isSome h.id_isSome, setDefault_of_isSome h.workspaceId_isSome]
  cases S.evalCase.validate (S.evalCase.modelDump case) <;> simp

theorem buildRows_dump {S : Schemas κ} (h : ∀ case, S.evalCase.WritesIds case) {cases : List κ}
    {host : Host} {specPath : String} {workspaceId : Json} {i : ℕ} :
    buildRows S host specPath workspaceId i (cases.map fun c => .obj (S.evalCase.modelDump c)) =
      .ok cases ↔
        ∀ case ∈ cases, S.evalCase.validate (S.evalCase.modelDump case) = .ok case := by
  induction cases generalizing i with
  | nil => simp [buildRows]
  | cons case cases ih =>
    rw [List.map_cons, buildRows, List.forall_mem_cons, ← ih (i := i + 1), bind_eq_ok]
    constructor
    · rintro ⟨case', hcase, hrest⟩
      obtain ⟨cases', hcases, heq⟩ := bind_eq_ok.mp hrest
      obtain ⟨rfl, rfl⟩ := List.cons.inj (Except.ok.inj heq)
      exact ⟨(buildCase_dump (h _)).mp hcase, hcases⟩
    · rintro ⟨hcase, hcases⟩
      exact ⟨case, (buildCase_dump (h _)).mpr hcase, bind_eq_ok.mpr ⟨cases, hcases, rfl⟩⟩

/-- **An inline source comes back when its cases do and it has no manifest**: no other field of it
is written. -/
theorem buildDatasetSource_dump_inline {S : Schemas κ} (h : ∀ case, S.evalCase.WritesIds case)
    {host : Host} {specPath : String} {raw : Object} {workspaceId : Json} {spec : ExperimentSpec κ}
    {source : InlineDatasetSource κ} (hsource : spec.datasetSource = .inline source)
    (hcases : spec.cases = source.cases) (hne : spec.cases ≠ [])
    (hraw : raw.lookup "dataset" = some (.obj (dumpDatasetSource S spec))) :
    buildDatasetSource S host specPath raw workspaceId = .ok (.inline source) ↔
      (∀ case ∈ spec.cases, S.evalCase.validate (S.evalCase.modelDump case) = .ok case) ∧
        source.name = none ∧ source.datasetType = none ∧ source.splitAllocation = none ∧
          source.description = none := by
  have hget : dictGetD raw "dataset" (.obj []) = .obj (dumpDatasetSource S spec) := by
    rw [dictGetD, hraw]
    rfl
  have hdump : dumpDatasetSource S spec =
      [("cases_inline", .arr (spec.cases.map fun c => .obj (S.evalCase.modelDump c)))] := by
    simp only [dumpDatasetSource, hsource]
  have hbuild : buildCases S host specPath (dumpDatasetSource S spec) workspaceId =
      buildRows S host specPath workspaceId 0
        (spec.cases.map fun c => .obj (S.evalCase.modelDump c)) := by
    have hcaseRows : caseRows host specPath (dumpDatasetSource S spec) =
        .ok (spec.cases.map fun c => .obj (S.evalCase.modelDump c)) := by
      rw [hdump]
      rfl
    obtain ⟨case, cases, hcons⟩ := List.exists_cons_of_ne_nil hne
    rw [buildCases, hcaseRows, hcons]
    rfl
  have hsection : buildDatasetSource S host specPath raw workspaceId =
      (buildRows S host specPath workspaceId 0
        (spec.cases.map fun c => .obj (S.evalCase.modelDump c))).map
          fun cases => .inline { cases := cases } := by
    have href : (dictGet (dumpDatasetSource S spec) "ref").isNull = true := by
      rw [hdump]
      rfl
    rw [buildDatasetSource, hget]
    dsimp only
    rw [buildDatasetSection, if_pos href, buildInlineDatasetSource, hbuild, hdump]
    cases buildRows S host specPath workspaceId 0
      (spec.cases.map fun c => .obj (S.evalCase.modelDump c)) <;> rfl
  obtain ⟨cases, name, datasetType, split, description⟩ := source
  rw [hsection, map_eq_ok, ← buildRows_dump h, hcases]
  simp only [DatasetSpec.inline.injEq, InlineDatasetSource.mk.injEq, eq_comm (a := none)]
  constructor
  · rintro ⟨cases', hrows, rfl, hmanifest⟩
    exact ⟨hrows, hmanifest⟩
  · rintro ⟨hrows, hmanifest⟩
    exact ⟨cases, hrows, rfl, hmanifest⟩

/-! ### What is accepted -/

theorem buildRefDatasetSource_valid {specPath : String} {dataset : Object} {ref : Json}
    {source : RefDatasetSource} (h : buildRefDatasetSource specPath dataset ref = .ok source) :
    EntityRef.Valid source.ref := by
  unfold buildRefDatasetSource at h
  cases ref with
  | str id =>
    dsimp only at h
    split_ifs at h
    cases hv : asVersion (dictGet dataset "version") with
    | none => simp [hv] at h
    | some version =>
      cases hr : entityRef id version with
      | none => simp [hv, hr] at h
      | some r =>
        simp only [hv, hr] at h
        obtain rfl := Except.ok.inj h
        exact entityRef_valid hr
  | _ => cases h

theorem buildRows_length {S : Schemas κ} {host : Host} {specPath : String} {workspaceId : Json}
    {i : ℕ} {rows : List Json} {cases : List κ}
    (h : buildRows S host specPath workspaceId i rows = .ok cases) :
    cases.length = rows.length := by
  induction rows generalizing i cases with
  | nil =>
    obtain rfl := Except.ok.inj h
    rfl
  | cons row rows ih =>
    rw [buildRows] at h
    obtain ⟨case, -, h⟩ := bind_eq_ok.mp h
    obtain ⟨rest, hrest, h⟩ := bind_eq_ok.mp h
    obtain rfl := Except.ok.inj h
    rw [List.length_cons, List.length_cons, ih hrest]

theorem buildRows_validated {S : Schemas κ} {host : Host} {specPath : String} {workspaceId : Json}
    {i : ℕ} {rows : List Json} {cases : List κ}
    (h : buildRows S host specPath workspaceId i rows = .ok cases) :
    ∀ case ∈ cases, ∃ payload, S.evalCase.validate payload = .ok case := by
  induction rows generalizing i cases with
  | nil =>
    obtain rfl := Except.ok.inj h
    exact nofun
  | cons row rows ih =>
    rw [buildRows] at h
    obtain ⟨case, hcase, h⟩ := bind_eq_ok.mp h
    obtain ⟨rest, hrest, h⟩ := bind_eq_ok.mp h
    obtain rfl := Except.ok.inj h
    refine List.forall_mem_cons.mpr ⟨?_, ih hrest⟩
    unfold buildCase at hcase
    split at hcase
    · dsimp only at hcase
      split at hcase
      · next hvalidate =>
        obtain rfl := Except.ok.inj hcase
        exact ⟨_, hvalidate⟩
      · cases hcase
    · cases hcase

/-- A source is a valid reference, or has cases, which the model accepts. -/
def SourceOk (S : Schemas κ) : DatasetSpec κ → Prop
  | .ref source => EntityRef.Valid source.ref
  | .inline source => source.cases ≠ [] ∧
      ∀ case ∈ source.cases, ∃ payload, S.evalCase.validate payload = .ok case

theorem buildCases_ok {S : Schemas κ} {host : Host} {specPath : String} {dataset : Object}
    {workspaceId : Json} {cases : List κ}
    (h : buildCases S host specPath dataset workspaceId = .ok cases) :
    cases ≠ [] ∧ ∀ case ∈ cases, ∃ payload, S.evalCase.validate payload = .ok case := by
  obtain ⟨rows, -, h⟩ := bind_eq_ok.mp h
  cases rows with
  | nil => cases h
  | cons row rows =>
    have hlength := buildRows_length h
    refine ⟨?_, buildRows_validated h⟩
    rintro rfl
    cases hlength

theorem buildDatasetSource_ok {S : Schemas κ} {host : Host} {specPath : String} {raw : Object}
    {workspaceId : Json} {source : DatasetSpec κ}
    (h : buildDatasetSource S host specPath raw workspaceId = .ok source) : SourceOk S source := by
  unfold buildDatasetSource at h
  cases hget : dictGetD raw "dataset" (.obj []) with
  | obj dataset =>
    rw [hget] at h
    dsimp only [buildDatasetSection] at h
    split_ifs at h
    · obtain ⟨inline, hinline, rfl⟩ := map_eq_ok.mp h
      obtain ⟨cases, hcases, hrest⟩ := bind_eq_ok.mp hinline
      obtain ⟨name, -, hrest⟩ := bind_eq_ok.mp hrest
      obtain ⟨datasetType, -, hrest⟩ := bind_eq_ok.mp hrest
      obtain ⟨split, -, hrest⟩ := bind_eq_ok.mp hrest
      obtain ⟨description, -, hrest⟩ := bind_eq_ok.mp hrest
      obtain rfl := Except.ok.inj hrest
      exact buildCases_ok hcases
    · obtain ⟨ref, href, rfl⟩ := map_eq_ok.mp h
      exact buildRefDatasetSource_valid href
  | _ => simp [hget] at h

end Selfevals.Repo.Loader.Datasets
