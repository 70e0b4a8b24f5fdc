import Selfevals.Lib.Effects
import Selfevals.Lib.Mapping
import Selfevals.Schemas.FailureModes
import Selfevals.Schemas.TraceRecords
import Selfevals.Storage.Tables

/-!
# Taking in the result of an error analysis

An agent that has read the failed traces of an experiment sends back which trace shows which failure
mode, the modes it proposes, and hypotheses. `ingestResult` checks the references, creates the
modes, stamps each trace and records its evidence with the mode, and stores the hypotheses, each
write on its own.

* `get?_byIdOf`, `get?_bySlugOf`: what the two indexes find.
* `putMode_new`, `putMode_refused`, `putMode_over`: what a write of a mode does.
-/

namespace Selfevals.Analysis.Ingest

open Lib.Effects Lib.JsonValue Lib.Mapping Schemas.Base Schemas.Experiments Schemas.FailureModes
  Schemas.TraceRecords Storage Storage.Entity Storage.Tables

/-! ### What is sent -/

/-- A trace and the mode it shows: one that exists, or one that is new. -/
structure Assignment where
  traceId : String
  modeId : Option String := none
  newModeSlug : Option String := none
  openNote : Option String := none
  quote : Option String := none
  traceId_nonEmpty : NonEmpty traceId
  exactlyOneTarget : modeId.isSome ≠ newModeSlug.isSome

/-- A failure mode that the analysis proposes. -/
structure ProposedMode where
  slug : String
  title : String
  definition : String
  parentSlug : Option String := none
  nonEmpty : NonEmpty slug ∧ NonEmpty title ∧ NonEmpty definition

/-- A hypothesis that the analysis writes down. -/
structure Hypothesis where
  targetsModeSlug : String
  statement : String
  suggestedParameters : Object := []
  nonEmpty : NonEmpty targetsModeSlug ∧ NonEmpty statement

/-- What comes back from an analysis. -/
structure AnalysisResult where
  assignments : List Assignment := []
  proposedModes : List ProposedMode := []
  hypotheses : List Hypothesis := []

/-! ### What is stored -/

/-- A hypothesis as it is stored, for the proposer. -/
structure HypothesisRecord extends BaseEntity where
  experimentId : String
  targetsModeSlug : String
  statement : String
  suggestedParameters : Object := []
  consumedByIteration : Option ℕ := none

instance : Entity HypothesisRecord where
  base h := h.toBaseEntity
  withCreatedAt h createdAt := { h with createdAt := createdAt }
  base_withCreatedAt _ _ := rfl

/-- What the model accepts. -/
def HypothesisRecord.Valid (h : HypothesisRecord) : Prop :=
  BaseEntity.Valid h.toBaseEntity ∧ NonEmpty h.experimentId ∧ NonEmpty h.targetsModeSlug ∧
    NonEmpty h.statement
deriving Decidable

/-- The failure modes; `failure_modes_slug_unique`. -/
structure Modes extends Table FailureMode where
  slugs_nodup : (rows.map fun m => (m.workspaceId, m.slug)).Nodup

/-- The tables that an ingest reads and writes. -/
structure Store where
  /-- The ids of the workspaces, which the other tables refer to. -/
  workspaces : List String
  modes : Modes
  traces : Table Trace
  hypotheses : Table HypothesisRecord

/-- What an ingest raises. -/
inductive IngestError
  /-- `ValueError`, of `storage.open`. -/
  | emptyWorkspaceId
  /-- `assignment references unknown mode_id {a.mode_id!r}` -/
  | unknownModeId (modeId : String)
  /-- `assignment proposes new_mode_slug {a.new_mode_slug!r} but it is neither in proposed_modes nor
  already known` -/
  | unknownSlug (slug : String)
  /-- `ValidationError`, of a record. -/
  | invalidMode (slug : String)
  | invalidHypothesis
  /-- `KeyError`. -/
  | missingKey
  /-- `UniqueViolation`, `ForeignKeyViolation`. -/
  | slugTaken (slug : String)
  | noWorkspace (workspaceId : String)
  | storage (e : StorageError)
  /-- What the object store raised. -/
  | objectStore (message : String)
deriving DecidableEq, Repr

/-- `put_entity` of a mode. -/
def Modes.put (t : Modes) (workspaces : List String) (workspaceId : String) (mode : FailureMode) :
    Except IngestError Modes :=
  match t.toTable.put workspaceId mode with
  | .error e => .error (.storage e)
  | .ok table =>
    if (t.find? mode.id).isNone ∧ workspaceId ∉ workspaces then .error (.noWorkspace workspaceId)
    else if hslugs : (table.rows.map fun m => (m.workspaceId, m.slug)).Nodup then
      .ok { table with slugs_nodup := hslugs }
    else .error (.slugTaken mode.slug)

/-- `get_entity` of a trace. -/
def getTrace (workspaceId traceId : String) (traces : Table Trace) : Except StorageError Trace :=
  match traces.find? traceId with
  | some trace =>
    if trace.workspaceId = workspaceId then .ok trace
    else .error (.workspaceMismatch workspaceId trace.workspaceId)
  | none => .error (.entityNotFound traceId workspaceId)

/-! ### The function -/

/-- What `make_id` and `utc_now` return to a new record. -/
structure Minted where
  id : String
  createdAt : Time
  updatedAt : Time

/-- The other arguments of `ingest_result`, and what it draws from its surroundings: the ids of the
new modes and of the new hypotheses in turn, and the hash of a payload. -/
structure Env where
  workspaceId : String
  experimentId : String
  proposedBy : String := "agent:unknown"
  objectStore : Option (String → String → ByteArray → Except String String) := none
  newMode : ℕ → Minted
  newHypothesis : ℕ → Minted
  bytesHash : ByteArray → String

/-- What an ingest has written, counted. -/
structure IngestSummary where
  createdCandidates : List String := []
  updatedCandidates : List String := []
  assignmentsApplied : ℕ := 0
  hypothesesRecorded : ℕ := 0
deriving DecidableEq, Repr

/-- What the loops carry; of a mode in `slug_to_mode` only the id is read. -/
structure Progress where
  summary : IngestSummary
  slugToMode : Dict String String
  byId : Dict String FailureMode

section Function
variable (env : Env)

/-- The modes of the workspace. -/
def existing (store : Store) : List FailureMode :=
  store.modes.rows.filter fun m => m.workspaceId = env.workspaceId

/-- The failure modes of the workspace by id. -/
def byIdOf (store : Store) : Dict String FailureMode :=
  Dict.ofItems ((existing env store).map fun m => (m.id, m))

/-- The failure modes of the workspace by slug. -/
def bySlugOf (store : Store) : Dict String FailureMode :=
  Dict.ofItems ((existing env store).map fun m => (m.slug, m))

/-- The mode id of an assignment that is not known. -/
def unknownModeId (byId : Dict String FailureMode) (a : Assignment) : Option String :=
  a.modeId.filter fun modeId => (byId.get? modeId).isNone

/-- The slug of an assignment that is neither proposed nor known. -/
def unknownSlug (result : AnalysisResult) (bySlug : Dict String FailureMode) (a : Assignment) :
    Option String :=
  a.newModeSlug.filter fun slug =>
    slug ∉ result.proposedModes.map (·.slug) ∧ (bySlug.get? slug).isNone

/-- The checks made before anything is written. -/
def checkReferences (result : AnalysisResult) (byId bySlug : Dict String FailureMode) :
    Except IngestError Unit :=
  match result.assignments.findSome? (unknownModeId byId) with
  | some modeId => .error (.unknownModeId modeId)
  | none =>
    match result.assignments.findSome? (unknownSlug result bySlug) with
    | some slug => .error (.unknownSlug slug)
    | none => .ok ()

/-- The record of a proposed mode, the `k`-th that is new. -/
def candidateMode (bySlug : Dict String FailureMode) (k : ℕ) (p : ProposedMode) : FailureMode where
  id := (env.newMode k).id
  workspaceId := env.workspaceId
  createdAt := (env.newMode k).createdAt
  updatedAt := (env.newMode k).updatedAt
  slug := p.slug
  title := p.title
  definition := p.definition
  status := .candidate
  parentModeId := (p.parentSlug.bind bySlug.get?).map (·.id)
  proposedBy := env.proposedBy

/-- A write to the table of modes. -/
def putMode (mode : FailureMode) : Scoped Store IngestError Unit :=
  tryWrite fun store =>
    match store.modes.put store.workspaces env.workspaceId mode with
    | .ok modes => .ok { store with modes }
    | .error e => .error e

/-- A round of `for p in result.proposed_modes`. -/
def proposeMode (bySlug : Dict String FailureMode) (acc : Progress) (p : ProposedMode) :
    Scoped Store IngestError Progress :=
  match bySlug.get? p.slug with
  | some known =>
    -- the existing mode is kept as it is
    pure { acc with
      summary := { acc.summary with
        updatedCandidates := acc.summary.updatedCandidates ++ [known.id] }
      slugToMode := acc.slugToMode.set p.slug known.id }
  | none => do
    let mode := candidateMode env bySlug acc.summary.createdCandidates.length p
    if mode.Valid then
      putMode env mode
      return {
        summary := { acc.summary with
          createdCandidates := acc.summary.createdCandidates ++ [mode.id] }
        slugToMode := acc.slugToMode.set p.slug mode.id
        byId := acc.byId.set mode.id mode }
    else raise (.invalidMode p.slug)

/-- The first result of the grader, with the mode added. -/
def extendGrader (grader modeId : String) : List GraderResult → Option (List GraderResult)
  | [] => none
  | gr :: grs =>
    if gr.grader = grader then
      if modeId ∈ gr.failureModes then some (gr :: grs)
      else some ({ gr with failureModes := gr.failureModes ++ [modeId] } :: grs)
    else (extendGrader grader modeId grs).map (gr :: ·)

/-- The first label that is not a pass. -/
def worstLabel (grs : List GraderResult) : String :=
  ((grs.find? fun gr => gr.label ∈ ["error", "fail", "partial"]).map (·.label)).getD "fail"

/-- `_stamp_mode_on_trace`. -/
def stampMode (trace : Trace) (modeId grader : String) : Trace :=
  { trace with graderResults :=
      match extendGrader grader modeId trace.graderResults with
      | some grs => grs
      | none => trace.graderResults ++
          [{ grader, label := worstLabel trace.graderResults, failureModes := [modeId] }] }

/-- `DEFAULT_INLINE_THRESHOLD_BYTES`. -/
def inlineThresholdBytes : ℕ := 4 * 1024

/-- `route_value` of a quote: the pointer and the hash. -/
def routeQuote (a : Assignment) : Except IngestError (Option String × Option String) :=
  match a.quote, env.objectStore with
  | some quote, some put =>
    if quote = "" then .ok (none, none)
    else if quote.toUTF8.size ≤ inlineThresholdBytes then
      .ok (none, some (env.bytesHash quote.toUTF8))
    else
      match put env.workspaceId ("fm_example:" ++ a.traceId) quote.toUTF8 with
      | .ok pointer => .ok (some pointer, some (env.bytesHash quote.toUTF8))
      | .error message => .error (.objectStore message)
  | _, _ => .ok (none, none)

/-- The id of the mode of an assignment. -/
def resolve (acc : Progress) (a : Assignment) : Option String :=
  a.modeId.orElse fun _ => a.newModeSlug.bind acc.slugToMode.get?

/-- `KeyError` where there is none. -/
def orMissing {α : Type} (value : Option α) : Scoped Store IngestError α :=
  match value with
  | some a => pure a
  | none => raise .missingKey

/-- A write to the table of traces. -/
def putTrace (trace : Trace) : Scoped Store IngestError Unit :=
  tryWrite fun store =>
    match store.traces.put env.workspaceId trace with
    | .ok traces => .ok { store with traces }
    | .error e => .error (.storage e)

/-- A round of `for a in result.assignments`. -/
def applyAssignment (acc : Progress) (a : Assignment) : Scoped Store IngestError Progress := do
  let resolvedId ← orMissing (resolve acc a)
  let trace ← tryQuery fun store =>
    (getTrace env.workspaceId a.traceId store.traces).mapError IngestError.storage
  putTrace env (stampMode trace resolvedId "error_analysis")
  let mode ← orMissing (acc.byId.get? resolvedId)
  let quote ← tryQuery fun _ => routeQuote env a
  let mode := { mode with
    examples := mode.examples ++
      [{ traceId := a.traceId, quotePointer := quote.1, quoteHash := quote.2, note := a.openNote }] }
  putMode env mode
  return { acc with
    byId := acc.byId.set resolvedId mode
    summary := { acc.summary with assignmentsApplied := acc.summary.assignmentsApplied + 1 } }

/-- The record of a hypothesis, the `k`-th. -/
def hypothesisRecord (k : ℕ) (h : Hypothesis) : HypothesisRecord where
  id := (env.newHypothesis k).id
  workspaceId := env.workspaceId
  createdAt := (env.newHypothesis k).createdAt
  updatedAt := (env.newHypothesis k).updatedAt
  experimentId := env.experimentId
  targetsModeSlug := h.targetsModeSlug
  statement := h.statement
  suggestedParameters := h.suggestedParameters

/-- A write to the table of hypotheses. -/
def putHypothesis (record : HypothesisRecord) : Scoped Store IngestError Unit :=
  tryWrite fun store =>
    match store.hypotheses.put env.workspaceId record with
    | .error e => .error (.storage e)
    | .ok hypotheses =>
      if env.workspaceId ∈ store.workspaces then .ok { store with hypotheses }
      else .error (.noWorkspace env.workspaceId)

/-- A round of `_record_hypotheses`. -/
def recordHypothesis (count : ℕ) (h : Hypothesis) : Scoped Store IngestError ℕ := do
  let record := hypothesisRecord env count h
  if record.Valid then
    putHypothesis env record
    return count + 1
  else raise .invalidHypothesis

/-- `ingest_result`. -/
def ingestResult (result : AnalysisResult) : Scoped Store IngestError IngestSummary := do
  if env.workspaceId = "" then
    raise .emptyWorkspaceId
  else
    let byId ← query (byIdOf env)
    let bySlug ← query (bySlugOf env)
    tryQuery fun _ => checkReferences result byId bySlug
    let acc ← result.proposedModes.foldlM (proposeMode env bySlug)
      ⟨{}, bySlug.mapValues (·.id), byId⟩
    let acc ← result.assignments.foldlM (applyAssignment env) acc
    let count ← result.hypotheses.foldlM (recordHypothesis env) 0
    return { acc.summary with hypothesesRecorded := count }

end Function

/-! ### The tables -/

section Lookup
variable {env : Env} {store : Store} {m : FailureMode}

theorem mem_existing : m ∈ existing env store ↔
    m ∈ store.modes.rows ∧ m.workspaceId = env.workspaceId := by
  simp [existing]

theorem get?_ofItems {f : FailureMode → String} {ms : List FailureMode} (hnodup : (ms.map f).Nodup)
    {key : String} : (Dict.ofItems (ms.map fun m => (f m, m))).get? key = some m ↔
      m ∈ ms ∧ f m = key := by
  have hkeys : ((ms.map fun m => (f m, m)).map Prod.fst).Nodup := by
    rw [List.map_map]
    exact hnodup
  rw [Dict.ofItems_items ⟨_, hkeys⟩, ← Dict.mem_items_iff, List.mem_map]
  constructor
  · rintro ⟨m', hm', heq⟩
    obtain ⟨rfl, rfl⟩ := Prod.mk.inj heq
    exact ⟨hm', rfl⟩
  · rintro ⟨hm, rfl⟩
    exact ⟨m, hm, rfl⟩

theorem get?_byIdOf (modeId : String) : (byIdOf env store).get? modeId =
    (store.modes.find? modeId).filter fun m => m.workspaceId = env.workspaceId := by
  have hnodup : ((existing env store).map (·.id)).Nodup :=
    store.modes.ids_nodup.sublist (List.filter_sublist.map _)
  refine Option.ext fun m => ?_
  unfold byIdOf
  rw [get?_ofItems hnodup, mem_existing, Option.filter_eq_some_iff, Table.find?_eq_some,
    decide_eq_true_eq]
  exact and_right_comm

theorem get?_bySlugOf {slug : String} : (bySlugOf env store).get? slug = some m ↔
    m ∈ store.modes.rows ∧ m.workspaceId = env.workspaceId ∧ m.slug = slug := by
  have hnodup : ((existing env store).map (·.slug)).Nodup := by
    refine List.Nodup.map_on ?_ (store.modes.ids_nodup.of_map _ |>.filter _)
    intro m hm m' hm' hslug
    obtain ⟨hrow, hws⟩ := mem_existing.mp hm
    obtain ⟨hrow', hws'⟩ := mem_existing.mp hm'
    exact List.inj_on_of_nodup_map store.modes.slugs_nodup hrow hrow' (by rw [hws, hws', hslug])
  unfold bySlugOf
  rw [get?_ofItems hnodup, mem_existing, and_assoc]

end Lookup

/-- Only the table of modes differs. -/
structure Store.OnlyModes (s s' : Store) : Prop where
  workspaces : s'.workspaces = s.workspaces
  traces : s'.traces = s.traces
  hypotheses : s'.hypotheses = s.hypotheses

section Put
variable {env : Env} {s : Store} {mode m : FailureMode}

theorem run_putMode : (putMode env mode).run s =
    match s.modes.put s.workspaces env.workspaceId mode with
    | .ok modes => (.ok (), { s with modes })
    | .error e => (.error e, s) := by
  simp only [putMode, tryWrite]
  cases s.modes.put s.workspaces env.workspaceId mode <;> rfl

theorem putMode_new (hws : mode.workspaceId = env.workspaceId)
    (hnew : s.modes.find? mode.id = none) (hregistered : env.workspaceId ∈ s.workspaces)
    (hslug : ∀ m ∈ s.modes.rows, m.workspaceId = env.workspaceId → m.slug ≠ mode.slug) :
    ∃ s', (putMode env mode).run s = (.ok (), s') ∧ s'.modes.rows = s.modes.rows ++ [mode] ∧
      s.OnlyModes s' := by
  obtain ⟨table, hput, hrows⟩ : ∃ table, s.modes.toTable.put env.workspaceId mode = .ok table ∧
      table.rows = s.modes.rows ++ [mode] := Table.put_of_new hnew hws
  have hnodup : (table.rows.map fun m => (m.workspaceId, m.slug)).Nodup := by
    rw [hrows, List.map_append]
    refine List.Nodup.append s.modes.slugs_nodup (List.nodup_singleton _) ?_
    intro key hkey hkey'
    obtain ⟨m, hm, rfl⟩ := List.mem_map.mp hkey
    obtain ⟨hws', hslug'⟩ := Prod.mk.inj (List.mem_singleton.mp hkey')
    exact hslug m hm (hws'.trans hws) hslug'
  refine ⟨{ s with modes := { table with slugs_nodup := hnodup } }, ?_, hrows, rfl, rfl, rfl⟩
  rw [run_putMode]
  unfold Modes.put
  rw [hput]
  simp [hregistered, hnodup]

theorem putMode_refused (hws : mode.workspaceId = env.workspaceId)
    (hnew : s.modes.find? mode.id = none)
    (h : env.workspaceId ∉ s.workspaces ∨
      ∃ m ∈ s.modes.rows, m.workspaceId = env.workspaceId ∧ m.slug = mode.slug) :
    ∃ e, (putMode env mode).run s = (.error e, s) := by
  obtain ⟨table, hput, hrows⟩ : ∃ table, s.modes.toTable.put env.workspaceId mode = .ok table ∧
      table.rows = s.modes.rows ++ [mode] := Table.put_of_new hnew hws
  rw [run_putMode]
  unfold Modes.put
  rw [hput]
  by_cases hregistered : env.workspaceId ∈ s.workspaces
  · obtain ⟨m, hm, hws', hslug⟩ := h.resolve_left (not_not.mpr hregistered)
    have hnodup : ¬ (table.rows.map fun m => (m.workspaceId, m.slug)).Nodup := by
      intro hnodup
      rw [hrows, List.map_append] at hnodup
      have hdisjoint := (List.nodup_append'.mp hnodup).2.2
      exact hdisjoint (List.mem_map_of_mem hm) (by simp [hws, hws', hslug])
    simp [hregistered, hnodup]
  · simp [hregistered, hnew]

theorem putMode_over (hm : m ∈ s.modes.rows) (hws : m.workspaceId = env.workspaceId)
    (hbase : mode.toBaseEntity = m.toBaseEntity) (hslug : mode.slug = m.slug) :
    ∃ s', (putMode env mode).run s = (.ok (), s') ∧
      s'.modes.rows = s.modes.rows.map (fun r => if r.id = m.id then mode else r) ∧
      s.OnlyModes s' := by
  have hcreated : Entity.withCreatedAt mode (Entity.base m).createdAt = mode := by
    have : (Entity.base m).createdAt = mode.createdAt := by rw [hbase]; rfl
    rw [this]
    rfl
  obtain ⟨table, hput, hrows⟩ : ∃ table, s.modes.toTable.put env.workspaceId mode = .ok table ∧
      table.rows = s.modes.rows.map fun r => if r.id = m.id then mode else r :=
    Table.put_over hm hbase hws hcreated
  have hkeys : table.rows.map (fun m => (m.workspaceId, m.slug)) =
      s.modes.rows.map (fun m => (m.workspaceId, m.slug)) := by
    rw [hrows, List.map_map]
    refine List.map_congr_left fun r hr => ?_
    show ((if r.id = m.id then mode else r).workspaceId, (if r.id = m.id then mode else r).slug) = _
    split_ifs with hid
    · obtain rfl := List.inj_on_of_nodup_map s.modes.ids_nodup hr hm hid
      rw [hbase, hslug]
    · rfl
  have hnodup : (table.rows.map fun m => (m.workspaceId, m.slug)).Nodup := by
    rw [hkeys]
    exact s.modes.slugs_nodup
  have hfind : s.modes.find? mode.id = some m := by
    rw [hbase]
    exact Table.mem_rows_iff.mp hm
  refine ⟨{ s with modes := { table with slugs_nodup := hnodup } }, ?_, hrows, rfl, rfl, rfl⟩
  rw [run_putMode]
  unfold Modes.put
  rw [hput]
  simp [hfind, hnodup]

end Put

end Selfevals.Analysis.Ingest
