import Selfevals.Analysis.Ingest

/-!
# Handing out the failures of an experiment

A bundle has the failed traces of an experiment, each with what its graders said and the
conversation, and the failure modes of the workspace that are not retired. It is read, never
written.

* `mem_traces`, `mem_taxonomy`: what is in a bundle.
* `mem_deterministicModes`, `severity_le_worst`: what the grade of a trace says.
-/

namespace Selfevals.Analysis.Bundle

open Lib.JsonValue Lib.Mapping Schemas.Base Schemas.Enums Schemas.Experiments Schemas.FailureModes
  Schemas.TraceRecords Storage Storage.Entity Storage.Tables Analysis.Ingest
open Entity (base)

/-! ### What is handed out -/

/-- A failure mode to classify against. -/
structure TaxonomyEntry where
  id : String
  slug : String
  title : String
  definition : String
  status : String
deriving DecidableEq, Repr

/-- The worst grade of a trace, with its reasons. -/
structure BundleGrade where
  label : String
  score : Option ℚ := none
  deterministicModes : List String := []
  judgeReason : Option String := none
deriving DecidableEq, Repr

/-- A message of a transcript. -/
structure BundleMessage where
  role : String
  content : String
deriving DecidableEq, Repr

structure BundleErrorSpan where
  kind : String
  name : String
  error : Option String := none
deriving DecidableEq, Repr

/-- A trace as it is shown to the analyst. -/
structure BundleTrace where
  traceId : String
  runId : String
  threadId : Option String := none
  evalCaseId : Option String := none
  grade : BundleGrade
  transcript : List BundleMessage := []
  firstErrorSpan : Option BundleErrorSpan := none
deriving DecidableEq, Repr

/-- `ANALYSIS_SCHEMA_VERSION`. -/
def analysisSchemaVersion : String := "1.0.0"

/-- What is handed to the analyst. -/
structure AnalysisBundle where
  schemaVersion : String := analysisSchemaVersion
  workspaceId : String
  experimentId : String
  iteration : Option ℤ := none
  taxonomy : List TaxonomyEntry := []
  traces : List BundleTrace := []
  instructionsRef : String := "skill://error-analysis"
deriving DecidableEq, Repr

/-! ### A trace -/

section Function
variable (pyStr : Json → String)

/-- `BundleMessage(role=str(msg["role"]), content=str(msg["content"]))`, where both are there. -/
def bundleMessage (msg : Json) : Option BundleMessage :=
  match msg.get? "role", msg.get? "content" with
  | some role, some content => some ⟨pyStr role, pyStr content⟩
  | _, _ => none

/-- The messages of a model call. -/
def spanMessages (span : LLMCallSpan) : List BundleMessage :=
  ["selfevals.messages_in", "selfevals.messages_out"].flatMap fun key =>
    match dictGet span.providerMetadata key with
    | .arr raw => raw.filterMap (bundleMessage pyStr)
    | _ => []

/-- `_transcript`. -/
def transcript (trace : Trace) : List BundleMessage :=
  trace.spans.flatMap fun
    | .llmCall span => spanMessages pyStr span
    | _ => []

/-- The failure that a span is. -/
def errorOf (span : Span) : Option BundleErrorSpan :=
  match span with
  | .error e => some ⟨Coded.value span.kind, e.name, some e.message⟩
  | .toolCall call =>
    (call.error.filter (· ≠ "")).map fun e => ⟨Coded.value span.kind, call.name, some e⟩
  | _ => none

/-- The first span that is an error. -/
def firstErrorSpan (trace : Trace) : Option BundleErrorSpan := trace.spans.findSome? errorOf

/-- `severity.get(label, 0)`. -/
def severity (label : String) : ℕ :=
  match label with
  | "error" => 4
  | "fail" => 3
  | "partial" => 2
  | "skipped" => 1
  | _ => 0

/-- The label and the score after one more result; of two as bad the later. -/
def worse (acc : String × Option ℚ) (gr : GraderResult) : String × Option ℚ :=
  if severity gr.label ≥ severity acc.1 then (gr.label, gr.score) else acc

/-- The worst label of the graders, with its score. -/
def worst (grs : List GraderResult) : String × Option ℚ := grs.foldl worse ("pass", none)

/-- The worst grade of a trace, with its reasons. -/
def grade (trace : Trace) : BundleGrade where
  label := (worst trace.graderResults).1
  score := (worst trace.graderResults).2
  deterministicModes := firstSeen (trace.graderResults.flatMap (·.failureModes))
  judgeReason := trace.graderResults.findSome? fun gr => gr.reasonPointer.filter (· ≠ "")

/-- `_FAILED_LABELS`. -/
def failedLabels : List String := ["fail", "error", "partial"]

/-- A trace is failed by its grade or by its final state. -/
def isFailed (trace : Trace) : Bool :=
  trace.finalState.status ≠ .completed || trace.graderResults.any fun gr => gr.label ∈ failedLabels

/-- What of a trace is bundled. -/
def bundleTrace (trace : Trace) : BundleTrace where
  traceId := trace.id
  runId := trace.run.runId
  threadId := trace.run.threadId
  evalCaseId := trace.run.evalCaseId
  grade := grade trace
  transcript := transcript pyStr trace
  firstErrorSpan := firstErrorSpan trace

/-- A failure mode as the analyst sees it. -/
def taxonomyEntry (m : FailureMode) : TaxonomyEntry :=
  ⟨m.id, m.slug, m.title, m.definition, Coded.value m.status⟩

/-! ### A bundle -/

/-- The arguments of `build_bundle`. -/
structure Pull where
  workspaceId : String
  experimentId : String
  iteration : Option ℤ := none
  onlyFailed : Bool := true

/-- The traces of the workspace that `trace_filter` matches. -/
def Pull.wanted (pull : Pull) (trace : Trace) : Bool :=
  trace.workspaceId = pull.workspaceId ∧ trace.run.experimentId = some pull.experimentId ∧
    ∀ i ∈ pull.iteration, trace.run.iteration.map Int.ofNat = some i

/-- What `build_bundle` raises. -/
inductive BundleError
  /-- `ValueError`, of `storage.open`. -/
  | emptyWorkspaceId
  /-- `ValidationError`, of the bundle. -/
  | emptyExperimentId
deriving DecidableEq, Repr

/-- `build_bundle`, over what the two listings return. -/
def buildBundle (pull : Pull) (traces : List Trace) (modes : List FailureMode) :
    Except BundleError AnalysisBundle :=
  if pull.workspaceId = "" then .error .emptyWorkspaceId
  else if pull.experimentId = "" then .error .emptyExperimentId
  else .ok {
    workspaceId := pull.workspaceId
    experimentId := pull.experimentId
    iteration := pull.iteration
    taxonomy := (modes.filter fun m => Coded.value m.status ≠ "retired").map taxonomyEntry
    traces := (traces.filter fun t => !pull.onlyFailed || isFailed t).map (bundleTrace pyStr) }

/-- What `scope.list_entities` may return: the rows that are wanted, `ORDER BY created_at DESC`. -/
def IsListing {α : Type} [Entity α] (table : Table α) (wanted : α → Bool) (listed : List α) :
    Prop :=
  listed.Perm (table.rows.filter wanted) ∧
    listed.Pairwise fun r r' => (base r').createdAt ≤ (base r).createdAt

/-- A bundle that may be handed out over a store. -/
def Pulled (pull : Pull) (s : Store) (bundle : AnalysisBundle) : Prop :=
  ∃ traces modes, IsListing s.traces pull.wanted traces ∧
    IsListing s.modes.toTable (fun m => m.workspaceId = pull.workspaceId) modes ∧
    buildBundle pyStr pull traces modes = .ok bundle

end Function

/-! ### What is in it -/

section Contents
variable {pyStr : Json → String} {pull : Pull} {s : Store} {bundle : AnalysisBundle}

/-- The traces that are handed out. -/
def Pull.hands (pull : Pull) (trace : Trace) : Bool :=
  pull.wanted trace && (!pull.onlyFailed || isFailed trace)

/-- The modes that are handed out. -/
def Pull.lists (pull : Pull) (m : FailureMode) : Bool :=
  m.workspaceId = pull.workspaceId ∧ m.status ≠ .retired

theorem value_ne_retired (status : FailureModeStatus) :
    Coded.value status ≠ "retired" ↔ status ≠ .retired := by
  cases status <;> decide

theorem pulled_spec (h : Pulled pyStr pull s bundle) :
    NonEmpty pull.workspaceId ∧ NonEmpty pull.experimentId ∧
      bundle.traces.Perm ((s.traces.rows.filter pull.hands).map (bundleTrace pyStr)) ∧
      bundle.taxonomy.Perm ((s.modes.rows.filter pull.lists).map taxonomyEntry) := by
  obtain ⟨traces, modes, ⟨htraces, -⟩, ⟨hmodes, -⟩, hbuild⟩ := h
  unfold buildBundle at hbuild
  split_ifs at hbuild with hws hexperiment
  cases hbuild
  refine ⟨hws, hexperiment, ?_, ?_⟩
  · have hperm := (htraces.filter fun t => !pull.onlyFailed || isFailed t).map (bundleTrace pyStr)
    rw [List.filter_filter] at hperm
    refine hperm.trans (List.Perm.of_eq (congrArg _ (List.filter_congr fun t _ => ?_)))
    rw [Pull.hands, Bool.and_comm]
  · have hperm := (hmodes.filter fun m => Coded.value m.status ≠ "retired").map taxonomyEntry
    rw [List.filter_filter] at hperm
    refine hperm.trans (List.Perm.of_eq (congrArg _ (List.filter_congr fun m _ => ?_)))
    rw [Pull.lists, Bool.decide_and, Bool.and_comm]
    simp only [value_ne_retired]

theorem mem_traces (h : Pulled pyStr pull s bundle) {t : BundleTrace} :
    t ∈ bundle.traces ↔
      ∃ trace ∈ s.traces.rows, pull.hands trace = true ∧ bundleTrace pyStr trace = t := by
  rw [(pulled_spec h).2.2.1.mem_iff, List.mem_map]
  simp only [List.mem_filter, and_assoc]

theorem mem_taxonomy (h : Pulled pyStr pull s bundle) {e : TaxonomyEntry} :
    e ∈ bundle.taxonomy ↔
      ∃ m ∈ s.modes.rows, pull.lists m = true ∧ taxonomyEntry m = e := by
  rw [(pulled_spec h).2.2.2.mem_iff, List.mem_map]
  simp only [List.mem_filter, and_assoc]

theorem exists_isListing {α : Type} [Entity α] (table : Table α) (wanted : α → Bool) :
    ∃ listed, IsListing table wanted listed := by
  refine ⟨(table.rows.filter wanted).mergeSort fun r r' => (base r').createdAt ≤ (base r).createdAt,
    List.mergeSort_perm _ _, ?_⟩
  refine (List.pairwise_mergeSort ?_ ?_ _).imp of_decide_eq_true
  · intro r r' r'' h h'
    exact decide_eq_true ((of_decide_eq_true h').trans (of_decide_eq_true h))
  · intro r r'
    rw [Bool.or_eq_true, decide_eq_true_iff, decide_eq_true_iff]
    exact le_total _ _

theorem exists_pulled (pyStr : Json → String) (pull : Pull) (hws : NonEmpty pull.workspaceId)
    (hexperiment : NonEmpty pull.experimentId) (s : Store) :
    ∃ bundle, Pulled pyStr pull s bundle := by
  obtain ⟨traces, htraces⟩ := exists_isListing s.traces pull.wanted
  obtain ⟨modes, hmodes⟩ :=
    exists_isListing s.modes.toTable fun m => m.workspaceId = pull.workspaceId
  obtain ⟨bundle, hbuild⟩ : ∃ bundle, buildBundle pyStr pull traces modes = .ok bundle := by
    unfold buildBundle
    rw [if_neg hws, if_neg hexperiment]
    exact ⟨_, rfl⟩
  exact ⟨bundle, traces, modes, htraces, hmodes, hbuild⟩

end Contents

/-! ### A grade -/

section Grade
variable {trace : Trace} {grs : List GraderResult}

theorem mem_deterministicModes {modeId : String} : modeId ∈ (grade trace).deterministicModes ↔
    ∃ gr ∈ trace.graderResults, modeId ∈ gr.failureModes := by
  show modeId ∈ firstSeen _ ↔ _
  rw [mem_firstSeen, List.mem_flatMap]

theorem worst_concat (gr : GraderResult) : worst (grs ++ [gr]) = worse (worst grs) gr := by
  rw [worst, List.foldl_append]
  rfl

theorem severity_le_worse (acc : String × Option ℚ) (gr : GraderResult) :
    severity acc.1 ≤ severity (worse acc gr).1 ∧ severity gr.label ≤ severity (worse acc gr).1 := by
  unfold worse
  split_ifs with h
  · exact ⟨h, le_rfl⟩
  · exact ⟨le_rfl, (not_le.mp h).le⟩

/-- **No result is worse** than the label of the grade. -/
theorem severity_le_worst {gr : GraderResult} (h : gr ∈ grs) :
    severity gr.label ≤ severity (worst grs).1 := by
  induction grs using List.reverseRecOn with
  | nil => exact absurd h (by simp)
  | append_singleton grs last ih =>
    obtain ⟨hkept, hlast⟩ := severity_le_worse (worst grs) last
    rw [worst_concat]
    rcases List.mem_append.mp h with h | h
    · exact (ih h).trans hkept
    · rw [List.mem_singleton.mp h]
      exact hlast

theorem worst_mem (grs : List GraderResult) :
    (worst grs).1 = "pass" ∨ ∃ gr ∈ grs, gr.label = (worst grs).1 := by
  induction grs using List.reverseRecOn with
  | nil => exact .inl rfl
  | append_singleton grs last ih =>
    rw [worst_concat]
    unfold worse
    split_ifs with h
    · exact .inr ⟨last, by simp, rfl⟩
    · rcases ih with ih | ⟨gr, hgr, ih⟩
      · exact .inl ih
      · exact .inr ⟨gr, List.mem_append_left _ hgr, ih⟩

theorem eq_of_severity {label label' : String} (h : label ∈ failedLabels)
    (hsame : severity label' = severity label) : label' = label := by
  simp only [failedLabels, List.mem_cons, List.not_mem_nil, or_false] at h
  unfold severity at hsame
  rcases h with rfl | rfl | rfl <;> split at hsame <;> simp_all

end Grade

end Selfevals.Analysis.Bundle
