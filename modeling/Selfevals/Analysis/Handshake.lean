import Selfevals.Analysis.Bundle
import Selfevals.Analysis.IngestLaws
import Selfevals.Lib.Run

/-!
# Pull, push, pull

An agent pulls the failures of an experiment, codes them and pushes what it found, while others may
push before it does. A push stamps traces and adds modes; it renames no mode, takes none away and
lets no trace out of sight, also where it stops halfway.
-/

namespace Selfevals.Analysis.Handshake

open Lib.Effects Lib.JsonValue Lib.Mapping Lib.Run Schemas.Base Schemas.Enums Schemas.Experiments
  Schemas.FailureModes Schemas.TraceRecords Storage Storage.Entity Storage.Tables Analysis.Ingest
  Analysis.IngestPhases Analysis.IngestLaws Analysis.Bundle

/-! ### Stamps -/

/-- The grader under whose name an analysis stamps a trace. -/
def analysisGrader : String := "error_analysis"

/-- A trace after some stamps. -/
def stampAll (trace : Trace) (modeIds : List String) : Trace :=
  modeIds.foldl (fun t modeId => stampMode t modeId analysisGrader) trace

/-- The trace names the mode. -/
def Names (trace : Trace) (modeId : String) : Prop :=
  ∃ gr ∈ trace.graderResults, modeId ∈ gr.failureModes

/-- What a stamp leaves alone of a result. -/
def verdict (gr : GraderResult) : String × Option ℚ × Option String :=
  (gr.label, gr.score, gr.reasonPointer)

section Stamp
variable {trace : Trace} {grader modeId : String} {grs grs' : List GraderResult}

theorem stampAll_append (ids ids' : List String) :
    stampAll trace (ids ++ ids') = stampAll (stampAll trace ids) ids' := List.foldl_append ..

theorem extendGrader_split (h : extendGrader grader modeId grs = some grs') :
    ∃ pre gr gr' post, grs = pre ++ gr :: post ∧ grs' = pre ++ gr' :: post ∧
      verdict gr' = verdict gr ∧
      ∀ m, m ∈ gr'.failureModes ↔ m ∈ gr.failureModes ∨ m = modeId := by
  induction grs generalizing grs' with
  | nil => exact absurd h nofun
  | cons gr grs ih =>
    unfold extendGrader at h
    split_ifs at h with hgrader hmem
    · cases h
      refine ⟨[], gr, gr, grs, rfl, rfl, rfl, fun m => ⟨.inl, ?_⟩⟩
      rintro (hm | rfl)
      · exact hm
      · exact hmem
    · cases h
      exact ⟨[], gr, _, grs, rfl, rfl, rfl, fun m => by simp⟩
    · obtain ⟨rest, hrest, rfl⟩ := Option.map_eq_some_iff.mp h
      obtain ⟨pre, g, g', post, rfl, rfl, hverdict, hmodes⟩ := ih hrest
      exact ⟨gr :: pre, g, g', post, rfl, rfl, hverdict, hmodes⟩

theorem stampMode_cases (trace : Trace) (modeId grader : String) :
    (∃ pre gr gr' post, trace.graderResults = pre ++ gr :: post ∧
      (stampMode trace modeId grader).graderResults = pre ++ gr' :: post ∧
      verdict gr' = verdict gr ∧
      ∀ m, m ∈ gr'.failureModes ↔ m ∈ gr.failureModes ∨ m = modeId) ∨
    (stampMode trace modeId grader).graderResults = trace.graderResults ++
      [{ grader, label := worstLabel trace.graderResults, failureModes := [modeId] }] := by
  unfold stampMode
  cases h : extendGrader grader modeId trace.graderResults with
  | some grs => exact .inl (extendGrader_split h)
  | none => exact .inr rfl

theorem names_stampMode (m : String) :
    Names (stampMode trace modeId grader) m ↔ Names trace m ∨ m = modeId := by
  unfold Names
  rcases stampMode_cases trace modeId grader with
    ⟨pre, gr, gr', post, hgrs, hstamped, -, hmodes⟩ | hstamped
  · rw [hgrs, hstamped]
    simp only [List.mem_append, List.mem_cons, or_and_right, exists_or, exists_eq_left, hmodes]
    rw [or_assoc, or_assoc, or_assoc, or_comm (b := m = modeId)]
  · rw [hstamped]
    simp [or_and_right, exists_or]

theorem names_stampAll (modeIds : List String) (m : String) :
    Names (stampAll trace modeIds) m ↔ Names trace m ∨ m ∈ modeIds := by
  induction modeIds generalizing trace with
  | nil => simp [stampAll]
  | cons modeId modeIds ih =>
    show Names (stampAll (stampMode trace modeId analysisGrader) modeIds) m ↔ _
    rw [ih, names_stampMode, List.mem_cons, or_assoc]

theorem stampAll_same (trace : Trace) (modeIds : List String) :
    ∃ grs, stampAll trace modeIds = { trace with graderResults := grs } := by
  induction modeIds generalizing trace with
  | nil => exact ⟨trace.graderResults, rfl⟩
  | cons modeId modeIds ih =>
    obtain ⟨grs, h⟩ := ih (stampMode trace modeId analysisGrader)
    exact ⟨grs, h⟩

@[simp] theorem base_stampAll (modeIds : List String) :
    (stampAll trace modeIds).toBaseEntity = trace.toBaseEntity := by
  obtain ⟨grs, h⟩ := stampAll_same trace modeIds
  rw [h]

theorem worst_congr (h : grs'.map verdict = grs.map verdict) : worst grs' = worst grs := by
  have hfold : ∀ gs : List GraderResult, worst gs =
      (gs.map verdict).foldl (fun acc v => if severity v.1 ≥ severity acc.1 then (v.1, v.2.1)
        else acc) ("pass", none) := fun gs => by
    rw [List.foldl_map]
    rfl
  rw [hfold, hfold, h]

theorem severity_worstLabel_le (h : (worst grs).1 ∈ failedLabels) :
    severity (worstLabel grs) ≤ severity (worst grs).1 := by
  have hsome : (grs.find? fun gr => gr.label ∈ ["error", "fail", "partial"]).isSome := by
    rcases worst_mem grs with hpass | ⟨gr, hgr, hlabel⟩
    · rw [hpass] at h
      exact absurd h (by decide)
    · rw [List.find?_isSome]
      refine ⟨gr, hgr, ?_⟩
      rw [← hlabel] at h
      simp only [failedLabels, List.mem_cons, List.not_mem_nil, or_false] at h
      simp only [List.mem_cons, List.not_mem_nil, or_false, decide_eq_true_eq]
      tauto
  obtain ⟨gr, hfind⟩ := Option.isSome_iff_exists.mp hsome
  have hworst : worstLabel grs = gr.label := by
    unfold worstLabel
    rw [hfind]
    rfl
  rw [hworst]
  exact severity_le_worst (List.mem_of_find?_eq_some hfind)

theorem grade_stampMode (trace : Trace) (modeId grader : String) :
    ((grade trace).label ∈ failedLabels →
      (grade (stampMode trace modeId grader)).label = (grade trace).label) ∧
    (grade (stampMode trace modeId grader)).judgeReason = (grade trace).judgeReason := by
  show ((worst _).1 ∈ _ → (worst _).1 = (worst _).1) ∧ List.findSome? _ _ = List.findSome? _ _
  rcases stampMode_cases trace modeId grader with
    ⟨pre, gr, gr', post, hgrs, hstamped, hverdict, -⟩ | hstamped
  · have hsame : (pre ++ gr' :: post).map verdict = (pre ++ gr :: post).map verdict := by
      rw [List.map_append, List.map_append, List.map_cons, List.map_cons, hverdict]
    have hreason : gr'.reasonPointer = gr.reasonPointer := congrArg (·.2.2) hverdict
    rw [hgrs, hstamped]
    refine ⟨fun _ => by rw [worst_congr hsame], ?_⟩
    rw [List.findSome?_append, List.findSome?_append, List.findSome?_cons, List.findSome?_cons,
      hreason]
  · rw [hstamped]
    refine ⟨fun hfailed => ?_, ?_⟩
    · have hle := severity_worstLabel_le hfailed
      rw [worst_concat]
      unfold worse
      split_ifs with hge
      · exact eq_of_severity hfailed (le_antisymm hle hge)
      · rfl
    · rw [List.findSome?_append]
      cases trace.graderResults.findSome? fun gr => gr.reasonPointer.filter (· ≠ "") <;> rfl

theorem grade_stampAll (trace : Trace) (modeIds : List String) :
    ((grade trace).label ∈ failedLabels →
      (grade (stampAll trace modeIds)).label = (grade trace).label) ∧
    (grade (stampAll trace modeIds)).judgeReason = (grade trace).judgeReason := by
  induction modeIds generalizing trace with
  | nil => exact ⟨fun _ => rfl, rfl⟩
  | cons modeId modeIds ih =>
    obtain ⟨hlabel, hreason⟩ := grade_stampMode trace modeId analysisGrader
    obtain ⟨hlabels, hreasons⟩ := ih (stampMode trace modeId analysisGrader)
    refine ⟨fun hfailed => ?_, hreasons.trans hreason⟩
    exact (hlabels (hlabel hfailed ▸ hfailed)).trans (hlabel hfailed)

theorem isFailed_stampAll (modeIds : List String) (h : isFailed trace = true) :
    isFailed (stampAll trace modeIds) = true := by
  induction modeIds generalizing trace with
  | nil => exact h
  | cons modeId modeIds ih =>
    refine ih ?_
    unfold isFailed at h ⊢
    rw [Bool.or_eq_true] at h ⊢
    refine h.imp id fun hany => ?_
    rcases stampMode_cases trace modeId analysisGrader with
      ⟨pre, gr, gr', post, hgrs, hstamped, hverdict, -⟩ | hstamped
    · have hlabel : gr'.label = gr.label := congrArg (·.1) hverdict
      rw [hgrs, List.any_append, List.any_cons] at hany
      rwa [hstamped, List.any_append, List.any_cons, hlabel]
    · rw [hstamped, List.any_append, hany, Bool.true_or]

end Stamp

/-! ### What a run of pushes does -/

/-- An answer that is pushed. -/
structure Push where
  env : Env
  result : AnalysisResult

/-- A push, and what it leaves. -/
def step (s : Store) (push : Push) : Option Store :=
  some ((ingestResult push.env push.result).run s).2

/-- Some push assigns the trace. -/
def Assigns (pushes : List Push) (workspaceId traceId modeId : String) : Prop :=
  ∃ push ∈ pushes, push.env.workspaceId = workspaceId ∧
    ∃ a ∈ push.result.assignments, a.traceId = traceId ∧ ∀ id ∈ a.modeId, id = modeId

/-- Some push proposes the mode. -/
def Proposes (pushes : List Push) (m : FailureMode) : Prop :=
  m.status = .candidate ∧ ∃ push ∈ pushes, m.workspaceId = push.env.workspaceId ∧
    ∃ p ∈ push.result.proposedModes, m.slug = p.slug ∧ m.title = p.title ∧
      m.definition = p.definition

/-- The traces are as they were but for stamps, and stamps are put where something was assigned. -/
structure Stamps (assigns : String → String → String → Prop) (s s' : Store) : Prop where
  workspaces : s'.workspaces = s.workspaces
  traces : ∃ marks : String → List String,
    s'.traces.rows = s.traces.rows.map (fun t => stampAll t (marks t.id)) ∧
    ∀ t ∈ s.traces.rows, ∀ modeId ∈ marks t.id, assigns t.workspaceId t.id modeId

/-- A store after some pushes. -/
structure Later (pushes : List Push) (s s' : Store) : Prop where
  stamps : Stamps (Assigns pushes) s s'
  modes : ∃ added, s'.modes.rows.map bare = s.modes.rows.map bare ++ added ∧
    ∀ m ∈ added, Proposes pushes m

section Stamps
variable {assigns : String → String → String → Prop} {s t u : Store}

theorem stamps_of_eq (hws : t.workspaces = s.workspaces) (h : t.traces = s.traces) :
    Stamps assigns s t :=
  ⟨hws, fun _ => [], by rw [h]; exact (List.map_id _).symm, fun _ _ _ h => absurd h (by simp)⟩

theorem stamps_trans (h : Stamps assigns s t) (h' : Stamps assigns t u) : Stamps assigns s u := by
  obtain ⟨hws, marks, hrows, hassigned⟩ := h
  obtain ⟨hws', marks', hrows', hassigned'⟩ := h'
  have hid : ∀ r : Trace, ∀ ids, (stampAll r ids).id = r.id := fun r ids =>
    congrArg (·.id) (base_stampAll ids)
  refine ⟨hws'.trans hws, fun id => marks id ++ marks' id, ?_, fun r hr modeId hm => ?_⟩
  · rw [hrows', hrows, List.map_map]
    refine List.map_congr_left fun r _ => ?_
    show stampAll (stampAll r (marks r.id)) (marks' (stampAll r (marks r.id)).id) = _
    rw [hid, stampAll_append]
  · rcases List.mem_append.mp hm with hm | hm
    · exact hassigned r hr modeId hm
    · have hmem : stampAll r (marks r.id) ∈ t.traces.rows := by
        rw [hrows]
        exact List.mem_map_of_mem hr
      have hold := hassigned' _ hmem modeId (by rwa [hid])
      have hws : (stampAll r (marks r.id)).workspaceId = r.workspaceId :=
        congrArg (·.workspaceId) (base_stampAll _)
      rwa [hid, hws] at hold

theorem Stamps.mono {assigns' : String → String → String → Prop} (h : Stamps assigns s t)
    (hle : ∀ ws id modeId, assigns ws id modeId → assigns' ws id modeId) : Stamps assigns' s t := by
  obtain ⟨hws, marks, hrows, hassigned⟩ := h
  exact ⟨hws, marks, hrows, fun r hr modeId hm => hle _ _ _ (hassigned r hr modeId hm)⟩

theorem Stamps.names (h : Stamps assigns s t) {r : Trace} (hr : r ∈ s.traces.rows) :
    ∃ r' ∈ t.traces.rows, r'.toBaseEntity = r.toBaseEntity ∧ ∀ m, Names r m → Names r' m := by
  obtain ⟨-, marks, hrows, -⟩ := h
  refine ⟨stampAll r (marks r.id), ?_, base_stampAll _, fun m hm => ?_⟩
  · rw [hrows]
    exact List.mem_map_of_mem hr
  · exact (names_stampAll _ m).mpr (.inl hm)

end Stamps

/-! ### One push -/

section Push
variable {env : Env} {result : AnalysisResult} {assigns : String → String → String → Prop}

theorem getTrace_of_mapError {workspaceId traceId : String} {traces : Table Trace} {trace : Trace}
    (h : (getTrace workspaceId traceId traces).mapError IngestError.storage = .ok trace) :
    trace ∈ traces.rows ∧ trace.id = traceId ∧ trace.workspaceId = workspaceId := by
  refine getTrace_eq_ok.mp ?_
  cases hget : getTrace workspaceId traceId traces with
  | error e =>
    rw [hget] at h
    exact absurd h nofun
  | ok found =>
    rw [hget] at h
    exact congrArg Except.ok (Except.ok.inj h)

theorem snd_orMissing {α : Type} (value : Option α) (s : Store) :
    ((orMissing value).run s).2 = s := by
  cases value <;> rfl

theorem orMissing_some_bind {α β : Type} (a : α) (f : α → Scoped Store IngestError β) :
    (orMissing (some a) >>= f) = f a := rfl

theorem run_orMissing_eq_ok {α : Type} {value : Option α} {a : α} {s s' : Store} :
    (orMissing value).run s = (.ok a, s') ↔ value = some a ∧ s' = s := by
  cases value with
  | none => exact ⟨nofun, nofun⟩
  | some b =>
    constructor
    · intro h
      cases h
      exact ⟨rfl, rfl⟩
    · rintro ⟨h, rfl⟩
      cases h
      rfl

theorem putMode_same (mode : FailureMode) (s : Store) :
    ((putMode env mode).run s).2.workspaces = s.workspaces ∧
      ((putMode env mode).run s).2.traces = s.traces := by
  rw [run_putMode]
  cases s.modes.put s.workspaces env.workspaceId mode <;> exact ⟨rfl, rfl⟩

theorem stamps_putMode (mode : FailureMode) (s : Store) :
    Stamps assigns s ((putMode env mode).run s).2 :=
  stamps_of_eq (putMode_same mode s).1 (putMode_same mode s).2

theorem stamps_proposeMode (bySlug : Dict String FailureMode) (acc : Progress) (p : ProposedMode)
    (s : Store) : Stamps assigns s ((proposeMode env bySlug acc p).run s).2 := by
  unfold proposeMode
  cases bySlug.get? p.slug with
  | some known => exact stamps_of_eq rfl rfl
  | none =>
    dsimp only
    split
    · exact rel_bind (R := Stamps _) (fun _ _ _ => stamps_trans) (stamps_putMode _ _)
        fun _ _ _ => stamps_of_eq rfl rfl
    · exact stamps_of_eq rfl rfl

theorem stamps_recordHypothesis (count : ℕ) (h : Hypothesis) (s : Store) :
    Stamps assigns s ((recordHypothesis env count h).run s).2 := by
  unfold recordHypothesis
  dsimp only
  split
  · refine rel_bind (R := Stamps _) (fun _ _ _ => stamps_trans) ?_ fun _ _ _ => stamps_of_eq rfl rfl
    unfold putHypothesis tryWrite
    dsimp only
    cases s.hypotheses.put env.workspaceId (hypothesisRecord env count h) with
    | error e => exact stamps_of_eq rfl rfl
    | ok hypotheses =>
      dsimp only
      split_ifs <;> exact stamps_of_eq rfl rfl
  · exact stamps_of_eq rfl rfl

theorem stamps_putTrace {s : Store} {trace : Trace} {modeId : String}
    (htrace : trace ∈ s.traces.rows) (hws : trace.workspaceId = env.workspaceId)
    (hassigns : assigns env.workspaceId trace.id modeId) :
    ∃ traces, (putTrace env (stampMode trace modeId analysisGrader)).run s =
        (.ok (), { s with traces }) ∧
      stampMode trace modeId analysisGrader ∈ traces.rows ∧
      Stamps assigns s { s with traces } := by
  obtain ⟨traces, hrun, hrows⟩ := putTrace_run htrace hws modeId
  refine ⟨traces, hrun, ?_, rfl, fun id => if id = trace.id then [modeId] else [], ?_, ?_⟩
  · rw [hrows, List.mem_map]
    exact ⟨trace, htrace, if_pos rfl⟩
  · show traces.rows = _
    rw [hrows]
    refine List.map_congr_left fun r hr => ?_
    dsimp only
    split_ifs with hid
    · obtain rfl := List.inj_on_of_nodup_map s.traces.ids_nodup hr htrace hid
      rfl
    · rfl
  · intro r hr m hm
    dsimp only at hm
    split_ifs at hm with hid
    · obtain rfl := List.inj_on_of_nodup_map s.traces.ids_nodup hr htrace hid
      rw [List.mem_singleton.mp hm, hws]
      exact hassigns
    · exact absurd hm (by simp)

theorem eq_of_resolve {acc : Progress} {a : Assignment} {modeId : String}
    (h : resolve acc a = some modeId) : ∀ id ∈ a.modeId, id = modeId := by
  intro id hid
  unfold resolve at h
  rw [Option.mem_def.mp hid] at h
  exact Option.some.inj h

theorem assigns_of_mem {a : Assignment} (ha : a ∈ result.assignments) {acc : Progress}
    {modeId : String} (h : resolve acc a = some modeId) :
    Assigns [⟨env, result⟩] env.workspaceId a.traceId modeId :=
  ⟨⟨env, result⟩, List.mem_singleton_self _, rfl, a, ha, rfl, eq_of_resolve h⟩

theorem stamps_applyAssignment {a : Assignment} (ha : a ∈ result.assignments) (acc : Progress)
    (s : Store) :
    Stamps (Assigns [⟨env, result⟩]) s ((applyAssignment env acc a).run s).2 := by
  unfold applyAssignment
  cases hres : resolve acc a with
  | none => exact stamps_of_eq rfl rfl
  | some modeId =>
    rw [orMissing_some_bind]
    refine of_tryQuery_bind (P := Stamps _ s) (stamps_of_eq rfl rfl) fun trace htrace => ?_
    obtain ⟨hrow, hid, hws⟩ := getTrace_of_mapError htrace
    obtain ⟨traces, hput, -, hstamps⟩ := stamps_putTrace hrow hws
      (hid ▸ assigns_of_mem ha hres : Assigns [⟨env, result⟩] env.workspaceId trace.id modeId)
    refine rel_bind (R := Stamps _) (fun _ _ _ => stamps_trans) ?_ fun _ s' _ => ?_
    · show Stamps _ s ((putTrace env (stampMode trace modeId analysisGrader)).run s).2
      rw [hput]
      exact hstamps
    refine rel_bind (R := Stamps _) (fun _ _ _ => stamps_trans) ?_ fun mode s' _ => ?_
    · rw [snd_orMissing]
      exact stamps_of_eq rfl rfl
    refine of_tryQuery_bind (P := Stamps _ s') (stamps_of_eq rfl rfl) fun quote _ => ?_
    exact rel_bind (R := Stamps _) (fun _ _ _ => stamps_trans) (stamps_putMode _ _)
      fun _ _ _ => stamps_of_eq rfl rfl

/-- **Whatever a push does to the traces** is to stamp some that it assigns. -/
theorem stamps_ingestResult (env : Env) (result : AnalysisResult) (s : Store) :
    Stamps (Assigns [⟨env, result⟩]) s ((ingestResult env result).run s).2 := by
  have hrefl : ∀ t, Stamps (Assigns [⟨env, result⟩]) t t := fun t => stamps_of_eq rfl rfl
  have htrans : ∀ t u v : Store, Stamps (Assigns [⟨env, result⟩]) t u →
      Stamps (Assigns [⟨env, result⟩]) u v → Stamps (Assigns [⟨env, result⟩]) t v :=
    fun _ _ _ => stamps_trans
  unfold ingestResult
  split
  · exact hrefl s
  refine rel_bind htrans (hrefl s) fun byId s₁ _ => rel_bind htrans (hrefl s₁) fun bySlug s₂ _ => ?_
  refine of_tryQuery_bind (P := Stamps _ s₂) (hrefl s₂) fun _ _ => ?_
  refine rel_bind htrans ?_ fun acc s₃ _ => rel_bind htrans ?_ fun acc' s₄ _ =>
    rel_bind htrans ?_ fun _ s₅ _ => hrefl s₅
  · exact rel_foldlM hrefl htrans (fun p _ acc t => stamps_proposeMode _ acc p t) _ _
  · exact rel_foldlM hrefl htrans (fun a ha acc t => stamps_applyAssignment ha acc t) _ _
  · exact rel_foldlM hrefl htrans (fun h _ count t => stamps_recordHypothesis count h t) _ _

theorem proposes_created {s : Store} {done : List ProposedMode}
    (hsub : done ⊆ result.proposedModes) {m : FailureMode} (hm : m ∈ created env s done) :
    Proposes [⟨env, result⟩] m := by
  obtain ⟨k, hk, rfl⟩ := mem_created.mp hm
  have hp : (done.filter (isNew env s))[k] ∈ done := (List.mem_filter.mp (List.getElem_mem hk)).1
  exact ⟨rfl, _, List.mem_singleton_self _, rfl, _, hsub hp, rfl, rfl, rfl⟩

theorem map_bare_created (env : Env) (s : Store) (done : List ProposedMode) :
    (created env s done).map bare = created env s done := by
  refine (List.map_congr_left fun m hm => ?_).trans (List.map_id _)
  obtain ⟨k, hk, rfl⟩ := mem_created.mp hm
  rfl

/-- **What a push does to the modes** is to add some that it proposes, wherever it ends. -/
theorem later_push {s : Store} (hfresh : Fresh env s) :
    Later [⟨env, result⟩] s ((ingestResult env result).run s).2 := by
  have hout := outcome result hfresh
  have htraces := stamps_ingestResult env result s
  generalize (ingestResult env result).run s = r at hout htraces
  have hmodes : ∀ {done : List ProposedMode} {acc : Progress} {t u : Store},
      Proposed env s done acc t → done ⊆ result.proposedModes →
      u.modes.rows.map bare = t.modes.rows.map bare →
      ∃ added, u.modes.rows.map bare = s.modes.rows.map bare ++ added ∧
        ∀ m ∈ added, Proposes [⟨env, result⟩] m := by
    intro done acc t u hproposed hsub hbare
    refine ⟨created env s done, ?_, fun m hm => proposes_created hsub hm⟩
    rw [hbare, hproposed.rows, List.map_append, map_bare_created]
  have hall := List.Subset.refl result.proposedModes
  refine ⟨htraces, ?_⟩
  cases hout with
  | refused e => exact ⟨[], (List.append_nil _).symm, nofun⟩
  | noMode e hchecked hsplit h => exact hmodes h (hsplit ▸ List.subset_append_left ..) rfl
  | noAssignment e hchecked hproposed hgood hsplit ha h hdone hbad hbody =>
    exact hmodes hproposed hall (by rw [modes_of_failed h ha hbad hbody, h.modes])
  | noHypothesis e hchecked hproposed hgood h => exact hmodes hproposed hall h.modes
  | completed summary hchecked hproposed hgood h hassigned hok hrecorded =>
    exact hmodes hproposed hall (by rw [hrecorded.modes, h.modes])

end Push

/-! ### A run of pushes -/

section Later
variable {pushes pushes' : List Push} {s t u : Store}

theorem Assigns.mono (hsub : pushes ⊆ pushes') {workspaceId traceId modeId : String}
    (h : Assigns pushes workspaceId traceId modeId) :
    Assigns pushes' workspaceId traceId modeId := by
  obtain ⟨push, hpush, h⟩ := h
  exact ⟨push, hsub hpush, h⟩

theorem Proposes.mono (hsub : pushes ⊆ pushes') {m : FailureMode} (h : Proposes pushes m) :
    Proposes pushes' m := by
  obtain ⟨hstatus, push, hpush, h⟩ := h
  exact ⟨hstatus, push, hsub hpush, h⟩

theorem later_refl (s : Store) : Later [] s s :=
  ⟨stamps_of_eq rfl rfl, [], (List.append_nil _).symm, nofun⟩

theorem later_trans (h : Later pushes s t) (h' : Later pushes' t u) :
    Later (pushes ++ pushes') s u := by
  have hleft : pushes ⊆ pushes ++ pushes' := List.subset_append_left ..
  have hright : pushes' ⊆ pushes ++ pushes' := List.subset_append_right ..
  refine ⟨stamps_trans (h.stamps.mono fun _ _ _ => .mono hleft)
    (h'.stamps.mono fun _ _ _ => .mono hright), ?_⟩
  obtain ⟨added, hrows, hall⟩ := h.modes
  obtain ⟨added', hrows', hall'⟩ := h'.modes
  refine ⟨added ++ added', by rw [hrows', hrows, List.append_assoc], fun m hm => ?_⟩
  rcases List.mem_append.mp hm with hm | hm
  · exact (hall m hm).mono hleft
  · exact (hall' m hm).mono hright

/-- The ids that a push draws are new where it runs. -/
def Draws (s : Store) (push : Push) : Prop := Fresh push.env s

/-- **Pushes only add**: stamps where they assign, and modes that they propose. -/
theorem later_of_exec (hfresh : Guarded step Draws s pushes) (h : exec step s pushes = some t) :
    Later pushes s t := by
  induction pushes generalizing s with
  | nil =>
    cases h
    exact later_refl _
  | cons push pushes ih =>
    obtain ⟨u, hu, hrest⟩ := exec_cons_eq_some.mp h
    have hfirst : Later [push] s u := by
      cases hu
      exact later_push hfresh.1
    exact later_trans hfirst (ih (hfresh.2 u hu) hrest)

end Later

/-! ### What a later bundle has of an earlier one -/

/-- A trace of a bundle, and the same trace in a later one. -/
structure Recoded (pushes : List Push) (workspaceId : String) (t t' : BundleTrace) : Prop where
  same : t' = { t with grade := t'.grade }
  label : t.grade.label ∈ failedLabels → t'.grade.label = t.grade.label
  judgeReason : t'.grade.judgeReason = t.grade.judgeReason
  keeps : t.grade.deterministicModes ⊆ t'.grade.deterministicModes
  gains : ∀ m ∈ t'.grade.deterministicModes, m ∈ t.grade.deterministicModes ∨
    Assigns pushes workspaceId t.traceId m

/-- Some push proposes the entry. -/
def Introduces (pushes : List Push) (workspaceId : String) (e : TaxonomyEntry) : Prop :=
  e.status = "candidate" ∧ ∃ push ∈ pushes, push.env.workspaceId = workspaceId ∧
    ∃ p ∈ push.result.proposedModes, e.slug = p.slug ∧ e.title = p.title ∧
      e.definition = p.definition

/-- A bundle, and one that is pulled after some pushes. -/
structure Evolved (pushes : List Push) (pull : Pull) (bundle bundle' : AnalysisBundle) : Prop where
  taxonomy : ∃ added, bundle'.taxonomy.Perm (bundle.taxonomy ++ added) ∧
    ∀ e ∈ added, Introduces pushes pull.workspaceId e
  kept : ∀ t ∈ bundle.traces, ∃ t' ∈ bundle'.traces, Recoded pushes pull.workspaceId t t'
  found : ∀ t' ∈ bundle'.traces, (∃ t ∈ bundle.traces, Recoded pushes pull.workspaceId t t') ∨
    ∃ m ∈ t'.grade.deterministicModes, Assigns pushes pull.workspaceId t'.traceId m

section Evolved
variable {pyStr : Json → String} {pull : Pull} {pushes : List Push} {s s' : Store}
  {bundle bundle' : AnalysisBundle}

theorem recoded_stampAll (trace : Trace) {marks : List String}
    (hmarks : ∀ m ∈ marks, Assigns pushes trace.workspaceId trace.id m) :
    Recoded pushes trace.workspaceId (bundleTrace pyStr trace)
      (bundleTrace pyStr (stampAll trace marks)) := by
  obtain ⟨hlabel, hreason⟩ := grade_stampAll trace marks
  refine ⟨?_, hlabel, hreason, fun m hm => ?_, fun m hm => ?_⟩
  · obtain ⟨grs, h⟩ := stampAll_same trace marks
    rw [h]
    rfl
  · exact mem_deterministicModes.mpr ((names_stampAll marks m).mpr
      (.inl (mem_deterministicModes.mp hm)))
  · exact ((names_stampAll marks m).mp (mem_deterministicModes.mp hm)).imp
      mem_deterministicModes.mpr (hmarks m)

theorem wanted_stampAll (trace : Trace) (marks : List String) :
    pull.wanted (stampAll trace marks) = pull.wanted trace := by
  obtain ⟨grs, h⟩ := stampAll_same trace marks
  rw [h]
  rfl

theorem workspaceId_of_wanted {trace : Trace} (h : pull.wanted trace = true) :
    trace.workspaceId = pull.workspaceId := (of_decide_eq_true h).1

theorem taxonomy_bare (rows : List FailureMode) : (rows.filter pull.lists).map taxonomyEntry =
    ((rows.map bare).filter pull.lists).map taxonomyEntry := by
  rw [List.filter_map, List.map_map]
  rfl

theorem evolved_of_later (h : Later pushes s s') (hpulled : Pulled pyStr pull s bundle)
    (hpulled' : Pulled pyStr pull s' bundle') : Evolved pushes pull bundle bundle' := by
  obtain ⟨⟨-, marks, hrows, hassigns⟩, added, hmodes, hadded⟩ := h
  have hrecoded : ∀ r ∈ s.traces.rows, pull.wanted r = true →
      Recoded pushes pull.workspaceId (bundleTrace pyStr r)
        (bundleTrace pyStr (stampAll r (marks r.id))) := by
    intro r hr hwanted
    rw [← workspaceId_of_wanted hwanted]
    exact recoded_stampAll r (hassigns r hr)
  refine ⟨⟨(added.filter pull.lists).map taxonomyEntry, ?_, ?_⟩, ?_, ?_⟩
  · have hnew := (pulled_spec hpulled').2.2.2
    rw [taxonomy_bare, hmodes, List.filter_append, List.map_append, ← taxonomy_bare] at hnew
    exact hnew.trans ((pulled_spec hpulled).2.2.2.symm.append_right _)
  · intro e he
    obtain ⟨m, hm, rfl⟩ := List.mem_map.mp he
    obtain ⟨hm, hlists⟩ := List.mem_filter.mp hm
    obtain ⟨hstatus, push, hpush, hws, p, hp, hsame⟩ := hadded m hm
    refine ⟨congrArg Coded.value hstatus, push, hpush, ?_, p, hp, hsame⟩
    exact hws.symm.trans (of_decide_eq_true hlists).1
  · intro t ht
    obtain ⟨r, hr, hhands, rfl⟩ := (mem_traces hpulled).mp ht
    obtain ⟨hwanted, hfailed⟩ := Bool.and_eq_true_iff.mp hhands
    refine ⟨_, (mem_traces hpulled').mpr ⟨stampAll r (marks r.id), ?_, ?_, rfl⟩,
      hrecoded r hr hwanted⟩
    · rw [hrows]
      exact List.mem_map_of_mem hr
    · refine Bool.and_eq_true_iff.mpr ⟨(wanted_stampAll r _).trans hwanted, ?_⟩
      rw [Bool.or_eq_true] at hfailed ⊢
      exact hfailed.imp id (isFailed_stampAll _)
  · intro t' ht'
    obtain ⟨r', hr', hhands, rfl⟩ := (mem_traces hpulled').mp ht'
    obtain ⟨hwanted', hfailed'⟩ := Bool.and_eq_true_iff.mp hhands
    rw [hrows, List.mem_map] at hr'
    obtain ⟨r, hr, rfl⟩ := hr'
    have hwanted : pull.wanted r = true := (wanted_stampAll r _).symm.trans hwanted'
    rcases hmarks : marks r.id with _ | ⟨m, ms⟩
    · rw [hmarks] at hfailed'
      refine .inl ⟨bundleTrace pyStr r, (mem_traces hpulled).mpr ⟨r, hr, ?_, rfl⟩, ?_⟩
      · exact Bool.and_eq_true_iff.mpr ⟨hwanted, hfailed'⟩
      · have h := hrecoded r hr hwanted
        rwa [hmarks] at h
    · have hm : m ∈ marks r.id := by simp [hmarks]
      have hassigned := hassigns r hr m hm
      have hid : (stampAll r (m :: ms)).id = r.id := congrArg (·.id) (base_stampAll _)
      refine .inr ⟨m, ?_, ?_⟩
      · exact mem_deterministicModes.mpr ((names_stampAll _ m).mpr (.inr (by simp)))
      · show Assigns pushes pull.workspaceId (stampAll r (m :: ms)).id m
        rw [hid, ← workspaceId_of_wanted hwanted]
        exact hassigned

/-- **What was handed out stays**, whatever agents push and wherever their pushes stop: no mode is
renamed or taken away, and new ones are candidates that some push proposes; every trace that was
pulled is pulled again, with what it was coded with and what was assigned to it since, and a trace
comes in only when it is assigned. -/
theorem evolved_of_exec (hpulled : Pulled pyStr pull s bundle)
    (hfresh : Guarded step Draws s pushes) (hrun : exec step s pushes = some s')
    (hpulled' : Pulled pyStr pull s' bundle') : Evolved pushes pull bundle bundle' :=
  evolved_of_later (later_of_exec hfresh hrun) hpulled hpulled'

end Evolved

/-! ### Two agents and a trace -/

/-- An agent whose ids start with a letter. -/
def agentEnv (letter : Char) : Env where
  workspaceId := "ws_1"
  experimentId := "exp_1"
  newMode k := ⟨String.ofList (letter :: List.replicate k '0'), 0, 0⟩
  newHypothesis k := ⟨String.ofList (letter :: List.replicate k '0'), 0, 0⟩
  bytesHash _ := "sha256:"

/-- A run that did not complete. -/
def failedTrace : Trace where
  id := "tr_7"
  workspaceId := "ws_1"
  createdAt := 0
  updatedAt := 0
  run := { runId := "run_1", experimentId := some "exp_1" }
  agent := { agentId := "ag_1", agentVersion := 1 }
  environment := { frameworkVersion := "1", runtime := "py", sandbox := .mock, startedAt := 0 }
  finalState := { status := .errored }

theorem nodup_no_slugs : ([] : List (String × String)).Nodup := List.nodup_nil

def oneTrace : Store where
  workspaces := ["ws_1"]
  modes := { Table.empty with slugs_nodup := nodup_no_slugs }
  traces := ⟨[failedTrace], List.nodup_singleton _⟩
  hypotheses := Table.empty

/-- A new mode, and the trace under it. -/
def codedTrace : AnalysisResult where
  proposedModes := [{
    slug := "unlisted_price"
    title := "Unlisted price"
    definition := "The agent states a price that is not in the catalogue."
    nonEmpty := ⟨by decide, by decide, by decide⟩ }]
  assignments := [{
    traceId := "tr_7"
    newModeSlug := some "unlisted_price"
    traceId_nonEmpty := by decide
    exactlyOneTarget := by decide }]

def failures : Pull := { workspaceId := "ws_1", experimentId := "exp_1" }

/-- The store after the push of the first agent. -/
def oneCoded : Store := ((ingestResult (agentEnv 'm') codedTrace).run oneTrace).2

theorem fresh_agentEnv {letter : Char} {s : Store} (hhypotheses : s.hypotheses.rows = [])
    (h : ∀ m ∈ s.modes.rows, m.id.toList.head? ≠ some letter) : Fresh (agentEnv letter) s := by
  have hinjective : Function.Injective fun k => String.ofList (letter :: List.replicate k '0') := by
    intro j k heq
    simpa using congrArg String.length heq
  have hnonEmpty : ∀ k, NonEmpty (String.ofList (letter :: List.replicate k '0')) := by
    intro k hempty
    simpa using congrArg String.length hempty
  refine ⟨hinjective, fun k => ⟨hnonEmpty k, ?_⟩, hinjective, fun k => ⟨hnonEmpty k, ?_⟩⟩
  · refine Table.find?_eq_none.mpr fun m hm heq => h m hm ?_
    show (Entity.base m).id.toList.head? = _
    rw [heq]
    simp [agentEnv]
  · refine Table.find?_eq_none.mpr fun m hm => ?_
    rw [hhypotheses] at hm
    exact absurd hm (by simp)

theorem fresh_first : Fresh (agentEnv 'm') oneTrace := fresh_agentEnv rfl nofun

/-- The first agent finds a mode; the trace is pulled again, under it. -/
theorem evolved_of_exec_oneTrace : ∃ s' bundle bundle',
    exec step oneTrace [⟨agentEnv 'm', codedTrace⟩] = some s' ∧
      Pulled (fun _ => "") failures oneTrace bundle ∧ Pulled (fun _ => "") failures s' bundle' ∧
      Evolved [⟨agentEnv 'm', codedTrace⟩] failures bundle bundle' := by
  obtain ⟨bundle, hpulled⟩ := exists_pulled (fun _ => "") failures (by decide) (by decide) oneTrace
  obtain ⟨bundle', hpulled'⟩ :=
    exists_pulled (fun _ => "") failures (by decide) (by decide) oneCoded
  exact ⟨oneCoded, bundle, bundle', rfl, hpulled, hpulled',
    evolved_of_exec hpulled ⟨fresh_first, fun _ _ => trivial⟩ rfl hpulled'⟩

/-! ### An answer -/

/-- What an answer to a bundle has to keep to: it names only what the bundle has and what it
proposes itself, its proposals can be created, and its quotes can be kept. -/
structure Answers (env : Env) (bundle : AnalysisBundle) (result : AnalysisResult) : Prop where
  workspace : env.workspaceId = bundle.workspaceId
  experiment : env.experimentId = bundle.experimentId
  proposer : NonEmpty env.proposedBy
  traces : ∀ a ∈ result.assignments, ∃ t ∈ bundle.traces, t.traceId = a.traceId
  modes : ∀ a ∈ result.assignments, ∀ id ∈ a.modeId, ∃ e ∈ bundle.taxonomy, e.id = id
  slugs : ∀ a ∈ result.assignments, ∀ slug ∈ a.newModeSlug,
    slug ∈ result.proposedModes.map (·.slug) ∨ ∃ e ∈ bundle.taxonomy, e.slug = slug
  patterns : ∀ p ∈ result.proposedModes, slugPattern p.slug = true
  distinct : (result.proposedModes.map (·.slug)).Nodup
  quotes : ∀ a ∈ result.assignments, ∃ quote, routeQuote env a = .ok quote

section Answer
variable {env : Env} {result : AnalysisResult} {s s' : Store}

theorem names_applyAssignment {acc acc' : Progress} {a : Assignment}
    (h : (applyAssignment env acc a).run s = (.ok acc', s')) :
    acc'.slugToMode = acc.slugToMode ∧ ∃ modeId, resolve acc a = some modeId ∧
      ∃ r ∈ s'.traces.rows, r.id = a.traceId ∧ Names r modeId := by
  unfold applyAssignment at h
  obtain ⟨modeId, s₁, hresolve, h₁⟩ := run_bind_eq_ok.mp h
  obtain ⟨hres, rfl⟩ := run_orMissing_eq_ok.mp hresolve
  obtain ⟨trace, s₂, hread, h₂⟩ := run_bind_eq_ok.mp h₁
  obtain ⟨htrace, rfl⟩ := run_tryQuery_eq_ok.mp hread
  obtain ⟨hrow, hid, hws⟩ := getTrace_of_mapError htrace
  obtain ⟨u, s₃, hput, h₃⟩ := run_bind_eq_ok.mp h₂
  obtain ⟨traces, hrun, hstamped, -⟩ :=
    @stamps_putTrace env (fun _ _ _ => True) s₂ trace modeId hrow hws trivial
  obtain ⟨-, rfl⟩ := Prod.mk.inj (hrun.symm.trans hput)
  obtain ⟨mode, s₄, hmode, h₄⟩ := run_bind_eq_ok.mp h₃
  obtain ⟨-, rfl⟩ := run_orMissing_eq_ok.mp hmode
  obtain ⟨quote, s₅, hquote, h₅⟩ := run_bind_eq_ok.mp h₄
  obtain ⟨-, rfl⟩ := run_tryQuery_eq_ok.mp hquote
  obtain ⟨u', s₆, hmodes, h₆⟩ := run_bind_eq_ok.mp h₅
  have hsame := congrArg (·.2.traces) hmodes
  rw [(putMode_same _ _).2] at hsame
  cases h₆
  refine ⟨rfl, modeId, hres, stampMode trace modeId analysisGrader, ?_, hid, ?_⟩
  · rw [← show _ = s'.traces from hsame]
    exact hstamped
  · exact (names_stampMode modeId).mpr (.inr rfl)

theorem names_applyAssignments {as : List Assignment} (has : as ⊆ result.assignments)
    {acc acc' : Progress} (h : (as.foldlM (applyAssignment env) acc).run s = (.ok acc', s')) :
    ∀ a ∈ as, ∃ modeId, resolve acc a = some modeId ∧
      ∃ r ∈ s'.traces.rows, r.id = a.traceId ∧ Names r modeId := by
  induction as generalizing acc s with
  | nil => exact nofun
  | cons a as ih =>
    obtain ⟨-, has'⟩ := List.cons_subset.mp has
    rw [List.foldlM_cons] at h
    obtain ⟨acc₁, s₁, hfirst, hrest⟩ := run_bind_eq_ok.mp h
    obtain ⟨hslugs, modeId, hres, r, hr, hid, hnames⟩ := names_applyAssignment hfirst
    have hlater : Stamps (Assigns [⟨env, result⟩]) s₁ s' := by
      have hloop := rel_foldlM (R := Stamps (Assigns [⟨env, result⟩]))
        (fun _ => stamps_of_eq rfl rfl) (fun _ _ _ => stamps_trans)
        (fun b hb acc t => stamps_applyAssignment (has' hb) acc t) acc₁ s₁
      rwa [hrest] at hloop
    intro b hb
    rcases List.mem_cons.mp hb with rfl | hb
    · obtain ⟨r', hr', hbase, hnames'⟩ := hlater.names hr
      refine ⟨modeId, hres, r', hr', ?_, hnames' modeId hnames⟩
      exact (congrArg (·.id) hbase).trans hid
    · obtain ⟨modeId', hres', hstamped⟩ := ih has' hrest b hb
      refine ⟨modeId', ?_, hstamped⟩
      unfold resolve at hres' ⊢
      rwa [hslugs] at hres'

theorem run_ingestResult_ok {summary : IngestSummary}
    (h : (ingestResult env result).run s = (.ok summary, s')) :
    NonEmpty env.workspaceId ∧ ∃ acc₁ s₁ acc s₂,
      (result.proposedModes.foldlM (proposeMode env (bySlugOf env s))
        ⟨{}, (bySlugOf env s).mapValues (·.id), byIdOf env s⟩).run s = (.ok acc₁, s₁) ∧
      (result.assignments.foldlM (applyAssignment env) acc₁).run s₁ = (.ok acc, s₂) ∧
      Stamps (Assigns [⟨env, result⟩]) s₂ s' := by
  unfold ingestResult at h
  split_ifs at h with hempty
  · exact absurd h nofun
  refine ⟨hempty, ?_⟩
  obtain ⟨byId, t₁, hbyId, h₁⟩ := run_bind_eq_ok.mp h
  obtain ⟨rfl, rfl⟩ := run_query_eq_ok.mp hbyId
  obtain ⟨bySlug, t₂, hbySlug, h₂⟩ := run_bind_eq_ok.mp h₁
  obtain ⟨rfl, rfl⟩ := run_query_eq_ok.mp hbySlug
  obtain ⟨u, t₃, hcheck, h₃⟩ := run_bind_eq_ok.mp h₂
  obtain ⟨-, rfl⟩ := run_tryQuery_eq_ok.mp hcheck
  obtain ⟨acc₁, s₁, hpropose, h₄⟩ := run_bind_eq_ok.mp h₃
  obtain ⟨acc, s₂, hassign, h₅⟩ := run_bind_eq_ok.mp h₄
  obtain ⟨count, s₃, hrecord, h₆⟩ := run_bind_eq_ok.mp h₅
  have hloop := rel_foldlM (R := Stamps (Assigns [⟨env, result⟩]))
    (fun _ => stamps_of_eq rfl rfl) (fun _ _ _ => stamps_trans)
    (fun (h : Hypothesis) (_ : h ∈ result.hypotheses) count t =>
      @stamps_recordHypothesis env _ count h t) 0 s₂
  rw [hrecord] at hloop
  cases h₆
  exact ⟨acc₁, s₁, acc, s₂, hpropose, hassign, hloop⟩

theorem named_of_proposed (hchecked : ¬ Refused env s result) {acc : Progress} {s₁ : Store}
    (h : Proposed env s result.proposedModes acc s₁) {a : Assignment} (ha : a ∈ result.assignments)
    {modeId : String} (hres : resolve acc a = some modeId) :
    ∃ m ∈ s₁.modes.rows, m.workspaceId = env.workspaceId ∧ m.id = modeId ∧
      (a.modeId = some m.id ∨ a.newModeSlug = some m.slug) := by
  obtain ⟨m, hm, hws, hres'⟩ := resolves_of_proposed hchecked h a ha
  obtain rfl := Option.some.inj (hres'.symm.trans hres)
  unfold resolve at hres
  cases hid : a.modeId with
  | some id =>
    rw [hid] at hres
    exact ⟨m, hm, hws, rfl, .inl hres⟩
  | none =>
    rw [hid] at hres
    obtain ⟨slug, hslug, hget⟩ := Option.bind_eq_some_iff.mp hres
    obtain ⟨m', hm', hws', hid', rfl⟩ := h.slugs slug m.id hget
    exact ⟨m', hm', hws', hid', .inr hslug⟩

/-- **What was assigned is seen**: after an ingest that goes through, each assigned trace names the
mode that the assignment names. -/
theorem named_of_ingested (hfresh : Fresh env s) {summary : IngestSummary}
    (h : (ingestResult env result).run s = (.ok summary, s')) :
    ∀ a ∈ result.assignments, ∃ m ∈ s'.modes.rows, m.workspaceId = env.workspaceId ∧
      (a.modeId = some m.id ∨ a.newModeSlug = some m.slug) ∧
      ∃ r ∈ s'.traces.rows, r.id = a.traceId ∧ Names r m.id := by
  intro a ha
  have hout := outcome result hfresh
  rw [h] at hout
  obtain ⟨hws, acc₁, s₁, acc, s₂, hpropose, hassign, hstamps⟩ := run_ingestResult_ok h
  obtain ⟨modeId, hres, r, hr, hid, hnames⟩ :=
    names_applyAssignments (List.Subset.refl _) hassign a ha
  obtain ⟨r', hr', hbase, hnames'⟩ := hstamps.names hr
  cases hout with
  | @completed acc₁' _ s₁' s₂' _ count _ hchecked hproposed' hgood hassigned' _ _ hrecorded =>
    obtain ⟨acc₁'', s₁'', hrun, hproposed, -⟩ |
        ⟨pre, p, post, acc', u, e, -, -, -, -, hrun⟩ :=
      proposeAll_run hfresh hws result.proposedModes proposed_start
    swap
    · exact absurd (hpropose.symm.trans hrun) (by simp)
    obtain ⟨hacc, rfl⟩ := Prod.mk.inj (hpropose.symm.trans hrun)
    obtain rfl := Except.ok.inj hacc
    obtain ⟨m, hm, hmws, rfl, hnamed⟩ := named_of_proposed hchecked hproposed ha hres
    have hbare : bare m ∈ s'.modes.rows.map bare := by
      rw [hrecorded.modes, hassigned'.modes, hproposed'.rows, ← hproposed.rows]
      exact List.mem_map_of_mem hm
    obtain ⟨m', hm', heq⟩ := List.mem_map.mp hbare
    have hmbase : m'.toBaseEntity = m.toBaseEntity := congrArg (·.toBaseEntity) heq
    have hmid : m'.id = m.id := congrArg (·.id) hmbase
    have hmslug : m'.slug = m.slug := congrArg (·.slug) heq
    refine ⟨m', hm', (congrArg (·.workspaceId) hmbase).trans hmws, ?_, r', hr',
      (congrArg (·.id) hbase).trans hid, ?_⟩
    · rwa [hmid, hmslug]
    · rw [hmid]
      exact hnames' m.id hnames

end Answer

/-! ### An answer to an earlier bundle -/

section Accept
variable {pyStr : Json → String} {pull : Pull} {pushes : List Push} {s s' : Store}
  {bundle : AnalysisBundle} {env : Env} {result : AnalysisResult}

theorem Later.mode (h : Later pushes s s') {m : FailureMode} (hm : m ∈ s.modes.rows) :
    ∃ m' ∈ s'.modes.rows, bare m' = bare m := by
  obtain ⟨added, hrows, -⟩ := h.modes
  have hmem : bare m ∈ s'.modes.rows.map bare := by
    rw [hrows]
    exact List.mem_append_left _ (List.mem_map_of_mem hm)
  exact List.mem_map.mp hmem

theorem mode_of_taxonomy (h : Later pushes s s') (hpulled : Pulled pyStr pull s bundle)
    {e : TaxonomyEntry} (he : e ∈ bundle.taxonomy) :
    ∃ m ∈ s'.modes.rows, m.workspaceId = pull.workspaceId ∧ m.id = e.id ∧ m.slug = e.slug := by
  obtain ⟨m, hm, hlists, rfl⟩ := (mem_taxonomy hpulled).mp he
  obtain ⟨m', hm', hbare⟩ := h.mode hm
  have hbase : m'.toBaseEntity = m.toBaseEntity := congrArg (·.toBaseEntity) hbare
  exact ⟨m', hm', (congrArg (·.workspaceId) hbase).trans (of_decide_eq_true hlists).1,
    congrArg (·.id) hbase, (congrArg (·.slug) hbare : m'.slug = m.slug)⟩

theorem workspaceId_of_pulled (h : Pulled pyStr pull s bundle) :
    bundle.workspaceId = pull.workspaceId ∧ bundle.experimentId = pull.experimentId := by
  obtain ⟨traces, modes, -, -, hbuild⟩ := h
  unfold buildBundle at hbuild
  split_ifs at hbuild
  cases hbuild
  exact ⟨rfl, rfl⟩

theorem not_refused_of_answers (h : Later pushes s s') (hpulled : Pulled pyStr pull s bundle)
    (hanswers : Answers env bundle result) : ¬ Refused env s' result := by
  have hws : env.workspaceId = pull.workspaceId :=
    hanswers.workspace.trans (workspaceId_of_pulled hpulled).1
  rintro (hempty | ⟨a, ha, hunknown⟩ | ⟨a, ha, hunknown⟩)
  · exact (pulled_spec hpulled).1 (hws ▸ hempty)
  · obtain ⟨id, hid⟩ := Option.isSome_iff_exists.mp hunknown
    obtain ⟨hmode, hnone⟩ := Option.filter_eq_some_iff.mp hid
    obtain ⟨e, he, rfl⟩ := hanswers.modes a ha id hmode
    obtain ⟨m, hm, hmws, hmid, -⟩ := mode_of_taxonomy h hpulled he
    have hfind : s'.modes.find? e.id = some m := Table.find?_eq_some.mpr ⟨hm, hmid⟩
    rw [get?_byIdOf, hfind, Option.filter_some_pos (by simpa using hmws.trans hws.symm)] at hnone
    exact absurd hnone nofun
  · obtain ⟨slug, hslug⟩ := Option.isSome_iff_exists.mp hunknown
    obtain ⟨hnew, hnone⟩ := Option.filter_eq_some_iff.mp hslug
    obtain ⟨hproposed, hnone⟩ := of_decide_eq_true hnone
    rcases hanswers.slugs a ha slug hnew with hmem | ⟨e, he, rfl⟩
    · exact hproposed hmem
    · obtain ⟨m, hm, hmws, -, hmslug⟩ := mode_of_taxonomy h hpulled he
      rw [get?_bySlugOf.mpr ⟨hm, hmws.trans hws.symm, hmslug⟩] at hnone
      exact absurd hnone nofun

theorem completes_of_answers (h : Later pushes s s') (hpulled : Pulled pyStr pull s bundle)
    (hregistered : pull.workspaceId ∈ s.workspaces) (hanswers : Answers env bundle result) :
    Completes env s' result := by
  have hws : env.workspaceId = pull.workspaceId :=
    hanswers.workspace.trans (workspaceId_of_pulled hpulled).1
  have hthere : env.workspaceId ∈ s'.workspaces := by
    rw [h.stamps.workspaces, hws]
    exact hregistered
  refine ⟨⟨fun p hp => ?_, ?_⟩, fun a ha => ⟨?_, hanswers.quotes a ha⟩, .inr ⟨?_, hthere⟩⟩
  · exact ⟨hanswers.patterns p (List.mem_filter.mp hp).1, hanswers.proposer, hthere⟩
  · exact hanswers.distinct.sublist (List.filter_sublist.map _)
  · obtain ⟨t, ht, htid⟩ := hanswers.traces a ha
    obtain ⟨r, hr, hhands, rfl⟩ := (mem_traces hpulled).mp ht
    obtain ⟨r', hr', hbase, -⟩ := h.stamps.names hr
    refine ⟨r', getTrace_eq_ok.mpr ⟨hr', (congrArg (·.id) hbase).trans htid, ?_⟩⟩
    rw [hws, ← workspaceId_of_wanted (Bool.and_eq_true_iff.mp hhands).1]
    exact congrArg (·.workspaceId) hbase
  · rw [hanswers.experiment, (workspaceId_of_pulled hpulled).2]
    exact (pulled_spec hpulled).2.1

/-- What an accepted answer shows in a bundle that is pulled next: each trace that it assigns, with
the mode that it names. -/
def Shows (pushes : List Push) (pull : Pull) (bundle bundle' : AnalysisBundle) (s : Store)
    (a : Assignment) : Prop :=
  ∃ t ∈ bundle.traces, ∃ t' ∈ bundle'.traces, t.traceId = a.traceId ∧
    Recoded pushes pull.workspaceId t t' ∧
    ∃ m ∈ s.modes.rows, (a.modeId = some m.id ∨ a.newModeSlug = some m.slug) ∧
      m.id ∈ t'.grade.deterministicModes ∧
      (m.status ≠ .retired → taxonomyEntry m ∈ bundle'.taxonomy)

/-- **An answer is accepted and not lost**: an agent that pulled a bundle and names only what it
has, or what the agent proposes, has its answer taken in whatever others pushed in between, and the
next bundle shows every trace that it assigned under the mode that it named. -/
theorem accepted_of_exec (hpulled : Pulled pyStr pull s bundle)
    (hregistered : pull.workspaceId ∈ s.workspaces) (hfresh : Guarded step Draws s pushes)
    (hrun : exec step s pushes = some s') (hanswers : Answers env bundle result)
    (hdraws : Fresh env s') :
    ∃ summary s'', (ingestResult env result).run s' = (.ok summary, s'') ∧
      ∀ bundle', Pulled pyStr pull s'' bundle' → ∀ a ∈ result.assignments,
        Shows (pushes ++ [⟨env, result⟩]) pull bundle bundle' s'' a := by
  have hlater := later_of_exec hfresh hrun
  have hws : env.workspaceId = pull.workspaceId :=
    hanswers.workspace.trans (workspaceId_of_pulled hpulled).1
  obtain ⟨summary, hok⟩ := (completes_iff (outcome result hdraws)
    (not_refused_of_answers hlater hpulled hanswers)).mpr
    (completes_of_answers hlater hpulled hregistered hanswers)
  have hingest : (ingestResult env result).run s' =
      (.ok summary, ((ingestResult env result).run s').2) := by
    rw [← hok]
  refine ⟨summary, _, hingest, fun bundle' hpulled' a ha => ?_⟩
  have hpush : Later [⟨env, result⟩] s' ((ingestResult env result).run s').2 := later_push hdraws
  have hend := later_trans hlater hpush
  obtain ⟨m, hm, hmws, hnamed, r, hr, hrid, hnames⟩ := named_of_ingested hdraws hingest a ha
  obtain ⟨t, ht, htid⟩ := hanswers.traces a ha
  obtain ⟨t', ht', hrecoded⟩ := (evolved_of_later hend hpulled hpulled').kept t ht
  refine ⟨t, ht, t', ht', htid, hrecoded, m, hm, hnamed, ?_, fun hstatus => ?_⟩
  · obtain ⟨r', hr', hhands, rfl⟩ := (mem_traces hpulled').mp ht'
    have hid : r'.id = t.traceId := congrArg (·.traceId) hrecoded.same
    obtain rfl := List.inj_on_of_nodup_map (Table.ids_nodup _) hr' hr
      (hid.trans (htid.trans hrid.symm))
    exact mem_deterministicModes.mpr hnames
  · exact (mem_taxonomy hpulled').mpr
      ⟨m, hm, decide_eq_true ⟨hmws.trans hws, hstatus⟩, rfl⟩

end Accept

/-- The second agent pulled before the first one pushed, and finds the same mode. -/
theorem accepted_of_exec_codedTwice : ∃ bundle,
    Pulled (fun _ => "") failures oneTrace bundle ∧
      ∃ summary s'', (ingestResult (agentEnv 'n') codedTrace).run oneCoded = (.ok summary, s'') ∧
        ∀ bundle', Pulled (fun _ => "") failures s'' bundle' → ∀ a ∈ codedTrace.assignments,
          Shows [⟨agentEnv 'm', codedTrace⟩, ⟨agentEnv 'n', codedTrace⟩] failures bundle bundle'
            s'' a := by
  obtain ⟨bundle, hpulled⟩ := exists_pulled (fun _ => "") failures (by decide) (by decide) oneTrace
  have hanswers : Answers (agentEnv 'n') bundle codedTrace := by
    refine ⟨(workspaceId_of_pulled hpulled).1.symm, (workspaceId_of_pulled hpulled).2.symm,
      by decide, ?_, ?_, ?_, by decide +kernel, by decide, ?_⟩
    · intro a ha
      obtain rfl := List.mem_singleton.mp ha
      exact ⟨_, (mem_traces hpulled).mpr ⟨failedTrace, by simp [oneTrace], by decide, rfl⟩, rfl⟩
    · intro a ha id hid
      obtain rfl := List.mem_singleton.mp ha
      exact absurd hid (by simp)
    · intro a ha slug hslug
      obtain rfl := List.mem_singleton.mp ha
      cases hslug
      exact .inl (by decide)
    · intro a ha
      obtain rfl := List.mem_singleton.mp ha
      exact ⟨_, rfl⟩
  have hids : oneCoded.modes.rows.map (·.id) = ["m"] := by decide +kernel
  have hsecond : Fresh (agentEnv 'n') oneCoded := by
    refine fresh_agentEnv (List.eq_nil_of_length_eq_zero (by decide +kernel)) fun m hm => ?_
    have hmem : m.id ∈ oneCoded.modes.rows.map (·.id) := List.mem_map_of_mem hm
    rw [hids, List.mem_singleton] at hmem
    rw [hmem]
    decide
  have hfirst : Guarded step Draws oneTrace [⟨agentEnv 'm', codedTrace⟩] :=
    ⟨fresh_first, fun _ _ => trivial⟩
  exact ⟨bundle, hpulled, accepted_of_exec hpulled (by decide) hfirst rfl hanswers hsecond⟩

end Selfevals.Analysis.Handshake
