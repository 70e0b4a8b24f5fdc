import Selfevals.Analysis.IngestPhases

/-!
# What an ingest promises

The function means to reject a bad result whole, and to create each proposed mode once. The checks
it makes first do not cover what the later writes need, and it looks parents up among the modes
there were.

* `outcome`: where an ingest ends.
-/

namespace Selfevals.Analysis.IngestLaws

open Lib.Effects Lib.Mapping Schemas.Base Schemas.Experiments Schemas.FailureModes
  Schemas.TraceRecords Storage Storage.Entity Storage.Tables Analysis.Ingest Analysis.IngestPhases

section Outcome
variable (env : Env) (store : Store) (result : AnalysisResult)

/-- A reference is not known, or the workspace has no id. -/
def Refused : Prop :=
  env.workspaceId = "" ∨
    (∃ a ∈ result.assignments, (unknownModeId (byIdOf env store) a).isSome) ∨
    ∃ a ∈ result.assignments, (unknownSlug result (bySlugOf env store) a).isSome

/-- Where an ingest ends. -/
inductive Outcome : Except IngestError IngestSummary × Store → Prop
  | refused (e : IngestError) (hrefused : Refused env store result) : Outcome (.error e, store)
  | noMode {pre post : List ProposedMode} {p : ProposedMode} {acc : Progress} {s : Store}
      (e : IngestError) (hchecked : ¬ Refused env store result)
      (hsplit : result.proposedModes = pre ++ p :: post) (h : Proposed env store pre acc s)
      (hgood : Along (ProposeOk env store) [] pre) (hbad : ¬ ProposeOk env store pre p) :
      Outcome (.error e, s)
  | noAssignment {acc₁ acc : Progress} {s₁ s s' : Store} {pre post : List Assignment}
      {a : Assignment} (e : IngestError) (hchecked : ¬ Refused env store result)
      (hproposed : Proposed env store result.proposedModes acc₁ s₁)
      (hmodes : Along (ProposeOk env store) [] result.proposedModes)
      (hsplit : result.assignments = pre ++ a :: post) (ha : Resolves env acc₁ s₁ a)
      (h : Assigned env acc₁ s₁ pre acc s) (hgood : ∀ a ∈ pre, AssignOk env s₁ a)
      (hbad : ¬ AssignOk env s₁ a) (hbody : (applyAssignment env acc a).run s = (.error e, s')) :
      Outcome (.error e, s')
  | noHypothesis {acc₁ acc : Progress} {s₁ s : Store} (e : IngestError)
      (hchecked : ¬ Refused env store result)
      (hproposed : Proposed env store result.proposedModes acc₁ s₁)
      (hmodes : Along (ProposeOk env store) [] result.proposedModes)
      (h : Assigned env acc₁ s₁ result.assignments acc s)
      (hassigned : ∀ a ∈ result.assignments, AssignOk env s₁ a)
      (hbad : result.hypotheses ≠ [] ∧ ¬ RecordOk env store) : Outcome (.error e, s)
  | completed {acc₁ acc : Progress} {s₁ s₂ s : Store} {count : ℕ} (summary : IngestSummary)
      (hchecked : ¬ Refused env store result)
      (hproposed : Proposed env store result.proposedModes acc₁ s₁)
      (hmodes : Along (ProposeOk env store) [] result.proposedModes)
      (h : Assigned env acc₁ s₁ result.assignments acc s₂)
      (hassigned : ∀ a ∈ result.assignments, AssignOk env s₁ a)
      (hok : result.hypotheses = [] ∨ RecordOk env store)
      (hrecorded : Recorded env store s₂ result.hypotheses count s) : Outcome (.ok summary, s)

end Outcome

section Run
variable {env : Env} {store : Store} {result : AnalysisResult}

theorem checkReferences_eq_ok (hws : env.workspaceId ≠ "") :
    checkReferences result (byIdOf env store) (bySlugOf env store) = .ok () ↔
      ¬ Refused env store result := by
  unfold checkReferences Refused
  cases hids : result.assignments.findSome? (unknownModeId (byIdOf env store)) with
  | some modeId =>
    refine iff_of_false (by simp) (not_not.mpr (.inr (.inl ?_)))
    obtain ⟨a, ha, hunknown⟩ := List.exists_of_findSome?_eq_some hids
    exact ⟨a, ha, by simp [hunknown]⟩
  | none =>
    rw [List.findSome?_eq_none_iff] at hids
    cases hslugs : result.assignments.findSome? (unknownSlug result (bySlugOf env store)) with
    | some slug =>
      refine iff_of_false (by simp) (not_not.mpr (.inr (.inr ?_)))
      obtain ⟨a, ha, hunknown⟩ := List.exists_of_findSome?_eq_some hslugs
      exact ⟨a, ha, by simp [hunknown]⟩
    | none =>
      rw [List.findSome?_eq_none_iff] at hslugs
      refine iff_of_true rfl ?_
      rintro (h | ⟨a, ha, h⟩ | ⟨a, ha, h⟩)
      · exact hws h
      · simp [hids a ha] at h
      · simp [hslugs a ha] at h

theorem proposed_start : Proposed env store []
    ⟨{}, (bySlugOf env store).mapValues (·.id), byIdOf env store⟩ store where
  workspaces := rfl
  traces := rfl
  hypotheses := rfl
  rows := by simp [created]
  createdCandidates := by simp [created]
  byId := get?_byIdOf
  slugs slug modeId hget := by
    simp only [Dict.mapValues, Dict.get?_filterMap, Option.bind_eq_some_iff] at hget
    obtain ⟨m, hm, hid⟩ := hget
    obtain ⟨hrow, hws, hslug⟩ := get?_bySlugOf.mp hm
    exact ⟨m, hrow, hws, Option.some.inj hid, hslug⟩
  named slug h := by
    obtain ⟨m, hm⟩ := Option.isSome_iff_exists.mp (h.resolve_right (by simp))
    simp [Dict.mapValues, Dict.get?_filterMap, hm]

theorem resolves_of_proposed (hchecked : ¬ Refused env store result) {acc : Progress} {s : Store}
    (h : Proposed env store result.proposedModes acc s) :
    ∀ a ∈ result.assignments, Resolves env acc s a := by
  intro a ha
  obtain ⟨-, hunknown⟩ := not_or.mp hchecked
  obtain ⟨hids, hslugs⟩ := not_or.mp hunknown
  have htarget := a.exactlyOneTarget
  unfold Resolves resolve
  cases hid : a.modeId with
  | some modeId =>
    have hknown : ((byIdOf env store).get? modeId).isSome := by
      by_contra hnone
      exact hids ⟨a, ha, by simpa [unknownModeId, hid] using hnone⟩
    obtain ⟨m, hm⟩ := Option.isSome_iff_exists.mp hknown
    rw [get?_byIdOf, Option.filter_eq_some_iff, decide_eq_true_eq] at hm
    obtain ⟨hrow, rfl⟩ := Table.find?_eq_some.mp hm.1
    refine ⟨m, ?_, hm.2, rfl⟩
    rw [h.rows]
    exact List.mem_append_left _ hrow
  | none =>
    rw [hid] at htarget
    obtain ⟨slug, hslug⟩ := Option.isSome_iff_exists.mp (Bool.eq_true_of_not_eq_false fun hf =>
      htarget hf.symm)
    have hknown : ((bySlugOf env store).get? slug).isSome ∨
        slug ∈ result.proposedModes.map (·.slug) := by
      by_contra hnone
      obtain ⟨hnew, hproposed⟩ := not_or.mp hnone
      have hnone : (bySlugOf env store).get? slug = none := by simpa using hnew
      exact hslugs ⟨a, ha, by simpa [unknownSlug, hslug, hnone] using hproposed⟩
    obtain ⟨modeId, hget⟩ := Option.isSome_iff_exists.mp (h.named slug hknown)
    obtain ⟨m, hm, hws, rfl, -⟩ := h.slugs slug modeId hget
    exact ⟨m, hm, hws, by simp [hslug, hget]⟩

theorem assigned_start {acc : Progress} {s : Store}
    (h : Proposed env store result.proposedModes acc s) : Assigned env acc s [] acc s where
  workspaces := rfl
  hypotheses := rfl
  traces _ := Iff.rfl
  modes := rfl
  evidence := rfl
  byId := h.byId
  slugToMode := rfl
  untouched _ := rfl

theorem outcome (result : AnalysisResult) (hfresh : Fresh env store) :
    Outcome env store result ((ingestResult env result).run store) := by
  unfold ingestResult
  by_cases hempty : env.workspaceId = ""
  · rw [if_pos hempty]
    exact .refused _ (.inl hempty)
  rw [if_neg hempty, run_bind, run_query]
  dsimp only
  rw [run_bind, run_query]
  dsimp only
  rw [run_tryQuery_bind]
  by_cases hchecked : Refused env store result
  · cases hcheck : checkReferences result (byIdOf env store) (bySlugOf env store) with
    | ok u => exact absurd hchecked ((checkReferences_eq_ok hempty).mp hcheck)
    | error e => exact .refused e hchecked
  rw [(checkReferences_eq_ok hempty).mpr hchecked]
  dsimp only
  rw [run_bind]
  obtain ⟨acc₁, s₁, hrun₁, hproposed, hmodes⟩ |
      ⟨pre, p, post, acc, s, e, hsplit, h, hgood, hbad, hrun⟩ :=
    proposeAll_run hfresh hempty result.proposedModes proposed_start
  swap
  · rw [hrun]
    exact .noMode e hchecked hsplit h hgood hbad
  rw [hrun₁]
  dsimp only
  rw [run_bind]
  have hresolves := resolves_of_proposed hchecked hproposed
  obtain ⟨acc, s₂, hrun₂, h, hassigned⟩ |
      ⟨pre, a, post, acc, s, e, s', hsplit, h, hgood, hbad, hbody, hrun⟩ :=
    assignAll_run result.assignments hresolves (assigned_start hproposed)
  swap
  · rw [hrun]
    have ha : a ∈ result.assignments := by simp [hsplit]
    exact .noAssignment e hchecked hproposed hmodes hsplit (hresolves a ha) h hgood hbad hbody
  rw [hrun₂]
  dsimp only
  rw [run_bind_pure]
  have hstart : Recorded env store s₂ [] 0 s₂ :=
    ⟨h.workspaces.trans hproposed.workspaces, rfl, rfl, by
      rw [h.hypotheses, hproposed.hypotheses]
      simp, rfl⟩
  obtain ⟨hok, count, s₃, hrun₃, hrecorded⟩ | ⟨hbad, e, hrun⟩ :=
    recordAll_run hfresh hempty result.hypotheses hstart
  · rw [hrun₃]
    exact .completed _ hchecked hproposed hmodes h hassigned hok hrecorded
  · rw [hrun]
    exact .noHypothesis e hchecked hproposed hmodes h hassigned hbad

end Run

/-! ### Rejecting a result whole -/

section Reject
variable (env : Env) (store : Store) (result : AnalysisResult)

/-- The proposals that are new. -/
def newModes : List ProposedMode := result.proposedModes.filter (isNew env store)

/-- Nothing fails: the new modes can be created and their slugs differ, the traces are there, the
quotes can be kept, and the hypotheses can be recorded. -/
def Completes : Prop :=
  ((∀ p ∈ newModes env store result, CreateOk env store p) ∧
      ((newModes env store result).map (·.slug)).Nodup) ∧
    (∀ a ∈ result.assignments, AssignOk env store a) ∧
    (result.hypotheses = [] ∨ RecordOk env store)

/-- The mode of an assignment, where no mode is new. -/
def target (a : Assignment) : Option String :=
  a.modeId.orElse fun _ => (a.newModeSlug.bind (bySlugOf env store).get?).map (·.id)

/-- The trace names the mode already. -/
def Stamped (trace : Trace) (modeId : String) : Prop :=
  ∃ gr, trace.graderResults.find? (fun gr => gr.grader = "error_analysis") = some gr ∧
    modeId ∈ gr.failureModes

/-- An assignment fails before it changes anything: there is no trace, or the quote cannot be kept
and the trace names the mode already. -/
def FailsUnwritten (a : Assignment) : Prop :=
  (¬ ∃ trace, getTrace env.workspaceId a.traceId store.traces = .ok trace) ∨
    ((¬ ∃ quote, routeQuote env a = .ok quote) ∧
      ∃ trace modeId, getTrace env.workspaceId a.traceId store.traces = .ok trace ∧
        target env store a = some modeId ∧ Stamped trace modeId)

/-- The first write is the one that fails. -/
def FailsAtFirst : Prop :=
  match newModes env store result, result.assignments with
  | p :: _, _ => ¬ CreateOk env store p
  | [], a :: _ => FailsUnwritten env store a
  | [], [] => True

end Reject

section RejectLemmas
variable {env : Env} {store : Store} {result : AnalysisResult}

theorem slug_ne_of_isNew {p q : ProposedMode} (hp : isNew env store p = true)
    (hq : isNew env store q = false) : p.slug ≠ q.slug := by
  intro heq
  rw [isNew, heq] at hp
  rw [isNew, hp] at hq
  cases hq

theorem along_proposeOk_from (ps done : List ProposedMode) : Along (ProposeOk env store) done ps ↔
    (∀ p ∈ ps.filter (isNew env store), CreateOk env store p ∧ p.slug ∉ done.map (·.slug)) ∧
      ((ps.filter (isNew env store)).map (·.slug)).Nodup := by
  induction ps generalizing done with
  | nil => simp [Along]
  | cons q ps ih =>
    rw [along_cons, ih]
    cases hq : isNew env store q with
    | false =>
      have hslug : ∀ p ∈ ps.filter (isNew env store),
          (p.slug ∉ (done ++ [q]).map (·.slug) ↔ p.slug ∉ done.map (·.slug)) := by
        intro p hp
        have hne := slug_ne_of_isNew (List.mem_filter.mp hp).2 hq
        simp [hne]
      have hok : ProposeOk env store done q := fun hnew => by simp [hq] at hnew
      rw [List.filter_cons_of_neg (by simp [hq])]
      simp only [hok, true_and]
      refine and_congr_left fun _ => forall₂_congr fun p hp => ?_
      rw [hslug p hp]
    | true =>
      rw [List.filter_cons_of_pos hq, List.map_cons, List.nodup_cons, List.forall_mem_cons]
      have hok : ProposeOk env store done q ↔
          CreateOk env store q ∧ q.slug ∉ done.map (·.slug) := ⟨fun h => h hq, fun h _ => h⟩
      rw [hok]
      constructor
      · rintro ⟨hcreate, hall, hnodup⟩
        refine ⟨⟨hcreate, fun p hp => ⟨(hall p hp).1, fun hmem => (hall p hp).2 ?_⟩⟩, ?_, hnodup⟩
        · rw [List.map_append]
          exact List.mem_append_left _ hmem
        · intro hmem
          obtain ⟨p, hp, heq⟩ := List.mem_map.mp hmem
          exact (hall p hp).2 (by simp [heq])
      · rintro ⟨⟨hcreate, hall⟩, hnew, hnodup⟩
        refine ⟨hcreate, fun p hp => ⟨(hall p hp).1, fun hmem => ?_⟩, hnodup⟩
        rw [List.map_append, List.mem_append] at hmem
        obtain hmem | hmem := hmem
        · exact (hall p hp).2 hmem
        · exact hnew (List.mem_map.mpr ⟨p, hp, by simpa using hmem⟩)

theorem along_proposeOk {ps : List ProposedMode} : Along (ProposeOk env store) [] ps ↔
    (∀ p ∈ ps.filter (isNew env store), CreateOk env store p) ∧
      ((ps.filter (isNew env store)).map (·.slug)).Nodup := by
  rw [along_proposeOk_from]
  simp

theorem extendGrader_eq_some {grs : List GraderResult} {grader modeId : String} :
    extendGrader grader modeId grs = some grs ↔
      ∃ gr, grs.find? (fun gr => gr.grader = grader) = some gr ∧ modeId ∈ gr.failureModes := by
  induction grs with
  | nil => simp [extendGrader]
  | cons gr grs ih =>
    unfold extendGrader
    by_cases hgrader : gr.grader = grader
    · by_cases hmem : modeId ∈ gr.failureModes
      · simp [hgrader, hmem]
      · have hne : gr.failureModes ++ [modeId] ≠ gr.failureModes := by simp
        simp only [hgrader, hmem, if_true, if_false, List.find?_cons, decide_true]
        refine iff_of_false (fun h => ?_) ?_
        · have hgr := (List.cons.inj (Option.some.inj h)).1
          exact hne (congrArg (·.failureModes) hgr)
        · rintro ⟨gr', hgr', hmem'⟩
          exact hmem (Option.some.inj hgr' ▸ hmem')
    · simp only [hgrader, if_false, List.find?_cons, decide_false]
      rw [← ih]
      cases extendGrader grader modeId grs <;> simp

theorem stampMode_eq_self {trace : Trace} {modeId : String} :
    stampMode trace modeId "error_analysis" = trace ↔ Stamped trace modeId := by
  unfold Stamped
  rw [← extendGrader_eq_some]
  have hiff : stampMode trace modeId "error_analysis" = trace ↔
      (stampMode trace modeId "error_analysis").graderResults = trace.graderResults := by
    constructor
    · exact congrArg Trace.graderResults
    · intro h
      have : stampMode trace modeId "error_analysis" = { trace with graderResults :=
        (stampMode trace modeId "error_analysis").graderResults } := rfl
      rw [this, h]
  rw [hiff]
  unfold stampMode
  cases hextend : extendGrader "error_analysis" modeId trace.graderResults with
  | some grs => simp
  | none => simp

theorem store_eq {s s' : Store} (hworkspaces : s.workspaces = s'.workspaces)
    (hmodes : s.modes.rows = s'.modes.rows) (htraces : s.traces.rows = s'.traces.rows)
    (hhypotheses : s.hypotheses = s'.hypotheses) : s = s' := by
  obtain ⟨workspaces, ⟨⟨modes, hids⟩, hslugs⟩, ⟨traces, htids⟩, hypotheses⟩ := s
  obtain ⟨workspaces', ⟨⟨modes', hids'⟩, hslugs'⟩, ⟨traces', htids'⟩, hypotheses'⟩ := s'
  obtain rfl : workspaces = workspaces' := hworkspaces
  obtain rfl : modes = modes' := hmodes
  obtain rfl : traces = traces' := htraces
  obtain rfl : hypotheses = hypotheses' := hhypotheses
  rfl

theorem created_eq_nil {done : List ProposedMode} :
    created env store done = [] ↔ done.filter (isNew env store) = [] := by
  simp [created]

theorem eq_store_of_proposed {done : List ProposedMode} {acc : Progress} {s : Store}
    (h : Proposed env store done acc s) (hnone : done.filter (isNew env store) = []) :
    s = store := by
  refine store_eq h.workspaces ?_ (by rw [h.traces]) h.hypotheses
  rw [h.rows, created_eq_nil.mpr hnone, List.append_nil]

theorem length_of_proposed {done : List ProposedMode} {acc : Progress} {s : Store}
    (h : Proposed env store done acc s) :
    s.modes.rows.length = store.modes.rows.length + (done.filter (isNew env store)).length := by
  rw [h.rows, List.length_append, created, List.length_mapIdx]

theorem length_of_assigned {acc₁ acc : Progress} {s₁ s : Store} {done : List Assignment}
    (h : Assigned env acc₁ s₁ done acc s) : s.modes.rows.length = s₁.modes.rows.length := by
  simpa using congrArg List.length h.modes

theorem assignOk_of_proposed {done : List ProposedMode} {acc : Progress} {s : Store}
    (h : Proposed env store done acc s) (a : Assignment) :
    AssignOk env s a ↔ AssignOk env store a := by
  unfold AssignOk
  rw [h.traces]

theorem modes_of_failed {acc₁ acc : Progress} {s₁ s s' : Store} {done : List Assignment}
    {a : Assignment} {e : IngestError} (h : Assigned env acc₁ s₁ done acc s)
    (ha : Resolves env acc₁ s₁ a) (hbad : ¬ AssignOk env s₁ a)
    (hbody : (applyAssignment env acc a).run s = (.error e, s')) : s'.modes = s.modes := by
  by_cases hfound : ∃ trace, getTrace env.workspaceId a.traceId s.traces = .ok trace
  · have hquote : ¬ ∃ quote, routeQuote env a = .ok quote := fun hquote =>
      hbad ⟨(h.traces a.traceId).mp hfound, hquote⟩
    obtain ⟨trace, htrace⟩ := hfound
    obtain ⟨e', modeId, traces, -, hrun, -⟩ := applyAssignment_noQuote h ha htrace hquote
    rw [hbody] at hrun
    rw [(Prod.mk.inj hrun).2]
  · obtain ⟨e', hrun⟩ := applyAssignment_noTrace h ha hfound
    rw [hbody] at hrun
    rw [(Prod.mk.inj hrun).2]

theorem target_eq {acc : Progress} {s : Store} {a : Assignment}
    (h : Proposed env store result.proposedModes acc s)
    (hnone : newModes env store result = []) (ha : Resolves env acc s a) :
    target env store a = resolve acc a := by
  obtain ⟨m, hm, hws, hres⟩ := ha
  have heq := eq_store_of_proposed h hnone
  rw [hres]
  unfold target
  unfold resolve at hres
  cases hid : a.modeId with
  | some modeId => simpa [hid] using hres
  | none =>
    rw [hid] at hres
    obtain ⟨slug, hslug, hget⟩ := Option.bind_eq_some_iff.mp hres
    obtain ⟨m', hm', hws', hid', hslug'⟩ := h.slugs slug m.id hget
    rw [heq] at hm'
    have hknown : (bySlugOf env store).get? slug = some m' := get?_bySlugOf.mpr ⟨hm', hws', hslug'⟩
    simp [hslug, hknown, hid']

theorem failsUnwritten_iff {acc₁ acc : Progress} {s s' : Store} {a : Assignment} {e : IngestError}
    (h : Assigned env acc₁ s [] acc s) (ha : Resolves env acc₁ s a) (hbad : ¬ AssignOk env s a)
    (htarget : target env s a = resolve acc₁ a)
    (hbody : (applyAssignment env acc a).run s = (.error e, s')) :
    s' = s ↔ FailsUnwritten env s a := by
  have hresolve : target env s a = resolve acc a := by
    rw [htarget]
    unfold resolve
    rw [h.slugToMode]
  unfold FailsUnwritten
  by_cases hfound : ∃ trace, getTrace env.workspaceId a.traceId s.traces = .ok trace
  · have hquote : ¬ ∃ quote, routeQuote env a = .ok quote := fun hquote => hbad ⟨hfound, hquote⟩
    obtain ⟨trace, htrace⟩ := hfound
    obtain ⟨hrow, hid, hws⟩ := getTrace_eq_ok.mp htrace
    obtain ⟨e', modeId, traces, hres, hrun, hrows⟩ := applyAssignment_noQuote h ha htrace hquote
    rw [hbody] at hrun
    obtain ⟨-, rfl⟩ := Prod.mk.inj hrun
    have hstamped : ({ s with traces } : Store) = s ↔ Stamped trace modeId := by
      rw [← stampMode_eq_self]
      constructor
      · intro heq
        have htraces : traces.rows = s.traces.rows := congrArg (fun s => s.traces.rows) heq
        rw [hrows] at htraces
        have hmem : stampMode trace modeId "error_analysis" ∈ s.traces.rows := by
          rw [← htraces]
          exact List.mem_map.mpr ⟨trace, hrow, if_pos rfl⟩
        exact List.inj_on_of_nodup_map s.traces.ids_nodup hmem hrow rfl
      · intro hstamp
        refine store_eq rfl rfl (hrows.trans ?_) rfl
        refine (List.map_congr_left fun r hr => ?_).trans (List.map_id _)
        split_ifs with hr'
        · rw [hstamp]
          exact (List.inj_on_of_nodup_map s.traces.ids_nodup hr hrow hr').symm
        · rfl
    rw [hstamped]
    constructor
    · exact fun hst => .inr ⟨hquote, trace, modeId, htrace, hresolve.trans hres, hst⟩
    · rintro (hnone | ⟨-, trace', modeId', htrace', hres', hst⟩)
      · exact absurd ⟨trace, htrace⟩ hnone
      · rw [htrace] at htrace'
        obtain rfl := Except.ok.inj htrace'
        rw [hresolve, hres] at hres'
        obtain rfl := Option.some.inj hres'
        exact hst
  · obtain ⟨e', hrun⟩ := applyAssignment_noTrace h ha hfound
    rw [hbody] at hrun
    exact iff_of_true (Prod.mk.inj hrun).2 (.inl hfound)

theorem not_failsUnwritten {a : Assignment} (h : AssignOk env store a) :
    ¬ FailsUnwritten env store a := by
  rintro (hnone | ⟨hquote, -⟩)
  · exact hnone h.1
  · exact hquote h.2

theorem changed_of_assigned {acc₁ acc : Progress} {s₁ s s' : Store} {done : List Assignment}
    (hproposed : Proposed env store result.proposedModes acc₁ s₁)
    (h : Assigned env acc₁ s₁ done acc s) (hmodes : s'.modes = s.modes)
    (hwritten : newModes env store result ≠ [] ∨ done ≠ []) : s' ≠ store := by
  rintro rfl
  have hlength := length_of_proposed hproposed
  rw [← length_of_assigned h, hmodes, left_eq_add, List.length_eq_zero_iff] at hlength
  have heq := eq_store_of_proposed hproposed hlength
  have hevidence := h.evidence
  rw [heq] at hevidence
  unfold evidence at hevidence
  rw [hmodes, left_eq_add, List.length_eq_zero_iff] at hevidence
  exact hwritten.elim (· hlength) (· hevidence)

theorem completes_iff {r : Except IngestError IngestSummary × Store}
    (hout : Outcome env store result r) (hchecked : ¬ Refused env store result) :
    (∃ summary, r.1 = .ok summary) ↔ Completes env store result := by
  cases hout with
  | refused e hrefused => exact absurd hrefused hchecked
  | @noMode pre post p acc s e hchecked hsplit h hgood hbad =>
    refine iff_of_false (fun ⟨summary, hok⟩ => nomatch hok) fun hc => ?_
    exact hbad (along_proposeOk.mpr hc.1 pre p post hsplit)
  | @noAssignment acc₁ acc s₁ s s' pre post a e hchecked hproposed hmodes hsplit ha h hgood hbad
      hbody =>
    refine iff_of_false (fun ⟨summary, hok⟩ => nomatch hok) fun hc => ?_
    exact hbad ((assignOk_of_proposed hproposed a).mpr (hc.2.1 a (by simp [hsplit])))
  | noHypothesis e hchecked hproposed hmodes h hassigned hbad =>
    exact iff_of_false (fun ⟨summary, hok⟩ => nomatch hok) fun hc => hc.2.2.elim hbad.1 hbad.2
  | completed summary hchecked hproposed hmodes h hassigned hok hrecorded =>
    refine iff_of_true ⟨summary, rfl⟩ ⟨along_proposeOk.mp hmodes, fun a ha => ?_, hok⟩
    exact (assignOk_of_proposed hproposed a).mp (hassigned a ha)

/-- The modes come first: one that cannot be created stops an ingest that has made those before. -/
theorem unwritten_iff_of_noMode {pre post : List ProposedMode} {p : ProposedMode} {acc : Progress}
    {s : Store} (hsplit : result.proposedModes = pre ++ p :: post)
    (h : Proposed env store pre acc s)
    (hgood : Along (ProposeOk env store) [] pre) (hbad : ¬ ProposeOk env store pre p) :
    s = store ↔ FailsAtFirst env store result := by
  obtain ⟨hnew, hcreate⟩ := Classical.not_imp.mp hbad
  have hnewModes : newModes env store result =
      pre.filter (isNew env store) ++ p :: post.filter (isNew env store) := by
    unfold newModes
    rw [hsplit, List.filter_append, List.filter_cons_of_pos hnew]
  unfold FailsAtFirst
  rw [hnewModes]
  by_cases hnone : pre.filter (isNew env store) = []
  · refine iff_of_true (eq_store_of_proposed h hnone) ?_
    rw [hnone]
    intro hok
    obtain ⟨q, hq, hslug⟩ := List.mem_map.mp (not_not.mp fun hmem => hcreate ⟨hok, hmem⟩)
    have hqnew : isNew env store q = true := by rw [isNew, hslug]; exact hnew
    exact List.filter_eq_nil_iff.mp hnone q hq hqnew
  · obtain ⟨q, qs, hq⟩ := List.exists_cons_of_ne_nil hnone
    refine iff_of_false (fun hsame => ?_) ?_
    · have hlength := length_of_proposed h
      rw [hsame] at hlength
      have := List.length_pos_iff.mpr hnone
      omega
    · rw [hq]
      exact not_not.mpr ((along_proposeOk.mp hgood).1 q (by simp [hq]))

/-- After a first write that was good, the store has changed. -/
theorem unwritten_iff_of_written {acc₁ acc : Progress} {s₁ s s' : Store}
    {done rest : List Assignment}
    (hproposed : Proposed env store result.proposedModes acc₁ s₁)
    (hmodes : Along (ProposeOk env store) [] result.proposedModes)
    (hsplit : result.assignments = done ++ rest) (h : Assigned env acc₁ s₁ done acc s)
    (hgood : ∀ a ∈ done, AssignOk env s₁ a) (hsame : s'.modes = s.modes)
    (hwritten : newModes env store result ≠ [] ∨ done ≠ []) :
    s' = store ↔ FailsAtFirst env store result := by
  refine iff_of_false (changed_of_assigned hproposed h hsame hwritten) ?_
  unfold FailsAtFirst
  cases hnew : newModes env store result with
  | cons p ps =>
    refine not_not.mpr ((along_proposeOk.mp hmodes).1 p ?_)
    rw [← newModes, hnew]
    exact List.mem_cons_self
  | nil =>
    obtain ⟨b, bs, rfl⟩ := List.exists_cons_of_ne_nil (hwritten.resolve_left (· hnew))
    rw [hsplit]
    exact not_failsUnwritten ((assignOk_of_proposed hproposed b).mp (hgood b List.mem_cons_self))

theorem unwritten_iff_of_noAssignment {acc₁ acc : Progress} {s₁ s s' : Store}
    {pre post : List Assignment} {a : Assignment} {e : IngestError}
    (hproposed : Proposed env store result.proposedModes acc₁ s₁)
    (hmodes : Along (ProposeOk env store) [] result.proposedModes)
    (hsplit : result.assignments = pre ++ a :: post) (ha : Resolves env acc₁ s₁ a)
    (h : Assigned env acc₁ s₁ pre acc s) (hgood : ∀ a ∈ pre, AssignOk env s₁ a)
    (hbad : ¬ AssignOk env s₁ a) (hbody : (applyAssignment env acc a).run s = (.error e, s')) :
    s' = store ↔ FailsAtFirst env store result := by
  by_cases hwritten : newModes env store result ≠ [] ∨ pre ≠ []
  · exact unwritten_iff_of_written hproposed hmodes hsplit h hgood (modes_of_failed h ha hbad hbody)
      hwritten
  · obtain ⟨hnew, hnil⟩ := not_or.mp hwritten
    rw [not_not] at hnew hnil
    subst hnil
    obtain rfl := h.untouched rfl
    have htarget := target_eq hproposed hnew ha
    obtain rfl := eq_store_of_proposed hproposed hnew
    unfold FailsAtFirst
    rw [hnew, hsplit]
    exact failsUnwritten_iff h ha hbad htarget hbody

theorem unwritten_iff_of_noHypothesis {acc₁ acc : Progress} {s₁ s : Store}
    (hproposed : Proposed env store result.proposedModes acc₁ s₁)
    (hmodes : Along (ProposeOk env store) [] result.proposedModes)
    (h : Assigned env acc₁ s₁ result.assignments acc s)
    (hgood : ∀ a ∈ result.assignments, AssignOk env s₁ a) :
    s = store ↔ FailsAtFirst env store result := by
  by_cases hwritten : newModes env store result ≠ [] ∨ result.assignments ≠ []
  · exact unwritten_iff_of_written hproposed hmodes (List.append_nil _).symm h hgood rfl hwritten
  · obtain ⟨hnew, hnil⟩ := not_or.mp hwritten
    rw [not_not] at hnew hnil
    unfold FailsAtFirst
    rw [hnew, hnil]
    exact iff_of_true ((h.untouched hnil).trans (eq_store_of_proposed hproposed hnew)) trivial

end RejectLemmas

section RejectsWhole
variable {env : Env} {store : Store} {result : AnalysisResult}

/-- **When a result is rejected whole**: an ingest that raises leaves the store as it was exactly
when it is refused, nothing fails, or what fails is the first write. -/
theorem rejectsWhole_iff (hfresh : Fresh env store) :
    ((∃ e, ((ingestResult env result).run store).1 = .error e) →
        ((ingestResult env result).run store).2 = store) ↔
      Refused env store result ∨ Completes env store result ∨ FailsAtFirst env store result := by
  have hout := outcome result hfresh
  generalize (ingestResult env result).run store = r at hout ⊢
  by_cases hchecked : Refused env store result
  · cases hout with
    | refused e hrefused => exact iff_of_true (fun _ => rfl) (.inl hrefused)
    | _ => contradiction
  have hcompletes := completes_iff hout hchecked
  rw [or_iff_right hchecked]
  -- an ingest that raises does not complete
  have hraises : ∀ (e : IngestError) (s : Store), r = (.error e, s) →
      (s = store ↔ FailsAtFirst env store result) →
      (((∃ e, r.1 = .error e) → r.2 = store) ↔
        Completes env store result ∨ FailsAtFirst env store result) := by
    rintro e s rfl hunwritten
    have hincomplete : ¬ Completes env store result := by
      rw [← hcompletes]
      rintro ⟨summary, hok⟩
      cases hok
    rw [or_iff_right hincomplete, ← hunwritten]
    exact ⟨fun hsame => hsame ⟨e, rfl⟩, fun hsame _ => hsame⟩
  cases hout with
  | refused e hrefused => exact absurd hrefused hchecked
  | noMode e _ hsplit h hgood hbad =>
    exact hraises e _ rfl (unwritten_iff_of_noMode hsplit h hgood hbad)
  | noAssignment e _ hproposed hmodes hsplit ha h hgood hbad hbody =>
    exact hraises e _ rfl
      (unwritten_iff_of_noAssignment hproposed hmodes hsplit ha h hgood hbad hbody)
  | noHypothesis e _ hproposed hmodes h hassigned _ =>
    exact hraises e _ rfl (unwritten_iff_of_noHypothesis hproposed hmodes h hassigned)
  | completed summary _ _ _ _ _ _ _ =>
    refine iff_of_true ?_ (.inl (hcompletes.mp ⟨summary, rfl⟩))
    rintro ⟨e, he⟩
    cases he

/-- An environment whose ids are counted. -/
def exampleEnv : Env where
  workspaceId := "ws_1"
  experimentId := "exp_1"
  newMode k := ⟨String.ofList ('m' :: List.replicate k '0'), 0, 0⟩
  newHypothesis k := ⟨String.ofList ('h' :: List.replicate k '0'), 0, 0⟩
  bytesHash _ := "sha256:"

/-- A workspace with nothing in it. -/
def emptyStore : Store where
  workspaces := ["ws_1"]
  modes := { Table.empty with slugs_nodup := List.nodup_nil }
  traces := Table.empty
  hypotheses := Table.empty

theorem fresh_exampleEnv : Fresh exampleEnv emptyStore where
  modeId_injective j k h := by
    have hlength := congrArg String.length h
    simpa [exampleEnv] using hlength
  modeId k := by
    refine ⟨fun hempty => ?_, rfl⟩
    have hlength := congrArg String.length hempty
    simp [exampleEnv] at hlength
  hypothesisId_injective j k h := by
    have hlength := congrArg String.length h
    simpa [exampleEnv] using hlength
  hypothesisId k := by
    refine ⟨fun hempty => ?_, rfl⟩
    have hlength := congrArg String.length hempty
    simp [exampleEnv] at hlength

/-- A proposal of a mode. -/
def proposal (slug : String) (parentSlug : Option String) (h : NonEmpty slug) : ProposedMode where
  slug := slug
  title := "Invented price"
  definition := "The agent states a price that is not in the catalogue."
  parentSlug := parentSlug
  nonEmpty := ⟨h, by decide, by decide⟩

/-- A first proposal that cannot be created. -/
theorem rejectsWhole_iff_badSlug : Fresh exampleEnv emptyStore ∧
    ((∃ e, ((ingestResult exampleEnv
        { proposedModes := [proposal "Invented" none (by decide)] }).run emptyStore).1 = .error e) →
      ((ingestResult exampleEnv
        { proposedModes :=
          [proposal "Invented" none (by decide)] }).run emptyStore).2 = emptyStore) := by
  refine ⟨fresh_exampleEnv, (rejectsWhole_iff fresh_exampleEnv).mpr (.inr (.inr ?_))⟩
  show ¬ CreateOk exampleEnv emptyStore (proposal "Invented" none (by decide))
  decide

/-- A new mode, and an assignment to it of a trace that does not exist. -/
def missingTrace : AnalysisResult where
  proposedModes := [proposal "invented_price" none (by decide)]
  assignments := [{
    traceId := "tr_1"
    newModeSlug := some "invented_price"
    traceId_nonEmpty := by decide
    exactlyOneTarget := by decide }]

/-- The mode stays. -/
theorem missingTrace_keeps_mode :
    (∃ e, ((ingestResult exampleEnv missingTrace).run emptyStore).1 = .error e) ∧
      ((ingestResult exampleEnv missingTrace).run emptyStore).2 ≠ emptyStore := by
  have hraises : ((ingestResult exampleEnv missingTrace).run emptyStore).1 =
      .error (.storage (.entityNotFound "tr_1" "ws_1")) := by decide +kernel
  have hlength :
    ((ingestResult exampleEnv missingTrace).run emptyStore).2.modes.rows.length = 1 := by
    decide +kernel
  refine ⟨⟨_, hraises⟩, fun heq => ?_⟩
  rw [heq] at hlength
  exact nomatch hlength

end RejectsWhole

/-! ### One mode for each slug -/

section Ingested
variable (env : Env) (store : Store) (result : AnalysisResult)

/-- The parent that a new mode names is known, or is not proposed either. -/
def ParentsKnown : Prop :=
  ∀ p ∈ newModes env store result, ∀ slug ∈ p.parentSlug,
    slug ∈ result.proposedModes.map (·.slug) → ((bySlugOf env store).get? slug).isSome

/-- A mode of the workspace with a slug. -/
def HasSlug (s : Store) (slug : String) (m : FailureMode) : Prop :=
  m ∈ s.modes.rows ∧ m.workspaceId = env.workspaceId ∧ m.slug = slug

/-- What an ingest is to leave: one mode for each slug, the new ones under their parents, and
nothing that the same result would add. -/
structure Ingested (s : Store) : Prop where
  one : ∀ p ∈ result.proposedModes, ∃! m, HasSlug env s p.slug m
  parent : ∀ p ∈ newModes env store result, ∀ slug ∈ p.parentSlug,
    ((bySlugOf env store).get? slug).isSome ∨ slug ∈ result.proposedModes.map (·.slug) →
    ∀ m, HasSlug env s p.slug m →
      ∃ parent, HasSlug env s slug parent ∧ m.parentModeId = some parent.id
  again : ∀ env', env'.workspaceId = env.workspaceId → Fresh env' s →
    ((ingestResult env' result).run s).2.modes.rows.map (·.id) = s.modes.rows.map (·.id)

end Ingested

section Idempotent
variable {env : Env} {store : Store} {result : AnalysisResult}

theorem ids_of_noNewModes (hfresh : Fresh env store) (hnone : newModes env store result = []) :
    ((ingestResult env result).run store).2.modes.rows.map (·.id) =
      store.modes.rows.map (·.id) := by
  have hids : ∀ {acc₁ acc s₁ s done}, Proposed env store result.proposedModes acc₁ s₁ →
      Assigned env acc₁ s₁ done acc s → s.modes.rows.map (·.id) = store.modes.rows.map (·.id) := by
    intro acc₁ acc s₁ s done hproposed h
    have hbare := congrArg (List.map fun m : FailureMode => m.id) h.modes
    rw [List.map_map, List.map_map, eq_store_of_proposed hproposed hnone] at hbare
    exact hbare
  have hout := outcome result hfresh
  generalize (ingestResult env result).run store = r at hout ⊢
  cases hout with
  | refused e hrefused => rfl
  | noMode e hchecked hsplit h hgood hbad =>
    unfold newModes at hnone
    rw [hsplit, List.filter_append, List.append_eq_nil_iff] at hnone
    rw [eq_store_of_proposed h hnone.1]
  | noAssignment e hchecked hproposed hmodes hsplit ha h hgood hbad hbody =>
    rw [modes_of_failed h ha hbad hbody]
    exact hids hproposed h
  | noHypothesis e hchecked hproposed hmodes h hassigned hbad => exact hids hproposed h
  | completed summary hchecked hproposed hmodes h hassigned hok hrecorded =>
    rw [hrecorded.modes]
    exact hids hproposed h

theorem bare_hasSlug {s : Store} {m m' : FailureMode} {slug : String} (hm' : m' ∈ s.modes.rows)
    (heq : bare m' = bare m) (hws : m.workspaceId = env.workspaceId) (hslug : m.slug = slug) :
    HasSlug env s slug m' :=
  ⟨hm', (congrArg (·.workspaceId) heq).trans hws, (congrArg (·.slug) heq).trans hslug⟩

section Completed
variable {s : Store} (hnodup : ((newModes env store result).map (·.slug)).Nodup)
  (hbare : s.modes.rows.map bare =
    (store.modes.rows ++ created env store result.proposedModes).map bare)
include hbare

theorem exists_of_bare {m : FailureMode}
    (hm : m ∈ store.modes.rows ++ created env store result.proposedModes) :
    ∃ m' ∈ s.modes.rows, bare m' = bare m := by
  have hmem : bare m ∈ s.modes.rows.map bare := by
    rw [hbare]
    exact List.mem_map_of_mem hm
  exact List.mem_map.mp hmem

theorem hasSlug_of_proposed {p : ProposedMode} (hp : p ∈ result.proposedModes) :
    ∃! m, HasSlug env s p.slug m := by
  obtain ⟨m, hm, hws, hslug⟩ : ∃ m ∈ store.modes.rows ++ created env store result.proposedModes,
      m.workspaceId = env.workspaceId ∧ m.slug = p.slug := by
    cases hnew : isNew env store p with
    | false =>
      have hsome : ((bySlugOf env store).get? p.slug).isSome = true := by simpa [isNew] using hnew
      obtain ⟨m, hm⟩ := Option.isSome_iff_exists.mp hsome
      obtain ⟨hrow, hws, hslug⟩ := get?_bySlugOf.mp hm
      exact ⟨m, List.mem_append_left _ hrow, hws, hslug⟩
    | true =>
      have hmem : p.slug ∈ (created env store result.proposedModes).map (·.slug) := by
        rw [map_slug_created]
        exact List.mem_map_of_mem (List.mem_filter.mpr ⟨hp, hnew⟩)
      obtain ⟨m, hm, hslug⟩ := List.mem_map.mp hmem
      exact ⟨m, List.mem_append_right _ hm, workspaceId_created hm, hslug⟩
  obtain ⟨m', hm', heq⟩ := exists_of_bare hbare hm
  refine ⟨m', bare_hasSlug hm' heq hws hslug, fun m'' hm'' => ?_⟩
  refine List.inj_on_of_nodup_map s.modes.slugs_nodup hm''.1 hm' ?_
  have hother := bare_hasSlug hm' heq hws hslug
  rw [hm''.2.1, hm''.2.2, hother.2.1, hother.2.2]

include hnodup in
theorem parentModeId_of_new {p : ProposedMode} (hp : p ∈ newModes env store result)
    {m : FailureMode}
    (hm : HasSlug env s p.slug m) :
    m.parentModeId = (p.parentSlug.bind (bySlugOf env store).get?).map (·.id) := by
  obtain ⟨hrow, hws, hslug⟩ := hm
  have hmem : bare m ∈ (store.modes.rows ++ created env store result.proposedModes).map bare := by
    rw [← hbare]
    exact List.mem_map_of_mem hrow
  obtain ⟨m₁, hm₁, heq⟩ := List.mem_map.mp hmem
  have hws₁ : m₁.workspaceId = env.workspaceId := (congrArg (·.workspaceId) heq).trans hws
  have hslug₁ : m₁.slug = p.slug := (congrArg (·.slug) heq).trans hslug
  obtain hold | hcreated := List.mem_append.mp hm₁
  · have hnone := (List.mem_filter.mp hp).2
    rw [isNew, get?_bySlugOf.mpr ⟨hold, hws₁, hslug₁⟩] at hnone
    cases hnone
  · obtain ⟨k, hk, rfl⟩ := mem_created.mp hcreated
    have hq : (result.proposedModes.filter (isNew env store))[k] = p :=
      List.inj_on_of_nodup_map hnodup (List.getElem_mem hk) hp hslug₁
    have hparent : m.parentModeId = _ := congrArg (·.parentModeId) heq.symm
    rw [hparent, hq]
    rfl

end Completed

/-- **When an ingest keeps one mode for each slug**: exactly when nothing fails, and no parent of a
new mode is only proposed. -/
theorem ingested_iff (hfresh : Fresh env store) (hchecked : ¬ Refused env store result) :
    (∃ summary s, (ingestResult env result).run store = (.ok summary, s) ∧
        Ingested env store result s) ↔
      Completes env store result ∧ ParentsKnown env store result := by
  have hout := outcome result hfresh
  have hcompletes := completes_iff hout hchecked
  rw [← hcompletes]
  generalize (ingestResult env result).run store = r at hout ⊢
  cases hout with
  | @completed acc₁ acc s₁ s₂ s count summary _ hproposed hmodes h hassigned hok hrecorded =>
    have hnodup := (along_proposeOk.mp hmodes).2
    have hbare : s.modes.rows.map bare =
        (store.modes.rows ++ created env store result.proposedModes).map bare := by
      rw [hrecorded.modes, h.modes, hproposed.rows]
    constructor
    · rintro ⟨summary', s', heq, hingested⟩
      obtain ⟨-, rfl⟩ := Prod.mk.inj heq
      refine ⟨⟨summary, rfl⟩, fun p hp slug hslug hmem => ?_⟩
      obtain ⟨m, hm, -⟩ := hingested.one p (List.mem_of_mem_filter hp)
      obtain ⟨parent, -, hparent⟩ := hingested.parent p hp slug hslug (.inr hmem) m hm
      rw [parentModeId_of_new hnodup hbare hp hm, hslug, Option.bind_some] at hparent
      by_contra hnone
      simp only [Bool.not_eq_true, Option.isSome_eq_false_iff, Option.isNone_iff_eq_none] at hnone
      rw [hnone] at hparent
      cases hparent
    · rintro ⟨-, hparents⟩
      refine ⟨summary, s, rfl, fun p hp => hasSlug_of_proposed hbare hp, ?_, ?_⟩
      · intro p hp slug hslug hnamed m hm
        have hknown := hnamed.elim id (hparents p hp slug hslug)
        obtain ⟨q, hq⟩ := Option.isSome_iff_exists.mp hknown
        obtain ⟨hrow, hws, hqslug⟩ := get?_bySlugOf.mp hq
        obtain ⟨q', hq', heq⟩ := exists_of_bare hbare (List.mem_append_left _ hrow)
        refine ⟨q', bare_hasSlug hq' heq hws hqslug, ?_⟩
        have hid : q'.id = q.id := congrArg (·.id) heq
        rw [parentModeId_of_new hnodup hbare hp hm, hslug, Option.bind_some, hq, hid]
        rfl
      · intro env' henv hfresh'
        refine ids_of_noNewModes hfresh' (List.filter_eq_nil_iff.mpr fun p hp hnew => ?_)
        obtain ⟨m, ⟨hm, hws, hslug⟩, -⟩ := hasSlug_of_proposed hbare hp
        rw [isNew, get?_bySlugOf.mpr ⟨hm, hws.trans henv.symm, hslug⟩] at hnew
        cases hnew
  | _ =>
    refine iff_of_false ?_ ?_
    · rintro ⟨summary, s, heq, -⟩
      cases (Prod.mk.inj heq).1
    · rintro ⟨⟨summary, heq⟩, -⟩
      cases heq

theorem not_refused {result : AnalysisResult} (h : result.assignments = []) :
    ¬ Refused exampleEnv emptyStore result := by
  rintro (hempty | ⟨a, ha, -⟩ | ⟨a, ha, -⟩)
  · exact absurd hempty (by decide)
  · simp [h] at ha
  · simp [h] at ha

/-- Two modes. -/
def twoModes : AnalysisResult where
  proposedModes :=
    [proposal "invented_price" none (by decide), proposal "wrong_tone" none (by decide)]

theorem ingested_iff_twoModes :
    ∃ summary s, (ingestResult exampleEnv twoModes).run emptyStore = (.ok summary, s) ∧
      Ingested exampleEnv emptyStore twoModes s :=
  (ingested_iff fresh_exampleEnv (not_refused rfl)).mpr
    ⟨⟨⟨by decide +kernel, by decide +kernel⟩, by simp [twoModes], .inl rfl⟩, by
      intro p hp slug hslug
      simp only [newModes, twoModes, List.mem_filter, List.mem_cons, List.not_mem_nil,
        or_false] at hp
      obtain ⟨rfl | rfl, -⟩ := hp <;> simp [proposal] at hslug⟩

/-- One mode, proposed twice. -/
def slugTwice : AnalysisResult where
  proposedModes :=
    [proposal "invented_price" none (by decide), proposal "invented_price" none (by decide)]

/-- The second proposal raises. -/
theorem slugTwice_raises : ¬ Refused exampleEnv emptyStore slugTwice ∧
    ¬ ∃ summary s, (ingestResult exampleEnv slugTwice).run emptyStore = (.ok summary, s) ∧
      Ingested exampleEnv emptyStore slugTwice s := by
  refine ⟨not_refused rfl, ?_⟩
  rintro ⟨summary, s, hrun, -⟩
  have hraises : ((ingestResult exampleEnv slugTwice).run emptyStore).1 =
      .error (.slugTaken "invented_price") := by decide +kernel
  rw [hrun] at hraises
  exact nomatch hraises

end Idempotent

end Selfevals.Analysis.IngestLaws
