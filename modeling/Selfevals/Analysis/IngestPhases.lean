import Selfevals.Analysis.Ingest

/-!
# The loops of an ingest

Each of the three loops keeps what `Proposed`, `Assigned` and `Recorded` say, and raises exactly
where `ProposeOk`, `AssignOk` and `RecordOk` fail.

* `proposeAll_run`, `assignAll_run`, `recordAll_run`: a loop goes through, or stops at the first
  element that fails.
-/

namespace Selfevals.Analysis.IngestPhases

open Lib.Effects Lib.Mapping Schemas.Base Schemas.Experiments Schemas.FailureModes
  Schemas.TraceRecords Storage Storage.Entity Storage.Tables Analysis.Ingest

/-! ### The modes -/

/-- The ids that are drawn are new, and none is drawn twice. -/
structure Fresh (env : Env) (store : Store) : Prop where
  modeId_injective : Function.Injective fun k => (env.newMode k).id
  modeId : ∀ k, NonEmpty (env.newMode k).id ∧ store.modes.find? (env.newMode k).id = none
  hypothesisId_injective : Function.Injective fun k => (env.newHypothesis k).id
  hypothesisId : ∀ k, NonEmpty (env.newHypothesis k).id ∧
    store.hypotheses.find? (env.newHypothesis k).id = none

section Propose
variable (env : Env) (store : Store)

/-- A proposal whose slug no mode of the workspace has. -/
def isNew (p : ProposedMode) : Bool := ((bySlugOf env store).get? p.slug).isNone

/-- The modes that the proposals create. -/
def created (done : List ProposedMode) : List FailureMode :=
  (done.filter (isNew env store)).mapIdx (candidateMode env (bySlugOf env store))

/-- A new mode of the proposal is a valid record of a workspace. -/
def CreateOk (p : ProposedMode) : Prop :=
  slugPattern p.slug = true ∧ NonEmpty env.proposedBy ∧ env.workspaceId ∈ store.workspaces
deriving Decidable

/-- A round goes through: the mode exists, or it can be created and its slug was not proposed
before. -/
def ProposeOk (done : List ProposedMode) (p : ProposedMode) : Prop :=
  isNew env store p = true → CreateOk env store p ∧ p.slug ∉ done.map (·.slug)

/-- The state after some rounds. -/
structure Proposed (done : List ProposedMode) (acc : Progress) (s : Store) : Prop where
  workspaces : s.workspaces = store.workspaces
  traces : s.traces = store.traces
  hypotheses : s.hypotheses = store.hypotheses
  rows : s.modes.rows = store.modes.rows ++ created env store done
  createdCandidates : acc.summary.createdCandidates = (created env store done).map (·.id)
  byId : ∀ modeId, acc.byId.get? modeId =
    (s.modes.find? modeId).filter fun m => m.workspaceId = env.workspaceId
  slugs : ∀ slug modeId, acc.slugToMode.get? slug = some modeId →
    ∃ m ∈ s.modes.rows, m.workspaceId = env.workspaceId ∧ m.id = modeId ∧ m.slug = slug
  named : ∀ slug, ((bySlugOf env store).get? slug).isSome ∨ slug ∈ done.map (·.slug) →
    (acc.slugToMode.get? slug).isSome

end Propose

section ProposeRound
variable {env : Env} {store : Store} {done : List ProposedMode} {p : ProposedMode} {acc : Progress}
  {s : Store}

theorem mem_created {m : FailureMode} : m ∈ created env store done ↔
    ∃ k, ∃ h : k < (done.filter (isNew env store)).length,
      m = candidateMode env (bySlugOf env store) k ((done.filter (isNew env store))[k]) := by
  unfold created
  rw [List.mem_mapIdx]
  constructor <;> rintro ⟨k, h, rfl⟩ <;> exact ⟨k, h, rfl⟩

theorem map_slug_created : (created env store done).map (·.slug) =
    (done.filter (isNew env store)).map (·.slug) := by
  refine List.ext_getElem? fun k => ?_
  simp [created, candidateMode, Function.comp_def]

theorem workspaceId_created {m : FailureMode} (h : m ∈ created env store done) :
    m.workspaceId = env.workspaceId := by
  obtain ⟨k, hk, rfl⟩ := mem_created.mp h
  rfl

theorem created_known (h : isNew env store p = false) :
    created env store (done ++ [p]) = created env store done := by
  simp [created, h]

theorem created_new (h : isNew env store p = true) : created env store (done ++ [p]) =
    created env store done ++
      [candidateMode env (bySlugOf env store) (created env store done).length p] := by
  simp [created, h, List.mapIdx_append]

theorem valid_candidateMode (hfresh : Fresh env store) (hws : NonEmpty env.workspaceId) (k : ℕ) :
    (candidateMode env (bySlugOf env store) k p).Valid ↔
      slugPattern p.slug = true ∧ NonEmpty env.proposedBy := by
  rw [FailureMode.valid_iff]
  simp only [candidateMode, BaseEntity.Valid]
  constructor
  · rintro ⟨-, ⟨-, hslug⟩, ⟨-, -, hby⟩, -⟩
    exact ⟨hslug, hby⟩
  · rintro ⟨hslug, hby⟩
    exact ⟨⟨(hfresh.modeId k).1, hws, le_rfl⟩, ⟨p.nonEmpty.1, hslug⟩,
      ⟨p.nonEmpty.2.1, p.nonEmpty.2.2, hby⟩, by simp⟩

theorem Proposed.find?_newMode (h : Proposed env store done acc s) (hfresh : Fresh env store) :
    s.modes.find? (env.newMode (created env store done).length).id = none := by
  rw [Table.find?_eq_none, h.rows]
  intro m hm
  obtain hm | hm := List.mem_append.mp hm
  · exact Table.find?_eq_none.mp (hfresh.modeId _).2 m hm
  · obtain ⟨k, hk, rfl⟩ := mem_created.mp hm
    intro heq
    have hk' : k = (created env store done).length := hfresh.modeId_injective heq
    simp only [created, List.length_mapIdx] at hk'
    omega

theorem Proposed.mem_slugs (h : Proposed env store done acc s) (hnew : isNew env store p = true) :
    (∃ m ∈ s.modes.rows, m.workspaceId = env.workspaceId ∧ m.slug = p.slug) ↔
      p.slug ∈ done.map (·.slug) := by
  have hunknown : ∀ m ∈ store.modes.rows, m.workspaceId = env.workspaceId → m.slug ≠ p.slug := by
    intro m hm hws hslug
    rw [isNew, get?_bySlugOf.mpr ⟨hm, hws, hslug⟩] at hnew
    exact nomatch hnew
  have hcreated : p.slug ∈ done.map (·.slug) ↔ p.slug ∈ (created env store done).map (·.slug) := by
    rw [map_slug_created, List.mem_map, List.mem_map]
    refine exists_congr fun q => ?_
    rw [List.mem_filter]
    constructor
    · rintro ⟨hq, hslug⟩
      exact ⟨⟨hq, by rw [isNew, hslug]; exact hnew⟩, hslug⟩
    · rintro ⟨⟨hq, -⟩, hslug⟩
      exact ⟨hq, hslug⟩
  rw [hcreated, h.rows, List.mem_map]
  constructor
  · rintro ⟨m, hm, hws, hslug⟩
    obtain hm | hm := List.mem_append.mp hm
    · exact absurd hslug (hunknown m hm hws)
    · exact ⟨m, hm, hslug⟩
  · rintro ⟨m, hm, hslug⟩
    exact ⟨m, List.mem_append_right _ hm, workspaceId_created hm, hslug⟩

theorem proposeMode_known (h : Proposed env store done acc s) (hknown : isNew env store p = false) :
    ∃ acc', (proposeMode env (bySlugOf env store) acc p).run s = (.ok acc', s) ∧
      Proposed env store (done ++ [p]) acc' s := by
  have hsome : ((bySlugOf env store).get? p.slug).isSome = true := by simpa [isNew] using hknown
  obtain ⟨m, hm⟩ := Option.isSome_iff_exists.mp hsome
  refine ⟨_, by unfold proposeMode; rw [hm]; rfl, ?_⟩
  obtain ⟨hrow, hws, hslug⟩ := get?_bySlugOf.mp hm
  constructor
  · exact h.workspaces
  · exact h.traces
  · exact h.hypotheses
  · rw [created_known hknown]
    exact h.rows
  · rw [created_known hknown]
    exact h.createdCandidates
  · exact h.byId
  · intro slug modeId hget
    rw [Dict.get?_set] at hget
    split_ifs at hget with heq
    · obtain rfl := Option.some.inj hget
      refine ⟨m, ?_, hws, rfl, hslug.trans heq.symm⟩
      rw [h.rows]
      exact List.mem_append_left _ hrow
    · exact h.slugs slug modeId hget
  · intro slug hslug'
    rw [Dict.get?_set]
    split_ifs with heq
    · rfl
    · refine h.named slug (hslug'.imp_right fun hmem => ?_)
      simpa [heq] using hmem

theorem Proposed.length (h : Proposed env store done acc s) :
    acc.summary.createdCandidates.length = (created env store done).length := by
  rw [h.createdCandidates, List.length_map]

theorem proposeMode_new (hfresh : Fresh env store) (hws : NonEmpty env.workspaceId)
    (h : Proposed env store done acc s) (hnew : isNew env store p = true)
    (hcreate : CreateOk env store p) (hslug : p.slug ∉ done.map (·.slug)) :
    ∃ acc' s', (proposeMode env (bySlugOf env store) acc p).run s = (.ok acc', s') ∧
      Proposed env store (done ++ [p]) acc' s' := by
  have hnone : (bySlugOf env store).get? p.slug = none := by simpa [isNew] using hnew
  have hid := h.find?_newMode hfresh
  have hvalid := (valid_candidateMode (p := p) hfresh hws (created env store done).length).mpr
    ⟨hcreate.1, hcreate.2.1⟩
  have htaken := mt (h.mem_slugs hnew).mp hslug
  set mode := candidateMode env (bySlugOf env store) (created env store done).length p with hmode
  obtain ⟨s', hput, hrows, hsame⟩ : ∃ s', (putMode env mode).run s = (.ok (), s') ∧
      s'.modes.rows = s.modes.rows ++ [mode] ∧ s.OnlyModes s' :=
    putMode_new rfl hid (by rw [h.workspaces]; exact hcreate.2.2)
      fun m hm hmws hmslug => htaken ⟨m, hm, hmws, hmslug⟩
  have hmem : mode ∈ s'.modes.rows := by
    rw [hrows]
    exact List.mem_append_right _ (List.mem_singleton_self _)
  refine ⟨{
      summary := { acc.summary with createdCandidates := acc.summary.createdCandidates ++
        [mode.id] }
      slugToMode := acc.slugToMode.set p.slug mode.id
      byId := acc.byId.set mode.id mode }, s', ?_, ?_⟩
  · unfold proposeMode
    rw [hnone]
    dsimp only
    rw [h.length, if_pos hvalid, run_bind, hput]
    rfl
  constructor
  · exact hsame.workspaces.trans h.workspaces
  · exact hsame.traces.trans h.traces
  · exact hsame.hypotheses.trans h.hypotheses
  · rw [hrows, h.rows, created_new hnew, List.append_assoc]
  · rw [created_new hnew, List.map_append, ← h.createdCandidates]
    rfl
  · intro modeId
    rw [Dict.get?_set, h.byId, Table.find?_of_append hrows]
    show (if modeId = mode.id then _ else _) = Option.filter _ (if modeId = mode.id then _ else _)
    have hmws : mode.workspaceId = env.workspaceId := rfl
    split_ifs
    · exact (Option.filter_some_pos (by simpa using hmws)).symm
    · rfl
  · intro slug modeId hget
    rw [Dict.get?_set] at hget
    split_ifs at hget with heq
    · obtain rfl := Option.some.inj hget
      exact ⟨_, hmem, rfl, rfl, heq.symm⟩
    · obtain ⟨m, hm, hm'⟩ := h.slugs slug modeId hget
      refine ⟨m, ?_, hm'⟩
      rw [hrows]
      exact List.mem_append_left _ hm
  · intro slug hslug'
    rw [Dict.get?_set]
    split_ifs with heq
    · rfl
    · refine h.named slug (hslug'.imp_right fun hmem => ?_)
      simpa [heq] using hmem

theorem proposeMode_refused (hfresh : Fresh env store) (hws : NonEmpty env.workspaceId)
    (h : Proposed env store done acc s) (hbad : ¬ ProposeOk env store done p) :
    ∃ e, (proposeMode env (bySlugOf env store) acc p).run s = (.error e, s) := by
  obtain ⟨hnew, hbad⟩ := Classical.not_imp.mp hbad
  have hnone : (bySlugOf env store).get? p.slug = none := by simpa [isNew] using hnew
  have hiff := valid_candidateMode (p := p) hfresh hws (created env store done).length
  unfold proposeMode
  rw [hnone]
  dsimp only
  rw [h.length]
  by_cases hvalid : (candidateMode env (bySlugOf env store) (created env store done).length p).Valid
  · have htaken : env.workspaceId ∉ s.workspaces ∨
        ∃ m ∈ s.modes.rows, m.workspaceId = env.workspaceId ∧ m.slug = p.slug := by
      rw [h.workspaces, or_iff_not_imp_left, not_not]
      intro hregistered
      refine (h.mem_slugs hnew).mpr (not_not.mp fun hslug => hbad ⟨?_, hslug⟩)
      exact ⟨(hiff.mp hvalid).1, (hiff.mp hvalid).2, hregistered⟩
    obtain ⟨e, hput⟩ : ∃ e, (putMode env (candidateMode env (bySlugOf env store)
        (created env store done).length p)).run s = (.error e, s) :=
      putMode_refused rfl (h.find?_newMode hfresh) htaken
    refine ⟨e, ?_⟩
    rw [if_pos hvalid, run_bind, hput]
  · exact ⟨_, by rw [if_neg hvalid]; rfl⟩

end ProposeRound

theorem proposeAll_run {env : Env} {store : Store} (hfresh : Fresh env store)
    (hws : NonEmpty env.workspaceId) (ps : List ProposedMode) {acc : Progress} {s : Store}
    (h : Proposed env store [] acc s) :
    (∃ acc' s', (ps.foldlM (proposeMode env (bySlugOf env store)) acc).run s = (.ok acc', s') ∧
        Proposed env store ps acc' s' ∧ Along (ProposeOk env store) [] ps) ∨
      ∃ pre p post acc' s' e, ps = pre ++ p :: post ∧ Proposed env store pre acc' s' ∧
        Along (ProposeOk env store) [] pre ∧ ¬ ProposeOk env store pre p ∧
        (ps.foldlM (proposeMode env (bySlugOf env store)) acc).run s = (.error e, s') := by
  have hround : ∀ done p acc s, Proposed env store done acc s → ProposeOk env store done p →
      ∃ acc' s', (proposeMode env (bySlugOf env store) acc p).run s = (.ok acc', s') ∧
        Proposed env store (done ++ [p]) acc' s' := by
    intro done p acc s h hok
    cases hnew : isNew env store p with
    | false =>
      obtain ⟨acc', hrun, h'⟩ := proposeMode_known h hnew
      exact ⟨acc', s, hrun, h'⟩
    | true => exact proposeMode_new hfresh hws h hnew (hok hnew).1 (hok hnew).2
  obtain ⟨acc', s', hrun, h', hall⟩ |
      ⟨pre, p, post, acc', s', e, s'', hsplit, h', hall, hbad, hbody, hrun⟩ :=
    run_foldlM (P := fun _ => True) (fun done p acc s _ => hround done p acc s)
      (fun done p acc s _ h hbad =>
        let ⟨e, hrun⟩ := proposeMode_refused hfresh hws h hbad
        ⟨e, s, hrun⟩) ps [] acc s (fun _ _ => trivial) h
  · exact .inl ⟨acc', s', hrun, h', hall⟩
  · obtain ⟨e', hbody'⟩ := proposeMode_refused hfresh hws h' hbad
    rw [hbody] at hbody'
    obtain ⟨-, rfl⟩ := Prod.mk.inj hbody'
    exact .inr ⟨pre, p, post, acc', s'', e, hsplit, h', hall, hbad, hrun⟩

/-! ### The assignments -/

/-- A mode without its evidence. -/
def bare (m : FailureMode) : FailureMode := { m with examples := [] }

/-- How much evidence there is. -/
def evidence (store : Store) : ℕ := (store.modes.rows.map fun m => m.examples.length).sum

section Assign
variable (env : Env) (acc₁ : Progress) (store : Store)

/-- The assignment names a mode of the workspace. -/
def Resolves (a : Assignment) : Prop :=
  ∃ m ∈ store.modes.rows, m.workspaceId = env.workspaceId ∧ resolve acc₁ a = some m.id

/-- The trace is in the workspace, and the quote can be kept. -/
def AssignOk (a : Assignment) : Prop :=
  (∃ trace, getTrace env.workspaceId a.traceId store.traces = .ok trace) ∧
    ∃ quote, routeQuote env a = .ok quote

/-- The state after some rounds. -/
structure Assigned (done : List Assignment) (acc : Progress) (s : Store) : Prop where
  workspaces : s.workspaces = store.workspaces
  hypotheses : s.hypotheses = store.hypotheses
  traces : ∀ traceId, (∃ trace, getTrace env.workspaceId traceId s.traces = .ok trace) ↔
    ∃ trace, getTrace env.workspaceId traceId store.traces = .ok trace
  modes : s.modes.rows.map bare = store.modes.rows.map bare
  evidence : evidence s = evidence store + done.length
  byId : ∀ modeId, acc.byId.get? modeId =
    (s.modes.find? modeId).filter fun m => m.workspaceId = env.workspaceId
  slugToMode : acc.slugToMode = acc₁.slugToMode
  untouched : done = [] → s = store

end Assign

section AssignRound
variable {env : Env} {acc₁ acc : Progress} {store s : Store} {done : List Assignment}
  {a : Assignment}

theorem getTrace_eq_ok {workspaceId traceId : String} {traces : Table Trace} {trace : Trace} :
    getTrace workspaceId traceId traces = .ok trace ↔
      trace ∈ traces.rows ∧ trace.id = traceId ∧ trace.workspaceId = workspaceId := by
  unfold getTrace
  cases hfind : traces.find? traceId with
  | none =>
    refine iff_of_false (by simp) ?_
    rintro ⟨htrace, hid, -⟩
    exact Table.find?_eq_none.mp hfind trace htrace hid
  | some trace' =>
    obtain ⟨hrow, hid'⟩ := Table.find?_eq_some.mp hfind
    constructor
    · intro h
      dsimp only at h
      split_ifs at h with hws
      obtain rfl := Except.ok.inj h
      exact ⟨hrow, hid', hws⟩
    · rintro ⟨htrace, hid, hws⟩
      obtain rfl := List.inj_on_of_nodup_map traces.ids_nodup hrow htrace (hid'.trans hid.symm)
      simp [hws]

theorem putTrace_run {trace : Trace} (htrace : trace ∈ s.traces.rows)
    (hws : trace.workspaceId = env.workspaceId) (modeId : String) :
    ∃ traces : Table Trace,
      (putTrace env (stampMode trace modeId "error_analysis")).run s =
        (.ok (), { s with traces }) ∧
      traces.rows = s.traces.rows.map fun r =>
        if r.id = trace.id then stampMode trace modeId "error_analysis" else r := by
  obtain ⟨traces, hput, hrows⟩ : ∃ traces : Table Trace,
      s.traces.put env.workspaceId (stampMode trace modeId "error_analysis") = .ok traces ∧
      traces.rows = s.traces.rows.map fun r =>
        if r.id = trace.id then stampMode trace modeId "error_analysis" else r :=
    Table.put_over htrace rfl hws rfl
  refine ⟨traces, ?_, hrows⟩
  simp [putTrace, tryWrite, hput]

theorem getTrace_stamped {traces : Table Trace} {trace : Trace} {modeId : String}
    (htrace : trace ∈ s.traces.rows)
    (hrows : traces.rows = s.traces.rows.map fun r =>
      if r.id = trace.id then stampMode trace modeId "error_analysis" else r) (traceId : String) :
    (∃ t, getTrace env.workspaceId traceId traces = .ok t) ↔
      ∃ t, getTrace env.workspaceId traceId s.traces = .ok t := by
  have hfind : traces.find? traceId = if traceId = trace.id then
      some (stampMode trace modeId "error_analysis") else s.traces.find? traceId :=
    Table.find?_of_map htrace (stampMode trace modeId "error_analysis") rfl hrows traceId
  unfold getTrace
  rw [hfind]
  split_ifs with hid
  · have hfind' : s.traces.find? traceId = some trace := by
      rw [hid]
      exact Table.mem_rows_iff.mp htrace
    rw [hfind']
    by_cases hws : trace.workspaceId = env.workspaceId <;> simp [stampMode, hws]
  · rfl

theorem Assigned.resolved (h : Assigned env acc₁ store done acc s)
    (ha : Resolves env acc₁ store a) :
    ∃ m ∈ s.modes.rows, m.workspaceId = env.workspaceId ∧ resolve acc a = some m.id ∧
      acc.byId.get? m.id = some m := by
  obtain ⟨m₁, hm₁, hws, hres⟩ := ha
  have hbare : bare m₁ ∈ s.modes.rows.map bare := by
    rw [h.modes]
    exact List.mem_map_of_mem hm₁
  obtain ⟨m, hm, heq⟩ := List.mem_map.mp hbare
  have hbase : m.toBaseEntity = m₁.toBaseEntity := congrArg (·.toBaseEntity) heq
  have hmws : m.workspaceId = env.workspaceId := by rw [hbase, hws]
  refine ⟨m, hm, hmws, ?_, ?_⟩
  · unfold resolve at hres ⊢
    rw [h.slugToMode, hres, hbase]
  · have hfind : s.modes.find? m.id = some m := Table.mem_rows_iff.mp hm
    rw [h.byId, hfind]
    exact Option.filter_some_pos (by simpa using hmws)

/-- The mode with the evidence of an assignment. -/
def evidenced (m : FailureMode) (a : Assignment) (quote : Option String × Option String) :
    FailureMode :=
  { m with
    examples := m.examples ++
      [{ traceId := a.traceId, quotePointer := quote.1, quoteHash := quote.2, note := a.openNote }] }

theorem applyAssignment_noTrace (h : Assigned env acc₁ store done acc s)
    (ha : Resolves env acc₁ store a)
    (htrace : ¬ ∃ trace, getTrace env.workspaceId a.traceId s.traces = .ok trace) :
    ∃ e, (applyAssignment env acc a).run s = (.error e, s) := by
  obtain ⟨m, hm, hws, hres, hget⟩ := h.resolved ha
  cases hfound : getTrace env.workspaceId a.traceId s.traces with
  | ok trace => exact absurd ⟨trace, hfound⟩ htrace
  | error e =>
    refine ⟨.storage e, ?_⟩
    unfold applyAssignment
    rw [hres, run_bind]
    simp [orMissing, hfound, Except.mapError]

theorem applyAssignment_noQuote (h : Assigned env acc₁ store done acc s)
    (ha : Resolves env acc₁ store a) {trace : Trace}
    (htrace : getTrace env.workspaceId a.traceId s.traces = .ok trace)
    (hquote : ¬ ∃ quote, routeQuote env a = .ok quote) :
    ∃ e modeId, ∃ traces : Table Trace, resolve acc a = some modeId ∧
      (applyAssignment env acc a).run s = (.error e, { s with traces }) ∧
      traces.rows = s.traces.rows.map fun r =>
        if r.id = trace.id then stampMode trace modeId "error_analysis" else r := by
  obtain ⟨m, hm, hws, hres, hget⟩ := h.resolved ha
  obtain ⟨hrow, -, htws⟩ := getTrace_eq_ok.mp htrace
  obtain ⟨traces, hput, hrows⟩ := putTrace_run hrow htws m.id
  cases hroute : routeQuote env a with
  | ok quote => exact absurd ⟨quote, hroute⟩ hquote
  | error e =>
    refine ⟨e, m.id, traces, hres, ?_, hrows⟩
    unfold applyAssignment
    rw [hres, run_bind]
    simp [orMissing, htrace, Except.mapError, run_bind, hput, hget, hroute]

theorem applyAssignment_ok (h : Assigned env acc₁ store done acc s) (ha : Resolves env acc₁ store a)
    (hok : AssignOk env store a) :
    ∃ acc' s', (applyAssignment env acc a).run s = (.ok acc', s') ∧
      Assigned env acc₁ store (done ++ [a]) acc' s' := by
  obtain ⟨m, hm, hws, hres, hget⟩ := h.resolved ha
  obtain ⟨trace, htrace⟩ := (h.traces a.traceId).mpr hok.1
  obtain ⟨quote, hquote⟩ := hok.2
  obtain ⟨hrow, -, htws⟩ := getTrace_eq_ok.mp htrace
  obtain ⟨traces, hput, hrows⟩ := putTrace_run hrow htws m.id
  obtain ⟨s', hputMode, hmodes, hsame⟩ : ∃ s',
      (putMode env (evidenced m a quote)).run { s with traces } = (.ok (), s') ∧
      s'.modes.rows = s.modes.rows.map (fun r => if r.id = m.id then evidenced m a quote else r) ∧
      Store.OnlyModes { s with traces } s' := putMode_over hm hws rfl rfl
  refine ⟨{ acc with
      byId := acc.byId.set m.id (evidenced m a quote)
      summary := { acc.summary with
        assignmentsApplied := acc.summary.assignmentsApplied + 1 } }, s', ?_, ?_⟩
  · unfold applyAssignment
    rw [hres, run_bind]
    unfold evidenced at hputMode ⊢
    simp only [orMissing, run_pure, htrace, Except.mapError, run_bind, hput, hget, hquote,
      run_tryQuery, hputMode]
  constructor
  · exact hsame.workspaces.trans h.workspaces
  · exact hsame.hypotheses.trans h.hypotheses
  · intro traceId
    rw [← h.traces, hsame.traces]
    exact getTrace_stamped hrow hrows traceId
  · rw [hmodes, ← h.modes, List.map_map]
    refine List.map_congr_left fun r hr => ?_
    show bare (if r.id = m.id then evidenced m a quote else r) = bare r
    split_ifs with hid
    · obtain rfl := List.inj_on_of_nodup_map s.modes.ids_nodup hr hm hid
      rfl
    · rfl
  · have hsum := Table.sum_map_over (t := s.modes.toTable) hm (evidenced m a quote)
      fun m => m.examples.length
    have hlength : (evidenced m a quote).examples.length = m.examples.length + 1 := by
      simp [evidenced]
    have hevidence := h.evidence
    unfold evidence at hevidence ⊢
    rw [hmodes, List.length_append, List.length_singleton]
    have hid : ∀ r : FailureMode, (Entity.base r).id = r.id := fun _ => rfl
    simp only [hid] at hsum
    omega
  · intro modeId
    have hfind : s'.modes.find? modeId = if modeId = m.id then some (evidenced m a quote) else
        s.modes.find? modeId := 
          Table.find?_of_map hm (evidenced m a quote) rfl hmodes modeId
    have hmws : (evidenced m a quote).workspaceId = env.workspaceId := hws
    rw [Dict.get?_set, h.byId, hfind]
    split_ifs
    · exact (Option.filter_some_pos (by simpa using hmws)).symm
    · rfl
  · exact h.slugToMode
  · simp

theorem assignAll_run (as : List Assignment) (has : ∀ a ∈ as, Resolves env acc₁ store a)
    (h : Assigned env acc₁ store [] acc s) :
    (∃ acc' s', (as.foldlM (applyAssignment env) acc).run s = (.ok acc', s') ∧
        Assigned env acc₁ store as acc' s' ∧ ∀ a ∈ as, AssignOk env store a) ∨
      ∃ pre a post acc' s' e s'', as = pre ++ a :: post ∧ Assigned env acc₁ store pre acc' s' ∧
        (∀ a ∈ pre, AssignOk env store a) ∧ ¬ AssignOk env store a ∧
          (applyAssignment env acc' a).run s' = (.error e, s'') ∧
        (as.foldlM (applyAssignment env) acc).run s = (.error e, s'') := by
  have herr : ∀ done a acc s, Resolves env acc₁ store a → Assigned env acc₁ store done acc s →
      ¬ AssignOk env store a → ∃ e s', (applyAssignment env acc a).run s = (.error e, s') := by
    intro done a acc s ha h hbad
    by_cases hfound : ∃ trace, getTrace env.workspaceId a.traceId s.traces = .ok trace
    · have hquote : ¬ ∃ quote, routeQuote env a = .ok quote := fun hquote =>
        hbad ⟨(h.traces a.traceId).mp hfound, hquote⟩
      obtain ⟨trace, htrace⟩ := hfound
      obtain ⟨e, modeId, traces, -, hrun, -⟩ := applyAssignment_noQuote h ha htrace hquote
      exact ⟨e, _, hrun⟩
    · obtain ⟨e, hrun⟩ := applyAssignment_noTrace h ha hfound
      exact ⟨e, s, hrun⟩
  have heach : ∀ as, Along (fun _ a => AssignOk env store a) [] as →
      ∀ a ∈ as, AssignOk env store a := by
    intro as hall a ha
    obtain ⟨pre, post, hsplit⟩ := List.append_of_mem ha
    exact hall pre a post hsplit
  obtain ⟨acc', s', hrun, h', hall⟩ |
      ⟨pre, a, post, acc', s', e, s'', hsplit, h', hall, hbad, hbody, hrun⟩ :=
    run_foldlM (G := fun _ a => AssignOk env store a)
      (fun done a acc s ha h hok => applyAssignment_ok h ha hok) herr as [] acc s has h
  · exact .inl ⟨acc', s', hrun, h', heach as hall⟩
  · exact .inr ⟨pre, a, post, acc', s', e, s'', hsplit, h', heach pre hall, hbad, hbody, hrun⟩

end AssignRound

/-! ### The hypotheses -/

section Record
variable {env : Env} {store s : Store}

/-- A hypothesis is a valid record of a workspace. -/
def RecordOk (env : Env) (store : Store) : Prop :=
  NonEmpty env.experimentId ∧ env.workspaceId ∈ store.workspaces

/-- The state after some rounds from `start`. -/
structure Recorded (env : Env) (store start : Store) (done : List Hypothesis) (count : ℕ)
    (s : Store) : Prop where
  workspaces : s.workspaces = store.workspaces
  modes : s.modes = start.modes
  traces : s.traces = start.traces
  rows : s.hypotheses.rows = store.hypotheses.rows ++ done.mapIdx (hypothesisRecord env)
  count : count = done.length

theorem valid_hypothesisRecord (hfresh : Fresh env store) (hws : NonEmpty env.workspaceId) (k : ℕ)
    (h : Hypothesis) : (hypothesisRecord env k h).Valid ↔ NonEmpty env.experimentId := by
  constructor
  · exact fun hvalid => hvalid.2.1
  · exact fun hexperiment => ⟨⟨(hfresh.hypothesisId k).1, hws, le_rfl⟩, hexperiment, h.nonEmpty⟩

theorem Recorded.put {start : Store} {done : List Hypothesis} {count : ℕ}
    (hs : Recorded env store start done count s) (hfresh : Fresh env store) (h : Hypothesis) :
    ∃ hypotheses, s.hypotheses.put env.workspaceId (hypothesisRecord env count h) =
        .ok hypotheses ∧
      hypotheses.rows = s.hypotheses.rows ++ [hypothesisRecord env count h] := by
  refine Table.put_of_new (Table.find?_eq_none.mpr ?_) rfl
  rw [hs.rows]
  intro r hr
  obtain hr | hr := List.mem_append.mp hr
  · exact Table.find?_eq_none.mp (hfresh.hypothesisId count).2 r hr
  · obtain ⟨k, hk, rfl⟩ := List.mem_mapIdx.mp hr
    intro heq
    have hk' : k = count := hfresh.hypothesisId_injective heq
    have := hs.count
    omega

theorem recordHypothesis_ok (hfresh : Fresh env store) (hws : NonEmpty env.workspaceId)
    (hok : RecordOk env store) {start : Store} {done : List Hypothesis} {count : ℕ}
    (hs : Recorded env store start done count s) (h : Hypothesis) :
    ∃ count' s', (recordHypothesis env count h).run s = (.ok count', s') ∧
      Recorded env store start (done ++ [h]) count' s' := by
  obtain ⟨hypotheses, hput, hrows⟩ := hs.put hfresh h
  have hregistered : env.workspaceId ∈ s.workspaces := by
    rw [hs.workspaces]
    exact hok.2
  refine ⟨count + 1, { s with hypotheses }, ?_, hs.workspaces, hs.modes, hs.traces, ?_, ?_⟩
  · unfold recordHypothesis
    rw [if_pos ((valid_hypothesisRecord hfresh hws count h).mpr hok.1)]
    simp [putHypothesis, tryWrite, run_bind, hput, hregistered]
  · show hypotheses.rows = _
    rw [hrows, hs.rows, List.mapIdx_append, ← hs.count]
    simp [hs.count]
  · rw [hs.count, List.length_append, List.length_singleton]

theorem recordHypothesis_refused (hfresh : Fresh env store) (hws : NonEmpty env.workspaceId)
    (hbad : ¬ RecordOk env store) {start : Store} {done : List Hypothesis} {count : ℕ}
    (hs : Recorded env store start done count s) (h : Hypothesis) :
    ∃ e, (recordHypothesis env count h).run s = (.error e, s) := by
  obtain ⟨hypotheses, hput, -⟩ := hs.put hfresh h
  have hiff := valid_hypothesisRecord hfresh hws count h
  unfold recordHypothesis
  by_cases hexperiment : NonEmpty env.experimentId
  · have hunregistered : env.workspaceId ∉ s.workspaces := by
      rw [hs.workspaces]
      exact fun hregistered => hbad ⟨hexperiment, hregistered⟩
    refine ⟨.noWorkspace env.workspaceId, ?_⟩
    rw [if_pos (hiff.mpr hexperiment)]
    simp [putHypothesis, tryWrite, run_bind, hput, hunregistered]
  · refine ⟨.invalidHypothesis, ?_⟩
    rw [if_neg (mt hiff.mp hexperiment)]
    rfl

theorem recordAll_run (hfresh : Fresh env store) (hws : NonEmpty env.workspaceId) {start : Store}
    (hs : List Hypothesis) (h : Recorded env store start [] 0 s) :
    ((hs = [] ∨ RecordOk env store) ∧
      ∃ count s', (hs.foldlM (recordHypothesis env) 0).run s = (.ok count, s') ∧
        Recorded env store start hs count s') ∨
    ((hs ≠ [] ∧ ¬ RecordOk env store) ∧
      ∃ e, (hs.foldlM (recordHypothesis env) 0).run s = (.error e, s)) := by
  by_cases hok : RecordOk env store
  · obtain ⟨count, s', hrun, h', -⟩ | ⟨pre, x, post, acc', s', e, s'', -, -, -, hbad, -⟩ :=
      run_foldlM (P := fun _ => True) (I := Recorded env store start)
        (G := fun _ _ => RecordOk env store)
        (fun done x acc s _ h _ => recordHypothesis_ok hfresh hws hok h x)
        (fun done x acc s _ h hbad => absurd hok hbad) hs [] 0 s (fun _ _ => trivial) h
    · exact .inl ⟨.inr hok, count, s', hrun, h'⟩
    · exact absurd hok hbad
  · cases hs with
    | nil => exact .inl ⟨.inl rfl, 0, s, rfl, h⟩
    | cons x hs =>
      obtain ⟨e, hrun⟩ := recordHypothesis_refused hfresh hws hok h x
      refine .inr ⟨⟨List.cons_ne_nil x hs, hok⟩, e, ?_⟩
      rw [run_foldlM_cons, hrun]

end Record

end Selfevals.Analysis.IngestPhases
