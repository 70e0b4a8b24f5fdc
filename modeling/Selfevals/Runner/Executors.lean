import Selfevals.Lib.Effects
import Selfevals.Lib.Mapping
import Selfevals.Schemas.EvalCases
import Selfevals.Schemas.TraceRecords

/-!
# The executor

`Executor` runs a case through the adapter of its agent, or through the one that the proposal binds
in its `agent` block, which it builds once and keeps. A result carries the adapter that was invoked
for it.

* `settled_adapterFor`: once an adapter is found, the same one is found from then on;
* `attributed_runCase`: the executor records the agent of the adapter that it invokes.
-/

namespace Selfevals.Runner.Executors

open Lib.Effects Lib.JsonValue Lib.Mapping Schemas.TraceRecords
open Schemas.EvalCases (CaseTaxonomy EvalCase)

/-! ### Requests and results -/

/-- An exception: a `ValueError`, an `AdapterError`, or another. -/
inductive Raised
  | value (text : String)
  | adapter (text : String)
  | other (text : String)
deriving DecidableEq

/-- The agent that an adapter declares. -/
structure Agent where
  id : String
  version : ℕ
deriving DecidableEq

/-- What an adapter is asked. -/
structure AdapterRequest where
  workspaceId : String
  caseId : String
  input : Object
  context : Option Object := none
  toolsAllowed : List String := []
  parameters : Object := []
  metadata : Object := []
  otlpEndpoint : Option String := none

/-- What an adapter answers. -/
structure AdapterResponse where
  content : Option String
  structuredOutput : Option Object := none
  costUsd : ℚ := 0
deriving DecidableEq

/-- The run and the agent that a trace names, and the error of a run that failed. -/
structure Trace where
  workspaceId : String
  run : RunInfo
  agent : AgentSnapshotRef
  error : Option String
deriving DecidableEq

/-- The adapter is the one whose `invoke` was awaited; the code does not keep it. -/
structure RepetitionResult (A : Type) where
  repetition : ℕ
  trace : Trace
  response : Option AdapterResponse
  error : Option String
  adapter : A
deriving DecidableEq

/-- What running a case gives. -/
structure CaseRun (A : Type) where
  caseId : String
  repetitions : List (RepetitionResult A)
  simulatorCostUsd : ℚ := 0
  simulatorTurns : ℕ := 0
deriving DecidableEq

/-! ### The executor -/

/-- What an executor was built with, and the code that it calls. While it waits, the run looks up
the adapters of other proposals, and the world goes on. -/
structure Executor (A W : Type) where
  workspaceId : String
  adapter : A
  factory : Option (Object → Except Raised A)
  otlpEndpoint : Option String := none
  agent : A → Option Agent
  invoke : A → AdapterRequest → W → Except Raised AdapterResponse × W
  /-- `record_adapter_response`. -/
  record : A → AdapterRequest → AdapterResponse → W → Except Raised Unit × W
  /-- `json.dumps(block, sort_keys=True, default=str)`. -/
  dumps : Object → String
  /-- `taxonomy.model_dump(mode="json")`. -/
  dumpTaxonomy : CaseTaxonomy → Json
  newPrefixedId : String → W → String × W
  elsewhere : W → List Object × W

/-- The adapters that were built for proposals, by their blocks. -/
structure Session (A W : Type) where
  adapterCache : Dict String A
  world : W

section Executor
variable {A W : Type} (x : Executor A W)

/-- A call of the world outside. -/
def outside {α : Type} (f : W → Except Raised α × W) : Scoped (Session A W) Raised α :=
  ⟨fun s => ((f s.world).1, { s with world := (f s.world).2 })⟩

/-- A fresh id. -/
def newId (kind : String) : Scoped (Session A W) Raised String :=
  outside fun w => (.ok (x.newPrefixedId kind w).1, (x.newPrefixedId kind w).2)

/-- The adapter of a block, which is built if it is not kept yet. -/
def cachedAdapter (factory : Object → Except Raised A) (block : Object) :
    Scoped (Session A W) Raised A := do
  match (← query fun s => s.adapterCache.get? (x.dumps block)) with
  | some cached => pure cached
  | none =>
    let built ← tryQuery fun _ => factory block
    tryWrite fun s => .ok { s with adapterCache := s.adapterCache.set (x.dumps block) built }
    return built

def noFactory : String :=
  "proposal carries an 'agent' override but this executor has no adapter factory; build the loop " ++
    "through selfevals.runner.launch (or call set_adapter_factory) to use search_space.agents"

def notMapping (v : Json) : String :=
  "proposal 'agent' must be a mapping (an agent: block), got " ++ v.typeName

/-- `_adapter_for`. -/
def adapterFor (parameterOverrides : Object) : Scoped (Session A W) Raised A :=
  match dictGet parameterOverrides "agent" with
  | .null => pure x.adapter
  | .obj block =>
    match x.factory with
    | none => raise (.value noFactory)
    | some factory => cachedAdapter x factory block
  | v => raise (.value (notMapping v))

/-- The reference of an adapter's agent. -/
def refOf (adapter : A) : AgentSnapshotRef :=
  match x.agent adapter with
  | none => { agentId := "unknown", agentVersion := 1 }
  | some agent => { agentId := agent.id, agentVersion := agent.version }

/-- `agent_ref`. -/
def agentRef (parameterOverrides : Object) : Scoped (Session A W) Raised AgentSnapshotRef := do
  return refOf x (← adapterFor x parameterOverrides)

/-- An `await`, over which the rest of the run goes on. -/
def pause : Scoped (Session A W) Raised Unit :=
  ⟨fun s =>
    let (proposals, world) := x.elsewhere s.world
    (.ok (), proposals.foldl (fun s overrides =>
      ((adapterFor x overrides).run s).2) { s with world })⟩

/-- `await adapter.invoke(request)`, with the text of an `AdapterError`. -/
def invoked (adapter : A) (request : AdapterRequest) :
    Scoped (Session A W) Raised (Except String AdapterResponse) := do
  pause x
  outside fun w =>
    match x.invoke adapter request w with
    | (.ok response, w) => (.ok (.ok response), w)
    | (.error (.adapter text), w) => (.ok (.error text), w)
    | (.error e, w) => (.error e, w)

/-- `run_single`. -/
def runSingle (case : EvalCase) (runInfo : RunInfo) (agentRef : AgentSnapshotRef)
    (parameterOverrides : Object) (inputOverride : Option Object) :
    Scoped (Session A W) Raised (RepetitionResult A) := do
  let adapter ← adapterFor x parameterOverrides
  let request : AdapterRequest :=
    { workspaceId := x.workspaceId
      caseId := case.id
      input := inputOverride.getD case.input
      context := case.context
      toolsAllowed := case.expected.requiredTools
      parameters := parameterOverrides
      metadata := [("taxonomy", x.dumpTaxonomy case.taxonomy)]
      otlpEndpoint := x.otlpEndpoint }
  let trace (error : Option String) : Trace :=
    { workspaceId := x.workspaceId, run := runInfo, agent := agentRef, error }
  match (← invoked x adapter request) with
  | .error text =>
    return { repetition := runInfo.repetition, trace := trace (some text), response := none,
             error := some text, adapter }
  | .ok response =>
    outside (x.record adapter request response)
    return { repetition := runInfo.repetition, trace := trace none, response := some response,
             error := none, adapter }

/-- How a run is labelled. -/
structure Labels where
  experimentId : Option String := none
  iteration : Option ℕ := none
  variantId : Option String := none

/-- The run of a repetition. -/
def Labels.runInfo (labels : Labels) (case : EvalCase) (runId : String) (rep : ℕ)
    (threadId : Option String) (threadPosition : Option ℕ) : RunInfo :=
  { runId, experimentId := labels.experimentId, iteration := labels.iteration,
    variantId := labels.variantId, evalCaseId := some case.id, repetition := rep, threadId,
    threadPosition }

/-- `Executor.run_case`. The repetitions run side by side: what the others do is in what goes on
while one of them waits. -/
def runCase (case : EvalCase) (repetitions : ℤ) (labels : Labels) (parameterOverrides : Object) :
    Scoped (Session A W) Raised (CaseRun A) :=
  if repetitions < 1 then raise (.value "repetitions must be >= 1")
  else do
    let ref ← agentRef x parameterOverrides
    let results ← (List.range repetitions.toNat).foldlM (fun results rep => do
      let runId ← newId x "run"
      pause x
      let result ← runSingle x case (labels.runInfo case runId rep none none) ref parameterOverrides
        none
      return results ++ [result]) []
    return { caseId := case.id, repetitions := results }

/-! ### The adapter of a proposal -/

/-- The adapter that a proposal is run by, with these adapters kept. -/
def selected (cache : Dict String A) (parameterOverrides : Object) : Except Raised A :=
  match dictGet parameterOverrides "agent" with
  | .null => .ok x.adapter
  | .obj block =>
    match x.factory with
    | none => .error (.value noFactory)
    | some factory =>
      match cache.get? (x.dumps block) with
      | some cached => .ok cached
      | none => factory block
  | v => .error (.value (notMapping v))

/-- The proposal is run by this adapter: it binds none, or the adapter of its block is kept. -/
def Settled (cache : Dict String A) (parameterOverrides : Object) (adapter : A) : Prop :=
  match dictGet parameterOverrides "agent" with
  | .null => adapter = x.adapter
  | .obj block => x.factory.isSome ∧ cache.get? (x.dumps block) = some adapter
  | _ => False

/-- What is settled stays so. -/
def Grows (s s' : Session A W) : Prop :=
  ∀ overrides adapter, Settled x s.adapterCache overrides adapter →
    Settled x s'.adapterCache overrides adapter

variable {x} {overrides : Object} {adapter : A} {s s' : Session A W}

theorem Grows.of_eq (h : s'.adapterCache = s.adapterCache) : Grows x s s' := by
  intro overrides adapter hsettled
  rwa [h]

theorem Grows.trans (s s' s'' : Session A W) (h : Grows x s s') (h' : Grows x s' s'') :
    Grows x s s'' :=
  fun overrides adapter hsettled => h' overrides adapter (h overrides adapter hsettled)

theorem Grows.of_run {α : Type} {m : Scoped (Session A W) Raised α} {r : Except Raised α}
    (hm : ∀ s, Grows x s (m.run s).2) (h : m.run s = (r, s')) : Grows x s s' := by
  have hgrows := hm s
  rwa [h] at hgrows

theorem Grows.set {key : String} {built : A} (hkey : s.adapterCache.get? key = none) :
    Grows x s { s with adapterCache := s.adapterCache.set key built } := by
  intro overrides adapter hsettled
  unfold Settled at hsettled ⊢
  split
  · next hagent => simpa only [hagent] using hsettled
  · next block hagent =>
    rw [hagent] at hsettled
    obtain ⟨hfactory, hcached⟩ := hsettled
    have hne : x.dumps block ≠ key := fun heq => by
      rw [heq, hkey] at hcached
      cases hcached
    exact ⟨hfactory, by rw [Dict.get?_set, if_neg hne, hcached]⟩
  · next v hnull hobj =>
    split at hsettled
    · next hagent => exact absurd hagent hnull
    · next block hagent => exact absurd hagent (hobj block)
    · exact hsettled

@[simp] theorem run_outside {α : Type} (f : W → Except Raised α × W) (s : Session A W) :
    (outside f).run s = ((f s.world).1, { s with world := (f s.world).2 }) := rfl

theorem run_cachedAdapter (factory : Object → Except Raised A) (block : Object) (s : Session A W) :
    (cachedAdapter x factory block).run s =
      match s.adapterCache.get? (x.dumps block) with
      | some cached => (.ok cached, s)
      | none =>
        match factory block with
        | .ok built =>
          (.ok built, { s with adapterCache := s.adapterCache.set (x.dumps block) built })
        | .error e => (.error e, s) := by
  simp only [cachedAdapter, run_bind, run_query]
  cases s.adapterCache.get? (x.dumps block) with
  | some cached => rfl
  | none =>
    simp only [run_bind, run_tryQuery]
    cases factory block <;> rfl

theorem run_adapterFor (overrides : Object) (s : Session A W) :
    ((adapterFor x overrides).run s).1 = selected x s.adapterCache overrides ∧
      Grows x s ((adapterFor x overrides).run s).2 ∧
      ∀ adapter, selected x s.adapterCache overrides = .ok adapter →
        Settled x ((adapterFor x overrides).run s).2.adapterCache overrides adapter := by
  unfold adapterFor selected Settled
  split
  · exact ⟨rfl, .of_eq rfl, fun adapter h => (Except.ok.inj h).symm⟩
  · next block hagent =>
    cases hfactory : x.factory with
    | none => exact ⟨rfl, .of_eq rfl, fun adapter h => by cases h⟩
    | some factory =>
      simp only [run_cachedAdapter]
      cases hkey : s.adapterCache.get? (x.dumps block) with
      | some cached => exact ⟨rfl, .of_eq rfl,
        fun adapter h => ⟨rfl, hkey.trans (congrArg some (Except.ok.inj h))⟩⟩
      | none =>
        cases hbuilt : factory block with
        | error e => exact ⟨rfl, .of_eq rfl, fun adapter h => by cases h⟩
        | ok built =>
          refine ⟨rfl, .set hkey, fun adapter h => ⟨rfl, ?_⟩⟩
          obtain rfl := Except.ok.inj h
          exact Dict.get?_set_self ..
  · exact ⟨rfl, .of_eq rfl, fun adapter h => by cases h⟩

theorem grows_adapterFor (overrides : Object) (s : Session A W) :
    Grows x s ((adapterFor x overrides).run s).2 := (run_adapterFor overrides s).2.1

/-- **Once an adapter is found** it is settled. -/
theorem adapterFor_eq_ok (h : (adapterFor x overrides).run s = (.ok adapter, s')) :
    selected x s.adapterCache overrides = .ok adapter ∧
      Settled x s'.adapterCache overrides adapter := by
  obtain ⟨hfst, -, hsettled⟩ := run_adapterFor (x := x) overrides s
  rw [h] at hfst hsettled
  exact ⟨hfst.symm, hsettled adapter hfst.symm⟩

theorem Settled.selected_eq {cache : Dict String A} (h : Settled x cache overrides adapter) :
    selected x cache overrides = .ok adapter := by
  unfold Settled at h
  unfold selected
  split at h
  · rw [h]
  · next block hagent =>
    obtain ⟨hfactory, hcached⟩ := h
    obtain ⟨factory, hfactory⟩ := Option.isSome_iff_exists.mp hfactory
    simp only [hfactory, hcached]
  · exact h.elim

theorem grows_pause (s : Session A W) : Grows x s ((pause x).run s).2 := by
  have hfold : ∀ (proposals : List Object) (s₁ : Session A W), Grows x s s₁ →
      Grows x s (proposals.foldl (fun s overrides => ((adapterFor x overrides).run s).2) s₁) := by
    intro proposals
    induction proposals with
    | nil => exact fun s₁ h => h
    | cons overrides proposals ih =>
      exact fun s₁ h => ih _ (h.trans _ _ _ (grows_adapterFor overrides s₁))
  exact hfold _ _ (.of_eq rfl)

theorem grows_outside {α : Type} (f : W → Except Raised α × W) (s : Session A W) :
    Grows x s ((outside f).run s).2 := .of_eq rfl

theorem grows_invoked (adapter : A) (request : AdapterRequest) (s : Session A W) :
    Grows x s ((invoked x adapter request).run s).2 :=
  rel_bind Grows.trans (grows_pause s) fun _ s' _ => grows_outside _ s'

/-! ### Runs -/

/-- **What a run records**: the adapter of the proposal is invoked, and the trace names the agent
that was passed. -/
theorem runSingle_spec {case : EvalCase} {runInfo : RunInfo} {ref : AgentSnapshotRef}
    {inputOverride : Option Object} {result : RepetitionResult A}
    (h : (runSingle x case runInfo ref overrides inputOverride).run s = (.ok result, s')) :
    selected x s.adapterCache overrides = .ok result.adapter ∧ result.trace.agent = ref ∧
      Settled x s'.adapterCache overrides result.adapter := by
  rw [runSingle, run_bind_eq_ok] at h
  obtain ⟨adapter, s₁, hadapter, h⟩ := h
  obtain ⟨hselected, hsettled⟩ := adapterFor_eq_ok hadapter
  obtain ⟨answer, s₂, hinvoked, h⟩ := run_bind_eq_ok.mp h
  have hgrows : Grows x s₁ s₂ := .of_run (grows_invoked _ _) hinvoked
  cases answer with
  | error text =>
    obtain ⟨rfl, rfl⟩ := by simpa using h
    exact ⟨hselected, rfl, hgrows _ _ hsettled⟩
  | ok response =>
    obtain ⟨_, s₃, hrecord, h⟩ := run_bind_eq_ok.mp h
    obtain ⟨rfl, rfl⟩ := by simpa using h
    have hrecorded : Grows x s₂ s₃ := .of_run (grows_outside _) hrecord
    exact ⟨hselected, rfl, hrecorded _ _ (hgrows _ _ hsettled)⟩

/-- Every trace of the run names the agent of the adapter that was invoked for it. -/
def Attributed (x : Executor A W) (caseRun : CaseRun A) : Prop :=
  ∀ result ∈ caseRun.repetitions, result.trace.agent = refOf x result.adapter

/-- The results of a proposal, each of the adapter that is chosen for it and with the same
reference. -/
structure Ran (x : Executor A W) (overrides : Object) (chosen : Except Raised A)
  (ref : AgentSnapshotRef)
    (results : List (RepetitionResult A)) (s : Session A W) : Prop where
  selected_eq : selected x s.adapterCache overrides = chosen
  settled : results ≠ [] → ∃ adapter,
    chosen = .ok adapter ∧ Settled x s.adapterCache overrides adapter
  results_eq : ∀ result ∈ results, chosen = .ok result.adapter ∧ result.trace.agent = ref

section Ran
variable {chosen : Except Raised A} {ref : AgentSnapshotRef} {results : List (RepetitionResult A)}

theorem ran_nil (s : Session A W) :
    Ran x overrides (selected x s.adapterCache overrides) ref [] s := ⟨rfl, by simp, by simp⟩

theorem Ran.of_grows (h : Ran x overrides (.ok adapter) ref results s)
    (hsettled : Settled x s.adapterCache overrides adapter) (hgrows : Grows x s s') :
    Ran x overrides (.ok adapter) ref results s' :=
  have hsettled' := hgrows _ _ hsettled
  ⟨hsettled'.selected_eq, fun _ => ⟨adapter, rfl, hsettled'⟩, h.results_eq⟩

theorem Ran.of_outside {α : Type} {f : W → Except Raised α × W} {r : Except Raised α}
    (h : Ran x overrides chosen ref results s) (hrun : (outside f).run s = (r, s')) :
    Ran x overrides chosen ref results s' := by
  have hs' : s'.adapterCache = s.adapterCache := by
    rw [run_outside, Prod.mk.injEq] at hrun
    rw [← hrun.2]
  refine ⟨?_, ?_, h.results_eq⟩
  · rw [hs', h.selected_eq]
  · rw [hs']
    exact h.settled

theorem Ran.snoc {case : EvalCase} {runInfo : RunInfo} {inputOverride : Option Object}
    {result : RepetitionResult A} (h : Ran x overrides chosen ref results s)
    (hrun : (runSingle x case runInfo ref overrides inputOverride).run s = (.ok result, s')) :
    Ran x overrides chosen ref (results ++ [result]) s' := by
  obtain ⟨hselected, href, hsettled⟩ := runSingle_spec hrun
  obtain rfl : chosen = .ok result.adapter := h.selected_eq.symm.trans hselected
  refine ⟨hsettled.selected_eq, fun _ => ⟨_, rfl, hsettled⟩, fun r hr => ?_⟩
  obtain hr | hr := List.mem_append.mp hr
  · exact h.results_eq r hr
  · rw [List.mem_singleton.mp hr]
    exact ⟨rfl, href⟩

/-- Where something ran, the traces name the agents of their adapters when the reference is that
of the adapter that is chosen. -/
theorem Ran.forall_agent_iff (h : Ran x overrides chosen ref results s) (hne : results ≠ []) :
    (∀ result ∈ results, result.trace.agent = refOf x result.adapter) ↔
      ∀ adapter, chosen = .ok adapter → ref = refOf x adapter := by
  constructor
  · intro hall adapter hchosen
    obtain ⟨result, hresult⟩ := List.exists_mem_of_ne_nil _ hne
    obtain ⟨hadapter, href⟩ := h.results_eq result hresult
    rw [← href, hall result hresult, Except.ok.inj (hadapter.symm.trans hchosen)]
  · intro heq result hresult
    obtain ⟨hadapter, href⟩ := h.results_eq result hresult
    rw [href, heq _ hadapter]

end Ran

/-- **The executor records** one adapter's agent, and invokes that adapter. -/
theorem ran_runCase {case : EvalCase} {repetitions : ℤ} {labels : Labels} {caseRun : CaseRun A}
    (h : (runCase x case repetitions labels overrides).run s = (.ok caseRun, s')) :
    ∃ adapter, selected x s.adapterCache overrides = .ok adapter ∧ caseRun.repetitions ≠ [] ∧
      Ran x overrides (.ok adapter) (refOf x adapter) caseRun.repetitions s' := by
  unfold runCase at h
  split_ifs at h with hreps
  · cases h
  obtain ⟨ref, s₁, href, h⟩ := run_bind_eq_ok.mp h
  obtain ⟨adapter, s₂, hadapter, href⟩ := run_bind_eq_ok.mp href
  obtain ⟨rfl, rfl⟩ := by simpa using href
  obtain ⟨results, s₃, hresults, h⟩ := run_bind_eq_ok.mp h
  obtain ⟨rfl, rfl⟩ := by simpa using h
  obtain ⟨hselected, hsettled⟩ := adapterFor_eq_ok hadapter
  obtain ⟨hran, -, hlength⟩ : Ran x overrides (.ok adapter) (refOf x adapter) results s₃ ∧
      Settled x s₃.adapterCache overrides adapter ∧
      results.length = ([] ++ List.range repetitions.toNat).length := by
    refine inv_of_run_foldlM (I := fun done results s =>
      Ran x overrides (.ok adapter) (refOf x adapter) results s ∧
      Settled x s.adapterCache overrides adapter ∧ results.length = done.length) ?_
      ⟨⟨hsettled.selected_eq, fun _ => ⟨adapter, rfl, hsettled⟩, by simp⟩, hsettled, rfl⟩ hresults
    rintro done rep results s results' s' ⟨hran, hsettled, hlength⟩ hturn
    obtain ⟨runId, s₁, hid, hturn⟩ := run_bind_eq_ok.mp hturn
    obtain ⟨_, s₂, hpause, hturn⟩ := run_bind_eq_ok.mp hturn
    obtain ⟨result, s₃, hrun, hturn⟩ := run_bind_eq_ok.mp hturn
    obtain ⟨rfl, rfl⟩ := by simpa using hturn
    have hgrows : Grows x s s₂ :=
      .trans _ _ _ (.of_run (grows_outside _) hid) (.of_run grows_pause hpause)
    have hnext := (hran.of_grows hsettled hgrows).snoc hrun
    obtain ⟨_, heq, hsettled'⟩ := hnext.settled (by simp)
    obtain rfl := Except.ok.inj heq
    exact ⟨hnext, hsettled', by simp [hlength]⟩
  refine ⟨adapter, hselected, ?_, hran⟩
  rw [← List.length_pos_iff_ne_nil, hlength, List.nil_append, List.length_range]
  omega

end Executor

end Selfevals.Runner.Executors
