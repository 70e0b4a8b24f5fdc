import Selfevals.Graders.Registry
import Selfevals.Lib.Run

/-!
# The registry window of `build_loop`

`registerGraderSpecs` registers the graders that a spec declares, one by one; it may stop part-way,
and what it has registered by then stays. `buildLoop` opens the window after everything that may
fail before it, and takes the declared names out again once registration is done, whether resolution
succeeds or raises.

A window is `Clean` when it leaves the registry as it was. This is a condition on what the spec
declares and what the registry holds under these names before the window.
-/

namespace Selfevals.Runner.LaunchGraders

open Lib.JsonValue Lib.Mapping Lib.Result Lib.Run Schemas.Enums Schemas.Experiments
  Repo.Loader.Models Graders.Registry

/-! ### Factories of declared graders -/

/-- What importing an entrypoint gives: an object, a `LoaderError`, or what user code raises. -/
inductive Resolution
  | object (id : String) (callable : Bool) (typeName : String)
  | loaderError (text : String)
  | raised (what : String)

/-- `resolve_agent_callable`, at the time of the call. -/
abbrev Importer := AgentEntrypoint → Resolution

/-- `_agent_entrypoint_for_judge`: only an embedded agent has an entrypoint to judge by. -/
def agentEntrypointForJudge (graderName : String) : AgentSpec → Except LaunchError AgentEntrypoint
  | .embedded a => .ok a.entrypoint
  | .cli _ => refused "CliAgentSpec"
  | .http _ => refused "HttpAgentSpec"
where
  refused (typeName : String) : Except LaunchError AgentEntrypoint :=
    .error (.userError [.text "grader ", .repr (.str graderName),
      .text (s!" (llm_judge) has no `judge_entrypoint` and the agent is not embedded ({typeName})" ++
        "; add an explicit `judge_entrypoint: 'mod:fn'`")])

/-- The adapter of the judge that a spec names, or of the agent. -/
def judgeAdapter (importer : Importer) (agent : AgentSpec) (g : GraderSpec) :
    Except LaunchError JudgeAdapter := do
  let entry ← match g.judgeEntrypoint with
    | some entry => pure entry
    | none => agentEntrypointForJudge g.name.val agent
  match importer entry with
  | .loaderError text => throw (.userError [.text text])
  | .raised what => throw (.raised what)
  | .object id callable typeName =>
    if callable then return { callable := id, entrypoint := entry }
    else throw (.userError [.text "agent entrypoint ", .repr (.str entry.raw),
      .text s!" resolved to a non-callable ({typeName})"])

/-- `g_spec.rubric or ""`. -/
def rubricOf (g : GraderSpec) : String := (g.rubric.map Subtype.val).getD ""

/-- The factory that `register_grader_specs` makes for a spec, by its type. -/
def factoryOf (host : GraderHost) (importer : Importer) (agent : AgentSpec) (g : GraderSpec) :
    Except LaunchError GraderFactory :=
  let name := g.name.val
  match g.type with
  | .deterministic => .ok (.deterministic name)
  | .llmJudge => do
    let judge ← judgeAdapter importer agent g
    return .llmJudge name judge (rubricOf g)
  | .judgePanel => do
    let judge ← judgeAdapter importer agent g
    return .judgePanel name judge (rubricOf g) ((g.nJudges.map Subtype.val).getD 3)
      (g.consensus.getD .majority)
  | .pairwise => do
    let judge ← judgeAdapter importer agent g
    return .pairwise name judge (rubricOf g)
      (dictGetD g.params "compare_against" (.str "reference"))
      (dictGetD g.params "tie_is_pass" (.bool true)).truthy
      (dictGetD g.params "swap_and_average" (.bool false)).truthy
  | .setMatch => do
    let threshold ← toFloat host (dictGetD g.params "threshold" (.float 1))
    return .setMatch name (dictGetD g.params "gating" (.str "completeness")) threshold
      (dictGetD g.params "case_sensitive" (.bool false)).truthy
  | .funnel => .ok (.funnel name (dictGetD g.params "levels" (.arr [])))
  | .confusion =>
    let expectedFrom := dictGet g.params "expected_from"
    .ok (.confusion name (toStr host (dictGetD g.params "extract" (.str "label")))
      (if expectedFrom.isNull then none else some (toStr host expectedFrom))
      (dictGetD g.params "case_sensitive" (.bool false)).truthy)

/-! ### Registration -/

/-- `register_grader_specs`: the registry it leaves, and the registered names if it does not raise.
-/
def registerGraderSpecs (host : GraderHost) (importer : Importer) (agent : AgentSpec) :
    List GraderSpec → List String → GraderRegistry →
      GraderRegistry × Except LaunchError (List String)
  | [], registered, registry => (registry, .ok registered)
  | g :: gs, registered, registry =>
    match factoryOf host importer agent g >>= fun f => registerGrader g.name.val f registry with
    | .error e => (registry, .error e)
    | .ok registry' =>
      registerGraderSpecs host importer agent gs (registered ++ [g.name.val]) registry'

/-- The assignments that registration makes before it raises, if it does. -/
def registrations (host : GraderHost) (importer : Importer) (agent : AgentSpec) :
    List GraderSpec → List (String × GraderFactory)
  | [] => []
  | g :: gs =>
    match factoryOf host importer agent g with
    | .error _ => []
    | .ok factory => (g.name.val, factory) :: registrations host importer agent gs

/-- Every declared grader has a factory, so registration does not raise. -/
def Registers (host : GraderHost) (importer : Importer) (agent : AgentSpec) (gs : List GraderSpec) :
    Prop :=
  ∀ g ∈ gs, (factoryOf host importer agent g).isOk
deriving Decidable

section Registration
variable {host : GraderHost} {importer : Importer} {agent : AgentSpec}

/-- **Registration is a run of assignments**, which raises if it is cut short. -/
theorem registerGraderSpecs_eq (gs : List GraderSpec) (registered : List String)
    (registry : GraderRegistry) :
    (registerGraderSpecs host importer agent gs registered registry).1 =
        setAll (registrations host importer agent gs) registry ∧
      (Registers host importer agent gs →
        (registerGraderSpecs host importer agent gs registered registry).2 =
          .ok (registered ++ gs.map fun g => g.name.val)) ∧
      (¬Registers host importer agent gs →
        ∃ e, (registerGraderSpecs host importer agent gs registered registry).2 = .error e) := by
  induction gs generalizing registered registry with
  | nil =>
    refine ⟨rfl, fun _ => ?_, fun h => absurd (fun g hg => absurd hg List.not_mem_nil) h⟩
    rw [registerGraderSpecs, List.map_nil, List.append_nil]
  | cons g gs ih =>
    rcases hfactory : factoryOf host importer agent g with e | factory
    · have hnot : ¬Registers host importer agent (g :: gs) := fun h => by
        have hg := h g List.mem_cons_self
        rw [hfactory] at hg
        exact Bool.noConfusion hg
      simp only [registerGraderSpecs, registrations, hfactory]
      exact ⟨rfl, fun h => absurd h hnot, fun _ => ⟨e, rfl⟩⟩
    · have hregister : registerGrader g.name.val factory registry =
          .ok (registry.set g.name.val factory) := if_neg g.name.property
      have hbind : (factoryOf host importer agent g >>= fun f =>
          registerGrader g.name.val f registry) = .ok (registry.set g.name.val factory) := by
        rw [hfactory]
        exact hregister
      have hstep : registerGraderSpecs host importer agent (g :: gs) registered registry =
          registerGraderSpecs host importer agent gs (registered ++ [g.name.val])
            (registry.set g.name.val factory) := by
        rw [registerGraderSpecs, hbind]
      obtain ⟨hreg, hok, herr⟩ := ih (registered ++ [g.name.val]) (registry.set g.name.val factory)
      have hall : Registers host importer agent (g :: gs) ↔ Registers host importer agent gs := by
        unfold Registers
        rw [List.forall_mem_cons, hfactory]
        exact and_iff_right rfl
      rw [hstep, registrations, hfactory, hall]
      refine ⟨hreg, fun h => ?_, herr⟩
      rw [hok h, List.map_cons, List.append_assoc]
      rfl

theorem map_fst_registrations {gs : List GraderSpec} (h : Registers host importer agent gs) :
    (registrations host importer agent gs).map Prod.fst = gs.map fun g => g.name.val := by
  induction gs with
  | nil => rfl
  | cons g gs ih =>
    rcases hfactory : factoryOf host importer agent g with e | factory
    · have hg := h g List.mem_cons_self
      rw [hfactory] at hg
      exact Bool.noConfusion hg
    · rw [registrations, hfactory]
      show g.name.val :: (registrations host importer agent gs).map Prod.fst = _
      rw [ih fun g' hg' => h g' (List.mem_cons_of_mem _ hg'), List.map_cons]

end Registration

/-! ### Resolution -/

/-- The names that cases list, each once, in the order they are first seen. -/
def referencedNames (caseGraders : List (List String)) : List String :=
  firstSeen caseGraders.flatten

/-- `resolve_case_graders`: of the `graders` of each case. -/
def resolveCaseGraders (host : GraderHost) (registry : GraderRegistry)
    (caseGraders : List (List String)) :
    Except LaunchError (List Grader) :=
  let referenced := referencedNames caseGraders
  if referenced = [] then .ok [.mk (some "deterministic") (.inl (.cls .deterministic)) []]
  else resolveGraders host registry referenced

/-! ### The window -/

/-- One call of `build_loop`. Before the window it builds the adapter and the proposer and resolves
the dataset, which gives the cases; after it, it persists what it has and starts a receiver. Neither
touches the registry, and each may raise. -/
structure Call (κ : Type) where
  spec : ExperimentSpec κ
  importer : Importer
  host : GraderHost
  caseGraders : κ → List String
  before : Except LaunchError (List κ)
  after : Except LaunchError Unit

variable {κ : Type}

/-- The window: register, resolve, and take the registered names out again. -/
def registryWindow (call : Call κ) (cases : List κ) (registry : GraderRegistry) :
    GraderRegistry × Except LaunchError (List Grader) :=
  match registerGraderSpecs call.host call.importer call.spec.agent call.spec.graders []
    registry with
  | (registry', .error e) => (registry', .error e)
  | (registry', .ok registered) =>
    (registered.foldl (fun r name => unregisterGrader name r) registry',
      resolveCaseGraders call.host registry' (cases.map call.caseGraders))

/-- `build_loop`: the registry it leaves, and the graders of the loop if it does not raise. -/
def buildLoop (call : Call κ) (registry : GraderRegistry) :
    GraderRegistry × Except LaunchError (List Grader) :=
  match call.before with
  | .error e => (registry, .error e)
  | .ok cases =>
    let (registry', graders) := registryWindow call cases registry
    (registry', graders >>= fun graders => call.after.map fun _ => graders)

/-- What a call must find to leave the registry as it was. -/
def Clean (registry : GraderRegistry) (call : Call κ) : Prop :=
  call.before.isOk →
    if Registers call.host call.importer call.spec.agent call.spec.graders then
      ∀ g ∈ call.spec.graders, registry.get? g.name.val = none
    else
      ∀ name factory,
        (Dict.ofItems (registrations call.host call.importer call.spec.agent
          call.spec.graders)).get? name = some factory → registry.get? name = some factory

theorem same_unregisterAll_setAll_iff (items : List (String × GraderFactory))
    (registry : GraderRegistry) :
    ((items.map Prod.fst).foldl (fun r name => unregisterGrader name r)
        (setAll items registry)).Same registry ↔
      ∀ name ∈ items.map Prod.fst, registry.get? name = none := by
  have hread : ∀ k, ((items.map Prod.fst).foldl (fun r name => unregisterGrader name r)
      (setAll items registry)).get? k =
        if k ∈ items.map Prod.fst then none else registry.get? k := by
    intro k
    rw [get?_unregisterAll]
    by_cases hmem : k ∈ items.map Prod.fst
    · rw [if_pos hmem, if_pos hmem]
    · have hout : (Dict.ofItems items).get? k = none := by
        rw [← Option.not_isSome_iff_eq_none, ← Dict.mem_keys_iff, Dict.mem_keys_ofItems]
        exact hmem
      rw [if_neg hmem, if_neg hmem, get?_setAll, hout, Option.none_or]
  constructor
  · intro h name hname
    have hsame := h name
    rw [hread, if_pos hname] at hsame
    exact hsame.symm
  · intro h k
    rw [hread]
    split_ifs with hmem
    · exact (h k hmem).symm
    · rfl

/-- **One call** leaves the registry as it was exactly when it is clean. -/
theorem same_buildLoop_iff (call : Call κ) (registry : GraderRegistry) :
    (buildLoop call registry).1.Same registry ↔ Clean registry call := by
  unfold buildLoop Clean
  rcases hbefore : call.before with e | cases
  · exact ⟨fun _ h => Bool.noConfusion h, fun _ => .refl _⟩
  · have hran : (Except.ok cases : Except LaunchError (List κ)).isOk = true := rfl
    rw [forall_prop_of_true hran]
    show (registryWindow call cases registry).1.Same registry ↔ _
    obtain ⟨hreg, hok, herr⟩ := registerGraderSpecs_eq call.spec.graders [] registry
    unfold registryWindow
    rcases hrun : registerGraderSpecs call.host call.importer call.spec.agent call.spec.graders []
      registry with ⟨registry', outcome⟩
    rw [hrun] at hreg hok herr
    obtain rfl : registry' = _ := hreg
    split_ifs with hall
    · obtain rfl : outcome = _ := hok hall
      have hnames := map_fst_registrations hall
      show ((([] : List String) ++ call.spec.graders.map fun g => g.name.val).foldl
        (fun r name => unregisterGrader name r) (setAll _ registry)).Same registry ↔ _
      rw [List.nil_append, ← hnames, same_unregisterAll_setAll_iff, hnames]
      simp only [List.forall_mem_map]
    · obtain ⟨e, rfl⟩ := herr hall
      exact same_setAll_iff _ registry

/-! ### Calls in one process -/

/-- A call changes the registry of the process. -/
def step (registry : GraderRegistry) (call : Call κ) : Option GraderRegistry :=
  some (buildLoop call registry).1

/-- Every call leaves the registry as it was before the call. -/
def Hermetic (registry : GraderRegistry) (calls : List (Call κ)) : Prop :=
  Guarded step (fun registry call => (buildLoop call registry).1.Same registry) registry calls

theorem clean_congr {registry registry' : GraderRegistry} (h : registry.Same registry')
    (call : Call κ) : Clean registry call ↔ Clean registry' call := by
  have hget : registry.get? = registry'.get? := funext h
  unfold Clean
  rw [hget]

theorem guarded_forall_iff (P : Call κ → Prop) (registry : GraderRegistry) (calls : List (Call κ)) :
    Guarded step (fun _ call => P call) registry calls ↔ ∀ call ∈ calls, P call := by
  induction calls generalizing registry with
  | nil => simp [Guarded]
  | cons call calls ih =>
    rw [List.forall_mem_cons]
    constructor
    · rintro ⟨hcall, hrest⟩
      exact ⟨hcall, (ih _).mp (hrest _ rfl)⟩
    · rintro ⟨hcall, hrest⟩
      exact ⟨hcall, fun registry' _ => (ih registry').mpr hrest⟩

/-- **The registry is as it was after every call, successful or not, exactly when every call is
clean** against the registry the process started with. -/
theorem hermetic_iff (registry : GraderRegistry) (calls : List (Call κ)) :
    Hermetic registry calls ↔ ∀ call ∈ calls, Clean registry call := by
  have hmeets : Hermetic registry calls ↔
      Guarded step (fun _ call => Clean registry call) registry calls := by
    refine guarded_congr (I := fun r : GraderRegistry => r.Same registry) ?_ ?_ (.refl registry)
    · intro r call hsame
      rw [same_buildLoop_iff, clean_congr hsame]
    · intro r call r' hsame hclean hstep
      obtain rfl := Option.some.inj hstep
      have hcall := (same_buildLoop_iff call r).mpr ((clean_congr hsame call).mpr hclean)
      exact fun k => (hcall k).trans (hsame k)
  rw [hmeets]
  exact guarded_forall_iff _ registry calls

/-! ### A spec that declares a built-in name -/

/-- A host with nothing to import. -/
def bareHost : GraderHost where
  importModule name := .importError s!"No module named '{name}'"
  callPlugin id := .error (.raised id)
  parseFloat _ := none
  str _ := ""
  recursionLimit := 1000

/-- A run whose spec declares one grader, and whose one case names it. -/
def oneGraderCall (name : NonEmptyStr) : Call Unit where
  spec := {
    workspaceId := .str "ws"
    experiment := Experiment.minimal
    cases := [()]
    agent := .cli { command := ["agent"], command_ne_nil := by decide }
    datasetSource := .inline { cases := [()] }
    graders := [{ type := .deterministic, name }] }
  importer entry := .loaderError entry.raw
  host := bareHost
  caseGraders _ := [name.val]
  before := .ok [()]
  after := .ok ()

/-- After a run that declares `deterministic`, the built-in of that name is gone. -/
theorem not_hermetic : ¬∀ (registry : GraderRegistry) (calls : List (Call Unit)),
    Hermetic registry calls := by
  intro h
  have hsame := (h builtins [oneGraderCall ⟨"deterministic", by decide⟩]).1 "deterministic"
  have hgone : ((buildLoop (oneGraderCall ⟨"deterministic", by decide⟩) builtins).1.get?
      "deterministic").isNone := by decide
  have hthere : (builtins.get? "deterministic").isSome := by decide
  rw [hsame, ← Option.not_isSome, hthere] at hgone
  exact Bool.noConfusion hgone

end Selfevals.Runner.LaunchGraders
