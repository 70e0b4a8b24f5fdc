import Selfevals.Storage.Migrations

/-!
# The twelve migrations

Each migration is a list of statements that define tables, indexes, columns and one constraint, and
do nothing where what they define is there already; `m0011` replaces the constraint that `m0004`
made with its table. `Schema` says which migration defined each object, so that a migration which is
run again over the work of a later one would show.

* `settled_of_exec`, `exec_of_settled`: what a statement leaves behind makes it do nothing.
* `staged_package`: the twelve migrations are what the runner relies on. What has to be checked of
  them is that they run in order and that no constraint is replaced twice.
-/

namespace Selfevals.Storage.MigrationSchemas

open Lib.Run Storage.Migrations

inductive Table
  | objects | workspaces | members | experiments | experimentGuardrails | experimentDatasetGates
  | experimentFrozenRefs | evalCases | iterationRecords | iterationTraceRuns | iterationGuardrails
  | iterationReliability | iterationFailureModeCounts | decisionRecords | decisionNextActions
  | runJobs | datasets | datasetCases | datasetBaselines | traces | traceSpans | traceLlmCalls
  | traceLlmToolRequests | traceToolCalls | traceRetrievalSpans | traceRetrievedDocs
  | traceMemoryReadSpans | traceMemoryWriteSpans | traceDecisionSpans | traceHandoffSpans
  | traceHumanInterventionSpans | traceGuardrailCheckSpans | traceErrorSpans | traceCustomSpans
  | traceGraderResults | traceLinks | agents | agentFleets | agentFleetRefs | tools | graderCards
  | featureRegistries | riskRegistries | riskRegistryDimensions | failureModes
  | failureModeExamples | annotations | hypothesisRecords | analysisStagingRecords
  | pairwiseVerdicts | tournaments | tournamentRows | scenarioJobs | scenarioOutcomes | arenas
  | arenaVariants | arenaRounds | traceSttSpans | traceTtsSpans | users | userSessions | apiKeys
deriving DecidableEq

/-- The indexes. -/
inductive Index
  | idxObjectsWorkspace | idxObjectsContentHash | idxWorkspacesOwner | idxMembersWorkspace
  | idxExperimentsWorkspaceUpdated | idxExperimentsWorkspaceState | idxExperimentsTargetFeatures
  | idxEvalCasesWorkspaceExperiment | idxIterationsWorkspaceExperimentIteration
  | idxIterationsWorkspaceUpdated | idxDecisionsWorkspaceExperimentIteration
  | idxRunJobsWorkspaceStatusUpdated | idxRunJobsLease | idxRunJobsWorkspaceExperiment
  | idxDatasetsWorkspace | idxDatasetBaselinesWorkspaceDataset | idxTracesWorkspaceRun
  | idxTracesWorkspaceThread | idxTracesWorkspaceExperimentIteration
  | idxTracesWorkspaceCaseStarted | idxTraceSpansTrace | idxTraceSpansKind | idxTraceLlmCallsModel
  | idxTraceToolCallsTool | idxTraceGraderResultsLabel | idxTraceGraderResultsFailureModes
  | idxAgentsWorkspace | idxAgentFleetsWorkspace | idxToolsWorkspace | idxGraderCardsWorkspace
  | idxFeatureRegistriesWorkspace | idxRiskRegistriesWorkspace | idxFailureModesWorkspace
  | idxAnnotationsWorkspaceCase | idxHypothesisRecordsWorkspaceExperiment
  | idxAnalysisStagingWorkspaceExperiment | idxPairwiseVerdictsWsExp | idxTournamentsWsExp
  | idxScenarioJobsClaimable | idxScenarioJobsBarrier | idxScenarioJobsLease
  | idxScenarioOutcomesIteration | idxArenasWorkspaceState | idxArenaVariantsArena
  | idxArenaRoundsArena | idxUsersEmailLower | idxUserSessionsToken | idxUserSessionsUser
  | idxApiKeysHash | idxApiKeysWorkspace
deriving DecidableEq

inductive Column
  | referenceOutput | criticalFailureModes | argsInline | resultInline
deriving DecidableEq

/-- The constraints with a name. -/
inductive Constraint
  | traceSpansKindCheck
deriving DecidableEq

inductive Object
  | table (t : Table)
  | index (i : Index)
  | column (c : Column)
  | constraint (c : Constraint)
deriving DecidableEq

/-- The version of the migration that defined an object. -/
abbrev Schema := Object → Option ℕ

/-- The statements of migrations. -/
inductive Ddl
  /-- `CREATE TABLE IF NOT EXISTS`, with the tables it references and the constraints that get a
  name a later statement uses. -/
  | createTable (table : Table) (references : List Table) (constraints : List Constraint)
  /-- `CREATE INDEX IF NOT EXISTS`. -/
  | createIndex (index : Index) (table : Table)
  /-- `ALTER TABLE .. ADD COLUMN IF NOT EXISTS`. -/
  | addColumn (table : Table) (column : Column)
  /-- `ALTER TABLE .. DROP CONSTRAINT IF EXISTS`, then `ADD CONSTRAINT`. -/
  | replaceConstraint (table : Table) (constraint : Constraint)

def Schema.define (version : ℕ) (objects : List Object) (schema : Schema) : Schema :=
  fun o => if o ∈ objects then some version else schema o

/-- One statement: `none` where a table it names does not exist. -/
def Ddl.exec (version : ℕ) (schema : Schema) : Ddl → Option Schema
  | .createTable t references constraints =>
    if (schema (.table t)).isSome then some schema
    else if references.all fun r => (schema (.table r)).isSome then
      some (schema.define version (.table t :: constraints.map .constraint))
    else none
  | .createIndex i t =>
    if !(schema (.table t)).isSome then none
    else if (schema (.index i)).isSome then some schema
    else some (schema.define version [.index i])
  | .addColumn t c =>
    if !(schema (.table t)).isSome then none
    else if (schema (.column c)).isSome then some schema
    else some (schema.define version [.column c])
  | .replaceConstraint t c =>
    if !(schema (.table t)).isSome then none else some (schema.define version [.constraint c])

/-- Statements in order, each with the version of its migration. -/
def run (statements : List (ℕ × Ddl)) (schema : Schema) : Option Schema :=
  statements.foldlM (fun schema d => d.2.exec d.1 schema) schema

/-- A migration module. -/
structure Module where
  version : ℕ
  name : String
  statements : List Ddl

def Module.tagged (m : Module) : List (ℕ × Ddl) := m.statements.map fun d => (m.version, d)

/-- `up` is one `execute` of all the statements, so they take effect together or not at all. -/
def Module.up (m : Module) : Schema → Option Schema := run m.tagged

def initial : Module where
  version := 1
  name := "m0001_initial"
  statements :=
    [.createTable .objects [] [], .createIndex .idxObjectsWorkspace .objects,
      .createIndex .idxObjectsContentHash .objects, .createTable .workspaces [] [],
      .createIndex .idxWorkspacesOwner .workspaces, .createTable .members [.workspaces] [],
      .createIndex .idxMembersWorkspace .members]

def experiments : Module where
  version := 2
  name := "m0002_experiments"
  statements :=
    [.createTable .experiments [.workspaces] [],
      .createIndex .idxExperimentsWorkspaceUpdated .experiments,
      .createIndex .idxExperimentsWorkspaceState .experiments,
      .createIndex .idxExperimentsTargetFeatures .experiments,
      .createTable .experimentGuardrails [.experiments] [],
      .createTable .experimentDatasetGates [.experiments] [],
      .createTable .experimentFrozenRefs [.experiments] []]

def runEntities : Module where
  version := 3
  name := "m0003_run_entities"
  statements :=
    [.createTable .evalCases [.workspaces, .experiments] [],
      .createIndex .idxEvalCasesWorkspaceExperiment .evalCases,
      .createTable .iterationRecords [.workspaces, .experiments] [],
      .createIndex .idxIterationsWorkspaceExperimentIteration .iterationRecords,
      .createIndex .idxIterationsWorkspaceUpdated .iterationRecords,
      .createTable .iterationTraceRuns [.iterationRecords] [],
      .createTable .iterationGuardrails [.iterationRecords] [],
      .createTable .iterationReliability [.iterationRecords] [],
      .createTable .iterationFailureModeCounts [.iterationRecords] [],
      .createTable .decisionRecords [.workspaces, .experiments] [],
      .createIndex .idxDecisionsWorkspaceExperimentIteration .decisionRecords,
      .createTable .decisionNextActions [.decisionRecords] [],
      .createTable .runJobs [.workspaces, .experiments] [],
      .createIndex .idxRunJobsWorkspaceStatusUpdated .runJobs,
      .createIndex .idxRunJobsLease .runJobs,
      .createIndex .idxRunJobsWorkspaceExperiment .runJobs,
      .createTable .datasets [.workspaces] [], .createIndex .idxDatasetsWorkspace .datasets,
      .createTable .datasetCases [.datasets] [], .createTable .datasetBaselines [.workspaces] [],
      .createIndex .idxDatasetBaselinesWorkspaceDataset .datasetBaselines]

def traces : Module where
  version := 4
  name := "m0004_traces"
  statements :=
    [.createTable .traces [.workspaces] [], .createIndex .idxTracesWorkspaceRun .traces,
      .createIndex .idxTracesWorkspaceThread .traces,
      .createIndex .idxTracesWorkspaceExperimentIteration .traces,
      .createIndex .idxTracesWorkspaceCaseStarted .traces,
      .createTable .traceSpans [.traces] [.traceSpansKindCheck],
      .createIndex .idxTraceSpansTrace .traceSpans, .createIndex .idxTraceSpansKind .traceSpans,
      .createTable .traceLlmCalls [.traceSpans] [],
      .createIndex .idxTraceLlmCallsModel .traceLlmCalls,
      .createTable .traceLlmToolRequests [.traceLlmCalls] [],
      .createTable .traceToolCalls [.traceSpans] [],
      .createIndex .idxTraceToolCallsTool .traceToolCalls,
      .createTable .traceRetrievalSpans [.traceSpans] [],
      .createTable .traceRetrievedDocs [.traceRetrievalSpans] [],
      .createTable .traceMemoryReadSpans [.traceSpans] [],
      .createTable .traceMemoryWriteSpans [.traceSpans] [],
      .createTable .traceDecisionSpans [.traceSpans] [],
      .createTable .traceHandoffSpans [.traceSpans] [],
      .createTable .traceHumanInterventionSpans [.traceSpans] [],
      .createTable .traceGuardrailCheckSpans [.traceSpans] [],
      .createTable .traceErrorSpans [.traceSpans] [],
      .createTable .traceCustomSpans [.traceSpans] [],
      .createTable .traceGraderResults [.traces] [],
      .createIndex .idxTraceGraderResultsLabel .traceGraderResults,
      .createIndex .idxTraceGraderResultsFailureModes .traceGraderResults,
      .createTable .traceLinks [.traces] []]

def coldEntities : Module where
  version := 5
  name := "m0005_cold_entities"
  statements :=
    [.createTable .agents [.workspaces] [], .createIndex .idxAgentsWorkspace .agents,
      .createTable .agentFleets [.workspaces] [],
      .createIndex .idxAgentFleetsWorkspace .agentFleets,
      .createTable .agentFleetRefs [.agentFleets] [], .createTable .tools [.workspaces] [],
      .createIndex .idxToolsWorkspace .tools, .createTable .graderCards [.workspaces] [],
      .createIndex .idxGraderCardsWorkspace .graderCards,
      .createTable .featureRegistries [.workspaces] [],
      .createIndex .idxFeatureRegistriesWorkspace .featureRegistries,
      .createTable .riskRegistries [.workspaces] [],
      .createIndex .idxRiskRegistriesWorkspace .riskRegistries,
      .createTable .riskRegistryDimensions [.riskRegistries] [],
      .createTable .failureModes [.workspaces] [],
      .createIndex .idxFailureModesWorkspace .failureModes,
      .createTable .failureModeExamples [.failureModes] [],
      .createTable .annotations [.workspaces] [],
      .createIndex .idxAnnotationsWorkspaceCase .annotations]

def analysisEntities : Module where
  version := 6
  name := "m0006_analysis_entities"
  statements :=
    [.createTable .hypothesisRecords [.workspaces] [],
      .createIndex .idxHypothesisRecordsWorkspaceExperiment .hypothesisRecords,
      .createTable .analysisStagingRecords [.workspaces] [],
      .createIndex .idxAnalysisStagingWorkspaceExperiment .analysisStagingRecords]

def verdictEntities : Module where
  version := 7
  name := "m0007_verdict_entities"
  statements :=
    [.createTable .pairwiseVerdicts [.workspaces] [],
      .createIndex .idxPairwiseVerdictsWsExp .pairwiseVerdicts,
      .createTable .tournaments [.workspaces] [], .createIndex .idxTournamentsWsExp .tournaments,
      .createTable .tournamentRows [.tournaments] [], .addColumn .evalCases .referenceOutput,
      .addColumn .evalCases .criticalFailureModes]

def scenarioJobs : Module where
  version := 8
  name := "m0008_scenario_jobs"
  statements :=
    [.createTable .scenarioJobs [.workspaces, .runJobs, .experiments] [],
      .createIndex .idxScenarioJobsClaimable .scenarioJobs,
      .createIndex .idxScenarioJobsBarrier .scenarioJobs,
      .createIndex .idxScenarioJobsLease .scenarioJobs,
      .createTable .scenarioOutcomes [.workspaces, .runJobs, .scenarioJobs] [],
      .createIndex .idxScenarioOutcomesIteration .scenarioOutcomes]

def arena : Module where
  version := 9
  name := "m0009_arena"
  statements :=
    [.createTable .arenas [.workspaces] [], .createIndex .idxArenasWorkspaceState .arenas,
      .createTable .arenaVariants [.workspaces, .arenas] [],
      .createIndex .idxArenaVariantsArena .arenaVariants,
      .createTable .arenaRounds [.workspaces, .arenas] [],
      .createIndex .idxArenaRoundsArena .arenaRounds]

def toolSpanInline : Module where
  version := 10
  name := "m0010_tool_span_inline"
  statements :=
    [.addColumn .traceToolCalls .argsInline, .addColumn .traceToolCalls .resultInline]

def audioSpans : Module where
  version := 11
  name := "m0011_audio_spans"
  statements :=
    [.replaceConstraint .traceSpans .traceSpansKindCheck,
      .createTable .traceSttSpans [.traceSpans] [], .createTable .traceTtsSpans [.traceSpans] []]

def users : Module where
  version := 12
  name := "m0012_users"
  statements :=
    [.createTable .users [] [], .createIndex .idxUsersEmailLower .users,
      .createTable .userSessions [.users] [], .createIndex .idxUserSessionsToken .userSessions,
      .createIndex .idxUserSessionsUser .userSessions, .createTable .apiKeys [.workspaces] [],
      .createIndex .idxApiKeysHash .apiKeys, .createIndex .idxApiKeysWorkspace .apiKeys]

/-- The modules, in order. -/
def package : List Module :=
  [initial, experiments, runEntities, traces, coldEntities, analysisEntities, verdictEntities,
    scenarioJobs, arena, toolSpanInline, audioSpans, users]

/-- The migration of a module. -/
def Module.migration (m : Module) : Migration Schema := ⟨m.version, m.name, m.up⟩

def Module.info (m : Module) : String × (Schema → Option Schema) := (m.name, m.up)

/-- A database with nothing in it. -/
def empty : Schema := fun _ => none

/-! ### What a statement leaves behind -/

section
variable {version v w : ℕ} {schema schema' : Schema} {d d' : Ddl} {o : Object}

/-- What the statement is for is there. -/
def Settled (version : ℕ) (schema : Schema) : Ddl → Prop
  | .createTable t _ _ => (schema (.table t)).isSome
  | .createIndex i t => (schema (.table t)).isSome ∧ (schema (.index i)).isSome
  | .addColumn t c => (schema (.table t)).isSome ∧ (schema (.column c)).isSome
  | .replaceConstraint t c =>
    (schema (.table t)).isSome ∧ schema (.constraint c) = some version

/-- What the statement may define over what is there. -/
def Ddl.redefines : Ddl → List Object
  | .createTable _ _ constraints => constraints.map .constraint
  | .createIndex _ _ | .addColumn _ _ => []
  | .replaceConstraint _ c => [.constraint c]

/-- What the statement has to find as it left it, to do nothing. -/
def Ddl.replaced : Ddl → List Object
  | .replaceConstraint _ c => [.constraint c]
  | _ => []

theorem define_isSome (objects : List Object) (h : (schema o).isSome) :
    (schema.define version objects o).isSome := by
  rw [Schema.define]
  split
  · rfl
  · exact h

theorem exec_cases (h : d.exec version schema = some schema') :
    schema' = schema ∧ Settled version schema d ∨
      ∃ objects, schema' = schema.define version objects ∧ Settled version schema' d ∧
        ∀ o ∈ objects, o ∈ d.redefines ∨ schema o = none := by
  cases d with
  | createTable t references constraints =>
    rw [Ddl.exec] at h
    split at h
    · rename_i hsome
      exact .inl ⟨(Option.some.inj h).symm, hsome⟩
    · rename_i hnone
      split at h
      · refine .inr ⟨_, (Option.some.inj h).symm, ?_, fun o ho => ?_⟩
        · rw [← Option.some.inj h]
          simp [Settled, Schema.define]
        · rcases List.mem_cons.mp ho with rfl | ho
          · exact .inr (by simpa using hnone)
          · exact .inl ho
      · exact absurd h nofun
  | createIndex _ t | addColumn t _ =>
    rw [Ddl.exec] at h
    split at h
    · exact absurd h nofun
    · rename_i htable
      rw [Bool.not_eq_true', Bool.not_eq_false] at htable
      split at h
      · rename_i hsome
        exact .inl ⟨(Option.some.inj h).symm, htable, hsome⟩
      · rename_i hnone
        refine .inr ⟨_, (Option.some.inj h).symm, ?_, fun o ho => ?_⟩
        · rw [← Option.some.inj h]
          exact ⟨define_isSome _ htable, by simp [Schema.define]⟩
        · rw [List.mem_singleton.mp ho]
          exact .inr (by simpa using hnone)
  | replaceConstraint t c =>
    rw [Ddl.exec] at h
    split at h
    · exact absurd h nofun
    · rename_i htable
      rw [Bool.not_eq_true', Bool.not_eq_false] at htable
      refine .inr ⟨_, (Option.some.inj h).symm, ?_, fun o ho => .inl ho⟩
      rw [← Option.some.inj h]
      exact ⟨define_isSome _ htable, by simp [Schema.define]⟩

theorem settled_of_exec (h : d.exec version schema = some schema') :
    Settled version schema' d := by
  rcases exec_cases h with ⟨rfl, hs⟩ | ⟨_, -, hs, -⟩ <;> exact hs

/-- **A statement that has been run does nothing.** -/
theorem exec_of_settled (h : Settled version schema d) : d.exec version schema = some schema := by
  cases d with
  | createTable t references constraints => exact if_pos h
  | createIndex i t =>
    rw [Ddl.exec, if_neg (by simp [h.1]), if_pos h.2]
  | addColumn t c =>
    rw [Ddl.exec, if_neg (by simp [h.1]), if_pos h.2]
  | replaceConstraint t c =>
    rw [Ddl.exec, if_neg (by simp [h.1]), Option.some.injEq]
    funext o
    rw [Schema.define]
    split
    · rename_i ho
      rw [List.mem_singleton.mp ho]
      exact h.2.symm
    · rfl

theorem exec_isSome (h : d.exec version schema = some schema') (ho : (schema o).isSome) :
    (schema' o).isSome := by
  rcases exec_cases h with ⟨rfl, -⟩ | ⟨objects, rfl, -, -⟩
  · exact ho
  · exact define_isSome _ ho

theorem exec_eq (h : d.exec version schema = some schema') (ho : schema o = some v)
    (hnot : o ∉ d.redefines) : schema' o = some v := by
  rcases exec_cases h with ⟨rfl, -⟩ | ⟨objects, rfl, -, hobjects⟩
  · exact ho
  · rw [Schema.define]
    split
    · rename_i hmem
      rcases hobjects o hmem with hre | hnone
      · exact absurd hre hnot
      · exact absurd (hnone.symm.trans ho) nofun
    · exact ho

/-- The later statement leaves what the earlier one replaced. -/
def Compatible (d d' : Ddl) : Prop := ∀ o ∈ d.replaced, o ∉ d'.redefines

instance : DecidableRel Compatible := fun d d' =>
  inferInstanceAs (Decidable (∀ o ∈ d.replaced, o ∉ d'.redefines))

theorem Settled.keeps (hs : Settled v schema d) (h : d'.exec w schema = some schema')
    (hc : Compatible d d') : Settled v schema' d := by
  cases d with
  | createTable t references constraints => exact exec_isSome h hs
  | createIndex i t => exact ⟨exec_isSome h hs.1, exec_isSome h hs.2⟩
  | addColumn t c => exact ⟨exec_isSome h hs.1, exec_isSome h hs.2⟩
  | replaceConstraint t c =>
    exact ⟨exec_isSome h hs.1, exec_eq h hs.2 (hc _ (List.mem_singleton_self _))⟩

/-! ### Statements in order -/

variable {ds : List (ℕ × Ddl)} {t : ℕ × Ddl}

theorem run_cons (t : ℕ × Ddl) (ds : List (ℕ × Ddl)) (schema : Schema) :
    run (t :: ds) schema = (t.2.exec t.1 schema).bind (run ds) := rfl

theorem run_append (ds ds' : List (ℕ × Ddl)) (schema : Schema) :
    run (ds ++ ds') schema = (run ds schema).bind (run ds') := List.foldlM_append

theorem Settled.keeps_run (hs : Settled v schema d) (h : run ds schema = some schema')
    (hc : ∀ t ∈ ds, Compatible d t.2) : Settled v schema' d := by
  induction ds generalizing schema with
  | nil =>
    cases h
    exact hs
  | cons t ds ih =>
    obtain ⟨next, hnext, hrest⟩ := Option.bind_eq_some_iff.mp h
    exact ih (hs.keeps hnext (hc t List.mem_cons_self)) hrest fun t' ht' =>
      hc t' (List.mem_cons_of_mem _ ht')

/-- **After statements in order**, all of them are settled. -/
theorem settled_of_run (h : run ds schema = some schema')
    (hc : ds.Pairwise fun t t' => Compatible t.2 t'.2) : ∀ t ∈ ds, Settled t.1 schema' t.2 := by
  induction ds generalizing schema with
  | nil => exact nofun
  | cons t ds ih =>
    obtain ⟨next, hnext, hrest⟩ := Option.bind_eq_some_iff.mp h
    obtain ⟨hhead, htail⟩ := List.pairwise_cons.mp hc
    intro t' ht'
    rcases List.mem_cons.mp ht' with rfl | ht'
    · exact (settled_of_exec hnext).keeps_run hrest hhead
    · exact ih hrest htail t' ht'

/-- **Settled statements do nothing**, whatever their order. -/
theorem run_of_settled (h : ∀ t ∈ ds, Settled t.1 schema t.2) : run ds schema = some schema := by
  induction ds with
  | nil => rfl
  | cons t ds ih =>
    rw [run_cons, exec_of_settled (h t List.mem_cons_self), Option.bind_some]
    exact ih fun t' ht' => h t' (List.mem_cons_of_mem _ ht')

/-! ### The package -/

/-- The statements of modules in order. -/
def statements (ms : List Module) : List (ℕ × Ddl) := ms.flatMap Module.tagged

theorem foldlM_up (ms : List Module) (schema : Schema) :
    (ms.map Module.migration).foldlM (fun schema m => m.up schema) schema =
      run (statements ms) schema := by
  induction ms generalizing schema with
  | nil => rfl
  | cons m ms ih =>
    rw [statements, List.flatMap_cons, run_append]
    exact congrArg _ (funext fun next => ih next)

theorem schemaAt_eq (ms : List Module) (i : ℕ) :
    schemaAt (ms.map Module.migration) empty i = run (statements (ms.take i)) empty := by
  rw [schemaAt, ← List.map_take, foldlM_up]

/-- **Modules that run in order and replace no constraint twice** are what the runner relies on. -/
theorem staged_of_compatible {ms : List Module}
    (hruns : (run (statements ms) empty).isSome)
    (hc : (statements ms).Pairwise fun t t' => Compatible t.2 t'.2)
    (hversions : (ms.map Module.version).Nodup) : Staged (ms.map Module.migration) empty where
  runs i := by
    rw [schemaAt_eq, ← Option.isSome_iff_exists]
    rw [← List.take_append_drop i ms, statements, List.flatMap_append, run_append] at hruns
    exact Option.isSome_of_isSome_bind hruns
  again i j m schema hm hj hi := by
    rw [schemaAt_eq] at hi
    obtain ⟨m, hget, rfl⟩ := List.getElem?_map .. ▸ hm |> Option.map_eq_some_iff.mp
    have hmem : m ∈ ms.take i := List.mem_iff_getElem?.mpr
      ⟨j, by rw [List.getElem?_take_of_lt hj, hget]⟩
    have hsub : (statements (ms.take i)).Sublist (statements ms) := by
      conv_rhs => rw [← List.take_append_drop i ms, statements, List.flatMap_append]
      exact List.sublist_append_left ..
    refine run_of_settled fun t ht => settled_of_run hi (hc.sublist hsub) t ?_
    exact List.mem_flatMap.mpr ⟨m, hmem, ht⟩
  versions := by
    rw [List.map_map]
    exact hversions

theorem staged_package : Staged (package.map Module.migration) empty :=
  staged_of_compatible (by decide +kernel) (by decide +kernel) (by decide)

end

/-! ### The storages that open one database -/

theorem discoverMigrations_package {infos : List (String × (Schema → Option Schema))}
    (h : infos.Perm (package.map Module.info)) :
    discoverMigrations infos = package.map Module.migration := by
  refine discoverMigrations_eq ((h.filterMap _).trans ?_) (by decide)
  rfl

/-- Where a database is that has nothing in it at first: the first `n` migrations are recorded, the
schema is what `k` of them make of nothing. -/
structure Migrated (autocommit : ℕ → Bool) (n k : ℕ) (s : System Schema) : Prop where
  rows : s.db.rows.getD [] = (package.take n).map fun m => (m.version, m.name)
  schema : run (statements (package.take k)) empty = some s.db.schema
  ahead : k = n ∨ k = n + 1
  /-- Only a connection that commits by itself leaves a migration that is run and not recorded. -/
  together : (∀ p, autocommit p = false) → k = n
  current : currentVersion s.db = n
  returned : ∀ p vs, s.process p = .returned vs → n = package.length
  once : ∀ v, v ∈ s.db.versions ↔ ∃! p, v ∈ (s.process p).newlyApplied

theorem foldl_max_versions {n : ℕ} (hn : n ≤ package.length) :
    ((package.take n).map Module.version).foldl max 0 = n := by
  have hall : ∀ n ≤ package.length,
      ((package.take n).map Module.version).foldl max 0 = n := by decide
  exact hall n hn

theorem InStep.migrated {autocommit : ℕ → Bool} {n k : ℕ} {s : System Schema}
    (hs : InStep (package.map Module.migration) autocommit empty n k s) (ho : Once s) :
    Migrated autocommit n k s := by
  have hrows : s.db.rows.getD [] = (package.take n).map fun m => (m.version, m.name) := by
    rw [hs.consistent.rows, ← List.map_take, List.map_map]
    rfl
  have hle : n ≤ package.length := by simpa using hs.consistent.le
  refine ⟨hrows, ?_, ?_, hs.together, ?_, fun p vs hp => ?_, fun v => ?_⟩
  · rw [← schemaAt_eq]
    exact hs.consistent.schema
  · have h1 := hs.consistent.recorded_le
    have h2 := hs.consistent.le_succ
    omega
  · rw [currentVersion, hrows, List.map_map]
    exact foldl_max_versions hle
  · have hready := hs.ready p
    rw [hp] at hready
    simpa [Ready] using hready
  · rw [ho.recorded]
    constructor
    · rintro ⟨p, hp⟩
      exact ⟨p, hp, fun q hq => ho.unique v q p hq hp⟩
    · rintro ⟨p, hp, -⟩
      exact ⟨p, hp⟩

/-- **However many storages open a database at once, and wherever they stop**: the recorded versions
are an initial segment of the migrations, the schema is what the migrations of that segment, or one
more, make of nothing, and every recorded version was applied by exactly one of them. -/
theorem migrated_of_exec {infos : List (String × (Schema → Option Schema))}
    (hinfos : infos.Perm (package.map Module.info)) {autocommit : ℕ → Bool} {ops : List Op}
    {s : System Schema}
    (h : exec (step (discoverMigrations infos) autocommit) (start empty) ops = some s) :
    ∃ n k, Migrated autocommit n k s := by
  rw [discoverMigrations_package hinfos] at h
  obtain ⟨n, k, hs⟩ := inStep_of_exec staged_package h
  exact ⟨n, k, InStep.migrated hs (once_of_exec h)⟩

/-- A storage whose process is killed after the first `up` and before its row. -/
theorem migrated_of_exec_killed : ∃ s, exec (step (discoverMigrations (package.map Module.info))
      fun _ => true) (start empty) [.advance 0, .advance 0, .advance 0, .crash 0] = some s ∧
    s.db.rows = some [] ∧ s.db.schema (.table .objects) = some 1 ∧
    ∃ n k, Migrated (fun _ => true) n k s := by
  obtain ⟨s, h, hrows, hschema⟩ : ∃ s, exec (step (package.map Module.migration) fun _ => true)
      (start empty) [.advance 0, .advance 0, .advance 0, .crash 0] = some s ∧
      s.db.rows = some [] ∧ s.db.schema (.table .objects) = some 1 := ⟨_, rfl, rfl, rfl⟩
  rw [← discoverMigrations_package (.refl _)] at h
  exact ⟨s, h, hrows, hschema, migrated_of_exec (.refl _) h⟩

/-- **Whatever the others left behind**, a storage that is opened next and not interfered with
applies what is not on record and returns, over the schema of all the migrations. -/
theorem repaired_of_exec {infos : List (String × (Schema → Option Schema))}
    (hinfos : infos.Perm (package.map Module.info)) {autocommit : ℕ → Bool} {ops : List Op}
    {s : System Schema} {p : ℕ}
    (h : exec (step (discoverMigrations infos) autocommit) (start empty) ops = some s)
    (hp : s.process p = .opened) :
    ∃ ops' s', Alone p ops' ∧
      exec (step (discoverMigrations infos) autocommit) s ops' = some s' ∧
      s'.process p =
        .returned ((package.map Module.version).filter fun v => !s.db.versions.contains v) ∧
      s'.db.rows = some (package.map fun m => (m.version, m.name)) ∧
      run (statements package) empty = some s'.db.schema := by
  rw [discoverMigrations_package hinfos] at h ⊢
  obtain ⟨n, k, hs⟩ := inStep_of_exec staged_package h
  obtain ⟨ops', s', halone, hexec, hs', hreturned⟩ := exec_alone staged_package hs hp
  have hpending := filter_pending staged_package.versions hs.consistent.rows
  have hrows := hs'.consistent.rows
  rw [List.take_length, List.map_map] at hrows
  have hschema := hs'.consistent.schema
  rw [schemaAt_eq, List.length_map, List.take_length] at hschema
  refine ⟨ops', s', halone, hexec, ?_, ?_, hschema⟩
  · rw [hreturned, ← hpending, List.filter_map, List.map_map, List.filter_map]
    rfl
  · cases hdb : s'.db.rows with
    | none =>
      rw [hdb] at hrows
      exact absurd hrows.symm nofun
    | some rows =>
      rw [hdb] at hrows
      exact congrArg some hrows

/-- After the killed storage. -/
theorem repaired_of_exec_killed : ∃ s, exec (step (discoverMigrations (package.map Module.info))
      fun _ => true) (start empty) [.advance 0, .advance 0, .advance 0, .crash 0] = some s ∧
    ∃ ops' s', Alone 1 ops' ∧
      exec (step (discoverMigrations (package.map Module.info)) fun _ => true) s ops' = some s' ∧
      s'.process 1 =
        .returned ((package.map Module.version).filter fun v => !s.db.versions.contains v) ∧
      s'.db.rows = some (package.map fun m => (m.version, m.name)) ∧
      run (statements package) empty = some s'.db.schema := by
  obtain ⟨s, h, hopened⟩ : ∃ s, exec (step (package.map Module.migration) fun _ => true)
      (start empty) [.advance 0, .advance 0, .advance 0, .crash 0] = some s ∧
      s.process 1 = .opened := ⟨_, rfl, rfl⟩
  rw [← discoverMigrations_package (.refl _)] at h
  exact ⟨s, h, repaired_of_exec (.refl _) h hopened⟩

end Selfevals.Storage.MigrationSchemas
