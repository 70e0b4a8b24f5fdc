import Selfevals.Lib.Relational
import Selfevals.Schemas.IterationRecords
import Selfevals.Storage.Columns

/-!
# The iteration-record mapper

A record is written into the row of its id in `iteration_records`; the ids of its traces, its
guardrails, its reliability and its counts of failure modes go into tables of their own. `upsert`
replaces all of them, `load` reads them back and builds the record, which the model then validates.

A write is refused where another record holds the iteration of the experiment, and where a count is
below zero. The experiment of a record is there, and a number fits its column.
-/

namespace Selfevals.Storage.IterationMapper

open Lib.JsonValue Lib.Mapping Lib.Sql Lib.Relational Schemas.Base Schemas.Enums Schemas.Experiments
  Schemas.IterationRecords
open Schemas.Iterations (MetricObservation)
open Storage.Columns
open SqlCodec (encode decode)

/-! ### Tables -/

inductive Table
  | iterationRecords | iterationTraceRuns | iterationGuardrails | iterationReliability
  | iterationFailureModeCounts
deriving DecidableEq, Repr

/-- The columns of all the tables. -/
inductive Column
  | id | workspaceId | version | createdAt | updatedAt | deletedAt
  | experimentId | iteration | parentIteration | state | hypothesis | proposedParameters
  | durationSeconds | costUsd
  | proposerType | proposerStrategyParameters | proposerIterationsConsulted
  | proposerFailureModesConsulted
  | executionVariantId | executionRanAgainst
  | metricsPresent | metricsPrimaryName | metricsPrimaryValue | metricsPrimaryDeltaVsBaseline
  | metricsCostUsd | metricsDurationSeconds | metricsErrorRate | metricsFunnel | metricsConfusion
  | decisionPresent | decisionOutcome | decisionRationale | decisionNextAction
  | iterationRecordId | position | traceRunId | name | value | deltaVsBaseline | metricName
  | failureMode | count
deriving DecidableEq, Repr

abbrev Row := Lib.Relational.Row Column

abbrev Insert := Db.Insert Table Column

/-- `SHARED_COLUMNS`. -/
def sharedColumns : List Column :=
  [.id, .workspaceId, .version, .createdAt, .updatedAt, .deletedAt]

/-- `_EXTRA_COLUMNS`. -/
def extraColumns : List Column :=
  [.experimentId, .iteration, .parentIteration, .state, .hypothesis, .proposedParameters,
    .durationSeconds, .costUsd,
    .proposerType, .proposerStrategyParameters, .proposerIterationsConsulted,
    .proposerFailureModesConsulted,
    .executionVariantId, .executionRanAgainst,
    .metricsPresent, .metricsPrimaryName, .metricsPrimaryValue, .metricsPrimaryDeltaVsBaseline,
    .metricsCostUsd, .metricsDurationSeconds, .metricsErrorRate, .metricsFunnel,
    .metricsConfusion,
    .decisionPresent, .decisionOutcome, .decisionRationale, .decisionNextAction]

def allColumns : List Column := sharedColumns ++ extraColumns

/-- The columns that `ON CONFLICT` updates. -/
def updateColumns : List Column := allColumns.filter fun c => c ≠ .id && c ≠ .createdAt

def notNull (columns : List Column) : List (Check Column) := columns.map .notNull

/-- The columns that may not be `NULL`, and the other checks. -/
def checks : Table → List (Check Column)
  | .iterationRecords =>
    notNull [.id, .workspaceId, .version, .createdAt, .updatedAt, .experimentId, .iteration,
      .state, .hypothesis, .proposedParameters, .proposerType, .proposerStrategyParameters,
      .proposerIterationsConsulted, .proposerFailureModesConsulted, .executionVariantId,
      .executionRanAgainst, .metricsPresent, .decisionPresent] ++
    [.atLeast .version 1, .atLeast .iteration 0, .atLeast .parentIteration 0,
      .oneOf .state ["completed", "failed", "paused"]]
  | .iterationTraceRuns => notNull [.iterationRecordId, .position, .traceRunId]
  | .iterationGuardrails => notNull [.iterationRecordId, .position, .name, .value]
  | .iterationReliability => notNull [.iterationRecordId, .metricName, .value]
  | .iterationFailureModeCounts =>
    notNull [.iterationRecordId, .failureMode, .count] ++ [.atLeast .count 0]

/-- The primary keys, and `iteration_records_unique`. -/
def keys : Table → List (List Column)
  | .iterationRecords => [[.id], [.workspaceId, .experimentId, .iteration]]
  | .iterationTraceRuns | .iterationGuardrails => [[.iterationRecordId, .position]]
  | .iterationReliability => [[.iterationRecordId, .metricName]]
  | .iterationFailureModeCounts => [[.iterationRecordId, .failureMode]]

/-- The constraints of the tables. -/
def schema : Schema Table Column := ⟨checks, keys⟩

abbrev IterationDb := Db schema

/-! ### `iteration_record_write.py` -/

def iterationRecordRowValues (shared : List SqlValue) (e : IterationRecord) : List SqlValue :=
  let m := e.metrics
  let d := e.decision
  shared ++
  [encode e.experimentId, encode e.iteration, encode e.parentIteration, encode e.state,
    encode e.hypothesis, encode e.proposedParameters, encode e.durationSeconds, encode e.costUsd,
    encode e.proposer.type, encode e.proposer.strategyParameters,
    encode e.proposer.iterationsConsulted, encode e.proposer.failureModesConsulted,
    encode e.execution.variantId, encode e.execution.ranAgainst,
    encode m.isSome, encode (m.map (·.primary.name)), encode (m.map (·.primary.value)),
    encode (m.bind (·.primary.deltaVsBaseline)), encode (m.bind (·.costUsd)),
    encode (m.bind (·.durationSeconds)), encode (m.map (·.errorRate)), encode (m.map (·.funnel)),
    encode (m.bind (·.confusion)),
    encode d.isSome, encode (d.map (·.outcome)), encode (d.map (·.rationale)),
    encode (d.bind (·.nextAction))]

section Write
variable (e : IterationRecord)

/-- The rows of the trace runs. -/
def insertTraceRuns : List Insert :=
  e.execution.traceRunIds.zipIdx.map fun (traceRunId, pos) =>
    ⟨.iterationTraceRuns, [.iterationRecordId, .position, .traceRunId],
      [encode e.id, encode pos, encode traceRunId]⟩

/-- The rows of the guardrails. -/
def insertGuardrails (m : IterationMetrics) : List Insert :=
  m.guardrails.zipIdx.map fun (g, pos) =>
    ⟨.iterationGuardrails, [.iterationRecordId, .position, .name, .value, .deltaVsBaseline],
      [encode e.id, encode pos, encode g.name, encode g.value, encode g.deltaVsBaseline]⟩

/-- The rows of the reliability metrics. -/
def insertReliability (m : IterationMetrics) : List Insert :=
  m.reliability.items.map fun (metricName, value) =>
    ⟨.iterationReliability, [.iterationRecordId, .metricName, .value],
      [encode e.id, encode metricName, encode value]⟩

/-- The rows of the counts. -/
def insertFailureModeCounts (m : IterationMetrics) : List Insert :=
  m.failureModeCounts.items.map fun (failureMode, count) =>
    ⟨.iterationFailureModeCounts, [.iterationRecordId, .failureMode, .count],
      [encode e.id, encode failureMode, encode count]⟩

/-- The rows of the metrics. -/
def insertMetrics (m : IterationMetrics) : List Insert :=
  insertGuardrails e m ++ insertReliability e m ++ insertFailureModeCounts e m

def writeIterationRecordChildren (db : IterationDb) : Except (Violation Table) IterationDb := do
  let db := db.deleteWhere .iterationTraceRuns (hasText .iterationRecordId e.id)
  let db ← db.insertAll (insertTraceRuns e)
  let db := db.deleteWhere .iterationGuardrails (hasText .iterationRecordId e.id)
  let db := db.deleteWhere .iterationReliability (hasText .iterationRecordId e.id)
  let db := db.deleteWhere .iterationFailureModeCounts (hasText .iterationRecordId e.id)
  match e.metrics with
  | none => return db
  | some m => db.insertAll (insertMetrics e m)

/-- The row that is written for a record. -/
def newRow : Row :=
  ofValues allColumns (iterationRecordRowValues (sharedValues e.toBaseEntity) e)

/-- `IterationRecordMapper.upsert`. -/
def upsert (db : IterationDb) : Except (Violation Table) IterationDb := do
  let db ← db.setRows .iterationRecords
    (Db.upsertRows .id updateColumns (db.rows .iterationRecords) (newRow e))
  writeIterationRecordChildren e db

end Write

/-! ### `iteration_record_build.py` -/

section Read
variable (rows : Table → List Row) (rid : String)

/-- `WHERE iteration_record_id = …`. -/
def ofRecord (table : Table) : List Row := (rows table).filter (hasText .iterationRecordId rid)

def buildTraceRunId : List SqlValue → Option String
  | [traceRunId] => decode traceRunId
  | _ => none

/-- The trace runs of a record, in order. -/
def loadTraceRunIds : Option (List String) :=
  ((orderBy (intAt .position) (ofRecord rows rid .iterationTraceRuns)).map
    (project [.traceRunId])).mapM buildTraceRunId

def buildGuardrail : List SqlValue → Option MetricObservation
  | [n, v, dvb] => do
    return { name := ← decode n, value := ← decode v, deltaVsBaseline := ← decode dvb }
  | _ => none

/-- The guardrails that the rows hold. -/
def loadGuardrails : Option (List MetricObservation) :=
  ((orderBy (intAt .position) (ofRecord rows rid .iterationGuardrails)).map
    (project [.name, .value, .deltaVsBaseline])).mapM buildGuardrail

/-- An item of a dict that is kept in rows. -/
def buildItem {α : Type} [SqlCodec α] : List SqlValue → Option (String × α)
  | [name, value] => do return (← decode name, ← decode value)
  | _ => none

/-- The reliability metrics of the rows. -/
def loadReliability : Option (Dict String ℚ) := do
  let items ← ((orderBy (textAt .metricName) (ofRecord rows rid .iterationReliability)).map
    (project [.metricName, .value])).mapM buildItem
  return Dict.ofItems items

/-- The counts that the rows hold. -/
def loadFailureModeCounts : Option (Dict String ℤ) := do
  let items ← ((orderBy (textAt .failureMode) (ofRecord rows rid .iterationFailureModeCounts)).map
    (project [.failureMode, .count])).mapM buildItem
  return Dict.ofItems items

variable (d : Row)

/-- The metrics that the rows hold. -/
def buildMetrics : Option (Option IterationMetrics) := do
  let present : Bool ← decode (d .metricsPresent)
  if present then
    let guardrails ← loadGuardrails rows rid
    let reliability ← loadReliability rows rid
    let failureModeCounts ← loadFailureModeCounts rows rid
    let funnel : Option Object ← decode (d .metricsFunnel)
    return some {
      primary := {
        name := ← decode (d .metricsPrimaryName)
        value := ← decode (d .metricsPrimaryValue)
        deltaVsBaseline := ← decode (d .metricsPrimaryDeltaVsBaseline) }
      guardrails := guardrails
      reliability := reliability
      costUsd := ← decode (d .metricsCostUsd)
      durationSeconds := ← decode (d .metricsDurationSeconds)
      errorRate := ← decode (d .metricsErrorRate)
      failureModeCounts := failureModeCounts
      funnel := funnel.getD []
      confusion := ← decode (d .metricsConfusion) }
  else return none

/-- The decision that a row holds. -/
def buildDecision : Option (Option IterationDecision) := do
  let present : Bool ← decode (d .decisionPresent)
  if present then
    return some {
      outcome := ← decode (d .decisionOutcome)
      rationale := ← decode (d .decisionRationale)
      nextAction := ← decode (d .decisionNextAction) }
  else return none

/-- The fields that all entities have. -/
def buildBase : Option BaseEntity := do
  return {
    id := ← decode (d .id)
    workspaceId := ← decode (d .workspaceId)
    version := ← decode (d .version)
    createdAt := ← decode (d .createdAt)
    updatedAt := ← decode (d .updatedAt)
    deletedAt := ← decode (d .deletedAt) }

def buildProposer : Option ProposerInputs := do
  return {
    type := ← decode (d .proposerType)
    strategyParameters := ← decode (d .proposerStrategyParameters)
    iterationsConsulted := ← decode (d .proposerIterationsConsulted)
    failureModesConsulted := ← decode (d .proposerFailureModesConsulted) }

/-- `build_iteration_record`; `none` where the source raises. -/
def buildIterationRecord : Option IterationRecord := do
  let base ← buildBase d
  let traceRunIds ← loadTraceRunIds rows base.id
  let metrics ← buildMetrics rows base.id d
  let decision ← buildDecision d
  let r : IterationRecord := {
    toBaseEntity := base
    experimentId := ← decode (d .experimentId)
    iteration := ← decode (d .iteration)
    parentIteration := ← decode (d .parentIteration)
    state := ← decode (d .state)
    proposer := ← buildProposer d
    hypothesis := ← decode (d .hypothesis)
    proposedParameters := ← decode (d .proposedParameters)
    execution := {
      variantId := ← decode (d .executionVariantId)
      ranAgainst := ← decode (d .executionRanAgainst)
      traceRunIds := traceRunIds }
    metrics := metrics
    decision := decision
    durationSeconds := ← decode (d .durationSeconds)
    costUsd := ← decode (d .costUsd) }
  if r.Valid then return r else none

end Read

/-- The rows of a record do not make a valid one. -/
structure ValidationError where

/-- `IterationRecordMapper.load`. -/
def load (db : IterationDb) (workspaceId rid : String) :
    Except ValidationError (Option IterationRecord) :=
  match (db.rows .iterationRecords).find? fun row =>
    hasText .id rid row && hasText .workspaceId workspaceId row with
  | none => .ok none
  | some row =>
    match buildIterationRecord db.rows row with
    | none => .error ⟨⟩
    | some r => .ok (some r)

end Selfevals.Storage.IterationMapper
