import Selfevals.Storage.EntityRows
import Selfevals.Storage.IterationMapper

/-!
# What comes back of a stored iteration record

A stored record is read back as `readBack` has it: with the two dicts that are kept in rows in the
order of their keys. `Kept` says that a database holds the records of a store.
-/

namespace Selfevals.Storage.IterationRoundTrip

open Lib Lib.JsonValue Lib.Mapping Lib.Sql Lib.Relational Schemas.Base Schemas.Enums
  Schemas.Experiments Schemas.IterationRecords
open Schemas.Iterations (MetricObservation)
open Storage.Columns Storage.EntityRows Storage.IterationMapper
open Db (added added_append added_of_table mem_added)
open SqlCodec (encode decode decode_encode)

/-! ### What is written -/

/-- What is inserted for a record, besides its row in `iteration_records`. -/
def inserts (e : IterationRecord) : List Insert :=
  insertTraceRuns e ++ e.metrics.elim [] (insertMetrics e)

/-- What is inserted into one table. -/
def insertsOf (e : IterationRecord) : Table → List Insert
  | .iterationRecords => []
  | .iterationTraceRuns => insertTraceRuns e
  | .iterationGuardrails => e.metrics.elim [] (insertGuardrails e)
  | .iterationReliability => e.metrics.elim [] (insertReliability e)
  | .iterationFailureModeCounts => e.metrics.elim [] (insertFailureModeCounts e)

section Write
variable (e : IterationRecord) (m : IterationMetrics)

theorem insertTraceRuns_table : ∀ ins ∈ insertTraceRuns e, ins.table = .iterationTraceRuns := by
  intro ins hins
  obtain ⟨p, -, rfl⟩ := List.mem_map.mp hins
  rfl

theorem insertGuardrails_table :
    ∀ ins ∈ insertGuardrails e m, ins.table = .iterationGuardrails := by
  intro ins hins
  obtain ⟨p, -, rfl⟩ := List.mem_map.mp hins
  rfl

theorem insertReliability_table :
    ∀ ins ∈ insertReliability e m, ins.table = .iterationReliability := by
  intro ins hins
  obtain ⟨p, -, rfl⟩ := List.mem_map.mp hins
  rfl

theorem insertFailureModeCounts_table :
    ∀ ins ∈ insertFailureModeCounts e m, ins.table = .iterationFailureModeCounts := by
  intro ins hins
  obtain ⟨p, -, rfl⟩ := List.mem_map.mp hins
  rfl

/-- **What goes into each table.** -/
theorem added_inserts (table : Table) :
    added table (inserts e) = (insertsOf e table).map (·.row) := by
  have hmetrics : ∀ m, added table (insertMetrics e m) =
      (if table = .iterationGuardrails then (insertGuardrails e m).map (·.row) else []) ++
      (if table = .iterationReliability then (insertReliability e m).map (·.row) else []) ++
      (if table = .iterationFailureModeCounts then (insertFailureModeCounts e m).map (·.row)
        else []) := fun m => by
    rw [insertMetrics, added_append, added_append, added_of_table (insertGuardrails_table e m),
      added_of_table (insertReliability_table e m),
      added_of_table (insertFailureModeCounts_table e m)]
  rw [inserts, added_append, added_of_table (insertTraceRuns_table e)]
  cases hm : e.metrics with
  | none => cases table <;> simp [insertsOf, hm, added]
  | some m => cases table <;> simp [insertsOf, hm, hmetrics]

theorem hasText_inserts {table : Table} :
    ∀ row ∈ added table (inserts e), hasText .iterationRecordId e.id row = true := by
  intro row hrow
  rw [added_inserts] at hrow
  obtain ⟨ins, hins, rfl⟩ := List.mem_map.mp hrow
  rw [hasText_iff]
  cases table with
  | iterationRecords => simp [insertsOf] at hins
  | iterationTraceRuns =>
    obtain ⟨p, -, rfl⟩ := List.mem_map.mp hins
    rfl
  | _ =>
    cases hm : e.metrics with
    | none => simp [insertsOf, hm] at hins
    | some m =>
      simp only [insertsOf, hm, Option.elim_some] at hins
      obtain ⟨p, -, rfl⟩ := List.mem_map.mp hins
      rfl

end Write

/-! ### What is read -/

/-- A dict after its items were kept in rows: in the order of the keys. -/
def byKey {α : Type} (d : Dict String α) : Dict String α := .ofItems (orderBy (·.1) d.items)

theorem byKey_same {α : Type} (d : Dict String α) : (byKey d).Same d :=
  Dict.ofItems_same (orderBy_perm _ _)

def IterationMetrics.readBack (m : IterationMetrics) : IterationMetrics :=
  { m with reliability := byKey m.reliability, failureModeCounts := byKey m.failureModeCounts }

/-- The record that is made from the rows of one. -/
def readBack (e : IterationRecord) : IterationRecord :=
  { e with metrics := e.metrics.map IterationMetrics.readBack }

/-- **What is read back is the same record.** -/
theorem readBack_same (e : IterationRecord) : (readBack e).Same e := by
  refine ⟨?_, rfl⟩
  cases hm : e.metrics with
  | none => simp [readBack, hm]
  | some m =>
    simp only [readBack, hm, Option.map_some, Option.rel_some_some]
    exact ⟨byKey_same _, byKey_same _, rfl⟩

theorem readBack_valid {e : IterationRecord} (h : e.Valid) : (readBack e).Valid where
  base := h.base
  names := h.names
  execution := h.execution
  metrics := by
    intro m hm
    obtain ⟨m₀, hm₀, rfl⟩ := Option.map_eq_some_iff.mp hm
    exact h.metrics m₀ hm₀
  decision := h.decision
  durationSeconds := h.durationSeconds
  costUsd := h.costUsd
  completedRequiresMetricsAndDecision hstate := by
    have := h.completedRequiresMetricsAndDecision hstate
    exact ⟨by simpa [readBack] using this.1, this.2⟩
  parentIterationIsEarlier := h.parentIterationIsEarlier

section Read
variable {e : IterationRecord} {m : IterationMetrics} {rows : Table → List Row}
  (hrows : ∀ table, table ≠ .iterationRecords →
    (rows table).filter (hasText .iterationRecordId e.id) = added table (inserts e))
include hrows

theorem ofRecord_written {table : Table} (hne : table ≠ .iterationRecords) :
    ofRecord rows e.id table = (insertsOf e table).map (·.row) :=
  (hrows table hne).trans (added_inserts e table)

theorem loadTraceRunIds_written :
    loadTraceRunIds rows e.id = some e.execution.traceRunIds := by
  unfold loadTraceRunIds
  rw [ofRecord_written hrows (by simp), insertsOf, insertTraceRuns, List.map_map]
  refine mapM_orderBy_zipIdx (fun _ => rfl) fun p _ => ?_
  exact decode_encode p.1

variable (hm : e.metrics = some m)
include hm

theorem loadGuardrails_written : loadGuardrails rows e.id = some m.guardrails := by
  unfold loadGuardrails
  rw [ofRecord_written hrows (by simp), insertsOf, hm, Option.elim_some, insertGuardrails,
    List.map_map]
  refine mapM_orderBy_zipIdx (fun _ => rfl) fun p _ => ?_
  show buildGuardrail [encode p.1.name, encode p.1.value, encode p.1.deltaVsBaseline] = some p.1
  simp [buildGuardrail]

theorem loadReliability_written : loadReliability rows e.id = some (byKey m.reliability) := by
  unfold loadReliability
  rw [ofRecord_written hrows (by simp), insertsOf, hm, Option.elim_some, insertReliability,
    List.map_map, mapM_orderBy_map]
  · rfl
  · intro item _
    show buildItem [encode item.1, encode item.2] = some item
    simp [buildItem]

theorem loadFailureModeCounts_written :
    loadFailureModeCounts rows e.id = some (byKey m.failureModeCounts) := by
  unfold loadFailureModeCounts
  rw [ofRecord_written hrows (by simp), insertsOf, hm, Option.elim_some, insertFailureModeCounts,
    List.map_map, mapM_orderBy_map]
  · rfl
  · intro item _
    show buildItem [encode item.1, encode item.2] = some item
    simp [buildItem]

end Read

/-! ### The row in `iteration_records` -/

/-- What each column of the row of a record holds. -/
def cells (e : IterationRecord) : Row
  | .id => encode e.id
  | .workspaceId => encode e.workspaceId
  | .version => encode e.version
  | .createdAt => encode e.createdAt
  | .updatedAt => encode e.updatedAt
  | .deletedAt => encode e.deletedAt
  | .experimentId => encode e.experimentId
  | .iteration => encode e.iteration
  | .parentIteration => encode e.parentIteration
  | .state => encode e.state
  | .hypothesis => encode e.hypothesis
  | .proposedParameters => encode e.proposedParameters
  | .durationSeconds => encode e.durationSeconds
  | .costUsd => encode e.costUsd
  | .proposerType => encode e.proposer.type
  | .proposerStrategyParameters => encode e.proposer.strategyParameters
  | .proposerIterationsConsulted => encode e.proposer.iterationsConsulted
  | .proposerFailureModesConsulted => encode e.proposer.failureModesConsulted
  | .executionVariantId => encode e.execution.variantId
  | .executionRanAgainst => encode e.execution.ranAgainst
  | .metricsPresent => encode e.metrics.isSome
  | .metricsPrimaryName => encode (e.metrics.map (·.primary.name))
  | .metricsPrimaryValue => encode (e.metrics.map (·.primary.value))
  | .metricsPrimaryDeltaVsBaseline => encode (e.metrics.bind (·.primary.deltaVsBaseline))
  | .metricsCostUsd => encode (e.metrics.bind (·.costUsd))
  | .metricsDurationSeconds => encode (e.metrics.bind (·.durationSeconds))
  | .metricsErrorRate => encode (e.metrics.map (·.errorRate))
  | .metricsFunnel => encode (e.metrics.map (·.funnel))
  | .metricsConfusion => encode (e.metrics.bind (·.confusion))
  | .decisionPresent => encode e.decision.isSome
  | .decisionOutcome => encode (e.decision.map (·.outcome))
  | .decisionRationale => encode (e.decision.map (·.rationale))
  | .decisionNextAction => encode (e.decision.bind (·.nextAction))
  | _ => .null

/-- **The values of a row stand under their columns.** -/
theorem newRow_eq_cells (e : IterationRecord) : newRow e = cells e := by
  funext c
  cases c <;> rfl

theorem updated_newRow {old e : IterationRecord} (hid : old.id = e.id) :
    Db.updated updateColumns (newRow old) (newRow e) =
      newRow { e with createdAt := old.createdAt } := by
  rw [newRow_eq_cells, newRow_eq_cells, newRow_eq_cells]
  funext c
  cases c <;> first | rfl | exact congrArg encode hid

section Cells
variable (e : IterationRecord)

attribute [local simp] cells

theorem buildBase_cells : buildBase (cells e) = some e.toBaseEntity := by
  simp [buildBase]

theorem buildProposer_cells : buildProposer (cells e) = some e.proposer := by
  simp [buildProposer]

end Cells

section Build
variable {e : IterationRecord} {rows : Table → List Row}

theorem buildDecision_cells (e : IterationRecord) : buildDecision (cells e) = some e.decision := by
  cases hd : e.decision with
  | none => simp [buildDecision, cells, hd]
  | some d =>
    have houtcome : decode (cells e .decisionOutcome) = some d.outcome := by
      simp only [cells, hd]
      exact decode_encode d.outcome
    have hrationale : decode (cells e .decisionRationale) = some d.rationale := by
      simp only [cells, hd]
      exact decode_encode d.rationale
    have hnext : decode (cells e .decisionNextAction) = some d.nextAction := by
      simp only [cells, hd]
      exact decode_encode d.nextAction
    have hpresent : decode (cells e .decisionPresent) = some true := by
      simp [cells, hd]
    simp [buildDecision, hpresent, houtcome, hrationale, hnext]

theorem buildMetrics_none (hm : e.metrics = none) :
    buildMetrics rows e.id (cells e) = some none := by
  simp [buildMetrics, cells, hm]

theorem decode_metrics {m : IterationMetrics} (hm : e.metrics = some m) :
    (decode (cells e .metricsPresent) = some true ∧
      decode (cells e .metricsPrimaryName) = some m.primary.name ∧
      decode (cells e .metricsPrimaryValue) = some m.primary.value ∧
      decode (cells e .metricsPrimaryDeltaVsBaseline) = some m.primary.deltaVsBaseline) ∧
    decode (cells e .metricsCostUsd) = some m.costUsd ∧
      decode (cells e .metricsDurationSeconds) = some m.durationSeconds ∧
      decode (cells e .metricsErrorRate) = some m.errorRate ∧
      decode (cells e .metricsFunnel) = some (some m.funnel) ∧
      decode (cells e .metricsConfusion) = some m.confusion := by
  simp only [cells, hm]
  refine ⟨⟨?_, ?_, ?_, ?_⟩, ?_, ?_, ?_, ?_, ?_⟩
  · exact decode_encode true
  · exact decode_encode m.primary.name
  · exact decode_encode m.primary.value
  · exact decode_encode m.primary.deltaVsBaseline
  · exact decode_encode m.costUsd
  · exact decode_encode m.durationSeconds
  · exact decode_encode m.errorRate
  · exact decode_encode (some m.funnel)
  · exact decode_encode m.confusion

variable (hrows : ∀ table, table ≠ .iterationRecords →
  (rows table).filter (hasText .iterationRecordId e.id) = added table (inserts e))
include hrows

theorem buildMetrics_written :
    buildMetrics rows e.id (cells e) = some (e.metrics.map IterationMetrics.readBack) := by
  cases hm : e.metrics with
  | none => exact buildMetrics_none hm
  | some m =>
    unfold buildMetrics
    simp only [decode_metrics hm, loadGuardrails_written hrows hm, loadReliability_written hrows hm,
      loadFailureModeCounts_written hrows hm]
    rfl

/-- **A valid record is built as it was written**, with the order of its dicts. -/
theorem buildIterationRecord_written (he : e.Valid) :
    buildIterationRecord rows (newRow e) = some (readBack e) := by
  rw [newRow_eq_cells]
  unfold buildIterationRecord
  refine (bind_of_eq_some (buildBase_cells e) _).trans ?_
  refine (bind_of_eq_some (loadTraceRunIds_written hrows) _).trans ?_
  refine (bind_of_eq_some (buildMetrics_written hrows) _).trans ?_
  refine (bind_of_eq_some (buildDecision_cells e) _).trans ?_
  simp only [buildProposer_cells]
  simp only [cells, decode_encode]
  exact if_pos (readBack_valid he)

end Build

/-! ### The store -/

/-- The rows a record is kept in. -/
def layout : Layout Table Column IterationRecord where
  main := .iterationRecords
  idColumn := .id
  owner := .iterationRecordId
  updateColumns := updateColumns
  newRow := newRow
  inserts := inserts
  idColumn_kept := by decide
  newRow_id e := by rw [newRow_eq_cells]; rfl
  updated_newRow _ _ hid := updated_newRow hid
  inserts_upsert _ _ := rfl
  owned e _ := hasText_inserts e

/-- The tables hold the records of a store, all of them valid. -/
structure Kept (db : IterationDb) (store : Tables.Table IterationRecord) : Prop where
  valid : ∀ e ∈ store.rows, e.Valid
  rows : Represents layout db store

theorem kept_empty : Kept Db.empty Tables.Table.empty :=
  ⟨by simp [Tables.Table.empty], represents_empty layout⟩

/-- No count of failure modes is below zero. -/
def CountsNonneg (e : IterationRecord) : Prop :=
  ∀ m ∈ e.metrics, ∀ item ∈ m.failureModeCounts.items, 0 ≤ item.2

/-- Two records are of one iteration of one experiment. -/
def SameSlot (e e' : IterationRecord) : Prop :=
  e.workspaceId = e'.workspaceId ∧ e.experimentId = e'.experimentId ∧ e.iteration = e'.iteration

theorem newRow_checks {e : IterationRecord} (he : e.Valid) :
    (checks .iterationRecords).all (·.holds (newRow e)) = true := by
  have hversion : Check.holds (cells e) (.atLeast .version 1) = true :=
    decide_eq_true (Int.ofNat_le.mpr he.base.2.2)
  have hiteration : Check.holds (cells e) (.atLeast .iteration 0) = true :=
    decide_eq_true (Int.natCast_nonneg e.iteration)
  have hparent : Check.holds (cells e) (.atLeast .parentIteration 0) = true := by
    cases hp : e.parentIteration with
    | none => simp [Check.holds, cells, hp, encode]
    | some p => simp [Check.holds, cells, hp, encode]
  have hstate : Check.holds (cells e) (.oneOf .state ["completed", "failed", "paused"]) = true := by
    show List.contains _ (Coded.value e.state) = true
    cases e.state <;> rfl
  rw [newRow_eq_cells, checks, List.all_append, Bool.and_eq_true]
  refine ⟨rfl, ?_⟩
  simp only [List.all_cons, List.all_nil, hversion, hiteration, hparent, hstate, Bool.and_true]

theorem sameKey_slot (e e' : IterationRecord) :
    sameKey [.workspaceId, .experimentId, .iteration] (newRow e) (newRow e') = false ↔
      ¬SameSlot e e' := by
  rw [newRow_eq_cells, newRow_eq_cells, ← Bool.not_eq_true]
  refine not_congr ?_
  simp [sameKey, cells, encode, SameSlot]

section Store
variable {db db' : IterationDb} {store : Tables.Table IterationRecord} {e : IterationRecord}

open Tables.Table (find?_eq_some)

/-- **What is loaded** is what the store has under the id, in the workspace, read back. -/
theorem load_kept (h : Kept db store) (workspaceId rid : String) :
    load db workspaceId rid =
      .ok (((store.find? rid).filter fun e => e.workspaceId = workspaceId).map readBack) := by
  have hfind : ((db.rows .iterationRecords).find? fun row =>
      hasText .id rid row && hasText .workspaceId workspaceId row) =
      ((store.find? rid).map newRow).filter (hasText .workspaceId workspaceId) :=
    h.rows.find?_main rid _
  unfold load
  rw [hfind]
  cases hstored : store.find? rid with
  | none => rfl
  | some e =>
    obtain ⟨hmem, rfl⟩ := find?_eq_some.mp hstored
    have hws : hasText .workspaceId workspaceId (newRow e) =
        decide (e.workspaceId = workspaceId) := by
      rw [newRow_eq_cells]
      rfl
    have hbuild : buildIterationRecord db.rows (newRow e) = some (readBack e) :=
      buildIterationRecord_written
        (fun _ hne => Layout.Facts.of_stored h.rows.facts hstored hne) (h.valid e hmem)
    by_cases hsame : e.workspaceId = workspaceId
    · simp [hws, hsame, hbuild, Option.filter]
    · simp [hws, hsame, Option.filter]

theorem upsert_valid (he : e.Valid) : (Entity.upsert (store.find? e.id) e).Valid := by
  cases store.find? e.id with
  | none => exact he
  | some old => exact he.withCreatedAt _

/-- **When the row of a record passes**: no other record has its iteration. -/
theorem accepts_row_iff (h : Represents layout db store) (he : e.Valid) :
    schema.Accepts .iterationRecords
        (Db.upsertRows .id updateColumns (db.rows .iterationRecords) (newRow e)) ↔
      ∀ old ∈ store.rows, old.id ≠ e.id → ¬SameSlot old e := by
  have hslot : ∀ old, sameKey [.workspaceId, .experimentId, .iteration] (newRow old)
      (newRow (Entity.upsert (store.find? e.id) e)) = false ↔ ¬SameSlot old e := by
    intro old
    rw [sameKey_slot]
    cases store.find? e.id <;> rfl
  refine (h.accepts_upsert_iff e).trans ⟨fun hacc old hold hne => ?_, fun hfree => ?_⟩
  · exact (hslot old).mp (hacc.2 _ (by simp [schema, keys, layout]) old hold hne)
  · refine ⟨newRow_checks (upsert_valid he), fun key hkey old hold hne => ?_⟩
    simp only [schema, keys, layout, List.mem_cons, List.not_mem_nil, or_false] at hkey
    obtain rfl | rfl := hkey
    · exact layout.sameKey_id (List.mem_singleton_self _) (by rwa [Tables.base_upsert_id])
    · exact (hslot old).mpr (hfree old hold hne)

/-- The old rows of a record are gone from all tables but that of its traces. -/
def clearMetrics (db : IterationDb) (rid : String) : IterationDb :=
  ((db.deleteWhere .iterationGuardrails (hasText .iterationRecordId rid)).deleteWhere
    .iterationReliability (hasText .iterationRecordId rid)).deleteWhere
      .iterationFailureModeCounts (hasText .iterationRecordId rid)

theorem upsert_eq (e : IterationRecord) (db : IterationDb) :
    upsert e db = (do
      let db ← db.setRows .iterationRecords
        (Db.upsertRows .id updateColumns (db.rows .iterationRecords) (newRow e))
      let db ← (db.deleteWhere .iterationTraceRuns (hasText .iterationRecordId e.id)).insertAll
        (insertTraceRuns e)
      (clearMetrics db e.id).insertAll (e.metrics.elim [] (insertMetrics e))) := by
  unfold upsert writeIterationRecordChildren clearMetrics
  cases e.metrics <;> rfl

theorem insertMetrics_table (m : IterationMetrics) :
    ∀ ins ∈ insertMetrics e m, ins.table ≠ .iterationRecords ∧ ins.table ≠ .iterationTraceRuns := by
  intro ins hins
  unfold insertMetrics at hins
  rw [List.mem_append, List.mem_append] at hins
  obtain (hins | hins) | hins := hins
  · simp [insertGuardrails_table e m ins hins]
  · simp [insertReliability_table e m ins hins]
  · simp [insertFailureModeCounts_table e m ins hins]

theorem added_parts (e : IterationRecord) (table : Table) :
    (table ≠ .iterationTraceRuns → added table (insertTraceRuns e) = []) ∧
      ((table = .iterationRecords ∨ table = .iterationTraceRuns) →
        added table (e.metrics.elim [] (insertMetrics e)) = []) := by
  refine ⟨fun hne => ?_, fun htable => ?_⟩
  · rw [added_of_table (insertTraceRuns_table e), if_neg hne]
  · cases hm : e.metrics with
    | none => rfl
    | some m =>
      refine Db.added_eq_nil fun ins hins heq => ?_
      have hne := insertMetrics_table m ins hins
      rw [heq] at hne
      exact htable.elim hne.1 hne.2

theorem progress_clear {db₀ db₁ : IterationDb} (rid : String)
    (h : ∀ t, t ≠ .iterationRecords → db₁.rows t = db₀.rows t) :
    Progress .iterationRecords .iterationRecordId rid db₀
      (db₁.deleteWhere .iterationTraceRuns (hasText .iterationRecordId rid))
      (fun t => False ∨ t = .iterationTraceRuns) [] := by
  have hstart : Progress .iterationRecords .iterationRecordId rid db₀ db₁ (fun _ => False) [] := by
    intro t ht
    rw [h t ht, if_neg not_false]
    exact (List.append_nil _).symm
  exact hstart.clear .iterationTraceRuns rfl not_false

theorem progress_clearMetrics {db₀ db₁ : IterationDb} {rid : String} {done : List Insert}
    (h : Progress .iterationRecords .iterationRecordId rid db₀ db₁
      (fun t => False ∨ t = .iterationTraceRuns) done)
    (hdone : ∀ t, t ≠ .iterationTraceRuns → added t done = []) :
    Progress .iterationRecords .iterationRecordId rid db₀ (clearMetrics db₁ rid)
      (fun t => (((False ∨ t = .iterationTraceRuns) ∨ t = .iterationGuardrails) ∨
        t = .iterationReliability) ∨ t = .iterationFailureModeCounts) done :=
  ((h.clear .iterationGuardrails (hdone _ (by simp)) (by simp)).clear
    .iterationReliability (hdone _ (by simp)) (by simp)).clear
      .iterationFailureModeCounts (hdone _ (by simp)) (by simp)

theorem rows_clearMetrics (db : IterationDb) (rid : String) :
    (clearMetrics db rid).rows .iterationRecords = db.rows .iterationRecords := by
  unfold clearMetrics
  rw [Db.rows_deleteWhere, if_neg (by simp), Db.rows_deleteWhere, if_neg (by simp),
    Db.rows_deleteWhere, if_neg (by simp)]

/-- **What a write leaves**, if it passes. -/
theorem upsert_rows (hok : upsert e db = .ok db') :
    schema.Accepts .iterationRecords
        (Db.upsertRows .id updateColumns (db.rows .iterationRecords) (newRow e)) ∧
      db'.rows .iterationRecords =
        Db.upsertRows .id updateColumns (db.rows .iterationRecords) (newRow e) ∧
      ∀ table, table ≠ .iterationRecords → db'.rows table =
        (db.rows table).filter (fun row => !hasText .iterationRecordId e.id row) ++
          added table (inserts e) := by
  rw [upsert_eq] at hok
  obtain ⟨db₁, hset, hok⟩ := Result.bind_eq_ok.mp hok
  obtain ⟨db₂, hruns, hmetrics⟩ := Result.bind_eq_ok.mp hok
  obtain ⟨hacc, hrows₁⟩ := Db.setRows_eq_ok hset
  have hkept : ∀ t, t ≠ .iterationRecords → db₁.rows t = db.rows t := fun t ht => by
    rw [hrows₁, Function.update_of_ne ht]
  have hprogress := (progress_clearMetrics ((progress_clear e.id hkept).append hruns)
    fun t ht => (added_parts e t).1 ht).append hmetrics
  refine ⟨hacc, ?_, fun t ht => ?_⟩
  · rw [Db.rows_insertAll hmetrics, (added_parts e _).2 (.inl rfl), List.append_nil,
      rows_clearMetrics, Db.rows_insertAll hruns, (added_parts e _).1 (by simp), List.append_nil,
      Db.rows_deleteWhere, if_neg (by simp), hrows₁, Function.update_self]
  · rw [hprogress t ht, if_pos (by cases t <;> simp at ht ⊢)]
    rfl

/-- **A write that passes is a write to the store.** -/
theorem upsert_kept (h : Kept db store) (he : e.Valid) (hok : upsert e db = .ok db') :
    Kept db' (store.set (Entity.upsert (store.find? e.id) e)) := by
  obtain ⟨-, hmain, hfacts⟩ := upsert_rows hok
  refine ⟨fun e' he' => ?_, h.rows.write hmain hfacts⟩
  obtain rfl | ⟨hmem, -⟩ := Tables.Table.mem_setRows.mp he'
  · exact upsert_valid he
  · exact h.valid e' hmem

/-! ### Which writes pass -/

theorem iterationRecordId_mem_keys {table : Table} (hne : table ≠ .iterationRecords) :
    ∀ key ∈ schema.keys table, .iterationRecordId ∈ key := by
  cases table <;> first | exact absurd rfl hne | decide

theorem pairwise_items {α : Type} {d : Dict String α} {f : String × α → Row} {c : Column}
    {key : List Column} (hc : c ∈ key) (hf : ∀ item, f item c = .text item.1) :
    (d.items.map f).Pairwise fun r r' => sameKey key r r' = false := by
  refine List.pairwise_map.mpr ((List.pairwise_map.mp d.nodup).imp fun {a b} hab => ?_)
  refine sameKey_eq_false hc ?_
  rw [hf, hf, sqlEq_text]
  exact beq_false_of_ne hab

theorem counts_checks (rid : String) (item : String × ℤ) :
    ((checks .iterationFailureModeCounts).all fun check => check.holds
      (ofValues [.iterationRecordId, .failureMode, .count]
        [encode rid, encode item.1, encode item.2])) = decide (0 ≤ item.2) :=
  show (decide (0 ≤ item.2) && true) = _ from Bool.and_true _

/-- **The rows of a record pass** where no count is below zero. -/
theorem accepts_inserts (hcounts : CountsNonneg e) {table : Table}
    (hne : table ≠ .iterationRecords) :
    schema.Accepts table (added table (inserts e)) := by
  rw [added_inserts]
  cases table with
  | iterationRecords => exact absurd rfl hne
  | iterationTraceRuns =>
    refine ⟨fun row hrow => ?_, fun key hkey => ?_⟩
    · obtain ⟨ins, hins, rfl⟩ := List.mem_map.mp hrow
      obtain ⟨p, -, rfl⟩ := List.mem_map.mp hins
      rfl
    · obtain rfl := List.mem_singleton.mp hkey
      rw [insertsOf, insertTraceRuns, List.map_map]
      exact pairwise_positions (c := .position) (by simp) fun _ => rfl
  | iterationGuardrails =>
    cases hm : e.metrics with
    | none => simpa [insertsOf, hm] using accepts_nil
    | some m =>
      rw [insertsOf, hm, Option.elim_some]
      refine ⟨fun row hrow => ?_, fun key hkey => ?_⟩
      · obtain ⟨ins, hins, rfl⟩ := List.mem_map.mp hrow
        obtain ⟨p, -, rfl⟩ := List.mem_map.mp hins
        rfl
      · obtain rfl := List.mem_singleton.mp hkey
        rw [insertGuardrails, List.map_map]
        exact pairwise_positions (c := .position) (by simp) fun _ => rfl
  | iterationReliability =>
    cases hm : e.metrics with
    | none => simpa [insertsOf, hm] using accepts_nil
    | some m =>
      rw [insertsOf, hm, Option.elim_some]
      refine ⟨fun row hrow => ?_, fun key hkey => ?_⟩
      · obtain ⟨ins, hins, rfl⟩ := List.mem_map.mp hrow
        obtain ⟨p, -, rfl⟩ := List.mem_map.mp hins
        rfl
      · obtain rfl := List.mem_singleton.mp hkey
        rw [insertReliability, List.map_map]
        exact pairwise_items (c := .metricName) (by simp) fun _ => rfl
  | iterationFailureModeCounts =>
    cases hm : e.metrics with
    | none => simpa [insertsOf, hm] using accepts_nil
    | some m =>
      rw [insertsOf, hm, Option.elim_some]
      refine ⟨fun row hrow => ?_, fun key hkey => ?_⟩
      · obtain ⟨ins, hins, rfl⟩ := List.mem_map.mp hrow
        obtain ⟨item, hitem, rfl⟩ := List.mem_map.mp hins
        exact (counts_checks e.id item).trans (decide_eq_true (hcounts m hm item hitem))
      · obtain rfl := List.mem_singleton.mp hkey
        rw [insertFailureModeCounts, List.map_map]
        exact pairwise_items (c := .failureMode) (by simp) fun _ => rfl

/-- **Which writes pass**: those of an iteration that no other record has, with no count below zero.
-/
theorem upsert_isOk_iff (h : Kept db store) (he : e.Valid) :
    (∃ db', upsert e db = .ok db') ↔
      (∀ old ∈ store.rows, old.id ≠ e.id → ¬SameSlot old e) ∧ CountsNonneg e := by
  rw [← accepts_row_iff h.rows he]
  constructor
  · rintro ⟨db', hok⟩
    obtain ⟨hacc, -, hrows⟩ := upsert_rows hok
    refine ⟨hacc, fun m hm item hitem => ?_⟩
    have hadded := added_inserts e .iterationFailureModeCounts
    rw [insertsOf, hm, Option.elim_some, insertFailureModeCounts, List.map_map] at hadded
    have hpass := (db'.accepted .iterationFailureModeCounts).1 _ (by
      rw [hrows _ (by simp), hadded]
      exact List.mem_append_right _ (List.mem_map_of_mem hitem))
    exact of_decide_eq_true ((counts_checks e.id item).symm.trans hpass)
  · rintro ⟨hacc, hcounts⟩
    obtain ⟨db₁, hset, hrows₁⟩ := Db.setRows_of_accepts db hacc
    have hkept : ∀ t, t ≠ .iterationRecords → db₁.rows t = db.rows t := fun t ht => by
      rw [hrows₁, Function.update_of_ne ht]
    have hpart : ∀ t, t ≠ .iterationRecords → ∀ part, added t part = added t (inserts e) →
        schema.Accepts t (added t part) ∧ (∀ key ∈ schema.keys t, .iterationRecordId ∈ key) ∧
          ∀ row ∈ added t part, hasText .iterationRecordId e.id row = true := by
      intro t ht part hpart
      rw [hpart]
      exact ⟨accepts_inserts hcounts ht, iterationRecordId_mem_keys ht, hasText_inserts e⟩
    obtain ⟨db₂, hruns, -, hprogress⟩ := (progress_clear e.id hkept).insert
      (insertTraceRuns e) fun t hnil => by
        obtain rfl := not_not.mp fun hne => hnil ((added_parts e t).1 hne)
        refine ⟨by simp, by simp, rfl, hpart _ (by simp) _ ?_⟩
        rw [inserts, added_append, (added_parts e _).2 (.inr rfl), List.append_nil]
    obtain ⟨db₃, hmetrics, -, -⟩ := (progress_clearMetrics hprogress fun t ht =>
      (added_parts e t).1 ht).insert (e.metrics.elim [] (insertMetrics e)) fun t hnil => by
        have hne := not_or.mp fun htable => hnil ((added_parts e t).2 htable)
        refine ⟨hne.1, by cases t <;> simp at hne ⊢, (added_parts e t).1 hne.2,
          hpart t hne.1 _ ?_⟩
        rw [inserts, added_append, (added_parts e t).1 hne.2, List.nil_append]
    refine ⟨db₃, ?_⟩
    rw [upsert_eq]
    exact Result.bind_eq_ok.mpr ⟨db₁, hset, Result.bind_eq_ok.mpr ⟨db₂, hruns, hmetrics⟩⟩

end Store

end Selfevals.Storage.IterationRoundTrip
