import Selfevals.Optimization.AggregateOrder

/-!
# Persisted outcomes and the aggregate read back from them

A worker writes a `CaseOutcome` as the fields of one row and the coordinator rebuilds the list from
the rows it reads. The rebuilt outcomes are the ones that were written
(`caseOutcomeFromFields_toFields`), so the aggregate of the rows is the in-process one but for the
order of its list of outcomes, which is that of the rows (`aggregateRows_sameMetrics`).
-/

namespace Selfevals.Optimization.ScenarioOutcomes

open Lib.Mapping Schemas.Enums Graders.Base Optimization.Aggregator Optimization.AggregateOrder

/-- The column values of a row. A key `case_outcome_from_fields` may find missing has the default
it then takes. -/
structure OutcomeFields where
  caseId : String
  labels : List String
  scores : List ℚ
  perGraderLabels : Dict String (List String) := .empty
  failureModes : List String := []
  breakdowns : List BreakdownDict := []
  failureWeights : Dict String ℤ := .empty
  criticalFailureModes : List String := []
  costUsd : ℚ := 0
  durationMs : ℤ := 0
  llmCallCount : ℤ := 0
  cacheHitCount : ℤ := 0

/-- `case_outcome_to_fields`. -/
def caseOutcomeToFields (outcome : CaseOutcome) : OutcomeFields where
  caseId := outcome.caseId
  labels := outcome.perRepetitionLabel.map Coded.value
  scores := outcome.perRepetitionScore
  perGraderLabels := outcome.perGraderLabel.mapValues fun labels => labels.map Coded.value
  failureModes := outcome.failureModes
  breakdowns := toDicts outcome.breakdowns
  failureWeights := outcome.failureWeights
  criticalFailureModes := outcome.criticalFailureModes
  costUsd := outcome.costUsd
  durationMs := outcome.durationMs
  llmCallCount := outcome.llmCallCount
  cacheHitCount := outcome.cacheHitCount

/-- `[GradeLabel(s) for s in labels]`, with `none` for the `ValueError`. -/
def readLabels (labels : List String) : Option (List GradeLabel) := labels.mapM Coded.ofValue

/-- `case_outcome_from_fields`. -/
def caseOutcomeFromFields (fields : OutcomeFields) : Option CaseOutcome := do
  let perRepetitionLabel ← readLabels fields.labels
  let perGraderLabel ← fields.perGraderLabels.traverse readLabels
  let breakdowns ← fromDicts fields.breakdowns
  return {
    caseId := fields.caseId
    perRepetitionLabel
    perRepetitionScore := fields.scores
    perGraderLabel
    failureModes := fields.failureModes
    breakdowns
    failureWeights := fields.failureWeights
    criticalFailureModes := fields.criticalFailureModes
    costUsd := fields.costUsd
    durationMs := fields.durationMs
    llmCallCount := fields.llmCallCount
    cacheHitCount := fields.cacheHitCount }

/-- `aggregate_iteration_from_storage`, given the rows the query returned; `none` for the
`ValueError` of a label that is none. -/
def aggregateRows (rows : List OutcomeFields) (primaryMetric : String)
    (reliabilityMetrics : Option (List String)) (primaryGrader : Option String) :
    Option (Except MetricError IterationAggregate) :=
  (rows.mapM caseOutcomeFromFields).map fun outcomes =>
    aggregateIteration outcomes primaryMetric reliabilityMetrics primaryGrader

/-! ### Reading back what was written -/

theorem mapM_map_of_inverse {α β : Type} {f : α → β} {g : β → Option α}
    (h : ∀ a, g (f a) = some a) (as : List α) : (as.map f).mapM g = some as := by
  induction as with
  | nil => rfl
  | cons a as ih => simp [List.mapM_cons, h, ih]

theorem readLabels_value (labels : List GradeLabel) :
    readLabels (labels.map Coded.value) = some labels :=
  mapM_map_of_inverse Coded.ofValue_value labels

/-- **An outcome reads back as it was written.** -/
theorem caseOutcomeFromFields_toFields (outcome : CaseOutcome) :
    caseOutcomeFromFields (caseOutcomeToFields outcome) = some outcome := by
  have hgraders := Dict.traverse_mapValues readLabels_value outcome.perGraderLabel
  have hbreakdowns := fromDicts_toDicts outcome.breakdowns
  simp only [caseOutcomeFromFields, caseOutcomeToFields, readLabels_value, hgraders, hbreakdowns]
  rfl

theorem aggregateRows_toFields (outcomes : List CaseOutcome) (primaryMetric : String)
    (reliabilityMetrics : Option (List String)) (primaryGrader : Option String) :
    aggregateRows (outcomes.map caseOutcomeToFields) primaryMetric reliabilityMetrics
        primaryGrader =
      some (aggregateIteration outcomes primaryMetric reliabilityMetrics primaryGrader) := by
  rw [aggregateRows, mapM_map_of_inverse caseOutcomeFromFields_toFields]
  rfl

/-! ### The aggregate of the rows -/

/-- The aggregate of the rows is `R`-related to the one of the outcomes in hand, or both fail alike.
-/
def Agrees (R : IterationAggregate → IterationAggregate → Prop) (rows : List OutcomeFields)
    (outcomes : List CaseOutcome) (primaryMetric : String)
    (reliabilityMetrics : Option (List String)) (primaryGrader : Option String) : Prop :=
  ∃ result, aggregateRows rows primaryMetric reliabilityMetrics primaryGrader = some result ∧
    OutcomeRel R result
      (aggregateIteration outcomes primaryMetric reliabilityMetrics primaryGrader)

/-- **Sharded and in-process aggregation agree**: rows read back in any order give the in-process
aggregate in every field, dicts compared as maps, but the list of outcomes, which is in the order of
the rows. -/
theorem aggregateRows_sameMetrics {read outcomes : List CaseOutcome} (h : read.Perm outcomes)
    (primaryMetric : String) (reliabilityMetrics : Option (List String))
    (primaryGrader : Option String) :
    Agrees (fun a b => SameMetrics a b ∧ a.caseOutcomes = read ∧ b.caseOutcomes = outcomes)
      (read.map caseOutcomeToFields) outcomes primaryMetric reliabilityMetrics primaryGrader := by
  refine ⟨_, aggregateRows_toFields read primaryMetric reliabilityMetrics primaryGrader, ?_⟩
  exact aggregateIteration_sameMetrics h primaryMetric reliabilityMetrics primaryGrader

/-- An outcome that passed, and one that failed. -/
def passed : CaseOutcome := ⟨"c1", [.pass], [1], [], 0, 10, 0, 0, [], .empty, .empty, []⟩
def failed : CaseOutcome := ⟨"c2", [.fail], [0], ["wrong"], 0, 20, 0, 0, [], .empty, .empty, []⟩

theorem aggregateRows_swapped :
    [failed, passed].Perm [passed, failed] ∧
      Agrees (fun a b => SameMetrics a b ∧ a.caseOutcomes = [failed, passed] ∧
          b.caseOutcomes = [passed, failed])
        ([failed, passed].map caseOutcomeToFields) [passed, failed] "pass@1" (some ["pass^2"])
        none :=
  have hswap : [failed, passed].Perm [passed, failed] := .swap passed failed []
  ⟨hswap, aggregateRows_sameMetrics hswap "pass@1" (some ["pass^2"]) none⟩

/-- Equal outcomes, dicts compared as maps. -/
structure SameOutcome (o o' : CaseOutcome) : Prop where
  caseId : o.caseId = o'.caseId
  perRepetitionLabel : o.perRepetitionLabel = o'.perRepetitionLabel
  perRepetitionScore : o.perRepetitionScore = o'.perRepetitionScore
  failureModes : o.failureModes = o'.failureModes
  costUsd : o.costUsd = o'.costUsd
  durationMs : o.durationMs = o'.durationMs
  cacheHitCount : o.cacheHitCount = o'.cacheHitCount
  llmCallCount : o.llmCallCount = o'.llmCallCount
  breakdowns : o.breakdowns = o'.breakdowns
  perGraderLabel : o.perGraderLabel.Same o'.perGraderLabel
  failureWeights : o.failureWeights.Same o'.failureWeights
  criticalFailureModes : o.criticalFailureModes = o'.criticalFailureModes

/-- Equal aggregates, the list of outcomes included. -/
def SameAggregate (a b : IterationAggregate) : Prop :=
  SameMetrics a b ∧ List.Forall₂ SameOutcome a.caseOutcomes b.caseOutcomes

theorem ids_of_sameAggregate {a b : IterationAggregate} (h : SameAggregate a b) :
    a.caseOutcomes.map (·.caseId) = b.caseOutcomes.map (·.caseId) := by
  have hlist := h.2
  generalize a.caseOutcomes = as at hlist
  generalize b.caseOutcomes = bs at hlist
  induction hlist with
  | nil => rfl
  | cons hab _ ih => rw [List.map_cons, List.map_cons, hab.caseId, ih]

theorem aggregateIteration_passAt1 (outcomes : List CaseOutcome) :
    ∃ a, aggregateIteration outcomes "pass@1" none none = .ok a := by
  by_cases hne : outcomes.length = 0
  · exact ⟨_, by rw [aggregateIteration, if_pos hne]⟩
  · have hvalue : ∃ value, computeMetric "pass@1" outcomes none = .ok value := by
      simp only [computeMetric, Option.filter_none]
      split_ifs <;> exact ⟨_, rfl⟩
    obtain ⟨value, hvalue⟩ := hvalue
    refine ⟨assemble outcomes "pass@1" none value .empty, ?_⟩
    rw [aggregateIteration_eq hne, hvalue]
    rfl

/-- Read back the other way round, two cases give the other list of outcomes. -/
theorem order_of_rows_shows :
    ["c1", "c2"].Nodup ∧ [failed, passed].Perm [passed, failed] ∧
      ¬ Agrees SameAggregate ([failed, passed].map caseOutcomeToFields) [passed, failed] "pass@1"
        none none := by
  refine ⟨by decide, .swap passed failed [], ?_⟩
  rintro ⟨result, hrows, hrel⟩
  rw [aggregateRows_toFields] at hrows
  obtain rfl := Option.some.inj hrows
  obtain ⟨a, ha⟩ := aggregateIteration_passAt1 [failed, passed]
  obtain ⟨b, hb⟩ := aggregateIteration_passAt1 [passed, failed]
  rw [ha, hb] at hrel
  have hids := ids_of_sameAggregate hrel
  rw [(caseOutcomes_of_ok ha).1, (caseOutcomes_of_ok hb).1] at hids
  exact absurd hids (by decide)

end Selfevals.Optimization.ScenarioOutcomes
