import Selfevals.Optimization.IterationLoop

/-!
# Reports from the stored records

A report is made of the result of a run, which is in hand when the run ends, or is rebuilt from the
stored records (`reconstructResult`). What the record of an iteration has no column for comes back
as a default, and the number of its cases is that of the case runs the loop had in hand.

* `toReport_eq_of_numbers`: a report is made of the numbers of its iterations.
-/

namespace Selfevals.Reporter.StoredReports

open Lib.JsonValue Lib.Mapping Lib.Sql Optimization.Aggregator Optimization.Coordinator
  Optimization.IterationLoop Optimization.ScenarioOutcomes Schemas.Enums Schemas.Experiments
  Schemas.Iterations Storage.ScenarioQueries

/-! ### The report -/

/-- What the report says of an aggregate: its metrics, failure modes, cache, funnel and totals. -/
structure IterationNumbers where
  primaryMetric : String
  primaryValue : ℚ
  guardrails : Dict String ℚ
  reliability : Dict String ℚ
  failureModes : Dict String ℕ
  cacheHits : ℤ
  llmCalls : ℤ
  funnel : List (String × FunnelDict)
  costUsd : ℚ
  durationMs : ℤ
  caseCount : ℕ

/-- The numbers of an aggregate. -/
def numbers (agg : IterationAggregate) : IterationNumbers where
  primaryMetric := agg.primaryMetric
  primaryValue := agg.primaryValue
  guardrails := agg.guardrails
  reliability := agg.reliability
  failureModes := agg.failureModeCounts
  cacheHits := agg.cacheHitCount
  llmCalls := agg.llmCallCount
  funnel := toDicts agg.funnel
  costUsd := agg.totalCostUsd
  durationMs := agg.totalDurationMs
  caseCount := agg.caseCount

/-- `_iteration_to_dict`; the ids of the records and the reasons of failures are left out. -/
structure IterationReport where
  iteration : ℕ
  hypothesis : String
  parameters : Object
  numbers : IterationNumbers
  outcome : DecisionOutcome
  rationale : String

/-- `_iteration_to_dict`. -/
def iterationToDict (it : IterationOutcome) : IterationReport where
  iteration := it.iteration
  hypothesis := it.proposal.hypothesis
  parameters := it.proposal.parameters
  numbers := numbers it.aggregate
  outcome := it.decisionRecord.outcome
  rationale := (it.iterationRecord.decision.map (·.rationale)).getD ""

/-- The costs and durations of some iterations, in all and each. -/
structure CostTimeSummary where
  costTotalUsd : Option ℚ
  costPerIterationUsd : Option ℚ
  costPerCaseUsd : Option ℚ
  timeTotalSeconds : Option ℚ
  timePerIterationSeconds : Option ℚ
  timePerCaseSeconds : Option ℚ
  iterations : ℕ
  casesRun : ℕ
deriving DecidableEq, Repr

/-- `compute_total_cost`: no cost at all is no data. -/
def computeTotalCost (aggs : List IterationAggregate) : Option ℚ :=
  if aggs.any fun agg => 0 < agg.totalCostUsd then some (aggs.map (·.totalCostUsd)).sum else none

/-- `compute_total_time_seconds`. -/
def computeTotalTimeSeconds (aggs : List IterationAggregate) : Option ℚ :=
  if aggs.any fun agg => 0 < agg.totalDurationMs then
    some ((aggs.map (·.totalDurationMs)).sum / 1000)
  else none

/-- `compute_total_cases`. -/
def computeTotalCases (aggs : List IterationAggregate) : ℕ := (aggs.map (·.caseCount)).sum

/-- A total over a number, if there is one and the number is not zero. -/
def per (total : Option ℚ) (n : ℕ) : Option ℚ := if 0 < n then total.map (· / n) else none

/-- `compute_cost_time_summary`. -/
def computeCostTimeSummary (aggs : List IterationAggregate) : CostTimeSummary where
  costTotalUsd := computeTotalCost aggs
  costPerIterationUsd := per (computeTotalCost aggs) aggs.length
  costPerCaseUsd := per (computeTotalCost aggs) (computeTotalCases aggs)
  timeTotalSeconds := computeTotalTimeSeconds aggs
  timePerIterationSeconds := per (computeTotalTimeSeconds aggs) aggs.length
  timePerCaseSeconds := per (computeTotalTimeSeconds aggs) (computeTotalCases aggs)
  iterations := aggs.length
  casesRun := computeTotalCases aggs

/-- What `to_dict` says of the iterations of a result. -/
structure Report where
  costTime : CostTimeSummary
  iterations : List IterationReport

/-- The report of a run. -/
def toReport (iterations : List IterationOutcome) : Report where
  costTime := computeCostTimeSummary (iterations.map (·.aggregate))
  iterations := iterations.map iterationToDict

/-- The numbers of a report's iterations. -/
def Report.iterationNumbers (report : Report) : List IterationNumbers :=
  report.iterations.map (·.numbers)

theorem iterationNumbers_toReport (iterations : List IterationOutcome) :
    (toReport iterations).iterationNumbers = iterations.map fun it => numbers it.aggregate := by
  show ((iterations.map iterationToDict).map _) = _
  rw [List.map_map]
  rfl

theorem costTime_congr {aggs aggs' : List IterationAggregate}
    (h : aggs.map numbers = aggs'.map numbers) :
    computeCostTimeSummary aggs = computeCostTimeSummary aggs' := by
  have hof : ∀ {β : Type} (f : IterationNumbers → β), aggs.map (fun agg => f (numbers agg)) =
      aggs'.map fun agg => f (numbers agg) := by
    intro β f
    have := congrArg (List.map f) h
    rwa [List.map_map, List.map_map] at this
  have hcost : aggs.map (·.totalCostUsd) = aggs'.map (·.totalCostUsd) := hof (·.costUsd)
  have htime : aggs.map (·.totalDurationMs) = aggs'.map (·.totalDurationMs) := hof (·.durationMs)
  have hcases : aggs.map (·.caseCount) = aggs'.map (·.caseCount) := hof (·.caseCount)
  have hlen : aggs.length = aggs'.length := by simpa using congrArg List.length h
  have hany : ∀ (aggs : List IterationAggregate),
      (aggs.any fun agg => 0 < agg.totalCostUsd) = (aggs.map (·.totalCostUsd)).any (0 < ·) :=
    fun aggs => by rw [List.any_map]; rfl
  have hany' : ∀ (aggs : List IterationAggregate),
      (aggs.any fun agg => 0 < agg.totalDurationMs) = (aggs.map (·.totalDurationMs)).any (0 < ·) :=
    fun aggs => by rw [List.any_map]; rfl
  have htotal : computeTotalCost aggs = computeTotalCost aggs' := by
    unfold computeTotalCost
    rw [hany, hany, hcost]
  have hseconds : computeTotalTimeSeconds aggs = computeTotalTimeSeconds aggs' := by
    unfold computeTotalTimeSeconds
    rw [hany', hany', htime]
  have hcount : computeTotalCases aggs = computeTotalCases aggs' := by
    unfold computeTotalCases
    rw [hcases]
  unfold computeCostTimeSummary
  rw [htotal, hseconds, hcount, hlen]

/-! ### The result from the records -/

/-- `_experiment_iterations`, of the iteration records of a workspace. -/
def experimentIterations (listed : List IterationRecord) (experimentId : String) :
    List IterationRecord :=
  orderBy (·.iteration) (listed.filter fun r => r.experimentId == experimentId)

/-- `_experiment_decisions`: of two decisions of one iteration, the later of the listing. -/
def experimentDecisions (listed : List DecisionRecord) (experimentId : String) :
    Dict ℕ DecisionRecord :=
  .ofItems ((listed.filter fun d => d.experimentId == experimentId).map fun d => (d.iteration, d))

/-- `int(x)` of a float. -/
def truncate (x : ℚ) : ℤ := if 0 ≤ x then ⌊x⌋ else ⌈x⌉

/-- The aggregate that `_reconstruct_result` makes of the metrics of a record. -/
def rebuildAggregate (record : IterationRecord) (metrics : IterationMetrics) :
    IterationAggregate where
  primaryMetric := metrics.primary.name
  primaryValue := metrics.primary.value
  guardrails := .ofItems (metrics.guardrails.map fun g => (g.name, g.value))
  reliability := metrics.reliability
  failureModeCounts := metrics.failureModeCounts
  totalCostUsd := metrics.costUsd.getD 0
  totalDurationMs := truncate (metrics.durationSeconds.getD 0 * 1000)
  errorRate := metrics.errorRate
  caseCount := (record.ranAgainst.get? "case_count").getD 0
  funnel := fromDicts metrics.funnel
  confusion := metrics.confusion

/-- A record without metrics, or without a decision, is left out. -/
def rebuildOutcome (decisions : Dict ℕ DecisionRecord) (record : IterationRecord) :
    Option IterationOutcome := do
  let metrics ← record.metrics
  let decision ← decisions.get? record.iteration
  return {
    iteration := record.iteration
    proposal := { parameters := record.proposedParameters, hypothesis := record.hypothesis }
    aggregate := rebuildAggregate record metrics
    iterationRecord := record
    decisionRecord := decision }

/-- `_reconstruct_result`: the iterations of the result. -/
def reconstructResult (iterations : List IterationRecord) (decisions : Dict ℕ DecisionRecord) :
    List IterationOutcome :=
  iterations.filterMap (rebuildOutcome decisions)

/-! ### The numbers of one iteration -/

theorem truncate_intCast (n : ℤ) : truncate n = n := by
  unfold truncate
  split_ifs
  · exact Int.floor_intCast n
  · exact Int.ceil_intCast n

theorem truncate_seconds (ms : ℤ) :
    truncate ((if ms = 0 then none else some ((ms : ℚ) / 1000)).getD 0 * 1000) = ms := by
  split_ifs with h
  · subst h
    exact (congrArg truncate (zero_mul (1000 : ℚ))).trans (truncate_intCast 0)
  · have hms : ((ms : ℚ) / 1000) * 1000 = ms := div_mul_cancel₀ _ (by norm_num)
    show truncate ((ms : ℚ) / 1000 * 1000) = ms
    rw [hms, truncate_intCast]

/-- **What comes back of an aggregate**: all its numbers but the cache's, and the number of case
runs for that of cases. -/
theorem numbers_rebuildAggregate {e : Experiment} {iteration : ℕ} {proposal : Proposal}
    {agg : IterationAggregate} {caseRuns : List CaseRun} {outcome : DecisionOutcome}
    {rationale : String} {baseline : Option IterationAggregate} {record : IterationRecord}
    (h : buildIterationRecord e iteration proposal agg caseRuns outcome rationale baseline =
      some record) :
    ∃ metrics, record.metrics = some metrics ∧ numbers (rebuildAggregate record metrics) =
      { numbers agg with cacheHits := 0, llmCalls := 0, caseCount := caseRuns.length } := by
  simp only [buildIterationRecord, Option.bind_eq_bind, Option.bind_eq_some_iff] at h
  obtain ⟨metrics, hmetrics, h⟩ := h
  split_ifs at h
  obtain rfl := Option.some.inj h
  refine ⟨metrics, rfl, ?_⟩
  unfold iterationMetrics at hmetrics
  obtain ⟨_, heq⟩ := Option.dite_none_right_eq_some.mp hmetrics
  obtain rfl := Option.some.inj heq
  have hguardrails : Dict.ofItems ((agg.guardrails.items.map fun item =>
      ({ name := item.1, value := item.2 } : MetricObservation)).map fun g => (g.name, g.value)) =
        agg.guardrails := by
    rw [List.map_map]
    exact (congrArg Dict.ofItems (List.map_id _)).trans (Dict.ofItems_items _)
  have hcost : (if agg.totalCostUsd = 0 then none else some agg.totalCostUsd).getD 0 =
      agg.totalCostUsd := by
    split_ifs with hzero
    · exact hzero.symm
    · rfl
  have hcount : ((Dict.empty.set "case_count" caseRuns.length).get? "case_count").getD 0 =
      caseRuns.length := by
    rw [Dict.get?_set_self]
    rfl
  simp only [numbers, rebuildAggregate, hguardrails, hcost, hcount, truncate_seconds,
    fromDicts_toDicts]

/-- The numbers that come back of the record of an iteration. -/
def rebuiltNumbers (record : IterationRecord) : Option IterationNumbers :=
  record.metrics.map fun metrics => numbers (rebuildAggregate record metrics)

/-- The outcomes an iteration aggregates have no cache hit and no model call; if workers run it,
there is no outcome, since the record has no case. -/
def NothingLost (iteration : ℕ) : Execution → Prop
  | .inProcess results => (results.map fun r => r.2.cacheHitCount).sum = 0 ∧
      (results.map fun r => r.2.llmCallCount).sum = 0
  | .coordinated store runJobId =>
    scenarioOutcomesForIteration store.outcomes runJobId iteration = []

instance (iteration : ℕ) (execution : Execution) : Decidable (NothingLost iteration execution) := by
  unfold NothingLost
  split
  · infer_instance
  · exact decidable_of_iff _ List.isEmpty_iff

theorem eq_nil_of_mapM_iff {α β : Type} {f : α → Option β} {as : List α} {bs : List β}
    (h : as.mapM f = some bs) : bs = [] ↔ as = [] := by
  cases as with
  | nil => exact iff_of_true (Option.some.inj h).symm rfl
  | cons a as =>
    rw [List.mapM_cons] at h
    simp only [Option.bind_eq_bind, Option.bind_eq_some_iff] at h
    obtain ⟨b, -, bs', -, hcons⟩ := h
    obtain rfl := Option.some.inj hcons
    exact iff_of_false (List.cons_ne_nil _ _) (List.cons_ne_nil _ _)

theorem nothingLost_iff {e : Experiment} {iteration : ℕ} {execution : Execution}
    {agg : IterationAggregate} {caseRuns : List CaseRun}
    (h : runIteration e iteration execution = some (agg, caseRuns)) :
    (agg.cacheHitCount = 0 ∧ agg.llmCallCount = 0 ∧ agg.caseCount = caseRuns.length) ↔
      NothingLost iteration execution := by
  unfold runIteration at h
  split at h
  · next results =>
    split at h
    · next agg' hagg =>
      obtain ⟨rfl, rfl⟩ := Prod.mk.inj (Option.some.inj h)
      obtain ⟨hcache, hcalls⟩ := calls_of_ok hagg
      have hcount := (caseOutcomes_of_ok hagg).2
      rw [List.map_map] at hcache hcalls
      rw [hcache, hcalls, hcount, List.length_map, List.length_map]
      exact and_congr_right fun _ => and_iff_left rfl
    · cases h
  · next store runJobId =>
    split at h
    · next agg' hagg =>
      obtain ⟨rfl, rfl⟩ := Prod.mk.inj (Option.some.inj h)
      unfold aggregateIterationFromStorage aggregateRows at hagg
      obtain ⟨outcomes, hrows, hagg⟩ := Option.map_eq_some_iff.mp hagg
      have hcount := (caseOutcomes_of_ok hagg).2
      obtain ⟨hcache, hcalls⟩ := calls_of_ok hagg
      show _ ↔ scenarioOutcomesForIteration store.outcomes runJobId iteration = []
      rw [hcache, hcalls, hcount, ← eq_nil_of_mapM_iff hrows]
      constructor
      · rintro ⟨-, -, hlen⟩
        exact List.length_eq_zero_iff.mp hlen
      · rintro rfl
        exact ⟨rfl, rfl, rfl⟩
    · cases h

/-- **The numbers of an iteration come back** if and only if there was nothing to lose. -/
theorem numbers_rebuilt_iff {e : Experiment} {iteration : ℕ} {input : IterationInput}
    {baseline : Option IterationAggregate} {it : IterationOutcome}
    (h : runRound e iteration baseline input = some it) :
    rebuiltNumbers it.iterationRecord = some (numbers it.aggregate) ↔
      NothingLost iteration input.execution := by
  simp only [runRound, Option.bind_eq_bind, Option.bind_eq_some_iff] at h
  obtain ⟨⟨agg, caseRuns⟩, hagg, record, hrecord, hit⟩ := h
  obtain rfl := Option.some.inj hit
  obtain ⟨metrics, hmetrics, hnumbers⟩ := numbers_rebuildAggregate hrecord
  show rebuiltNumbers record = some (numbers agg) ↔ _
  rw [← nothingLost_iff hagg, rebuiltNumbers, hmetrics, Option.map_some, hnumbers,
    Option.some.injEq]
  unfold numbers
  rw [IterationNumbers.mk.injEq]
  constructor
  · rintro ⟨-, -, -, -, -, hcache, hcalls, -, -, -, hcount⟩
    exact ⟨hcache.symm, hcalls.symm, hcount.symm⟩
  · rintro ⟨hcache, hcalls, hcount⟩
    exact ⟨rfl, rfl, rfl, rfl, rfl, hcache.symm, hcalls.symm, rfl, rfl, rfl, hcount.symm⟩

/-! ### The report of a run -/

/-- What is kept of some elements is each one's own image if and only if nothing is dropped or
changed. -/
theorem filterMap_eq_map_iff {α β : Type} {f : α → Option β} {g : α → β} {l : List α} :
    l.filterMap f = l.map g ↔ ∀ a ∈ l, f a = some (g a) := by
  induction l with
  | nil => simp
  | cons a l ih =>
    rw [List.forall_mem_cons, ← ih]
    cases hfa : f a with
    | none =>
      rw [List.filterMap_cons_none hfa]
      refine iff_of_false (fun heq => ?_) fun h => nomatch h.1
      have hlen := congrArg List.length heq
      have hle := List.length_filterMap_le f l
      rw [List.length_map, List.length_cons] at hlen
      omega
    | some b =>
      rw [List.filterMap_cons_some hfa, List.map_cons, List.cons.injEq, Option.some.injEq]

theorem mem_experimentDecisions {listed : List DecisionRecord} {experimentId : String} {i : ℕ} :
    ((experimentDecisions listed experimentId).get? i).isSome ↔
      ∃ d ∈ listed, d.experimentId = experimentId ∧ d.iteration = i := by
  rw [← Dict.mem_keys_iff, experimentDecisions, Dict.mem_keys_ofItems, List.map_map, List.mem_map]
  constructor
  · rintro ⟨d, hd, rfl⟩
    obtain ⟨hd, he⟩ := List.mem_filter.mp hd
    exact ⟨d, hd, by simpa using he, rfl⟩
  · rintro ⟨d, hd, he, rfl⟩
    exact ⟨d, List.mem_filter.mpr ⟨hd, by simpa using he⟩, rfl⟩

/-- A record that is in the result. -/
def Kept (decisions : Dict ℕ DecisionRecord) (record : IterationRecord) : Bool :=
  record.metrics.isSome && (decisions.get? record.iteration).isSome

theorem rebuildOutcome_numbers (decisions : Dict ℕ DecisionRecord) (record : IterationRecord) :
    (rebuildOutcome decisions record).map (fun it => numbers it.aggregate) =
      if Kept decisions record then rebuiltNumbers record else none := by
  unfold rebuildOutcome rebuiltNumbers Kept
  cases record.metrics with
  | none => rfl
  | some metrics => cases decisions.get? record.iteration <;> rfl

theorem iterationNumbers_reconstructResult (records : List IterationRecord)
    (decisions : Dict ℕ DecisionRecord) :
    (toReport (reconstructResult records decisions)).iterationNumbers =
      (records.filter (Kept decisions)).filterMap rebuiltNumbers := by
  rw [iterationNumbers_toReport, reconstructResult, List.map_filterMap, List.filterMap_filter]
  exact List.filterMap_congr fun record _ => rebuildOutcome_numbers decisions record

/-- No other record of the experiment has metrics, and a decision for its iteration. -/
def NothingElse (experimentId : String) (decisions : List DecisionRecord)
    (others : List IterationRecord) : Prop :=
  ∀ record ∈ others, record.experimentId = experimentId → record.metrics.isSome →
    ∀ d ∈ decisions, d.experimentId = experimentId → d.iteration ≠ record.iteration

theorem nothingElse_iff {experimentId : String} {decisions : List DecisionRecord}
    {others : List IterationRecord} :
    (others.filter fun r => r.experimentId == experimentId).filter
      (Kept (experimentDecisions decisions experimentId)) = [] ↔
        NothingElse experimentId decisions others := by
  rw [List.filter_filter, List.filter_eq_nil_iff]
  refine forall₂_congr fun record _ => ?_
  simp only [Kept, Bool.and_eq_true, beq_iff_eq, mem_experimentDecisions]
  constructor
  · exact fun h he hm d hd hde hdi => h ⟨⟨hm, d, hd, hde, hdi⟩, he⟩
  · rintro h ⟨⟨hm, d, hd, hde, hdi⟩, he⟩
    exact h he hm d hd hde hdi

section Run
variable {e : Experiment} {inputs : List IterationInput} {live : List IterationOutcome}
  (hrun : runIterations e 0 none inputs = some live)
include hrun

theorem kept_of_run {decisions otherDecisions : List DecisionRecord}
    (hdecisions : decisions.Perm (live.map (·.decisionRecord) ++ otherDecisions)) :
    ∀ record ∈ live.map (·.iterationRecord), record.experimentId = e.id ∧
      Kept (experimentDecisions decisions e.id) record = true := by
  intro record hrecord
  obtain ⟨it, hit, rfl⟩ := List.mem_map.mp hrecord
  obtain ⟨i, hi⟩ := List.mem_iff_getElem?.mp hit
  obtain ⟨input, baseline, -, hround⟩ := (runIterations_getElem? hrun).2 i it hi
  obtain ⟨hexp, hnumber, hmetrics, hdexp, hdnumber⟩ := runRound_records hround
  refine ⟨hexp, Bool.and_eq_true_iff.mpr ⟨hmetrics, mem_experimentDecisions.mpr ?_⟩⟩
  exact ⟨it.decisionRecord,
    hdecisions.mem_iff.mpr (List.mem_append_left _ (List.mem_map_of_mem hit)),
    hdexp, hdnumber.trans hnumber.symm⟩

/-- What is rebuilt has the numbers of the run if and only if each iteration has, and nothing else
is kept. -/
theorem rebuilt_numbers_iff {iterations others : List IterationRecord}
    {decisions otherDecisions : List DecisionRecord}
    (hiterations : iterations.Perm (live.map (·.iterationRecord) ++ others))
    (hdecisions : decisions.Perm (live.map (·.decisionRecord) ++ otherDecisions)) :
    (toReport (reconstructResult (experimentIterations iterations e.id)
        (experimentDecisions decisions e.id))).iterationNumbers =
      (toReport live).iterationNumbers ↔
    (∀ it ∈ live, rebuiltNumbers it.iterationRecord = some (numbers it.aggregate)) ∧
      NothingElse e.id decisions others := by
  have hkept := kept_of_run hrun hdecisions
  let decs := experimentDecisions decisions e.id
  let records := live.map (·.iterationRecord)
  let kept := (experimentIterations iterations e.id).filter (Kept decs)
  let rest := (others.filter fun r => r.experimentId == e.id).filter (Kept decs)
  have hperm : kept.Perm (records ++ rest) := by
    have hlisted := (hiterations.filter fun r => r.experimentId == e.id).filter (Kept decs)
    rw [List.filter_append, List.filter_append] at hlisted
    have hown : (records.filter fun r => r.experimentId == e.id).filter (Kept decs) = records := by
      rw [List.filter_filter]
      exact List.filter_eq_self.mpr fun r hr => by simp [hkept r hr, decs]
    rw [hown] at hlisted
    exact ((orderBy_perm _ _).filter _).trans hlisted
  have hordered : kept.Pairwise fun a b => a.iteration ≤ b.iteration :=
    (isOrdering_orderBy _ (List.Perm.refl _)).2.filter _
  -- with nothing else kept, the records come in the order of the run
  have hrecords : rest = [] → kept = records := fun hrest =>
    eq_of_perm_of_pairwise (by rw [hrest, List.append_nil] at hperm; exact hperm) hordered
      (pairwise_records hrun)
  have hlength : (kept.filterMap rebuiltNumbers).length = records.length + rest.length := by
    rw [List.length_filterMap_eq_countP, ← List.length_append, ← hperm.length_eq,
      List.countP_eq_length]
    intro r hr
    have hmetrics := (Bool.and_eq_true_iff.mp (List.mem_filter.mp hr).2).1
    rw [rebuiltNumbers, Option.isSome_map]
    exact hmetrics
  rw [iterationNumbers_reconstructResult, iterationNumbers_toReport, ← nothingElse_iff]
  show kept.filterMap rebuiltNumbers = _ ↔ _ ∧ rest = []
  have heach : records.filterMap rebuiltNumbers = live.map (fun it => numbers it.aggregate) ↔
      ∀ it ∈ live, rebuiltNumbers it.iterationRecord = some (numbers it.aggregate) := by
    rw [List.filterMap_map]
    exact filterMap_eq_map_iff
  constructor
  · intro heq
    have hrest : rest = [] := by
      rw [heq, List.length_map, List.length_map] at hlength
      exact List.length_eq_zero_iff.mp (by omega)
    rw [hrecords hrest] at heq
    exact ⟨heach.mp heq, hrest⟩
  · rintro ⟨hall, hrest⟩
    rw [hrecords hrest]
    exact heach.mpr hall

/-- **A report rebuilt from the records says what the one of the run says** if and only if no
iteration has anything to lose, and nothing else is stored for the experiment. -/
theorem rebuilt_report_iff {iterations others : List IterationRecord}
    {decisions otherDecisions : List DecisionRecord}
    (hiterations : iterations.Perm (live.map (·.iterationRecord) ++ others))
    (hdecisions : decisions.Perm (live.map (·.decisionRecord) ++ otherDecisions)) :
    (∀ i input it, inputs[i]? = some input → live[i]? = some it →
      (rebuiltNumbers it.iterationRecord = some (numbers it.aggregate) ↔
        NothingLost i input.execution)) ∧
    ((toReport (reconstructResult (experimentIterations iterations e.id)
          (experimentDecisions decisions e.id))).costTime = (toReport live).costTime ∧
        (toReport (reconstructResult (experimentIterations iterations e.id)
          (experimentDecisions decisions e.id))).iterationNumbers =
            (toReport live).iterationNumbers ↔
      (∀ i input, inputs[i]? = some input → NothingLost i input.execution) ∧
        NothingElse e.id decisions others) := by
  obtain ⟨hlen, hrounds⟩ := runIterations_getElem? hrun
  have heach : ∀ i input it, inputs[i]? = some input → live[i]? = some it →
      (rebuiltNumbers it.iterationRecord = some (numbers it.aggregate) ↔
        NothingLost i input.execution) := by
    intro i input it hinput hit
    obtain ⟨input', baseline, hinput', hround⟩ := hrounds i it hit
    obtain rfl := Option.some.inj (hinput.symm.trans hinput')
    rw [Nat.zero_add] at hround
    exact numbers_rebuilt_iff hround
  refine ⟨heach, ?_⟩
  have hall : (∀ it ∈ live, rebuiltNumbers it.iterationRecord = some (numbers it.aggregate)) ↔
      ∀ i input, inputs[i]? = some input → NothingLost i input.execution := by
    constructor
    · intro h i input hinput
      obtain ⟨hi, -⟩ := List.getElem?_eq_some_iff.mp hinput
      have hit : live[i]? = some live[i] := List.getElem?_eq_getElem (by omega)
      exact (heach i input _ hinput hit).mp (h _ (List.getElem_mem _))
    · intro h it hmem
      obtain ⟨i, hit⟩ := List.mem_iff_getElem?.mp hmem
      obtain ⟨input, -, hinput, -⟩ := hrounds i it hit
      exact (heach i input it hinput hit).mpr (h i input hinput)
  rw [← hall, ← rebuilt_numbers_iff hrun hiterations hdecisions]
  refine ⟨And.right, fun h => ⟨?_, h⟩⟩
  -- the costs and durations follow from the numbers
  rw [iterationNumbers_toReport, iterationNumbers_toReport] at h
  refine costTime_congr ?_
  rw [List.map_map, List.map_map]
  exact h

end Run

/-! ### Runs of one case -/

/-- One iteration over one case, with a number of model calls. -/
def inProcess (llmCalls : ℤ) : IterationInput where
  proposal := { hypothesis := "shorter prompt" }
  execution := .inProcess [(⟨"c1"⟩, { passed with llmCallCount := llmCalls })]
  outcome := .keepCandidate
  rationale := "better"

/-- The row a worker leaves of the case. -/
def passedRow : OutcomeRow where
  id := "out_1"
  workspaceId := "ws_1"
  createdAt := 0
  updatedAt := 0
  runJobId := "job_1"
  scenarioJobId := "scn_1"
  experimentId := "exp_1"
  iteration := 0
  fields := caseOutcomeToFields passed

/-- The same iteration, run by a worker. -/
def coordinated : IterationInput :=
  { inProcess 0 with execution := .coordinated { outcomes := [passedRow] } "job_1" }

/-- What a run of some iterations gives. -/
def liveOf (inputs : List IterationInput) : List IterationOutcome :=
  (runIterations Experiment.minimal 0 none inputs).getD []

theorem run_eq_liveOf {inputs : List IterationInput}
    (h : (runIterations Experiment.minimal 0 none inputs).isSome = true) :
    runIterations Experiment.minimal 0 none inputs = some (liveOf inputs) := by
  obtain ⟨live, hlive⟩ := Option.isSome_iff_exists.mp h
  rw [liveOf, hlive]
  rfl

/-- The report rebuilt from the records of a run. -/
def rebuiltReport (live : List IterationOutcome) : Report :=
  toReport (reconstructResult
    (experimentIterations (live.map (·.iterationRecord)) Experiment.minimal.id)
    (experimentDecisions (live.map (·.decisionRecord)) Experiment.minimal.id))

theorem rebuilt_report_offline :
    runIterations Experiment.minimal 0 none [inProcess 0, inProcess 0] =
        some (liveOf [inProcess 0, inProcess 0]) ∧
      (rebuiltReport (liveOf [inProcess 0, inProcess 0])).costTime =
        (toReport (liveOf [inProcess 0, inProcess 0])).costTime ∧
      (rebuiltReport (liveOf [inProcess 0, inProcess 0])).iterationNumbers =
        (toReport (liveOf [inProcess 0, inProcess 0])).iterationNumbers := by
  have hrun := run_eq_liveOf
    (show (runIterations Experiment.minimal 0 none [inProcess 0, inProcess 0]).isSome = true by
      decide +kernel)
  generalize liveOf [inProcess 0, inProcess 0] = live at hrun ⊢
  have hreport := rebuilt_report_iff hrun
    (show (live.map (·.iterationRecord)).Perm (live.map (·.iterationRecord) ++ []) by simp)
    (show (live.map (·.decisionRecord)).Perm (live.map (·.decisionRecord) ++ []) by simp)
  have hnothing : ∀ i input, [inProcess 0, inProcess 0][i]? = some input →
      NothingLost i input.execution := by
    intro i input hinput
    have hmem := List.mem_of_getElem? hinput
    obtain rfl : input = inProcess 0 := by simpa using hmem
    exact ⟨rfl, rfl⟩
  exact ⟨hrun, hreport.2.mpr ⟨hnothing, fun _ h => nomatch h⟩⟩

/-- The model call of a run in hand is not in the report from storage, nor is the case of one that a
worker ran. -/
theorem rebuilt_report_loses :
    (runIterations Experiment.minimal 0 none [inProcess 1] = some (liveOf [inProcess 1]) ∧
      (toReport (liveOf [inProcess 1])).iterationNumbers.map (·.llmCalls) = [1] ∧
      (rebuiltReport (liveOf [inProcess 1])).iterationNumbers.map (·.llmCalls) = [0]) ∧
    (runIterations Experiment.minimal 0 none [coordinated] = some (liveOf [coordinated]) ∧
      (toReport (liveOf [coordinated])).costTime.casesRun = 1 ∧
      (rebuiltReport (liveOf [coordinated])).costTime.casesRun = 0) :=
  ⟨⟨run_eq_liveOf (by decide +kernel), by decide +kernel, by decide +kernel⟩,
    ⟨run_eq_liveOf (by decide +kernel), by decide +kernel, by decide +kernel⟩⟩

end Selfevals.Reporter.StoredReports
