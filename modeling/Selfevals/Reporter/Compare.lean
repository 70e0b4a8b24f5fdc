import Selfevals.Reporter.ProposalDiff
import Selfevals.Schemas.IterationRecords

/-!
# Comparing two iterations

`computeCompare` turns two iteration records into one structured diff: the parameters, the metrics,
the failure modes and the funnel side by side, and a recommendation. Numbers are exact rationals.
-/

namespace Selfevals.Reporter.Compare

open Lib.JsonEquality Lib.JsonValue Lib.Mapping Reporter.ProposalDiff Schemas.Base Schemas.Enums
  Schemas.IterationRecords

/-! ### The result -/

/-- A row of the metrics, by name, or of the funnel, by path. -/
structure ValueDiffRow where
  key : String
  a : Option ℚ
  b : Option ℚ
  delta : Option ℚ
deriving DecidableEq, Repr

/-- The failure modes of one record alone, and of both. -/
structure FailureModesDiff where
  onlyA : Dict String ℤ
  onlyB : Dict String ℤ
  common : Dict String (ℤ × ℤ)

/-- What a recommendation says. -/
inductive Kind
  | winner | tie | differentMetric | none
deriving DecidableEq, Repr

/-- A side of a comparison. -/
inductive Side
  | a | b
deriving DecidableEq, Repr

/-- Which of the records is better, if one is. -/
structure Recommendation where
  kind : Kind
  winner : Option Side := .none
  metricName : Option String := .none
  aMetricName : Option String
  bMetricName : Option String
  aValue : Option ℚ := .none
  bValue : Option ℚ := .none
  delta : Option ℚ := .none
  newFailureModes : List String := []
deriving DecidableEq, Repr

/-- A comparison of two records. -/
structure CompareResult where
  aId : String
  bId : String
  aIteration : ℕ
  bIteration : ℕ
  aCreatedAt : String
  bCreatedAt : String
  aDecision : Option DecisionOutcome
  bDecision : Option DecisionOutcome
  proposalDiff : List ParamDiffRow
  metricsDiff : List ValueDiffRow
  failureModes : FailureModesDiff
  funnelDiff : List ValueDiffRow
  recommendation : Recommendation

/-! ### What is compared -/

/-- The metrics of a record by name. -/
def metricsMap (record : IterationRecord) : Dict String ℚ :=
  match record.metrics with
  | none => .empty
  | some metrics =>
    let out := (Dict.empty : Dict String ℚ).set metrics.primary.name metrics.primary.value
    let out := metrics.guardrails.foldl (fun out g => out.set g.name g.value) out
    metrics.reliability.items.foldl (fun out item => out.set item.1 item.2) out

/-- The failure modes of a record, counted. -/
def failureModes (record : IterationRecord) : Dict String ℤ :=
  match record.metrics with
  | none => .empty
  | some metrics => metrics.failureModeCounts

mutual

/-- A node of the funnel: its score, if it has one, and its children. -/
def walkNode (path : String) : Json → Dict String ℚ → Dict String ℚ
  | .obj node, out =>
    walkChildren path node
      (match number (dictGet node "mean_score") with
      | some score => out.set path score
      | none => out)
  | .null, out | .bool _, out | .int _, out | .float _, out | .str _, out | .arr _, out => out

/-- `node.get("children")`, among the items of the node. -/
def walkChildren (path : String) : List (String × Json) → Dict String ℚ → Dict String ℚ
  | [], out => out
  | (key, v) :: items, out =>
    if key = "children" then walkTree path v out else walkChildren path items out

/-- `_walk`, where there is a dict. -/
def walkTree (path : String) : Json → Dict String ℚ → Dict String ℚ
  | .obj nodes, out => walkNodes path nodes out
  | .null, out | .bool _, out | .int _, out | .float _, out | .str _, out | .arr _, out => out

/-- `for key, node in nodes.items()`. -/
def walkNodes (start : String) : List (String × Json) → Dict String ℚ → Dict String ℚ
  | [], out => out
  | (key, node) :: nodes, out => walkNodes start nodes (walkNode (dotted start key) node out)

end

/-- The funnel of a record by path. -/
def funnelMap (record : IterationRecord) : Dict String ℚ :=
  match record.metrics with
  | none => .empty
  | some metrics => walkNodes "" metrics.funnel .empty

/-! ### The sections -/

/-- The difference, where both values are there. -/
def deltaOf : Option ℚ → Option ℚ → Option ℚ
  | some a, some b => some (b - a)
  | _, _ => none

/-- A row for every key of either side. -/
def valueRows (a b : Dict String ℚ) : List ValueDiffRow :=
  (sortedSet (a.keys ++ b.keys)).map fun key =>
    { key, a := a.get? key, b := b.get? key, delta := deltaOf (a.get? key) (b.get? key) }

/-- `_compute_metrics_diff`. -/
def computeMetricsDiff (a b : IterationRecord) : List ValueDiffRow :=
  valueRows (metricsMap a) (metricsMap b)

/-- `_compute_funnel_diff`. -/
def computeFunnelDiff (a b : IterationRecord) : List ValueDiffRow :=
  if (funnelMap a).items = [] ∧ (funnelMap b).items = [] then []
  else valueRows (funnelMap a) (funnelMap b)

/-- `sorted(set(a) - set(b))`. -/
def keysOnly (a b : Dict String ℤ) : List String := sortedSet (a.keys.filter (· ∉ b.keys))

/-- `sorted(set(a) & set(b))`. -/
def keysBoth (a b : Dict String ℤ) : List String := sortedSet (a.keys.filter (· ∈ b.keys))

/-- `d[m]`, of a key that the dict has. -/
def count (d : Dict String ℤ) (m : String) : ℤ := (d.get? m).getD 0

/-- `_compute_failure_modes`. -/
def computeFailureModes (a b : IterationRecord) : FailureModesDiff :=
  let aModes := failureModes a
  let bModes := failureModes b
  { onlyA := .ofKeys (count aModes) (keysOnly aModes bModes)
    onlyB := .ofKeys (count bModes) (keysOnly bModes aModes)
    common := .ofKeys (fun m => (count aModes m, count bModes m)) (keysBoth aModes bModes) }

/-- `_compute_recommendation`. -/
def computeRecommendation (a b : IterationRecord) : Recommendation :=
  match a.metrics.map (·.primary), b.metrics.map (·.primary) with
  | some aPrimary, some bPrimary =>
    let base : Recommendation := {
      kind := .differentMetric
      aMetricName := some aPrimary.name
      bMetricName := some bPrimary.name
      aValue := some aPrimary.value
      bValue := some bPrimary.value }
    if aPrimary.name ≠ bPrimary.name then base
    else
      let delta := bPrimary.value - aPrimary.value
      let base := { base with metricName := some aPrimary.name, delta := some delta }
      if |delta| < 1 / 10 ^ 9 then { base with kind := .tie }
      else
        let winner := if 0 < delta then Side.b else .a
        let loserFailures := failureModes (if winner = .b then a else b)
        let winnerFailures := failureModes (if winner = .b then b else a)
        { base with
          kind := .winner
          winner := some winner
          newFailureModes := keysOnly winnerFailures loserFailures }
  | aPrimary, bPrimary => {
      kind := .none, aMetricName := aPrimary.map (·.name), bMetricName := bPrimary.map (·.name) }

/-- `compute_compare`, where `isoformat` prints a time to the second. -/
def computeCompare (f : Format) (isoformat : Time → String) (a b : IterationRecord) :
    CompareResult where
  aId := a.id
  bId := b.id
  aIteration := a.iteration
  bIteration := b.iteration
  aCreatedAt := isoformat a.createdAt
  bCreatedAt := isoformat b.createdAt
  aDecision := a.decision.map (·.outcome)
  bDecision := b.decision.map (·.outcome)
  proposalDiff := computeProposalDiff f a.proposedParameters b.proposedParameters
  metricsDiff := computeMetricsDiff a b
  failureModes := computeFailureModes a b
  funnelDiff := computeFunnelDiff a b
  recommendation := computeRecommendation a b

/-! ### Mirror images -/

/-- A row with its sides exchanged. -/
def mirrorParam (row : ParamDiffRow) : ParamDiffRow := { row with a := row.b, b := row.a }

/-- The values are exchanged, and the difference is negated. -/
def ValueDiffRow.mirror (row : ValueDiffRow) : ValueDiffRow :=
  { row with a := row.b, b := row.a, delta := row.delta.map (- ·) }

def FailureModesDiff.mirror (d : FailureModesDiff) : FailureModesDiff where
  onlyA := d.onlyB
  onlyB := d.onlyA
  common := d.common.mapValues Prod.swap

def Side.mirror : Side → Side
  | .a => .b
  | .b => .a

/-- The other side wins, or still none; what is new is new all the same. -/
def Recommendation.mirror (r : Recommendation) : Recommendation where
  kind := r.kind
  winner := r.winner.map Side.mirror
  metricName := r.metricName
  aMetricName := r.bMetricName
  bMetricName := r.aMetricName
  aValue := r.bValue
  bValue := r.aValue
  delta := r.delta.map (- ·)
  newFailureModes := r.newFailureModes

/-- The comparison with its sides exchanged. -/
def CompareResult.mirror (r : CompareResult) : CompareResult where
  aId := r.bId
  bId := r.aId
  aIteration := r.bIteration
  bIteration := r.aIteration
  aCreatedAt := r.bCreatedAt
  bCreatedAt := r.aCreatedAt
  aDecision := r.bDecision
  bDecision := r.aDecision
  proposalDiff := r.proposalDiff.map mirrorParam
  metricsDiff := r.metricsDiff.map ValueDiffRow.mirror
  failureModes := r.failureModes.mirror
  funnelDiff := r.funnelDiff.map ValueDiffRow.mirror
  recommendation := r.recommendation.mirror

theorem deltaOf_swap (a b : Option ℚ) : deltaOf b a = (deltaOf a b).map (- ·) := by
  cases a with
  | none => cases b <;> rfl
  | some a =>
    cases b with
    | none => rfl
    | some b => exact congrArg some (neg_sub b a).symm

theorem valueRows_swap (a b : Dict String ℚ) :
    valueRows b a = (valueRows a b).map ValueDiffRow.mirror := by
  unfold valueRows
  rw [sortedSet_congr List.perm_append_comm, List.map_map]
  refine List.map_congr_left fun key _ => ?_
  rw [deltaOf_swap (a.get? key)]
  rfl

theorem computeFunnelDiff_swap (a b : IterationRecord) :
    computeFunnelDiff b a = (computeFunnelDiff a b).map ValueDiffRow.mirror := by
  unfold computeFunnelDiff
  by_cases h : (funnelMap a).items = [] ∧ (funnelMap b).items = []
  · rw [if_pos h, if_pos h.symm]
    rfl
  · rw [if_neg h, if_neg fun h' => h h'.symm]
    exact valueRows_swap _ _

theorem keysBoth_swap (a b : Dict String ℤ) : keysBoth b a = keysBoth a b := by
  unfold keysBoth
  refine sortedSet_congr ((List.perm_ext_iff_of_nodup ?_ ?_).mpr fun m => ?_)
  · exact b.nodup.filter _
  · exact a.nodup.filter _
  · rw [List.mem_filter, List.mem_filter, decide_eq_true_eq, decide_eq_true_eq, and_comm]

theorem items_ofKeys {α : Type} (f : String → α) {ks : List String} (h : ks.Nodup) :
    (Dict.ofKeys f ks).items = ks.map fun k => (k, f k) := by
  have hnodup : ((ks.map fun k => (k, f k)).map Prod.fst).Nodup := by
    simpa [Function.comp_def] using h
  have hitems : Dict.ofKeys f ks = Dict.ofItems (ks.map fun k => (k, f k)) := by
    rw [Dict.ofKeys, Dict.ofItems, List.foldl_map]
  rw [hitems]
  exact congrArg Dict.items (Dict.ofItems_items ⟨_, hnodup⟩)

theorem mapValues_ofKeys {α β : Type} (g : α → β) (f : String → α) {ks : List String}
    (h : ks.Nodup) : (Dict.ofKeys f ks).mapValues g = Dict.ofKeys (fun k => g (f k)) ks := by
  ext1
  rw [items_ofKeys _ h]
  simp [Dict.mapValues, Dict.filterMap, items_ofKeys f h]

theorem nodup_keysBoth (a b : Dict String ℤ) : (keysBoth a b).Nodup :=
  (sorted_perm _).nodup_iff.mpr (List.nodup_dedup _)

theorem computeFailureModes_swap (a b : IterationRecord) :
    computeFailureModes b a = (computeFailureModes a b).mirror := by
  unfold computeFailureModes FailureModesDiff.mirror
  dsimp only
  rw [mapValues_ofKeys _ _ (nodup_keysBoth _ _), keysBoth_swap]
  rfl

theorem computeRecommendation_swap (a b : IterationRecord) :
    computeRecommendation b a = (computeRecommendation a b).mirror := by
  unfold computeRecommendation
  cases a.metrics.map (·.primary) with
  | none => cases b.metrics.map (·.primary) <;> rfl
  | some p =>
    cases b.metrics.map (·.primary) with
    | none => rfl
    | some q =>
      dsimp only
      by_cases hname : p.name = q.name
      · have hneg : p.value - q.value = -(q.value - p.value) := (neg_sub _ _).symm
        simp only [hname, ne_eq, not_true_eq_false, if_false, hneg, abs_neg]
        generalize q.value - p.value = delta
        by_cases htie : |delta| < 1 / 10 ^ 9
        · simp only [if_pos htie]
          rfl
        · have hne : delta ≠ 0 := by
            rintro rfl
            norm_num at htie
          simp only [if_neg htie]
          obtain hlt | hgt := lt_or_gt_of_ne hne
          · simp only [if_neg hlt.not_gt, if_pos (neg_pos.mpr hlt)]
            rfl
          · simp only [if_pos hgt, if_neg (neg_lt_zero.mpr hgt).not_gt]
            rfl
      · simp only [ne_eq, hname, Ne.symm hname, not_false_eq_true, if_true]
        rfl

/-! ### Parameters -/

theorem keyed_of_leafAt {v w : Json} (hv : Keyed v) {ks : List String} (h : leafAt ks v = some w) :
    Keyed w := by
  induction ks generalizing v with
  | nil =>
    cases v with
    | obj fields => cases h
    | null | bool | int | float | str | arr => exact Option.some.inj h ▸ hv
  | cons k ks ih =>
    cases v with
    | obj fields =>
      obtain ⟨u, hu, hat⟩ := Option.bind_eq_some_iff.mp h
      exact ih (hv.field ((lookup_eq_some_iff hv.nodup).mp hu)) hat
    | null | bool | int | float | str | arr => cases h

theorem keyed_reading {params : Object} (h : Keyed (.obj params)) (name : String) :
    Keyed (reading (flatten params) name) := by
  rw [reading_flatten]
  cases hlast : lastLeaf params name with
  | none => exact .null
  | some v =>
    obtain ⟨ks, -, hleaf⟩ := exists_of_lastLeaf h hlast
    exact keyed_of_leafAt h hleaf

theorem computeProposalDiff_swap (f : Format) {a b : Object} (ha : Keyed (.obj a))
    (hb : Keyed (.obj b)) :
    computeProposalDiff f b a = (computeProposalDiff f a b).map mirrorParam := by
  unfold computeProposalDiff
  dsimp only
  rw [sortedSet_congr List.perm_append_comm, List.map_map]
  refine List.map_congr_left fun key _ => ?_
  rw [pyEq_comm (keyed_reading hb key) (keyed_reading ha key)]
  rfl

/-- **Exchanging the records mirrors the comparison.** -/
theorem computeCompare_mirror (f : Format) (isoformat : Time → String) {a b : IterationRecord}
    (ha : Keyed (.obj a.proposedParameters)) (hb : Keyed (.obj b.proposedParameters)) :
    computeCompare f isoformat b a = (computeCompare f isoformat a b).mirror := by
  unfold computeCompare CompareResult.mirror
  dsimp only
  rw [computeProposalDiff_swap f ha hb, computeFailureModes_swap a b, computeFunnelDiff_swap a b,
    computeRecommendation_swap a b]
  congr 1
  exact valueRows_swap _ _

/-! ### Two records -/

/-- A record with a metric, of some parameters. -/
def measured (value : ℚ) (parameters : Object) : IterationRecord :=
  { IterationRecord.minimal with
    iteration := 1
    proposedParameters := parameters
    metrics := some { primary := { name := "pass@1", value := value } } }

theorem mirror_measured : Keyed (.obj (measured (1 / 2) unset).proposedParameters) ∧
    computeCompare plain (fun _ => "now") (measured (1 / 2) unset) (measured (3 / 4) []) =
      (computeCompare plain (fun _ => "now") (measured (3 / 4) [])
        (measured (1 / 2) unset)).mirror := by
  have hunset : Keyed (.obj (measured (1 / 2) unset).proposedParameters) :=
    .obj (by decide) (by simpa [measured, unset] using Keyed.null)
  have hempty : Keyed (.obj (measured (3 / 4) []).proposedParameters) :=
    .obj (by decide) (by simp [measured])
  exact ⟨hunset, computeCompare_mirror plain _ hempty hunset⟩

end Selfevals.Reporter.Compare
