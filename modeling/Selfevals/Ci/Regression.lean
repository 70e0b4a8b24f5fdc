import Selfevals.Graders.Confusion

/-!
# The regression gate

`evaluateRegression` compares the headline numbers of a run with those of the baseline of its
dataset. A class is compared by its F1 when both runs have one (`reports_iff`), and
`confusionFromPairs` gives a class without a true positive none, so the gate takes a class that
collapsed for one that vanished (`collapse_unreported`).
-/

namespace Selfevals.Ci.Regression

open Lib.Mapping Graders.Confusion

/-- How much worse the current run may get before the gate fails, in metric units. -/
structure RegressionThresholds where
  primaryDrop : ℚ := 0
  perClassF1Drop : ℚ := 1 / 20
  errorRateRise : ℚ := 0
  tolerance : ℚ := 1 / 10 ^ 9

/-- What one side of the comparison is read for. -/
structure BaselineMetrics where
  primaryMetric : String
  primaryValue : ℚ
  errorRate : ℚ := 0
  perClassF1 : Dict String ℚ := .empty

/-- `BaselineMetrics.from_confusion`: of a report only the F1 values that are there are kept. -/
def BaselineMetrics.fromConfusion (primaryMetric : String) (primaryValue errorRate : ℚ)
    (confusion : Option ConfusionReport) : BaselineMetrics where
  primaryMetric
  primaryValue
  errorRate
  perClassF1 :=
    match confusion with
    | none => .empty
    | some report => report.perLabelF1.filterMap fun _ value => value

/-- One line of the verdict; what did not regress is only information. -/
structure RegressionFinding where
  signal : String
  baseline : Option ℚ
  current : Option ℚ
  delta : Option ℚ
  regressed : Bool
  detail : String

/-- What the gate finds. -/
structure RegressionResult where
  regressed : Bool
  findings : List RegressionFinding

/-- The findings that regressed. -/
def RegressionResult.regressions (result : RegressionResult) : List RegressionFinding :=
  result.findings.filter (·.regressed)

def RegressionResult.summary (result : RegressionResult) : String :=
  if !result.regressed then "no regression"
  else
    let n := result.regressions.length
    "REGRESSION: " ++ toString n ++ " signal" ++ (if n ≠ 1 then "s" else "") ++ " got worse"

/-- How Python prints the values in a detail: `:.4g`, `:+.4g` and `!r`. -/
structure Formats where
  general : ℚ → String
  signed : ℚ → String
  repr : String → String

section Gate
variable (fmt : Formats) (baseline current : BaselineMetrics) (th : RegressionThresholds)

/-- The finding about the primary metric. -/
def primaryFinding : RegressionFinding :=
  let delta := current.primaryValue - baseline.primaryValue
  -- a metric of another name is not comparable, which fails the gate
  if current.primaryMetric ≠ baseline.primaryMetric then
    { signal := "primary"
      baseline := some baseline.primaryValue
      current := some current.primaryValue
      delta := none
      regressed := true
      detail := "primary metric changed: baseline measured " ++ fmt.repr baseline.primaryMetric ++
        ", current measures " ++ fmt.repr current.primaryMetric ++ " — not comparable" }
  else
    { signal := "primary"
      baseline := some baseline.primaryValue
      current := some current.primaryValue
      delta := some delta
      regressed := decide (delta < -(th.primaryDrop + th.tolerance))
      detail := baseline.primaryMetric ++ " " ++ fmt.general baseline.primaryValue ++ " -> " ++
        fmt.general current.primaryValue ++ " (" ++ fmt.signed delta ++ ")" }

/-- The finding about the error rate. -/
def errorRateFinding : RegressionFinding :=
  let delta := current.errorRate - baseline.errorRate
  { signal := "error_rate"
    baseline := some baseline.errorRate
    current := some current.errorRate
    delta := some delta
    regressed := decide (delta > th.errorRateRise + th.tolerance)
    detail := "error_rate " ++ fmt.general baseline.errorRate ++ " -> " ++
      fmt.general current.errorRate ++ " (" ++ fmt.signed delta ++ ")" }

/-- The signal of a class. -/
def f1Signal (label : String) : String := "f1[" ++ label ++ "]"

/-- The finding of a class with F1 `b` in the baseline and `c` in the current run. -/
def f1Finding (label : String) (b c : Option ℚ) : RegressionFinding :=
  match b, c with
  | some b, some c =>
    let delta := c - b
    { signal := f1Signal label
      baseline := some b
      current := some c
      delta := some delta
      regressed := decide (delta < -(th.perClassF1Drop + th.tolerance))
      detail := "F1[" ++ label ++ "] " ++ fmt.general b ++ " -> " ++ fmt.general c ++ " (" ++
        fmt.signed delta ++ ")" }
  | b, c =>
    { signal := f1Signal label
      baseline := b
      current := c
      delta := none
      regressed := false
      detail := "class " ++ fmt.repr label ++ " " ++
        (if b.isNone then "appeared" else "vanished") ++ " between baseline and current" }

/-- The labels of either side, in the order they are compared. -/
def comparedLabels : List String :=
  sortedSet (baseline.perClassF1.keys ++ current.perClassF1.keys)

/-- The findings about the classes. -/
def f1Findings : List RegressionFinding :=
  (comparedLabels baseline current).map fun label =>
    f1Finding fmt th label (baseline.perClassF1.get? label) (current.perClassF1.get? label)

/-- `evaluate_regression`. -/
def evaluateRegression (thresholds : Option RegressionThresholds) : RegressionResult :=
  let th := thresholds.getD {}
  let findings :=
    primaryFinding fmt baseline current th :: errorRateFinding fmt baseline current th ::
    f1Findings fmt baseline current th
  { regressed := findings.any (·.regressed), findings }

end Gate

/-- The gate fails on the F1 of a class. -/
def RegressionResult.Reports (result : RegressionResult) (label : String) : Prop :=
  ∃ finding ∈ result.findings, finding.signal = f1Signal label ∧ finding.regressed = true

/-! ### What the gate reports -/

theorem f1Signal_injective : Function.Injective f1Signal := by
  intro label label' h
  have hleft : "f1[" ++ label = "f1[" ++ label' := by simpa [f1Signal] using h
  simpa using hleft

theorem f1Signal_ne_primary (label : String) : f1Signal label ≠ "primary" := by
  intro h
  have hdata := congrArg String.toList h
  simp [f1Signal] at hdata

theorem f1Signal_ne_errorRate (label : String) : f1Signal label ≠ "error_rate" := by
  intro h
  have hdata := congrArg String.toList h
  simp [f1Signal] at hdata

section Reports
variable {fmt : Formats} {baseline current : BaselineMetrics} {th : RegressionThresholds}
  {label : String}

@[simp] theorem primaryFinding_signal :
  (primaryFinding fmt baseline current th).signal = "primary" := by
  unfold primaryFinding
  split_ifs <;> rfl

@[simp] theorem f1Finding_signal (b c : Option ℚ) :
  (f1Finding fmt th label b c).signal = f1Signal label := by
  unfold f1Finding
  split <;> rfl

theorem f1Finding_regressed_iff {b c : Option ℚ} : (f1Finding fmt th label b c).regressed = true ↔
    ∃ x ∈ b, ∃ y ∈ c, y - x < -(th.perClassF1Drop + th.tolerance) := by
  cases b <;> cases c <;> simp [f1Finding]

theorem mem_comparedLabels_of_get? {v : ℚ} (h : baseline.perClassF1.get? label = some v) :
    label ∈ comparedLabels baseline current := by
  have hkey : label ∈ baseline.perClassF1.keys := (Dict.mem_keys_iff _ _).mpr (by rw [h]; rfl)
  exact mem_sortedSet.mpr (List.mem_append_left _ hkey)

/-- **A class is reported** if and only if both runs have its F1 and it fell by more than the
threshold and the tolerance. -/
theorem reports_iff {thresholds : Option RegressionThresholds} :
    (evaluateRegression fmt baseline current thresholds).Reports label ↔
      ∃ b ∈ baseline.perClassF1.get? label, ∃ c ∈ current.perClassF1.get? label,
        c - b < -((thresholds.getD {}).perClassF1Drop + (thresholds.getD {}).tolerance) := by
  constructor
  · rintro ⟨finding, hmem, hsignal, hregressed⟩
    rcases List.mem_cons.mp hmem with rfl | hmem
    · exact absurd (hsignal.symm.trans primaryFinding_signal) (f1Signal_ne_primary label)
    rcases List.mem_cons.mp hmem with rfl | hmem
    · exact absurd hsignal.symm (f1Signal_ne_errorRate label)
    obtain ⟨label', -, rfl⟩ := List.mem_map.mp hmem
    rw [f1Finding_signal] at hsignal
    obtain rfl := f1Signal_injective hsignal
    exact f1Finding_regressed_iff.mp hregressed
  · rintro ⟨b, hb, c, hc, hlt⟩
    refine ⟨_, List.mem_cons_of_mem _ (List.mem_cons_of_mem _
      (List.mem_map_of_mem (mem_comparedLabels_of_get? hb))), f1Finding_signal _ _, ?_⟩
    exact f1Finding_regressed_iff.mpr ⟨b, hb, c, hc, hlt⟩

theorem regressed_iff {thresholds : Option RegressionThresholds} :
    (evaluateRegression fmt baseline current thresholds).regressed = true ↔
      (evaluateRegression fmt baseline current thresholds).regressions ≠ [] := by
  rw [RegressionResult.regressions, Ne, List.filter_eq_nil_iff, evaluateRegression]
  simp only [List.any_eq_true, not_forall, not_not, exists_prop]

end Reports

/-! ### A class that collapsed -/

/-- The metrics of a run, from the pairs of its confusion matrix. -/
def metricsOf (primaryMetric : String) (primaryValue errorRate : ℚ)
    (pairs : List (String × String)) : BaselineMetrics :=
  .fromConfusion primaryMetric primaryValue errorRate (some (confusionFromPairs pairs))

/-- A class with an F1 above `d` in the baseline that still occurs in the current run, expected and
predicted, but never both at once. -/
structure Collapses (baseline current : List (String × String)) (d : ℚ) (label : String) :
  Prop where
  above : ∃ b, (confusionFromPairs baseline).perLabelF1.get? label = some (some b) ∧ d < b
  actual : label ∈ current.map Prod.fst
  predicted : label ∈ current.map Prod.snd
  missed : (label, label) ∉ current

theorem truePositives_of_not_mem {pairs : List (String × String)} {label : String}
    (h : (label, label) ∉ pairs) : truePositives (Dict.count pairs) label = 0 := by
  rw [truePositives, Dict.get?_count, if_neg h]
  rfl

theorem f1Of_of_truePositives {confusion : Dict (String × String) ℕ} {label : String}
    (h : truePositives confusion label = 0) : f1Of confusion label = none := by
  have hdiv : ∀ den : ℚ, safeDiv (0 : ℚ) den = none ∨ safeDiv (0 : ℚ) den = some 0 := by
    intro den
    unfold safeDiv
    split_ifs <;> simp
  rw [f1Of, precisionOf, recallOf, h, Nat.cast_zero]
  rcases hdiv (sumCells confusion fun cell => cell.2 == label) with hp | hp
  · rw [hp]; rfl
  rcases hdiv (sumCells confusion fun cell => cell.1 == label) with hr | hr
  · rw [hp, hr]; rfl
  · rw [hp, hr]; simp [f1Score]

theorem perLabelF1_of_not_mem {pairs : List (String × String)} {label : String}
    (h : (label, label) ∉ pairs) (b : ℚ) :
    (confusionFromPairs pairs).perLabelF1.get? label ≠ some (some b) := by
  have hf1 : f1Of (Dict.count pairs) label = none :=
    f1Of_of_truePositives (truePositives_of_not_mem h)
  unfold confusionFromPairs
  dsimp only
  by_cases hn : pairs.length = 0
  · rw [if_pos hn]
    simp
  · rw [if_neg hn, Dict.get?_ofKeys, hf1]
    split_ifs <;> simp

theorem perClassF1_of_not_mem {pairs : List (String × String)} {label : String}
    (h : (label, label) ∉ pairs) (m : String) (v e : ℚ) :
    (metricsOf m v e pairs).perClassF1.get? label = none := by
  refine Option.eq_none_iff_forall_ne_some.mpr fun b hb => ?_
  rw [metricsOf, BaselineMetrics.fromConfusion, Dict.get?_filterMap] at hb
  obtain ⟨value, hvalue, rfl⟩ := Option.bind_eq_some_iff.mp hb
  exact perLabelF1_of_not_mem h b hvalue

/-- **A collapse is never reported**, whatever the thresholds and the other metrics. -/
theorem collapse_unreported (fmt : Formats) (baseline current : List (String × String))
    (label : String) (th : RegressionThresholds) (m m' : String) (v v' e e' : ℚ)
    (h : Collapses baseline current th.perClassF1Drop label) :
    ¬ (evaluateRegression fmt (metricsOf m v e baseline) (metricsOf m' v' e' current)
      (some th)).Reports label := by
  intro hreports
  obtain ⟨b, -, c, hc, -⟩ := reports_iff.mp hreports
  rw [perClassF1_of_not_mem h.missed] at hc
  cases hc

theorem collapses_swapped : Collapses [("a", "a")] [("a", "b"), ("b", "a")] (1 / 20) "a" := by
  refine ⟨⟨1, ?_, by norm_num⟩, by decide, by decide, by decide⟩
  have hlabel : "a" ∈ observedLabels (Dict.count [("a", "a")]) := by decide
  have hf1 : f1Of (Dict.count [("a", "a")]) "a" = some 1 := by decide +kernel
  show (Dict.ofKeys (f1Of (Dict.count [("a", "a")]))
    (observedLabels (Dict.count [("a", "a")]))).get? "a" = some (some 1)
  rw [Dict.get?_ofKeys, if_pos hlabel, hf1]

/-- Formats that print nothing. -/
def blank : Formats := ⟨fun _ => "", fun _ => "", fun _ => ""⟩

theorem collapse_unreported_swapped :
    ¬ (evaluateRegression blank (metricsOf "pass@1" 1 0 [("a", "a")])
      (metricsOf "pass@1" 0 0 [("a", "b"), ("b", "a")]) (some {})).Reports "a" :=
  collapse_unreported blank _ _ "a" {} _ _ _ _ _ _ collapses_swapped

/-- A class may collapse and the gate hold. -/
theorem not_collapse_reported : ¬ ∀ (fmt : Formats) (baseline current : List (String × String))
    (d : ℚ) (label : String) (m : String) (v v' e e' : ℚ),
      0 ≤ d → Collapses baseline current d label →
      (evaluateRegression fmt (metricsOf m v e baseline) (metricsOf m v' e' current)
        (some { perClassF1Drop := d })).Reports label := by
  intro h
  have hreports := h blank [("a", "a")] [("a", "b"), ("b", "a")] (1 / 20) "a" "pass@1" 1 0 0 0
    (by norm_num) collapses_swapped
  obtain ⟨b, -, c, hc, -⟩ := reports_iff.mp hreports
  rw [perClassF1_of_not_mem collapses_swapped.missed] at hc
  cases hc

end Selfevals.Ci.Regression
