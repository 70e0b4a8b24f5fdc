import Mathlib.Data.String.Basic
import Selfevals.Lib.Mapping

/-!
# Confusion matrices

`confusionFromPairs` counts the `(expected, predicted)` pairs and derives accuracy, precision,
recall and F1 from the counts. Everything but the counts themselves is read off them through sums
over the cells, so a rearrangement of the pairs gives the `Same` report (`confusionFromPairs_same`).
-/

namespace Selfevals.Graders.Confusion

open Lib.Mapping

/-- `_safe_div`. -/
def safeDiv (num den : ℚ) : Option ℚ := if den = 0 then none else some (num / den)

/-- `f1_score`. -/
def f1Score : Option ℚ → Option ℚ → Option ℚ
  | some p, some r => if p + r = 0 then none else some (2 * p * r / (p + r))
  | _, _ => none

/-- The metrics of a confusion matrix. -/
structure ConfusionReport where
  nPairs : ℕ
  accuracy : ℚ
  macroF1 : Option ℚ
  labels : List String := []
  confusion : Dict (String × String) ℕ := .empty
  perLabelPrecision : Dict String (Option ℚ) := .empty
  perLabelRecall : Dict String (Option ℚ) := .empty
  perLabelF1 : Dict String (Option ℚ) := .empty

/-- The classes seen as expected or predicted, in order. -/
def observedLabels (confusion : Dict (String × String) ℕ) : List String :=
  sortedSet (confusion.keys.map Prod.fst ++ confusion.keys.map Prod.snd)

/-- `sum(c for (exp, pred), c in confusion.items() if …)`. -/
def sumCells (confusion : Dict (String × String) ℕ) (p : String × String → Bool) : ℕ :=
  ((confusion.items.filter fun item => p item.1).map Prod.snd).sum

/-- The pairs that have the label on both sides. -/
def truePositives (confusion : Dict (String × String) ℕ) (label : String) : ℕ :=
  (confusion.get? (label, label)).getD 0

/-- `precision`, of a class. -/
def precisionOf (confusion : Dict (String × String) ℕ) (label : String) : Option ℚ :=
  safeDiv (truePositives confusion label) (sumCells confusion fun cell => cell.2 == label)

/-- `recall`, of a class. -/
def recallOf (confusion : Dict (String × String) ℕ) (label : String) : Option ℚ :=
  safeDiv (truePositives confusion label) (sumCells confusion fun cell => cell.1 == label)

/-- The F1 of a class. -/
def f1Of (confusion : Dict (String × String) ℕ) (label : String) : Option ℚ :=
  f1Score (precisionOf confusion label) (recallOf confusion label)

/-- `confusion_from_pairs`. -/
def confusionFromPairs (pairs : List (String × String)) : ConfusionReport :=
  let confusion := Dict.count pairs
  let correct := pairs.countP fun pair => pair.1 == pair.2
  let n := pairs.length
  if n = 0 then { nPairs := 0, accuracy := 0, macroF1 := none }
  else
    let labels := observedLabels confusion
    let f1Values := labels.filterMap (f1Of confusion)
    { nPairs := n
      accuracy := correct / n
      macroF1 := if f1Values = [] then none else some (f1Values.sum / f1Values.length)
      labels
      confusion
      perLabelPrecision := .ofKeys (precisionOf confusion) labels
      perLabelRecall := .ofKeys (recallOf confusion) labels
      perLabelF1 := .ofKeys (f1Of confusion) labels }

/-! ### Rearranged pairs -/

/-- Equal reports, the cells compared as a map; the labels are sorted, so all else is equal
outright. -/
structure ConfusionReport.Same (r r' : ConfusionReport) : Prop where
  nPairs : r.nPairs = r'.nPairs
  accuracy : r.accuracy = r'.accuracy
  macroF1 : r.macroF1 = r'.macroF1
  labels : r.labels = r'.labels
  confusion : r.confusion.Same r'.confusion
  perLabelPrecision : r.perLabelPrecision.Same r'.perLabelPrecision
  perLabelRecall : r.perLabelRecall.Same r'.perLabelRecall
  perLabelF1 : r.perLabelF1.Same r'.perLabelF1

section Same
variable {c c' : Dict (String × String) ℕ}

theorem observedLabels_congr (h : c.Same c') : observedLabels c = observedLabels c' :=
  sortedSet_congr ((h.perm_keys.map _).append (h.perm_keys.map _))

theorem sumCells_congr (h : c.Same c') (p : String × String → Bool) :
    sumCells c p = sumCells c' p :=
  ((h.perm_items.filter _).map _).sum_eq

theorem truePositives_congr (h : c.Same c') : truePositives c = truePositives c' := by
  funext label
  rw [truePositives, truePositives, h]

theorem precisionOf_congr (h : c.Same c') : precisionOf c = precisionOf c' := by
  funext label
  rw [precisionOf, precisionOf, truePositives_congr h, sumCells_congr h]

theorem recallOf_congr (h : c.Same c') : recallOf c = recallOf c' := by
  funext label
  rw [recallOf, recallOf, truePositives_congr h, sumCells_congr h]

theorem f1Of_congr (h : c.Same c') : f1Of c = f1Of c' := by
  funext label
  rw [f1Of, f1Of, precisionOf_congr h, recallOf_congr h]

end Same

/-- **The order of the pairs does not show in the report.** -/
theorem confusionFromPairs_same {pairs pairs' : List (String × String)} (h : pairs.Perm pairs') :
    (confusionFromPairs pairs).Same (confusionFromPairs pairs') := by
  have hcells : (Dict.count pairs).Same (Dict.count pairs') := Dict.count_same h
  have hlen : pairs.length = pairs'.length := h.length_eq
  have hcorrect : (pairs.countP fun pair => pair.1 == pair.2) =
      pairs'.countP fun pair => pair.1 == pair.2 := h.countP_eq _
  have hlabels := observedLabels_congr hcells
  unfold confusionFromPairs
  dsimp only
  rw [hlen]
  by_cases hn : pairs'.length = 0
  · rw [if_pos hn, if_pos hn]
    exact ⟨rfl, rfl, rfl, rfl, .refl _, .refl _, .refl _, .refl _⟩
  · rw [if_neg hn, if_neg hn, hcorrect, hlabels, precisionOf_congr hcells, recallOf_congr hcells,
      f1Of_congr hcells]
    exact ⟨rfl, rfl, rfl, rfl, hcells, .refl _, .refl _, .refl _⟩

end Selfevals.Graders.Confusion
