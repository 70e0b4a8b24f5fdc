import Mathlib.Tactic.Positivity
import Selfevals.Graders.Confusion

/-!
# What a confusion report says of its pairs

The rates of a class are counted over the pairs here: how often the class was predicted, how often
it was the actual one, and how often both. The harmonic mean of two rates that are zero is zero; the
code gives such a class none, and so leaves it out of the average.

* `sumCells_count`: what the cells of a kind add up to.
-/

namespace Selfevals.Graders.ConfusionLaws

open Lib.Mapping Graders.Confusion

/-! ### The definitions, over the pairs -/

section Rates
variable (pairs : List (String × String)) (label : String)

/-- The pairs that have the label on both sides. -/
def hits : ℕ := pairs.count (label, label)

/-- The pairs for which the label was predicted. -/
def predicted : ℕ := pairs.countP fun pair => pair.2 == label

/-- The pairs for which the label was expected. -/
def actual : ℕ := pairs.countP fun pair => pair.1 == label

/-- A part of a total; nothing is said of an empty total. -/
def rate (part total : ℕ) : Option ℚ := if total = 0 then none else some (part / total)

/-- Precision, as a share of the predictions. -/
def precisionRate : Option ℚ := rate (hits pairs label) (predicted pairs label)

/-- Recall, as a share of the expectations. -/
def recallRate : Option ℚ := rate (hits pairs label) (actual pairs label)

/-- The harmonic mean of two rates, both known; that of zeros is zero. -/
def harmonic : Option ℚ → Option ℚ → Option ℚ
  | some p, some r => some (if p + r = 0 then 0 else 2 * p * r / (p + r))
  | _, _ => none

/-- The harmonic mean of the two. -/
def f1Rate : Option ℚ := harmonic (precisionRate pairs label) (recallRate pairs label)

def mean (xs : List ℚ) : Option ℚ := if xs = [] then none else some (xs.sum / xs.length)

end Rates

/-- The report of the pairs keeps to its definitions. Of no pairs the accuracy is zero, as `0 / 0`
is here. -/
structure Lawful (pairs : List (String × String)) : Prop where
  total : (confusionFromPairs pairs).confusion.values.sum = pairs.length
  accuracy : (confusionFromPairs pairs).accuracy =
    (sumCells (confusionFromPairs pairs).confusion fun cell => cell.1 == cell.2 : ℚ) /
      (confusionFromPairs pairs).confusion.values.sum
  precision : ∀ label, label ∈ pairs.map Prod.fst ∨ label ∈ pairs.map Prod.snd →
    (confusionFromPairs pairs).perLabelPrecision.get? label = some (precisionRate pairs label)
  recalled : ∀ label, label ∈ pairs.map Prod.fst ∨ label ∈ pairs.map Prod.snd →
    (confusionFromPairs pairs).perLabelRecall.get? label = some (recallRate pairs label)
  f1 : ∀ label, label ∈ pairs.map Prod.fst ∨ label ∈ pairs.map Prod.snd →
    (confusionFromPairs pairs).perLabelF1.get? label = some (f1Rate pairs label)
  macroF1 : (confusionFromPairs pairs).macroF1 =
    mean ((confusionFromPairs pairs).perLabelF1.values.filterMap id)
  order : ∀ pairs', pairs'.Perm pairs →
    (confusionFromPairs pairs').Same (confusionFromPairs pairs)

/-- A class that was predicted, and was the actual one, but never both at once. -/
structure Missed (pairs : List (String × String)) (label : String) : Prop where
  actual : label ∈ pairs.map Prod.fst
  predicted : label ∈ pairs.map Prod.snd
  never : (label, label) ∉ pairs

/-! ### The counts -/

theorem sum_items_count {κ : Type} [DecidableEq κ] (ks : List κ) (p : κ → Bool) :
    (((Dict.count ks).items.filter fun item => p item.1).map Prod.snd).sum = ks.countP p := by
  have hsame : ((Dict.count ks).filterMap fun k n => if p k then some n else none).Same
      (Dict.count (ks.filter p)) := by
    intro k
    rw [Dict.get?_filterMap, Dict.get?_count, Dict.get?_count]
    by_cases hp : p k = true
    · rw [List.count_filter hp]
      by_cases hmem : k ∈ ks <;> simp [hmem, hp]
    · simp [hp]
  have hvalues : ((Dict.count ks).filterMap fun k n => if p k then some n else none).values =
      ((Dict.count ks).items.filter fun item => p item.1).map Prod.snd := by
    show ((Dict.count ks).items.filterMap _).map Prod.snd = _
    rw [List.map_filterMap, ← List.filterMap_eq_map, ← List.filterMap_eq_filter,
      List.filterMap_filterMap]
    refine List.filterMap_congr fun item _ => ?_
    by_cases hp : p item.1 = true <;> simp [hp, Option.guard]
  rw [List.countP_eq_length_filter, ← Dict.sum_values_count, ← hvalues]
  exact (hsame.perm_items.map Prod.snd).sum_eq

section Counts
variable (pairs : List (String × String)) (label : String)

theorem sumCells_count (p : String × String → Bool) :
    sumCells (Dict.count pairs) p = pairs.countP p := sum_items_count pairs p

theorem truePositives_count : truePositives (Dict.count pairs) label = hits pairs label := by
  rw [truePositives, Dict.get?_count, hits]
  split_ifs with hmem
  · rw [Option.getD_some]
    exact List.countP_congr fun pair _ => by simp
  · exact (List.count_eq_zero.mpr hmem).symm

theorem safeDiv_cast (part total : ℕ) : safeDiv part total = rate part total := by
  by_cases htotal : total = 0 <;> simp [safeDiv, rate, htotal]

theorem precisionOf_count : precisionOf (Dict.count pairs) label = precisionRate pairs label := by
  rw [precisionOf, truePositives_count, sumCells_count, safeDiv_cast]
  rfl

theorem recallOf_count : recallOf (Dict.count pairs) label = recallRate pairs label := by
  rw [recallOf, truePositives_count, sumCells_count, safeDiv_cast]
  rfl

theorem predicted_ne_zero : predicted pairs label ≠ 0 ↔ label ∈ pairs.map Prod.snd := by
  rw [← Nat.pos_iff_ne_zero, predicted, List.countP_pos_iff, List.mem_map]
  simp

theorem actual_ne_zero : actual pairs label ≠ 0 ↔ label ∈ pairs.map Prod.fst := by
  rw [← Nat.pos_iff_ne_zero, actual, List.countP_pos_iff, List.mem_map]
  simp

end Counts

/-! ### F1 -/

theorem f1Score_eq_iff {p r : Option ℚ} :
    f1Score p r = harmonic p r ↔ ∀ a ∈ p, ∀ b ∈ r, a + b ≠ 0 := by
  cases p with
  | none => simp [f1Score, harmonic]
  | some a =>
    cases r with
    | none => simp [f1Score, harmonic]
    | some b =>
      by_cases hab : a + b = 0 <;> simp [f1Score, harmonic, hab]

theorem rates_zero_iff {part total total' : ℕ} (htotal : total ≠ 0) (htotal' : total' ≠ 0) :
    (part / total : ℚ) + part / total' = 0 ↔ part = 0 := by
  have hpos : (0 : ℚ) < total := by exact_mod_cast Nat.pos_of_ne_zero htotal
  have hpos' : (0 : ℚ) < total' := by exact_mod_cast Nat.pos_of_ne_zero htotal'
  constructor
  · intro h
    by_contra hne
    have hpart : (0 : ℚ) < part := by exact_mod_cast Nat.pos_of_ne_zero hne
    have hsum : (0 : ℚ) < part / total + part / total' := by positivity
    exact hsum.ne' h
  · rintro rfl
    simp

/-- **The F1 of a class** is what it should be, but for a class that was missed. -/
theorem f1Of_eq_iff (pairs : List (String × String)) (label : String) :
    f1Of (Dict.count pairs) label = f1Rate pairs label ↔ ¬ Missed pairs label := by
  rw [f1Of, precisionOf_count, recallOf_count, f1Rate, f1Score_eq_iff]
  unfold precisionRate recallRate rate
  have hmissed : Missed pairs label ↔
      actual pairs label ≠ 0 ∧ predicted pairs label ≠ 0 ∧ hits pairs label = 0 := by
    rw [actual_ne_zero, predicted_ne_zero, hits, List.count_eq_zero]
    exact ⟨fun h => ⟨h.actual, h.predicted, h.never⟩, fun h => ⟨h.1, h.2.1, h.2.2⟩⟩
  rw [hmissed]
  by_cases hpredicted : predicted pairs label = 0
  · simp [hpredicted]
  by_cases hactual : actual pairs label = 0
  · simp [hactual]
  rw [if_neg hpredicted, if_neg hactual]
  simp only [Option.mem_def, Option.some.injEq, forall_eq', ne_eq, hactual, hpredicted,
    not_false_eq_true, true_and]
  exact not_congr (rates_zero_iff hpredicted hactual)

/-! ### The report -/

theorem values_ofKeys {α : Type} (f : String → α) {labels : List String} (h : labels.Nodup) :
    (Dict.ofKeys f labels).values = labels.map f := by
  have hfst : (labels.map fun label => (label, f label)).map Prod.fst = labels := by
    rw [List.map_map]
    exact List.map_id labels
  have hofItems : Dict.ofKeys f labels =
      Dict.ofItems (labels.map fun label => (label, f label)) := by
    unfold Dict.ofKeys Dict.ofItems
    rw [List.foldl_map]
  have hitems := congrArg Dict.items
    (Dict.ofItems_items ⟨labels.map fun label => (label, f label), by rw [hfst]; exact h⟩)
  rw [hofItems, Dict.values, hitems, List.map_map]
  rfl

theorem nodup_observedLabels (confusion : Dict (String × String) ℕ) :
    (observedLabels confusion).Nodup :=
  (sorted_perm _).nodup_iff.mpr (List.nodup_dedup _)

theorem mem_observedLabels (pairs : List (String × String)) (label : String) :
    label ∈ observedLabels (Dict.count pairs) ↔
      label ∈ pairs.map Prod.fst ∨ label ∈ pairs.map Prod.snd := by
  have hkeys : ∀ pair, pair ∈ (Dict.count pairs).keys ↔ pair ∈ pairs := by
    intro pair
    rw [Dict.mem_keys_iff, Dict.get?_count]
    split_ifs with hmem <;> simp [hmem]
  rw [observedLabels, mem_sortedSet, List.mem_append, List.mem_map, List.mem_map, List.mem_map,
    List.mem_map]
  simp only [hkeys]

theorem confusionFromPairs_nil :
    confusionFromPairs [] = { nPairs := 0, accuracy := 0, macroF1 := none } := rfl

/-- **A report keeps to its definitions** exactly when no class was missed. -/
theorem confusion_lawful_iff (pairs : List (String × String)) :
    Lawful pairs ↔ ∀ label, ¬ Missed pairs label := by
  by_cases hpairs : pairs = []
  · subst hpairs
    refine iff_of_true ⟨rfl, by simp [confusionFromPairs_nil, Dict.empty, Dict.values], by simp,
      by simp, by simp, rfl, ?_⟩
      fun label h => by simpa using h.actual
    intro pairs' h
    exact confusionFromPairs_same h
  have hn : pairs.length ≠ 0 := mt List.length_eq_zero_iff.mp hpairs
  have hlabel := mem_observedLabels pairs
  have hreport : confusionFromPairs pairs = _ := if_neg hn
  have hdict : ∀ f : String → Option ℚ, ∀ label,
      label ∈ pairs.map Prod.fst ∨ label ∈ pairs.map Prod.snd →
        (Dict.ofKeys f (observedLabels (Dict.count pairs))).get? label = some (f label) := by
    intro f label h
    rw [Dict.get?_ofKeys, if_pos ((hlabel label).mpr h)]
  constructor
  · intro h label hmissed
    have hf1 := h.f1 label (Or.inl hmissed.actual)
    rw [hreport] at hf1
    have hf1Of := hdict (f1Of (Dict.count pairs)) label (Or.inl hmissed.actual)
    exact (f1Of_eq_iff pairs label).mp (Option.some.inj (hf1Of.symm.trans hf1)) hmissed
  · intro h
    have hf1Of : f1Of (Dict.count pairs) = f1Rate pairs :=
      funext fun label => (f1Of_eq_iff pairs label).mpr (h label)
    refine ⟨?_, ?_, fun label hmem => ?_, fun label hmem => ?_, fun label hmem => ?_, ?_, ?_⟩
    · rw [hreport]
      exact Dict.sum_values_count pairs
    · rw [hreport]
      dsimp only
      rw [sumCells_count, Dict.sum_values_count]
    · rw [hreport, ← precisionOf_count]
      exact hdict _ label hmem
    · rw [hreport, ← recallOf_count]
      exact hdict _ label hmem
    · rw [hreport, ← hf1Of]
      exact hdict _ label hmem
    · rw [hreport]
      dsimp only
      rw [values_ofKeys _ (nodup_observedLabels _), List.filterMap_map]
      rfl
    · exact fun pairs' hperm => confusionFromPairs_same hperm

/-- A class that is taken for another, and another for it, has a precision and a recall of zero. -/
theorem not_confusion_lawful : ¬ Lawful [("refund", "order"), ("order", "refund")] := by
  intro h
  have hf1 := h.f1 "refund" (by simp)
  exact absurd hf1 (by decide +kernel)

end Selfevals.Graders.ConfusionLaws
