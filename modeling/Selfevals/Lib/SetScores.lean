import Mathlib.Tactic

/-!
# Scores of one set against another

`coverage D E` is the share of `E` that lies in `D`, all of it if `E` is empty: the recall of what
was detected against what was expected, and, the other way round, its precision. `f1` is their
harmonic mean, zero where both are.

* `f1_le_insert`, `f1_insert_le`: what an element more does to it.
-/

namespace Selfevals.Lib.SetScores

variable {α : Type*} [DecidableEq α]

/-- The share of the second set that the first one covers. -/
def coverage (D E : Finset α) : ℚ := if E = ∅ then 1 else (D ∩ E).card / E.card

/-- The harmonic mean of precision and recall. -/
def f1 (D E : Finset α) : ℚ :=
  let p := coverage E D
  let r := coverage D E
  if 0 < p + r then 2 * p * r / (p + r) else 0

variable {D E : Finset α} {x : α}

omit [DecidableEq α] in
theorem card_pos_of_ne {E : Finset α} (h : E ≠ ∅) : (0 : ℚ) < E.card :=
  Nat.cast_pos.mpr (Finset.card_pos.mpr (Finset.nonempty_iff_ne_empty.mpr h))

theorem coverage_empty (D : Finset α) : coverage D ∅ = 1 := if_pos rfl

theorem coverage_of_ne (D : Finset α) (h : E ≠ ∅) : coverage D E = (D ∩ E).card / E.card := if_neg h

theorem coverage_mem (D E : Finset α) : 0 ≤ coverage D E ∧ coverage D E ≤ 1 := by
  by_cases h : E = ∅
  · rw [h, coverage_empty]
    exact ⟨zero_le_one, le_rfl⟩
  · have hle : ((D ∩ E).card : ℚ) ≤ E.card := by
      exact_mod_cast Finset.card_le_card Finset.inter_subset_right
    rw [coverage_of_ne D h]
    exact ⟨by positivity, (div_le_one (card_pos_of_ne h)).mpr hle⟩

/-- **The harmonic mean** of precision and recall. -/
theorem f1_eq (D E : Finset α) : f1 D E =
    if D = ∅ ∧ E = ∅ then 1 else (2 * (D ∩ E).card / (D.card + E.card) : ℚ) := by
  by_cases hboth : D = ∅ ∧ E = ∅
  · rw [if_pos hboth, hboth.1, hboth.2]
    unfold f1
    rw [coverage_empty]
    norm_num
  rw [if_neg hboth]
  unfold f1
  by_cases hD : D = ∅
  · have hE : E ≠ ∅ := fun h => hboth ⟨hD, h⟩
    rw [hD, coverage_empty, coverage_of_ne _ hE]
    simp
  by_cases hE : E = ∅
  · rw [hE, coverage_empty, coverage_of_ne _ hD]
    simp
  have hdpos := card_pos_of_ne hD
  have hepos := card_pos_of_ne hE
  rw [coverage_of_ne _ hD, coverage_of_ne _ hE, Finset.inter_comm E D]
  by_cases hinter : (D ∩ E).card = 0
  · rw [hinter]
    simp
  · have hipos : (0 : ℚ) < (D ∩ E).card := Nat.cast_pos.mpr (Nat.pos_of_ne_zero hinter)
    dsimp only
    rw [if_pos (by positivity)]
    field_simp
    ring

theorem f1_mem (D E : Finset α) : 0 ≤ f1 D E ∧ f1 D E ≤ 1 := by
  rw [f1_eq]
  split_ifs with h
  · exact ⟨zero_le_one, le_rfl⟩
  · have hD : ((D ∩ E).card : ℚ) ≤ D.card := by
      exact_mod_cast Finset.card_le_card Finset.inter_subset_left
    have hE : ((D ∩ E).card : ℚ) ≤ E.card := by
      exact_mod_cast Finset.card_le_card Finset.inter_subset_right
    exact ⟨by positivity, div_le_one_of_le₀ (by linarith) (by positivity)⟩

/-! ### An element that was expected -/

section Expected
variable (hx : x ∈ E) (hnew : x ∉ D)
include hx hnew

theorem card_insert_inter : (insert x D ∩ E).card = (D ∩ E).card + 1 := by
  rw [Finset.insert_inter_of_mem hx, Finset.card_insert_of_notMem fun h =>
    hnew (Finset.mem_inter.mp h).1]

theorem coverage_le_insert : coverage D E ≤ coverage (insert x D) E := by
  have hE : E ≠ ∅ := Finset.ne_empty_of_mem hx
  rw [coverage_of_ne _ hE, coverage_of_ne _ hE, card_insert_inter hx hnew]
  have hle : ((D ∩ E).card : ℚ) ≤ ((D ∩ E).card + 1 : ℕ) := by
    push_cast
    linarith
  exact div_le_div_of_nonneg_right hle (Nat.cast_nonneg _)

theorem precision_le_insert : coverage E D ≤ coverage E (insert x D) := by
  rw [coverage_of_ne _ (Finset.insert_ne_empty x D), Finset.inter_comm, card_insert_inter hx hnew,
    Finset.card_insert_of_notMem hnew]
  by_cases hD : D = ∅
  · rw [hD, coverage_empty]
    simp
  · have hdpos := card_pos_of_ne hD
    have hle : ((D ∩ E).card : ℚ) ≤ D.card := by
      exact_mod_cast Finset.card_le_card Finset.inter_subset_left
    rw [coverage_of_ne _ hD, Finset.inter_comm, div_le_div_iff₀ hdpos (by positivity)]
    push_cast
    nlinarith

theorem f1_le_insert : f1 D E ≤ f1 (insert x D) E := by
  have hE : E ≠ ∅ := Finset.ne_empty_of_mem hx
  have hepos := card_pos_of_ne hE
  rw [f1_eq, f1_eq, if_neg fun h => hE h.2, if_neg fun h => hE h.2, card_insert_inter hx hnew,
    Finset.card_insert_of_notMem hnew]
  have hle : ((D ∩ E).card : ℚ) ≤ D.card := by
    exact_mod_cast Finset.card_le_card Finset.inter_subset_left
  have hd : (0 : ℚ) ≤ D.card := Nat.cast_nonneg _
  rw [div_le_div_iff₀ (by positivity) (by positivity)]
  push_cast
  nlinarith

end Expected

/-! ### An element that was not -/

section Extraneous
variable (hx : x ∉ E)
include hx

theorem insert_inter_eq : insert x D ∩ E = D ∩ E := Finset.insert_inter_of_notMem hx

theorem coverage_insert : coverage (insert x D) E = coverage D E := by
  unfold coverage
  rw [insert_inter_eq hx]

theorem precision_insert_le : coverage E (insert x D) ≤ coverage E D := by
  by_cases hold : x ∈ D
  · rw [Finset.insert_eq_of_mem hold]
  by_cases hD : D = ∅
  · rw [hD, coverage_empty]
    exact (coverage_mem _ _).2
  · have hdpos := card_pos_of_ne hD
    rw [coverage_of_ne _ hD, coverage_of_ne _ (Finset.insert_ne_empty x D), Finset.inter_comm,
      insert_inter_eq hx, Finset.inter_comm, Finset.card_insert_of_notMem hold,
      div_le_div_iff₀ (by positivity) hdpos]
    push_cast
    nlinarith [(Nat.cast_nonneg (E ∩ D).card : (0 : ℚ) ≤ _)]

theorem f1_insert_le : f1 (insert x D) E ≤ f1 D E := by
  by_cases hold : x ∈ D
  · rw [Finset.insert_eq_of_mem hold]
  by_cases hboth : D = ∅ ∧ E = ∅
  · rw [f1_eq D E, if_pos hboth]
    exact (f1_mem _ _).2
  · rw [f1_eq, f1_eq, if_neg fun h => Finset.insert_ne_empty x D h.1, if_neg hboth,
      insert_inter_eq hx, Finset.card_insert_of_notMem hold]
    have hpos : (0 : ℚ) < D.card + E.card := by
      rw [not_and_or] at hboth
      obtain hD | hE := hboth
      · have hdpos := card_pos_of_ne hD
        positivity
      · have hepos := card_pos_of_ne hE
        positivity
    refine div_le_div_of_nonneg_left (by positivity) hpos ?_
    push_cast
    linarith

end Extraneous

end Selfevals.Lib.SetScores
