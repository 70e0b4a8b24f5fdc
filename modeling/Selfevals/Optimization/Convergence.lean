import Selfevals.Optimization.OptimizationRun

/-!
# When a run has converged

A run has reached a plateau when the best of the last `patience` values does not top the best of all
earlier ones by `min_delta`. `hasConverged` compares the latest value alone, and with the `patience`
values before it alone.
-/

namespace Selfevals.Optimization.Convergence

open Optimization.OptimizationRun

variable {values before middle : List ℚ} {oldest latest minDelta : ℚ} {patience : ℕ}

/-- The best of the last `patience` values is not better by `min_delta` than the best before them.
-/
def Plateaued (values : List ℚ) (minDelta : ℚ) (patience : ℕ) : Prop :=
  patience + 1 ≤ values.length ∧ ∀ best earlier,
    (values.drop (values.length - patience)).max? = some best →
      (values.take (values.length - patience)).max? = some earlier → ¬earlier + minDelta ≤ best

/-- A value is better than all of these by `min_delta`. -/
def Tops (minDelta v : ℚ) (others : List ℚ) : Prop := ∀ u ∈ others, u + minDelta ≤ v

/-- If the latest value tops the `patience` values before it, it tops all before these; and it tops
those if some value of the last `patience` tops all before them. -/
def LatestDecides (values : List ℚ) (minDelta : ℚ) (patience : ℕ) : Prop :=
  ∀ before oldest middle latest, values = before ++ oldest :: middle ++ [latest] →
    middle.length + 1 = patience →
      (Tops minDelta latest (oldest :: middle) → Tops minDelta latest before) ∧
        ∀ v ∈ middle ++ [latest], Tops minDelta v (before ++ [oldest]) →
          Tops minDelta latest (oldest :: middle)

theorem tops_iff_of_max? {others : List ℚ} {best v : ℚ} (h : others.max? = some best) :
    Tops minDelta v others ↔ best + minDelta ≤ v := by
  obtain ⟨hmem, hle⟩ := List.max?_eq_some_iff.mp h
  exact ⟨fun htops => htops best hmem, fun hbest u hu => (add_le_add_left (hle u hu) _).trans hbest⟩

theorem exists_window (hpatience : 1 ≤ patience) (h : patience + 1 ≤ values.length) :
    ∃ before oldest middle latest, values = before ++ oldest :: middle ++ [latest] ∧
      middle.length + 1 = patience := by
  obtain ⟨init, latest, rfl⟩ : ∃ init latest, values = init ++ [latest] := by
    refine ⟨values.dropLast, values.getLast ?_, (List.dropLast_append_getLast _).symm⟩
    rintro rfl
    simp at h
  rw [List.length_append, List.length_singleton] at h
  have hdrop : (init.drop (init.length - patience)).length = patience := by
    rw [List.length_drop]
    omega
  obtain ⟨oldest, middle, hcons⟩ :=
    List.exists_cons_of_length_pos (by omega : 0 < (init.drop (init.length - patience)).length)
  refine ⟨init.take (init.length - patience), oldest, middle, latest, ?_, ?_⟩
  · rw [← hcons, List.take_append_drop]
  · rw [hcons, List.length_cons] at hdrop
    exact hdrop

section Window
variable (hvalues : values = before ++ oldest :: middle ++ [latest])
  (hmiddle : middle.length + 1 = patience)
include hvalues hmiddle

theorem hasConverged_window : hasConverged values minDelta patience = true ↔
    ¬Tops minDelta latest (oldest :: middle) := by
  obtain ⟨bestOld, hbest⟩ := Option.isSome_iff_exists.mp
    (List.isSome_max?_of_mem (List.mem_cons_self : oldest ∈ oldest :: middle))
  have hlength : values.length = before.length + (patience + 1) := by
    rw [hvalues, ← hmiddle]
    simp only [List.length_append, List.length_cons, List.length_nil]
    omega
  have htail : values.drop (values.length - (patience + 1)) = oldest :: middle ++ [latest] := by
    rw [hlength, Nat.add_sub_cancel, hvalues, List.append_assoc, List.drop_left]
  have hlast : (oldest :: middle ++ [latest]).getLast? = some latest := List.getLast?_concat
  unfold hasConverged
  rw [if_neg (by omega), htail]
  simp only [List.dropLast_concat, hlast, hbest]
  rw [decide_eq_true_iff, tops_iff_of_max? hbest, not_le, sub_lt_iff_lt_add']

theorem plateaued_window : Plateaued values minDelta patience ↔
    ∀ v ∈ middle ++ [latest], ¬Tops minDelta v (before ++ [oldest]) := by
  obtain ⟨best, hbest⟩ := Option.isSome_iff_exists.mp
    (List.isSome_max?_of_mem (by simp : latest ∈ middle ++ [latest]))
  obtain ⟨earlier, hearlier⟩ := Option.isSome_iff_exists.mp
    (List.isSome_max?_of_mem (by simp : oldest ∈ before ++ [oldest]))
  have hsplit : values = (before ++ [oldest]) ++ (middle ++ [latest]) := by rw [hvalues]; simp
  have hlength : values.length = (before ++ [oldest]).length + patience := by
    rw [hsplit, List.length_append, ← hmiddle]
    simp
  have hcut : values.length - patience = (before ++ [oldest]).length := by omega
  unfold Plateaued
  rw [hcut, hlength, hsplit, List.drop_left, List.take_left, hbest, hearlier]
  obtain ⟨hmem, hle⟩ := List.max?_eq_some_iff.mp hbest
  constructor
  · rintro ⟨-, hnot⟩ v hv htops
    rw [tops_iff_of_max? hearlier] at htops
    exact hnot best earlier rfl rfl (htops.trans (hle v hv))
  · intro hall
    refine ⟨by simp, fun best' earlier' hbest' hearlier' htops => ?_⟩
    obtain rfl := Option.some.inj hbest'
    obtain rfl := Option.some.inj hearlier'
    exact hall best hmem ((tops_iff_of_max? hearlier).mpr htops)

theorem agree_window (hdelta : 0 ≤ minDelta) :
    (hasConverged values minDelta patience = true ↔ Plateaued values minDelta patience) ↔
      (Tops minDelta latest (oldest :: middle) → Tops minDelta latest before) ∧
        ∀ v ∈ middle ++ [latest], Tops minDelta v (before ++ [oldest]) →
          Tops minDelta latest (oldest :: middle) := by
  rw [hasConverged_window hvalues hmiddle, plateaued_window hvalues hmiddle]
  constructor
  · intro h
    refine ⟨fun htops => ?_, fun v hv hv' => ?_⟩
    · -- some value of the last ones tops all before them, and the latest is no less
      have hsome : ¬∀ v ∈ middle ++ [latest], ¬Tops minDelta v (before ++ [oldest]) :=
        fun hall => h.mpr hall htops
      push Not at hsome
      obtain ⟨v, hv, hv'⟩ := hsome
      have hle : v ≤ latest := by
        obtain hv | hv := List.mem_append.mp hv
        · exact (le_add_of_nonneg_right hdelta).trans (htops v (List.mem_cons_of_mem oldest hv))
        · exact (List.mem_singleton.mp hv).le
      exact fun u hu => (hv' u (List.mem_append_left _ hu)).trans hle
    · by_contra hnot
      exact h.mp hnot v hv hv'
  · rintro ⟨hbefore, hwindow⟩
    refine ⟨fun hnot v hv hv' => hnot (hwindow v hv hv'), fun hall htops => ?_⟩
    refine hall latest (by simp) fun u hu => ?_
    obtain hu | hu := List.mem_append.mp hu
    · exact hbefore htops u hu
    · exact htops u (by rw [List.mem_singleton.mp hu]; exact List.mem_cons_self)

theorem latestDecides_window (hdelta : 0 ≤ minDelta) : LatestDecides values minDelta patience ↔
    (Tops minDelta latest (oldest :: middle) → Tops minDelta latest before) ∧
      ∀ v ∈ middle ++ [latest], Tops minDelta v (before ++ [oldest]) →
        Tops minDelta latest (oldest :: middle) := by
  refine ⟨fun h => h before oldest middle latest hvalues hmiddle, fun h => ?_⟩
  intro before' oldest' middle' latest' hvalues' hmiddle'
  exact (agree_window hvalues' hmiddle' hdelta).mp ((agree_window hvalues hmiddle hdelta).mpr h)

end Window

/-- **`hasConverged` tells a plateau** exactly where the latest value decides. -/
theorem hasConverged_iff_plateaued (values : List ℚ) (minDelta : ℚ) (patience : ℕ)
    (hdelta : 0 ≤ minDelta)
    (hpatience : 1 ≤ patience) :
    (hasConverged values minDelta patience = true ↔ Plateaued values minDelta patience) ↔
      LatestDecides values minDelta patience := by
  by_cases hlength : patience + 1 ≤ values.length
  · obtain ⟨before, oldest, middle, latest, hvalues, hmiddle⟩ := exists_window hpatience hlength
    rw [agree_window hvalues hmiddle hdelta, latestDecides_window hvalues hmiddle hdelta]
  · -- there are too few values for either
    have hnot : hasConverged values minDelta patience = false := if_pos (by omega)
    refine iff_of_true (iff_of_false (by simp [hnot]) fun h => hlength h.1) ?_
    intro before oldest middle latest hvalues hmiddle
    refine absurd ?_ hlength
    rw [hvalues, ← hmiddle]
    simp

/-- Values that rise and stay, two values later. -/
theorem plateaued_after_rise : hasConverged [1 / 2, 9 / 10, 9 / 10, 9 / 10] (5 / 1000) 2 = true ↔
    Plateaued [1 / 2, 9 / 10, 9 / 10, 9 / 10] (5 / 1000) 2 := by
  refine (hasConverged_iff_plateaued _ _ _ (by norm_num) (by norm_num)).mpr ?_
  have hvalues : ([1 / 2, 9 / 10, 9 / 10, 9 / 10] : List ℚ) =
      [1 / 2] ++ 9 / 10 :: [9 / 10] ++ [9 / 10] := rfl
  refine (latestDecides_window hvalues (by rfl) (by norm_num)).mpr ?_
  norm_num [Tops]

/-- **The best improvement is in the last two values**, and the run is taken to have converged. -/
theorem not_plateaued_at_rise : ¬∀ (values : List ℚ) (minDelta : ℚ) (patience : ℕ), 0 ≤ minDelta →
    1 ≤ patience →
      (hasConverged values minDelta patience = true ↔ Plateaued values minDelta patience) := by
  intro h
  have hplateau :=
    (h [1 / 2, 9 / 10, 9 / 10] (5 / 1000) 2 (by norm_num) (by norm_num)).mp (by decide +kernel)
  exact hplateau.2 (9 / 10) (1 / 2) (by decide +kernel) (by decide +kernel) (by norm_num)

end Selfevals.Optimization.Convergence
