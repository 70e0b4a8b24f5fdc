import Selfevals.Optimization.PassMetrics

/-!
# How the pass metrics are ordered

All pass metrics of some outcomes are shares of one list of label windows, `pass@1` too where no
repetition failed (`computeMetric_any`, `computeMetric_all`); so what one test implies, the metrics
keep. The rate of consistency is an average over the same cases.

* `share_mono`: a test that implies another has no larger share.
-/

namespace Selfevals.Optimization.PassOrdering

open Schemas.Experiments Graders.Base Optimization.Aggregator Optimization.PassMetrics

/-- Both are scored, and the first not above the second. -/
def Below (m m' : Except MetricError ℚ) : Prop := ∃ v v', m = .ok v ∧ m' = .ok v' ∧ v ≤ v'

/-- The order of the metrics; `anyOf n` is a name of `pass@n`, and `allOf n` one of `pass^n`. -/
structure Ordered (outcomes : List CaseOutcome) (anyOf allOf : ℕ → String) (R j k : ℕ) : Prop where
  all_anti : ∀ grader,
    Below (computeMetric (allOf k) outcomes grader) (computeMetric (allOf j) outcomes grader)
  any_mono : ∀ grader,
    Below (computeMetric (anyOf j) outcomes grader) (computeMetric (anyOf k) outcomes grader)
  all_le_any : ∀ grader,
    Below (computeMetric (allOf j) outcomes grader) (computeMetric (anyOf j) outcomes grader)
  all_le_consistency :
    Below (computeMetric (allOf R) outcomes none) (computeMetric "consistency_rate" outcomes none)
  last : ∀ grader,
    Below (computeMetric (allOf R) outcomes grader) (computeMetric (anyOf R) outcomes grader)

/-! ### Windows -/

section Windows
variable {labels : List GradeLabel} {j k : ℕ}

theorem sliceTo_natCast {α : Type} (k : ℕ) (xs : List α) : sliceTo k xs = xs.take k := by
  rw [sliceTo, if_pos (Int.natCast_nonneg k), Int.toNat_natCast]

theorem passInFirst_iff_mem : passInFirst k labels = true ↔ .pass ∈ labels.take k := by
  rw [passInFirst, sliceTo_natCast, List.contains_iff_mem]

theorem allPassInFirst_iff_forall :
    allPassInFirst k labels = true ↔ k ≤ labels.length ∧ ∀ l ∈ labels.take k, l = .pass := by
  rw [allPassInFirst, sliceTo_natCast, Bool.and_eq_true, decide_eq_true_iff, Nat.cast_le,
    List.all_eq_true]
  simp only [beq_iff_eq]

theorem passInFirst_mono (hjk : j ≤ k) (h : passInFirst j labels = true) :
    passInFirst k labels = true :=
  passInFirst_iff_mem.mpr ((List.take_prefix_take_left hjk).subset (passInFirst_iff_mem.mp h))

theorem allPassInFirst_anti (hjk : j ≤ k) (h : allPassInFirst k labels = true) :
    allPassInFirst j labels = true := by
  obtain ⟨hlength, hall⟩ := allPassInFirst_iff_forall.mp h
  exact allPassInFirst_iff_forall.mpr ⟨hjk.trans hlength, fun l hl =>
    hall l ((List.take_prefix_take_left hjk).subset hl)⟩

theorem passInFirst_of_all (hj : 1 ≤ j) (h : allPassInFirst j labels = true) :
    passInFirst j labels = true := by
  obtain ⟨hlength, hall⟩ := allPassInFirst_iff_forall.mp h
  obtain ⟨l, hl⟩ : ∃ l, l ∈ labels.take j := by
    refine List.exists_mem_of_length_pos ?_
    rw [List.length_take]
    omega
  exact passInFirst_iff_mem.mpr (hall l hl ▸ hl)

theorem head?_eq_pass_iff : (labels.head? == some .pass) = passInFirst 1 labels := by
  rw [Bool.eq_iff_iff, beq_iff_eq, show (1 : ℤ) = (1 : ℕ) from rfl, passInFirst_iff_mem]
  cases labels <;> simp [eq_comm]

end Windows

/-! ### Shares of windows -/

theorem share_mono {α : Type} {p q : α → Bool} {xs : List α}
    (h : ∀ x ∈ xs, p x = true → q x = true) : share p xs ≤ share q xs := by
  unfold share
  have hcount : xs.countP p ≤ xs.countP q := List.countP_mono_left h
  gcongr

/-- The labels that a pass metric is taken over. -/
def windows (outcomes : List CaseOutcome) : Option String → List (List GradeLabel)
  | none => outcomes.map (·.perRepetitionLabel)
  | some grader => windowsOf grader outcomes

section Metrics
variable {outcomes : List CaseOutcome} {name : String} {k : ℕ}

@[simp] theorem share_nil {α : Type} (p : α → Bool) : share p [] = 0 := by simp [share]

theorem computeMetric_some_eq (hname : PassMetric name) {test : List GradeLabel → Bool}
    {grader : String}
    (htest : windowsOf grader outcomes ≠ [] → computePassMetricForGrader name outcomes grader =
      .ok (share test (windowsOf grader outcomes))) :
    computeMetric name outcomes (some grader) = .ok (share test (windowsOf grader outcomes)) := by
  by_cases hne : outcomes = []
  · subst hne
    exact congrArg Except.ok (share_nil test).symm
  rw [computeMetric_some hname hne]
  by_cases hwindows : windowsOf grader outcomes = []
  · rw [computePassMetricForGrader_eq, hwindows, List.isEmpty_nil, if_pos rfl]
    exact congrArg Except.ok (share_nil test).symm
  · exact htest hwindows

theorem computeMetric_all (hname : Experiment.passHatK name = some (k : ℤ))
    (grader : Option String) :
    computeMetric name outcomes grader =
      .ok (share (allPassInFirst k) (windows outcomes grader)) := by
  have hmetric : PassMetric name := Or.inr (by rw [hname]; rfl)
  obtain ⟨k', -, -, -, hnone⟩ | ⟨k', hat, hhat, hbound, -, hk⟩ := hmetric.cases
  · cases hname.symm.trans hnone
  obtain rfl : k' = k := Option.some.inj (hk.symm.trans hname)
  have hone : name ≠ "pass@1" := fun heq => hat (by rw [heq]; decide)
  cases grader with
  | some grader =>
    refine computeMetric_some_eq hmetric fun hne => ?_
    have hempty : (windowsOf grader outcomes).isEmpty = false := by simpa using hne
    rw [computePassMetricForGrader_eq, hempty, if_neg Bool.false_ne_true, if_neg hone, if_neg hat,
      hbound]
    rfl
  | none =>
    by_cases hne : outcomes = []
    · subst hne
      exact congrArg Except.ok (share_nil _).symm
    have hempty : outcomes.isEmpty = false := by simpa using hne
    have htest : ∀ labels : List GradeLabel, (decide ((k : ℤ) ≤ (sliceTo k labels).length) &&
        (sliceTo k labels).all (· == .pass)) = allPassInFirst k labels := by
      intro labels
      rw [length_sliceTo, allPassInFirst, decide_eq_decide.mpr le_sliceLength_iff]
    unfold computeMetric
    rw [hempty, if_neg Bool.false_ne_true, Option.filter_none]
    dsimp only
    rw [if_neg hone, if_neg hat, if_pos hhat, hbound, windows]
    unfold share
    rw [List.countP_map, List.length_map]
    simp only [Except.map, htest]
    rfl

theorem computeMetric_any (hname : passAtK name = some (k : ℤ))
    (herror : ∀ o ∈ outcomes, o.errored = false) (grader : Option String) :
    computeMetric name outcomes grader =
      .ok (share (passInFirst k) (windows outcomes grader)) := by
  have hmetric : PassMetric name := Or.inl (by rw [hname]; rfl)
  obtain ⟨k', hat, hbound, hk, -⟩ | ⟨k', -, -, -, hnone, -⟩ := hmetric.cases
  swap
  · cases hname.symm.trans hnone
  obtain rfl : k' = k := Option.some.inj (hk.symm.trans hname)
  have hfirst : name = "pass@1" → k = 1 := by
    rintro rfl
    exact_mod_cast Option.some.inj (hname.symm.trans (by decide : passAtK "pass@1" = some 1))
  cases grader with
  | some grader =>
    refine computeMetric_some_eq hmetric fun hne => ?_
    have hempty : (windowsOf grader outcomes).isEmpty = false := by simpa using hne
    rw [computePassMetricForGrader_eq, hempty, if_neg Bool.false_ne_true]
    split_ifs with hone
    · obtain rfl := hfirst hone
      simp only [head?_eq_pass_iff]
      rfl
    · rw [hbound]
      rfl
  | none =>
    by_cases hone : name = "pass@1"
    · obtain rfl := hfirst hone
      have hscored : (outcomes.countP fun o => Scored o none) = outcomes.length :=
        List.countP_eq_length.mpr fun o ho => decide_eq_true (herror o ho)
      have hcounts : (outcomes.countP fun o => CountsAsPass o none) =
          outcomes.countP fun o => passInFirst 1 o.perRepetitionLabel := by
        refine List.countP_congr fun o _ => ?_
        rw [decide_eq_true_iff, ← head?_eq_pass_iff, beq_iff_eq]
        exact passAt1_eq_one_iff o
      rw [hone, computeMetric_passAt1, hscored, hcounts, windows, share, List.countP_map,
        List.length_map]
      rfl
    · by_cases hne : outcomes = []
      · subst hne
        exact congrArg Except.ok (share_nil _).symm
      have hempty : outcomes.isEmpty = false := by simpa using hne
      unfold computeMetric
      rw [hempty, if_neg Bool.false_ne_true, Option.filter_none]
      dsimp only
      rw [if_neg hone, if_pos hat, hbound, windows]
      unfold share
      rw [List.countP_map, List.length_map]
      rfl

end Metrics

/-! ### Consistency -/

theorem indicator_le_consistencyRate {o : CaseOutcome} {R : ℕ} (hR : 1 ≤ R)
    (hlength : o.perRepetitionLabel.length = R) :
    (if allPassInFirst R o.perRepetitionLabel then 1 else 0 : ℚ) ≤ o.consistencyRate := by
  have hne : o.perRepetitionLabel ≠ [] := List.ne_nil_of_length_pos (by omega)
  rw [CaseOutcome.consistencyRate, if_neg hne]
  split_ifs with hall
  · obtain ⟨-, hpass⟩ := allPassInFirst_iff_forall.mp hall
    rw [← hlength, List.take_length] at hpass
    have hcount : o.perRepetitionLabel.count .pass = o.perRepetitionLabel.length :=
      List.count_eq_length.mpr fun l hl => (hpass l hl).symm
    have hpos : (o.perRepetitionLabel.length : ℚ) ≠ 0 := by
      rw [hlength]
      exact_mod_cast (show R ≠ 0 by omega)
    rw [hcount, div_self hpos]
  · positivity

theorem sum_indicator {α : Type} (p : α → Bool) (xs : List α) :
    (xs.map fun x => (if p x then 1 else 0 : ℚ)).sum = xs.countP p := by
  induction xs with
  | nil => rfl
  | cons x xs ih =>
    rw [List.map_cons, List.sum_cons, ih, List.countP_cons, Nat.cast_add, add_comm]
    split_ifs <;> simp

theorem share_all_le_mean_consistency {outcomes : List CaseOutcome} {R : ℕ} (hR : 1 ≤ R)
    (hlength : ∀ o ∈ outcomes, o.perRepetitionLabel.length = R) :
    share (allPassInFirst R) (windows outcomes none) ≤ mean (outcomes.map (·.consistencyRate)) := by
  have hsum : (outcomes.countP fun o => allPassInFirst R o.perRepetitionLabel : ℚ) ≤
      (outcomes.map (·.consistencyRate)).sum := by
    rw [← sum_indicator]
    exact List.sum_le_sum fun o ho => indicator_le_consistencyRate hR (hlength o ho)
  rw [windows, share, mean, List.countP_map, List.length_map, List.length_map]
  exact div_le_div_of_nonneg_right hsum (Nat.cast_nonneg _)

/-! ### The order -/

/-- **The pass metrics are ordered**: over cases that all ran `R` times without an error. -/
theorem pass_metrics_ordered {outcomes : List CaseOutcome} {R j k : ℕ}
    (hlength : ∀ o ∈ outcomes, o.perRepetitionLabel.length = R)
    (herror : ∀ o ∈ outcomes, .error ∉ o.perRepetitionLabel)
    (hj : 1 ≤ j) (hjk : j ≤ k) (hkR : k ≤ R) {anyOf allOf : ℕ → String}
    (hany : ∀ n ∈ [j, k, R], passAtK (anyOf n) = some (n : ℤ))
    (hall : ∀ n ∈ [j, k, R], Experiment.passHatK (allOf n) = some (n : ℤ)) :
    Ordered outcomes anyOf allOf R j k := by
  have herrored : ∀ o ∈ outcomes, o.errored = false := by
    intro o ho
    rw [CaseOutcome.errored, beq_eq_false_iff_ne]
    intro hhead
    exact herror o ho (List.mem_of_mem_head? hhead)
  have hanyOf : ∀ n ∈ [j, k, R], ∀ grader, computeMetric (anyOf n) outcomes grader = _ :=
    fun n hn => computeMetric_any (hany n hn) herrored
  have hallOf : ∀ n ∈ [j, k, R], ∀ grader, computeMetric (allOf n) outcomes grader = _ :=
    fun n hn => computeMetric_all (hall n hn)
  constructor
  · intro grader
    exact ⟨_, _, hallOf k (by simp) grader, hallOf j (by simp) grader,
      share_mono fun _ _ => allPassInFirst_anti hjk⟩
  · intro grader
    exact ⟨_, _, hanyOf j (by simp) grader, hanyOf k (by simp) grader,
      share_mono fun _ _ => passInFirst_mono hjk⟩
  · intro grader
    exact ⟨_, _, hallOf j (by simp) grader, hanyOf j (by simp) grader,
      share_mono fun _ _ => passInFirst_of_all hj⟩
  · have hconsistency : computeMetric "consistency_rate" outcomes none =
        .ok (mean (outcomes.map (·.consistencyRate))) := by
      by_cases hne : outcomes = []
      · subst hne
        simp [computeMetric, mean]
      · have hempty : outcomes.isEmpty = false := by simpa using hne
        unfold computeMetric
        rw [hempty]
        rfl
    exact ⟨_, _, hallOf R (by simp) none, hconsistency,
      share_all_le_mean_consistency (by omega) hlength⟩
  · intro grader
    exact ⟨_, _, hallOf R (by simp) grader, hanyOf R (by simp) grader,
      share_mono fun _ _ => passInFirst_of_all (by omega)⟩

theorem pass_metrics_ordered_twice :
    Ordered [⟨"ec_1", [.pass, .fail], [1, 0], [], 0, 0, 0, 0, [], .empty, .empty, []⟩,
        ⟨"ec_2", [.fail, .pass], [0, 1], [], 0, 0, 0, 0, [], .empty, .empty, []⟩]
      (fun n => if n = 1 then "pass@1" else "pass@2")
        (fun n => if n = 1 then "pass^1" else "pass^2")
      2 1 2 :=
  pass_metrics_ordered (by decide) (by decide) (by decide) (by decide) (by decide)
    (by decide +kernel) (by decide +kernel)

end Selfevals.Optimization.PassOrdering
