import Selfevals.Optimization.Aggregator
import Selfevals.Schemas.Experiments

/-!
# Pass metrics over labels that all pass

`pass@k` and `pass^k` look at the first `k` labels of a case. Where every label passes, what is left
of them is a matter of how many there are: `Reaches name n` says that `n` passing labels are enough.
-/

namespace Selfevals.Optimization.PassMetrics

open Lib.Mapping Lib.PyInt Schemas.Experiments Graders.Base Optimization.Aggregator

/-! ### The names -/

/-- The `k` of `pass@k`, as `int(name.split("@", 1)[1])` reads it. -/
def passAtK (name : String) : Option ℤ :=
  if startsWith "pass@" name then parseInt (afterFirst '@' name) else none

/-- The name is a `pass@k` or a `pass^k`. -/
def PassMetric (name : String) : Prop :=
  (passAtK name).isSome ∨ (Experiment.passHatK name).isSome
deriving Decidable

/-- How many of `n` labels `labels[:k]` keeps. -/
def sliceLength (k : ℤ) (n : ℕ) : ℕ := if 0 ≤ k then min k.toNat n else n - k.natAbs

/-- `n` labels that pass are enough for the metric to be worth 1. -/
def Reaches (name : String) (n : ℕ) : Prop :=
  (∀ k ∈ Experiment.passHatK name, k ≤ n) ∧ ∀ k ∈ passAtK name, 0 < sliceLength k n

section Names
variable {name : String}

theorem toList_of_startsWith {start : String} (h : startsWith start name) :
    ∃ rest, name.toList = start.toList ++ rest := by
  obtain ⟨rest, hrest⟩ := List.isPrefixOf_iff_prefix.mp h
  exact ⟨rest, hrest.symm⟩

theorem afterFirst_hat (h : startsWith "pass^" name) :
    afterFirst '^' name = String.ofList (name.toList.drop 5) := by
  obtain ⟨rest, hrest⟩ := toList_of_startsWith h
  unfold afterFirst
  rw [hrest]
  rfl

theorem passHatK_of_startsWith (h : startsWith "pass^" name) :
    Experiment.passHatK name = parseInt (afterFirst '^' name) := by
  rw [afterFirst_hat h]
  exact if_pos h

theorem passHatK_of_not_startsWith (h : ¬startsWith "pass^" name) :
    Experiment.passHatK name = none :=
  if_neg h

theorem not_hat_of_at (h : startsWith "pass@" name) : ¬startsWith "pass^" name := by
  intro h'
  obtain ⟨rest, hrest⟩ := toList_of_startsWith h
  obtain ⟨rest', hrest'⟩ := toList_of_startsWith h'
  have hstart : "pass@".toList = "pass^".toList :=
    List.append_inj_left (hrest.symm.trans hrest') (by decide)
  exact absurd hstart (by decide)

theorem PassMetric.cases (h : PassMetric name) :
    (∃ k, startsWith "pass@" name ∧ repetitionBound '@' name = .ok k ∧ passAtK name = some k ∧
        Experiment.passHatK name = none) ∨
      ∃ k, ¬startsWith "pass@" name ∧ startsWith "pass^" name ∧ repetitionBound '^' name = .ok k ∧
        passAtK name = none ∧ Experiment.passHatK name = some k := by
  unfold PassMetric passAtK at h
  by_cases hat : startsWith "pass@" name
  · have hhat := passHatK_of_not_startsWith (not_hat_of_at hat)
    rw [if_pos hat, hhat] at h
    obtain ⟨k, hk⟩ := Option.isSome_iff_exists.mp (h.resolve_right Bool.false_ne_true)
    refine .inl ⟨k, hat, ?_, (if_pos hat).trans hk, hhat⟩
    rw [repetitionBound, hk]
  · rw [if_neg hat] at h
    have hsome := h.resolve_left Bool.false_ne_true
    by_cases hhat : startsWith "pass^" name
    · obtain ⟨k, hk⟩ := Option.isSome_iff_exists.mp hsome
      refine .inr ⟨k, hat, hhat, ?_, if_neg hat, hk⟩
      rw [passHatK_of_startsWith hhat] at hk
      rw [repetitionBound, hk]
    · rw [passHatK_of_not_startsWith hhat] at hsome
      exact absurd hsome Bool.false_ne_true

theorem reaches_passAt1 {n : ℕ} (hn : 0 < n) : Reaches "pass@1" n := by
  have hhat : Experiment.passHatK "pass@1" = none := by decide
  have hat : passAtK "pass@1" = some 1 := by decide
  unfold Reaches sliceLength
  rw [hhat, hat]
  refine ⟨fun k hk => absurd hk (Option.not_mem_none k), fun k hk => ?_⟩
  obtain rfl := Option.mem_some_iff.mp hk
  rw [if_pos (by decide)]
  omega

end Names

/-! ### Labels that all pass -/

section Labels
variable {labels : List GradeLabel} {k : ℤ}

theorem length_sliceTo {α : Type} (xs : List α) :
    (sliceTo k xs).length = sliceLength k xs.length := by
  unfold sliceTo sliceLength
  split_ifs
  · rw [List.length_take]
  · rw [List.length_take]
    omega

theorem mem_of_mem_sliceTo {α : Type} {xs : List α} {x : α} (h : x ∈ sliceTo k xs) : x ∈ xs := by
  unfold sliceTo at h
  split_ifs at h
  · exact List.mem_of_mem_take h
  · exact List.mem_of_mem_take h

theorem le_sliceLength_iff {n : ℕ} : k ≤ sliceLength k n ↔ k ≤ n := by
  unfold sliceLength
  split_ifs <;> omega

variable (hpass : ∀ label ∈ labels, label = .pass)
include hpass

theorem all_sliceTo : (sliceTo k labels).all (· == .pass) = true := by
  rw [List.all_eq_true]
  intro label hlabel
  rw [hpass label (mem_of_mem_sliceTo hlabel)]
  rfl

theorem passInFirst_iff : passInFirst k labels = true ↔ 0 < sliceLength k labels.length := by
  rw [passInFirst, List.contains_iff_mem, ← length_sliceTo, List.length_pos_iff_exists_mem]
  constructor
  · exact fun h => ⟨_, h⟩
  · rintro ⟨label, hlabel⟩
    exact hpass label (mem_of_mem_sliceTo hlabel) ▸ hlabel

theorem allPassInFirst_iff : allPassInFirst k labels = true ↔ k ≤ labels.length := by
  rw [allPassInFirst, all_sliceTo hpass, Bool.and_true, decide_eq_true_iff]

theorem head?_eq_pass (hne : labels ≠ []) : labels.head? = some .pass := by
  obtain ⟨label, rest, rfl⟩ := List.exists_cons_of_ne_nil hne
  rw [List.head?_cons, hpass label List.mem_cons_self]

end Labels

/-! ### Shares -/

theorem share_eq_one_iff {α : Type} {p : α → Bool} {xs : List α} (hne : xs ≠ []) :
    share p xs = 1 ↔ ∀ x ∈ xs, p x = true := by
  have hpos : (xs.length : ℚ) ≠ 0 := by simpa using hne
  rw [share, div_eq_one_iff_eq hpos, Nat.cast_inj]
  exact List.countP_eq_length

theorem ok_share_eq_one_iff {α : Type} {p : α → Bool} {xs : List α} (hne : xs ≠ []) :
    (Except.ok (share p xs) : Except MetricError ℚ) = .ok 1 ↔ ∀ x ∈ xs, p x = true := by
  rw [Except.ok.injEq]
  exact share_eq_one_iff hne

/-! ### What the metrics are worth -/

/-- The labels of a grader, case by case, where it ran. -/
def windowsOf (grader : String) (outcomes : List CaseOutcome) : List (List GradeLabel) :=
  outcomes.filterMap fun o => (o.perGraderLabel.get? grader).filter (!·.isEmpty)

theorem computePassMetricForGrader_eq (metric : String) (outcomes : List CaseOutcome)
    (grader : String) :
    computePassMetricForGrader metric outcomes grader =
      if (windowsOf grader outcomes).isEmpty then .ok 0
      else if metric = "pass@1" then
        .ok (share (fun w => w.head? == some .pass) (windowsOf grader outcomes))
      else if startsWith "pass@" metric then
        (repetitionBound '@' metric).map fun k => share (passInFirst k) (windowsOf grader outcomes)
      else
        (repetitionBound '^' metric).map fun k =>
          share (allPassInFirst k) (windowsOf grader outcomes) :=
  rfl

theorem startsWith_of_passMetric {name : String} (hname : PassMetric name) :
    startsWith "pass@" name = true ∨ startsWith "pass^" name = true := by
  obtain ⟨k, hat, -⟩ | ⟨k, -, hhat, -⟩ := hname.cases
  · exact .inl hat
  · exact .inr hhat

section Metrics
variable {outcomes : List CaseOutcome} {name : String} (hname : PassMetric name)
include hname

/-- **Over cases whose labels all pass**, a pass metric is worth 1 when each case has labels enough.
-/
theorem computeMetric_eq_one_iff (hne : outcomes ≠ [])
    (hpass : ∀ o ∈ outcomes, o.perRepetitionLabel ≠ [] ∧ ∀ label ∈ o.perRepetitionLabel,
      label = .pass) :
    computeMetric name outcomes none = .ok 1 ↔
      ∀ o ∈ outcomes, Reaches name o.perRepetitionLabel.length := by
  have hempty : outcomes.isEmpty = false := by simpa using hne
  unfold computeMetric
  rw [hempty, if_neg Bool.false_ne_true, Option.filter_none]
  dsimp only
  by_cases hone : name = "pass@1"
  · -- no case has an error, and each passes its first repetition
    subst hone
    rw [if_pos rfl]
    have hhead : ∀ o ∈ outcomes, o.perRepetitionLabel.head? = some .pass := fun o ho =>
      head?_eq_pass (hpass o ho).2 (hpass o ho).1
    have hscored : (outcomes.filter fun o => !o.errored) = outcomes := by
      refine List.filter_eq_self.mpr fun o ho => ?_
      rw [CaseOutcome.errored, hhead o ho]
      rfl
    have hones : outcomes.map (·.passAt1) = List.replicate outcomes.length 1 := by
      refine List.eq_replicate_iff.mpr ⟨List.length_map _, fun x hx => ?_⟩
      obtain ⟨o, ho, rfl⟩ := List.mem_map.mp hx
      exact if_pos (hhead o ho)
    have hpos : (outcomes.length : ℚ) ≠ 0 := by simpa using hne
    rw [hscored, hempty, if_neg Bool.false_ne_true, hones, mean, List.sum_replicate,
      List.length_replicate, nsmul_one, div_self hpos]
    exact iff_of_true rfl fun o ho => reaches_passAt1 (List.length_pos_of_ne_nil (hpass o ho).1)
  · rw [if_neg hone]
    obtain ⟨k, hat, hbound, hk, hnone⟩ | ⟨k, hat, hhat, hbound, hnone, hk⟩ := hname.cases
    · rw [if_pos hat, hbound]
      refine (ok_share_eq_one_iff hne).trans (forall₂_congr fun o ho => ?_)
      rw [passInFirst_iff (hpass o ho).2, Reaches, hnone, hk]
      simp
    · rw [if_neg hat, if_pos hhat, hbound]
      refine (ok_share_eq_one_iff hne).trans (forall₂_congr fun o ho => ?_)
      rw [all_sliceTo (hpass o ho).2, Bool.and_true, decide_eq_true_iff, length_sliceTo,
        le_sliceLength_iff, Reaches, hnone, hk]
      simp

/-- **Over the labels of one grader**, where they all pass: it has to have run, and every case it
ran on needs labels enough. -/
theorem computePassMetricForGrader_eq_one_iff {grader : String}
    (hpass : ∀ w ∈ windowsOf grader outcomes, w ≠ [] ∧ ∀ label ∈ w, label = .pass) :
    computePassMetricForGrader name outcomes grader = .ok 1 ↔
      windowsOf grader outcomes ≠ [] ∧ ∀ w ∈ windowsOf grader outcomes, Reaches name w.length := by
  rw [computePassMetricForGrader_eq]
  by_cases hne : windowsOf grader outcomes = []
  · rw [hne, List.isEmpty_nil, if_pos rfl]
    simp
  · have hempty : (windowsOf grader outcomes).isEmpty = false := by simpa using hne
    rw [hempty, if_neg Bool.false_ne_true]
    refine Iff.trans ?_ (and_iff_right hne).symm
    by_cases hone : name = "pass@1"
    · subst hone
      rw [if_pos rfl]
      refine (ok_share_eq_one_iff hne).trans (forall₂_congr fun w hw => ?_)
      rw [head?_eq_pass (hpass w hw).2 (hpass w hw).1]
      exact iff_of_true rfl (reaches_passAt1 (List.length_pos_of_ne_nil (hpass w hw).1))
    · rw [if_neg hone]
      obtain ⟨k, hat, hbound, hk, hnone⟩ | ⟨k, hat, hhat, hbound, hnone, hk⟩ := hname.cases
      · rw [if_pos hat, hbound]
        refine (ok_share_eq_one_iff hne).trans (forall₂_congr fun w hw => ?_)
        rw [passInFirst_iff (hpass w hw).2, Reaches, hnone, hk]
        simp
      · rw [if_neg hat, hbound]
        refine (ok_share_eq_one_iff hne).trans (forall₂_congr fun w hw => ?_)
        rw [allPassInFirst_iff (hpass w hw).2, Reaches, hnone, hk]
        simp

theorem computeMetric_some (hne : outcomes ≠ []) (grader : String) :
    computeMetric name outcomes (some grader) =
      computePassMetricForGrader name outcomes grader := by
  have hempty : outcomes.isEmpty = false := by simpa using hne
  have hpass : (name == "pass@1" || startsWith "pass@" name || startsWith "pass^" name) = true := by
    rcases startsWith_of_passMetric hname with h | h
    · rw [h, Bool.or_true, Bool.true_or]
    · rw [h, Bool.or_true]
  unfold computeMetric
  rw [hempty, if_neg Bool.false_ne_true, Option.filter_some, hpass, if_pos rfl]

end Metrics

/-! ### What `pass@1` counts -/

/-- The case counts as a pass in `pass@1`. -/
def CountsAsPass (o : CaseOutcome) : Option String → Prop
  | none => o.passAt1 = 1
  | some grader => o.passAt1ForGrader grader = some 1

instance (o : CaseOutcome) : DecidablePred (CountsAsPass o) := fun primary => by
  unfold CountsAsPass
  cases primary <;> infer_instance

/-- The case is one of those that `pass@1` is taken over. -/
def Scored (o : CaseOutcome) : Option String → Prop
  | none => o.errored = false
  | some grader => (o.passAt1ForGrader grader).isSome

instance (o : CaseOutcome) : DecidablePred (Scored o) := fun primary => by
  unfold Scored
  cases primary <;> infer_instance

theorem passAt1_eq_one_iff (o : CaseOutcome) :
    o.passAt1 = 1 ↔ o.perRepetitionLabel.head? = some .pass := by
  unfold CaseOutcome.passAt1
  split_ifs with h <;> simp [h]

theorem passAt1ForGrader_eq_one_iff (o : CaseOutcome) (grader : String) :
    o.passAt1ForGrader grader = some 1 ↔
      (o.perGraderLabel.get? grader).bind List.head? = some .pass := by
  unfold CaseOutcome.passAt1ForGrader
  rcases o.perGraderLabel.get? grader with _ | _ | ⟨label, rest⟩
  · simp
  · simp
  · dsimp only [Option.bind_some, List.head?_cons]
    split_ifs with h <;> simp [h]

theorem isSome_passAt1ForGrader_iff (o : CaseOutcome) (grader : String) :
    (o.passAt1ForGrader grader).isSome ↔
      ((o.perGraderLabel.get? grader).bind List.head?).isSome := by
  unfold CaseOutcome.passAt1ForGrader
  rcases o.perGraderLabel.get? grader with _ | _ | ⟨label, rest⟩ <;> simp

/-- **`pass@1` is the share of the scored cases that count as a pass.** -/
theorem computeMetric_passAt1 (outcomes : List CaseOutcome) (primaryGrader : Option String) :
    computeMetric "pass@1" outcomes primaryGrader = .ok
      ((outcomes.countP fun o => CountsAsPass o primaryGrader) /
        (outcomes.countP fun o => Scored o primaryGrader)) := by
  by_cases hempty : outcomes = []
  · subst hempty
    cases primaryGrader <;> simp [computeMetric]
  have hne : outcomes.isEmpty = false := by simpa using hempty
  cases primaryGrader with
  | none =>
    -- a case that is not scored does not pass
    have hsum : (((outcomes.filter fun o => !o.errored).map (·.passAt1)).sum : ℚ) =
        outcomes.countP fun o => CountsAsPass o none := by
      clear hempty hne
      induction outcomes with
      | nil => simp
      | cons o outcomes ih =>
        have hpass : (CountsAsPass o none : Prop) ↔ o.perRepetitionLabel.head? = some .pass :=
          passAt1_eq_one_iff o
        rw [List.countP_cons, Nat.cast_add, ← ih]
        by_cases herror : o.errored
        · have hnot : ¬CountsAsPass o none := by
            rw [hpass, beq_iff_eq.mp herror]
            simp
          rw [List.filter_cons_of_neg
            (by simp [herror]), if_neg (by simpa using hnot), Nat.cast_zero,
            add_zero]
        · rw [List.filter_cons_of_pos (by simp [herror]), List.map_cons, List.sum_cons, add_comm]
          congr 1
          unfold CaseOutcome.passAt1
          by_cases h : o.perRepetitionLabel.head? = some .pass
          · rw [if_pos h, if_pos (by simpa using hpass.mpr h), Nat.cast_one]
          · rw [if_neg h, if_neg (by simpa using fun hc => h (hpass.mp hc)), Nat.cast_zero]
    have hscored : (outcomes.filter fun o => !o.errored).length =
        outcomes.countP fun o => Scored o none := by
      rw [← List.countP_eq_length_filter]
      refine List.countP_congr fun o _ => ?_
      show (!o.errored) = true ↔ decide (o.errored = false) = true
      simp
    unfold computeMetric
    rw [hne, if_neg Bool.false_ne_true, Option.filter_none]
    dsimp only
    rw [if_pos rfl, ← hsum, ← hscored, mean, List.length_map]
    split_ifs with hnil
    · rw [List.isEmpty_iff.mp hnil]
      simp
    · rfl
  | some grader =>
    have hwindow : ∀ o : CaseOutcome, ((o.perGraderLabel.get? grader).filter (!·.isEmpty)).isSome ↔
        Scored o (some grader) := by
      intro o
      show _ ↔ (o.passAt1ForGrader grader).isSome
      unfold CaseOutcome.passAt1ForGrader
      rcases o.perGraderLabel.get? grader with _ | _ | ⟨label, rest⟩ <;> simp
    have hpass : ∀ o : CaseOutcome, (((o.perGraderLabel.get? grader).filter (!·.isEmpty)).map
        fun w => w.head? == some .pass).getD false ↔ CountsAsPass o (some grader) := by
      intro o
      refine Iff.trans ?_ (passAt1ForGrader_eq_one_iff o grader).symm
      rcases o.perGraderLabel.get? grader with _ | _ | ⟨label, rest⟩ <;> simp [Option.filter]
    have hlength :
      (windowsOf grader outcomes).length = outcomes.countP fun o => Scored o (some grader) := by
      rw [windowsOf, List.length_filterMap_eq_countP]
      exact List.countP_congr fun o _ => by rw [hwindow]; simp
    have hcount : (windowsOf grader outcomes).countP (fun w => w.head? == some .pass) =
        outcomes.countP fun o => CountsAsPass o (some grader) := by
      rw [windowsOf, List.countP_filterMap]
      exact List.countP_congr fun o _ => by rw [hpass]; simp
    rw [computeMetric_some (by decide) hempty, computePassMetricForGrader_eq, ← hlength, ← hcount,
      if_pos rfl]
    split_ifs with hnil
    · rw [List.isEmpty_iff.mp hnil]
      simp
    · rfl

end Selfevals.Optimization.PassMetrics
