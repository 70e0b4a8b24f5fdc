import Selfevals.Optimization.CaseOutcomes
import Selfevals.Optimization.PassMetrics

/-!
# Naming the only grader

Where one grader grades every repetition, a pass metric over that grader's labels is to be what it
is without a primary grader. The two differ where a repetition counts as ERROR: without a primary
grader `pass@1` leaves out the cases that start with one, and a repetition whose execution failed
does not pass, whatever the grader says.
-/

namespace Selfevals.Optimization.PrimaryGrader

open Lib.Mapping Lib.PyInt Graders.Base Schemas.Experiments Optimization.Aggregator
  Optimization.CaseOutcomes Optimization.PassMetrics

/-! ### Verdicts -/

/-- Whether the execution of a repetition failed, and the label that its grader gives. -/
structure Verdict where
  errored : Bool
  label : GradeLabel
deriving DecidableEq, Repr

/-- The label of the repetition. -/
def Verdict.effective (v : Verdict) : GradeLabel := if v.errored then .error else v.label

theorem Verdict.effective_eq_pass_iff {v : Verdict} :
    v.effective = .pass ↔ v.errored = false ∧ v.label = .pass := by
  unfold effective
  cases v.errored <;> simp

/-- A case that was run and graded; a list has no more than `sys.maxsize` items. -/
structure GradedCase where
  case : EvalCase
  repetitions : List RepetitionResult
  gradesPerRep : List (List GradeResult)
  length_lt : gradesPerRep.length < 2 ^ 63

namespace GradedCase

/-- The outcome of the case. -/
def outcome (c : GradedCase) : CaseOutcome := outcomeFor c.case c.repetitions c.gradesPerRep

/-- Every repetition has one grade, which this grader signs. -/
def OnlyGrader (g : String) (c : GradedCase) : Prop :=
  ∀ grades ∈ c.gradesPerRep, grades.map (·.grader) = [g]

/-- The verdicts of each repetition. -/
def verdicts (c : GradedCase) : List Verdict :=
  c.gradesPerRep.mapIdx fun idx grades =>
    ⟨(c.repetitions.map fun rep => rep.error.isSome).getD idx false,
      pickLabel (grades.map (·.label))⟩

theorem length_verdicts (c : GradedCase) :
    c.verdicts.length = c.gradesPerRep.length := List.length_mapIdx

theorem perRepetitionLabel_outcome (c : GradedCase) :
    c.outcome.perRepetitionLabel = c.verdicts.map (·.effective) := by
  refine List.ext_getElem? fun idx => ?_
  simp only [outcome, outcomeFor, repetitionLabels, verdicts, List.getElem?_map,
    List.getElem?_mapIdx,
    Option.map_map]
  rfl

theorem signed_eq {g : String} {gradesPerRep : List (List GradeResult)}
    (h : ∀ grades ∈ gradesPerRep, grades.map (·.grader) = [g]) :
    (gradesPerRep.flatten.filter fun r => r.grader = g).map (·.label) =
      gradesPerRep.map fun grades => pickLabel (grades.map (·.label)) := by
  induction gradesPerRep with
  | nil => rfl
  | cons grades rest ih =>
    obtain ⟨hgrades, hrest⟩ := List.forall_mem_cons.mp h
    obtain ⟨r, rfl, hr⟩ := List.map_eq_singleton_iff.mp hgrades
    rw [List.flatten_cons, List.filter_append, List.map_append, ih hrest, List.map_cons]
    simp [hr, pickLabel]

theorem get?_perGraderLabel_outcome {g : String} {c : GradedCase} (h : c.OnlyGrader g) :
    c.outcome.perGraderLabel.get? g =
      if c.verdicts = [] then none else some (c.verdicts.map (·.label)) := by
  have hlabels : c.verdicts.map (·.label) =
      c.gradesPerRep.map fun grades => pickLabel (grades.map (·.label)) := by
    refine List.ext_getElem? fun idx => ?_
    simp only [verdicts, List.getElem?_map, List.getElem?_mapIdx, Option.map_map]
    rfl
  rw [outcome, get?_perGraderLabel, signed_eq h, ← hlabels]
  simp only [List.map_eq_nil_iff]

end GradedCase

/-! ### The two ways to score -/

section Scores
variable {cases : List GradedCase} {g : String}

/-- The verdicts of the cases, and of those that were run. -/
def verdictLists (cases : List GradedCase) : List (List Verdict) := cases.map (·.verdicts)

def ran (lists : List (List Verdict)) : List (List Verdict) := lists.filter (· ≠ [])

theorem windowsOf_outcomes (h : ∀ c ∈ cases, c.OnlyGrader g) :
    windowsOf g (cases.map (·.outcome)) = (ran (verdictLists cases)).map fun vs =>
      vs.map (·.label) := by
  induction cases with
  | nil => rfl
  | cons c cases ih =>
    obtain ⟨hc, hcases⟩ := List.forall_mem_cons.mp h
    have htail := ih hcases
    unfold windowsOf verdictLists ran at htail ⊢
    rw [List.map_cons, List.filterMap_cons, GradedCase.get?_perGraderLabel_outcome hc, htail]
    by_cases hnil : c.verdicts = []
    · simp [hnil]
    · simp [hnil, Option.filter]

/-- A pass metric: what it asks of the labels of a case. -/
inductive PassKind
  | first
  | any (k : ℤ)
  | all (k : ℤ)

namespace PassKind

/-- The metric that a name stands for. -/
def Of (name : String) : PassKind → Prop
  | .first => name = "pass@1"
  | .any k => name ≠ "pass@1" ∧ passAtK name = some k
  | .all k => Experiment.passHatK name = some k

/-- What a metric asks of the labels. -/
def test : PassKind → List GradeLabel → Bool
  | .first, labels => labels.head? == some .pass
  | .any k, labels => passInFirst k labels
  | .all k, labels => allPassInFirst k labels

/-- With the primary grader. -/
def scoreByGrader (kind : PassKind) (lists : List (List Verdict)) : ℚ :=
  share (fun vs => kind.test (vs.map (·.label))) (ran lists)

/-- Without a primary grader. -/
def scoreByWorst (kind : PassKind) (lists : List (List Verdict)) : ℚ :=
  match kind with
  | .first =>
    lists.countP (fun vs => test .first (vs.map (·.effective))) /
      lists.countP fun vs => (vs.map (·.effective)).head? != some .error
  | .any k => share (fun vs => test (.any k) (vs.map (·.effective))) lists
  | .all k => share (fun vs => test (.all k) (vs.map (·.effective))) lists

/-- Naming the grader does not change the metric. -/
def Same (kind : PassKind) (lists : List (List Verdict)) : Prop :=
  kind.scoreByGrader lists = kind.scoreByWorst lists

theorem exists_of {name : String} (hname : PassMetric name) : ∃ kind : PassKind, kind.Of name := by
  by_cases hone : name = "pass@1"
  · exact ⟨.first, hone⟩
  · obtain ⟨k, -, -, hk, -⟩ | ⟨k, -, -, -, -, hk⟩ := hname.cases
    · exact ⟨.any k, hone, hk⟩
    · exact ⟨.all k, hk⟩

end PassKind

theorem share_map {α β : Type} (f : α → β) (p : β → Bool) (xs : List α) :
    share p (xs.map f) = share (fun x => p (f x)) xs := by
  rw [share, List.countP_map, List.length_map]
  rfl

theorem PassKind.Of.read {kind : PassKind} {name : String} (hkind : kind.Of name)
    (hname : PassMetric name) :
    (kind = .first ∧ name = "pass@1") ∨
      (∃ k, kind = .any k ∧ name ≠ "pass@1" ∧ startsWith "pass@" name ∧
        repetitionBound '@' name = .ok k) ∨
      ∃ k, kind = .all k ∧ name ≠ "pass@1" ∧ ¬startsWith "pass@" name ∧ startsWith "pass^" name ∧
        repetitionBound '^' name = .ok k := by
  cases kind with
  | first => exact .inl ⟨rfl, hkind⟩
  | any k =>
    obtain ⟨hneq, hk⟩ := hkind
    obtain ⟨k', hat, hbound, hk', -⟩ | ⟨k', -, -, -, hnone, -⟩ := hname.cases
    · obtain rfl : k' = k := Option.some.inj (hk'.symm.trans hk)
      exact .inr (.inl ⟨k', rfl, hneq, hat, hbound⟩)
    · cases hk.symm.trans hnone
  | all k =>
    obtain ⟨k', -, -, -, hnone⟩ | ⟨k', hat, hhat, hbound, -, hk'⟩ := hname.cases
    · cases Eq.trans (Eq.symm hkind) hnone
    · obtain rfl : k' = k := Option.some.inj (hk'.symm.trans hkind)
      have hneq : name ≠ "pass@1" := fun heq => hat (by rw [heq]; decide)
      exact .inr (.inr ⟨k', rfl, hneq, hat, hhat, hbound⟩)

theorem computeMetric_grader {name : String} {kind : PassKind} (hkind : kind.Of name)
    (hname : PassMetric name) (hne : cases ≠ []) (h : ∀ c ∈ cases, c.OnlyGrader g) :
    computeMetric name (cases.map (·.outcome)) (some g) =
      .ok (kind.scoreByGrader (verdictLists cases)) := by
  rw [computeMetric_some hname
    (by simpa using hne), computePassMetricForGrader_eq, windowsOf_outcomes h,
    PassKind.scoreByGrader]
  by_cases hnil : ran (verdictLists cases) = []
  · simp [hnil, share]
  have hempty : ((ran (verdictLists cases)).map fun vs => vs.map (·.label)).isEmpty = false := by
    simpa using hnil
  rw [hempty, if_neg Bool.false_ne_true]
  obtain ⟨rfl, hone⟩ | ⟨k, rfl, hneq, hat, hbound⟩ | ⟨k, rfl, hneq, hat, -, hbound⟩ :=
    hkind.read hname
  · rw [if_pos hone, share_map]
    rfl
  · rw [if_neg hneq, if_pos hat, hbound, Except.map, share_map]
    rfl
  · rw [if_neg hneq, if_neg hat, hbound, Except.map, share_map]
    rfl

theorem computeMetric_worst {name : String} {kind : PassKind} (hkind : kind.Of name)
    (hname : PassMetric name) (hne : cases ≠ []) :
    computeMetric name (cases.map (·.outcome)) none =
      .ok (kind.scoreByWorst (verdictLists cases)) := by
  have hlabels : ∀ p : List GradeLabel → Bool,
      share (fun o : CaseOutcome => p o.perRepetitionLabel) (cases.map (·.outcome)) =
        share (fun vs => p (vs.map (·.effective))) (verdictLists cases) := by
    intro p
    rw [verdictLists, share_map, share_map]
    simp only [GradedCase.perRepetitionLabel_outcome]
  have hempty : (cases.map (·.outcome)).isEmpty = false := by simpa using hne
  obtain ⟨rfl, hone⟩ | ⟨k, rfl, hneq, hat, hbound⟩ | ⟨k, rfl, hneq, hat, hhat, hbound⟩ :=
    hkind.read hname
  · have hpass : (cases.map (·.outcome)).countP (fun o => CountsAsPass o none) =
        (verdictLists cases).countP fun vs => PassKind.test .first (vs.map (·.effective)) := by
      rw [verdictLists, List.countP_map, List.countP_map]
      refine List.countP_congr fun c _ => ?_
      rw [Function.comp, Function.comp, ← GradedCase.perRepetitionLabel_outcome, decide_eq_true_iff]
      exact (passAt1_eq_one_iff c.outcome).trans beq_iff_eq.symm
    have hscored : (cases.map (·.outcome)).countP (fun o => Scored o none) =
        (verdictLists cases).countP fun vs => (vs.map (·.effective)).head? != some .error := by
      rw [verdictLists, List.countP_map, List.countP_map]
      refine List.countP_congr fun c _ => ?_
      rw [Function.comp, Function.comp, ← GradedCase.perRepetitionLabel_outcome, decide_eq_true_iff]
      exact (Eq.to_iff (Bool.not_eq_true' _)).symm
    rw [hone, computeMetric_passAt1, PassKind.scoreByWorst, hpass, hscored]
  · unfold computeMetric
    rw [hempty, if_neg Bool.false_ne_true, Option.filter_none]
    dsimp only
    rw [if_neg hneq, if_pos hat, hbound, Except.map, hlabels (passInFirst k)]
    rfl
  · unfold computeMetric
    rw [hempty, if_neg Bool.false_ne_true, Option.filter_none]
    dsimp only
    have hwindow : ∀ labels : List GradeLabel, (decide (k ≤ (sliceTo k labels).length) &&
        (sliceTo k labels).all (· == .pass)) = allPassInFirst k labels := by
      intro labels
      rw [length_sliceTo, allPassInFirst, decide_eq_decide.mpr le_sliceLength_iff]
    rw [if_neg hneq, if_neg hat, if_pos hhat, hbound, Except.map]
    simp only [hwindow]
    rw [hlabels (allPassInFirst k)]
    rfl

end Scores

/-! ### When the two agree -/

/-- A repetition that failed although its grader gives it PASS comes after one that passes, and
after one to which the grader does not give PASS. -/
def Unmasked (vs : List Verdict) : Prop :=
  ∀ j : ℕ, ∀ v, vs[j]? = some v → v.errored = true → v.label = .pass →
    (∃ u ∈ vs.take j, u.effective = .pass) ∧ ∃ u ∈ vs.take j, u.label ≠ .pass

/-- The verdicts score alike with the grader's name and without. -/
structure Agrees (lists : List (List Verdict)) : Prop where
  unmasked : ∀ vs ∈ lists, Unmasked vs
  /-- No case starts with an error, or none with a pass. -/
  scored : (∀ vs ∈ lists, ∀ v ∈ vs.head?, v.effective ≠ .error) ∨
    ∀ vs ∈ lists, ∀ v ∈ vs.head?, v.effective ≠ .pass
  /-- Every case was run; or there are others, each with one repetition, and the grader passes none.
  -/
  ran : (∀ vs ∈ lists, vs ≠ []) ∨ (∃ vs ∈ lists, vs ≠ []) ∧
    ∀ vs ∈ lists, vs.length ≤ 1 ∧ ∀ v ∈ vs, v.label ≠ .pass

/-! ### Prefixes -/

section Prefixes
variable {vs : List Verdict}

theorem label_of_effective {v : Verdict} (h : v.effective = .pass) : v.label = .pass :=
  (Verdict.effective_eq_pass_iff.mp h).2

theorem Unmasked.any (h : Unmasked vs) {p : ℕ} (hpass : ∃ v ∈ vs.take p, v.label = .pass) :
    ∃ v ∈ vs.take p, v.effective = .pass := by
  obtain ⟨v, hv, hlabel⟩ := hpass
  obtain ⟨j, hj, hget⟩ := List.mem_take_iff_getElem.mp hv
  by_cases herrored : v.errored = true
  · obtain ⟨⟨u, hu, hu'⟩, -⟩ := h j v (List.getElem?_eq_some_iff.mpr ⟨_, hget⟩) herrored hlabel
    exact ⟨u, (List.take_prefix_take_left (by omega)).subset hu, hu'⟩
  · exact ⟨v, hv, Verdict.effective_eq_pass_iff.mpr ⟨by simpa using herrored, hlabel⟩⟩

theorem Unmasked.all (h : Unmasked vs) {p : ℕ} (hpass : ∀ v ∈ vs.take p, v.label = .pass) :
    ∀ v ∈ vs.take p, v.effective = .pass := by
  intro v hv
  obtain ⟨j, hj, hget⟩ := List.mem_take_iff_getElem.mp hv
  by_cases herrored : v.errored = true
  · obtain ⟨-, u, hu, hu'⟩ := h j v (List.getElem?_eq_some_iff.mpr ⟨_, hget⟩) herrored (hpass v hv)
    exact absurd (hpass u ((List.take_prefix_take_left (by omega)).subset hu)) hu'
  · exact Verdict.effective_eq_pass_iff.mpr ⟨by simpa using herrored, hpass v hv⟩

theorem unmasked_of_prefixes
    (hall : ∀ p : ℕ, 1 ≤ p → p ≤ vs.length → (∀ v ∈ vs.take p, v.label = .pass) →
      ∀ v ∈ vs.take p, v.effective = .pass)
    (hany : ∀ p : ℕ, 2 ≤ p → p ≤ vs.length → (∃ v ∈ vs.take p, v.label = .pass) →
      ∃ v ∈ vs.take p, v.effective = .pass) : Unmasked vs := by
  intro j v hget herrored hlabel
  have hlt : j < vs.length := (List.getElem?_eq_some_iff.mp hget).1
  have htake : vs.take (j + 1) = vs.take j ++ [v] := by rw [List.take_add_one, hget]; rfl
  have hnot : v.effective ≠ .pass := by simp [Verdict.effective, herrored]
  have hbefore : ∃ u ∈ vs.take j, u.label ≠ .pass := by
    by_contra hnone
    push Not at hnone
    refine hnot (hall (j + 1) (Nat.succ_pos j) hlt (fun u hu => ?_) v (by simp [htake]))
    rw [htake, List.mem_append, List.mem_singleton] at hu
    obtain hu | rfl := hu
    · exact hnone u hu
    · exact hlabel
  refine ⟨?_, hbefore⟩
  have hpos : 1 ≤ j := by
    obtain ⟨u, hu, -⟩ := hbefore
    by_contra hzero
    obtain rfl : j = 0 := by omega
    cases hu
  obtain ⟨u, hu, hpass⟩ := hany (j + 1) (by omega) hlt ⟨v, by simp [htake], hlabel⟩
  rw [htake, List.mem_append, List.mem_singleton] at hu
  obtain hu | rfl := hu
  · exact ⟨u, hu, hpass⟩
  · exact absurd hpass hnot

theorem sliceTo_eq_take {α : Type} (k : ℤ) (xs : List α) :
    sliceTo k xs = xs.take (sliceLength k xs.length) := by
  unfold sliceTo sliceLength
  split_ifs
  · exact List.take_eq_take_min
  · rfl

theorem test_first_iff {f : Verdict → GradeLabel} :
    PassKind.test .first (vs.map f) = true ↔ ∃ v ∈ vs.take 1, f v = .pass := by
  cases vs <;> simp [PassKind.test]

theorem test_any_iff {k : ℤ} {f : Verdict → GradeLabel} :
    PassKind.test (.any k) (vs.map f) = true ↔
      ∃ v ∈ vs.take (sliceLength k vs.length), f v = .pass := by
  rw [PassKind.test, passInFirst, sliceTo_eq_take, List.length_map, ← List.map_take,
    List.contains_iff_mem, List.mem_map]

theorem test_all_iff {k : ℤ} {f : Verdict → GradeLabel} :
    PassKind.test (.all k) (vs.map f) = true ↔
      k ≤ vs.length ∧ ∀ v ∈ vs.take (sliceLength k vs.length), f v = .pass := by
  rw [PassKind.test, allPassInFirst, sliceTo_eq_take, List.length_map, ← List.map_take,
    Bool.and_eq_true,
    decide_eq_true_iff, List.all_map, List.all_eq_true]
  simp only [Function.comp_apply, beq_iff_eq]

end Prefixes

/-! ### Counts -/

section Counts
variable {α : Type} {p q : α → Bool} {xs : List α}

theorem share_congr (h : ∀ x ∈ xs, p x = true ↔ q x = true) : share p xs = share q xs := by
  rw [share, share, List.countP_congr h]

theorem share_eq_zero (h : ∀ x ∈ xs, p x = false) : share p xs = 0 := by
  rw [share, List.countP_eq_zero.mpr (by simpa using h), Nat.cast_zero, zero_div]

theorem share_eq_one_sub (hne : xs ≠ []) (h : ∀ x ∈ xs, p x = true ↔ ¬q x = true) :
    share p xs = 1 - (xs.countP q : ℚ) / xs.length := by
  have hpos : (xs.length : ℚ) ≠ 0 := by simpa using hne
  have hcount : (xs.countP q : ℚ) + xs.countP p = xs.length := by
    have hrest : xs.countP (fun x => decide ¬q x = true) = xs.countP p :=
      List.countP_congr fun x hx => by rw [decide_eq_true_iff, h x hx]
    rw [← hrest]
    exact_mod_cast (List.length_eq_countP_add_countP q).symm
  rw [share, eq_sub_iff_add_eq, ← add_div, add_comm, hcount, div_self hpos]

theorem countP_eq_of_share (hne : xs ≠ []) (h : share p xs = share q xs) :
    xs.countP p = xs.countP q := by
  have hpos : (xs.length : ℚ) ≠ 0 := by simpa using hne
  exact_mod_cast (div_left_inj' hpos).mp h

theorem imp_of_countP_eq (himp : ∀ x ∈ xs, p x = true → q x = true)
    (h : xs.countP p = xs.countP q) :
    ∀ x ∈ xs, q x = true → p x = true := by
  induction xs with
  | nil => exact fun x hx => absurd hx List.not_mem_nil
  | cons y ys ih =>
    obtain ⟨hy, hys⟩ := List.forall_mem_cons.mp himp
    have hle : ys.countP p ≤ ys.countP q := List.countP_mono_left hys
    rw [List.countP_cons, List.countP_cons] at h
    have hhead : q y = true → p y = true := by
      intro hq
      by_contra hp
      rw [if_pos hq, if_neg hp] at h
      omega
    have htail : ys.countP p = ys.countP q := by
      by_cases hp : p y = true
      · rw [if_pos hp, if_pos (hy hp)] at h
        omega
      · rw [if_neg hp, if_neg (mt hhead hp)] at h
        omega
    exact List.forall_mem_cons.mpr ⟨hhead, ih hys htail⟩

theorem eq_zero_of_div_eq {a b n m : ℕ} (hab : a ≤ b) (hmn : m < n) (hm : 0 < m)
    (h : (b : ℚ) / m = a / n) : b = 0 := by
  by_contra hb
  have hb' : (0 : ℚ) < b := by exact_mod_cast Nat.pos_of_ne_zero hb
  have hm' : (0 : ℚ) < m := by exact_mod_cast hm
  have hmn' : (m : ℚ) < n := by exact_mod_cast hmn
  have hab' : (a : ℚ) ≤ b := by exact_mod_cast hab
  have hlt : (a : ℚ) / n < b / m := calc
    (a : ℚ) / n ≤ b / n := by gcongr
    _ < b / m := by gcongr
  exact absurd h hlt.ne'

end Counts

/-! ### Names -/

theorem exists_intStr {k : ℤ} (hk : k.natAbs ≤ 2 ^ 63) : ∃ digits, intStr k = some digits := by
  have hlt : k.natAbs < 10 ^ maxDigits := calc
    k.natAbs ≤ 2 ^ 63 := hk
    _ < 10 ^ 19 := by norm_num
    _ ≤ 10 ^ maxDigits := Nat.pow_le_pow_right (by norm_num) (by decide)
  have hlength : ¬maxDigits < (Nat.toDigits 10 k.natAbs).length :=
    not_lt.mpr (Nat.toDigits_length 10 _ _ (by decide) hlt)
  exact ⟨_, if_neg hlength⟩

theorem startsWith_append (start rest : String) : startsWith start (start ++ rest) = true := by
  rw [startsWith, String.toList_append, List.isPrefixOf_iff_prefix]
  exact List.prefix_append _ _

theorem exists_name_any {k : ℤ} (hk : k ≠ 1) (hlt : k.natAbs ≤ 2 ^ 63) :
    ∃ name, PassMetric name ∧ (PassKind.any k).Of name := by
  obtain ⟨digits, hdigits⟩ := exists_intStr hlt
  have hafter : afterFirst '@' ("pass@" ++ digits) = digits := by
    rw [afterFirst, String.toList_append]
    simp [List.dropWhile]
  have hread : passAtK ("pass@" ++ digits) = some k := by
    rw [passAtK, if_pos (startsWith_append _ _), hafter, parseInt_of_intStr hdigits]
  refine ⟨"pass@" ++ digits, .inl (by rw [hread]; rfl), fun heq => hk ?_, hread⟩
  rw [heq] at hread
  exact (Option.some.inj hread).symm

theorem exists_name_all {k : ℤ} (hlt : k.natAbs ≤ 2 ^ 63) :
    ∃ name, PassMetric name ∧ (PassKind.all k).Of name := by
  obtain ⟨digits, hdigits⟩ := exists_intStr hlt
  have hafter : afterFirst '^' ("pass^" ++ digits) = digits := by
    rw [afterFirst, String.toList_append]
    simp [List.dropWhile]
  have hread : Experiment.passHatK ("pass^" ++ digits) = some k := by
    rw [passHatK_of_startsWith (startsWith_append _ _), hafter, parseInt_of_intStr hdigits]
  exact ⟨"pass^" ++ digits, .inr (by rw [hread]; rfl), hread⟩

/-! ### The metrics agree where the verdicts do -/

section Agreement
variable {lists : List (List Verdict)}

theorem ran_of_forall (h : ∀ vs ∈ lists, vs ≠ []) : ran lists = lists :=
  List.filter_eq_self.mpr fun vs hvs => by simpa using h vs hvs

theorem same_of_run (hrun : ∀ vs ∈ lists, vs ≠ []) (hunmasked : ∀ vs ∈ lists, Unmasked vs)
    (hscored : (∀ vs ∈ lists, ∀ v ∈ vs.head?, v.effective ≠ .error) ∨
      ∀ vs ∈ lists, ∀ v ∈ vs.head?, v.effective ≠ .pass) (kind : PassKind) : kind.Same lists := by
  have htest : ∀ vs ∈ lists, kind.test (vs.map (·.label)) = true ↔
      kind.test (vs.map (·.effective)) = true := by
    intro vs hvs
    have h := hunmasked vs hvs
    cases kind with
    | first =>
      rw [test_first_iff, test_first_iff]
      exact ⟨h.any, fun ⟨v, hv, hpass⟩ => ⟨v, hv, label_of_effective hpass⟩⟩
    | any k =>
      rw [test_any_iff, test_any_iff]
      exact ⟨h.any, fun ⟨v, hv, hpass⟩ => ⟨v, hv, label_of_effective hpass⟩⟩
    | all k =>
      rw [test_all_iff, test_all_iff]
      exact and_congr_right fun _ => ⟨h.all, fun hpass v hv => label_of_effective (hpass v hv)⟩
  rw [PassKind.Same, PassKind.scoreByGrader, ran_of_forall hrun, share_congr htest]
  cases kind with
  | any k => rfl
  | all k => rfl
  | first =>
    rw [PassKind.scoreByWorst, share]
    obtain hscored | hscored := hscored
    · have hall : lists.countP (fun vs => (vs.map (·.effective)).head? != some .error) =
        lists.length := by
        refine List.countP_eq_length.mpr fun vs hvs => ?_
        have h := hscored vs hvs
        cases vs <;> simp_all
      rw [hall]
    · have hnone : lists.countP (fun vs => PassKind.test .first (vs.map (·.effective))) = 0 := by
        refine List.countP_eq_zero.mpr fun vs hvs => ?_
        have h := hscored vs hvs
        cases vs <;> simp_all [PassKind.test]
      rw [hnone, Nat.cast_zero, zero_div, zero_div]

/-- Where there are cases that were not run, and the others have one repetition that does not pass.
-/
theorem same_of_single (hrun : ∃ vs ∈ lists, vs ≠ [])
    (hsingle : ∀ vs ∈ lists, vs.length ≤ 1 ∧ ∀ v ∈ vs, v.label ≠ .pass) (kind : PassKind) :
    kind.Same lists := by
  have hlabel : ∀ vs ∈ lists, ∀ p, ¬∃ v ∈ vs.take p, v.label = .pass :=
    fun vs hvs p ⟨v, hv, hpass⟩ => (hsingle vs hvs).2 v (List.mem_of_mem_take hv) hpass
  have heffective : ∀ vs ∈ lists, ∀ p, ¬∃ v ∈ vs.take p, v.effective = .pass :=
    fun vs hvs p ⟨v, hv, hpass⟩ => hlabel vs hvs p ⟨v, hv, label_of_effective hpass⟩
  have hran : ∀ vs ∈ ran lists, vs ∈ lists := fun vs hvs => List.mem_of_mem_filter hvs
  rw [PassKind.Same, PassKind.scoreByGrader]
  cases kind with
  | first =>
    have hzero : lists.countP (fun vs => PassKind.test .first (vs.map (·.effective))) = 0 :=
      List.countP_eq_zero.mpr fun vs hvs => mt test_first_iff.mp (heffective vs hvs 1)
    rw [share_eq_zero fun vs hvs =>
      Bool.eq_false_iff.mpr (mt test_first_iff.mp (hlabel vs (hran vs hvs) 1)),
      PassKind.scoreByWorst, hzero, Nat.cast_zero, zero_div]
  | any k =>
    rw [PassKind.scoreByWorst,
      share_eq_zero fun vs hvs =>
        Bool.eq_false_iff.mpr (mt test_any_iff.mp (hlabel vs (hran vs hvs) _)),
      share_eq_zero fun vs hvs => Bool.eq_false_iff.mpr (mt test_any_iff.mp (heffective vs hvs _))]
  | all k =>
    -- the bound is positive and nothing passes, or it leaves nothing to look at
    by_cases hk : 0 < k
    · have hfirst : ∀ f : Verdict → GradeLabel, ∀ vs : List Verdict,
          PassKind.test (.all k) (vs.map f) = true → ∃ v ∈ vs.take 1, f v = .pass := by
        intro f vs htest
        obtain ⟨hle, hall⟩ := test_all_iff.mp htest
        cases vs with
        | nil => simp at hle; omega
        | cons v vs =>
          have hpos : 0 < sliceLength k (v :: vs).length := by rw [sliceLength, if_pos hk.le]; omega
          obtain ⟨n, hn⟩ := Nat.exists_eq_succ_of_ne_zero hpos.ne'
          exact ⟨v, by simp, hall v (by rw [hn]; simp)⟩
      rw [PassKind.scoreByWorst,
        share_eq_zero fun vs hvs => Bool.eq_false_iff.mpr fun htest =>
          hlabel vs (hran vs hvs) 1 (hfirst _ vs htest),
        share_eq_zero fun vs hvs => Bool.eq_false_iff.mpr fun htest =>
          heffective vs hvs 1 (hfirst _ vs htest)]
    · have htrue : ∀ f :
        Verdict → GradeLabel, ∀ vs ∈ lists, PassKind.test (.all k) (vs.map f) = true := by
        intro f vs hvs
        have hle := (hsingle vs hvs).1
        have hzero : sliceLength k vs.length = 0 := by
          unfold sliceLength
          split_ifs <;> omega
        rw [test_all_iff, hzero, List.take_zero]
        exact ⟨by omega, fun v hv => absurd hv List.not_mem_nil⟩
      obtain ⟨vs, hvs, hne⟩ := hrun
      have hmem : vs ∈ ran lists := List.mem_filter.mpr ⟨hvs, by simpa using hne⟩
      rw [PassKind.scoreByWorst,
        (share_eq_one_iff (List.ne_nil_of_mem hmem)).mpr fun vs hvs => htrue _ vs (hran vs hvs),
        (share_eq_one_iff (List.ne_nil_of_mem hvs)).mpr fun vs hvs => htrue _ vs hvs]

theorem same_of_agrees (h : Agrees lists) (kind : PassKind) : kind.Same lists := by
  obtain hrun | ⟨hrun, hsingle⟩ := h.ran
  · exact same_of_run hrun h.unmasked h.scored kind
  · exact same_of_single hrun hsingle kind

/-! ### The verdicts agree where the metrics do -/

/-- The metrics with a name. -/
def Named (kind : PassKind) : Prop := ∃ name, PassMetric name ∧ kind.Of name

theorem test_of_same (hne : lists ≠ []) (hrun : ∀ vs ∈ lists, vs ≠ []) {kind : PassKind}
    (hkind : kind ≠ .first) (hsame : kind.Same lists) :
    ∀ vs ∈ lists,
      kind.test (vs.map (·.label)) = true → kind.test (vs.map (·.effective)) = true := by
  have hshare : share (fun vs => kind.test (vs.map (·.effective))) lists =
      share (fun vs => kind.test (vs.map (·.label))) lists := by
    rw [PassKind.Same, PassKind.scoreByGrader, ran_of_forall hrun] at hsame
    cases kind with
    | first => exact absurd rfl hkind
    | any k => exact hsame.symm
    | all k => exact hsame.symm
  refine imp_of_countP_eq (fun vs _ htest => ?_) (countP_eq_of_share hne hshare)
  cases kind with
  | first => exact absurd rfl hkind
  | any k =>
    rw [test_any_iff] at htest ⊢
    obtain ⟨v, hv, hpass⟩ := htest
    exact ⟨v, hv, label_of_effective hpass⟩
  | all k =>
    rw [test_all_iff] at htest ⊢
    exact ⟨htest.1, fun v hv => label_of_effective (htest.2 v hv)⟩

theorem countP_ran {p : List Verdict → Bool} (h : ∀ vs ∈ lists, p vs = true → vs ≠ []) :
    (ran lists).countP p = lists.countP p := by
  rw [ran, List.countP_filter]
  exact List.countP_congr fun vs hvs => by simpa using h vs hvs

theorem sliceLength_nat {p n : ℕ} (h : p ≤ n) : sliceLength p n = p := by
  rw [sliceLength, if_pos (Int.natCast_nonneg p), Int.toNat_natCast, min_eq_left h]

theorem length_ran_lt (hmem : [] ∈ lists) : (ran lists).length < lists.length :=
  List.length_filter_lt_length_iff_exists.mpr ⟨[], hmem, by simp⟩

variable (hsame : ∀ kind, Named kind → kind.Same lists)
include hsame

theorem exists_run_of_same (hmem : [] ∈ lists) : ∃ vs ∈ lists, vs ≠ [] := by
  by_contra hnone
  push Not at hnone
  have hran : ran lists = [] := List.filter_eq_nil_iff.mpr fun vs hvs => by simp [hnone vs hvs]
  have hall := hsame (.all 0) (exists_name_all (by decide))
  rw [PassKind.Same, PassKind.scoreByGrader, hran, PassKind.scoreByWorst,
    (share_eq_one_iff (List.ne_nil_of_mem hmem)).mpr fun vs hvs => by
      rw [hnone vs hvs]; rfl] at hall
  simp [share] at hall

variable (hlength : ∀ vs ∈ lists, vs.length < 2 ^ 63)
include hlength

theorem unmasked_of_same (hne : lists ≠ []) (hrun : ∀ vs ∈ lists, vs ≠ []) :
    ∀ vs ∈ lists, Unmasked vs := by
  intro vs hvs
  have hlt := hlength vs hvs
  refine unmasked_of_prefixes (fun p _ hp hpass => ?_) fun p hpos hp hpass => ?_
  · have htest := test_of_same hne hrun (by simp : PassKind.all p ≠ .first)
      (hsame _ (exists_name_all (by omega))) vs hvs
    rw [test_all_iff, test_all_iff, sliceLength_nat hp] at htest
    exact (htest ⟨by omega, hpass⟩).2
  · have htest := test_of_same hne hrun (by simp : PassKind.any p ≠ .first)
      (hsame _ (exists_name_any (by omega) (by omega))) vs hvs
    rw [test_any_iff, test_any_iff, sliceLength_nat hp] at htest
    exact htest hpass

theorem scored_of_same (hne : lists ≠ []) (hrun : ∀ vs ∈ lists, vs ≠ []) :
    (∀ vs ∈ lists, ∀ v ∈ vs.head?, v.effective ≠ .error) ∨
      ∀ vs ∈ lists, ∀ v ∈ vs.head?, v.effective ≠ .pass := by
  have hunmasked := unmasked_of_same hsame hlength hne hrun
  have hcount : lists.countP (fun vs => PassKind.test .first (vs.map (·.label))) =
      lists.countP fun vs => PassKind.test .first (vs.map (·.effective)) := by
    refine List.countP_congr fun vs hvs => ?_
    rw [test_first_iff, test_first_iff]
    exact ⟨(hunmasked vs hvs).any, fun ⟨v, hv, hpass⟩ => ⟨v, hv, label_of_effective hpass⟩⟩
  have hfirst := hsame .first ⟨"pass@1", .inl (by decide), rfl⟩
  rw [PassKind.Same, PassKind.scoreByGrader, ran_of_forall hrun, PassKind.scoreByWorst, share,
    hcount] at hfirst
  by_cases hzero : lists.countP (fun vs => PassKind.test .first (vs.map (·.effective))) = 0
  · refine .inr fun vs hvs v hv hpass =>
      List.countP_eq_zero.mp hzero vs hvs (test_first_iff.mpr ⟨v, ?_, hpass⟩)
    cases vs <;> simp_all
  · have hpos : (lists.countP (fun vs => PassKind.test .first (vs.map (·.effective))) : ℚ) ≠ 0 := by
      exact_mod_cast hzero
    rw [div_eq_mul_inv, div_eq_mul_inv] at hfirst
    have hall : lists.length = lists.countP fun vs =>
      (vs.map (·.effective)).head? != some .error := by
      exact_mod_cast inv_injective (mul_left_cancel₀ hpos hfirst)
    refine .inl fun vs hvs v hv herror => ?_
    have hscored := List.countP_eq_length.mp hall.symm vs hvs
    cases vs <;> simp_all

theorem label_ne_pass_of_same (hmem : [] ∈ lists) : ∀ vs ∈ lists, ∀ v ∈ vs, v.label ≠ .pass := by
  intro vs hvs v hv hlabel
  obtain ⟨j, hj, hget⟩ := List.mem_iff_getElem.mp hv
  have hlt := hlength vs hvs
  have hkind := hsame (.any (j + 2 : ℕ)) (exists_name_any (by omega) (by omega))
  have hran : (ran lists).countP (fun vs => PassKind.test (.any (j + 2 : ℕ)) (vs.map (·.label))) =
      lists.countP fun vs => PassKind.test (.any (j + 2 : ℕ)) (vs.map (·.label)) :=
    countP_ran fun vs _ htest => by
      obtain ⟨v, hv, -⟩ := test_any_iff.mp htest
      exact List.ne_nil_of_mem (List.mem_of_mem_take hv)
  have hle : lists.countP (fun vs => PassKind.test (.any (j + 2 : ℕ)) (vs.map (·.effective))) ≤
      lists.countP fun vs => PassKind.test (.any (j + 2 : ℕ)) (vs.map (·.label)) :=
    List.countP_mono_left fun vs _ htest => by
      obtain ⟨v, hv, hpass⟩ := test_any_iff.mp htest
      exact test_any_iff.mpr ⟨v, hv, label_of_effective hpass⟩
  have hmem' : vs ∈ ran lists := List.mem_filter.mpr ⟨hvs, by simpa using List.ne_nil_of_mem hv⟩
  rw [PassKind.Same, PassKind.scoreByGrader, PassKind.scoreByWorst, share, share, hran] at hkind
  have hzero := eq_zero_of_div_eq hle (length_ran_lt hmem) (List.length_pos_of_mem hmem') hkind
  refine List.countP_eq_zero.mp hzero vs hvs (test_any_iff.mpr ⟨v, ?_, hlabel⟩)
  exact List.mem_take_iff_getElem.mpr ⟨j, by rw [sliceLength, if_pos (by omega)]; omega, hget⟩

theorem length_le_of_same (hmem : [] ∈ lists) : ∀ vs ∈ lists, vs.length ≤ 1 := by
  have hlabel := label_ne_pass_of_same hsame hlength hmem
  -- `pass^-1` leaves out the last repetition
  have htest : ∀ f : Verdict → GradeLabel, (∀ v, f v = .pass → v.label = .pass) → ∀ vs ∈ lists,
      (PassKind.test (.all (-1)) (vs.map f) = true ↔ ¬decide (1 < vs.length) = true) := by
    intro f hf vs hvs
    have hslice : sliceLength (-1) vs.length = vs.length - 1 := if_neg (by decide)
    rw [test_all_iff, hslice, decide_eq_true_iff]
    refine ⟨fun ⟨_, hall⟩ hlong => ?_, fun hshort => ⟨by omega, fun v hv => ?_⟩⟩
    · obtain ⟨v, hv⟩ := List.exists_mem_of_length_pos (l := vs.take (vs.length - 1))
        (by rw [List.length_take]; omega)
      exact hlabel vs hvs v (List.mem_of_mem_take hv) (hf v (hall v hv))
    · have hzero : vs.length - 1 = 0 := by omega
      rw [hzero, List.take_zero] at hv
      cases hv
  have hran : ∀ vs ∈ ran lists, vs ∈ lists := fun vs hvs => List.mem_of_mem_filter hvs
  obtain ⟨run, hrun, hne⟩ := exists_run_of_same hsame hmem
  have hrun' : run ∈ ran lists := List.mem_filter.mpr ⟨hrun, by simpa using hne⟩
  -- both shares are what the longer cases leave
  have hkind := hsame (.all (-1)) (exists_name_all (by decide))
  rw [PassKind.Same, PassKind.scoreByGrader, PassKind.scoreByWorst,
    share_eq_one_sub (List.ne_nil_of_mem hrun') fun vs hvs =>
      htest _ (fun _ h => h) vs (hran vs hvs),
    share_eq_one_sub (List.ne_nil_of_mem hmem) fun vs hvs =>
      htest _ (fun _ => label_of_effective) vs hvs,
    sub_right_inj] at hkind
  have hlong : (ran lists).countP (fun vs => decide (1 < vs.length)) =
      lists.countP fun vs => decide (1 < vs.length) := by
    refine countP_ran fun vs _ h => ?_
    rintro rfl
    simp at h
  rw [hlong] at hkind
  have hzero := eq_zero_of_div_eq le_rfl (length_ran_lt hmem) (List.length_pos_of_mem hrun') hkind
  intro vs hvs
  simpa using List.countP_eq_zero.mp hzero vs hvs

theorem agrees_of_same (hne : lists ≠ []) : Agrees lists := by
  by_cases hrun : ∀ vs ∈ lists, vs ≠ []
  · exact ⟨unmasked_of_same hsame hlength hne hrun, scored_of_same hsame hlength hne hrun,
      .inl hrun⟩
  · have hmem : [] ∈ lists := by simpa using hrun
    have hlabel := label_ne_pass_of_same hsame hlength hmem
    refine ⟨fun vs hvs j v hget _ hpass => ?_, .inr fun vs hvs v hv hpass => ?_,
      .inr ⟨?_, fun vs hvs => ?_⟩⟩
    · exact absurd hpass (hlabel vs hvs v (List.mem_of_getElem? hget))
    · exact hlabel vs hvs v (List.mem_of_head? hv) (label_of_effective hpass)
    · exact exists_run_of_same hsame hmem
    · exact ⟨length_le_of_same hsame hlength hmem vs hvs, hlabel vs hvs⟩

end Agreement

/-! ### Naming the only grader -/

/-- **Naming the only grader changes no metric** exactly where the verdicts agree. A name that
starts as one of the pass metrics is to be one. -/
theorem primaryGrader_agrees_iff (g : String) (cases : List GradedCase)
    (h : ∀ c ∈ cases, c.OnlyGrader g) :
    (∀ metric : String,
      (startsWith "pass@" metric ∨ startsWith "pass^" metric → PassMetric metric) →
        computeMetric metric (cases.map (·.outcome)) (some g) =
          computeMetric metric (cases.map (·.outcome)) none) ↔
      Agrees (verdictLists cases) := by
  by_cases hne : cases = []
  · subst hne
    refine iff_of_true (fun metric _ => rfl) ⟨?_, .inl ?_, .inl ?_⟩ <;> simp [verdictLists]
  constructor
  · intro hall
    refine agrees_of_same (fun kind ⟨name, hname, hkind⟩ =>
      ?_) ?_ (by simpa [verdictLists] using hne)
    · have hsame := hall name fun _ => hname
      rw [computeMetric_grader hkind hname hne h, computeMetric_worst hkind hname hne] at hsame
      exact Except.ok.inj hsame
    · intro vs hvs
      obtain ⟨c, -, rfl⟩ := List.mem_map.mp hvs
      rw [c.length_verdicts]
      exact c.length_lt
  · intro hagrees metric hmetric
    by_cases hpass : startsWith "pass@" metric ∨ startsWith "pass^" metric
    · have hname := hmetric hpass
      obtain ⟨kind, hkind⟩ := PassKind.exists_of hname
      rw [computeMetric_grader hkind hname hne h, computeMetric_worst hkind hname hne]
      exact congrArg Except.ok (same_of_agrees hagrees kind)
    · -- another metric does not look at the primary grader
      push Not at hpass
      have hone : metric ≠ "pass@1" := by
        rintro rfl
        exact hpass.1 (by decide)
      have hother :
        (metric == "pass@1" || startsWith "pass@" metric || startsWith "pass^" metric) = false := by
        simp [hone, hpass]
      unfold computeMetric
      rw [Option.filter_some, hother, Option.filter_none]
      rfl

/-- A case that was run once, with the label that `exact` gives it. -/
def ranOnce (label : GradeLabel) : GradedCase where
  case := { id := "case_1", turns_pos := turns_pos_none }
  repetitions := [{ repetition := 0, trace := { id := "trace_1" } }]
  gradesPerRep := [[{ grader := "exact", label, reason := "" }]]
  length_lt := by norm_num

theorem onlyGrader_ranOnce (labels : List GradeLabel) :
    ∀ c ∈ labels.map ranOnce, c.OnlyGrader "exact" := by
  intro c hc
  obtain ⟨label, -, rfl⟩ := List.mem_map.mp hc
  exact List.forall_mem_singleton.mpr rfl

theorem verdictLists_ranOnce (labels : List GradeLabel) :
    verdictLists (labels.map ranOnce) = labels.map fun label => [⟨false, label⟩] := by
  rw [verdictLists, List.map_map]
  rfl

/-- A pass and a fail. -/
theorem same_pass_fail : (∀ c ∈ [.pass, .fail].map ranOnce, c.OnlyGrader "exact") ∧
    ∀ metric : String, (startsWith "pass@" metric ∨ startsWith "pass^" metric →
      PassMetric metric) →
      computeMetric metric (([.pass, .fail].map ranOnce).map (·.outcome)) (some "exact") =
        computeMetric metric (([.pass, .fail].map ranOnce).map (·.outcome)) none := by
  have honly := onlyGrader_ranOnce [.pass, .fail]
  refine ⟨honly, (primaryGrader_agrees_iff "exact" _ honly).mpr ?_⟩
  rw [verdictLists_ranOnce]
  refine ⟨fun vs hvs j v hget herrored => ?_, .inl (by decide), .inl (by decide)⟩
  have hnot : v.errored = false := by
    have hmem := List.mem_of_getElem? hget
    simp only [List.map_cons, List.map_nil, List.mem_cons, List.not_mem_nil, or_false] at hvs
    obtain rfl | rfl := hvs <;> rw [List.mem_singleton.mp hmem]
  rw [hnot] at herrored
  cases herrored

/-- **An error of the grader** is left out of `pass@1`, and counts against it once the grader is
named. -/
theorem not_same_pass_error : ¬∀ (g : String) (cases : List GradedCase) (metric : String),
    (∀ c ∈ cases, c.OnlyGrader g) → PassMetric metric →
      computeMetric metric (cases.map (·.outcome)) (some g) =
        computeMetric metric (cases.map (·.outcome)) none := by
  intro h
  have hname : PassMetric "pass@1" := .inl (by decide)
  have hgrader := onlyGrader_ranOnce [.pass, .error]
  have hsame := h "exact" _ "pass@1" hgrader hname
  have hne : [.pass, .error].map ranOnce ≠ [] := by simp
  have hfirst : PassKind.Of "pass@1" .first := rfl
  rw [computeMetric_grader hfirst hname hne hgrader, computeMetric_worst hfirst hname hne,
    verdictLists_ranOnce] at hsame
  exact absurd (Except.ok.inj hsame) (by decide +kernel)

end Selfevals.Optimization.PrimaryGrader
