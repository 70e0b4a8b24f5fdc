import Selfevals.Graders.Classification
import Selfevals.Lib.SetScores

/-!
# The set match grader

A `SetMatchGrader` compares the labels an agent detected with those a case expects, as sets: aliases
and case are folded first, on both sides alike. Scores are exact rationals.
-/

namespace Selfevals.Graders.SetMatch

open Graders.Base Graders.Classification Graders.Select Lib Lib.JsonValue Lib.Mapping
  Repo.Loader.GraderParams Schemas.Enums

/-! ### Scores -/

/-- Precision, recall and F1 of two sets. -/
structure Scores where
  completeness : ℚ
  precision : ℚ
  «recall» : ℚ
  f1 : ℚ
deriving DecidableEq, Repr

/-- `_normalize`, where `lower` is `str.lower`: aliases first, on the raw label. -/
def normalizeLabel (lower : String → String) (aliases : Dict String String) (caseSensitive : Bool)
    (raw : String) : String :=
  let mapped := (aliases.get? raw).getD raw
  if caseSensitive then mapped else lower mapped

/-- `_normalize`: by aliases, and by case. -/
def normalize (lower : String → String) (aliases : Dict String String) (caseSensitive : Bool)
    (items : List String) : List String :=
  items.map (normalizeLabel lower aliases caseSensitive)

/-- `_compute_scores`. -/
def computeScores (detected expected : List String) : Scores :=
  let detectedSet := detected.toFinset
  let expectedSet := expected.toFinset
  let inter := (detectedSet ∩ expectedSet).card
  let completeness := if expectedSet ≠ ∅ then (inter : ℚ) / expectedSet.card else 1
  let precision := if detectedSet ≠ ∅ then (inter : ℚ) / detectedSet.card else 1
  let denom := precision + completeness
  let f1 := if 0 < denom then 2 * precision * completeness / denom else 0
  { completeness, precision, «recall» := completeness, f1 }

/-! ### The grader -/

/-- The text function `str.lower`. -/
structure Library where
  lower : String → String

/-- A grader that the constructor admits. -/
structure SetMatchGrader where
  name : String := "set_match"
  gating : Gating := .completeness
  threshold : ℚ := 1
  caseSensitive : Bool := false
  extract : String := "detected"
  name_ne : name ≠ ""
  threshold_mem : 0 ≤ threshold ∧ threshold ≤ 1
  extract_valid : validatePath extract = .ok ()

namespace SetMatchGrader
variable (lib : Library) (g : SetMatchGrader)

/-- The scores of two lists of labels as a case gives them. -/
def scoresOf (aliases : Dict String String) (detected expected : List String) : Scores :=
  computeScores (normalize lib.lower aliases g.caseSensitive detected)
    (normalize lib.lower aliases g.caseSensitive expected)

end SetMatchGrader

/-! ### The scores as those of two sets -/

theorem computeScores_eq (detected expected : List String) :
    computeScores detected expected =
      { completeness := SetScores.coverage detected.toFinset expected.toFinset
        precision := SetScores.coverage expected.toFinset detected.toFinset
        «recall» := SetScores.coverage detected.toFinset expected.toFinset
        f1 := SetScores.f1 detected.toFinset expected.toFinset } := by
  have hrecall : (if expected.toFinset ≠ ∅ then
      ((detected.toFinset ∩ expected.toFinset).card : ℚ) / expected.toFinset.card else 1) =
      SetScores.coverage detected.toFinset expected.toFinset := by
    unfold SetScores.coverage
    rw [ite_not]
  have hprecision : (if detected.toFinset ≠ ∅ then
      ((detected.toFinset ∩ expected.toFinset).card : ℚ) / detected.toFinset.card else 1) =
      SetScores.coverage expected.toFinset detected.toFinset := by
    unfold SetScores.coverage
    rw [ite_not, Finset.inter_comm]
  unfold computeScores
  dsimp only
  rw [hrecall, hprecision]
  rfl

namespace Scores

/-- Every score is a share. -/
structure Bounded (scores : Scores) : Prop where
  completeness : 0 ≤ scores.completeness ∧ scores.completeness ≤ 1
  precision : 0 ≤ scores.precision ∧ scores.precision ≤ 1
  «recall» : 0 ≤ scores.recall ∧ scores.recall ≤ 1
  f1 : 0 ≤ scores.f1 ∧ scores.f1 ≤ 1

/-- No score is greater than the other's. -/
structure Le (scores other : Scores) : Prop where
  completeness : scores.completeness ≤ other.completeness
  precision : scores.precision ≤ other.precision
  «recall» : scores.recall ≤ other.recall
  f1 : scores.f1 ≤ other.f1

end Scores

theorem bounded_computeScores (detected expected : List String) :
    (computeScores detected expected).Bounded := by
  rw [computeScores_eq]
  exact {
    completeness := SetScores.coverage_mem _ _
    precision := SetScores.coverage_mem _ _
    «recall» := SetScores.coverage_mem _ _
    f1 := SetScores.f1_mem _ _ }

section Detected
variable {expected : List String} {label : String}

theorem le_computeScores_cons {detected : List String} (hexpected : label ∈ expected)
    (hmissing : label ∉ detected) :
    (computeScores detected expected).Le (computeScores (label :: detected) expected) := by
  have hmem : label ∈ expected.toFinset := List.mem_toFinset.mpr hexpected
  have hnew : label ∉ detected.toFinset := fun h => hmissing (List.mem_toFinset.mp h)
  rw [computeScores_eq, computeScores_eq, List.toFinset_cons]
  exact {
    completeness := SetScores.coverage_le_insert hmem hnew
    precision := SetScores.precision_le_insert hmem hnew
    «recall» := SetScores.coverage_le_insert hmem hnew
    f1 := SetScores.f1_le_insert hmem hnew }

theorem computeScores_cons_le (detected : List String) (hextraneous : label ∉ expected) :
    (computeScores (label :: detected) expected).Le (computeScores detected expected) := by
  have hmem : label ∉ expected.toFinset := fun h => hextraneous (List.mem_toFinset.mp h)
  rw [computeScores_eq, computeScores_eq, List.toFinset_cons]
  exact {
    completeness := (SetScores.coverage_insert hmem).le
    precision := SetScores.precision_insert_le hmem
    «recall» := (SetScores.coverage_insert hmem).le
    f1 := SetScores.f1_insert_le hmem }

end Detected

theorem computeScores_congr {detected detected' expected expected' : List String}
    (hdetected : ∀ label, label ∈ detected ↔ label ∈ detected')
    (hexpected : ∀ label, label ∈ expected ↔ label ∈ expected') :
    computeScores detected expected = computeScores detected' expected' := by
  rw [computeScores_eq, computeScores_eq, List.toFinset.ext hdetected,
    List.toFinset.ext hexpected]

/-! ### The laws -/

/-- What is asked of the scores of detected labels against expected ones, two labels being the same
where `key` says so. -/
structure Lawful (key : String → String) (scores : List String → List String → Scores) : Prop where
  bounded : ∀ detected expected, (scores detected expected).Bounded
  /-- Neither the order nor the number of labels shows. -/
  as_sets : ∀ detected detected' expected expected',
    (∀ label, label ∈ detected.map key ↔ label ∈ detected'.map key) →
    (∀ label, label ∈ expected.map key ↔ label ∈ expected'.map key) →
    scores detected expected = scores detected' expected'
  /-- A label that was missing, wherever it is put. -/
  missing : ∀ before after label expected, key label ∈ expected.map key →
    key label ∉ (before ++ after).map key →
    (scores (before ++ after) expected).Le (scores (before ++ label :: after) expected)
  extraneous : ∀ before after label expected, key label ∉ expected.map key →
    (scores (before ++ label :: after) expected).Le (scores (before ++ after) expected)

theorem mem_map_middle (key : String → String) (before after : List String) (raw label : String) :
    label ∈ (before ++ raw :: after).map key ↔ label ∈ key raw :: (before ++ after).map key := by
  simp only [List.map_append, List.map_cons, List.mem_append, List.mem_cons]
  tauto

/-- **Set match scores are lawful**, whatever the aliases and the case policy. -/
theorem scoresOf_lawful (lib : Library) (g : SetMatchGrader) (aliases : Dict String String) :
    Lawful (normalizeLabel lib.lower aliases g.caseSensitive) (g.scoresOf lib aliases) where
  bounded detected expected := bounded_computeScores _ _
  as_sets detected detected' expected expected' hdetected hexpected :=
    computeScores_congr hdetected hexpected
  missing before after label expected hexpected hmissing := by
    have hle := le_computeScores_cons hexpected hmissing
    rwa [← computeScores_congr (mem_map_middle _ before after label) fun _ => Iff.rfl] at hle
  extraneous before after label expected hextraneous := by
    have hle := computeScores_cons_le
      ((before ++ after).map (normalizeLabel lib.lower aliases g.caseSensitive)) hextraneous
    rwa [← computeScores_congr (mem_map_middle _ before after label) fun _ => Iff.rfl] at hle

end Selfevals.Graders.SetMatch
