import Selfevals.Optimization.CaseOutcomes

/-!
# The classification grader

A `ClassificationGrader` compares one predicted class with the expected one and leaves the pair in
the key of a breakdown node, `cell:<expected>-><predicted>`; the aggregator reads it from there with
`parseCellKey`, which splits at the first `->`.

* `encodable_of_parseCellKey` : only such pairs are ever read.
-/

namespace Selfevals.Graders.Classification

open Lib.JsonValue Graders.Base Graders.Select Optimization.Aggregator Optimization.CaseOutcomes

/-! ### Selecting a value -/

/-- `_split`: the steps of a path, a key each and whether it is a projection. -/
def steps (path : String) : List (String × Bool) :=
  (segments path).map fun raw =>
    let cs := raw.toList
    if ['[', ']'].isSuffixOf cs then (String.ofList (cs.take (cs.length - 2)), true) else (raw,
      false)

/-- One step over the items of a list; what is no dict or has no value is dropped. -/
def projectStep (items : List Json) (step : String × Bool) : List Json :=
  let mapped := items.filterMap fun element =>
    match element with
    | .obj fields =>
      let value := if step.1 ≠ "" then dictGet fields step.1 else element
      if value.isNull then none else some value
    | _ => none
  if step.2 then
    mapped.flatMap fun item =>
      match item with
      | .arr items => items
      | _ => []
  else mapped

/-- The walk of `select`, where `.null` is `None`. -/
def selectFrom (current : Json) : List (String × Bool) → Json
  | [] => current
  | (key, false) :: rest =>
    match current with
    | .obj fields => selectFrom (dictGet fields key) rest
    | _ => selectFrom .null rest
  | (key, true) :: rest =>
    let container :=
      match current with
      | .obj fields => if key ≠ "" then dictGet fields key else current
      | _ => current
    match container with
    | .arr items => .arr (rest.foldl projectStep items)
    | _ => .null

/-- `select`: the value at a path. -/
def select (root : Json) (path : String) : Json := selectFrom root (steps path)

/-- `_as_class_label`. -/
def asClassLabel : Json → Option String
  | .bool true => some "True"
  | .bool false => some "False"
  | .str s => some s
  | .int n => some (toString n)
  | _ => none

/-! ### Cells -/

/-- An expected class and a predicted one. -/
abbrev Cell := String × String

/-- `cell_key`. -/
def cellKey (cell : Cell) : String := cellPrefix ++ cell.1 ++ "->" ++ cell.2

/-- The tag of a miss. -/
def misclassifiedMode (cell : Cell) : String := "misclassified:" ++ cell.2 ++ "->" ++ cell.1

/-- The label of a cell. -/
def matchLabel (cell : Cell) : GradeLabel := if cell.2 = cell.1 then .pass else .fail

/-- The score of a cell. -/
def matchScore (cell : Cell) : ℚ := if cell.2 = cell.1 then 1 else 0

/-- The failure modes of a cell. -/
def matchModes (cell : Cell) :
    List String := if cell.2 = cell.1 then [] else [misclassifiedMode cell]

/-- The node of a cell, where `repr` prints a string. -/
def cellNode (repr : String → String) (cell : Cell) : BreakdownNode where
  key := cellKey cell
  label := some (matchLabel cell)
  score := some (matchScore cell)
  reason := "expected " ++ repr cell.1 ++ " -> predicted " ++ repr cell.2
  failureModes := matchModes cell

/-- `_build_breakdown`. -/
def buildBreakdown (repr : String → String) (cell : Cell) : BreakdownNode where
  key := "classification"
  label := some (matchLabel cell)
  score := some (matchScore cell)
  reason := "single-label classification cell"
  children := [cellNode repr cell]

/-! ### The grader -/

/-- A grader that the constructor admits. -/
structure ClassificationGrader where
  name : String := "classification"
  extract : String := "label"
  expectedFrom : Option String := none
  caseSensitive : Bool := false
  name_ne : name ≠ ""
  extract_valid : validatePath extract = .ok ()
  expectedFrom_valid : ∀ path ∈ expectedFrom, validatePath path = .ok ()

namespace ClassificationGrader

/-- `ClassificationGrader()`. -/
def new : ClassificationGrader where
  name_ne := by decide
  extract_valid := (validatePath_ok_iff _).mpr (by decide +kernel)
  expectedFrom_valid := by simp

variable (lower repr : String → String) (g : ClassificationGrader) (context : GraderContext)

/-- `_extract_predicted`. -/
def extractPredicted : Option String :=
  context.structuredOutput.bind fun output => asClassLabel (select (.obj output) g.extract)

/-- `_extract_expected`. -/
def extractExpected : Option String :=
  match g.expectedFrom with
  | some path =>
    context.case.expected.structuredOutput.bind fun output =>
      asClassLabel (select (.obj output) path)
  | none => context.case.expected.outcome

/-- `_fold`, where `lower` is `str.lower`. -/
def fold (label : String) : String := if g.caseSensitive then label else lower label

/-- The expected and the predicted class, if both are there. -/
def pairOf : Option Cell :=
  match g.extractPredicted context, g.extractExpected context with
  | some predicted, some expected => some (g.fold lower expected, g.fold lower predicted)
  | _, _ => none

/-- `ClassificationGrader.grade`. -/
def grade : GradeResult :=
  match g.extractPredicted context with
  | none =>
    { grader := g.name, label := .fail
      reason := "no usable predicted class at structured_output path " ++ repr g.extract
      score := some 0, failureModes := ["classification_no_prediction"]
      details := [("extract", .str g.extract)] }
  | some rawPredicted =>
    match g.extractExpected context with
    | none =>
      { grader := g.name, label := .fail
        reason := "case declares no expected class to compare against"
        score := some 0, failureModes := ["classification_no_expected"]
        details := [("predicted", .str rawPredicted), ("extract", .str g.extract)] }
    | some rawExpected =>
      let cell := (g.fold lower rawExpected, g.fold lower rawPredicted)
      { grader := g.name
        label := matchLabel cell
        reason := "predicted " ++ repr cell.2 ++ (if cell.2 = cell.1 then " == " else " != ") ++
          "expected " ++ repr cell.1
        score := some (matchScore cell)
        failureModes := matchModes cell
        details := [("predicted", .str cell.2), ("expected", .str cell.1),
          ("matched", .bool (cell.2 = cell.1)), ("extract", .str g.extract)]
        breakdown := some (buildBreakdown repr cell) }

/-- **A grade carries its pair**, and a breakdown only with one. -/
theorem breakdown_grade :
    (g.grade lower repr context).breakdown =
      (g.pairOf lower context).map (buildBreakdown repr) := by
  unfold grade pairOf
  cases g.extractPredicted context with
  | none => rfl
  | some predicted => cases g.extractExpected context <;> rfl

end ClassificationGrader

/-! ### Reading cells back -/

/-- The separator of a key. -/
def arrow : List Char := ['-', '>']

/-- Both classes are there, and the expected one has no separator in it. -/
def Encodable (cell : Cell) : Prop := cell.1 ≠ "" ∧ cell.2 ≠ "" ∧ ¬arrow <:+: cell.1.toList
deriving Decidable

theorem arrow_isPrefixOf_cons {c : Char} {cs : List Char} :
    arrow.isPrefixOf (c :: cs) = true ↔ c = '-' ∧ ∃ rest, cs = '>' :: rest := by
  constructor
  · intro h
    obtain ⟨rest, hrest⟩ := List.isPrefixOf_iff_prefix.mp h
    obtain ⟨rfl, rfl⟩ := List.cons.inj hrest
    exact ⟨rfl, rest, rfl⟩
  · rintro ⟨rfl, rest, rfl⟩
    rfl

/-- **The first separator splits**: nothing before it has one in it, and what it split is there
again. -/
theorem partition_arrow_eq_some {cs before after : List Char} :
    partition arrow cs = some (before, after) ↔
      cs = before ++ arrow ++ after ∧ ¬arrow <:+: before := by
  induction cs generalizing before with
  | nil => simp [partition, arrow]
  | cons c cs ih =>
    rw [partition]
    by_cases hprefix : arrow.isPrefixOf (c :: cs) = true
    · obtain ⟨rfl, rest, rfl⟩ := arrow_isPrefixOf_cons.mp hprefix
      rw [if_pos hprefix]
      constructor
      · intro h
        obtain ⟨rfl, rfl⟩ := Prod.mk.inj (Option.some.inj h)
        exact ⟨rfl, by simp [arrow]⟩
      · rintro ⟨hsplit, hnone⟩
        rcases before with _ | ⟨b, before⟩
        · simp only [arrow, List.nil_append, List.cons_append, List.cons.injEq, true_and] at hsplit
          rw [hsplit]
          rfl
        · -- the string starts with a separator, so `before` has it or ends within it
          exfalso
          rw [List.cons_append, List.cons_append, List.cons.injEq] at hsplit
          obtain ⟨rfl, hsplit⟩ := hsplit
          rcases before with _ | ⟨b', before⟩
          · simp [arrow] at hsplit
          · rw [List.cons_append, List.cons_append, List.cons.injEq] at hsplit
            obtain ⟨rfl, -⟩ := hsplit
            exact hnone (List.IsPrefix.isInfix ⟨before, rfl⟩)
    · rw [if_neg hprefix, Option.map_eq_some_iff]
      constructor
      · rintro ⟨⟨before', after'⟩, hparts, heq⟩
        obtain ⟨rfl, rfl⟩ := Prod.mk.inj heq
        obtain ⟨rfl, hnone⟩ := ih.mp hparts
        refine ⟨rfl, fun hinfix => ?_⟩
        rcases List.infix_cons_iff.mp hinfix with hstart | hrest
        · obtain ⟨t, ht⟩ := hstart
          refine hprefix (List.isPrefixOf_iff_prefix.mpr ⟨t ++ arrow ++ after', ?_⟩)
          simp only [← List.append_assoc, ht, List.cons_append]
        · exact hnone hrest
      · rintro ⟨hsplit, hnone⟩
        rcases before with _ | ⟨b, before⟩
        · exact absurd (List.isPrefixOf_iff_prefix.mpr ⟨after, hsplit.symm⟩) hprefix
        · rw [List.cons_append, List.cons_append, List.cons.injEq] at hsplit
          obtain ⟨rfl, rfl⟩ := hsplit
          exact ⟨(before, after),
            ih.mpr ⟨rfl, fun h => hnone (h.trans (List.suffix_cons _ _).isInfix)⟩, rfl⟩

theorem toList_cellKey (cell : Cell) :
    (cellKey cell).toList = cellPrefix.toList ++ (cell.1.toList ++ arrow ++ cell.2.toList) := by
  simp [cellKey, String.toList_append, arrow]

theorem parseCellKey_eq_some {key : String} {cell : Cell} :
    parseCellKey key = some cell ↔ key = cellKey cell ∧ Encodable cell := by
  obtain ⟨expected, predicted⟩ := cell
  unfold parseCellKey Encodable
  constructor
  · intro h
    split_ifs at h with hprefix
    obtain ⟨body, hbody⟩ := List.isPrefixOf_iff_prefix.mp hprefix
    rw [← hbody, List.drop_left] at h
    rcases hparts : partition arrow body with _ | ⟨before, after⟩
    · rw [show "->".toList = arrow from rfl, hparts] at h
      cases h
    · rw [show "->".toList = arrow from rfl, hparts] at h
      dsimp only at h
      split_ifs at h with hempty
      obtain ⟨rfl, rfl⟩ := Prod.mk.inj (Option.some.inj h)
      obtain ⟨hsplit, hnone⟩ := partition_arrow_eq_some.mp hparts
      rw [not_or] at hempty
      refine ⟨String.toList_injective
        ?_, by simpa using hempty.1, by simpa using hempty.2, by simpa using hnone⟩
      rw [toList_cellKey, ← hbody, hsplit]
      simp
  · rintro ⟨rfl, hexpected, hpredicted, hnone⟩
    have hparts : partition "->".toList
        ((cellKey (expected, predicted)).toList.drop cellPrefix.toList.length) =
          some (expected.toList, predicted.toList) := by
      rw [toList_cellKey, List.drop_left]
      exact partition_arrow_eq_some.mpr ⟨rfl, hnone⟩
    have hprefix : cellPrefix.toList.isPrefixOf (cellKey (expected, predicted)).toList = true :=
      List.isPrefixOf_iff_prefix.mpr ⟨_, (toList_cellKey _).symm⟩
    rw [if_pos hprefix, hparts]
    simp [hexpected, hpredicted]

/-- **A pair is read back as it was** exactly when it is encodable. -/
theorem parseCellKey_cellKey_iff {cell : Cell} :
    parseCellKey (cellKey cell) = some cell ↔ Encodable cell := by
  rw [parseCellKey_eq_some]
  exact and_iff_right rfl

theorem encodable_of_parseCellKey {key : String} {cell : Cell} (h : parseCellKey key = some cell) :
    Encodable cell :=
  (parseCellKey_eq_some.mp h).2

end Selfevals.Graders.Classification
