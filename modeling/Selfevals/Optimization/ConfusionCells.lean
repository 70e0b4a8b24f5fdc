import Selfevals.Graders.Classification
import Selfevals.Optimization.Repetitions

/-!
# Which pairs reach the confusion matrix

Breakdowns of all graders reach the aggregator together, and whatever key parses as a cell is
counted. A `GradedTree` is a breakdown that remembers which of its nodes are the cells of a
classification grade (of a classification grader itself, or of one that a funnel delegates to); all
other nodes are a grader's own. A conversation drops the roots and grafts what is under them.
-/

namespace Selfevals.Optimization.ConfusionCells

open Lib.Mapping Graders.Base Graders.Confusion Graders.Classification Graders.Registry
  Optimization.Aggregator Optimization.CaseOutcomes Optimization.CaseGraders
  Optimization.Repetitions

/-! ### Breakdowns with the cells marked -/

/-- A node without its children. -/
structure NodeFields where
  key : String
  label : Option GradeLabel := none
  score : Option ℚ := none
  weight : ℚ := 1
  reason : String := ""
  failureModes : List String := []

/-- A breakdown tree whose own nodes are told from the cells. -/
inductive GradedTree
  | own (fields : NodeFields) (children : List GradedTree)
  | cell (repr : String → String) (cell : Cell)

def NodeFields.node (fields : NodeFields) (children : List BreakdownNode) : BreakdownNode where
  key := fields.key
  label := fields.label
  score := fields.score
  weight := fields.weight
  reason := fields.reason
  failureModes := fields.failureModes
  children

mutual

/-- The tree as the grader returns it. -/
def GradedTree.toNode : GradedTree → BreakdownNode
  | .own fields children => fields.node (toNodes children)
  | .cell repr cell => cellNode repr cell

def toNodes : List GradedTree → List BreakdownNode
  | [] => []
  | tree :: trees => tree.toNode :: toNodes trees

end

mutual

/-- The keys that are not of cells. -/
def GradedTree.ownKeys : GradedTree → List String
  | .own fields children => fields.key :: ownKeysOf children
  | .cell _ _ => []

/-- The keys of the nodes that are no cells. -/
def ownKeysOf : List GradedTree → List String
  | [] => []
  | tree :: trees => tree.ownKeys ++ ownKeysOf trees

end

mutual

/-- The pairs of the classification grades in a tree. -/
def GradedTree.cells : GradedTree → List Cell
  | .own _ children => cellsOf children
  | .cell _ cell => [cell]

/-- The cells that classification put into the trees. -/
def cellsOf : List GradedTree → List Cell
  | [] => []
  | tree :: trees => tree.cells ++ cellsOf trees

end

/-- A breakdown, whose root is the grader's own. -/
structure Root where
  fields : NodeFields
  children : List GradedTree

def Root.toNode (root : Root) : BreakdownNode := root.fields.node (toNodes root.children)

/-- A grade whose breakdown has its cells marked. -/
structure Graded where
  result : GradeResult
  root : Option Root
  breakdown_eq : result.breakdown = root.map Root.toNode

/-- The classification grades in a grade. -/
def Graded.cells (g : Graded) :
    List Cell := ((g.root.map fun root => cellsOf root.children).getD [])

/-- The grade of a classification grader is one classification grade, if it has both classes. -/
def ofClassification (lower repr : String → String) (g : ClassificationGrader)
    (context : GraderContext) :
    Graded where
  result := g.grade lower repr context
  root := (g.pairOf lower context).map fun cell =>
    { fields := {
        key := "classification"
        label := some (matchLabel cell)
        score := some (matchScore cell)
        reason := "single-label classification cell" }
      children := [.cell repr cell] }
  breakdown_eq := by
    rw [g.breakdown_grade]
    cases g.pairOf lower context <;> rfl

/-! ### Graded cases -/

/-- A case with its repetitions, or the turns of a conversation, and the grades of each: one from
every active grader. -/
structure GradedCase where
  case : EvalCase
  repetitions : List RepetitionResult
  rows : List (List Graded)
  graders : ℕ
  length_rows : rows.length = repetitions.length
  length_row : ∀ row ∈ rows, row.length = graders

namespace GradedCase

/-- The grades of each repetition. -/
def grades (c : GradedCase) : List (List GradeResult) := c.rows.map fun row => row.map (·.result)

/-- The outcome that the execution path makes; a conversation is collapsed first. -/
def outcome (c : GradedCase) : CaseOutcome :=
  if c.case.messages.isSome then
    let collapsed := collapseConversationTurns c.repetitions c.grades
    outcomeFor c.case collapsed.1 collapsed.2
  else outcomeFor c.case c.repetitions c.grades

/-- All classification grades of the case. -/
def cells (c : GradedCase) : List Cell := c.rows.flatten.flatMap Graded.cells

/-- The own keys that reach the aggregator; those of the roots do not from a conversation. -/
def ownKeys (c : GradedCase) : List String :=
  c.rows.flatten.flatMap fun g => g.root.toList.flatMap fun root =>
    if c.case.messages.isSome then ownKeysOf root.children
    else root.fields.key :: ownKeysOf root.children

/-- The case as it is run, with the cells of its grades marked in any way. -/
def ofRun (exec : Execution) (graders : List Grader) (reps : ℕ) (case : EvalCase)
    (mark : Grader → RepetitionResult → Graded) : GradedCase where
  case
  repetitions := repetitionsOf exec reps case
  rows := (repetitionsOf exec reps case).map fun rep =>
    (gradersForCase graders case.graders).map fun g => mark g rep
  graders := (gradersForCase graders case.graders).length
  length_rows := List.length_map _
  length_row row hrow := by
    obtain ⟨rep, -, rfl⟩ := List.mem_map.mp hrow
    exact List.length_map _

/-- **Its outcome is that of the run.** -/
theorem outcome_ofRun {exec : Execution} {case : EvalCase}
    {mark : Grader → RepetitionResult → Graded}
    (hmark : ∀ g rep,
      (mark g rep).result = exec.grade g case rep) (graders : List Grader) (reps : ℕ) :
    (ofRun exec graders reps case mark).outcome = runScenario exec graders reps case := by
  have hgrades : (ofRun exec graders reps case mark).grades = gradesOf exec graders reps case := by
    rw [gradesOf, gradesPerRep_eq]
    simp [grades, ofRun, Function.comp_def, hmark]
  rw [outcome, hgrades, runScenario, outcomeRun]
  by_cases h : case.messages.isSome = true
  · rw [if_pos h]
    exact if_pos h
  · rw [if_neg h]
    exact if_neg h

end GradedCase

/-- A cell of the aggregated matrix. -/
def confusionEntry (outcomes : List CaseOutcome) (cell : Cell) : ℕ :=
  match rollupConfusion outcomes with
  | none => 0
  | some report => (report.confusion.get? cell).getD 0

/-- **The matrix is exact**: every entry counts the classification grades of its pair. -/
def Exact (cases : List GradedCase) : Prop :=
  ∀ cell, confusionEntry (cases.map (·.outcome)) cell = (cases.flatMap (·.cells)).count cell

/-! ### What is collected from a tree -/

/-- What a cell is read as. -/
def reread (cell : Cell) : Option Cell := parseCellKey (cellKey cell)

theorem collectCellPairs_node (fields : NodeFields) (children : List BreakdownNode) :
    collectCellPairs (fields.node children) =
      (parseCellKey fields.key).toList ++ collectAllCellPairs children := rfl

theorem collectAllCellPairs_eq (nodes : List BreakdownNode) :
    collectAllCellPairs nodes = nodes.flatMap collectCellPairs := by
  induction nodes with
  | nil => rfl
  | cons node nodes ih => rw [collectAllCellPairs, List.flatMap_cons, ih]

theorem filterMap_singleton_toList {α β : Type} (f : α → Option β) (a : α) (as : List α) :
    (a :: as).filterMap f = (f a).toList ++ as.filterMap f := by
  cases h : f a <;> simp [h]

mutual

theorem collect_toNode (tree : GradedTree) : (collectCellPairs tree.toNode).Perm
    (tree.ownKeys.filterMap parseCellKey ++ tree.cells.filterMap reread) := by
  cases tree with
  | own fields children =>
    rw [GradedTree.toNode, collectCellPairs_node, GradedTree.ownKeys, GradedTree.cells,
      filterMap_singleton_toList, List.append_assoc]
    exact (collectAll_toNodes children).append_left _
  | cell repr cell =>
    rw [GradedTree.toNode, GradedTree.ownKeys, GradedTree.cells, filterMap_singleton_toList]
    simp [collectCellPairs, collectAllCellPairs, cellNode, reread]

theorem collectAll_toNodes (trees : List GradedTree) : (collectAllCellPairs (toNodes trees)).Perm
    ((ownKeysOf trees).filterMap parseCellKey ++ (cellsOf trees).filterMap reread) := by
  cases trees with
  | nil =>
    rw [toNodes, ownKeysOf, cellsOf]
    rfl
  | cons tree trees =>
    rw [toNodes, collectAllCellPairs, ownKeysOf, cellsOf, List.filterMap_append,
      List.filterMap_append]
    refine ((collect_toNode tree).append (collectAll_toNodes trees)).trans ?_
    refine List.perm_iff_count.mpr fun cell => ?_
    simp only [List.count_append]
    omega

end

/-! ### What is collected from a conversation -/

/-- The pairs in the breakdown of a grade. -/
def gradePairs (r : GradeResult) : List Cell := r.breakdown.toList.flatMap collectCellPairs

/-- The pairs below the root of a grade's breakdown. -/
def innerPairs (r : GradeResult) : List Cell :=
  collectAllCellPairs ((r.breakdown.map (·.children)).getD [])

theorem flatMap_breakdowns (grades : List GradeResult) :
    (grades.filterMap (·.breakdown)).flatMap collectCellPairs = grades.flatMap gradePairs := by
  rw [List.filterMap_eq_flatMap_toList, List.flatMap_assoc]
  rfl

theorem flatMap_mapIdx {α β γ : Type} (F : ℕ → α → β) (f : β → List γ) (g : α → List γ)
    (as : List α)
    (h : ∀ i a, f (F i a) = g a) : (as.mapIdx F).flatMap f = as.flatMap g := by
  induction as generalizing F with
  | nil => rfl
  | cons a as ih =>
    rw [List.mapIdx_cons, List.flatMap_cons, List.flatMap_cons, h, ih _ fun i => h (i + 1)]

theorem flatMap_mapIdx_range {α β γ : Type} (F : ℕ → α → β) (f : β → List γ) (g : ℕ → List γ)
    (as : List α) (h : ∀ i a, f (F i a) = g i) :
    (as.mapIdx F).flatMap f = (List.range as.length).flatMap g := by
  induction as generalizing F g with
  | nil => rfl
  | cons a as ih =>
    rw [List.mapIdx_cons, List.flatMap_cons, h, ih _ (fun i => g (i + 1)) fun i => h (i + 1),
      List.length_cons, List.range_succ_eq_map, List.flatMap_cons, List.flatMap_map]

theorem flatMap_range_getElem? {α γ : Type} (f : α → List γ) (as : List α) :
    ((List.range as.length).flatMap fun i => (as[i]?.map f).getD []) = as.flatMap f := by
  induction as with
  | nil => rfl
  | cons a as ih =>
    rw [List.length_cons, List.range_succ_eq_map, List.flatMap_cons, List.flatMap_map,
      List.flatMap_cons]
    exact congrArg (f a ++ ·) ih

theorem flatMap_comm_perm {α β γ : Type} (F : α → β → List γ) (as : List α) (bs : List β) :
    (as.flatMap fun a => bs.flatMap (F a)).Perm (bs.flatMap fun b => as.flatMap fun a =>
      F a b) := by
  induction bs with
  | nil => simp
  | cons b bs ih =>
    simp only [List.flatMap_cons]
    exact (List.flatMap_append_perm _ _ _).symm.trans (ih.append_left _)

section Conversation
variable {turns : List (RepetitionResult × List GradeResult)}

theorem parseCellKey_turn (position : ℕ) : parseCellKey s!"turn_{position}" = none := by
  have htext :
    (s!"turn_{position}").toList = 't' :: ("urn_".toList ++ (toString position).toList) := by
    show ("turn_" ++ toString position).toList = _
    rw [String.toList_append]
    rfl
  have hprefix : ¬cellPrefix.toList.isPrefixOf (s!"turn_{position}").toList = true := by
    rw [htext]
    exact Bool.false_ne_true
  rw [parseCellKey, if_neg hprefix]

theorem collectCellPairs_turnNode (position : ℕ) (turnGrade : Option GradeResult) :
    collectCellPairs (turnNode position turnGrade) = (turnGrade.map innerPairs).getD [] := by
  rw [turnNode, collectCellPairs, parseCellKey_turn]
  cases turnGrade with
  | none => rfl
  | some r => rfl

theorem gradePairs_syntheticGrade (gIndex : ℕ) (finalGrade : GradeResult) :
    gradePairs (syntheticGrade turns gIndex finalGrade) =
      turns.flatMap fun turn => (turn.2[gIndex]?.map innerPairs).getD [] := by
  have hroot : parseCellKey "conversation" = none := by decide
  unfold gradePairs syntheticGrade
  simp only [Option.toList_some, List.flatMap_cons, List.flatMap_nil, List.append_nil]
  rw [collectCellPairs, hroot, collectAllCellPairs_eq]
  exact flatMap_mapIdx _ _ _ _ fun position turn => collectCellPairs_turnNode position _

theorem collapseThread_perm {width : ℕ} (hwidth : ∀ turn ∈ turns, turn.2.length = width)
    (repIndex : ℕ) : ((collapseThread repIndex turns).toList.flatMap fun collapsed =>
      collapsed.2.flatMap gradePairs).Perm (turns.flatMap fun turn =>
        turn.2.flatMap innerPairs) := by
  unfold collapseThread
  rcases hlast : turns.getLast? with _ | final
  · rw [List.getLast?_eq_none_iff.mp hlast]
    rfl
  · have hfinal : final.2.length = width := hwidth final (List.mem_of_getLast? hlast)
    have hrows : ∀ turn ∈ turns, ((List.range width).flatMap fun i =>
        (turn.2[i]?.map innerPairs).getD []) = turn.2.flatMap innerPairs := by
      intro turn hturn
      rw [← hwidth turn hturn]
      exact flatMap_range_getElem? innerPairs turn.2
    simp only [Option.map_some, Option.toList_some, List.flatMap_cons, List.flatMap_nil,
      List.append_nil]
    rw [flatMap_mapIdx_range _ _ _ _ fun i r => gradePairs_syntheticGrade i r, hfinal,
      ← List.flatMap_congr hrows]
    exact flatMap_comm_perm _ _ _

theorem innerPairs_collapsed {width : ℕ} (hwidth : ∀ turn ∈ turns, turn.2.length = width) :
    ((collapsedThreads turns).flatMap fun collapsed => collapsed.2.flatMap gradePairs).Perm
      (turns.flatMap fun turn => turn.2.flatMap innerPairs) := by
  refine (flatMap_collapsedThreads (g := fun threadTurns => threadTurns.flatMap fun turn =>
    turn.2.flatMap innerPairs) fun repIndex threadTurns hsub =>
      collapseThread_perm (fun turn hturn => hwidth turn (hsub hturn)) repIndex).trans ?_
  rw [← List.flatMap_assoc]
  exact (flatMap_turnsOf_perm turns).flatMap_right _

end Conversation

/-! ### What is collected from the outcomes -/

section Cases

theorem gradePairs_result (g : Graded) : (gradePairs g.result).Perm
    ((g.root.toList.flatMap fun root => root.fields.key :: ownKeysOf root.children).filterMap
      parseCellKey ++ g.cells.filterMap reread) := by
  unfold gradePairs Graded.cells
  rw [g.breakdown_eq]
  cases g.root with
  | none => rfl
  | some root =>
    simp only [Option.map_some, Option.toList_some, List.flatMap_cons, List.flatMap_nil,
      List.append_nil, Option.getD_some]
    rw [Root.toNode, collectCellPairs_node, filterMap_singleton_toList, List.append_assoc]
    exact (collectAll_toNodes root.children).append_left _

theorem innerPairs_result (g : Graded) : (innerPairs g.result).Perm
    ((g.root.toList.flatMap fun root => ownKeysOf root.children).filterMap parseCellKey ++
      g.cells.filterMap reread) := by
  unfold innerPairs Graded.cells
  rw [g.breakdown_eq]
  cases g.root with
  | none => rfl
  | some root =>
    simp only [Option.map_some, Option.toList_some, List.flatMap_cons, List.flatMap_nil,
      List.append_nil, Option.getD_some]
    exact collectAll_toNodes root.children

variable (c : GradedCase)

theorem flatten_grades : c.grades.flatten = c.rows.flatten.map (·.result) := by
  rw [GradedCase.grades, List.map_flatten]

theorem flatMap_breakdowns_outcome (h : c.case.messages.isSome = false) :
    c.outcome.breakdowns.flatMap collectCellPairs =
      c.rows.flatten.flatMap fun g => gradePairs g.result := by
  rw [GradedCase.outcome, h, if_neg Bool.false_ne_true]
  show (c.grades.flatten.filterMap (·.breakdown)).flatMap collectCellPairs = _
  rw [flatMap_breakdowns, flatten_grades, List.flatMap_map]

theorem flatMap_breakdowns_collapsed (h : c.case.messages.isSome = true) :
    (c.outcome.breakdowns.flatMap collectCellPairs).Perm
      (c.rows.flatten.flatMap fun g => innerPairs g.result) := by
  have hlength : c.grades.length ≤ c.repetitions.length := by
    rw [GradedCase.grades, List.length_map, c.length_rows]
  have hsnd : (c.repetitions.zip c.grades).map Prod.snd = c.grades := List.map_snd_zip hlength
  have hwidth : ∀ turn ∈ c.repetitions.zip c.grades, turn.2.length = c.graders := by
    intro turn hturn
    obtain ⟨row, hrow, heq⟩ := List.mem_map.mp (List.of_mem_zip hturn).2
    rw [← heq, List.length_map]
    exact c.length_row row hrow
  have hperm := innerPairs_collapsed hwidth
  rw [GradedCase.outcome, h, if_pos rfl]
  show (((collapsedThreads (c.repetitions.zip c.grades)).unzip.2.flatten.filterMap
    (·.breakdown)).flatMap collectCellPairs).Perm _
  rw [flatMap_breakdowns, List.unzip_snd, List.flatten_eq_flatMap, List.flatMap_assoc,
    List.flatMap_map]
  refine hperm.trans (List.Perm.of_eq ?_)
  calc (c.repetitions.zip c.grades).flatMap (fun turn => turn.2.flatMap innerPairs)
      = ((c.repetitions.zip c.grades).map Prod.snd).flatMap fun grades =>
        grades.flatMap innerPairs :=
        (List.flatMap_map _ _ _).symm
    _ = c.grades.flatten.flatMap innerPairs := by
        rw [hsnd, List.flatten_eq_flatMap, List.flatMap_assoc]
        rfl
    _ = c.rows.flatten.flatMap fun g => innerPairs g.result := by
        rw [flatten_grades, List.flatMap_map]

theorem flatMap_perm_append {α β γ δ : Type} (F : α → List δ) (K : α → List β) (C : α → List γ)
    (p : β → Option δ) (q : γ → Option δ)
    (h : ∀ a, (F a).Perm ((K a).filterMap p ++ (C a).filterMap q)) (as : List α) :
    (as.flatMap F).Perm ((as.flatMap K).filterMap p ++ (as.flatMap C).filterMap q) := by
  rw [List.filterMap_flatMap, List.filterMap_flatMap]
  refine (List.Perm.flatMap_left as fun a _ => h a).trans (List.flatMap_append_perm _ _ _).symm

/-- **The pairs of a case** are those that its own keys and its cells are read as. -/
theorem pairs_perm : (c.outcome.breakdowns.flatMap collectCellPairs).Perm
    (c.ownKeys.filterMap parseCellKey ++ c.cells.filterMap reread) := by
  unfold GradedCase.ownKeys GradedCase.cells
  rcases h : c.case.messages.isSome with _ | _
  · rw [flatMap_breakdowns_outcome c h]
    exact flatMap_perm_append _ _ _ _ _ gradePairs_result _
  · refine (flatMap_breakdowns_collapsed c h).trans ?_
    exact flatMap_perm_append _ _ _ _ _ innerPairs_result _

end Cases

/-! ### When the matrix is exact -/

theorem confusionEntry_eq (outcomes : List CaseOutcome) (cell : Cell) :
    confusionEntry outcomes cell =
      ((outcomes.flatMap (·.breakdowns)).flatMap collectCellPairs).count cell := by
  unfold confusionEntry rollupConfusion
  generalize (outcomes.flatMap (·.breakdowns)).flatMap collectCellPairs = pairs
  rcases pairs with _ | ⟨pair, pairs⟩
  · rfl
  · show ((Dict.count (pair :: pairs)).get? cell).getD 0 = _
    rw [Dict.get?_count]
    split_ifs with hmem
    · exact List.countP_congr fun _ _ => by simp
    · exact (List.count_eq_zero.mpr hmem).symm

/-- Where reading back keeps `P` and nothing else, adding what was read and reading back the rest
gives the rest only if nothing was added and `P` holds throughout. -/
theorem append_filterMap_perm_iff {α : Type} {P : α → Prop} {f : α → Option α}
    (hf : ∀ a, f a = some a ↔ P a) (hP : ∀ a b, f a = some b → P b) {added as : List α}
    (hadded : ∀ a ∈ added, P a) :
    (added ++ as.filterMap f).Perm as ↔ added = [] ∧ ∀ a ∈ as, P a := by
  have hkeep : (∀ a ∈ as, P a) → as.filterMap f = as := by
    intro h
    rw [List.filterMap_congr fun a ha => (hf a).mpr (h a ha), List.filterMap_some]
  constructor
  · intro hperm
    have hall : ∀ a ∈ as, P a := by
      intro a ha
      rcases List.mem_append.mp (hperm.mem_iff.mpr ha) with hmem | hmem
      · exact hadded a hmem
      · obtain ⟨b, -, hb⟩ := List.mem_filterMap.mp hmem
        exact hP b a hb
    have hlength := hperm.length_eq
    rw [hkeep hall, List.length_append] at hlength
    exact ⟨List.length_eq_zero_iff.mp (by omega), hall⟩
  · rintro ⟨rfl, hall⟩
    rw [List.nil_append, hkeep hall]

/-- **The matrix is exact** if and only if every pair can be encoded in a key and no other key that
reaches the aggregator is one of a cell. -/
theorem exact_iff (cases : List GradedCase) : Exact cases ↔
    (∀ c ∈ cases, ∀ cell ∈ c.cells, Encodable cell) ∧
      ∀ c ∈ cases, ∀ key ∈ c.ownKeys, parseCellKey key = none := by
  have hpairs : (((cases.map (·.outcome)).flatMap (·.breakdowns)).flatMap collectCellPairs).Perm
      ((cases.flatMap (·.ownKeys)).filterMap parseCellKey ++
        (cases.flatMap (·.cells)).filterMap reread) := by
    rw [List.flatMap_map, List.flatMap_assoc]
    exact flatMap_perm_append _ _ _ _ _ pairs_perm _
  have hexact : Exact cases ↔ ((cases.flatMap (·.ownKeys)).filterMap parseCellKey ++
      (cases.flatMap (·.cells)).filterMap reread).Perm (cases.flatMap (·.cells)) := by
    unfold Exact
    simp only [confusionEntry_eq, hpairs.count_eq]
    exact List.perm_iff_count.symm
  have hadded : ∀ cell ∈ (cases.flatMap (·.ownKeys)).filterMap parseCellKey, Encodable cell := by
    intro cell hcell
    obtain ⟨key, -, hkey⟩ := List.mem_filterMap.mp hcell
    exact encodable_of_parseCellKey hkey
  rw [hexact, append_filterMap_perm_iff (f := reread) (fun cell => parseCellKey_cellKey_iff)
    (fun _ _ => encodable_of_parseCellKey) hadded, and_comm]
  refine and_congr ?_ ?_
  · simp only [List.forall_mem_flatMap]
  · rw [List.filterMap_eq_nil_iff]
    simp only [List.forall_mem_flatMap]

/-- A case of the class `a->b`, for which the agent predicts `c`. -/
def arrowCase : GradedCase where
  case := { id := "case", turns_pos := turns_pos_none }
  repetitions := [{ repetition := 0, trace := { id := "tr" } }]
  rows := [[ofClassification String.toLower id .new {
    case := { Schemas.EvalCases.EvalCase.minimal with expected := { outcome := some "a->b" } }
    trace := .minimal
    response := some { content := none, structuredOutput := some [("label", .str "c")] }
    case_valid := by decide }]]
  graders := 1
  length_rows := rfl
  length_row := by simp

/-- **It is counted as `a`, taken for `b->c`.** -/
theorem not_all_exact : ¬∀ cases : List GradedCase, Exact cases := by
  intro h
  exact absurd (h [arrowCase] ("a->b", "c")) (by decide +kernel)

end Selfevals.Optimization.ConfusionCells
