import Selfevals.Graders.Classification

/-!
# Running a funnel

The levels of a funnel form a tree, each with a grader as its match. A level that is a gate and
fails has its descendants skipped, and every level leaves one node in the breakdown. `place` reads
the nodes of the levels off the breakdown again, past those that a match has left of its own.

* `funnel_gated`: so of the whole funnel.
-/

namespace Selfevals.Graders.Funnels

open Graders.Base Graders.Classification Lib.JsonValue Lib.Mapping

/-- A grader: its name, and what `grade` returns or raises. -/
structure Grader where
  name : String
  grade : GraderContext → Except String GradeResult

/-- `_Level`; `match` is a word of Lean. -/
structure Level where
  key : String
  extract : String
  matcher : Grader
  gate : Bool := false
  failureMode : Option String := none
  feedsExtract : Bool := false
  children : List Level := []

mutual

/-- The levels of a tree, each before its descendants. -/
def Level.preorder : Level → List Level
  | ⟨key, extract, matcher, gate, failureMode, feedsExtract, children⟩ =>
    ⟨key, extract, matcher, gate, failureMode, feedsExtract, children⟩ :: preorderAll children

/-- The levels of trees, each before its descendants. -/
def preorderAll : List Level → List Level
  | [] => []
  | level :: levels => level.preorder ++ preorderAll levels

end

/-- `_all_keys`. -/
def allKeys (levels : List Level) : List String := (preorderAll levels).map (·.key)

/-- A funnel that the constructor admits. -/
structure FunnelGrader where
  name : String
  levels : List Level
  name_nonempty : name ≠ ""
  levels_nonempty : levels ≠ []
  keys_unique : (allKeys levels).Nodup

/-! ### One level -/

/-- The label is one of `_FAILING_LABELS`. -/
def failing (label : GradeLabel) : Bool := label == .fail || label == .error

/-- `_feed`. -/
def feed (extract : String) (context : GraderContext) : GraderContext :=
  match context.structuredOutput with
  | none => context
  | some fields =>
    let detected := setItem "detected" (select (.obj fields) extract) fields
    { context with
      response := context.response.map fun r => { r with structuredOutput := some detected } }

/-- What the match returns, or the error that it raised. -/
def gradeOf (matcher : Grader) (context : GraderContext) : GradeResult :=
  match matcher.grade context with
  | .ok result => result
  | .error e => { grader := matcher.name, label := .error, reason := s!"level match raised: {e}" }

/-- `_level_failure_modes`. -/
def levelFailureModes (key : String) (failureMode : Option String) (result : GradeResult) :
    List String :=
  if !failing result.label then []
  else
    match failureMode with
    | some mode => [mode]
    | none =>
      if result.failureModes ≠ [] then result.failureModes else [s!"funnel_{key}_fail"]

mutual

/-- `_skipped_node`. -/
def skippedNode : Level → BreakdownNode
  | ⟨key, _, _, _, _, _, children⟩ =>
    { key
      label := some .skipped
      weight := 0
      reason := "skipped: an upstream gate failed"
      children := skippedNodes children }

/-- The nodes of levels below a gate that failed. -/
def skippedNodes : List Level → List BreakdownNode
  | [] => []
  | level :: levels => skippedNode level :: skippedNodes levels

end

/-- What running some levels leaves: their nodes, the nodes of all levels that were evaluated, and
the matches that were invoked, by the keys of their levels. -/
structure Outcome where
  nodes : List BreakdownNode
  evaluated : List BreakdownNode := []
  invoked : List String := []

mutual

/-- `_run_level`. -/
def runLevel (context : GraderContext) (gatedOff : Bool) : Level → Outcome
  | ⟨key, extract, matcher, gate, failureMode, feedsExtract, children⟩ =>
    if gatedOff then
      { nodes := [skippedNode ⟨key, extract, matcher, gate, failureMode, feedsExtract, children⟩] }
    else
      let result := gradeOf matcher (if feedsExtract then feed extract context else context)
      let inner := (result.breakdown.map (·.children)).getD []
      let below := runLevels context (gatedOff || (gate && failing result.label)) children
      let node : BreakdownNode := {
        key
        label := some result.label
        score := result.score
        weight := 1
        reason := result.reason
        failureModes := levelFailureModes key failureMode result
        children := inner ++ below.nodes }
      { nodes := [node]
        evaluated := below.evaluated ++ [node]
        invoked := key :: below.invoked }

/-- The levels of a list, one after another. -/
def runLevels (context : GraderContext) (gatedOff : Bool) : List Level → Outcome
  | [] => { nodes := [] }
  | level :: levels =>
    let first := runLevel context gatedOff level
    let rest := runLevels context gatedOff levels
    { nodes := first.nodes ++ rest.nodes
      evaluated := first.evaluated ++ rest.evaluated
      invoked := first.invoked ++ rest.invoked }

end

/-! ### The funnel -/

/-- The label of the funnel, from those of the levels. -/
def verdict (labels : List GradeLabel) : GradeLabel :=
  if .error ∈ labels then .error else if .fail ∈ labels then .fail else .pass

/-- The mean of the scores that are given. -/
def meanScore (scores : List (Option ℚ)) : Option ℚ :=
  let scored := scores.filterMap id
  if scored = [] then none else some (scored.sum / scored.length)

/-- `FunnelGrader.grade`. -/
def FunnelGrader.grade (funnel : FunnelGrader) (context : GraderContext) : GradeResult :=
  let out := runLevels context false funnel.levels
  let label := verdict (out.evaluated.filterMap (·.label))
  let score := meanScore (out.evaluated.map (·.score))
  let totalLevels := (allKeys funnel.levels).length
  let reason := s!"{out.evaluated.length}/{totalLevels} levels evaluated"
  let failureModes := firstSeen (out.evaluated.flatMap (·.failureModes))
  { grader := funnel.name
    label, reason, score, failureModes
    details := [("levels", .int totalLevels), ("evaluated", .int out.evaluated.length)]
    breakdown := some {
      key := "funnel"
      label := some label
      score
      weight := 1
      reason, failureModes
      children := out.nodes } }

/-! ### The nodes of the levels -/

/-- A level and its node, below its strict ancestors and theirs. -/
structure Placed where
  ancestors : List (Level × BreakdownNode)
  level : Level
  node : BreakdownNode

mutual

/-- A level is placed at a node, its children at the last children of the node. -/
def place (ancestors : List (Level × BreakdownNode)) (node : BreakdownNode) :
    Level → List Placed
  | ⟨key, extract, matcher, gate, failureMode, feedsExtract, children⟩ =>
    ⟨ancestors, ⟨key, extract, matcher, gate, failureMode, feedsExtract, children⟩, node⟩ ::
      placeAll (ancestors ++
        [(⟨key, extract, matcher, gate, failureMode, feedsExtract, children⟩, node)])
        (node.children.drop (node.children.length - children.length)) children

/-- The nodes of levels, read off a list of nodes. -/
def placeAll (ancestors : List (Level × BreakdownNode)) :
    List BreakdownNode → List Level → List Placed
  | node :: nodes, level :: levels => place ancestors node level ++ placeAll ancestors nodes levels
  | _, _ => []

end

/-- The funnel has skipped the level. -/
def Skipped (node : BreakdownNode) : Prop := node.label = some .skipped ∧ node.weight = 0
deriving Decidable

/-- The level was evaluated, and failed or errored. -/
def Failed (node : BreakdownNode) : Prop :=
  ¬Skipped node ∧ (node.label = some .fail ∨ node.label = some .error)
deriving Decidable

/-- The level shuts off what is below it: it is a gate and failed. -/
def Closes (above : Level × BreakdownNode) : Prop := above.1.gate = true ∧ Failed above.2

/-- What the placed levels are: these levels, each with a node of its own that is skipped exactly
where something above it closes; the others were invoked and evaluated. -/
structure Spec (placed : List Placed) (levels : List Level) (out : Outcome) : Prop where
  level : placed.map (·.level) = levels
  key : ∀ p ∈ placed, p.node.key = p.level.key
  skipped : ∀ p ∈ placed, Skipped p.node ↔ ∃ above ∈ p.ancestors, Closes above
  invoked : out.invoked = (placed.filter fun p => ¬Skipped p.node).map (·.level.key)
  evaluated : out.evaluated.Perm ((placed.filter fun p => ¬Skipped p.node).map (·.node))

namespace Spec
variable {placed placed' : List Placed} {levels levels' : List Level} {out out' : Outcome}

theorem nil (nodes : List BreakdownNode) : Spec ([] : List Placed) [] { nodes := nodes } :=
  ⟨rfl, by simp, by simp, rfl, List.Perm.refl _⟩

theorem append (h : Spec placed levels out) (h' : Spec placed' levels' out') :
    Spec (placed ++ placed') (levels ++ levels') {
      nodes := out.nodes ++ out'.nodes
      evaluated := out.evaluated ++ out'.evaluated
      invoked := out.invoked ++ out'.invoked } where
  level := by rw [List.map_append, h.level, h'.level]
  key p hp := (List.mem_append.mp hp).elim (h.key p) (h'.key p)
  skipped p hp := (List.mem_append.mp hp).elim (h.skipped p) (h'.skipped p)
  invoked := by rw [List.filter_append, List.map_append, ← h.invoked, ← h'.invoked]
  evaluated := by
    rw [List.filter_append, List.map_append]
    exact h.evaluated.append h'.evaluated

theorem cons_skipped {p : Placed} (h : Spec placed levels out) (hkey : p.node.key = p.level.key)
    (hskipped : Skipped p.node) (habove : ∃ above ∈ p.ancestors, Closes above)
    (hinvoked : out'.invoked = out.invoked) (hevaluated : out'.evaluated = out.evaluated) :
    Spec (p :: placed) (p.level :: levels) out' where
  level := by rw [List.map_cons, h.level]
  key := List.forall_mem_cons.mpr ⟨hkey, h.key⟩
  skipped := List.forall_mem_cons.mpr ⟨iff_of_true hskipped habove, h.skipped⟩
  invoked := by
    rw [hinvoked, h.invoked, List.filter_cons_of_neg (by simpa using hskipped)]
  evaluated := by
    rw [hevaluated, List.filter_cons_of_neg (by simpa using hskipped)]
    exact h.evaluated

theorem cons_evaluated {p : Placed} (h : Spec placed levels out) (hkey : p.node.key = p.level.key)
    (hskipped : ¬Skipped p.node) (habove : ¬∃ above ∈ p.ancestors, Closes above)
    (hinvoked : out'.invoked = p.level.key :: out.invoked)
    (hevaluated : out'.evaluated = out.evaluated ++ [p.node]) :
    Spec (p :: placed) (p.level :: levels) out' where
  level := by rw [List.map_cons, h.level]
  key := List.forall_mem_cons.mpr ⟨hkey, h.key⟩
  skipped := List.forall_mem_cons.mpr ⟨iff_of_false hskipped habove, h.skipped⟩
  invoked := by
    rw [hinvoked, h.invoked, List.filter_cons_of_pos (by simpa using hskipped), List.map_cons]
  evaluated := by
    rw [hevaluated, List.filter_cons_of_pos (by simpa using hskipped), List.map_cons]
    exact List.perm_append_comm.trans (h.evaluated.cons p.node)

end Spec

/-! ### Runs -/

section Runs
variable (context : GraderContext)

theorem runLevels_true (levels : List Level) :
    runLevels context true levels = { nodes := skippedNodes levels } := by
  induction levels with
  | nil => rfl
  | cons level levels ih =>
    obtain ⟨key, extract, matcher, gate, failureMode, feedsExtract, children⟩ := level
    unfold runLevels runLevel skippedNodes
    rw [ih]
    rfl

theorem length_nodes_runLevel (gatedOff : Bool) (level : Level) :
    (runLevel context gatedOff level).nodes.length = 1 := by
  obtain ⟨key, extract, matcher, gate, failureMode, feedsExtract, children⟩ := level
  unfold runLevel
  split_ifs <;> rfl

theorem length_nodes_runLevels (gatedOff : Bool) (levels : List Level) :
    (runLevels context gatedOff levels).nodes.length = levels.length := by
  induction levels with
  | nil => rfl
  | cons level levels ih =>
    unfold runLevels
    rw [List.length_append, length_nodes_runLevel, ih, List.length_cons, add_comm]

theorem failing_iff {label : GradeLabel} :
    failing label = true ↔
      some label = some GradeLabel.fail ∨ some label = some GradeLabel.error := by
  cases label <;> simp [failing]

theorem runLevel_evaluated (key extract : String) (matcher : Grader) (gate : Bool)
    (failureMode : Option String) (feedsExtract : Bool) (children : List Level) :
    let result := gradeOf matcher (if feedsExtract then feed extract context else context)
    let below := runLevels context (gate && failing result.label) children
    let out := runLevel context false
      ⟨key, extract, matcher, gate, failureMode, feedsExtract, children⟩
    ∃ node, out.nodes = [node] ∧ node.key = key ∧ node.label = some result.label ∧
      node.weight = 1 ∧
      node.children = (result.breakdown.map (·.children)).getD [] ++ below.nodes ∧
      out.invoked = key :: below.invoked ∧ out.evaluated = below.evaluated ++ [node] := by
  unfold runLevel
  exact ⟨_, rfl, rfl, rfl, rfl, rfl, rfl, rfl⟩

mutual

/-- **One level**, and what is below it. -/
theorem runLevel_placed (gatedOff : Bool) (ancestors : List (Level × BreakdownNode))
    (hclosed : gatedOff = true ↔ ∃ above ∈ ancestors, Closes above) :
    ∀ level : Level, ∃ node, (runLevel context gatedOff level).nodes = [node] ∧
      Spec (place ancestors node level) level.preorder (runLevel context gatedOff level)
  | ⟨key, extract, matcher, gate, failureMode, feedsExtract, children⟩ => by
    cases gatedOff with
    | true =>
      -- the children are skipped as the level is, by what closes above it
      obtain ⟨closer, hcloser, hcloses⟩ := hclosed.mp rfl
      have hbelow := runLevels_placed true
        (ancestors ++ [(⟨key, extract, matcher, gate, failureMode, feedsExtract, children⟩,
          skippedNode ⟨key, extract, matcher, gate, failureMode, feedsExtract, children⟩)])
        (iff_of_true rfl ⟨closer, List.mem_append_left _ hcloser, hcloses⟩) children
      have hlength := length_nodes_runLevels context true children
      rw [runLevels_true] at hbelow hlength
      refine ⟨skippedNode ⟨key, extract, matcher, gate, failureMode, feedsExtract, children⟩, rfl,
        ?_⟩
      unfold place Level.preorder
      have hown : (skippedNode ⟨key, extract, matcher, gate, failureMode, feedsExtract,
          children⟩).children = skippedNodes children := by rw [skippedNode]
      rw [hown, hlength, Nat.sub_self, List.drop_zero]
      refine hbelow.cons_skipped ?_ ?_ ⟨closer, hcloser, hcloses⟩ rfl rfl
      · rw [skippedNode]
      · rw [skippedNode]
        exact ⟨rfl, rfl⟩
    | false =>
      have hopen : ¬∃ above ∈ ancestors, Closes above := fun h => nomatch hclosed.mpr h
      have hrun :=
        runLevel_evaluated context key extract matcher gate failureMode feedsExtract children
      generalize hresult :
        gradeOf matcher (if feedsExtract then feed extract context else context) =
        result at hrun
      have hlength := length_nodes_runLevels context (gate && failing result.label) children
      obtain ⟨node, hnode, hkey, hlabel, hweight, hown, hinvoked, hevaluated⟩ := hrun
      have hopened : ¬Skipped node := fun h => absurd (hweight.symm.trans h.2) one_ne_zero
      refine ⟨node, hnode, ?_⟩
      have hbelow := runLevels_placed (gate && failing result.label)
        (ancestors ++ [(⟨key, extract, matcher, gate, failureMode, feedsExtract, children⟩, node)])
        (by
          rw [Bool.and_eq_true]
          constructor
          · rintro ⟨hgate, hfailing⟩
            exact ⟨_, List.mem_append_right _ (List.mem_singleton_self _), hgate, hopened,
              hlabel ▸ failing_iff.mp hfailing⟩
          · rintro ⟨above, habove, hcloses⟩
            obtain hmem | hmem := List.mem_append.mp habove
            · exact absurd ⟨above, hmem, hcloses⟩ hopen
            · obtain rfl := List.mem_singleton.mp hmem
              exact ⟨hcloses.1, failing_iff.mpr (hlabel ▸ hcloses.2.2)⟩) children
      unfold place Level.preorder
      rw [hown, List.length_append, hlength, Nat.add_sub_cancel, List.drop_left]
      exact hbelow.cons_evaluated hkey hopened hopen hinvoked hevaluated

/-- **Levels side by side.** -/
theorem runLevels_placed (gatedOff : Bool) (ancestors : List (Level × BreakdownNode))
    (hclosed : gatedOff = true ↔ ∃ above ∈ ancestors, Closes above) :
    ∀ levels : List Level,
      Spec (placeAll ancestors (runLevels context gatedOff levels).nodes levels)
        (preorderAll levels)
        (runLevels context gatedOff levels)
  | [] => by
    unfold runLevels placeAll preorderAll
    exact Spec.nil []
  | level :: levels => by
    obtain ⟨node, hnode, hlevel⟩ := runLevel_placed gatedOff ancestors hclosed level
    have hrest := runLevels_placed gatedOff ancestors hclosed levels
    unfold runLevels preorderAll
    dsimp only
    rw [hnode, List.singleton_append, placeAll]
    have happend := hlevel.append hrest
    rw [hnode] at happend
    exact happend

end

end Runs

/-! ### The grade of a funnel -/

section Grade

theorem verdict_perm {labels labels' : List GradeLabel} (h : labels.Perm labels') :
    verdict labels = verdict labels' := by
  unfold verdict
  simp only [h.mem_iff]

theorem meanScore_perm {scores scores' : List (Option ℚ)} (h : scores.Perm scores') :
    meanScore scores = meanScore scores' := by
  have hscored := h.filterMap id
  unfold meanScore
  have hnil : scores.filterMap id = [] ↔ scores'.filterMap id = [] :=
    ⟨fun h => (h ▸ hscored).symm.eq_nil, fun h => (h ▸ hscored).eq_nil⟩
  simp only [hnil, hscored.sum_eq, hscored.length_eq]

/-- The levels of the funnel, each at its node in the breakdown of a grade. -/
def placed (funnel : FunnelGrader) (result : GradeResult) : List Placed :=
  placeAll [] ((result.breakdown.map (·.children)).getD []) funnel.levels

/-- The placed levels that the funnel has not skipped. -/
def ran (placed : List Placed) : List Placed := placed.filter fun p => ¬Skipped p.node

/-- **The gates hold**: every level has one node; it is skipped exactly below a gate that was
evaluated and failed, and then its match is not invoked; the counts add up, and the levels that ran,
alone, give the label and the score. -/
structure Gated (funnel : FunnelGrader) (context : GraderContext) (result : GradeResult) :
    Prop where
  one : (placed funnel result).map (·.level) = preorderAll funnel.levels
  children : ∀ root ∈ result.breakdown, root.children.length = funnel.levels.length
  key : ∀ p ∈ placed funnel result, p.node.key = p.level.key
  skipped : ∀ p ∈ placed funnel result, Skipped p.node ↔
    ∃ above ∈ p.ancestors, above.1.gate = true ∧ Failed above.2
  invoked : ∀ p ∈ placed funnel result,
    p.level.key ∈ (runLevels context false funnel.levels).invoked ↔ ¬Skipped p.node
  total : result.details =
    [("levels", .int ((ran (placed funnel result)).length +
        (placed funnel result).countP fun p => Skipped p.node)),
      ("evaluated", .int (ran (placed funnel result)).length)]
  label : result.label = verdict ((ran (placed funnel result)).filterMap (·.node.label))
  score : result.score = meanScore ((ran (placed funnel result)).map (·.node.score))

theorem funnel_gated (funnel : FunnelGrader) (context : GraderContext) :
    Gated funnel context (funnel.grade context) := by
  have hspec := runLevels_placed context false [] (by simp) funnel.levels
  have hlevels : (placed funnel (funnel.grade context)).map (·.level) = preorderAll funnel.levels :=
    hspec.level
  have hran : (runLevels context false funnel.levels).evaluated.Perm
      ((ran (placed funnel (funnel.grade context))).map (·.node)) := hspec.evaluated
  have hlength : (runLevels context false funnel.levels).evaluated.length =
      (ran (placed funnel (funnel.grade context))).length := by
    rw [hran.length_eq, List.length_map]
  refine ⟨hlevels, fun root hroot => ?_, hspec.key, hspec.skipped, fun p hp => ?_, ?_, ?_, ?_⟩
  · obtain rfl := Option.some.inj hroot
    exact length_nodes_runLevels context false funnel.levels
  · -- keys are unique, so a key that is invoked is that of the level itself
    have hinvoked : (runLevels context false funnel.levels).invoked =
        (ran (placed funnel (funnel.grade context))).map (·.level.key) := hspec.invoked
    have hnodup : ((placed funnel (funnel.grade context)).map (·.level.key)).Nodup := by
      have hkeys := funnel.keys_unique
      rw [allKeys, ← hlevels, List.map_map] at hkeys
      exact hkeys
    rw [hinvoked, List.mem_map]
    constructor
    · rintro ⟨p', hp', hkey⟩
      obtain ⟨hmem, hrun⟩ := List.mem_filter.mp hp'
      obtain rfl := List.inj_on_of_nodup_map hnodup hmem hp hkey
      exact of_decide_eq_true hrun
    · exact fun hrun => ⟨p, List.mem_filter.mpr ⟨hp, decide_eq_true hrun⟩, rfl⟩
  · have htotal : (allKeys funnel.levels).length =
        (ran (placed funnel (funnel.grade context))).length +
          (placed funnel (funnel.grade context)).countP fun p => Skipped p.node := by
      rw [allKeys, List.length_map, ← hlevels, List.length_map, ran, add_comm,
        ← List.countP_eq_length_filter, List.length_eq_countP_add_countP fun p => Skipped p.node]
      simp
    show [("levels", Json.int (allKeys funnel.levels).length),
      ("evaluated", Json.int (runLevels context false funnel.levels).evaluated.length)] = _
    rw [htotal, hlength, Nat.cast_add]
  · have hperm := hran.filterMap (·.label)
    rw [List.filterMap_map] at hperm
    exact verdict_perm hperm
  · have hperm := hran.map (·.score)
    rw [List.map_map] at hperm
    exact meanScore_perm hperm

/-- A match that always gives this label. -/
def always (name : String) (label : GradeLabel) : Grader where
  name
  grade _ := .ok { grader := name, label, reason := "" }

/-- A level that is no gate fails, and the level below it is evaluated all the same. -/
theorem not_skipped_below_failure : ∃ funnel : FunnelGrader,
    ¬∀ p ∈ placed funnel (funnel.grade .minimal),
      (Skipped p.node ↔ ∃ above ∈ p.ancestors, Failed above.2) :=
  ⟨{ name := "f"
     levels := [
       { key := "finder"
         extract := "x"
         matcher := always "finder" .fail
         children := [{ key := "resolver", extract := "y", matcher := always "resolver" .pass }] }]
     name_nonempty := by decide
     levels_nonempty := List.cons_ne_nil _ _
     keys_unique := by decide +kernel }, by decide +kernel⟩

end Grade

end Selfevals.Graders.Funnels
