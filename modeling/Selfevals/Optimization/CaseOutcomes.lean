import Mathlib.Data.List.ReduceOption
import Selfevals.Optimization.Aggregator
import Selfevals.Optimization.CaseGraders

/-!
# From the repetitions of a case to its outcome

A case is executed a number of times and every execution is graded; `outcomeFor` rolls the grades up
into the case's `CaseOutcome`. A conversation leaves one result for each turn, which
`collapseConversationTurns` first folds into one for each thread, the final turn standing for it. Of
a trace only what the outcome reads is kept.
-/

namespace Selfevals.Optimization.CaseOutcomes

open Lib.Mapping Graders.Base Graders.Registry Optimization.Aggregator Optimization.CaseGraders

/-! ### Results -/

/-- What the outcome reads of a trace; `cacheHits` says of each model call whether it was one. -/
structure RunTrace where
  id : String
  threadId : Option String := none
  threadPosition : Option ℕ := none
  totalCostUsd : ℚ := 0
  totalDurationMs : ℤ := 0
  cacheHits : List Bool := []
deriving DecidableEq, Repr

/-- One execution of a case. -/
structure RepetitionResult where
  repetition : ℕ
  trace : RunTrace
  error : Option String := none
deriving DecidableEq, Repr

/-- Whose message it is. -/
inductive MessageRole
  | system | user | assistant | tool
deriving DecidableEq, Repr

/-- The turns of a conversation end at its user and tool messages. -/
def turnCount (messages : List MessageRole) : ℕ := messages.countP fun m => m = .user ∨ m = .tool

/-- A case that can be run: a conversation without a turn raises before anything runs. -/
structure EvalCase where
  id : String
  graders : List String := []
  /-- The roles of `input["messages"]`, of a conversation. -/
  messages : Option (List MessageRole) := none
  failureWeights : Dict String ℤ := .empty
  criticalFailureModes : List String := []
  turns_pos : ∀ m ∈ messages, 0 < turnCount m

theorem turns_pos_none : ∀ m ∈ (none : Option (List MessageRole)), 0 < turnCount m :=
  fun _ h => absurd h (Option.not_mem_none _)

/-! ### The outcome -/

/-- The score of a label, for graders that give none. -/
def mapScore : GradeLabel → ℚ
  | .pass => 1
  | .partialPass => 1 / 2
  | .fail | .error | .skipped => 0

/-- `_pick_score`. -/
def pickScore (results : List GradeResult) : ℚ :=
  let explicit := results.filterMap (·.score)
  if explicit ≠ [] then mean explicit
  else if results.isEmpty then 0
  else mean (results.map fun r => mapScore r.label)

/-- `_outcome_for`. -/
def outcomeFor (case : EvalCase) (repetitions : List RepetitionResult)
    (gradesPerRep : List (List GradeResult)) : CaseOutcome where
  caseId := case.id
  perRepetitionLabel := repetitionLabels (repetitions.map fun rep => rep.error.isSome)
    (gradesPerRep.map fun results => results.map (·.label))
  perRepetitionScore := gradesPerRep.map pickScore
  failureModes := gradesPerRep.flatten.flatMap (·.failureModes)
  costUsd := (repetitions.map fun rep => rep.trace.totalCostUsd).sum
  durationMs := (repetitions.map fun rep => rep.trace.totalDurationMs).sum
  cacheHitCount := ((repetitions.flatMap fun rep => rep.trace.cacheHits).countP id : ℕ)
  llmCallCount := ((repetitions.flatMap fun rep => rep.trace.cacheHits).length : ℕ)
  breakdowns := gradesPerRep.flatten.filterMap (·.breakdown)
  perGraderLabel := .gather (gradesPerRep.flatten.map fun r => (r.grader, r.label))
  failureWeights := case.failureWeights
  criticalFailureModes := case.criticalFailureModes

/-- Every grade passes. -/
def AllPass (grades : List GradeResult) : Prop := ∀ r ∈ grades, r.label = .pass

theorem pickLabel_pass {labels : List GradeLabel} (hne : labels ≠ [])
    (hpass : ∀ label ∈ labels, label = .pass) : pickLabel labels = .pass := by
  obtain ⟨label, rest, rfl⟩ := List.exists_cons_of_ne_nil hne
  obtain ⟨rfl, hrest⟩ := List.forall_mem_cons.mp hpass
  show rest.foldl (fun worst l => if severity worst < severity l then l else worst) .pass = .pass
  clear hne hpass
  induction rest with
  | nil => rfl
  | cons label rest ih =>
    obtain ⟨rfl, hrest'⟩ := List.forall_mem_cons.mp hrest
    exact ih hrest'

theorem severity_le_pickLabel {labels : List GradeLabel} {label : GradeLabel} (h : label ∈ labels) :
    severity label ≤ severity (pickLabel labels) := by
  obtain ⟨first, rest, rfl⟩ := List.exists_cons_of_ne_nil (List.ne_nil_of_mem h)
  have hfold : ∀ (rest : List GradeLabel) (worst : GradeLabel),
      (∀ l ∈ worst :: rest, severity l ≤
        severity (rest.foldl (fun worst l =>
          if severity worst < severity l then l else worst) worst)) := by
    intro rest
    induction rest with
    | nil => exact fun worst l hl => (List.mem_singleton.mp hl) ▸ le_rfl
    | cons next rest ih =>
      intro worst
      rw [List.foldl_cons]
      have hworse := ih (if severity worst < severity next then next else worst)
      have hhead := hworse _ List.mem_cons_self
      refine List.forall_mem_cons.mpr ⟨le_trans ?_ hhead,
        List.forall_mem_cons.mpr ⟨le_trans ?_ hhead,
        fun l hl => hworse l (List.mem_cons_of_mem _ hl)⟩⟩
      · split_ifs <;> omega
      · split_ifs <;> omega
  exact hfold rest first label h

/-- **PASS is picked** where there is a label and every one is PASS. -/
theorem pickLabel_eq_pass_iff {labels : List GradeLabel} :
    pickLabel labels = .pass ↔ labels ≠ [] ∧ ∀ label ∈ labels, label = .pass := by
  refine ⟨fun h => ⟨?_, fun label hlabel => ?_⟩, fun h => pickLabel_pass h.1 h.2⟩
  · rintro rfl
    cases h
  · have hle := severity_le_pickLabel hlabel
    rw [h] at hle
    cases label <;> simp [severity] at hle ⊢

theorem pickLabel_mem {labels : List GradeLabel} (hne : labels ≠ []) :
    pickLabel labels ∈ labels := by
  obtain ⟨first, rest, rfl⟩ := List.exists_cons_of_ne_nil hne
  show rest.foldl (fun worst l => if severity worst < severity l then l else worst) first ∈ _
  clear hne
  induction rest generalizing first with
  | nil => exact List.mem_singleton_self first
  | cons next rest ih =>
    rw [List.foldl_cons]
    split_ifs
    · exact List.mem_cons_of_mem _ (ih next)
    · exact List.cons_subset_cons first (List.subset_cons_self next rest) (ih first)

/-- **ERROR is picked** where it is there. -/
theorem pickLabel_eq_error_iff {labels : List GradeLabel} :
    pickLabel labels = .error ↔ .error ∈ labels := by
  constructor
  · intro h
    have hne : labels ≠ [] := by
      rintro rfl
      cases h
    exact h ▸ pickLabel_mem hne
  · intro h
    have hle := severity_le_pickLabel h
    cases hpick : pickLabel labels <;> simp [hpick, severity] at hle ⊢

section Outcome
variable (case : EvalCase) {repetitions : List RepetitionResult}
  {gradesPerRep : List (List GradeResult)}

@[simp] theorem length_labels_outcomeFor :
    (outcomeFor case repetitions gradesPerRep).perRepetitionLabel.length = gradesPerRep.length := by
  simp [outcomeFor, repetitionLabels]

/-- **A repetition without an error that every grader passes** has the label PASS. -/
theorem labels_outcomeFor (herror : ∀ rep ∈ repetitions, rep.error = none)
    (hne : ∀ grades ∈ gradesPerRep, grades ≠ [])
    (hpass : ∀ grades ∈ gradesPerRep, AllPass grades) :
    (outcomeFor case repetitions gradesPerRep).perRepetitionLabel =
      List.replicate gradesPerRep.length .pass := by
  have hnone : ∀ idx, (repetitions.map fun rep => rep.error.isSome).getD idx false = false := by
    intro idx
    rw [List.getD_eq_getElem?_getD, List.getElem?_map]
    rcases hidx : repetitions[idx]? with _ | rep
    · rfl
    · simp [herror rep (List.mem_of_getElem? hidx)]
  refine List.eq_replicate_iff.mpr ⟨length_labels_outcomeFor case, fun label hlabel => ?_⟩
  obtain ⟨idx, hidx, rfl⟩ := List.mem_mapIdx.mp hlabel
  rw [hnone, if_neg Bool.false_ne_true, List.getElem_map]
  have hlt : idx < gradesPerRep.length := by simpa using hidx
  have hmem : gradesPerRep[idx] ∈ gradesPerRep := List.getElem_mem _
  refine pickLabel_pass (by simpa using hne _ hmem) fun label hlabel => ?_
  obtain ⟨r, hr, rfl⟩ := List.mem_map.mp hlabel
  exact hpass _ hmem r hr

/-- **Each grader's labels** are those of the grades it signs, in order. -/
theorem get?_perGraderLabel (grader : String) :
    (outcomeFor case repetitions gradesPerRep).perGraderLabel.get? grader =
      let signed := (gradesPerRep.flatten.filter fun r => r.grader = grader).map (·.label)
      if signed = [] then none else some signed := by
  have hunder : Dict.under grader (gradesPerRep.flatten.map fun r => (r.grader, r.label)) =
      (gradesPerRep.flatten.filter fun r => r.grader = grader).map (·.label) := by
    rw [Dict.under, List.filter_map, List.map_map]
    rfl
  dsimp only
  rw [← hunder]
  exact Dict.get?_gather _ _

theorem length_signed (grader : String) {signatures : List String}
    (hrows : ∀ grades ∈ gradesPerRep, grades.map (·.grader) = signatures) :
    (gradesPerRep.flatten.filter fun r => r.grader = grader).length =
      gradesPerRep.length * signatures.count grader := by
  induction gradesPerRep with
  | nil => simp
  | cons grades rest ih =>
    obtain ⟨hgrades, hrest⟩ := List.forall_mem_cons.mp hrows
    have hrow : (grades.filter fun r => r.grader = grader).length = signatures.count grader := by
      rw [← hgrades, List.count_eq_countP, List.countP_map, ← List.countP_eq_length_filter]
      refine List.countP_congr fun r _ => ?_
      simp
    rw [List.flatten_cons, List.filter_append, List.length_append, ih hrest, hrow, List.length_cons,
      Nat.succ_mul, Nat.add_comm]

end Outcome

/-! ### Conversations -/

/-- `rep.trace.run.thread_id or rep.trace.id`; a thread id is not empty. -/
def threadOf (rep : RepetitionResult) : String := rep.trace.threadId.getD rep.trace.id

/-- The advisory node of one turn. -/
def turnNode (position : ℕ) (turnGrade : Option GradeResult) : BreakdownNode where
  key := s!"turn_{position}"
  label := turnGrade.map (·.label)
  score := turnGrade.bind (·.score)
  weight := 0
  reason := "per-turn diagnostic (advisory)"
  children := ((turnGrade.bind (·.breakdown)).map (·.children)).getD []

/-- The grade of a thread: that of its final turn, with a node for each turn under it. -/
def syntheticGrade (turns : List (RepetitionResult × List GradeResult)) (gIndex : ℕ)
    (finalGrade : GradeResult) : GradeResult :=
  { finalGrade with
    breakdown := some {
      key := "conversation"
      label := some finalGrade.label
      score := finalGrade.score
      children := turns.mapIdx fun position turn => turnNode position turn.2[gIndex]? } }

/-- The turns of a thread, in order, as one repetition. There is none when there are no turns. -/
def collapseThread (repIndex : ℕ) (turns : List (RepetitionResult × List GradeResult)) :
    Option (RepetitionResult × List GradeResult) :=
  turns.getLast?.map fun final =>
    ({ repetition := repIndex
       trace := final.1.trace
       error := (turns.filterMap fun turn => turn.1.error).head? },
     final.2.mapIdx (syntheticGrade turns))

/-- The turns of a thread, by their position. -/
def turnsOf (turns : List (RepetitionResult × List GradeResult)) (threadId : String) :
    List (RepetitionResult × List GradeResult) :=
  (turns.filter fun turn => threadOf turn.1 = threadId).insertionSort fun a b =>
    a.1.trace.threadPosition.getD 0 ≤ b.1.trace.threadPosition.getD 0

/-- The threads of a conversation, in the order they first appear. -/
def collapsedThreads (turns : List (RepetitionResult × List GradeResult)) :
    List (RepetitionResult × List GradeResult) :=
  let order := firstSeen (turns.map fun turn => threadOf turn.1)
  (order.mapIdx fun repIndex threadId =>
    collapseThread repIndex (turnsOf turns threadId)).reduceOption

/-- `collapse_conversation_turns`. -/
def collapseConversationTurns (repetitions : List RepetitionResult)
    (gradesPerTurn : List (List GradeResult)) : List RepetitionResult × List (List GradeResult) :=
  (collapsedThreads (repetitions.zip gradesPerTurn)).unzip

section Collapse
variable {turns : List (RepetitionResult × List GradeResult)}

theorem mem_turnsOf {threadId : String} {turn : RepetitionResult × List GradeResult} :
    turn ∈ turnsOf turns threadId ↔ turn ∈ turns ∧ threadOf turn.1 = threadId := by
  rw [turnsOf, (List.perm_insertionSort _ _).mem_iff, List.mem_filter, decide_eq_true_iff]

/-- **A collapsed conversation has one result for each thread.** -/
theorem length_collapsedThreads :
    (collapsedThreads turns).length =
      (firstSeen (turns.map fun turn => threadOf turn.1)).length := by
  unfold collapsedThreads
  dsimp only
  rw [List.reduceOption_length_eq, List.filter_eq_self.mpr ?_, List.length_mapIdx]
  intro result hresult
  obtain ⟨repIndex, hidx, rfl⟩ := List.mem_mapIdx.mp hresult
  -- a thread that was seen has a turn
  have hseen : (firstSeen (turns.map fun turn => threadOf turn.1))[repIndex] ∈
      turns.map fun turn => threadOf turn.1 := mem_firstSeen.mp (List.getElem_mem _)
  obtain ⟨turn, hturn, hthread⟩ := List.mem_map.mp hseen
  unfold collapseThread
  rw [Option.isSome_map, List.getLast?_isSome]
  exact List.ne_nil_of_mem (mem_turnsOf.mpr ⟨hturn, hthread⟩)

theorem flatMap_reduceOption_mapIdx {α β γ : Type} (F : ℕ → α → Option β) (f : β → List γ)
    (g : α → List γ) (as : List α) (h : ∀ i, ∀ a ∈ as, ((F i a).toList.flatMap f).Perm (g a)) :
    ((as.mapIdx F).reduceOption.flatMap f).Perm (as.flatMap g) := by
  induction as generalizing F with
  | nil => rfl
  | cons a as ih =>
    have hrest := ih (fun i => F (i + 1)) fun i b hb => h (i + 1) b (List.mem_cons_of_mem _ hb)
    have hfirst := h 0 a List.mem_cons_self
    rw [List.mapIdx_cons, List.flatMap_cons]
    refine List.Perm.trans ?_ (hfirst.append hrest)
    cases F 0 a with
    | none => rfl
    | some b =>
      rw [List.reduceOption_cons_of_some, List.flatMap_cons]
      simp

theorem flatMap_collapsedThreads {γ : Type} {f : RepetitionResult × List GradeResult → List γ}
    {g : List (RepetitionResult × List GradeResult) → List γ}
    (h : ∀ repIndex threadTurns, threadTurns ⊆ turns →
      ((collapseThread repIndex threadTurns).toList.flatMap f).Perm (g threadTurns)) :
    ((collapsedThreads turns).flatMap f).Perm
      ((firstSeen (turns.map fun turn => threadOf turn.1)).flatMap fun threadId =>
        g (turnsOf turns threadId)) :=
  flatMap_reduceOption_mapIdx _ _ _ _ fun repIndex _ _ =>
    h repIndex _ fun _ hturn => (mem_turnsOf.mp hturn).1

theorem flatMap_filter_perm {α κ : Type} [DecidableEq κ] (key : α → κ) {keys : List κ}
    (hnodup : keys.Nodup) (as : List α) (h : ∀ a ∈ as, key a ∈ keys) :
    (keys.flatMap fun k => as.filter fun a => key a = k).Perm as := by
  induction keys generalizing as with
  | nil =>
    rw [List.eq_nil_iff_forall_not_mem.mpr fun a ha => absurd (h a ha) List.not_mem_nil]
    rfl
  | cons k keys ih =>
    obtain ⟨hk, hnodup⟩ := List.nodup_cons.mp hnodup
    have hrest : (keys.flatMap fun k' => (as.filter fun a => !decide (key a = k)).filter
        fun a => key a = k').Perm (as.filter fun a => !decide (key a = k)) := by
      refine ih hnodup _ fun a ha => ?_
      obtain ⟨hmem, hne⟩ := List.mem_filter.mp ha
      exact (List.mem_cons.mp (h a hmem)).resolve_left (by simpa using hne)
    -- the other keys see only what has another key
    have hother : ∀ k' ∈ keys, ((as.filter fun a => !decide (key a = k)).filter
        fun a => key a = k') = as.filter fun a => key a = k' := by
      intro k' hk'
      rw [List.filter_filter]
      refine List.filter_congr fun a _ => ?_
      by_cases ha : key a = k'
      · have hne : k' ≠ k := fun heq => hk (heq ▸ hk')
        simp [ha, hne]
      · simp [ha]
    rw [List.flatMap_congr hother] at hrest
    exact (hrest.append_left _).trans (List.filter_append_perm _ _)

/-- **Every turn is in one thread.** -/
theorem flatMap_turnsOf_perm (turns : List (RepetitionResult × List GradeResult)) :
    ((firstSeen (turns.map fun turn => threadOf turn.1)).flatMap (turnsOf turns)).Perm turns := by
  refine List.Perm.trans (List.Perm.flatMap_left _ fun threadId _ => List.perm_insertionSort _ _) ?_
  exact flatMap_filter_perm (fun turn =>
    threadOf turn.1) (nodup_firstSeen _) turns fun turn hturn =>
    mem_firstSeen.mpr (List.mem_map.mpr ⟨turn, hturn, rfl⟩)

theorem map_mapIdx_syntheticGrade (grades : List GradeResult) {β : Type} (f : GradeResult → β)
    (hf : ∀ gIndex r, f (syntheticGrade turns gIndex r) = f r) :
    (grades.mapIdx (syntheticGrade turns)).map f = grades.map f := by
  refine List.ext_getElem (by simp) fun idx h _ => ?_
  rw [List.getElem_map, List.getElem_mapIdx, List.getElem_map]
  exact hf _ _

/-- **A collapsed result is graded as one of the turns**, and has no error when none of them has. -/
theorem collapsedThreads_spec {collapsed : RepetitionResult × List GradeResult}
    (h : collapsed ∈ collapsedThreads turns) :
    (∃ turn ∈ turns, collapsed.2.map (·.grader) = turn.2.map (·.grader) ∧
        collapsed.2.map (·.label) = turn.2.map (·.label)) ∧
      ((∀ turn ∈ turns, turn.1.error = none) → collapsed.1.error = none) := by
  unfold collapsedThreads at h
  rw [List.reduceOption_mem_iff, List.mem_mapIdx] at h
  obtain ⟨repIndex, hidx, hcollapsed⟩ := h
  obtain ⟨final, hfinal, rfl⟩ := Option.map_eq_some_iff.mp hcollapsed
  have hmem : final ∈ turns := (mem_turnsOf.mp (List.mem_of_getLast? hfinal)).1
  refine ⟨⟨final, hmem, map_mapIdx_syntheticGrade _ _ fun _ _ => rfl,
    map_mapIdx_syntheticGrade _ _ fun _ _ => rfl⟩, fun hnone => ?_⟩
  have hempty :
    (turnsOf turns (firstSeen (turns.map fun turn => threadOf turn.1))[repIndex]).filterMap
      (fun turn => turn.1.error) = [] := by
    rw [List.filterMap_eq_nil_iff]
    exact fun turn hturn => hnone turn (mem_turnsOf.mp hturn).1
  dsimp only
  rw [hempty]
  rfl

end Collapse

end Selfevals.Optimization.CaseOutcomes
