import Selfevals.Graders.PanelConsensus
import Selfevals.Repo.Loader.Models

/-!
# The judge panel

A panel grades a case by the votes of its judges, which grade it side by side. It may let them grade
paraphrases of the answer, to see how far the score varies, and may pick the case for a human to
check. A judge is a function of the context: each run of the panel has a context of its own.
-/

namespace Selfevals.Graders.JudgePanel

open Graders.Base Graders.PanelConsensus Lib.JsonValue Lib.Mapping Lib.PyInt Lib.Result
open Repo.Loader.Models (Part)
open Schemas.Enums Schemas.Experiments

/-! ### The panel -/

/-- Whether variants are judged, and how many. -/
structure CounterfactualConfig where
  enabled : Bool := false
  generationStrategy : String := "paraphrase"
  pairsPerCase : ℤ := 3
  maxScoreVariance : ℚ := 5 / 100

/-- Whether a human is to check, and how often. -/
structure HumanSpotCheckConfig where
  enabled : Bool := false
  sampleRate : ℚ := 5 / 100
  triggerOnJump : ℚ := 1 / 10

/-- `_default_paraphraser`. -/
def defaultParaphraser (text : String) (variantIndex : ℕ) : String :=
  let starts := ["", "Please consider: ", "To clarify, ", "In other words, "]
  starts.getD (variantIndex % starts.length) "" ++ text

/-- An exception is known by its text. -/
structure Judge where
  name : String
  grade : GraderContext → Except String GradeResult

/-- A panel that the constructor admits. -/
structure JudgePanelGrader where
  name : String
  judges : List Judge
  consensusRule : ConsensusRule
  weights : List ℚ
  counterfactuals : CounterfactualConfig
  humanSpotCheck : HumanSpotCheckConfig
  paraphraser : String → ℕ → String
  rngSeed : ℤ
  annotatorId : String
  name_ne : name ≠ ""
  judges_ne : judges ≠ []
  weights_length : weights.length = judges.length
  weights_nonneg : ∀ w ∈ weights, 0 ≤ w
  names_nodup : (judges.map Judge.name).Nodup

/-! ### Grading -/

/-- An exception of a judge is its error. -/
def outcome (context : GraderContext) (judge : Judge) (weight : ℚ) : MemberOutcome where
  name := judge.name
  result :=
    match judge.grade context with
    | .ok result => result
    | .error raw => { grader := judge.name, label := .error, reason := "judge raised: " ++ raw }
  weight := weight

namespace JudgePanelGrader
variable (lib : Library) (p : JudgePanelGrader) (context : GraderContext)

/-- `_run_panel`: each judge is asked. -/
def runPanel : List MemberOutcome := List.zipWith (outcome context) p.judges p.weights

/-- The score of a variant; one without voters has none. -/
def variantScore : Except Raised (Option ℚ) :=
  let voters := voting (p.runPanel context)
  if voters = [] then .ok none
  else do
    let variantLabel ← combineLabels p.consensusRule voters
    return some (← combineScores p.consensusRule voters variantLabel)

/-- What the variants show. -/
structure CounterfactualResult where
  node : BreakdownNode
  details : Object
  highVariance : Bool

/-- The scores of the variants, and the links to those that have one. -/
def variantScores (variants : List GraderContext) (baseScore : ℚ) :
    Except Raised (List ℚ × List Json) :=
  variants.foldlM (fun acc variant => do
    match ← p.variantScore variant with
    | none => return acc
    | some score =>
      return (acc.1 ++ [score], acc.2 ++
        [.obj [("kind", .str "paraphrase_variant"), ("trace_id", .str variant.trace.id)]]))
    ([baseScore], [])

/-- `_counterfactual_variance`. -/
def counterfactualVariance (baseScore : ℚ) : Except Raised CounterfactualResult := do
  let cf := p.counterfactuals
  let variants := buildVariantContexts context cf.pairsPerCase p.paraphraser
  let (scores, traceLinks) ← p.variantScores variants baseScore
  let variance := populationVariance scores
  let high : Bool := cf.maxScoreVariance < variance
  return {
    node :=
      { key := "counterfactual_variance", label := none, score := some variance, weight := 0
        reason := "score variance " ++ lib.fixed4 variance ++ " over " ++ toString scores.length ++
          " paraphrase variants (threshold " ++ lib.floatStr cf.maxScoreVariance ++ ")"
        failureModes := if high then ["judge_instability"] else [] }
    details :=
      [("strategy", .str cf.generationStrategy), ("pairs_per_case", .int cf.pairsPerCase),
        ("scores", .arr (scores.map .float)), ("variance", .float variance),
        ("max_score_variance", .float cf.maxScoreVariance), ("high_variance", .bool high),
        ("trace_links", .arr traceLinks)]
    highVariance := high }

/-- What the counterfactuals add, if they are enabled: a node, details, and a doubt. -/
def counterfactual (baseScore : ℚ) : Except Raised (Option CounterfactualResult) :=
  if p.counterfactuals.enabled then (p.counterfactualVariance lib context baseScore).map some
  else .ok none

/-- What the spot check adds to the details, if it is enabled. -/
def spotChecked (label : GradeLabel) : Except Raised (Option Object) :=
  if p.humanSpotCheck.enabled then
    (spotCheck lib context label p.rngSeed p.humanSpotCheck.sampleRate p.annotatorId).map some
  else .ok none

/-- `JudgePanelGrader.grade`. -/
def grade : Except Raised GradeResult :=
  let outcomes := p.runPanel context
  let voters := voting outcomes
  if voters = [] then
    .ok
      { grader := p.name, label := .error
        reason := "all panel judges errored or were skipped; no verdict to combine"
        details := memberDetails outcomes
        breakdown := some (buildBreakdown outcomes none p.consensusRule) }
  else do
    let label ← combineLabels p.consensusRule voters
    let score ← combineScores p.consensusRule voters label
    let cf ← p.counterfactual lib context score
    let high := cf.elim false CounterfactualResult.highVariance
    -- a high variance lowers the confidence and never flips the label
    let confidence := (aggregateConfidence voters).map fun c => if high then c * (1 / 2) else c
    let check ← p.spotChecked lib context label
    return {
      grader := p.name, label
      reason := buildReason voters label p.consensusRule
      score := some score, confidence
      details := memberDetails outcomes ++
        (cf.map fun c => ("counterfactual", Json.obj c.details)).toList ++
        (check.map fun c => ("human_spot_check", Json.obj c)).toList ++
        ((calibration lib context label).map fun c => ("calibration", Json.obj c)).toList
      breakdown :=
        some (buildBreakdown outcomes (cf.map CounterfactualResult.node) p.consensusRule) }

/-! ### When a panel gives the verdict -/

/-- What a panel's verdict rests on: the voters carry weight by the rule, those of its variants do
too, and the case can be sampled, and annotated if it is picked. -/
structure Grounded : Prop where
  voters : Weighty p.consensusRule (voting (p.runPanel context))
  variants : p.counterfactuals.enabled = true →
    ∀ variant ∈ buildVariantContexts context p.counterfactuals.pairsPerCase p.paraphraser,
      voting (p.runPanel variant) ≠ [] → Weighty p.consensusRule (voting (p.runPanel variant))
  sampled : p.humanSpotCheck.enabled = true → ∃ seed, intStr p.rngSeed = some seed ∧
    (lib.random (seed ++ ":" ++ context.case.id) < p.humanSpotCheck.sampleRate → p.annotatorId ≠ "")

variable {lib p context}

theorem weight_nonneg {o : MemberOutcome} (h : o ∈ voting (p.runPanel context)) : 0 ≤ o.weight := by
  have hmem : o ∈ p.runPanel context := List.mem_of_mem_filter h
  rw [runPanel, ← List.map_uncurry_zip_eq_zipWith] at hmem
  obtain ⟨⟨judge, weight⟩, hzip, rfl⟩ := List.mem_map.mp hmem
  exact p.weights_nonneg weight (List.of_mem_zip hzip).2

theorem exists_score (hne : voting (p.runPanel context) ≠ []) {label : GradeLabel}
    (h : combineLabels p.consensusRule (voting (p.runPanel context)) = .ok label) :
    ∃ score, combineScores p.consensusRule (voting (p.runPanel context)) label = .ok score :=
  exists_combineScores p.consensusRule _
    (label_mem_of_combineLabels (fun _ => label_mem_of_mem_voting) hne (fun _ => weight_nonneg) h)

theorem exists_label_iff (hne : voting (p.runPanel context) ≠ []) :
    (∃ label, combineLabels p.consensusRule (voting (p.runPanel context)) = .ok label) ↔
      Weighty p.consensusRule (voting (p.runPanel context)) :=
  exists_combineLabels_iff (fun _ => label_mem_of_mem_voting) hne (fun _ => weight_nonneg)

theorem exists_variantScore_iff : (∃ score, p.variantScore context = .ok score) ↔
    (voting (p.runPanel context) ≠ [] →
      Weighty p.consensusRule (voting (p.runPanel context))) := by
  unfold variantScore
  dsimp only
  by_cases hnil : voting (p.runPanel context) = []
  · rw [if_pos hnil]
    exact iff_of_true ⟨none, rfl⟩ (fun hne => absurd hnil hne)
  · rw [if_neg hnil, exists_bind_ok, forall_prop_of_true hnil, ← exists_label_iff hnil]
    refine exists_congr fun label => and_iff_left_of_imp fun hlabel => ?_
    obtain ⟨score, hscore⟩ := exists_score hnil hlabel
    exact ⟨some score, by rw [hscore]; rfl⟩

theorem exists_variantScores_iff (variants : List GraderContext) (baseScore : ℚ) :
    (∃ scores, p.variantScores variants baseScore = .ok scores) ↔
      ∀ variant ∈ variants, voting (p.runPanel variant) ≠ [] →
        Weighty p.consensusRule (voting (p.runPanel variant)) := by
  refine exists_foldlM_iff fun acc variant => ?_
  rw [exists_bind_ok, ← exists_variantScore_iff]
  refine exists_congr fun score => and_iff_left_of_imp fun _ => ?_
  cases score <;> exact ⟨_, rfl⟩

theorem exists_counterfactual_iff (baseScore : ℚ) :
    (∃ cf, p.counterfactual lib context baseScore = .ok cf) ↔
      (p.counterfactuals.enabled = true →
        ∀ variant ∈ buildVariantContexts context p.counterfactuals.pairsPerCase p.paraphraser,
          voting (p.runPanel variant) ≠ [] →
            Weighty p.consensusRule (voting (p.runPanel variant))) := by
  unfold counterfactual
  by_cases henabled : p.counterfactuals.enabled = true
  · rw [if_pos henabled, forall_prop_of_true henabled, ← exists_variantScores_iff _ baseScore]
    constructor
    · rintro ⟨cf, hcf⟩
      obtain ⟨result, hresult, -⟩ := map_eq_ok.mp hcf
      obtain ⟨scores, hscores, -⟩ := bind_eq_ok.mp hresult
      exact ⟨scores, hscores⟩
    · rintro ⟨scores, hscores⟩
      exact ⟨_, by rw [counterfactualVariance]; dsimp only; rw [hscores]; rfl⟩
  · rw [if_neg henabled]
    exact iff_of_true ⟨none, rfl⟩ (fun h => absurd h henabled)

theorem exists_spotCheck_iff {label : GradeLabel} {rngSeed : ℤ} {sampleRate : ℚ}
    {annotatorId : String} :
    (∃ out, spotCheck lib context label rngSeed sampleRate annotatorId = .ok out) ↔
      ∃ seed, intStr rngSeed = some seed ∧
        (lib.random (seed ++ ":" ++ context.case.id) < sampleRate → annotatorId ≠ "") := by
  unfold spotCheck spotRoll
  cases intStr rngSeed with
  | none => simp [exists_bind_ok]
  | some seed =>
    rw [exists_bind_ok]
    by_cases hpicked : lib.random (seed ++ ":" ++ context.case.id) < sampleRate
    · by_cases hempty : annotatorId = ""
      · simp [hpicked, hempty, annotationStub]
      · simp [hpicked, hempty, annotationStub]
    · exact iff_of_true ⟨_, rfl, _, if_neg hpicked⟩ ⟨seed, rfl, fun h => absurd h hpicked⟩

theorem exists_spotChecked_iff (label : GradeLabel) :
    (∃ check, p.spotChecked lib context label = .ok check) ↔
      (p.humanSpotCheck.enabled = true → ∃ seed, intStr p.rngSeed = some seed ∧
        (lib.random (seed ++ ":" ++ context.case.id) < p.humanSpotCheck.sampleRate →
          p.annotatorId ≠ "")) := by
  unfold spotChecked
  by_cases henabled : p.humanSpotCheck.enabled = true
  · rw [if_pos henabled, forall_prop_of_true henabled,
      ← (exists_spotCheck_iff : (∃ out, spotCheck lib context label p.rngSeed _ _ = .ok out) ↔ _)]
    simp [map_eq_ok]
  · rw [if_neg henabled]
    exact iff_of_true ⟨none, rfl⟩ (fun h => absurd h henabled)

/-- **What a panel with voters grades**: the label of its rule, if all that goes with it succeeds.
-/
theorem grade_of_voting (hne : voting (p.runPanel context) ≠ []) {r : GradeResult}
    (h : p.grade lib context = .ok r) :
    combineLabels p.consensusRule (voting (p.runPanel context)) = .ok r.label ∧
      (∃ score cf, p.counterfactual lib context score = .ok cf) ∧
      ∃ check, p.spotChecked lib context r.label = .ok check := by
  unfold grade at h
  dsimp only at h
  rw [if_neg hne] at h
  obtain ⟨label, hlabel, h⟩ := bind_eq_ok.mp h
  obtain ⟨score, -, h⟩ := bind_eq_ok.mp h
  obtain ⟨cf, hcf, h⟩ := bind_eq_ok.mp h
  obtain ⟨check, hcheck, h⟩ := bind_eq_ok.mp h
  obtain rfl := Except.ok.inj h
  exact ⟨hlabel, ⟨score, cf, hcf⟩, check, hcheck⟩

theorem exists_grade (hne : voting (p.runPanel context) ≠ []) (h : p.Grounded lib context) :
    ∃ r, p.grade lib context = .ok r := by
  obtain ⟨label, hlabel⟩ := (exists_label_iff hne).mpr h.voters
  obtain ⟨score, hscore⟩ := exists_score hne hlabel
  obtain ⟨cf, hcf⟩ := (exists_counterfactual_iff score).mpr h.variants
  obtain ⟨check, hcheck⟩ := (exists_spotChecked_iff label).mpr h.sampled
  unfold grade
  dsimp only
  rw [if_neg hne, hlabel]
  simp only [exists_bind_ok]
  exact ⟨label, rfl, score, hscore, cf, hcf, check, hcheck, _, rfl⟩

end JudgePanelGrader

/-! ### A judge without weight -/

/-- One judge, which passes the case and has no weight. -/
def weightless : JudgePanelGrader where
  name := "panel"
  judges := [{
    name := "judge", grade := fun _ => .ok { grader := "judge", label := .pass, reason := "" } }]
  consensusRule := .weighted
  weights := [0]
  counterfactuals := {}
  humanSpotCheck := {}
  paraphraser := defaultParaphraser
  rngSeed := 0
  annotatorId := "panel-spot-check"
  name_ne := by decide
  judges_ne := by simp
  weights_length := rfl
  weights_nonneg := by simp
  names_nodup := by simp

def someLibrary : Library where
  random _ := 1 / 2
  newPrefixedId start := start ++ "_0"
  utcNow := "2026-01-01T00:00:00Z"
  str _ := ""
  lower s := s
  floatStr _ := "0.05"
  fixed4 _ := "0.0000"

end Selfevals.Graders.JudgePanel
