import Selfevals.Graders.Base
import Selfevals.Graders.Confusion
import Selfevals.Lib.PyStr
import Selfevals.Lib.Result
import Selfevals.Lib.WeightedVote
import Selfevals.Schemas.Experiments

/-!
# Consensus of a panel of judges

The members of a panel that pass, fail or half pass a case vote; the others are left out. A
consensus rule turns the votes into one label and one score. Weights and scores are exact rationals.

* `combineLabels_isOk_iff`: a rule gives a label where the votes carry weight by it.
-/

namespace Selfevals.Graders.PanelConsensus

open Graders.Base Graders.Confusion Lib.JsonValue Lib.Mapping Lib.PyInt Lib.PyStr Lib.Result
  Lib.WeightedVote Schemas.Enums Schemas.Experiments

/-! ### Grades -/

/-- A `ValueError`, a `KeyError`, and pydantic's refusal of a field. -/
inductive Raised
  | valueError
  | keyError
  | validationError (field : String)
deriving DecidableEq, Repr

/-- What the panel asks of the language and the libraries. -/
structure Library where
  /-- `random.Random(seed).random()`. -/
  random : String → ℚ
  newPrefixedId : String → String
  /-- `utc_now()`, as JSON. -/
  utcNow : String
  str : Json → String
  lower : String → String
  floatStr : ℚ → String
  /-- `f"{q:.4f}"`. -/
  fixed4 : ℚ → String

/-- What one member of the panel says, and its weight. -/
structure MemberOutcome where
  name : String
  result : GradeResult
  weight : ℚ

/-! ### Votes -/

/-- `_LABEL_SCORE`. -/
def labelScore : GradeLabel → Option ℚ
  | .pass => some 1
  | .partialPass => some (1 / 2)
  | .fail => some 0
  | .error | .skipped => none

def votingLabels : List GradeLabel := [.fail, .partialPass, .pass]

/-- `_CONSERVATISM_RANK`. -/
def conservatismRank : GradeLabel → Option ℕ
  | .fail => some 0
  | .partialPass => some 1
  | .pass => some 2
  | .error | .skipped => none

/-- The ranks of the labels that vote. -/
def rankOf (label : GradeLabel) : ℕ := (conservatismRank label).getD 0

/-- The members that have a vote. -/
def voting (outcomes : List MemberOutcome) : List MemberOutcome :=
  outcomes.filter fun o => o.result.label ∈ votingLabels

section Argmax
variable {α : Type} [AddCommMonoid α] [LinearOrder α]

/-- The greater total first, then the lesser rank; the maximum of no label raises. -/
def argmaxLabel (tally : Dict GradeLabel α) : Except Raised GradeLabel :=
  let total (label : GradeLabel) : α := (tally.get? label).getD 0
  match (votingLabels.filter fun label => total label ≠ 0).argmax fun label =>
      toLex (total label, OrderDual.toDual (rankOf label)) with
  | some label => .ok label
  | none => .error .valueError

end Argmax

/-- The minimum of no label raises, and so does a label without a rank. -/
def mostConservative (labels : List GradeLabel) : Except Raised GradeLabel :=
  if labels.any fun label => (conservatismRank label).isNone then .error .keyError
  else
    match labels.argmin rankOf with
    | some label => .ok label
    | none => .error .valueError

/-- `combine_labels`. -/
def combineLabels (consensusRule : ConsensusRule) (voters : List MemberOutcome) :
    Except Raised GradeLabel :=
  let labels := voters.map fun o => o.result.label
  match consensusRule with
  | .unanimous =>
    if labels ≠ [] ∧ ∀ label ∈ labels, label = .pass then .ok .pass else mostConservative labels
  | .weighted => argmaxLabel (Dict.tally (voters.map fun o => (o.result.label, o.weight)))
  | .majority => argmaxLabel (Dict.count labels)

/-- The score of a member's grade. -/
def memberScore (result : GradeResult) : ℚ :=
  match result.score with
  | some score => score
  | none => (labelScore result.label).getD 0

/-- `combine_scores`. -/
def combineScores (consensusRule : ConsensusRule) (voters : List MemberOutcome)
    (label : GradeLabel) : Except Raised ℚ :=
  let weightOf (o : MemberOutcome) : ℚ := if consensusRule = .weighted then o.weight else 1
  let num := (voters.map fun o => weightOf o * memberScore o.result).sum
  let den := (voters.map weightOf).sum
  if den = 0 then
    match labelScore label with
    | some score => .ok score
    | none => .error .keyError
  else .ok (num / den)

/-- `aggregate_confidence`. -/
def aggregateConfidence (voters : List MemberOutcome) : Option ℚ :=
  let confidences := voters.filterMap fun o => o.result.confidence
  if confidences = [] then none else some (confidences.sum / confidences.length)

/-- `population_variance`. -/
def populationVariance (values : List ℚ) : ℚ :=
  if values.length < 2 then 0
  else
    let mean := values.sum / values.length
    (values.map fun v => (v - mean) ^ 2).sum / values.length

/-! ### Variants of a case -/

/-- The paraphrased copies of a context, each with a trace id of its own. -/
def buildVariantContexts (context : GraderContext) (n : ℤ) (paraphraser : String → ℕ → String) :
    List GraderContext :=
  let baseText := (context.response.bind (·.content)).getD ""
  (List.range n.toNat).map fun i =>
    { context with
      trace := { context.trace with id := context.trace.id ++ "-cf" ++ toString i }
      response := some {
        context.response.getD { content := none } with content := some (paraphraser baseText i) } }

/-! ### Advice -/

section Advice
variable (lib : Library) (context : GraderContext) (label : GradeLabel)

/-- `_annotation_stub`. -/
def annotationStub (annotatorId : String) : Except Raised Object :=
  if annotatorId = "" then .error (.validationError "annotator_id")
  else
    .ok [("id", .str (lib.newPrefixedId "ann")), ("workspace_id", .str context.case.workspaceId),
      ("version", .int 1), ("created_at", .str lib.utcNow), ("updated_at", .str lib.utcNow),
      ("deleted_at", .null), ("case_id", .str context.case.id), ("trace_id", .str context.trace.id),
      ("annotator_id", .str annotatorId),
      ("labels", .obj [("rubric_version", .null),
        ("data", .obj [("panel_label", .str (Coded.value label)),
          ("status", .str "pending_human_review")])]),
      ("notes", .str "seeded panel spot-check; awaiting human label"), ("confidence", .float 1),
      ("flagged_for_adjudication", .bool true), ("started_at", .null), ("submitted_at", .null),
      ("duration_seconds", .null)]

/-- A seed of too many digits has no decimal text. -/
def spotRoll (rngSeed : ℤ) : Except Raised ℚ :=
  match intStr rngSeed with
  | some seed => .ok (lib.random (seed ++ ":" ++ context.case.id))
  | none => .error .valueError

/-- `spot_check`. -/
def spotCheck (rngSeed : ℤ) (sampleRate : ℚ) (annotatorId : String) : Except Raised Object := do
  let roll ← spotRoll lib context rngSeed
  let out : Object := [("selected", .bool (roll < sampleRate)), ("sample_rate", .float sampleRate),
    ("roll", .float roll)]
  if roll < sampleRate then
    return out ++ [("annotation_stub", .obj (← annotationStub lib context label annotatorId))]
  else return out

/-- The label that a human gave, if the case's context holds one. -/
def reachableHumanLabel : Option GradeLabel := do
  let raw ← (← context.case.context).lookup "human_label"
  if raw = .null then none else Coded.ofValue (lib.lower (strip (lib.str raw)))

/-- The metrics of one pair, the human's label and the panel's. -/
def calibration : Option Object := do
  let humanLabel ← reachableHumanLabel lib context
  let report := confusionFromPairs [(Coded.value humanLabel, Coded.value label)]
  return [("advisory", .bool true), ("human_label", .str (Coded.value humanLabel)),
    ("panel_label", .str (Coded.value label)), ("n_pairs", .int report.nPairs),
    ("accuracy", .float report.accuracy), ("agreement", .bool (label = humanLabel))]

end Advice

/-! ### Texts -/

/-- `build_breakdown`. -/
def buildBreakdown (outcomes : List MemberOutcome) (cfNode : Option BreakdownNode)
    (consensusRule : ConsensusRule) : BreakdownNode where
  key := "judge_panel"
  reason := "consensus_rule=" ++ Coded.value consensusRule
  children := (outcomes.map fun o =>
    { key := o.name, label := some o.result.label, score := o.result.score, weight := o.weight,
      reason := o.result.reason, failureModes := o.result.failureModes }) ++ cfNode.toList

/-- A score, or `None`. -/
def floatOrNull : Option ℚ → Json
  | some q => .float q
  | none => .null

/-- `member_details`. -/
def memberDetails (outcomes : List MemberOutcome) : Object :=
  [("judges", .arr (outcomes.map fun o =>
    .obj [("name", .str o.name), ("label", .str (Coded.value o.result.label)),
      ("score", floatOrNull o.result.score), ("confidence", floatOrNull o.result.confidence),
      ("weight", .float o.weight), ("reason", .str o.result.reason)]))]

/-- `build_reason`. -/
def buildReason (voters : List MemberOutcome) (label : GradeLabel) (rule : ConsensusRule) :
    String :=
  let breakdown :=
    ", ".intercalate (voters.map fun o => o.name ++ "=" ++ Coded.value o.result.label)
  "panel verdict " ++ Coded.value label ++ " via " ++ Coded.value rule ++ " consensus (" ++
    breakdown ++
    ")"

/-! ### The verdict of the votes -/

theorem mem_votingLabels {label : GradeLabel} :
    label ∈ votingLabels ↔ label = .fail ∨ label = .partialPass ∨ label = .pass := by
  simp [votingLabels]

theorem label_mem_of_mem_voting {outcomes : List MemberOutcome} {o : MemberOutcome}
    (h : o ∈ voting outcomes) : o.result.label ∈ votingLabels := by
  simpa using List.of_mem_filter h

theorem exists_labelScore {label : GradeLabel} (h : label ∈ votingLabels) :
    ∃ score, labelScore label = some score := by
  obtain rfl | rfl | rfl := mem_votingLabels.mp h <;> exact ⟨_, rfl⟩

theorem exists_conservatismRank {label : GradeLabel} (h : label ∈ votingLabels) :
    ∃ rank, conservatismRank label = some rank := by
  obtain rfl | rfl | rfl := mem_votingLabels.mp h <;> exact ⟨_, rfl⟩

/-- The vote of each member, which counts once. -/
def votes (voters : List MemberOutcome) : List (GradeLabel × ℕ) :=
  voters.map fun o => (o.result.label, 1)

/-- The labels of the voters with their weights. -/
def weightedVotes (voters : List MemberOutcome) : List (GradeLabel × ℚ) :=
  voters.map fun o => (o.result.label, o.weight)

/-- The verdict of the voters: an error where there are none; by a majority or by weight, the label
with the most behind it; by the unanimous rule a pass where all pass, else the most conservative
label. -/
def IsVerdict (rule : ConsensusRule) (voters : List MemberOutcome) (label : GradeLabel) : Prop :=
  (label = .error ↔ voters = []) ∧
    (voters ≠ [] →
      match rule with
      | .majority => Winner rankOf (votes voters) label
      | .weighted => Winner rankOf (weightedVotes voters) label
      | .unanimous => (label = .pass ↔ ∀ o ∈ voters, o.result.label = .pass) ∧
          (∃ o ∈ voters, o.result.label = label) ∧
          ∀ o ∈ voters, rankOf label ≤ rankOf o.result.label)

/-- By weight, some voter has a weight. -/
def Weighty (rule : ConsensusRule) (voters : List MemberOutcome) : Prop :=
  rule = .weighted → ∃ o ∈ voters, 0 < o.weight

theorem weighty_of_ne {rule : ConsensusRule} {voters : List MemberOutcome}
    (h : rule ≠ .weighted) : Weighty rule voters := fun heq => absurd heq h

section Argmax
variable {α : Type} [AddCommMonoid α] [LinearOrder α] [IsOrderedAddMonoid α]
variable {ballots : List (GradeLabel × α)} (hnonneg : ∀ v ∈ ballots, 0 ≤ v.2)
variable (hvoting : ∀ v ∈ ballots, v.1 ∈ votingLabels)
include hnonneg hvoting

theorem winner_of_argmaxLabel {label : GradeLabel}
    (h : argmaxLabel (Dict.tally ballots) = .ok label) :
    Winner rankOf ballots label := by
  unfold argmaxLabel at h
  simp only [getD_tally] at h
  split at h
  · rename_i found hfound
    obtain rfl := Except.ok.inj h
    exact winner_of_mem_argmax hnonneg hvoting rankOf hfound
  · cases h

theorem exists_argmaxLabel_iff :
    (∃ label, argmaxLabel (Dict.tally ballots) = .ok label) ↔ ∃ v ∈ ballots, 0 < v.2 := by
  have hnone := argmax_eq_none_iff hnonneg hvoting fun c =>
    toLex (behind c ballots, OrderDual.toDual (rankOf c))
  have hsome : (∃ v ∈ ballots, 0 < v.2) ↔ ¬∀ v ∈ ballots, v.2 = 0 := by
    push Not
    exact exists_congr fun v => and_congr_right fun hv => (hnonneg v hv).lt_iff_ne'
  unfold argmaxLabel
  simp only [getD_tally]
  rw [hsome, ← hnone]
  cases hfound : (votingLabels.filter fun c => behind c ballots ≠ 0).argmax fun c =>
      toLex (behind c ballots, OrderDual.toDual (rankOf c)) with
  | none => simp
  | some label => simp

end Argmax

theorem exists_combineScores (rule : ConsensusRule) (voters : List MemberOutcome)
    {label : GradeLabel}
    (h : label ∈ votingLabels) : ∃ score, combineScores rule voters label = .ok score := by
  obtain ⟨score, hscore⟩ := exists_labelScore h
  unfold combineScores
  dsimp only
  rw [hscore]
  split_ifs <;> exact ⟨_, rfl⟩

theorem eq_pass_of_rankOf {label : GradeLabel} (h : label ∈ votingLabels)
    (hrank : rankOf .pass ≤ rankOf label) : label = .pass := by
  obtain rfl | rfl | rfl := mem_votingLabels.mp h
  · exact absurd hrank (by decide)
  · exact absurd hrank (by decide)
  · rfl

section Voters
variable {voters : List MemberOutcome} (hvoting : ∀ o ∈ voters, o.result.label ∈ votingLabels)
include hvoting

theorem mostConservative_spec (hne : voters ≠ []) :
    ∃ o ∈ voters, mostConservative (voters.map fun o => o.result.label) = .ok o.result.label ∧
      ∀ v ∈ voters, rankOf o.result.label ≤ rankOf v.result.label := by
  have hranked : ((voters.map fun o => o.result.label).any fun label =>
      (conservatismRank label).isNone) = false := by
    simp only [List.any_map, List.any_eq_false]
    intro o ho
    obtain ⟨rank, hrank⟩ := exists_conservatismRank (hvoting o ho)
    simp [hrank]
  obtain ⟨least, hleast⟩ :
    ∃ least, (voters.map fun o => o.result.label).argmin rankOf = some least := by
    rw [← Option.ne_none_iff_exists']
    simpa [List.argmin_eq_none] using hne
  obtain ⟨o, ho, rfl⟩ := List.mem_map.mp (List.argmin_mem hleast)
  refine ⟨o, ho, ?_, fun v hv => ?_⟩
  · rw [mostConservative, hranked, hleast]
    rfl
  · exact List.le_of_mem_argmin (List.mem_map.mpr ⟨v, hv, rfl⟩) hleast

/-- **A label that the rule gives is the verdict of the voters.** -/
theorem combineLabels_spec (hne : voters ≠ []) (hnonneg : ∀ o ∈ voters, 0 ≤ o.weight)
    {rule : ConsensusRule} {label : GradeLabel} (h : combineLabels rule voters = .ok label) :
    IsVerdict rule voters label := by
  have hvotes : ∀ v ∈ votes voters, v.1 ∈ votingLabels := by simpa [votes] using hvoting
  have hweighted : ∀ v ∈ weightedVotes voters, v.1 ∈ votingLabels := by
    simpa [weightedVotes] using hvoting
  have hcast : ∀ {c : GradeLabel}, c ∈ voters.map (fun o => o.result.label) → c ≠ .error := by
    rintro c hc rfl
    obtain ⟨o, ho, herror⟩ := List.mem_map.mp hc
    have := hvoting o ho
    rw [herror] at this
    exact absurd this (by decide)
  cases rule with
  | majority =>
    have hwinner : Winner rankOf (votes voters) label := by
      refine winner_of_argmaxLabel (fun v _ => Nat.zero_le v.2) hvotes ?_
      rw [← h, combineLabels, Dict.count, List.map_map]
      rfl
    have hmem := hwinner.mem
    rw [votes, List.map_map] at hmem
    exact ⟨iff_of_false (hcast hmem) hne, fun _ => hwinner⟩
  | weighted =>
    have hwinner : Winner rankOf (weightedVotes voters) label :=
      winner_of_argmaxLabel (by simpa [weightedVotes] using hnonneg) hweighted h
    have hmem := hwinner.mem
    rw [weightedVotes, List.map_map] at hmem
    exact ⟨iff_of_false (hcast hmem) hne, fun _ => hwinner⟩
  | unanimous =>
    obtain ⟨o, ho, hlabel, hleast⟩ : ∃ o ∈ voters, o.result.label = label ∧
        ∀ v ∈ voters, rankOf label ≤ rankOf v.result.label := by
      unfold combineLabels at h
      dsimp only at h
      split_ifs at h with hall
      · obtain rfl := Except.ok.inj h
        have hpass : ∀ o ∈ voters, o.result.label = .pass := by simpa using hall.2
        obtain ⟨o, ho⟩ := List.exists_mem_of_ne_nil voters hne
        exact ⟨o, ho, hpass o ho, fun v hv => (congrArg rankOf (hpass v hv)).ge⟩
      · obtain ⟨o, ho, hok, hleast⟩ := mostConservative_spec hvoting hne
        obtain rfl := Except.ok.inj (hok.symm.trans h)
        exact ⟨o, ho, rfl, hleast⟩
    subst hlabel
    refine ⟨iff_of_false (hcast (List.mem_map.mpr ⟨o, ho, rfl⟩)) hne,
      fun _ => ⟨?_, ⟨o, ho, rfl⟩, hleast⟩⟩
    exact ⟨fun hpass v hv => eq_pass_of_rankOf (hvoting v hv) (hpass ▸ hleast v hv),
      fun hall => hall o ho⟩

theorem label_mem_of_combineLabels (hne : voters ≠ []) (hnonneg : ∀ o ∈ voters, 0 ≤ o.weight)
    {rule : ConsensusRule} {label : GradeLabel} (h : combineLabels rule voters = .ok label) :
    label ∈ votingLabels := by
  have hspec := (combineLabels_spec hvoting hne hnonneg h).2 hne
  have hcast : ∀ {c : GradeLabel}, c ∈ voters.map (fun o => o.result.label) → c ∈ votingLabels := by
    intro c hc
    obtain ⟨o, ho, rfl⟩ := List.mem_map.mp hc
    exact hvoting o ho
  cases rule with
  | majority => exact hcast (by simpa [votes] using hspec.mem)
  | weighted => exact hcast (by simpa [weightedVotes] using hspec.mem)
  | unanimous =>
    obtain ⟨o, ho, rfl⟩ := hspec.2.1
    exact hvoting o ho

/-- **A rule gives a label** unless it goes by weight and no voter has any. -/
theorem exists_combineLabels_iff (hne : voters ≠ []) (hnonneg : ∀ o ∈ voters, 0 ≤ o.weight)
    {rule : ConsensusRule} :
    (∃ label, combineLabels rule voters = .ok label) ↔ Weighty rule voters := by
  cases rule with
  | majority =>
    refine iff_of_true ?_ (weighty_of_ne (by decide))
    obtain ⟨o, ho⟩ := List.exists_mem_of_ne_nil voters hne
    have hvotes : ∀ v ∈ votes voters, v.1 ∈ votingLabels := by simpa [votes] using hvoting
    have hsome := (exists_argmaxLabel_iff (fun v _ => Nat.zero_le v.2) hvotes).mpr
      ⟨(o.result.label, 1), List.mem_map.mpr ⟨o, ho, rfl⟩, Nat.one_pos⟩
    rw [votes] at hsome
    rw [combineLabels, Dict.count, List.map_map]
    exact hsome
  | weighted =>
    have hweighted : ∀ v ∈ weightedVotes voters, v.1 ∈ votingLabels := by
      simpa [weightedVotes] using hvoting
    refine (exists_argmaxLabel_iff (by simpa [weightedVotes] using hnonneg) hweighted).trans ?_
    simp [Weighty, weightedVotes]
  | unanimous =>
    refine iff_of_true ?_ (weighty_of_ne (by decide))
    obtain ⟨o, -, hok, -⟩ := mostConservative_spec hvoting hne
    unfold combineLabels
    dsimp only
    split_ifs
    · exact ⟨_, rfl⟩
    · exact ⟨_, hok⟩

end Voters

end Selfevals.Graders.PanelConsensus
