import Selfevals.Graders.Base
import Selfevals.Lib.Floats
import Selfevals.Lib.PyStr

/-!
# The pairwise judge

A judge is shown two responses, A and B, and says which is better and by how much. It may favour a
position, so it may be asked a second time with the two exchanged, and the verdicts averaged.
Margins are exact rationals.

* `invokeJudge_swapped`: the second call is the first one of the exchanged pair, turned back;
* `judgePair_symmetric`: exchanging the candidates mirrors the averaged verdict.
-/

namespace Selfevals.Graders.Pairwise

open Graders.Base Lib.JsonValue Lib.Floats Lib.PyStr Runner.Executors

/-! ### Verdicts -/

/-- The side that is preferred, or none. -/
inductive Preferred
  | a
  | b
  | tie
deriving DecidableEq, Repr

/-- The text of a preference in the judge's JSON. -/
def Preferred.ofText : String → Option Preferred
  | "a" => some .a
  | "b" => some .b
  | "tie" => some .tie
  | _ => none

/-- A verdict on a pair. -/
structure PairwiseDecision where
  preferred : Preferred
  margin : ℚ
  reason : String
deriving DecidableEq, Repr

/-- The margin, negative for B. -/
def signedMargin (decision : PairwiseDecision) : ℚ :=
  match decision.preferred with
  | .a => decision.margin
  | .b => -decision.margin
  | .tie => 0

/-- A verdict on the exchanged pair, turned back. -/
def unswap (decision : PairwiseDecision) : PairwiseDecision :=
  match decision.preferred with
  | .a => { decision with preferred := .b }
  | .b => { decision with preferred := .a }
  | .tie => decision

def swapAveraged (first second : PairwiseDecision) : String :=
  "swap-averaged: " ++ first.reason ++ " | " ++ second.reason

/-- `_average_decisions`. -/
def averageDecisions (first second : PairwiseDecision) : PairwiseDecision :=
  let avg := (signedMargin first + signedMargin second) / 2
  let reason := swapAveraged first second
  if |avg| < 1 / 10 ^ 9 then { preferred := .tie, margin := 0, reason }
  else if 0 < avg then { preferred := .a, margin := avg, reason }
  else { preferred := .b, margin := -avg, reason }

/-! ### What the judge says -/

/-- An exception that the caller expects, known by its text, or another one. -/
inductive Failure
  | expected (text : String)
  | other (raised : Raised)

/-- `raise ValueError(…) from exc`, where `exc` was expected. -/
def Failure.reraised (message : String → String) : Failure → Raised
  | .expected exc => .value (message exc)
  | .other raised => raised

/-- What the judge's answer is read with; `V` are the values that `json.loads` gives, NaN among
them. -/
structure Library (V : Type) where
  /-- `json.loads`, which is expected to raise `JSONDecodeError`. -/
  loads : String → Except Failure V
  /-- The items of a `dict`. -/
  fields : V → Option (List (String × V))
  typeName : V → String
  str : V → Except Raised String
  /-- `float`, which is expected to raise `TypeError` and `ValueError`. -/
  toFloat : V → Except Failure PyFloat
  repr : V → String
  reprText : String → String
  lower : String → String
  /-- `json.dumps(…, ensure_ascii=False)`. -/
  dumps : Object → Except Raised String
  /-- `Template(…).safe_substitute(…)`. -/
  safeSubstitute : String → List (String × String) → String

variable {V : Type} (lib : Library V)

/-- `str(data.get(key, "")).strip()`. -/
def textOf (data : List (String × V)) (key : String) : Except Raised String :=
  match data.lookup key with
  | none => .ok ""
  | some v => (lib.str v).map strip

/-- `max(0.0, min(1.0, margin))`, which is a number. -/
def clamped (margin : PyFloat) : ℚ := (PyFloat.pyMax (.finite 0) (.pyMin (.finite 1) margin)).value

/-- `float(data.get("margin", 0.0))`. -/
def marginOf (data : List (String × V)) : Except Raised PyFloat :=
  match data.lookup "margin" with
  | none => .ok (.finite 0)
  | some raw => (lib.toFloat raw).mapError
      (Failure.reraised fun _ => "judge `margin` is not a number: " ++ lib.repr raw)

/-- `_parse_pairwise_output`. -/
def parsePairwiseOutput (text : String) : Except Raised PairwiseDecision := do
  let data ← (lib.loads text).mapError (Failure.reraised fun exc =>
    "judge did not return valid JSON: " ++ exc ++ "; text=" ++ lib.reprText text)
  match lib.fields data with
  | none => .error (.value ("judge JSON must be an object, got " ++ lib.typeName data))
  | some data =>
    let raw := lib.lower (← textOf lib data "preferred")
    match Preferred.ofText raw with
    | none => .error (.value ("judge returned unknown `preferred`: " ++ lib.reprText raw))
    | some preferred =>
      let margin ← marginOf lib data
      let reason ← textOf lib data "reason"
      return {
        preferred
        margin := if preferred = .tie then 0 else clamped margin
        reason := if reason = "" then "no reason supplied" else reason }

/-! ### Judging -/

def defaultRubric : String :=
  "You are comparing two responses to the same task and deciding which one is better.\n\n" ++
  "Rubric / what \"better\" means here:\n$rubric\n\nTask input:\n$case_input\n\n" ++
  "Response A:\n$response_a\n\nResponse B:\n$response_b\n\n" ++
  "Return a single JSON object with keys:\n- preferred: one of \"a\", \"b\", \"tie\"\n" ++
  "- margin: number in [0, 1] — how decisive the preference is (0 for a tie)\n" ++
  "- reason: short justification\n"

/-- A rubric for pairs, and its template. -/
structure PairwiseRubric where
  rubric : String
  template : String := defaultRubric

/-- `PairwiseRubric.render`. -/
def PairwiseRubric.render (rubric : PairwiseRubric) (caseInput : Object)
    (responseA responseB : String) : Except Raised String := do
  return lib.safeSubstitute rubric.template
    [("rubric", rubric.rubric), ("case_input", ← lib.dumps caseInput), ("response_a", responseA),
      ("response_b", responseB)]

/-- What the two calls of a judge share. Its answer is a function of the request. -/
structure Judging where
  judgeAdapter : AdapterRequest → Except Raised AdapterResponse
  rubric : PairwiseRubric
  caseInput : Object
  workspaceId : String
  caseId : String
  graderName : String

variable (j : Judging)

/-- `_invoke_judge`. -/
def invokeJudge (responseA responseB : String) (swapped : Bool) :
    Except Raised PairwiseDecision := do
  let shown := if swapped then (responseB, responseA) else (responseA, responseB)
  let prompt ← j.rubric.render lib j.caseInput shown.1 shown.2
  let response ← j.judgeAdapter {
    workspaceId := j.workspaceId
    caseId := j.caseId
    input := [("messages", .arr [.obj [("role", .str "user"), ("content", .str prompt)]])]
    metadata := [("grader", .str j.graderName), ("judge", .bool true), ("pairwise", .bool true)] }
  let decision ← parsePairwiseOutput lib (response.content.getD "")
  return if swapped then unswap decision else decision

/-- `judge_pair`: once, or with the two exchanged as well. -/
def judgePair (responseA responseB : String) (swapAndAverage : Bool := false) :
    Except Raised PairwiseDecision := do
  let decision ← invokeJudge lib j responseA responseB false
  if swapAndAverage then
    let swapped ← invokeJudge lib j responseA responseB true
    return averageDecisions decision swapped
  else return decision

/-! ### Mirror images -/

/-- The preference with the candidates exchanged. -/
def Preferred.mirror : Preferred → Preferred
  | .a => .b
  | .b => .a
  | .tie => .tie

theorem unswap_eq (d : PairwiseDecision) :
    unswap d = { d with preferred := d.preferred.mirror } := by
  rcases d with ⟨p, m, r⟩
  cases p <;> rfl

@[simp] theorem unswap_margin (d : PairwiseDecision) : (unswap d).margin = d.margin := by
  rw [unswap_eq]

@[simp] theorem unswap_reason (d : PairwiseDecision) : (unswap d).reason = d.reason := by
  rw [unswap_eq]

@[simp] theorem signedMargin_unswap (d : PairwiseDecision) :
    signedMargin (unswap d) = -signedMargin d := by
  rcases d with ⟨p, m, r⟩
  cases p <;> simp [unswap, signedMargin]

theorem averageDecisions_opposite {d e d' e' : PairwiseDecision}
    (h : signedMargin d' + signedMargin e' = -(signedMargin d + signedMargin e)) :
    (averageDecisions d' e').preferred = (averageDecisions d e).preferred.mirror ∧
      (averageDecisions d' e').margin = (averageDecisions d e).margin := by
  have hneg : (signedMargin d' + signedMargin e') / 2 =
      -((signedMargin d + signedMargin e) / 2) := by
    rw [h, neg_div]
  unfold averageDecisions
  simp only [hneg, abs_neg, neg_pos, neg_neg]
  generalize (signedMargin d + signedMargin e) / 2 = avg
  by_cases htie : |avg| < 1 / 10 ^ 9
  · simp only [if_pos htie]
    exact ⟨rfl, trivial⟩
  · have hne : avg ≠ 0 := by
      rintro rfl
      norm_num at htie
    simp only [if_neg htie]
    obtain hlt | hgt := lt_or_gt_of_ne hne
    · simp only [if_pos hlt, if_neg hlt.not_gt]
      exact ⟨rfl, trivial⟩
    · simp only [if_pos hgt, if_neg hgt.not_gt]
      exact ⟨rfl, trivial⟩

theorem averageDecisions_cancel {d e : PairwiseDecision} (h : signedMargin d + signedMargin e = 0) :
    averageDecisions d e = { preferred := .tie, margin := 0, reason := swapAveraged d e } := by
  unfold averageDecisions
  rw [h]
  norm_num

/-! ### Margins -/

/-- The margin of a verdict is a share. -/
def Bounded (d : PairwiseDecision) : Prop := 0 ≤ d.margin ∧ d.margin ≤ 1

theorem clamped_mem (margin : PyFloat) : 0 ≤ clamped margin ∧ clamped margin ≤ 1 := by
  obtain ⟨q, hq, hlo, hhi⟩ := PyFloat.pyMax_pyMin zero_le_one margin
  rw [clamped, hq, PyFloat.value_finite]
  exact ⟨hlo, hhi⟩

theorem abs_signedMargin_le {d : PairwiseDecision} (h : Bounded d) : |signedMargin d| ≤ 1 := by
  have hle : |d.margin| ≤ 1 := abs_le.mpr ⟨by linarith [h.1], h.2⟩
  rcases d with ⟨p, m, r⟩
  cases p with
  | a => exact hle
  | b => exact (abs_neg m).trans_le hle
  | tie => norm_num [signedMargin]

theorem bounded_unswap {d : PairwiseDecision} (h : Bounded d) : Bounded (unswap d) := by
  unfold Bounded
  rw [unswap_margin]
  exact h

theorem bounded_averageDecisions {d e : PairwiseDecision} (hd : Bounded d) (he : Bounded e) :
    Bounded (averageDecisions d e) := by
  have hd' := abs_le.mp (abs_signedMargin_le hd)
  have he' := abs_le.mp (abs_signedMargin_le he)
  unfold averageDecisions Bounded
  dsimp only
  split_ifs with htie hpos
  · norm_num
  · dsimp only
    constructor <;> linarith
  · dsimp only
    constructor <;> linarith

theorem bounded_parsePairwiseOutput {text : String} {d : PairwiseDecision}
    (h : parsePairwiseOutput lib text = .ok d) : Bounded d := by
  unfold parsePairwiseOutput at h
  simp only [bind, Except.bind, pure, Except.pure] at h
  split at h
  · cases h
  split at h
  · cases h
  split at h
  · cases h
  split at h
  · cases h
  split at h
  · cases h
  split at h
  · cases h
  cases h
  unfold Bounded
  dsimp only
  split_ifs
  · norm_num
  · exact clamped_mem _

/-! ### The two calls -/

theorem invokeJudge_swapped (a b : String) :
    invokeJudge lib j a b true = (invokeJudge lib j b a false).map unswap := by
  unfold invokeJudge
  simp only [if_true, if_false, Bool.false_eq_true, bind, Except.bind, pure, Except.pure]
  split
  · rfl
  split
  · rfl
  split
  · rfl
  · rfl

theorem bounded_invokeJudge {a b : String} {swapped : Bool} {d : PairwiseDecision}
    (h : invokeJudge lib j a b swapped = .ok d) : Bounded d := by
  unfold invokeJudge at h
  simp only [bind, Except.bind, pure, Except.pure] at h
  split at h
  · cases h
  split at h
  · cases h
  split at h
  · cases h
  rename_i decision hparse
  have hbounded := bounded_parsePairwiseOutput lib hparse
  cases h
  split_ifs
  · exact bounded_unswap hbounded
  · exact hbounded

theorem judgePair_true (a b : String) :
    judgePair lib j a b true =
      match invokeJudge lib j a b false, invokeJudge lib j b a false with
      | .error e, _ => .error e
      | .ok _, .error e => .error e
      | .ok d, .ok e => .ok (averageDecisions d (unswap e)) := by
  unfold judgePair
  rw [invokeJudge_swapped]
  cases invokeJudge lib j a b false with
  | error e => rfl
  | ok d => cases invokeJudge lib j b a false <;> rfl

theorem bounded_judgePair {a b : String} {swapAndAverage : Bool} {d : PairwiseDecision}
    (h : judgePair lib j a b swapAndAverage = .ok d) : Bounded d := by
  cases swapAndAverage with
  | false =>
    have hjudge : invokeJudge lib j a b false = .ok d := by
      rw [← h]
      unfold judgePair
      cases invokeJudge lib j a b false <;> rfl
    exact bounded_invokeJudge lib j hjudge
  | true =>
    rw [judgePair_true] at h
    split at h
    · cases h
    · cases h
    · rename_i hd he
      cases h
      exact bounded_averageDecisions (bounded_invokeJudge lib j hd)
        (bounded_unswap (bounded_invokeJudge lib j he))

/-! ### Exchanging the candidates -/

/-- What is answered with the candidates exchanged: the other preference with the same margin, and
the same two reasons, the other one first. Where one order raises, so does the other. -/
inductive Mirrored : Except Raised PairwiseDecision → Except Raised PairwiseDecision → Prop
  | verdict {d d' : PairwiseDecision} (preferred : d'.preferred = d.preferred.mirror)
      (margin : d'.margin = d.margin) (x y : PairwiseDecision) (reason : d.reason = swapAveraged x y)
      (reason' : d'.reason = swapAveraged y x) : Mirrored (.ok d) (.ok d')
  | raised (e e' : Raised) : Mirrored (.error e) (.error e')

theorem swapAveraged_unswap (d e : PairwiseDecision) :
    swapAveraged d (unswap e) = swapAveraged d e := by
  unfold swapAveraged
  rw [unswap_reason]

theorem averageDecisions_reason (d e : PairwiseDecision) :
    (averageDecisions d e).reason = swapAveraged d e := by
  unfold averageDecisions
  dsimp only
  split_ifs <;> rfl

theorem judgePair_symmetric (a b : String) :
    Mirrored (judgePair lib j a b true) (judgePair lib j b a true) := by
  rw [judgePair_true, judgePair_true]
  cases invokeJudge lib j a b false with
  | error e => cases invokeJudge lib j b a false <;> exact .raised _ _
  | ok d =>
    cases invokeJudge lib j b a false with
    | error e => exact .raised _ _
    | ok e =>
      have hopposite : signedMargin e + signedMargin (unswap d) =
          -(signedMargin d + signedMargin (unswap e)) := by
        rw [signedMargin_unswap, signedMargin_unswap]
        ring
      obtain ⟨hpreferred, hmargin⟩ := averageDecisions_opposite hopposite
      exact .verdict hpreferred hmargin d e
        ((averageDecisions_reason d (unswap e)).trans (swapAveraged_unswap d e))
        ((averageDecisions_reason e (unswap d)).trans (swapAveraged_unswap e d))

/-- Whatever responses it is shown, the judge prefers the same position by the same margin, or does
not answer. -/
def PositionOnly : Prop :=
  ∃ p m, ∀ x y d, invokeJudge lib j x y false = .ok d → d.preferred = p ∧ d.margin = m

theorem judgePair_positionOnly (h : PositionOnly lib j) {a b : String} {d : PairwiseDecision}
    (hd : judgePair lib j a b true = .ok d) : d.preferred = .tie ∧ d.margin = 0 := by
  obtain ⟨p, m, hjudge⟩ := h
  rw [judgePair_true] at hd
  split at hd
  · cases hd
  · cases hd
  · rename_i x y hx hy
    cases hd
    have hsame : signedMargin x = signedMargin y := by
      unfold signedMargin
      rw [(hjudge _ _ _ hx).1, (hjudge _ _ _ hx).2, (hjudge _ _ _ hy).1, (hjudge _ _ _ hy).2]
    have hcancel : signedMargin x + signedMargin (unswap y) = 0 := by
      rw [signedMargin_unswap, hsame, add_neg_cancel]
    rw [averageDecisions_cancel hcancel]
    exact ⟨rfl, rfl⟩

/-- What judging in both orders is for. -/
structure PositionFair : Prop where
  mirrored : ∀ a b, Mirrored (judgePair lib j a b true) (judgePair lib j b a true)
  /-- A verdict is given where the judge answers in both orders. -/
  answers : ∀ a b, (∃ d, judgePair lib j a b true = .ok d) ↔
    (∃ d, invokeJudge lib j a b false = .ok d) ∧ ∃ d, invokeJudge lib j b a false = .ok d
  tie : PositionOnly lib j → ∀ a b d, judgePair lib j a b true = .ok d →
    d.preferred = .tie ∧ d.margin = 0
  margin : ∀ a b swapAndAverage d, judgePair lib j a b swapAndAverage = .ok d →
    0 ≤ d.margin ∧ d.margin ≤ 1

theorem swapAndAverage_positionFair : PositionFair lib j where
  mirrored := judgePair_symmetric lib j
  answers a b := by
    rw [judgePair_true]
    cases invokeJudge lib j a b false with
    | error e => simp
    | ok d => cases invokeJudge lib j b a false <;> simp
  tie h _ _ _ hd := judgePair_positionOnly lib j h hd
  margin _ _ _ _ hd := bounded_judgePair lib j hd

end Selfevals.Graders.Pairwise
