import Mathlib.Data.Prod.Lex
import Mathlib.Data.String.Basic
import Selfevals.Lib.GreedyMatching
import Selfevals.Lib.Mapping
import Selfevals.Lib.Result
import Selfevals.Lib.Sql

/-!
# Swiss tournaments

A Swiss tournament pairs the candidates round by round: those that stand nearest to each other, and
have not met. What the judge answers moves the standings, so it decides who meets in the next round;
it may also fail to answer.
-/

namespace Selfevals.Runner.PairwiseTournament

open Lib.GreedyMatching Lib.Mapping Lib.Result Lib.Sql

/-! ### Pairs -/

/-- The pair, the lesser of the two first. -/
def pairKey (p : String × String) : String × String := if p.1 < p.2 then p else (p.2, p.1)

theorem mk_pairKey (p : String × String) : s((pairKey p).1, (pairKey p).2) = s(p.1, p.2) := by
  unfold pairKey
  split_ifs
  · rfl
  · exact Sym2.eq_swap

theorem pairKey_swap (a b : String) : pairKey (a, b) = pairKey (b, a) := by
  unfold pairKey
  split_ifs with hab hba hba
  · exact absurd hab hba.not_gt
  · rfl
  · rfl
  · have heq : a = b := le_antisymm (not_lt.mp hba) (not_lt.mp hab)
    rw [heq]

theorem pairKey_eq_iff {p q : String × String} :
    pairKey p = pairKey q ↔ s(p.1, p.2) = s(q.1, q.2) := by
  constructor
  · intro h
    rw [← mk_pairKey p, h, mk_pairKey]
  · intro h
    obtain ⟨hfst, hsnd⟩ | ⟨hfst, hsnd⟩ := Sym2.eq_iff.mp h
    · exact congrArg pairKey (Prod.ext hfst hsnd)
    · obtain rfl : p = (q.2, q.1) := Prod.ext hfst hsnd
      exact pairKey_swap q.2 q.1

/-- `next_swiss_round`. -/
def nextSwissRound (candidates : List String) (standings : Dict String ℚ)
    (alreadyPlayed : List (String × String)) : List (String × String) :=
  greedyPairs (fun a b => pairKey (a, b) ∉ alreadyPlayed)
    (orderBy (fun c => toLex (-(standings.get? c).getD 0, c)) candidates) []

/-! ### Rounds -/

inductive Preferred
  | a
  | b
  | tie
deriving DecidableEq, Repr

/-- A verdict on a pair. -/
structure PairwiseDecision where
  preferred : Preferred
  margin : ℚ

/-- Who won, who lost, and by how much. -/
structure Outcome where
  winnerId : String
  loserId : String
  weight : ℚ := 1
  tie : Bool := false

/-- `_outcome_from`. -/
def outcomeFrom (decision : PairwiseDecision) (aId bId : String) : Outcome :=
  match decision.preferred with
  | .a => { winnerId := aId, loserId := bId, weight := 1 + decision.margin }
  | .b => { winnerId := bId, loserId := aId, weight := 1 + decision.margin }
  | .tie => { winnerId := aId, loserId := bId, tie := true }

/-- What `_run_swiss` keeps; the rounds so far are history. -/
structure Swiss where
  standings : Dict String ℚ
  played : List (String × String) := []
  results : List Outcome := []
  rounds : List (List (String × String)) := []

/-- The result of a comparison, if there is one; `KeyError` names the winner. -/
def recordResult (s : Swiss) (p : String × String) : Option PairwiseDecision → Except String Swiss
  | none => .ok s
  | some decision =>
    let outcome := outcomeFrom decision p.1 p.2
    let s := { s with results := s.results ++ [outcome] }
    if outcome.tie then .ok s
    else
      match s.standings.get? outcome.winnerId with
      | none => .error outcome.winnerId
      | some wins => .ok { s with standings := s.standings.set outcome.winnerId (wins + 1) }

/-- A round of these pairs; the judge answers for the place of a pair in the round. -/
def playRound (s : Swiss) (pairs : List (String × String)) (judge : ℕ → Option PairwiseDecision) :
    Except String Swiss :=
  pairs.zipIdx.foldlM (fun s x => recordResult s x.1 (judge x.2))
    { s with played := s.played ++ pairs.map pairKey, rounds := s.rounds ++ [pairs] }

/-- `for _ in range(rounds)`, from a state; the judge is also told the round. -/
def swissRounds (ids : List String) (judge : ℕ → ℕ → Option PairwiseDecision) :
    ℕ → Swiss → Except String Swiss
  | 0, s => .ok s
  | rounds + 1, s =>
    let pairs := nextSwissRound ids s.standings s.played
    if pairs = [] then .ok s
    else do
      let s' ← playRound s pairs (judge s.rounds.length)
      swissRounds ids judge rounds s'

/-- `_run_swiss`. -/
def runSwiss (ids : List String) (judge : ℕ → ℕ → Option PairwiseDecision) (rounds : ℤ) :
    Except String Swiss :=
  swissRounds ids judge rounds.toNat { standings := Dict.ofKeys (fun _ => 0) ids }

/-- The candidates of `run_tournament`: the keys of `by_id`, sorted. -/
def candidateIds (candidates : List String) : List String := sortedSet candidates

/-! ### What the rounds keep -/

/-- Every candidate has a standing, those that have met are the pairs that were played, and the
rounds are a schedule. -/
structure Inv (ids : List String) (s : Swiss) : Prop where
  standings : ∀ c ∈ ids, (s.standings.get? c).isSome
  played : ∀ p, pairKey p ∈ s.played ↔ s(p.1, p.2) ∈ meetings s.rounds.flatten
  schedule : Schedule ids s.rounds

variable {ids : List String}

theorem inv_start (ids : List String) : Inv ids { standings := Dict.ofKeys (fun _ => 0) ids } where
  standings c hc := by
    rw [Dict.get?_ofKeys, if_pos hc]
    rfl
  played p := by simp [meetings]
  schedule := schedule_nil ids

theorem nextSwissRound_spec (hids : ids.Nodup) {s : Swiss} (h : Inv ids s) :
    MaximalMatching (Unmet s.rounds) ids (nextSwissRound ids s.standings s.played) := by
  have hperm := orderBy_perm (fun c => toLex (-(s.standings.get? c).getD 0, c)) ids
  have hunmet : ∀ a b, pairKey (a, b) ∉ s.played ↔ Unmet s.rounds a b :=
    fun a b => not_congr (h.played (a, b))
  have : Std.Symm fun a b => pairKey (a, b) ∉ s.played :=
    ⟨fun a b hab => (hunmet b a).mpr (symm ((hunmet a b).mp hab))⟩
  exact (greedyPairs_spec (hperm.nodup_iff.mpr hids)).congr hperm hunmet

theorem recordResult_spec {s : Swiss} (h : Inv ids s) {p : String × String} (hfst : p.1 ∈ ids)
    (hsnd : p.2 ∈ ids) (decision : Option PairwiseDecision) :
    ∃ s', recordResult s p decision = .ok s' ∧ Inv ids s' ∧ s'.rounds = s.rounds := by
  cases decision with
  | none => exact ⟨s, rfl, h, rfl⟩
  | some decision =>
    have hwinner : (outcomeFrom decision p.1 p.2).winnerId ∈ ids := by
      unfold outcomeFrom
      split <;> assumption
    obtain ⟨wins, hwins⟩ := Option.isSome_iff_exists.mp (h.standings _ hwinner)
    simp only [recordResult, hwins]
    split_ifs
    · exact ⟨_, rfl, ⟨h.standings, h.played, h.schedule⟩, rfl⟩
    · refine ⟨_, rfl, ⟨fun c hc => ?_, h.played, h.schedule⟩, rfl⟩
      rw [Dict.get?_set]
      split_ifs
      · rfl
      · exact h.standings c hc

/-- **A round** with the pairs of a maximal matching goes through, and is the next of the schedule.
-/
theorem playRound_spec {s : Swiss} (h : Inv ids s) {pairs : List (String × String)}
    (hpairs : MaximalMatching (Unmet s.rounds) ids pairs) (judge : ℕ → Option PairwiseDecision) :
    ∃ s', playRound s pairs judge = .ok s' ∧ Inv ids s' ∧ s'.rounds = s.rounds ++ [pairs] := by
  have hplayed : Inv ids { s with
      played := s.played ++ pairs.map pairKey, rounds := s.rounds ++ [pairs] } := by
    refine ⟨h.standings, fun p => ?_, h.schedule.snoc hpairs⟩
    have hmeetings :
      meetings (s.rounds ++ [pairs]).flatten = meetings s.rounds.flatten ++ meetings pairs := by
      simp [meetings]
    have hnow : pairKey p ∈ pairs.map pairKey ↔ s(p.1, p.2) ∈ meetings pairs := by
      simp only [meetings, List.mem_map, pairKey_eq_iff]
    rw [hmeetings, List.mem_append, List.mem_append, h.played p, hnow]
  refine foldlM_of_inv (I := fun s' => Inv ids s' ∧ s'.rounds = s.rounds ++ [pairs]) ?_ ⟨hplayed,
    rfl⟩
  rintro ⟨p, i⟩ hp s' ⟨hinv, hrounds⟩
  have hmem : p ∈ pairs := List.fst_mem_of_mem_zipIdx hp
  obtain ⟨t, ht, htinv, htrounds⟩ := recordResult_spec hinv (hpairs.amongst _ (fst_mem_ends hmem))
    (hpairs.amongst _ (snd_mem_ends hmem)) (judge i)
  exact ⟨t, ht, htinv, htrounds.trans hrounds⟩

/-- Every two of the candidates have met. -/
def AllMet (ids : List String) (s : Swiss) :
    Prop := ∀ a ∈ ids, ∀ b ∈ ids, a ≠ b → ¬Unmet s.rounds a b

/-- **The rounds go through**, and there are fewer only if all have met. -/
theorem swissRounds_spec (hids : ids.Nodup) (judge : ℕ → ℕ → Option PairwiseDecision) {rounds : ℕ} :
    ∀ {s : Swiss}, Inv ids s → ∃ s', swissRounds ids judge rounds s = .ok s' ∧ Inv ids s' ∧
      (s'.rounds.length < s.rounds.length + rounds → AllMet ids s') := by
  induction rounds with
  | zero => exact fun {s} h => ⟨s, rfl, h, fun hlt => absurd hlt (lt_irrefl _)⟩
  | succ rounds ih =>
    intro s h
    have hround := nextSwissRound_spec hids h
    simp only [swissRounds]
    split_ifs with hnone
    · rw [hnone] at hround
      have hmet : AllMet ids s := fun a ha b hb hne =>
        hround.maximal a ha b hb hne List.not_mem_nil List.not_mem_nil
      exact ⟨s, rfl, h, fun _ => hmet⟩
    · obtain ⟨t, ht, htinv, htrounds⟩ := playRound_spec h hround (judge s.rounds.length)
      obtain ⟨s', hs', hinv, hmet⟩ := ih htinv
      have hlength : t.rounds.length = s.rounds.length + 1 := by
        rw [htrounds, List.length_append]; rfl
      exact ⟨s', bind_eq_ok.mpr ⟨t, ht, hs'⟩, hinv, fun hlt => hmet (by omega)⟩

/-- **Swiss pairing**: whatever the judge answers, no two candidates are paired twice, and each
round is a maximal matching of those who have not met; there are fewer rounds than asked for only if
all have met. -/
theorem swiss_pairing (ids : List String) (hids : ids.Nodup)
    (judge : ℕ → ℕ → Option PairwiseDecision)
    (rounds : ℤ) :
    ∃ s, runSwiss ids judge rounds = .ok s ∧ (meetings s.rounds.flatten).Nodup ∧
      Schedule ids s.rounds ∧
      (s.rounds.length < rounds.toNat → AllMet ids s) := by
  obtain ⟨s, hs, hinv, hmet⟩ := swissRounds_spec hids judge (inv_start ids)
  refine ⟨s, hs, hinv.schedule.nodup, hinv.schedule, fun hlt => hmet ?_⟩
  rwa [List.length_nil, Nat.zero_add]

theorem nodup_candidateIds (candidates : List String) : (candidateIds candidates).Nodup :=
  (sorted_perm _).nodup_iff.mpr (List.nodup_dedup _)

/-- Three candidates, one of them given twice, and a judge that prefers what it sees first. -/
theorem swiss_pairing_three :
    ∃ s, runSwiss (candidateIds ["b", "a", "c", "a"]) (fun _ _ => some ⟨.a, 1 / 2⟩) 3 = .ok s ∧
      (meetings s.rounds.flatten).Nodup ∧ Schedule (candidateIds ["b", "a", "c", "a"]) s.rounds ∧
      (s.rounds.length < Int.toNat 3 → AllMet (candidateIds ["b", "a", "c", "a"]) s) :=
  swiss_pairing _ (nodup_candidateIds _) (fun _ _ => some ⟨.a, 1 / 2⟩) 3

end Selfevals.Runner.PairwiseTournament
