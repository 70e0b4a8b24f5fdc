import Mathlib.Tactic.Ring
import Selfevals.Optimization.Rankings

/-!
# Elo ratings

An outcome takes from one rating what it gives to the other, as both changes go by the ratings
before it: the scores of the two sum to one, and so do the expected ones. So the ratings keep their
sum over any sequence of outcomes, and the tallies of the rows account for every match.
-/

namespace Selfevals.Optimization.EloRatings

open Lib.Mapping Lib.Sql Optimization.Rankings
open Runner.PairwiseTournament (Outcome)

/-- An outcome of a match between two different candidates. -/
structure IsMatch (candidates : List String) (o : Outcome) : Prop where
  winner : o.winnerId ∈ candidates
  loser : o.loserId ∈ candidates
  distinct : o.winnerId ≠ o.loserId

/-! ### Ratings -/

section Ratings
variable {candidates : List String} {ratings : Dict String ℚ}

/-- The rating of a candidate. -/
def ratingOf (ratings : Dict String ℚ) (c : String) : ℚ := (ratings.get? c).getD 0

/-- Every candidate is rated. -/
def Rated (candidates : List String) (ratings : Dict String ℚ) : Prop :=
  ∀ c ∈ candidates, ratings.get? c = some (ratingOf ratings c)

/-- What the ratings sum to. -/
def sumOf (candidates : List String) (ratings : Dict String ℚ) : ℚ :=
  (candidates.map (ratingOf ratings)).sum

theorem ratingOf_set (ratings : Dict String ℚ) (k : String) (v : ℚ) (c : String) :
    ratingOf (ratings.set k v) c = if c = k then v else ratingOf ratings c := by
  unfold ratingOf
  rw [Dict.get?_set]
  split_ifs <;> rfl

theorem rated_set (h : Rated candidates ratings) (k : String) (v : ℚ) :
    Rated candidates (ratings.set k v) := by
  intro c hc
  rw [ratingOf_set, Dict.get?_set]
  split_ifs
  · rfl
  · exact h c hc

theorem sumOf_set (hnodup : candidates.Nodup) {k : String} (hk : k ∈ candidates) (v : ℚ) :
    sumOf candidates (ratings.set k v) = sumOf candidates ratings + (v - ratingOf ratings k) := by
  unfold sumOf
  rw [← List.sum_toFinset _ hnodup, ← List.sum_toFinset _ hnodup,
    ← Finset.add_sum_erase _ _ (List.mem_toFinset.mpr hk),
    ← Finset.add_sum_erase _ (ratingOf ratings) (List.mem_toFinset.mpr hk), ratingOf_set,
      if_pos rfl]
  have hrest : ∑ c ∈ candidates.toFinset.erase k, ratingOf (ratings.set k v) c =
      ∑ c ∈ candidates.toFinset.erase k, ratingOf ratings c := by
    refine Finset.sum_congr rfl fun c hc => ?_
    rw [ratingOf_set, if_neg (Finset.ne_of_mem_erase hc)]
  rw [hrest]
  ring

variable (expected : ℚ → ℚ → ℚ) (k : ℚ) {o : Outcome}

theorem eloStep_eq (h : Rated candidates ratings) (ho : IsMatch candidates o) :
    eloStep expected k ratings o =
      let ra := ratingOf ratings o.winnerId
      let rb := ratingOf ratings o.loserId
      let change := k * o.weight * ((if o.tie then 1 / 2 else 1) - expected ra rb)
      (ratings.set o.winnerId (ra + change)).set o.loserId (rb - change) := by
  unfold eloStep
  rw [h _ ho.winner, h _ ho.loser]
  dsimp only
  congr 1
  split_ifs <;> ring

theorem rated_eloStep (h : Rated candidates ratings) (ho : IsMatch candidates o) :
    Rated candidates (eloStep expected k ratings o) := by
  rw [eloStep_eq expected k h ho]
  exact rated_set (rated_set h _ _) _ _

/-- **One outcome** keeps the sum of the ratings. -/
theorem sum_eloStep (hnodup : candidates.Nodup) (h : Rated candidates ratings)
    (ho : IsMatch candidates o) :
    sumOf candidates (eloStep expected k ratings o) = sumOf candidates ratings := by
  rw [eloStep_eq expected k h ho]
  dsimp only
  rw [sumOf_set hnodup ho.loser, sumOf_set hnodup ho.winner, ratingOf_set,
    if_neg (Ne.symm ho.distinct)]
  ring

/-- **A sequence of outcomes** keeps it. -/
theorem sum_foldl_eloStep (hnodup : candidates.Nodup) {outcomes : List Outcome}
    (houtcomes : ∀ o ∈ outcomes, IsMatch candidates o) (h : Rated candidates ratings) :
    Rated candidates (outcomes.foldl (eloStep expected k) ratings) ∧
      sumOf candidates (outcomes.foldl (eloStep expected k) ratings) =
        sumOf candidates ratings := by
  induction outcomes generalizing ratings with
  | nil => exact ⟨h, rfl⟩
  | cons o outcomes ih =>
    obtain ⟨ho, hrest⟩ := List.forall_mem_cons.mp houtcomes
    obtain ⟨hrated, hsum⟩ := ih hrest (rated_eloStep expected k h ho)
    exact ⟨hrated, hsum.trans (sum_eloStep expected k hnodup h ho)⟩

theorem rated_base (candidates : List String) (base : ℚ) :
    Rated candidates (.ofKeys (fun _ => base) candidates) := by
  intro c hc
  unfold ratingOf
  rw [Dict.get?_ofKeys, if_pos hc]
  rfl

theorem sumOf_base (candidates : List String) (base : ℚ) :
    sumOf candidates (.ofKeys (fun _ => base) candidates) = candidates.length * base := by
  have hbase : ∀ c ∈ candidates, ratingOf (.ofKeys (fun _ => base) candidates) c = base := by
    intro c hc
    unfold ratingOf
    rw [Dict.get?_ofKeys, if_pos hc]
    rfl
  unfold sumOf
  rw [List.map_congr_left hbase, List.map_const', List.sum_replicate, nsmul_eq_mul]

end Ratings

/-! ### Matches -/

section Matches
variable {candidates : List String} {outcomes : List Outcome}

/-- How many matches a candidate had. -/
def matchesOf (outcomes : List Outcome) (c : String) : ℕ :=
  outcomes.countP fun o => o.winnerId = c ∨ o.loserId = c

/-- **A match** is won, lost or tied. -/
theorem matchesOf_eq (houtcomes : ∀ o ∈ outcomes, IsMatch candidates o) (c : String) :
    winsOf outcomes c + lossesOf outcomes c + tiesOf outcomes c = matchesOf outcomes c := by
  induction outcomes with
  | nil => rfl
  | cons o outcomes ih =>
    obtain ⟨ho, hrest⟩ := List.forall_mem_cons.mp houtcomes
    have hone : winsOf [o] c + lossesOf [o] c + tiesOf [o] c = matchesOf [o] c := by
      have hdistinct := ho.distinct
      unfold winsOf lossesOf tiesOf matchesOf
      simp only [List.countP_singleton, decide_eq_true_eq]
      by_cases hwinner : o.winnerId = c
      · have hloser : o.loserId ≠ c := fun h => hdistinct (hwinner.trans h.symm)
        cases o.tie <;> simp [hwinner, hloser]
      · cases o.tie <;> simp [hwinner]
    have happend : matchesOf ([o] ++ outcomes) c = matchesOf [o] c + matchesOf outcomes c :=
      List.countP_append
    rw [List.singleton_append] at happend
    rw [happend, ← hone, ← ih hrest, ← List.singleton_append, winsOf_append, lossesOf_append,
      tiesOf_append]
    omega

theorem sum_winsOf (hnodup : candidates.Nodup) (houtcomes : ∀ o ∈ outcomes, IsMatch candidates o) :
    (candidates.map (winsOf outcomes)).sum = outcomes.countP (!·.tie) ∧
      (candidates.map (lossesOf outcomes)).sum = outcomes.countP (!·.tie) := by
  have hdecided : ∀ o ∈ outcomes.filter (!·.tie), IsMatch candidates o :=
    fun o ho => houtcomes o (List.mem_of_mem_filter ho)
  have hwins := sum_countP_keys (·.winnerId) hnodup fun o ho => (hdecided o ho).winner
  have hlosses := sum_countP_keys (·.loserId) hnodup fun o ho => (hdecided o ho).loser
  simp only [List.countP_filter, ← List.countP_eq_length_filter] at hwins hlosses
  refine ⟨Eq.trans ?_ hwins, Eq.trans ?_ hlosses⟩
  · refine congrArg List.sum (List.map_congr_left fun c _ => List.countP_congr fun o _ => ?_)
    cases o.tie <;> simp
  · refine congrArg List.sum (List.map_congr_left fun c _ => List.countP_congr fun o _ => ?_)
    cases o.tie <;> simp

end Matches

/-! ### Conservation -/

/-- What the rows of a ranking account for. -/
structure Conserved (candidates : List String) (outcomes : List Outcome) (base : ℚ)
    (rows : List RankingRow) : Prop where
  ids : (rows.map (·.candidateId)).Perm candidates
  ratings : (rows.map (·.score)).sum = candidates.length * base
  matched : ∀ row ∈ rows, row.wins + row.losses + row.ties = matchesOf outcomes row.candidateId ∧
    row.nComparisons = matchesOf outcomes row.candidateId
  decided : (rows.map (·.wins)).sum = (rows.map (·.losses)).sum

theorem conserved_rows {candidates : List String} {outcomes : List Outcome} {base : ℚ}
    {score : String → ℚ} (hnodup : candidates.Nodup)
    (houtcomes : ∀ o ∈ outcomes, IsMatch candidates o)
    (hscore : (candidates.map score).sum = candidates.length * base) :
    Conserved candidates outcomes base
      (orderBy rank (candidates.map (rowOf outcomes score))) where
  ids := map_id_rows _ _ _
  ratings := (map_rows_perm _ _ _ _).sum_eq.trans hscore
  matched := forall_mem_rows fun c _ => ⟨matchesOf_eq houtcomes c, matchesOf_eq houtcomes c⟩
  decided := by
    obtain ⟨hwins, hlosses⟩ := sum_winsOf hnodup houtcomes
    rw [(map_rows_perm _ _ _ _).sum_eq, (map_rows_perm _ _ _ _).sum_eq]
    exact hwins.trans hlosses.symm

/-- **Elo conserves** the sum of the ratings, and its rows account for every match. -/
theorem elo_conserved (expected : ℚ → ℚ → ℚ) (k base : ℚ) {candidates : List String}
    {outcomes : List Outcome} (hnodup : candidates.Nodup)
    (houtcomes : ∀ o ∈ outcomes, IsMatch candidates o) :
    ∃ ranking, eloRatings expected candidates outcomes k base = .ok ranking ∧
      Conserved candidates outcomes base ranking.rows := by
  obtain ⟨hrated, hsum⟩ :=
    sum_foldl_eloStep expected k hnodup houtcomes (rated_base candidates base)
  refine ⟨⟨.elo, _⟩, ?_, conserved_rows hnodup houtcomes (hsum.trans (sumOf_base candidates base))⟩
  unfold eloRatings
  dsimp only
  rw [rows_eq_ok hrated]
  rfl

/-- A match that is won, and one that is tied. -/
theorem elo_conserved_twice :
    ∃ ranking, eloRatings (fun ra rb => 1 / 2 + (ra - rb) / 800) ["a", "b"]
        [{ winnerId := "a", loserId := "b" }, { winnerId := "b", loserId := "a", tie := true }] =
          .ok ranking ∧
      Conserved ["a", "b"]
        [{ winnerId := "a", loserId := "b" }, { winnerId := "b", loserId := "a", tie := true }] 1500
        ranking.rows :=
  elo_conserved _ 32 1500 (by decide) fun o ho => by
    simp only [List.mem_cons, List.not_mem_nil, or_false] at ho
    obtain rfl | rfl := ho
    · exact ⟨by decide, by decide, by decide⟩
    · exact ⟨by decide, by decide, by decide⟩

end Selfevals.Optimization.EloRatings
