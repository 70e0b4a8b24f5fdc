import Selfevals.Lib.PairedComparison
import Selfevals.Optimization.Rankings

/-!
# The Bradley–Terry fit

What the outcomes add up to are `Comparisons`: a meeting credits its winner, or both by half. So the
strengths stay viable through all rounds, no round divides by zero, and each is the update of paired
comparisons, normalized.
-/

namespace Selfevals.Optimization.BradleyTerry

open Lib.Mapping Lib.PairedComparison Lib.Result Lib.Sql Optimization.Rankings
open Runner.PairwiseTournament (Outcome)

/-! ### The table -/

section Table
variable {n : ℕ} (idx : Dict String (Fin n)) (t : Table n)

theorem addAt_apply (xs : Fin n → ℚ) (i : Fin n) (w : ℚ) (a : Fin n) :
    addAt xs i w a = xs a + if a = i then w else 0 := by
  unfold addAt
  rw [Function.update_apply]
  split_ifs with h
  · rw [h]
  · exact (add_zero _).symm

theorem addGame_apply (games : Fin n → Fin n → ℚ) (i j : Fin n) (w : ℚ) (a b : Fin n) :
    addGame games i j w a b = games a b + if a = i ∧ b = j then w else 0 := by
  unfold addGame
  rw [Function.update_apply]
  by_cases h : a = i
  · rw [if_pos h, addAt_apply, h]
    simp
  · rw [if_neg h, if_neg fun hab => h hab.1, add_zero]

/-- What an outcome adds to a candidate's wins. -/
def credit (o : Outcome) (a : Fin n) : ℚ :=
  match idx.get? o.winnerId, idx.get? o.loserId with
  | some i, some j =>
    if o.tie then (if a = i then 1 / 2 * o.weight else 0) + if a = j then 1 / 2 * o.weight else 0
    else if a = i then o.weight else 0
  | _, _ => 0

/-- What it adds to the meetings of two. -/
def meeting (o : Outcome) (a b : Fin n) : ℚ :=
  match idx.get? o.winnerId, idx.get? o.loserId with
  | some i, some j =>
    (if a = i ∧ b = j then o.weight else 0) + if a = j ∧ b = i then o.weight else 0
  | _, _ => 0

theorem add_wins (o : Outcome) (a : Fin n) : (t.add idx o).wins a = t.wins a + credit idx o a := by
  unfold Table.add credit
  cases idx.get? o.winnerId with
  | none => exact (add_zero _).symm
  | some i =>
    cases idx.get? o.loserId with
    | none => exact (add_zero _).symm
    | some j =>
      cases o.tie with
      | true =>
        simp only [if_true, addAt_apply]
        exact add_assoc _ _ _
      | false => exact addAt_apply _ i _ a

theorem add_games (o : Outcome) (a b : Fin n) :
    (t.add idx o).games a b = t.games a b + meeting idx o a b := by
  unfold Table.add meeting
  cases idx.get? o.winnerId with
  | none => exact (add_zero _).symm
  | some i =>
    cases idx.get? o.loserId with
    | none => exact (add_zero _).symm
    | some j =>
      simp only [addGame_apply]
      exact add_assoc _ _ _

theorem foldl_wins (outcomes : List Outcome) (a : Fin n) :
    (outcomes.foldl (Table.add idx) t).wins a = t.wins a + (outcomes.map (credit idx · a)).sum := by
  induction outcomes generalizing t with
  | nil => exact (add_zero _).symm
  | cons o outcomes ih =>
    rw [List.foldl_cons, ih, add_wins, List.map_cons, List.sum_cons, add_assoc]

theorem foldl_games (outcomes : List Outcome) (a b : Fin n) :
    (outcomes.foldl (Table.add idx) t).games a b =
      t.games a b + (outcomes.map (meeting idx · a b)).sum := by
  induction outcomes generalizing t with
  | nil => exact (add_zero _).symm
  | cons o outcomes ih =>
    rw [List.foldl_cons, ih, add_games, List.map_cons, List.sum_cons, add_assoc]

/-- **The order of the outcomes** does not show in the table. -/
theorem foldl_table_congr {outcomes outcomes' : List Outcome} (h : outcomes.Perm outcomes') :
    outcomes.foldl (Table.add idx) t = outcomes'.foldl (Table.add idx) t := by
  have hwins :
    (outcomes.foldl (Table.add idx) t).wins = (outcomes'.foldl (Table.add idx) t).wins := by
    funext a
    rw [foldl_wins, foldl_wins, (h.map _).sum_eq]
  have hgames :
      (outcomes.foldl (Table.add idx) t).games = (outcomes'.foldl (Table.add idx) t).games := by
    funext a b
    rw [foldl_games, foldl_games, (h.map _).sum_eq]
  generalize outcomes.foldl (Table.add idx) t = t₁ at hwins hgames ⊢
  generalize outcomes'.foldl (Table.add idx) t = t₂ at hwins hgames ⊢
  cases t₁
  cases t₂
  obtain rfl := hwins
  obtain rfl := hgames
  rfl

variable {idx} {o : Outcome}

theorem credit_nonneg (hweight : 0 < o.weight) (a : Fin n) : 0 ≤ credit idx o a := by
  unfold credit
  split
  · split_ifs <;> linarith
  · exact le_rfl

theorem meeting_nonneg (hweight : 0 < o.weight) (a b : Fin n) : 0 ≤ meeting idx o a b := by
  unfold meeting
  split
  · split_ifs <;> linarith
  · exact le_rfl

theorem credit_winner (hweight : 0 < o.weight) {i j : Fin n} (hi : idx.get? o.winnerId = some i)
    (hj : idx.get? o.loserId = some j) : 0 < credit idx o i := by
  unfold credit
  rw [hi, hj]
  dsimp only
  rw [if_pos rfl, if_pos rfl]
  split_ifs <;> linarith

theorem credit_of_meeting (hweight : 0 < o.weight) {a b : Fin n} (hmet : meeting idx o a b ≠ 0) :
    0 < credit idx o a ∨ 0 < credit idx o b := by
  unfold meeting at hmet
  split at hmet
  · rename_i i j hi hj
    have hwinner := credit_winner hweight hi hj
    by_cases hab : a = i ∧ b = j
    · exact .inl (hab.1 ▸ hwinner)
    · rw [if_neg hab, zero_add] at hmet
      have hba : a = j ∧ b = i := by
        by_contra hne
        exact hmet (if_neg hne)
      exact .inr (hba.2 ▸ hwinner)
  · exact absurd rfl hmet

/-- **Outcomes are comparisons.** -/
theorem comparisons_foldl {outcomes : List Outcome} (hweight : ∀ o ∈ outcomes, 0 < o.weight)
    (h : Comparisons t.wins t.games) :
    Comparisons (outcomes.foldl (Table.add idx) t).wins
      (outcomes.foldl (Table.add idx) t).games := by
  induction outcomes generalizing t with
  | nil => exact h
  | cons o outcomes ih =>
    obtain ⟨ho, houtcomes⟩ := List.forall_mem_cons.mp hweight
    refine ih _ houtcomes ⟨fun a => ?_, fun a b => ?_, fun a b hmet => ?_⟩
    · rw [add_wins]
      exact add_nonneg (h.wins_nonneg a) (credit_nonneg ho a)
    · rw [add_games]
      exact add_nonneg (h.games_nonneg a b) (meeting_nonneg ho a b)
    · rw [add_wins, add_wins]
      rw [add_games] at hmet
      by_cases hbefore : t.games a b = 0
      · rw [hbefore, zero_add] at hmet
        exact (credit_of_meeting ho hmet).imp (add_pos_of_nonneg_of_pos (h.wins_nonneg a))
          (add_pos_of_nonneg_of_pos (h.wins_nonneg b))
      · exact (h.credited a b hbefore).imp (add_pos_of_pos_of_nonneg · (credit_nonneg ho a))
          (add_pos_of_pos_of_nonneg · (credit_nonneg ho b))

end Table

/-! ### Rounds -/

section Rounds
variable {n : ℕ} {t : Table n} {p : Fin n → ℚ}

theorem denominator_eq (hc : Comparisons t.wins t.games) (hp : Viable t.wins p) (i : Fin n) :
    t.denominator p i = .ok (demand t.games p i) := by
  have hfold : ∀ (js : List (Fin n)) (denom : ℚ), js.foldlM (fun denom j =>
      if i = j ∨ t.games i j = 0 then .ok denom
      else (divide (t.games i j) (p i + p j)).map (denom + ·)) denom =
      (.ok (denom + (js.map fun j => if i ≠ j then t.games i j / (p i + p j) else 0).sum) :
        Except RankingError ℚ) := by
    intro js
    induction js with
    | nil => exact fun denom => congrArg Except.ok (add_zero denom).symm
    | cons j js ih =>
      intro denom
      rw [List.foldlM_cons, List.map_cons, List.sum_cons, ← add_assoc]
      by_cases hskip : i = j ∨ t.games i j = 0
      · -- passed over, as it adds nothing
        have hzero : (if i ≠ j then t.games i j / (p i + p j) else 0) = 0 := by
          obtain hij | hmet := hskip
          · exact if_neg fun hne => hne hij
          · rw [hmet, zero_div, ite_self]
        rw [if_pos hskip, hzero, add_zero]
        exact ih denom
      · obtain ⟨hij, hmet⟩ := not_or.mp hskip
        rw [if_neg hskip, if_pos hij, divide_eq_ok (hp.pos_add hc hmet).ne']
        exact ih _
  unfold Table.denominator
  rw [hfold, zero_add, ← Fin.sum_univ_def]
  unfold demand
  rw [Finset.sum_filter]

theorem newStrength_eq (hc : Comparisons t.wins t.games) (hp : Viable t.wins p) (i : Fin n) :
    t.newStrength p i = .ok (mmStep t.wins t.games p i) := by
  unfold Table.newStrength mmStep
  rw [denominator_eq hc hp]
  show (if 0 < demand t.games p i then divide (t.wins i) (demand t.games p i) else .ok (p i)) = _
  split_ifs with hdemand
  · exact divide_eq_ok hdemand.ne'
  · rfl

theorem totalOr_eq (hp : Viable t.wins p) : totalOr p = ∑ i, p i := by
  unfold totalOr
  rw [List.sum_ofFn]
  exact if_neg hp.pos_sum.ne'

/-- **One round** is the update of paired comparisons, normalized. -/
theorem round_eq (hc : Comparisons t.wins t.games) (hp : Viable t.wins p) :
    t.round p = .ok (normalize (mmStep t.wins t.games p)) := by
  have hstep := viable_mmStep hc hp
  unfold Table.round
  rw [tabulate_eq_ok (newStrength_eq hc hp)]
  refine tabulate_eq_ok fun i => ?_
  rw [totalOr_eq hstep]
  exact divide_eq_ok hstep.pos_sum.ne'

/-- **All rounds**: the strengths stay viable, and are normalized once there was a round. -/
theorem fit_viable (hc : Comparisons t.wins t.games) (tol : ℚ) (iters : ℕ) (hp : Viable t.wins p) :
    ∃ p', t.fit tol iters p = .ok p' ∧ Viable t.wins p' ∧
      ((∑ i, p i = 1 ∨ 1 ≤ iters) → ∑ i, p' i = 1) := by
  induction iters generalizing p with
  | zero => exact ⟨p, rfl, hp, fun h => h.resolve_right (by omega)⟩
  | succ iters ih =>
    have hstep := viable_mmStep hc hp
    unfold Table.fit
    rw [round_eq hc hp]
    show ∃ p', (if delta p (normalize (mmStep t.wins t.games p)) < tol then _ else _) = _ ∧ _
    split_ifs
    · exact ⟨_, rfl, viable_normalize hstep, fun _ => sum_normalize hstep⟩
    · obtain ⟨p', hfit, hviable, hsum⟩ := ih (viable_normalize hstep)
      exact ⟨p', hfit, hviable, fun _ => hsum (.inl (sum_normalize hstep))⟩

end Rounds

/-! ### Scores -/

section Scores
variable {candidates : List String}

theorem get?_indices (hnodup : candidates.Nodup) (i : Fin candidates.length) :
    (indices candidates).get? (candidates.get i) = some i := by
  have hkeys : (((List.finRange candidates.length).map fun i => (candidates[i], i)).map
      Prod.fst).Nodup := by
    rw [List.map_map]
    exact (List.nodup_finRange _).map fun i j hij => Fin.ext ((hnodup.getElem_inj_iff).mp hij)
  have hitems : (indices candidates).items =
      (List.finRange candidates.length).map fun i => (candidates[i], i) :=
    congrArg Dict.items (Dict.ofItems_items ⟨_, hkeys⟩)
  rw [← Dict.mem_items_iff, hitems]
  exact List.mem_map.mpr ⟨i, List.mem_finRange i, rfl⟩

/-- The strength at the index of a candidate. -/
def scoreOf (p : Fin candidates.length → ℚ) (c : String) : ℚ :=
  (((indices candidates).get? c).map p).getD 0

theorem scoreOf_getElem (hnodup : candidates.Nodup) (p : Fin candidates.length → ℚ)
    (i : Fin candidates.length) : scoreOf p (candidates.get i) = p i := by
  unfold scoreOf
  rw [get?_indices hnodup]
  rfl

theorem sum_scoreOf (hnodup : candidates.Nodup) (p : Fin candidates.length → ℚ) :
    (candidates.map (scoreOf p)).sum = ∑ i, p i := by
  have hlisted : List.ofFn (fun i : Fin candidates.length => candidates[i]) = candidates :=
    List.ofFn_getElem
  calc (candidates.map (scoreOf p)).sum
      = ((List.ofFn fun i : Fin candidates.length => candidates[i]).map (scoreOf p)).sum := by
        rw [hlisted]
    _ = (List.ofFn p).sum := by
        rw [List.map_ofFn]
        exact congrArg (fun f => (List.ofFn f).sum) (funext fun i => scoreOf_getElem hnodup p i)
    _ = ∑ i, p i := List.sum_ofFn

theorem subscript_indices (hnodup : candidates.Nodup) (p : Fin candidates.length → ℚ) :
    ∀ c ∈ candidates,
      ((subscript (indices candidates) c).map fun i => (c, p i)) = .ok (c, scoreOf p c) := by
  intro c hc
  obtain ⟨i, hi, rfl⟩ := List.getElem_of_mem hc
  have hidx := get?_indices hnodup ⟨i, hi⟩
  have hscore := scoreOf_getElem hnodup p ⟨i, hi⟩
  dsimp only [List.get_eq_getElem] at hidx hscore
  rw [subscript_eq_ok hidx, hscore]
  rfl

theorem get?_ofItems_map (f : String → ℚ) (cs : List String) :
    ∀ c ∈ cs, (Dict.ofItems (cs.map fun c => (c, f c))).get? c = some (f c) := by
  intro c hc
  unfold Dict.ofItems
  rw [List.foldl_map]
  exact (Dict.get?_ofKeys f cs c).trans (if_pos hc)

end Scores

/-! ### The fit -/

section Fit
variable {candidates : List String} {outcomes : List Outcome}

/-- The table of all outcomes. -/
def tableOf (candidates : List String) (outcomes : List Outcome) : Table candidates.length :=
  outcomes.foldl (Table.add (indices candidates)) {}

theorem comparisons_tableOf (candidates : List String) (hweight : ∀ o ∈ outcomes, 0 < o.weight) :
    Comparisons (tableOf candidates outcomes).wins (tableOf candidates outcomes).games :=
  comparisons_foldl _ hweight ⟨fun _ => le_rfl, fun _ _ => le_rfl, fun _ _ h => absurd rfl h⟩

theorem bradleyTerry_eq (hnodup : candidates.Nodup) (htwo : 2 ≤ candidates.length) {maxIter : ℤ}
    {tol : ℚ} {p : Fin candidates.length → ℚ}
    (hfit : (tableOf candidates outcomes).fit tol maxIter.toNat (fun _ => 1) = .ok p) :
    bradleyTerry candidates outcomes maxIter tol =
      .ok { method := .bradleyTerry
            rows := orderBy rank (candidates.map (rowOf outcomes (scoreOf p))) } := by
  obtain ⟨a, b, cs, rfl⟩ : ∃ a b cs, candidates = a :: b :: cs := by
    match candidates, htwo with
    | a :: b :: cs, _ => exact ⟨a, b, cs, rfl⟩
  unfold bradleyTerry
  show ((tableOf (a :: b :: cs) outcomes).fit tol maxIter.toNat (fun _ => 1) >>= _ :
    Except RankingError Ranking) = _
  rw [hfit]
  show ((a :: b :: cs).mapM _ >>= _ : Except RankingError Ranking) = _
  rw [mapM_eq_ok (subscript_indices hnodup p)]
  show (rows (a :: b :: cs) _ outcomes >>= _ : Except RankingError Ranking) = _
  rw [rows_eq_ok (get?_ofItems_map (scoreOf p) _)]
  rfl

/-- What a fit gives, whatever the number of iterations. -/
structure Fitted (candidates : List String) (outcomes : List Outcome) (maxIter : ℤ) (tol : ℚ)
    (ranking : Ranking) : Prop where
  /-- Each candidate has a row. -/
  ids : (ranking.rows.map (·.candidateId)).Perm candidates
  nonneg : ∀ row ∈ ranking.rows, 0 ≤ row.score
  /-- Of one candidate, or after an iteration, the strengths sum to one. -/
  normalized : candidates ≠ [] → candidates.length = 1 ∨ 1 ≤ maxIter →
    (ranking.rows.map (·.score)).sum = 1
  /-- The outcomes in another order give the same ranking. -/
  order : ∀ outcomes', outcomes.Perm outcomes' →
    bradleyTerry candidates outcomes' maxIter tol = .ok ranking

theorem scoreOf_nonneg {p : Fin candidates.length → ℚ} (hp : ∀ i, 0 ≤ p i) (c : String) :
    0 ≤ scoreOf p c := by
  unfold scoreOf
  cases (indices candidates).get? c with
  | none => exact le_rfl
  | some i => exact hp i

theorem bradleyTerry_single (c : String) (outcomes : List Outcome) (maxIter : ℤ) (tol : ℚ) :
    bradleyTerry [c] outcomes maxIter tol =
      .ok { method := .bradleyTerry
            rows := orderBy rank ([c].map (rowOf outcomes fun _ => 1)) } := by
  show (rows [c] (.ofItems ([c].map fun c => (c, 1))) outcomes >>= _ :
    Except RankingError Ranking) = _
  rw [rows_eq_ok (get?_ofItems_map (fun _ => 1) [c])]
  rfl

/-- **The fit** divides by no zero, and gives normalized strengths in any order of the outcomes. -/
theorem bradleyTerry_normalized (hnodup : candidates.Nodup)
    (hweight : ∀ o ∈ outcomes, 0 < o.weight ∧ o.winnerId ≠ o.loserId) (maxIter : ℤ) (tol : ℚ) :
    ∃ ranking, bradleyTerry candidates outcomes maxIter tol = .ok ranking ∧
      Fitted candidates outcomes maxIter tol ranking := by
  obtain _ | ⟨c, _ | ⟨b, cs⟩⟩ := candidates
  · exact ⟨_, rfl, .nil, fun _ h => (nomatch h), fun h => absurd rfl h, fun _ _ => rfl⟩
  · refine ⟨_, bradleyTerry_single c outcomes maxIter tol, map_id_rows _ _ _,
      forall_mem_rows fun _ _ => zero_le_one, fun _ _ => ?_, fun os h => ?_⟩
    · rw [(map_rows_perm _ _ _ _).sum_eq]
      simp [rowOf]
    · rw [bradleyTerry_single, rowOf_congr h]
  · have htwo : 2 ≤ (c :: b :: cs).length := by simp
    have : Nonempty (Fin (c :: b :: cs).length) := ⟨⟨0, by simp⟩⟩
    obtain ⟨p, hfit, hviable, hsum⟩ := fit_viable
      (comparisons_tableOf (c :: b :: cs) fun o ho => (hweight o ho).1) tol maxIter.toNat
      (viable_const _)
    refine ⟨_, bradleyTerry_eq hnodup htwo hfit, map_id_rows _ _ _,
      forall_mem_rows fun c _ => scoreOf_nonneg hviable.nonneg c, fun _ hiter => ?_, fun os h => ?_⟩
    · have hpos : 1 ≤ maxIter.toNat := by omega
      rw [(map_rows_perm _ _ _ _).sum_eq]
      exact (sum_scoreOf hnodup p).trans (hsum (.inr hpos))
    · have htable : tableOf (c :: b :: cs) outcomes = tableOf (c :: b :: cs) os :=
        foldl_table_congr _ _ h
      rw [htable] at hfit
      rw [bradleyTerry_eq hnodup htwo hfit, rowOf_congr h]

/-- A candidate that never won against one that did. -/
theorem bradleyTerry_normalized_pair :
    ∃ ranking, bradleyTerry ["a", "b"] [{ winnerId := "a", loserId := "b", weight := 3 / 2 }] 2 0 =
      .ok ranking ∧
      Fitted ["a", "b"] [{ winnerId := "a", loserId := "b", weight := 3 / 2 }] 2 0 ranking :=
  bradleyTerry_normalized (by decide) (by simp) 2 0

/-- **Without candidates** there is nothing to sum up, and without iterations the strengths are
those to start from. -/
theorem not_always_normalized :
    (∃ ranking, bradleyTerry [] [] = .ok ranking ∧ (ranking.rows.map (·.score)).sum = 0) ∧
      ∃ ranking, bradleyTerry ["a", "b"] [{ winnerId := "a", loserId := "b" }] 0 = .ok ranking ∧
        (ranking.rows.map (·.score)).sum = 2 :=
  ⟨⟨_, rfl, rfl⟩, ⟨.bradleyTerry, [⟨"a", 1, 1, 0, 0, 1⟩, ⟨"b", 1, 0, 1, 0, 1⟩]⟩,
    by decide +kernel, by decide +kernel⟩

end Fit

end Selfevals.Optimization.BradleyTerry
