import Selfevals.Runner.PairwiseTournament

/-!
# Ranking by head-to-head results

Two ways to turn the outcomes of a tournament into scores: `elo_ratings`, one outcome after the
other, and `bradley_terry`, by rounds over all of them. Divisions and subscripts are checked, so a
ranking that comes out met neither a zero nor a missing key.
-/

namespace Selfevals.Optimization.Rankings

open Lib.Mapping Lib.Result Lib.Sql
open Runner.PairwiseTournament (Outcome)

/-- What a ranking raises. -/
inductive RankingError
  | keyError (key : String)
  | zeroDivision
deriving DecidableEq, Repr

/-- `RankingMethod`. -/
inductive RankingMethod
  | elo
  | bradleyTerry
deriving DecidableEq, Repr

/-- A candidate's place, with its counts. -/
structure RankingRow where
  candidateId : String
  score : ℚ
  wins : ℕ
  losses : ℕ
  ties : ℕ
  nComparisons : ℕ
deriving DecidableEq, Repr

/-- The candidates in order of their scores. -/
structure Ranking where
  method : RankingMethod
  rows : List RankingRow
deriving DecidableEq, Repr

/-- `d[key]`. -/
def subscript {α : Type} (d : Dict String α) (key : String) : Except RankingError α :=
  match d.get? key with
  | none => .error (.keyError key)
  | some value => .ok value

/-- `/`, with its `ZeroDivisionError`. -/
def divide (x y : ℚ) : Except RankingError ℚ :=
  if y = 0 then .error .zeroDivision else .ok (x / y)

theorem subscript_eq_ok {α : Type} {d : Dict String α} {key : String} {value : α}
    (h : d.get? key = some value) : subscript d key = .ok value := by
  unfold subscript
  rw [h]

theorem divide_eq_ok {x y : ℚ} (h : y ≠ 0) : divide x y = .ok (x / y) := if_neg h

/-! ### The tally -/

/-- The wins, losses and ties of a candidate. -/
structure Tally where
  wins : Dict String ℕ
  losses : Dict String ℕ
  ties : Dict String ℕ

/-- `if key in d: d[key] += 1`. -/
def bump (d : Dict String ℕ) (key : String) : Dict String ℕ :=
  match d.get? key with
  | none => d
  | some n => d.set key (n + 1)

/-- One more outcome. -/
def Tally.add (t : Tally) (o : Outcome) : Tally :=
  if o.tie then { t with ties := bump (bump t.ties o.winnerId) o.loserId }
  else { t with wins := bump t.wins o.winnerId, losses := bump t.losses o.loserId }

/-- `_tally`. -/
def tally (candidates : List String) (outcomes : List Outcome) : Tally :=
  let zeros := Dict.ofKeys (fun _ => 0) candidates
  outcomes.foldl Tally.add ⟨zeros, zeros, zeros⟩

/-- The order of the rows: the best first, and of equals by their ids. -/
def rank (row : RankingRow) : Lex (ℚ × String) := toLex (-row.score, row.candidateId)

/-- The row of a candidate. -/
def rowFor (scores : Dict String ℚ) (counts : Tally) (c : String) :
    Except RankingError RankingRow := do
  let score ← subscript scores c
  let wins ← subscript counts.wins c
  let losses ← subscript counts.losses c
  let ties ← subscript counts.ties c
  return { candidateId := c, score, wins, losses, ties, nComparisons := wins + losses + ties }

/-- `_rows`. -/
def rows (candidates : List String) (scores : Dict String ℚ) (outcomes : List Outcome) :
    Except RankingError (List RankingRow) := do
  let rows ← candidates.mapM (rowFor scores (tally candidates outcomes))
  return orderBy rank rows

/-! ### `elo_ratings` -/

/-- One outcome, by the ratings before it; an id that is not rated is passed over. `expected` is the
expected score of the first of two ratings. -/
def eloStep (expected : ℚ → ℚ → ℚ) (k : ℚ) (ratings : Dict String ℚ) (o : Outcome) :
    Dict String ℚ :=
  match ratings.get? o.winnerId, ratings.get? o.loserId with
  | some ra, some rb =>
    let ea := expected ra rb
    let eb := 1 - ea
    let sa := if o.tie then 1 / 2 else 1
    let sb := if o.tie then 1 / 2 else 0
    (ratings.set o.winnerId (ra + k * o.weight * (sa - ea))).set o.loserId
      (rb + k * o.weight * (sb - eb))
  | _, _ => ratings

/-- `elo_ratings`. -/
def eloRatings (expected : ℚ → ℚ → ℚ) (candidates : List String) (outcomes : List Outcome)
    (k : ℚ := 32) (base : ℚ := 1500) : Except RankingError Ranking := do
  let ratings := outcomes.foldl (eloStep expected k) (.ofKeys (fun _ => base) candidates)
  let rows ← rows candidates ratings outcomes
  return { method := .elo, rows }

/-! ### `bradley_terry` -/

/-- Fractional wins of each candidate, and how often each two met. -/
structure Table (n : ℕ) where
  wins : Fin n → ℚ := fun _ => 0
  games : Fin n → Fin n → ℚ := fun _ _ => 0

section Table
variable {n : ℕ}

/-- `xs[i] += w`. -/
def addAt (xs : Fin n → ℚ) (i : Fin n) (w : ℚ) : Fin n → ℚ := Function.update xs i (xs i + w)

/-- `games[i][j] += w`. -/
def addGame (games : Fin n → Fin n → ℚ) (i j : Fin n) (w : ℚ) : Fin n → Fin n → ℚ :=
  Function.update games i (addAt (games i) j w)

/-- One outcome counted, where both ids have an index. -/
def Table.add (idx : Dict String (Fin n)) (t : Table n) (o : Outcome) : Table n :=
  match idx.get? o.winnerId, idx.get? o.loserId with
  | some i, some j =>
    { games := addGame (addGame t.games i j o.weight) j i o.weight
      wins :=
        if o.tie then addAt (addAt t.wins i (1 / 2 * o.weight)) j (1 / 2 * o.weight)
        else addAt t.wins i o.weight }
  | _, _ => t

variable (t : Table n) (p : Fin n → ℚ)

/-- The denominator of the update; those that a candidate never met are passed over. -/
def Table.denominator (i : Fin n) : Except RankingError ℚ :=
  (List.finRange n).foldlM (fun denom j =>
    if i = j ∨ t.games i j = 0 then .ok denom
    else (divide (t.games i j) (p i + p j)).map (denom + ·)) 0

def Table.newStrength (i : Fin n) : Except RankingError ℚ := do
  let denom ← t.denominator p i
  if 0 < denom then divide (t.wins i) denom else .ok (p i)

/-- `sum(new_p) or 1.0`. -/
def totalOr (p : Fin n → ℚ) : ℚ := if (List.ofFn p).sum = 0 then 1 else (List.ofFn p).sum

/-- One iteration: all strengths from the ones before, then renormalized. -/
def Table.round : Except RankingError (Fin n → ℚ) := do
  let newP ← tabulate (t.newStrength p)
  tabulate fun i => divide (newP i) (totalOr newP)

/-- The largest change of a strength. -/
def delta (p newP : Fin n → ℚ) : ℚ :=
  (List.finRange n).foldl (fun d i => max d |newP i - p i|) 0

/-- `for _ in range(max_iter)`, until no strength changes by `tol`. -/
def Table.fit (tol : ℚ) : ℕ → (Fin n → ℚ) → Except RankingError (Fin n → ℚ)
  | 0, p => .ok p
  | iters + 1, p => do
    let newP ← t.round p
    if delta p newP < tol then .ok newP else Table.fit tol iters newP

end Table

/-- `{c: i for i, c in enumerate(candidates)}`. -/
def indices (candidates : List String) : Dict String (Fin candidates.length) :=
  .ofItems ((List.finRange candidates.length).map fun i => (candidates[i], i))

/-- `bradley_terry`. -/
def bradleyTerry (candidates : List String) (outcomes : List Outcome) (maxIter : ℤ := 100)
    (tol : ℚ := 1 / 1000000) : Except RankingError Ranking :=
  match candidates with
  | [] => .ok { method := .bradleyTerry, rows := [] }
  | [c] => do
    let rows ← rows [c] (.ofItems [(c, 1)]) outcomes
    return { method := .bradleyTerry, rows }
  | candidates => do
    let idx := indices candidates
    let t := outcomes.foldl (Table.add idx) {}
    let p ← t.fit tol maxIter.toNat fun _ => 1
    let strengths ← candidates.mapM fun c => (subscript idx c).map fun i => (c, p i)
    let rows ← rows candidates (.ofItems strengths) outcomes
    return { method := .bradleyTerry, rows }

/-! ### Rows -/

section Rows

theorem get?_bump (d : Dict String ℕ) (key key' : String) :
    (bump d key).get? key' = (d.get? key').map (· + if key' = key then 1 else 0) := by
  unfold bump
  cases hkey : d.get? key with
  | none =>
    by_cases heq : key' = key
    · rw [heq, hkey]
      rfl
    · simp [heq]
  | some n =>
    dsimp only
    rw [Dict.get?_set]
    by_cases heq : key' = key
    · simp [heq, hkey]
    · simp [heq]

/-- How often a candidate won. -/
def winsOf (outcomes : List Outcome) (c : String) : ℕ :=
  outcomes.countP fun o => o.tie = false ∧ o.winnerId = c

/-- How often a candidate lost. -/
def lossesOf (outcomes : List Outcome) (c : String) : ℕ :=
  outcomes.countP fun o => o.tie = false ∧ o.loserId = c

/-- Ties, on either side. -/
def tiesOf (outcomes : List Outcome) (c : String) : ℕ :=
  (outcomes.countP fun o => o.tie = true ∧ o.winnerId = c) +
    outcomes.countP fun o => o.tie = true ∧ o.loserId = c

theorem winsOf_append (xs ys : List Outcome) (c : String) :
    winsOf (xs ++ ys) c = winsOf xs c + winsOf ys c := List.countP_append

theorem lossesOf_append (xs ys : List Outcome) (c : String) :
    lossesOf (xs ++ ys) c = lossesOf xs c + lossesOf ys c := List.countP_append

theorem tiesOf_append (xs ys : List Outcome) (c : String) :
    tiesOf (xs ++ ys) c = tiesOf xs c + tiesOf ys c := by
  unfold tiesOf
  rw [List.countP_append, List.countP_append]
  omega

/-- The outcomes take a candidate's counts in one tally to those in the other. -/
structure Counted (t t' : Tally) (outcomes : List Outcome) (c : String) : Prop where
  wins : t'.wins.get? c = (t.wins.get? c).map (· + winsOf outcomes c)
  losses : t'.losses.get? c = (t.losses.get? c).map (· + lossesOf outcomes c)
  ties : t'.ties.get? c = (t.ties.get? c).map (· + tiesOf outcomes c)

theorem counted_add (t : Tally) (o : Outcome) (c : String) : Counted t (t.add o) [o] c := by
  unfold Tally.add
  cases htie : o.tie with
  | true =>
    rw [if_pos rfl]
    refine ⟨by simp [winsOf, htie], by simp [lossesOf, htie], ?_⟩
    simp only [get?_bump, Option.map_map, tiesOf, htie, List.countP_singleton, true_and,
      decide_eq_true_eq, eq_comm (a := c)]
    exact congrArg (Option.map · (t.ties.get? c)) (funext fun n => Nat.add_assoc n _ _)
  | false =>
    rw [if_neg Bool.false_ne_true]
    refine ⟨?_, ?_, by simp [tiesOf, htie]⟩
    · simp only [get?_bump, winsOf, htie, List.countP_singleton, true_and, decide_eq_true_eq,
        eq_comm (a := c)]
    · simp only [get?_bump, lossesOf, htie, List.countP_singleton, true_and, decide_eq_true_eq,
        eq_comm (a := c)]

theorem Counted.trans {t t' t'' : Tally} {xs ys : List Outcome} {c : String}
    (h : Counted t t' xs c) (h' : Counted t' t'' ys c) : Counted t t'' (xs ++ ys) c where
  wins := by
    rw [h'.wins, h.wins, Option.map_map, winsOf_append]
    exact congrArg (Option.map · (t.wins.get? c)) (funext fun n => Nat.add_assoc n _ _)
  losses := by
    rw [h'.losses, h.losses, Option.map_map, lossesOf_append]
    exact congrArg (Option.map · (t.losses.get? c)) (funext fun n => Nat.add_assoc n _ _)
  ties := by
    rw [h'.ties, h.ties, Option.map_map, tiesOf_append]
    exact congrArg (Option.map · (t.ties.get? c)) (funext fun n => Nat.add_assoc n _ _)

theorem counted_foldl (outcomes : List Outcome) (t : Tally) (c : String) :
    Counted t (outcomes.foldl Tally.add t) outcomes c := by
  induction outcomes generalizing t with
  | nil => constructor <;> simp [winsOf, lossesOf, tiesOf]
  | cons o outcomes ih => exact (counted_add t o c).trans (ih (t.add o))

/-- The row of a candidate with a score. -/
def rowOf (outcomes : List Outcome) (score : String → ℚ) (c : String) : RankingRow where
  candidateId := c
  score := score c
  wins := winsOf outcomes c
  losses := lossesOf outcomes c
  ties := tiesOf outcomes c
  nComparisons := winsOf outcomes c + lossesOf outcomes c + tiesOf outcomes c

/-- **Rows** come out where every candidate has a score. -/
theorem rows_eq_ok {candidates : List String} {scores : Dict String ℚ} {score : String → ℚ}
    (h : ∀ c ∈ candidates, scores.get? c = some (score c)) (outcomes : List Outcome) :
    rows candidates scores outcomes =
      .ok (orderBy rank (candidates.map (rowOf outcomes score))) := by
  have hrow : ∀ c ∈ candidates,
      rowFor scores (tally candidates outcomes) c = .ok (rowOf outcomes score c) := by
    intro c hc
    have hzero : (Dict.ofKeys (fun _ => 0) candidates).get? c = some 0 := by
      rw [Dict.get?_ofKeys, if_pos hc]
    obtain ⟨hwins, hlosses, hties⟩ : Counted _ (tally candidates outcomes) outcomes c :=
      counted_foldl outcomes _ c
    rw [hzero, Option.map_some, Nat.zero_add] at hwins hlosses hties
    unfold rowFor
    rw [subscript_eq_ok (h c hc), subscript_eq_ok hwins, subscript_eq_ok hlosses,
      subscript_eq_ok hties]
    rfl
  unfold rows
  rw [mapM_eq_ok hrow]
  rfl

theorem rowOf_congr {outcomes outcomes' : List Outcome} (h : outcomes.Perm outcomes') :
    rowOf outcomes = rowOf outcomes' := by
  funext score c
  simp only [rowOf, winsOf, lossesOf, tiesOf, h.countP_eq]

theorem map_rows_perm {α : Type} (f : RankingRow → α) (outcomes : List Outcome) (score : String → ℚ)
    (candidates : List String) :
    ((orderBy rank (candidates.map (rowOf outcomes score))).map f).Perm
      (candidates.map fun c => f (rowOf outcomes score c)) := by
  refine ((orderBy_perm rank _).map f).trans ?_
  rw [List.map_map]
  rfl

theorem map_id_rows (outcomes : List Outcome) (score : String → ℚ) (candidates : List String) :
    ((orderBy rank (candidates.map (rowOf outcomes score))).map (·.candidateId)).Perm candidates :=
  (map_rows_perm _ outcomes score candidates).trans (.of_eq (List.map_id candidates))

theorem forall_mem_rows {P : RankingRow → Prop} {outcomes : List Outcome} {score : String → ℚ}
    {candidates : List String} (h : ∀ c ∈ candidates, P (rowOf outcomes score c)) :
    ∀ row ∈ orderBy rank (candidates.map (rowOf outcomes score)), P row := by
  intro row hrow
  obtain ⟨c, hc, rfl⟩ := List.mem_map.mp ((orderBy_perm rank _).mem_iff.mp hrow)
  exact h c hc

end Rows

end Selfevals.Optimization.Rankings
