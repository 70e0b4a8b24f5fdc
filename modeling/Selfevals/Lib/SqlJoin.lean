import Mathlib.Algebra.BigOperators.Group.List.Basic
import Mathlib.Algebra.Order.BigOperators.Group.List
import Mathlib.Data.List.Dedup
import Mathlib.Data.Rat.Floor
import Selfevals.Lib.Sql

/-!
# Joins and groups

`JOIN … ON`, `GROUP BY` and the aggregates of a query. Rows come in some order; what is grouped and
counted does not depend on it.

* `countP_join`: a join repeats a row as often as it finds a partner.
* `sum_groupBy`: the groups have all the rows between them.
* `sum_eq_length_iff`: a sum of numbers above zero is their number only if they are all one.
-/

namespace Selfevals.Lib.Sql

variable {α β κ : Type*}

/-! ### `JOIN` -/

/-- The pairs of rows that meet the condition. -/
def join (on : α → β → Bool) (xs : List α) (ys : List β) : List (α × β) :=
  xs.flatMap fun x => (ys.filter (on x)).map fun y => (x, y)

theorem mem_join {on : α → β → Bool} {xs : List α} {ys : List β} {p : α × β} :
    p ∈ join on xs ys ↔ p.1 ∈ xs ∧ p.2 ∈ ys ∧ on p.1 p.2 = true := by
  obtain ⟨x, y⟩ := p
  simp only [join, List.mem_flatMap, List.mem_map, List.mem_filter, Prod.mk.injEq]
  constructor
  · rintro ⟨x', hx', y', ⟨hy', hon⟩, rfl, rfl⟩
    exact ⟨hx', hy', hon⟩
  · rintro ⟨hx, hy, hon⟩
    exact ⟨x, hx, y, ⟨hy, hon⟩, rfl, rfl⟩

theorem join_cons (on : α → β → Bool) (x : α) (xs : List α) (ys : List β) :
    join on (x :: xs) ys = ((ys.filter (on x)).map fun y => (x, y)) ++ join on xs ys := rfl

theorem filter_join (on : α → β → Bool) (p : α → Bool) (xs : List α) (ys : List β) :
    (join on xs ys).filter (fun pair => p pair.1) = join on (xs.filter p) ys := by
  induction xs with
  | nil => rfl
  | cons x xs ih =>
    have hfst : ∀ pair ∈ (ys.filter (on x)).map fun y => (x, y), pair.1 = x := by
      intro pair hpair
      obtain ⟨y, -, rfl⟩ := List.mem_map.mp hpair
      rfl
    rw [join_cons, List.filter_append, ih, List.filter_cons]
    split_ifs with hp
    · rw [join_cons, List.filter_eq_self.mpr fun pair hpair => by rw [hfst pair hpair, hp]]
    · rw [List.filter_eq_nil_iff.mpr fun pair hpair => by rw [hfst pair hpair]; exact hp,
        List.nil_append]

theorem length_join (on : α → β → Bool) (xs : List α) (ys : List β) :
    (join on xs ys).length = (xs.map fun x => ys.countP (on x)).sum := by
  unfold join
  rw [List.length_flatMap]
  simp only [List.length_map, List.countP_eq_length_filter]

theorem countP_join (on : α → β → Bool) (p : α → Bool) (xs : List α) (ys : List β) :
    (join on xs ys).countP (fun pair => p pair.1) =
      ((xs.filter p).map fun x => ys.countP (on x)).sum := by
  rw [List.countP_eq_length_filter, filter_join, length_join]

theorem map_fst_filter_join {on : α → β → Bool} {w : α × β → Bool} {p : α → Bool} {xs : List α}
    {ys : List β} (h : ∀ x ∈ xs, (ys.countP fun y => on x y && w (x, y)) = if p x then 1 else 0) :
    ((join on xs ys).filter w).map Prod.fst = xs.filter p := by
  induction xs with
  | nil => rfl
  | cons x xs ih =>
    have hx : ((((ys.filter (on x)).map fun y => (x, y)).filter w).map Prod.fst) =
        if p x then [x] else [] := by
      have hlen := h x List.mem_cons_self
      rw [List.filter_map, List.map_map, List.filter_filter, List.countP_eq_length_filter] at *
      have hconst : (Prod.fst ∘ fun y : β => (x, y)) = fun _ => x := rfl
      have hsame : (ys.filter fun y => (w ∘ fun y => (x, y)) y && on x y) =
          ys.filter fun y => on x y && w (x, y) :=
        List.filter_congr fun y _ => Bool.and_comm _ _
      rw [hconst, hsame, List.map_const', hlen]
      split_ifs <;> rfl
    rw [join_cons, List.filter_append, List.map_append, hx,
      ih fun x' hx' => h x' (List.mem_cons_of_mem _ hx'), List.filter_cons]
    split_ifs <;> rfl

theorem flatMap_filter_left (p : α → Bool) (g : α → List β) (xs : List α) :
    (xs.filter p).flatMap g = xs.flatMap fun x => if p x then g x else [] := by
  induction xs with
  | nil => rfl
  | cons x xs ih =>
    rw [List.filter_cons, List.flatMap_cons, ← ih]
    split_ifs <;> rfl

theorem join_append_right {on : α → β → Bool} {xs : List α} {ys zs : List β}
    (h : ∀ x ∈ xs, zs.countP (on x) = 0) : join on xs (ys ++ zs) = join on xs ys := by
  unfold join
  refine List.flatMap_congr fun x hx => ?_
  rw [List.filter_append, List.filter_eq_nil_iff.mpr (List.countP_eq_zero.mp (h x hx)),
    List.append_nil]

/-! ### `GROUP BY` -/

section GroupBy
variable [DecidableEq κ] (key : α → κ)

/-- The keys that occur, each with its rows. -/
def groupBy (rows : List α) : List (κ × List α) :=
  (rows.map key).dedup.map fun k => (k, rows.filter fun r => key r = k)

theorem sum_groupBy_filter (rows : List α) (k : κ) :
    (((groupBy key rows).filter fun g => g.1 = k).map fun g => g.2.length).sum =
      rows.countP fun r => key r = k := by
  unfold groupBy
  rw [List.filter_map, List.map_map]
  by_cases hk : k ∈ rows.map key
  · have hfilter : ((rows.map key).dedup.filter fun k' => k' = k) = [k] := by
      rw [List.filter_eq, List.count_eq_one_of_mem (List.nodup_dedup _)
        (List.mem_dedup.mpr hk)]
      rfl
    have hcongr : ((fun g : κ × List α => decide (g.1 = k)) ∘ fun k' =>
        (k', rows.filter fun r => key r = k')) = fun k' => decide (k' = k) := rfl
    rw [hcongr, hfilter]
    simp [List.countP_eq_length_filter]
  · have hnone : ∀ r ∈ rows, key r ≠ k := fun r hr hrk => hk (List.mem_map.mpr ⟨r, hr, hrk⟩)
    rw [List.filter_eq_nil_iff.mpr, List.countP_eq_zero.mpr]
    · rfl
    · simpa using hnone
    · simpa using hnone

theorem sum_groupBy (rows : List α) :
    ((groupBy key rows).map fun g => g.2.length).sum = rows.length := by
  unfold groupBy
  rw [List.map_map]
  have hcount : ∀ k, (rows.filter fun r => key r = k).length = (rows.map key).count k := by
    intro k
    rw [List.count, List.countP_map, List.countP_eq_length_filter]
    rfl
  have hmap : ((fun g : κ × List α => g.2.length) ∘ fun k =>
      (k, rows.filter fun r => key r = k)) = fun k => (rows.map key).count k :=
    funext hcount
  rw [hmap, List.sum_map_count_dedup_eq_length, List.length_map]

end GroupBy

/-! ### Aggregates -/

/-- `AVG`. -/
def avg (xs : List ℕ) : Option ℚ := if xs = [] then none else some (xs.sum / xs.length)

/-- `percentile_cont(p) WITHIN GROUP (ORDER BY …)`: the value at the fraction `p` of the way,
between two of the values where it falls between them. -/
def percentileCont (p : ℚ) (xs : List ℕ) : Option ℚ :=
  let sorted := orderBy id xs
  let place := p * (xs.length - 1)
  match sorted[⌊place⌋.toNat]?, sorted[⌈place⌉.toNat]? with
  | some low, some high => some (low + (high - low) * (place - ⌊place⌋))
  | _, _ => none

example : percentileCont (1 / 2) [30, 10, 20, 40] = some 25 := by decide +kernel

theorem sum_eq_length_iff {xs : List ℕ} (h : ∀ x ∈ xs, 1 ≤ x) :
    xs.sum = xs.length ↔ ∀ x ∈ xs, x = 1 := by
  induction xs with
  | nil => simp
  | cons x xs ih =>
    have hx := h x List.mem_cons_self
    have hxs : ∀ y ∈ xs, 1 ≤ y := fun y hy => h y (List.mem_cons_of_mem _ hy)
    have hle : xs.length ≤ xs.sum := by
      have := List.length_le_sum_of_one_le xs hxs
      exact this
    rw [List.sum_cons, List.length_cons, List.forall_mem_cons, ← ih hxs]
    omega

end Selfevals.Lib.Sql
