import Mathlib.Algebra.BigOperators.Group.List.Basic
import Mathlib.Algebra.Order.BigOperators.Group.List
import Mathlib.Algebra.Order.Floor.Ring
import Mathlib.Data.List.Nodup
import Mathlib.Data.Rat.Floor
import Mathlib.Tactic.Linarith
import Mathlib.Tactic.Push

/-!
# Apportionment by largest remainders

Each claimant has a share of the seats, a rational. It gets the whole part of its share, and those
with the largest remainders get one seat more, until a total is reached that is the sum of the
shares rounded down or up. There are always enough claimants with a remainder, so nobody gets more
than its share rounded up.
-/

namespace Selfevals.Lib.Apportionment

/-! ### A list with the good ones first -/

theorem forall_mem_take_of_countP {α : Type*} {p : α → Bool} {xs : List α}
    (h : xs.Pairwise fun a b => p b = true → p a = true) {n : ℕ} (hn : n ≤ xs.countP p) :
    ∀ x ∈ xs.take n, p x = true := by
  induction xs generalizing n with
  | nil => simp
  | cons x xs ih =>
    obtain ⟨hx, hxs⟩ := List.pairwise_cons.mp h
    cases n with
    | zero => simp
    | succ n =>
      have hpx : p x = true := by
        by_contra hnot
        have hnone : xs.countP p = 0 :=
          List.countP_eq_zero.mpr fun y hy hpy => hnot (hx y hy hpy)
        rw [List.countP_cons, hnone, if_neg hnot] at hn
        omega
      rw [List.countP_cons, if_pos hpx] at hn
      rw [List.take_succ_cons]
      exact List.forall_mem_cons.mpr ⟨hpx, ih hxs (by omega)⟩

theorem countP_mem {α : Type*} [DecidableEq α] {xs ys : List α} (hxs : xs.Nodup) (hys : ys.Nodup)
    (hsub : ys ⊆ xs) : (xs.countP fun x => x ∈ ys) = ys.length := by
  rw [List.countP_eq_length_filter]
  refine ((List.perm_ext_iff_of_nodup (hxs.filter _) hys).mpr fun x => ?_).length_eq
  rw [List.mem_filter, decide_eq_true_iff]
  exact and_iff_right_of_imp fun hx => hsub hx

/-! ### Seats -/

section Seats
variable {κ : Type*} [DecidableEq κ] {share : κ → ℚ} {order : List κ} {extra : ℕ}

/-- The whole part of the share, and one more for the first `extra` in order. -/
def seats (share : κ → ℚ) (order : List κ) (extra : ℕ) (k : κ) : ℤ :=
  ⌊share k⌋ + if k ∈ order.take extra then 1 else 0

omit [DecidableEq κ] in
theorem ceil_sum_sub_floors_le (share : κ → ℚ) (ks : List κ) :
    ⌈(ks.map share).sum⌉ - (ks.map fun k => ⌊share k⌋).sum ≤
      ks.countP fun k => 0 < Int.fract (share k) := by
  have hsum : (ks.map share).sum ≤ ((ks.map fun k => ⌊share k⌋).sum : ℤ) +
      ((ks.countP fun k => 0 < Int.fract (share k) : ℕ) : ℚ) := by
    induction ks with
    | nil => simp
    | cons k ks ih =>
      have hk : share k ≤ ⌊share k⌋ + if 0 < Int.fract (share k) then 1 else 0 := by
        have hsplit := Int.floor_add_fract (share k)
        split_ifs with hpos
        · linarith [Int.fract_lt_one (share k)]
        · linarith
      rw [List.map_cons, List.map_cons, List.sum_cons, List.sum_cons, List.countP_cons]
      push_cast at ih ⊢
      by_cases hpos : 0 < Int.fract (share k)
      · simp only [hpos, decide_true, if_true] at hk ⊢
        linarith
      · simp only [hpos, decide_false, if_false, Bool.false_eq_true] at hk ⊢
        linarith
  rw [sub_le_iff_le_add', Int.ceil_le]
  exact_mod_cast hsum

/-- The order is by descending remainders. -/
def Descending (share : κ → ℚ) (order : List κ) : Prop :=
  order.Pairwise fun a b => Int.fract (share b) ≤ Int.fract (share a)

omit [DecidableEq κ] in
/-- **Only remainders are rounded up**: of a total not above the sum of the shares rounded up. -/
theorem fract_pos_of_mem_take (horder : Descending share order)
    (hextra : (extra : ℤ) + (order.map fun k => ⌊share k⌋).sum ≤ ⌈(order.map share).sum⌉) {k : κ}
    (hk : k ∈ order.take extra) : 0 < Int.fract (share k) := by
  have hcount : extra ≤ order.countP fun k => 0 < Int.fract (share k) := by
    have hle := ceil_sum_sub_floors_le share order
    omega
  have hgood := forall_mem_take_of_countP (horder.imp fun hab hb => by
    simp only [decide_eq_true_eq] at hb ⊢
    exact hb.trans_le hab) hcount k hk
  simpa using hgood

/-- **Each has its share rounded down or up.** -/
theorem seats_eq_floor_or_ceil (horder : Descending share order)
    (hextra : (extra : ℤ) + (order.map fun k => ⌊share k⌋).sum ≤ ⌈(order.map share).sum⌉) (k : κ) :
    seats share order extra k = ⌊share k⌋ ∨ seats share order extra k = ⌈share k⌉ := by
  unfold seats
  split_ifs with hk
  · right
    have hpos := fract_pos_of_mem_take horder hextra hk
    refine ((Int.ceil_eq_iff).mpr ⟨?_, ?_⟩).symm
    · push_cast
      linarith [Int.floor_add_fract (share k)]
    · push_cast
      linarith [Int.lt_floor_add_one (share k)]
  · exact Or.inl (add_zero _)

theorem sum_map_seats (ks : List κ) : (ks.map (seats share order extra)).sum =
    (ks.map fun k => ⌊share k⌋).sum + ks.countP fun k => k ∈ order.take extra := by
  induction ks with
  | nil => rfl
  | cons k ks ih =>
    rw [List.map_cons, List.map_cons, List.sum_cons, List.sum_cons, ih, List.countP_cons, seats]
    by_cases hk : k ∈ order.take extra <;> simp [hk] <;> ring

/-- **The seats add up**, where there are claimants for the extra ones. -/
theorem sum_seats (hnodup : order.Nodup) (hextra : extra ≤ order.length) :
    (order.map (seats share order extra)).sum = (order.map fun k => ⌊share k⌋).sum + extra := by
  have hsub : (order.take extra).Sublist order := List.take_sublist extra order
  rw [sum_map_seats, countP_mem hnodup (hnodup.sublist hsub) hsub.subset, List.length_take,
    min_eq_left hextra]

end Seats

end Selfevals.Lib.Apportionment
