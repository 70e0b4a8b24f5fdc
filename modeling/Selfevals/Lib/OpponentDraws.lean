import Mathlib.Data.Finset.Card
import Mathlib.Data.List.Sort
import Mathlib.Data.Prod.Lex

/-!
# Opponents drawn from an order

Each of a set draws the first `k` of the others, in an order of its own, and meets those that it
draws and those that draw it. Then each meets `k` others or more, and no more than that exactly
where draws are mutual.

* `mem_take_iff_countP`: who is among the first `k` of an order.
-/

namespace Selfevals.Lib.OpponentDraws

/-! ### The first of an order -/

section Order
variable {α κ : Type*} [LinearOrder κ]

theorem mem_take_iff_countP {key : α → κ} {xs : List α} (hlt : xs.Pairwise fun a b => key a < key b)
    {x : α} (hx : x ∈ xs) (k : ℕ) : x ∈ xs.take k ↔ xs.countP (fun y => key y < key x) < k := by
  induction xs generalizing k with
  | nil => exact nomatch hx
  | cons y ys ih =>
    obtain ⟨hy, hys⟩ := List.pairwise_cons.mp hlt
    cases k with
    | zero => simp
    | succ k =>
      rw [List.take_succ_cons, List.mem_cons, List.countP_cons]
      obtain rfl | hmem := List.mem_cons.mp hx
      · have hnone : ys.countP (fun y => key y < key x) = 0 :=
          List.countP_eq_zero.mpr fun z hz => by simpa using (hy z hz).le
        simp [hnone]
      · have hbefore : key y < key x := hy x hmem
        have hne : x ≠ y := fun h => hbefore.ne (congrArg key h.symm)
        rw [ih hys hmem, if_pos (by simpa using hbefore)]
        simp [hne]

variable [LinearOrder α]

theorem orderedInsert_tiebreak {key : α → κ} {x : α} {ys : List α} (h : ∀ y ∈ ys, x < y) :
    ys.orderedInsert (fun a b => key a ≤ key b) x =
      ys.orderedInsert (fun a b => toLex (key a, a) ≤ toLex (key b, b)) x := by
  induction ys with
  | nil => rfl
  | cons y ys ih =>
    obtain ⟨hy, hys⟩ := List.forall_mem_cons.mp h
    have hiff : key x ≤ key y ↔ toLex (key x, x) ≤ toLex (key y, y) := by
      rw [Prod.Lex.toLex_le_toLex, le_iff_lt_or_eq]
      exact or_congr_right (iff_self_and.mpr fun _ => hy.le)
    rw [List.orderedInsert_cons, List.orderedInsert_cons, ih hys]
    simp only [hiff]

/-- **A stable sort** of values in ascending order goes by the key, and where keys are equal by the
values. -/
theorem insertionSort_tiebreak (key : α → κ) {xs : List α} (h : xs.Pairwise (· < ·)) :
    xs.insertionSort (fun a b => key a ≤ key b) =
      xs.insertionSort fun a b => toLex (key a, a) ≤ toLex (key b, b) := by
  induction xs with
  | nil => rfl
  | cons x xs ih =>
    obtain ⟨hx, hxs⟩ := List.pairwise_cons.mp h
    rw [List.insertionSort_cons, List.insertionSort_cons, ih hxs]
    exact orderedInsert_tiebreak fun y hy => hx y ((List.perm_insertionSort _ xs).mem_iff.mp hy)

end Order

/-! ### Draws -/

/-- Each of `s` draws `k` of the others, or all of them if they are fewer. -/
structure Draws {α : Type*} [DecidableEq α] (s : Finset α) (k : ℕ) where
  drawn : α → Finset α
  subset : ∀ c ∈ s, drawn c ⊆ s.erase c
  card : ∀ c ∈ s, (drawn c).card = min k (s.card - 1)

namespace Draws

variable {α : Type*} [DecidableEq α] {s : Finset α} {k : ℕ} (D : Draws s k)

/-- Those that one draws, and those that draw it. -/
def met (c : α) : Finset α := D.drawn c ∪ s.filter (c ∈ D.drawn ·)

/-- Whoever is drawn draws the one that did so. -/
def Mutual : Prop := ∀ c ∈ s, ∀ d ∈ s, d ∈ D.drawn c → c ∈ D.drawn d

variable {D} {c : α}

theorem met_subset (hc : c ∈ s) : D.met c ⊆ s.erase c := by
  refine Finset.union_subset (D.subset c hc) fun d hd => ?_
  obtain ⟨hd, hcd⟩ := Finset.mem_filter.mp hd
  exact Finset.mem_erase.mpr ⟨(Finset.ne_of_mem_erase (D.subset d hd hcd)).symm, hd⟩

/-- **Each meets as many as it draws**, or more. -/
theorem min_le_card_met (hc : c ∈ s) : min k (s.card - 1) ≤ (D.met c).card := by
  rw [← D.card c hc]
  exact Finset.card_le_card Finset.subset_union_left

theorem card_met_le (hc : c ∈ s) : (D.met c).card ≤ s.card - 1 := by
  rw [← Finset.card_erase_of_mem hc]
  exact Finset.card_le_card (met_subset hc)

/-- **Nobody meets more than `k`** exactly where all draws are mutual. -/
theorem card_met_le_iff : (∀ c ∈ s, (D.met c).card ≤ k) ↔ D.Mutual := by
  constructor
  · intro hle c hc d hd hdrawn
    have hall : D.drawn d = D.met d := by
      refine Finset.eq_of_subset_of_card_le Finset.subset_union_left ?_
      rw [D.card d hd]
      exact le_min (hle d hd) (card_met_le hd)
    rw [hall]
    exact Finset.mem_union_right _ (Finset.mem_filter.mpr ⟨hc, hdrawn⟩)
  · intro hmutual c hc
    have hsub : D.met c ⊆ D.drawn c := by
      refine Finset.union_subset (Finset.Subset.refl _) fun d hd => ?_
      obtain ⟨hd, hdrawn⟩ := Finset.mem_filter.mp hd
      exact hmutual d hd c hc hdrawn
    calc (D.met c).card ≤ (D.drawn c).card := Finset.card_le_card hsub
      _ = min k (s.card - 1) := D.card c hc
      _ ≤ k := min_le_left k _

end Draws

end Selfevals.Lib.OpponentDraws
