import Mathlib.Algebra.BigOperators.Group.List.Basic
import Mathlib.Algebra.Ring.Nat
import Mathlib.Data.List.Basic

/-!
# Interleavings of several traces

`Interleaved traces w` says that `w` takes the events of the traces in their order, in any order
between the traces. One after the other is such an order (`interleaved_flatten`), what has happened
at a moment is an interleaving of what has happened in each trace (`Interleaved.of_prefix`), and
counts add up over the traces (`Interleaved.countP`).
-/

namespace Selfevals.Lib.Interleaving

variable {α : Type*}

/-- The list is an interleaving of the lists. -/
inductive Interleaved : List (List α) → List α → Prop
  | done {traces : List (List α)} (h : ∀ trace ∈ traces, trace = []) : Interleaved traces []
  | next {before after : List (List α)} {a : α} {trace w : List α}
      (h : Interleaved (before ++ trace :: after) w) :
      Interleaved (before ++ (a :: trace) :: after) (a :: w)

variable {traces : List (List α)} {w : List α}

theorem Interleaved.cons_nil (h : Interleaved traces w) : Interleaved ([] :: traces) w := by
  induction h with
  | done h => exact .done (by simpa using h)
  | next _ ih => exact @Interleaved.next α ([] :: _) _ _ _ _ ih

theorem Interleaved.cons (trace : List α) (h : Interleaved traces w) :
    Interleaved (trace :: traces) (trace ++ w) := by
  induction trace with
  | nil => exact h.cons_nil
  | cons a trace ih => exact @Interleaved.next α [] _ _ _ _ ih

theorem interleaved_flatten (traces : List (List α)) : Interleaved traces traces.flatten := by
  induction traces with
  | nil => exact .done (by simp)
  | cons trace traces ih => exact ih.cons trace

/-- **Counts add up** over the traces. -/
theorem Interleaved.countP (h : Interleaved traces w) (p : α → Bool) :
    w.countP p = (traces.map (List.countP p)).sum := by
  induction h with
  | @done traces h =>
    have hzero : traces.map (List.countP p) = traces.map fun _ => 0 :=
      List.map_congr_left fun trace htrace => by rw [h trace htrace, List.countP_nil]
    simp [hzero]
  | next _ ih =>
    rw [List.countP_cons, ih]
    simp only [List.map_append, List.map_cons, List.sum_append, List.sum_cons, List.countP_cons]
    omega

theorem exists_mem_of_forall₂ {β : Type*} {R : α → β → Prop} {as : List α} {bs : List β}
    (h : List.Forall₂ R as bs) {a : α} (ha : a ∈ as) : ∃ b ∈ bs, R a b := by
  induction h with
  | nil => cases ha
  | cons hr _ ih =>
    rcases List.mem_cons.mp ha with rfl | ha
    · exact ⟨_, List.mem_cons_self, hr⟩
    · obtain ⟨b, hb, hab⟩ := ih ha
      exact ⟨b, List.mem_cons_of_mem _ hb, hab⟩

/-- **What has happened at a moment** is an interleaving of what has happened in each trace. -/
theorem Interleaved.of_prefix (h : Interleaved traces w) {u : List α} (hu : u <+: w) :
    ∃ traces', List.Forall₂ (· <+: ·) traces' traces ∧ Interleaved traces' u := by
  induction h generalizing u with
  | @done traces h =>
    obtain rfl := List.prefix_nil.mp hu
    exact ⟨traces, List.forall₂_same.mpr fun _ _ => List.prefix_rfl, .done h⟩
  | @next before after a trace w h ih =>
    rcases u with _ | ⟨b, u⟩
    · refine ⟨(before ++ (a :: trace) :: after).map fun _ => [], ?_, .done fun t ht => ?_⟩
      · exact List.forall₂_map_left_iff.mpr (List.forall₂_same.mpr fun _ _ => List.nil_prefix)
      · obtain ⟨_, -, rfl⟩ := List.mem_map.mp ht
        rfl
    · obtain ⟨rfl, hrest⟩ := List.cons_prefix_cons.mp hu
      obtain ⟨traces', hprefix, hinter⟩ := ih hrest
      have hbefore := List.forall₂_take_append traces' before (trace :: after) hprefix
      obtain ⟨trace', after', htrace, hafter, hdrop⟩ := List.forall₂_cons_right_iff.mp
        (List.forall₂_drop_append traces' before (trace :: after) hprefix)
      refine ⟨traces'.take before.length ++ (b :: trace') :: after', ?_, .next ?_⟩
      · exact List.rel_append hbefore (.cons (List.cons_prefix_cons.mpr ⟨rfl, htrace⟩) hafter)
      · rwa [← hdrop, List.take_append_drop]

end Selfevals.Lib.Interleaving
