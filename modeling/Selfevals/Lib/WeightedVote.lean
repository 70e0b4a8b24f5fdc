import Mathlib.Data.List.MinMax
import Mathlib.Data.Prod.Lex
import Selfevals.Lib.Mapping

/-!
# Weighted votes

A ballot is a choice and the weight it carries. `Winner` is the choice with the most weight behind
it, and of those with as much the one of least rank. A search for the greatest total finds it among
the choices with any weight behind them, so it finds one exactly where some ballot has weight.

* `argmax_eq_none_iff`: nothing is found if no ballot has weight.
-/

namespace Selfevals.Lib.WeightedVote

open Lib.Mapping

variable {β α : Type} [DecidableEq β] [AddCommMonoid α] [LinearOrder α] [IsOrderedAddMonoid α]

omit [LinearOrder α] [IsOrderedAddMonoid α] in
/-- The weight behind a choice. -/
def behind (c : β) (ballots : List (β × α)) : α := (Dict.under c ballots).sum

omit [LinearOrder α] [IsOrderedAddMonoid α] in
theorem getD_tally (ballots : List (β × α)) (c : β) :
    ((Dict.tally ballots).get? c).getD 0 = behind c ballots := by
  rw [Dict.get?_tally, behind]
  split_ifs with hnil
  · rw [hnil]
    rfl
  · rfl

/-- No other choice has more weight behind it, and none with as much has a lesser rank. -/
structure Winner (rank : β → ℕ) (ballots : List (β × α)) (b : β) : Prop where
  mem : b ∈ ballots.map Prod.fst
  heaviest : ∀ c ∈ ballots.map Prod.fst, behind c ballots ≤ behind b ballots
  tied : ∀ c ∈ ballots.map Prod.fst, behind c ballots = behind b ballots → rank b ≤ rank c

section Weights
variable {ballots : List (β × α)} (hnonneg : ∀ v ∈ ballots, 0 ≤ v.2)
include hnonneg

omit [IsOrderedAddMonoid α] in
theorem under_nonneg (c : β) : ∀ w ∈ Dict.under c ballots, 0 ≤ w := by
  intro w hw
  obtain ⟨v, hv, rfl⟩ := List.mem_map.mp hw
  exact hnonneg v (List.mem_of_mem_filter hv)

theorem behind_nonneg (c : β) : 0 ≤ behind c ballots := List.sum_nonneg (under_nonneg hnonneg c)

theorem behind_eq_zero_iff (c : β) :
    behind c ballots = 0 ↔ ∀ v ∈ ballots, v.1 = c → v.2 = 0 := by
  have hmem : ∀ w, w ∈ Dict.under c ballots ↔ ∃ v ∈ ballots, v.1 = c ∧ v.2 = w := by
    intro w
    simp [Dict.under]
  constructor
  · intro h v hv hvc
    exact List.all_zero_of_le_zero_le_of_sum_eq_zero (under_nonneg hnonneg c) h
      ((hmem v.2).mpr ⟨v, hv, hvc, rfl⟩)
  · intro h
    refine List.sum_eq_zero fun w hw => ?_
    obtain ⟨v, hv, hvc, rfl⟩ := (hmem w).mp hw
    exact h v hv hvc

section Search
variable {candidates : List β} (hcandidates : ∀ v ∈ ballots, v.1 ∈ candidates) (rank : β → ℕ)
include hcandidates

/-- **The greatest total with the least rank is the winner's.** -/
theorem winner_of_mem_argmax {b : β}
    (h : b ∈ (candidates.filter fun c => behind c ballots ≠ 0).argmax fun c =>
      toLex (behind c ballots, OrderDual.toDual (rank c))) : Winner rank ballots b := by
  have hne : behind b ballots ≠ 0 := by simpa using List.of_mem_filter (List.argmax_mem h)
  have hle : ∀ c ∈ ballots.map Prod.fst, behind c ballots ≠ 0 →
      toLex (behind c ballots, OrderDual.toDual (rank c)) ≤
        toLex (behind b ballots, OrderDual.toDual (rank b)) := by
    intro c hc hzero
    obtain ⟨v, hv, rfl⟩ := List.mem_map.mp hc
    have hmem : v.1 ∈ candidates.filter fun c => behind c ballots ≠ 0 :=
      List.mem_filter.mpr ⟨hcandidates v hv, by simpa using hzero⟩
    exact List.le_of_mem_argmax (f := fun c =>
      toLex (behind c ballots, OrderDual.toDual (rank c))) hmem h
  constructor
  · by_contra hnot
    refine hne ((behind_eq_zero_iff hnonneg b).mpr fun v hv hvb => ?_)
    exact absurd (List.mem_map.mpr ⟨v, hv, hvb⟩) hnot
  · intro c hc
    by_cases hzero : behind c ballots = 0
    · rw [hzero]
      exact behind_nonneg hnonneg b
    · obtain hlt | ⟨heq, -⟩ := Prod.Lex.toLex_le_toLex.mp (hle c hc hzero)
      · exact hlt.le
      · exact heq.le
  · intro c hc heq
    obtain hlt | ⟨-, hrank⟩ := Prod.Lex.toLex_le_toLex.mp (hle c hc (heq ▸ hne))
    · exact absurd heq hlt.ne
    · simpa using hrank

theorem argmax_eq_none_iff {γ : Type} [Preorder γ] [DecidableLT γ] (key : β → γ) :
    (candidates.filter fun c => behind c ballots ≠ 0).argmax key = none ↔ ∀ v ∈ ballots,
      v.2 = 0 := by
  rw [List.argmax_eq_none, List.filter_eq_nil_iff]
  constructor
  · intro h v hv
    have hzero : behind v.1 ballots = 0 := by simpa using h v.1 (hcandidates v hv)
    exact (behind_eq_zero_iff hnonneg v.1).mp hzero v hv rfl
  · intro h c _
    have hzero := (behind_eq_zero_iff hnonneg c).mpr fun v hv _ => h v hv
    simp [hzero]

end Search
end Weights

end Selfevals.Lib.WeightedVote
