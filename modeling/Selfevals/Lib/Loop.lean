import Mathlib.Tactic

/-!
# Loops that run until nothing is done

`while body(): pass`, for a body that says how much it did. `fuel` bounds the number of rounds, and
`none` is a loop that has not ended within it.
-/

namespace Selfevals.Lib.Loop

variable {σ : Type*} (body : σ → σ × ℕ)

/-- The state after the first round that did nothing. -/
def whileSome : ℕ → σ → Option σ
  | 0, _ => none
  | fuel + 1, s =>
    match body s with
    | (s', 0) => some s'
    | (s', _ + 1) => whileSome fuel s'

variable {body}

/-- **Termination by a measure**, under an invariant of the rounds. -/
theorem whileSome_of_measure {I : σ → Prop} {μ : σ → ℕ}
    (hround : ∀ s, I s → I (body s).1 ∧ ((body s).2 ≠ 0 → μ (body s).1 < μ s)) {fuel : ℕ} :
    ∀ {s : σ}, I s → μ s < fuel →
      ∃ t, I t ∧ (body t).2 = 0 ∧ whileSome body fuel s = some (body t).1 := by
  induction fuel with
  | zero => exact fun _ hlt => absurd hlt (Nat.not_lt_zero _)
  | succ fuel ih =>
    intro s hI hlt
    obtain ⟨hI', hless⟩ := hround s hI
    rw [whileSome]
    split
    · next s' hbody => exact ⟨s, hI, by rw [hbody], by rw [hbody]⟩
    · next s' n hbody =>
      rw [hbody] at hI' hless
      refine ih hI' ?_
      have hlow : μ s' < μ s := hless (Nat.succ_ne_zero n)
      omega

end Selfevals.Lib.Loop
