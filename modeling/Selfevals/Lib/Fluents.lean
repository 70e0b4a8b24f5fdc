import Selfevals.Lib.Run

/-!
# What steps set and reset

A property of states is governed by two conditions on steps: `sets`, after which it holds, and
`resets`, after which it does not hold if the step does not set it. A step that meets neither leaves
it as it was.
-/

namespace Selfevals.Lib.Fluents

open Lib.Run

variable {σ α : Type*} (step : σ → α → Option σ)

/-- The property `P` is governed by `sets` and `resets`, under an invariant `J`. -/
structure Governed (J P : σ → Prop) (sets resets : σ → α → Prop) : Prop where
  keeps : ∀ s a s', J s → step s a = some s' → J s'
  step_iff : ∀ s a s', J s → step s a = some s' → (P s' ↔ sets s a ∨ P s ∧ ¬resets s a)

/-- No step of a run resets. -/
def Untouched (resets : σ → α → Prop) : σ → List α → Prop := Guarded step fun s a => ¬resets s a

/-- Some step of a run sets, and none after it resets. -/
def LastSet (sets resets : σ → α → Prop) (s : σ) (as : List α) : Prop :=
  ∃ pre a post t t', as = pre ++ a :: post ∧ exec step s pre = some t ∧ step t a = some t' ∧
    sets t a ∧ Untouched step resets t' post

variable {step} {J P : σ → Prop} {sets resets : σ → α → Prop}

theorem lastSet_nil (s : σ) : ¬LastSet step sets resets s [] := by
  rintro ⟨pre, a, post, t, t', heq, -⟩
  exact absurd heq (by simp)

theorem lastSet_cons {s s' : σ} {a : α} (hs : step s a = some s') (as : List α) :
    LastSet step sets resets s (a :: as) ↔
      sets s a ∧ Untouched step resets s' as ∨ LastSet step sets resets s' as := by
  constructor
  · rintro ⟨pre, b, post, t, t', heq, ht, ht', hsets, hrest⟩
    cases pre with
    | nil =>
      obtain ⟨rfl, rfl⟩ := List.cons.inj heq
      cases ht
      cases hs.symm.trans ht'
      exact .inl ⟨hsets, hrest⟩
    | cons c pre =>
      obtain ⟨rfl, rfl⟩ := List.cons.inj heq
      obtain ⟨u, hu, ht⟩ := exec_cons_eq_some.mp ht
      cases hs.symm.trans hu
      exact .inr ⟨pre, b, post, t, t', rfl, ht, ht', hsets, hrest⟩
  · rintro (⟨hsets, hrest⟩ | ⟨pre, b, post, t, t', rfl, ht, ht', hsets, hrest⟩)
    · exact ⟨[], a, as, s, s', rfl, rfl, hs, hsets, hrest⟩
    · exact ⟨a :: pre, b, post, t, t', rfl, exec_cons_eq_some.mpr ⟨s', hs, ht⟩, ht', hsets, hrest⟩

theorem untouched_cons {s s' : σ} {a : α} (hs : step s a = some s') (as : List α) :
    Untouched step resets s (a :: as) ↔ ¬resets s a ∧ Untouched step resets s' as := by
  constructor
  · rintro ⟨ha, hrest⟩
    exact ⟨ha, hrest s' hs⟩
  · rintro ⟨ha, hrest⟩
    refine ⟨ha, fun t ht => ?_⟩
    cases hs.symm.trans ht
    exact hrest

/-- **A governed property after a run** is what the history says: it held and was never reset, or it
was set and has not been reset since. -/
theorem Governed.holds_iff_history (h : Governed step J P sets resets) {as : List α} :
    ∀ {s s' : σ}, J s → exec step s as = some s' →
      (P s' ↔ P s ∧ Untouched step resets s as ∨ LastSet step sets resets s as) := by
  induction as with
  | nil =>
    intro s s' _ hs
    cases hs
    exact ⟨fun hP => .inl ⟨hP, trivial⟩, fun hP => hP.elim And.left fun hset =>
      (lastSet_nil s hset).elim⟩
  | cons a as ih =>
    intro s s' hJ hs
    obtain ⟨u, hu, hrest⟩ := exec_cons_eq_some.mp hs
    rw [ih (h.keeps s a u hJ hu) hrest, h.step_iff s a u hJ hu, lastSet_cons hu,
      untouched_cons hu, or_and_right, or_assoc, and_assoc, or_left_comm]

end Selfevals.Lib.Fluents
