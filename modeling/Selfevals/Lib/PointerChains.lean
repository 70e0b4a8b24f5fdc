import Mathlib.Logic.Function.Basic

/-!
# Chains of pointers

Each node points at one other or at none; `Reaches` follows the pointers. A new pointer from one
node to another leaves every chain with an end if and only if the old chain of its target does not
come back.
-/

namespace Selfevals.Lib.PointerChains

variable {κ : Type*} {next : κ → Option κ} {a b c : κ}

/-- The chain from a node passes another. -/
inductive Reaches (next : κ → Option κ) : κ → κ → Prop
  | here (a : κ) : Reaches next a a
  | step {a b c : κ} (h : next a = some b) (rest : Reaches next b c) : Reaches next a c

/-- The chain from a node ends. -/
def Ends (next : κ → Option κ) (a : κ) : Prop := ∃ e, Reaches next a e ∧ next e = none

theorem Reaches.snoc (h : Reaches next a b) (hb : next b = some c) : Reaches next a c := by
  induction h with
  | here a => exact .step hb (.here c)
  | step hab _ ih => exact .step hab (ih hb)

theorem Reaches.eq_of_none (h : Reaches next a b) (ha : next a = none) : b = a := by
  cases h with
  | here => rfl
  | step hac _ => rw [ha] at hac; cases hac

theorem ends_of_none (h : next a = none) : Ends next a := ⟨a, .here a, h⟩

theorem Ends.of_next (h : next a = some b) (hb : Ends next b) : Ends next a := by
  obtain ⟨e, hreach, hnone⟩ := hb
  exact ⟨e, .step h hreach, hnone⟩

theorem Ends.of_reaches (h : Reaches next a b) (hb : Ends next b) : Ends next a := by
  induction h with
  | here a => exact hb
  | step hab _ ih => exact (ih hb).of_next hab

/-- **A chain that ends does not come back.** -/
theorem not_reaches_of_ends (h : Ends next a) (hab : next a = some b) : ¬Reaches next b a := by
  obtain ⟨e, hreach, hnone⟩ := h
  induction hreach generalizing b with
  | here a => rw [hnone] at hab; cases hab
  | step hac _ ih =>
    obtain rfl := Option.some.inj (hac.symm.trans hab)
    intro hback
    cases hback with
    | here => exact ih hab hnone (.here _)
    | step hbd hrest => exact ih hbd hnone (hrest.snoc hab)

section Link
variable [DecidableEq κ] {src dst : κ}

/-- The pointers with a new one. -/
def link (next : κ → Option κ) (src dst : κ) : κ → Option κ := Function.update next src (some dst)

theorem Reaches.link_source (h : Reaches next a src) : Reaches (link next src dst) a src := by
  induction h with
  | here a => exact .here a
  | @step a b src hab _ ih =>
    by_cases ha : a = src
    · subst ha
      exact .here a
    · exact .step (by rw [link, Function.update_of_ne ha, hab]) ih

theorem Reaches.link_of_not (h : Reaches next a b) (hnot : ¬Reaches next a src) :
    Reaches (link next src dst) a b := by
  induction h with
  | here a => exact .here a
  | @step a b c hab _ ih =>
    have ha : a ≠ src := fun heq => hnot (heq ▸ .here a)
    exact .step (by rw [link, Function.update_of_ne ha, hab]) (ih fun hb => hnot (.step hab hb))

/-- **A new pointer leaves every chain with an end** if and only if its target does not lead back.
-/
theorem ends_link_iff (h : ∀ a, Ends next a) :
    (∀ a, Ends (link next src dst) a) ↔ ¬Reaches next dst src := by
  constructor
  · intro hends hback
    exact not_reaches_of_ends (hends src) (Function.update_self ..) hback.link_source
  · intro hnot
    have hfar : ∀ a, ¬Reaches next a src → Ends (link next src dst) a := by
      intro a ha
      obtain ⟨e, hreach, hnone⟩ := h a
      have he : e ≠ src := fun heq => ha (heq ▸ hreach)
      exact ⟨e, hreach.link_of_not ha, by rw [link, Function.update_of_ne he, hnone]⟩
    intro a
    by_cases ha : Reaches next a src
    · exact ((hfar dst hnot).of_next (Function.update_self ..)).of_reaches ha.link_source
    · exact hfar a ha

end Link

end Selfevals.Lib.PointerChains
