import Mathlib.Tactic

/-!
# Runs of a partial step function

A system is a partial function `step : σ → α → Option σ`: every choice the environment makes (which
process moves, what the clock reads, what an agent answers) is in the label, so a run is a list of
labels. `exec` takes the labels in order, `Guarded G` says that every label taken meets a condition
`G` in the state it is taken from.

* `exec_append`, `exec_snoc`: runs compose.
-/

namespace Selfevals.Lib.Run

variable {σ α : Type*} (step : σ → α → Option σ)

/-- The state after the labels, if every one of them can be taken. -/
def exec (s : σ) : List α → Option σ
  | [] => some s
  | a :: as => (step s a).bind fun s' => exec s' as

/-- Every label taken along the run meets `G` in the state it is taken from. -/
def Guarded (G : σ → α → Prop) (s : σ) : List α → Prop
  | [] => True
  | a :: as => G s a ∧ ∀ s', step s a = some s' → Guarded G s' as

instance Guarded.decidable {step : σ → α → Option σ} {G : σ → α → Prop}
    [∀ s a, Decidable (G s a)] : ∀ (s : σ) (as : List α), Decidable (Guarded step G s as)
  | _, [] => isTrue trivial
  | s, a :: as =>
    match h : step s a with
    | none => decidable_of_iff (G s a) ⟨fun hg => ⟨hg, by simp [h]⟩, And.left⟩
    | some s' =>
      have : Decidable (Guarded step G s' as) := Guarded.decidable s' as
      decidable_of_iff (G s a ∧ Guarded step G s' as) (by simp [Guarded, h])

/-- Some run from `s₀` ends in `s`. -/
def Reachable (s₀ s : σ) : Prop := ∃ as, exec step s₀ as = some s

variable {step}

@[simp] theorem exec_nil (s : σ) : exec step s [] = some s := rfl

theorem exec_cons (s : σ) (a : α) (as : List α) :
    exec step s (a :: as) = (step s a).bind fun s' => exec step s' as := rfl

theorem exec_cons_eq_some {s s'' : σ} {a : α} {as : List α} :
    exec step s (a :: as) = some s'' ↔ ∃ s', step s a = some s' ∧ exec step s' as = some s'' := by
  rw [exec_cons, Option.bind_eq_some_iff]

theorem exec_append (s : σ) (as bs : List α) :
    exec step s (as ++ bs) = (exec step s as).bind fun s' => exec step s' bs := by
  induction as generalizing s with
  | nil => rfl
  | cons a as ih =>
    rw [List.cons_append, exec_cons, exec_cons, Option.bind_assoc]
    exact congrArg _ (funext fun s' => ih s')

theorem exec_append_of {s t : σ} {as : List α} (h : exec step s as = some t) (bs : List α) :
    exec step s (as ++ bs) = exec step t bs := by
  rw [exec_append, h]; rfl

theorem exec_snoc {s t : σ} {as : List α} (h : exec step s as = some t) (a : α) :
    exec step s (as ++ [a]) = step t a := by
  rw [exec_append_of h, exec_cons]
  cases step t a <;> rfl

/-! ### What one step preserves, a run preserves -/

section Invariant
variable {I : σ → Prop} {G : σ → α → Prop}

/-- **The invariant rule**, for runs whose steps all meet a condition. -/
theorem inv_of_guarded (hstep : ∀ s a s', I s → G s a → step s a = some s' → I s') :
    ∀ {as : List α} {s s' : σ}, I s → Guarded step G s as → exec step s as = some s' → I s'
  | [], s, s', hI, _, hs => by cases hs; exact hI
  | a :: as, s, s', hI, hG, hs => by
    obtain ⟨t, ht, hrest⟩ := exec_cons_eq_some.mp hs
    exact inv_of_guarded hstep (hstep s a t hI hG.1 ht) (hG.2 t ht) hrest

theorem inv_of_exec (hstep : ∀ s a s', I s → step s a = some s' → I s') {as : List α} {s s' : σ}
    (hI : I s) (hs : exec step s as = some s') : I s' := by
  induction as generalizing s with
  | nil => cases hs; exact hI
  | cons a as ih =>
    obtain ⟨t, ht, hrest⟩ := exec_cons_eq_some.mp hs
    exact ih (hstep s a t hI ht) hrest

theorem inv_of_reachable (hstep : ∀ s a s', I s → step s a = some s' → I s') {s s' : σ}
    (hI : I s) (hs : Reachable step s s') : I s' := by
  obtain ⟨as, has⟩ := hs
  exact inv_of_exec hstep hI has

/-- **The two-state rule**: a relation respected by every guarded step, under an invariant, holds
between the ends of a guarded run. -/
theorem rel_of_guarded {R : σ → σ → Prop} (hrefl : ∀ s, R s s)
    (htrans : ∀ s t u, R s t → R t u → R s u)
    (hstep : ∀ s a s', I s → G s a → step s a = some s' → I s' ∧ R s s') :
    ∀ {as : List α} {s s' : σ}, I s → Guarded step G s as → exec step s as = some s' → R s s'
  | [], s, s', _, _, hs => by cases hs; exact hrefl s
  | a :: as, s, s', hI, hG, hs => by
    obtain ⟨t, ht, hrest⟩ := exec_cons_eq_some.mp hs
    obtain ⟨hIt, hRt⟩ := hstep s a t hI hG.1 ht
    exact htrans _ _ _ hRt (rel_of_guarded hrefl htrans hstep hIt (hG.2 t ht) hrest)

end Invariant

/-! ### What a run adds up to -/

section Tally
variable (step) (f : σ → α → ℕ)

/-- The sum of `f` over the labels taken, each in the state it is taken from. -/
def tally (s : σ) : List α → ℕ
  | [] => 0
  | a :: as => f s a + ((step s a).map fun s' => tally s' as).getD 0

variable {step f}

theorem tally_cons {s s' : σ} {a : α} (h : step s a = some s') (as : List α) :
    tally step f s (a :: as) = f s a + tally step f s' as := by
  simp only [tally, h, Option.map_some, Option.getD_some]

/-- **The invariant rule with a count**: what each step keeps of the count and the state, while it
adds its own to the count, a run keeps. -/
theorem inv_of_tally {I : ℕ → σ → Prop} {G : σ → α → Prop}
    (hstep : ∀ n s a s', I n s → G s a → step s a = some s' → I (n + f s a) s') {as : List α} :
    ∀ {n : ℕ} {s s' : σ}, I n s → Guarded step G s as → exec step s as = some s' →
      I (n + tally step f s as) s' := by
  induction as with
  | nil => intro n s s' hI _ hs; cases hs; exact hI
  | cons a as ih =>
    intro n s s' hI hG hs
    obtain ⟨t, ht, hrest⟩ := exec_cons_eq_some.mp hs
    have hrun := ih (hstep n s a t hI hG.1 ht) (hG.2 t ht) hrest
    rwa [Nat.add_assoc, ← tally_cons ht] at hrun

end Tally

/-! ### Guarded runs -/

theorem guarded_true : ∀ (as : List α) (s : σ), Guarded step (fun _ _ => True) s as
  | [], _ => trivial
  | _ :: as, _ => ⟨trivial, fun s' _ => guarded_true as s'⟩

theorem Guarded.mono {G H : σ → α → Prop} (h : ∀ s a, G s a → H s a) :
    ∀ {as : List α} {s : σ}, Guarded step G s as → Guarded step H s as
  | [], _, _ => trivial
  | _ :: _, s, hG => ⟨h s _ hG.1, fun s' hs' => Guarded.mono h (hG.2 s' hs')⟩

theorem guarded_and {G H : σ → α → Prop} :
    ∀ {as : List α} {s : σ}, Guarded step G s as → Guarded step H s as →
      Guarded step (fun s a => G s a ∧ H s a) s as
  | [], _, _, _ => trivial
  | _ :: _, _, hG, hH => ⟨⟨hG.1, hH.1⟩, fun s' hs' => guarded_and (hG.2 s' hs') (hH.2 s' hs')⟩

theorem guarded_congr {I : σ → Prop} {G H : σ → α → Prop} (hiff : ∀ s a, I s → (G s a ↔ H s a))
    (hstep : ∀ s a s', I s → H s a → step s a = some s' → I s') :
    ∀ {as : List α} {s : σ}, I s → (Guarded step G s as ↔ Guarded step H s as)
  | [], _, _ => Iff.rfl
  | a :: _, s, hI => by
    constructor
    · rintro ⟨hG, hrest⟩
      have hH := (hiff s a hI).mp hG
      exact ⟨hH, fun s' hs' =>
        (guarded_congr hiff hstep (hstep s a s' hI hH hs')).mp (hrest s' hs')⟩
    · rintro ⟨hH, hrest⟩
      exact ⟨(hiff s a hI).mpr hH, fun s' hs' =>
        (guarded_congr hiff hstep (hstep s a s' hI hH hs')).mpr (hrest s' hs')⟩

theorem guarded_append {G : σ → α → Prop} {s t : σ} {as bs : List α}
    (hG : Guarded step G s (as ++ bs)) (ht : exec step s as = some t) :
    Guarded step G s as ∧ Guarded step G t bs := by
  induction as generalizing s with
  | nil => cases ht; exact ⟨trivial, hG⟩
  | cons a as ih =>
    obtain ⟨u, hu, hrest⟩ := exec_cons_eq_some.mp ht
    refine ⟨⟨hG.1, fun s' hs' => ?_⟩, (ih (hG.2 u hu) hrest).2⟩
    cases hu.symm.trans hs'
    exact (ih (hG.2 u hu) hrest).1

/-- **A run is guarded if and only if every label of it is**, in the state before it. -/
theorem guarded_iff {G : σ → α → Prop} {s : σ} {as : List α} :
    Guarded step G s as ↔
      ∀ pre a post t, as = pre ++ a :: post → exec step s pre = some t → G t a := by
  constructor
  · rintro h pre a post t rfl ht
    exact (guarded_append h ht).2.1
  · induction as generalizing s with
    | nil => exact fun _ => trivial
    | cons a as ih =>
      intro h
      refine ⟨h [] a as s rfl rfl, fun s' hs' => ih fun pre b post t has ht => ?_⟩
      refine h (a :: pre) b post t (by rw [has, List.cons_append]) ?_
      rw [exec_cons, hs']; exact ht

/-- **A property holds all along a run if and only if the run is guarded**, where a step from a
state with the property keeps it exactly when it meets the condition `G`. `J` is what every step
keeps, and `H` what the runs are held to. -/
theorem holds_iff_guarded {I J : σ → Prop} {G H : σ → α → Prop}
    (hJ : ∀ s a s', J s → H s a → step s a = some s' → J s')
    (hiff : ∀ s a s', J s → I s → H s a → step s a = some s' → (I s' ↔ G s a)) {as : List α} :
    ∀ {s s' : σ}, J s → I s → Guarded step H s as → exec step s as = some s' →
      ((∀ pre post t, as = pre ++ post → exec step s pre = some t → I t) ↔
        Guarded step G s as) := by
  induction as with
  | nil =>
    intro s s' _ hI _ _
    refine iff_of_true (fun pre post t hsplit ht => ?_) trivial
    obtain rfl := (List.append_eq_nil_iff.mp hsplit.symm).1
    cases ht
    exact hI
  | cons a as ih =>
    rintro s s' hJs hI ⟨hH, hHrest⟩ hs
    obtain ⟨u, hu, hrest⟩ := exec_cons_eq_some.mp hs
    have hone : exec step s [a] = some u := by rw [exec_cons, hu]; rfl
    have hJu := hJ s a u hJs hH hu
    constructor
    · intro h
      have hIu : I u := h [a] as u rfl hone
      refine ⟨(hiff s a u hJs hI hH hu).mp hIu, fun v hv => ?_⟩
      cases hu.symm.trans hv
      refine (ih hJu hIu (hHrest u hu) hrest).mp fun pre post t hsplit ht => ?_
      refine h (a :: pre) post t (by rw [hsplit, List.cons_append]) ?_
      rw [exec_cons, hu]
      exact ht
    · rintro ⟨hG, hguarded⟩ pre post t hsplit ht
      have hIu : I u := (hiff s a u hJs hI hH hu).mpr hG
      cases pre with
      | nil => cases ht; exact hI
      | cons b pre =>
        obtain ⟨rfl, htail⟩ := List.cons.inj hsplit
        obtain ⟨v, hv, ht⟩ := exec_cons_eq_some.mp ht
        cases hu.symm.trans hv
        exact (ih hJu hIu (hHrest u hu) hrest).mpr (hguarded u hu) pre post t htail ht

/-- **All steps of a run do what they should if and only if the run is guarded**, where a step from
a state with the invariant `J` does so exactly when it meets the condition `G`, and then keeps `J`.
-/
theorem steps_iff_guarded {J : σ → Prop} {P : σ → α → σ → Prop} {G H : σ → α → Prop}
    (hstep : ∀ s a s', J s → H s a → step s a = some s' → (P s a s' ↔ G s a) ∧ (G s a → J s'))
    {as : List α} :
    ∀ {s t : σ}, J s → Guarded step H s as → exec step s as = some t →
      ((∀ pre a post u u', as = pre ++ a :: post → exec step s pre = some u → step u a = some u' →
        P u a u') ↔ Guarded step G s as) := by
  induction as with
  | nil =>
    intro s t _ _ _
    refine iff_of_true (fun pre a post u u' hsplit => ?_) trivial
    exact absurd hsplit.symm (by simp)
  | cons a as ih =>
    rintro s t hJs ⟨hH, hHrest⟩ hs
    obtain ⟨u, hu, hrest⟩ := exec_cons_eq_some.mp hs
    obtain ⟨hiff, hkeep⟩ := hstep s a u hJs hH hu
    constructor
    · intro h
      have hG : G s a := hiff.mp (h [] a as s u rfl rfl hu)
      refine ⟨hG, fun v hv => ?_⟩
      cases hu.symm.trans hv
      refine (ih (hkeep hG) (hHrest u hu) hrest).mp fun pre b post w w' hsplit hw hw' => ?_
      refine h (a :: pre) b post w w' (by rw [hsplit, List.cons_append]) ?_ hw'
      rw [exec_cons, hu]
      exact hw
    · rintro ⟨hG, hguarded⟩ pre b post w w' hsplit hw hw'
      cases pre with
      | nil =>
        obtain ⟨rfl, rfl⟩ := List.cons.inj hsplit
        cases hw
        cases hu.symm.trans hw'
        exact hiff.mpr hG
      | cons c pre =>
        obtain ⟨rfl, htail⟩ := List.cons.inj hsplit
        obtain ⟨v, hv, hw⟩ := exec_cons_eq_some.mp hw
        cases hu.symm.trans hv
        exact (ih (hkeep hG) (hHrest u hu) hrest).mpr (hguarded u hu) pre b post w w' htail hw hw'

end Selfevals.Lib.Run
