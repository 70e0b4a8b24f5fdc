import Mathlib.Tactic

/-!
# Computations that may fail

Rules for `Except`: what a chain of steps that succeeded went through, and when a loop succeeds.
-/

namespace Selfevals.Lib.Result

variable {ε α β : Type}

theorem bind_eq_ok {x : Except ε α} {f : α → Except ε β} {b : β} :
    x >>= f = .ok b ↔ ∃ a, x = .ok a ∧ f a = .ok b := by
  cases x with
  | error e => exact ⟨fun h => (nomatch h), fun ⟨_, h, _⟩ => (nomatch h)⟩
  | ok a => exact ⟨fun h => ⟨a, rfl, h⟩, fun ⟨_, ha, h⟩ => by cases ha; exact h⟩

theorem exists_bind_ok {x : Except ε α} {f : α → Except ε β} :
    (∃ b, x >>= f = .ok b) ↔ ∃ a, x = .ok a ∧ ∃ b, f a = .ok b := by
  simp only [bind_eq_ok]
  exact ⟨fun ⟨b, a, ha, hb⟩ => ⟨a, ha, b, hb⟩, fun ⟨a, ha, b, hb⟩ => ⟨b, a, ha, hb⟩⟩

theorem map_eq_ok {x : Except ε α} {f : α → β} {b : β} :
    x.map f = .ok b ↔ ∃ a, x = .ok a ∧ f a = b := by
  cases x with
  | error e => exact ⟨fun h => (nomatch h), fun ⟨_, h, _⟩ => (nomatch h)⟩
  | ok a =>
    exact ⟨fun h => ⟨a, rfl, Except.ok.inj h⟩, fun ⟨_, ha, h⟩ => by cases ha; exact congrArg _ h⟩

theorem mapError_eq_ok {ε' : Type} {x : Except ε α} {f : ε → ε'} {a : α} :
    x.mapError f = .ok a ↔ x = .ok a := by
  cases x with
  | error e => exact ⟨fun h => (nomatch h), fun h => (nomatch h)⟩
  | ok a' => exact ⟨fun h => congrArg _ (Except.ok.inj h), fun h => congrArg _ (Except.ok.inj h)⟩

theorem foldlM_of_inv {σ : Type} {I : σ → Prop} {f : σ → α → Except ε σ} {xs : List α}
    (hstep : ∀ x ∈ xs, ∀ s, I s → ∃ s', f s x = .ok s' ∧ I s') {s : σ} (hs : I s) :
    ∃ s', xs.foldlM f s = .ok s' ∧ I s' := by
  induction xs generalizing s with
  | nil => exact ⟨s, rfl, hs⟩
  | cons x xs ih =>
    obtain ⟨t, hx, ht⟩ := hstep x List.mem_cons_self s hs
    obtain ⟨s', hxs, hs'⟩ := ih (fun y hy => hstep y (List.mem_cons_of_mem x hy)) ht
    exact ⟨s', by rw [List.foldlM_cons, bind_eq_ok]; exact ⟨t, hx, hxs⟩, hs'⟩

theorem foldlM_prefix {σ : Type} {P : List α → σ → Prop} {f : σ → α → Except ε σ}
    (hstep : ∀ done x s s', P done s → f s x = .ok s' → P (done ++ [x]) s') {xs done : List α}
    {s s' : σ} (hs : P done s) (h : xs.foldlM f s = .ok s') : P (done ++ xs) s' := by
  induction xs generalizing done s with
  | nil =>
    cases h
    rwa [List.append_nil]
  | cons x xs ih =>
    rw [List.foldlM_cons, bind_eq_ok] at h
    obtain ⟨t, hx, hxs⟩ := h
    rw [← List.singleton_append, ← List.append_assoc]
    exact ih (hstep done x s t hs hx) hxs

theorem exists_foldlM_iff {σ : Type} {p : α → Prop} {f : σ → α → Except ε σ}
    (hstep : ∀ s x, (∃ s', f s x = .ok s') ↔ p x) {xs : List α} {s : σ} :
    (∃ s', xs.foldlM f s = .ok s') ↔ ∀ x ∈ xs, p x := by
  induction xs generalizing s with
  | nil => exact iff_of_true ⟨s, rfl⟩ (fun _ h => nomatch h)
  | cons x xs ih =>
    rw [List.foldlM_cons, exists_bind_ok, List.forall_mem_cons, ← hstep s x]
    exact ⟨fun ⟨t, hx, hxs⟩ => ⟨⟨t, hx⟩, ih.mp hxs⟩, fun ⟨⟨t, hx⟩, hxs⟩ => ⟨t, hx, ih.mpr hxs⟩⟩

theorem mapM_eq_ok {f : α → Except ε β} {g : α → β} {xs : List α} (h : ∀ x ∈ xs, f x = .ok (g x)) :
    xs.mapM f = .ok (xs.map g) := by
  induction xs with
  | nil => rfl
  | cons x xs ih =>
    obtain ⟨hx, hxs⟩ := List.forall_mem_cons.mp h
    rw [List.mapM_cons, hx, ih hxs]
    rfl

/-- A value for every index, the lowest index first. -/
def tabulate : {n : ℕ} → (Fin n → Except ε α) → Except ε (Fin n → α)
  | 0, _ => .ok Fin.elim0
  | _ + 1, f => f 0 >>= fun x => (tabulate fun i => f i.succ).map fun xs => Fin.cons x xs

theorem tabulate_eq_ok {n : ℕ} {f : Fin n → Except ε α} {g : Fin n → α} (h : ∀ i, f i = .ok (g i)) :
    tabulate f = .ok g := by
  induction n with
  | zero => exact congrArg Except.ok (funext fun i => i.elim0)
  | succ n ih =>
    rw [tabulate, h 0, ih fun i => h i.succ]
    exact congrArg Except.ok (Fin.cons_self_tail g)

theorem exists_mapM {f : α → Except ε β} {P : β → Prop} {xs : List α}
    (h : ∀ x ∈ xs, ∃ y, f x = .ok y ∧ P y) : ∃ ys, xs.mapM f = .ok ys ∧ ∀ y ∈ ys, P y := by
  induction xs with
  | nil => exact ⟨[], rfl, fun y hy => absurd hy List.not_mem_nil⟩
  | cons x xs ih =>
    obtain ⟨⟨y, hy, hP⟩, hxs⟩ := List.forall_mem_cons.mp h
    obtain ⟨ys, hys, hPs⟩ := ih hxs
    refine ⟨y :: ys, ?_, List.forall_mem_cons.mpr ⟨hP, hPs⟩⟩
    rw [List.mapM_cons, hy]
    show (xs.mapM f >>= fun ys => pure (y :: ys)) = _
    rw [hys]
    rfl

end Selfevals.Lib.Result
