import Mathlib.Logic.Basic

/-!
# Computations on a store

A computation reads and writes a store and may raise; what it has written when it raises stays
written. `forEach` is the loop over a list.

* `run_bind_eq_ok`: what a chain that succeeds went through.
-/

namespace Selfevals.Lib.Effects

/-- A computation on a store `σ` that raises `ε` or returns `α`. -/
structure Scoped (σ ε α : Type) where
  run : σ → Except ε α × σ

variable {σ ε α β : Type}

instance : Monad (Scoped σ ε) where
  pure a := ⟨fun s => (.ok a, s)⟩
  bind m f := ⟨fun s =>
    match m.run s with
    | (.ok a, s') => (f a).run s'
    | (.error e, s') => (.error e, s')⟩

/-- `raise`. -/
def raise (e : ε) : Scoped σ ε α := ⟨fun s => (.error e, s)⟩

/-- What a query of the store returns. -/
def query (f : σ → α) : Scoped σ ε α := ⟨fun s => (.ok (f s), s)⟩

/-- A query that may raise. -/
def tryQuery (f : σ → Except ε α) : Scoped σ ε α := ⟨fun s => (f s, s)⟩

/-- A write that is made or refused. -/
def tryWrite (f : σ → Except ε σ) : Scoped σ ε Unit := ⟨fun s =>
  match f s with
  | .ok s' => (.ok (), s')
  | .error e => (.error e, s)⟩

/-- `for x in xs: body(x)`. -/
def forEach (body : α → Scoped σ ε Unit) : List α → Scoped σ ε Unit
  | [] => pure ()
  | x :: xs => do
    body x
    forEach body xs

theorem run_bind (m : Scoped σ ε α) (f : α → Scoped σ ε β) (s : σ) :
    (m >>= f).run s =
      match m.run s with
      | (.ok a, s') => (f a).run s'
      | (.error e, s') => (.error e, s') := rfl

@[simp] theorem run_pure (a : α) (s : σ) : (pure a : Scoped σ ε α).run s = (.ok a, s) := rfl

@[simp] theorem run_raise (e : ε) (s : σ) : (raise e : Scoped σ ε α).run s = (.error e, s) := rfl

@[simp] theorem run_query (f : σ → α) (s : σ) : (query f : Scoped σ ε α).run s = (.ok (f s), s) :=
  rfl

@[simp] theorem run_tryQuery (f : σ → Except ε α) (s : σ) : (tryQuery f).run s = (f s, s) := rfl

@[simp] theorem run_tryQuery_bind (f : σ → Except ε α) (g : α → Scoped σ ε β) (s : σ) :
    (tryQuery f >>= g).run s =
      match f s with
      | .ok a => (g a).run s
      | .error e => (.error e, s) := by
  rw [run_bind, run_tryQuery]
  cases f s <;> rfl

@[simp] theorem run_tryWrite_bind (f : σ → Except ε σ) (g : Unit → Scoped σ ε β) (s : σ) :
    (tryWrite f >>= g).run s =
      match f s with
      | .ok s' => (g ()).run s'
      | .error e => (.error e, s) := by
  simp only [run_bind, tryWrite]
  cases f s <;> rfl

/-- What holds of the store before a query that raises, and after the rest of a chain where it does
not, holds after the chain. -/
theorem of_tryQuery_bind {P : σ → Prop} {f : σ → Except ε α} {g : α → Scoped σ ε β} {s : σ}
    (hs : P s) (hrest : ∀ a, f s = .ok a → P ((g a).run s).2) : P ((tryQuery f >>= g).run s).2 := by
  rw [run_tryQuery_bind]
  cases hf : f s with
  | ok a => exact hrest a hf
  | error e => exact hs

theorem of_tryWrite_bind {P : σ → Prop} {f : σ → Except ε σ} {g : Unit → Scoped σ ε β} {s : σ}
    (hs : ∀ e, f s = .error e → P s) (hrest : ∀ s', f s = .ok s' → P ((g ()).run s').2) :
    P ((tryWrite f >>= g).run s).2 := by
  rw [run_tryWrite_bind]
  cases hf : f s with
  | ok s' => exact hrest s' hf
  | error e => exact hs e hf

theorem run_bind_pure (m : Scoped σ ε α) (f : α → β) (s : σ) :
    (m >>= fun a => pure (f a)).run s = ((m.run s).1.map f, (m.run s).2) := by
  rw [run_bind]
  split
  · next a s' heq => rw [heq]; rfl
  · next e s' heq => rw [heq]; rfl

theorem run_bind_eq_ok {m : Scoped σ ε α} {f : α → Scoped σ ε β} {s s'' : σ} {b : β} :
    (m >>= f).run s = (.ok b, s'') ↔
      ∃ a s', m.run s = (.ok a, s') ∧ (f a).run s' = (.ok b, s'') := by
  rw [run_bind]
  constructor
  · intro h
    split at h
    · next a s' hm => exact ⟨a, s', hm, h⟩
    · cases h
  · rintro ⟨a, s', hm, hf⟩
    rw [hm]
    exact hf

theorem run_query_eq_ok {f : σ → α} {s s' : σ} {a : α} :
    (query f : Scoped σ ε α).run s = (.ok a, s') ↔ f s = a ∧ s' = s := by
  rw [run_query, Prod.mk.injEq, Except.ok.injEq, eq_comm (a := s)]

theorem run_tryQuery_eq_ok {f : σ → Except ε α} {s s' : σ} {a : α} :
    (tryQuery f).run s = (.ok a, s') ↔ f s = .ok a ∧ s' = s := by
  rw [run_tryQuery, Prod.mk.injEq, eq_comm (a := s)]

/-- What the first step and then the rest do to the store, under a reflexive and transitive
relation, the chain does. -/
theorem rel_bind {R : σ → σ → Prop} (htrans : ∀ s t u, R s t → R t u → R s u)
    {m : Scoped σ ε α} {f : α → Scoped σ ε β} {s : σ} (hm : R s (m.run s).2)
    (hf : ∀ a s', m.run s = (.ok a, s') → R s' ((f a).run s').2) : R s ((m >>= f).run s).2 := by
  rw [run_bind]
  split
  · next a s' heq =>
    rw [heq] at hm
    exact htrans _ _ _ hm (hf a s' heq)
  · next e s' heq =>
    rw [heq] at hm
    exact hm

theorem run_foldlM_cons (body : β → α → Scoped σ ε β) (acc : β) (x : α) (xs : List α) (s : σ) :
    ((x :: xs).foldlM body acc).run s =
      match (body acc x).run s with
      | (.ok acc', s') => (xs.foldlM body acc').run s'
      | (.error e, s') => (.error e, s') := by
  rw [List.foldlM_cons, run_bind]

/-- What every turn of a loop does to the store, under a reflexive and transitive relation, the loop
does, whether it goes through or not. -/
theorem rel_foldlM {R : σ → σ → Prop} (hrefl : ∀ s, R s s)
    (htrans : ∀ s t u, R s t → R t u → R s u) {body : β → α → Scoped σ ε β} {xs : List α}
    (hbody : ∀ x ∈ xs, ∀ acc s, R s ((body acc x).run s).2) (acc : β) (s : σ) :
    R s ((xs.foldlM body acc).run s).2 := by
  induction xs generalizing acc s with
  | nil => exact hrefl s
  | cons x xs ih =>
    rw [List.foldlM_cons]
    exact rel_bind htrans (hbody x List.mem_cons_self acc s) fun acc' s' _ =>
      ih (fun y hy => hbody y (List.mem_cons_of_mem x hy)) acc' s'

/-- What every turn of a loop that goes through keeps, the loop keeps; it may speak of the elements
that are done. -/
theorem inv_of_run_foldlM {body : β → α → Scoped σ ε β} {I : List α → β → σ → Prop}
    (hstep : ∀ done x acc s acc' s', I done acc s → (body acc x).run s = (.ok acc', s') →
      I (done ++ [x]) acc' s')
    {xs done : List α} {acc acc' : β} {s s' : σ} (h : I done acc s)
    (hrun : (xs.foldlM body acc).run s = (.ok acc', s')) : I (done ++ xs) acc' s' := by
  induction xs generalizing done acc s with
  | nil =>
    obtain ⟨rfl, rfl⟩ : acc = acc' ∧ s = s' := by simpa using hrun
    rwa [List.append_nil]
  | cons x xs ih =>
    rw [List.foldlM_cons, run_bind_eq_ok] at hrun
    obtain ⟨acc₁, s₁, hx, hxs⟩ := hrun
    have h' := ih (hstep done x acc s acc₁ s₁ h hx) hxs
    rwa [List.append_assoc] at h'

section Loop
variable {body : β → α → Scoped σ ε β} {P : α → Prop} {I : List α → β → σ → Prop}
  {G : List α → α → Prop}

/-- Each element is good (`G`) after those before it. -/
def Along (G : List α → α → Prop) (done xs : List α) : Prop :=
  ∀ pre x post, xs = pre ++ x :: post → G (done ++ pre) x

theorem along_cons {done xs : List α} {x : α} :
    Along G done (x :: xs) ↔ G done x ∧ Along G (done ++ [x]) xs := by
  constructor
  · intro h
    refine ⟨by simpa using h [] x xs rfl, fun pre y post heq => ?_⟩
    simpa using h (x :: pre) y post (by rw [heq, List.cons_append])
  · rintro ⟨hx, hxs⟩ (- | ⟨z, pre⟩) y post heq
    · obtain ⟨rfl, -⟩ := List.cons.inj heq
      simpa using hx
    · rw [List.cons_append, List.cons.injEq] at heq
      obtain ⟨rfl, htail⟩ := heq
      simpa using hxs pre y post htail

/-- **A loop** whose body keeps an invariant of the elements done, and raises exactly at those that
are not good after them: it goes through, or stops at the first of these. -/
theorem run_foldlM
    (hok : ∀ done x acc s, P x → I done acc s → G done x →
      ∃ acc' s', (body acc x).run s = (.ok acc', s') ∧ I (done ++ [x]) acc' s')
    (herr : ∀ done x acc s, P x → I done acc s → ¬ G done x →
      ∃ e s', (body acc x).run s = (.error e, s'))
    (xs done : List α) (acc : β) (s : σ) (hxs : ∀ x ∈ xs, P x) (h : I done acc s) :
    (∃ acc' s', (xs.foldlM body acc).run s = (.ok acc', s') ∧ I (done ++ xs) acc' s' ∧
        Along G done xs) ∨
      ∃ pre x post acc' s' e s'', xs = pre ++ x :: post ∧ I (done ++ pre) acc' s' ∧
        Along G done pre ∧ ¬ G (done ++ pre) x ∧ (body acc' x).run s' = (.error e, s'') ∧
        (xs.foldlM body acc).run s = (.error e, s'') := by
  induction xs generalizing done acc s with
  | nil => exact .inl ⟨acc, s, rfl, by rwa [List.append_nil], by simp [Along]⟩
  | cons x xs ih =>
    rw [run_foldlM_cons]
    have hPx : P x := hxs x List.mem_cons_self
    by_cases hx : G done x
    · obtain ⟨acc', s', hrun, h'⟩ := hok done x acc s hPx h hx
      rw [hrun]
      obtain ⟨acc'', s'', hrest, h'', hall⟩ |
          ⟨pre, y, post, acc'', s'', e, s₃, rfl, h'', hall, hy, hbody, hrest⟩ :=
        ih (done ++ [x]) acc' s' (fun y hy => hxs y (List.mem_cons_of_mem x hy)) h'
      · exact .inl ⟨acc'', s'', hrest, by simpa using h'', along_cons.mpr ⟨hx, hall⟩⟩
      · exact .inr ⟨x :: pre, y, post, acc'', s'', e, s₃, rfl, by simpa using h'',
          along_cons.mpr ⟨hx, hall⟩, by simpa using hy, hbody, hrest⟩
    · obtain ⟨e, s', hrun⟩ := herr done x acc s hPx h hx
      rw [hrun]
      exact .inr ⟨[], x, xs, acc, s, e, s',
        rfl, by simpa using h, by simp [Along], by simpa using hx,
        hrun, rfl⟩

end Loop

end Selfevals.Lib.Effects
