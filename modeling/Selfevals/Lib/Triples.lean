import Selfevals.Lib.Effects

/-!
# Pre- and postconditions of computations on a store

`Triple P m Q E` says that from every store that satisfies `P` the computation returns in a store
that satisfies `Q`, or raises in one that satisfies `E`. There is one rule for each way to build a
computation, `attempt` (`try`/`except`) and `ensuring` (`try`/`finally`) among them.
-/

namespace Selfevals.Lib.Triples

open Lib.Effects

variable {σ ε α β : Type}

/-! ### Exceptions -/

/-- `try: m except: handler(e)`. -/
def attempt (m : Scoped σ ε α) (handler : ε → Scoped σ ε α) : Scoped σ ε α := ⟨fun s =>
  match m.run s with
  | (.ok a, s') => (.ok a, s')
  | (.error e, s') => (handler e).run s'⟩

/-- `try: m finally: cleanup`; what the clean-up raises takes the place of the result. -/
def ensuring (m : Scoped σ ε α) (cleanup : Scoped σ ε Unit) : Scoped σ ε α := ⟨fun s =>
  match cleanup.run (m.run s).2 with
  | (.ok (), s') => ((m.run s).1, s')
  | (.error e, s') => (.error e, s')⟩

/-- A step that raises if there is something to raise. -/
def mayRaise : Option ε → Scoped σ ε Unit
  | none => pure ()
  | some e => raise e

/-- A computation without a store. -/
def ofExcept (x : Except ε α) : Scoped σ ε α := tryQuery fun _ => x

/-! ### Triples -/

/-- A Hoare triple: of the answers, and of the errors. -/
def Triple (P : σ → Prop) (m : Scoped σ ε α) (Q : α → σ → Prop) (E : ε → σ → Prop) : Prop :=
  ∀ s, P s →
    match m.run s with
    | (.ok a, s') => Q a s'
    | (.error e, s') => E e s'

variable {P P' : σ → Prop} {Q Q' : α → σ → Prop} {R : β → σ → Prop} {E E' : ε → σ → Prop}
  {m : Scoped σ ε α}

theorem Triple.consequence (h : Triple P m Q E) (hP : ∀ s, P' s → P s) (hQ : ∀ a s, Q a s → Q' a s)
    (hE : ∀ e s, E e s → E' e s) : Triple P' m Q' E' := by
  intro s hs
  have hrun := h s (hP s hs)
  rcases hm : m.run s with ⟨e | a, s'⟩ <;> rw [hm] at hrun
  · exact hE e s' hrun
  · exact hQ a s' hrun

theorem Triple.pre (h : Triple P m Q E) (hP : ∀ s, P' s → P s) : Triple P' m Q E :=
  h.consequence hP (fun _ _ hs => hs) fun _ _ hs => hs

theorem Triple.post (h : Triple P m Q E) (hQ : ∀ a s, Q a s → Q' a s) : Triple P m Q' E :=
  h.consequence (fun _ hs => hs) hQ fun _ _ hs => hs

theorem Triple.safe (h : Triple P m Q fun _ _ => False) : Triple P m Q E :=
  h.consequence (fun _ hs => hs) (fun _ _ hs => hs) fun _ _ hs => hs.elim

theorem triple_of_and {p : Prop} (h : p → Triple P m Q E) : Triple (fun s => p ∧ P s) m Q E :=
  fun s hs => h hs.1 s hs.2

theorem Triple.store {F : σ → Prop} (h : Triple P m (fun _ => F) fun _ => F) {s : σ} (hs : P s) :
    F (m.run s).2 := by
  have hrun := h s hs
  rcases hm : m.run s with ⟨e | a, s'⟩ <;> rw [hm] at hrun <;> exact hrun

theorem triple_pure (a : α) (h : ∀ s, P s → Q a s) : Triple P (pure a : Scoped σ ε α) Q E := h

theorem triple_raise (e : ε) (h : ∀ s, P s → E e s) : Triple P (raise e : Scoped σ ε α) Q E := h

/-- **The rule of sequence.** -/
theorem Triple.bind {f : α → Scoped σ ε β} (hm : Triple P m Q E)
    (hf : ∀ a, Triple (Q a) (f a) R E) :
    Triple P (m >>= f) R E := by
  intro s hs
  have hrun := hm s hs
  rw [run_bind]
  rcases hm' : m.run s with ⟨e | a, s'⟩ <;> rw [hm'] at hrun
  · exact hrun
  · exact hf a s' hrun

theorem triple_query (f : σ → α) (h : ∀ s, P s → Q (f s) s) :
    Triple P (query f : Scoped σ ε α) Q E := h

theorem triple_ofExcept {x : Except ε α} (hok : ∀ a s, x = .ok a → P s → Q a s)
    (herror : ∀ e s, x = .error e → P s → E e s) : Triple P (ofExcept x) Q E := by
  intro s hs
  rcases x with e | a
  · exact herror e s rfl hs
  · exact hok a s rfl hs

theorem triple_tryWrite {f : σ → Except ε σ} {Q : Unit → σ → Prop}
    (hok : ∀ s s', P s → f s = .ok s' → Q () s') (herror : ∀ s e, P s → f s = .error e → E e s) :
    Triple P (tryWrite f) Q E := by
  intro s hs
  unfold tryWrite
  rcases hf : f s with e | s'
  · simpa only [hf] using herror s e hs hf
  · simpa only [hf] using hok s s' hs hf

theorem triple_mayRaise (raised : Option ε) {Q : Unit → σ → Prop} (hQ : ∀ s, P s → Q () s)
    (hE : ∀ e s, P s → E e s) : Triple P (mayRaise raised) Q E := by
  rcases raised with _ | e
  · exact triple_pure () hQ
  · exact triple_raise e fun s hs => hE e s hs

theorem Triple.attempt {handler : ε → Scoped σ ε α} (hm : Triple P m Q E)
    (hhandler : ∀ e, Triple (E e) (handler e) Q E') : Triple P (attempt m handler) Q E' := by
  intro s hs
  have hrun := hm s hs
  unfold Triples.attempt
  rcases hm' : m.run s with ⟨e | a, s'⟩ <;> rw [hm'] at hrun
  · simpa only [hm'] using hhandler e s' hrun
  · simpa only [hm'] using hrun

theorem Triple.ensuring (hm : Triple P m Q E) (raised : Option ε) (hQ : ∀ a e s, Q a s → E e s)
    (hE : ∀ e e' s, E e s → E e' s) : Triple P (ensuring m (mayRaise raised)) Q E := by
  intro s hs
  have hrun := hm s hs
  unfold Triples.ensuring
  rcases raised with _ | e'
  · rcases hm' : m.run s with ⟨e | a, s'⟩ <;> rw [hm'] at hrun
    · simpa only [mayRaise, run_pure, hm'] using hrun
    · simpa only [mayRaise, run_pure, hm'] using hrun
  · rcases hm' : m.run s with ⟨e | a, s'⟩ <;> rw [hm'] at hrun
    · simpa only [mayRaise, run_raise, hm'] using hE e e' s' hrun
    · simpa only [mayRaise, run_raise, hm'] using hQ a e' s' hrun

/-- **The rule of the loop**: what every pass keeps, whether it ends or raises, the loop keeps. -/
theorem triple_forEach {I : σ → Prop} {body : α → Scoped σ ε Unit}
    (h : ∀ a, Triple I (body a) (fun _ => I) E) (xs : List α) :
    Triple I (forEach body xs) (fun _ => I) E := by
  induction xs with
  | nil => exact triple_pure () fun _ hs => hs
  | cons x xs ih => exact (h x).bind fun _ => ih

end Selfevals.Lib.Triples
