import Mathlib.Data.Sym.Sym2
import Mathlib.Tactic

/-!
# Greedy matchings, and schedules of rounds

`greedyPairs` goes through a list once: an item that has no partner yet takes the first later one
that has none and is allowed. A `Schedule` is a list of rounds, each of them a maximal matching of
the items that have not met in a former round.

* `Schedule.snoc`: a schedule goes on with such a round;
-/

namespace Selfevals.Lib.GreedyMatching

variable {α : Type*}

/-! ### Matchings -/

/-- The items that are in a pair. -/
def ends (pairs : List (α × α)) : List α := pairs.flatMap fun p => [p.1, p.2]

theorem ends_cons (p : α × α) (pairs : List (α × α)) :
    ends (p :: pairs) = p.1 :: p.2 :: ends pairs := rfl

theorem fst_mem_ends {p : α × α} {pairs : List (α × α)} (h : p ∈ pairs) : p.1 ∈ ends pairs :=
  List.mem_flatMap.mpr ⟨p, h, List.mem_cons_self⟩

theorem snd_mem_ends {p : α × α} {pairs : List (α × α)} (h : p ∈ pairs) : p.2 ∈ ends pairs :=
  List.mem_flatMap.mpr ⟨p, h, List.mem_cons_of_mem _ List.mem_cons_self⟩

/-- The pairs, whichever of the two comes first. -/
def meetings (pairs : List (α × α)) : List (Sym2 α) := pairs.map fun p => s(p.1, p.2)

theorem nodup_meetings {pairs : List (α × α)} (h : (ends pairs).Nodup) :
    (meetings pairs).Nodup := by
  induction pairs with
  | nil => exact List.nodup_nil
  | cons p pairs ih =>
    rw [ends_cons, List.nodup_cons, List.nodup_cons, List.mem_cons, not_or] at h
    obtain ⟨⟨-, hfst⟩, -, hrest⟩ := h
    refine List.nodup_cons.mpr ⟨fun hmem => ?_, ih hrest⟩
    obtain ⟨q, hq, heq⟩ := List.mem_map.mp hmem
    have hend : p.1 ∈ s(q.1, q.2) := heq ▸ Sym2.mem_mk_left p.1 p.2
    obtain heq | heq := Sym2.mem_iff.mp hend
    · exact hfst (heq ▸ fst_mem_ends hq)
    · exact hfst (heq ▸ snd_mem_ends hq)

/-- A maximal matching of the items that are allowed to meet. -/
structure MaximalMatching (allowed : α → α → Prop) (items : List α) (pairs : List (α × α)) :
  Prop where
  amongst : ∀ a ∈ ends pairs, a ∈ items
  once : (ends pairs).Nodup
  permitted : ∀ p ∈ pairs, allowed p.1 p.2
  maximal : ∀ a ∈ items, ∀ b ∈ items, a ≠ b → a ∉ ends pairs → b ∉ ends pairs → ¬allowed a b

theorem MaximalMatching.congr {allowed allowed' : α → α → Prop} {items items' : List α}
    {pairs : List (α × α)} (h : MaximalMatching allowed items pairs) (hitems : items.Perm items')
    (hallowed : ∀ a b, allowed a b ↔ allowed' a b) : MaximalMatching allowed' items' pairs where
  amongst a ha := hitems.mem_iff.mp (h.amongst a ha)
  once := h.once
  permitted p hp := (hallowed _ _).mp (h.permitted p hp)
  maximal a ha b hb hne hout hout' hmet :=
    h.maximal a (hitems.mem_iff.mpr ha) b (hitems.mem_iff.mpr hb) hne hout hout'
      ((hallowed a b).mpr hmet)

/-! ### The greedy matching -/

section Greedy
variable [DecidableEq α] (allowed : α → α → Prop) [DecidableRel allowed]

/-- The pairs of the items, next to those that are paired. -/
def greedyPairs : List α → List α → List (α × α)
  | [], _ => []
  | a :: rest, paired =>
    if a ∈ paired then greedyPairs rest paired
    else
      match rest.find? fun b => b ∉ paired ∧ allowed a b with
      | none => greedyPairs rest paired
      | some b => (a, b) :: greedyPairs rest (b :: a :: paired)

variable {allowed}

theorem mem_ends_greedyPairs {items paired : List α} {x : α}
    (hx : x ∈ ends (greedyPairs allowed items paired)) : x ∈ items ∧ x ∉ paired := by
  induction items generalizing paired with
  | nil => cases hx
  | cons a rest ih =>
    have hlater {paired' : List α} (h : x ∈ ends (greedyPairs allowed rest paired')) :
        x ∈ a :: rest ∧ x ∉ paired' := ⟨List.mem_cons_of_mem a (ih h).1, (ih h).2⟩
    rw [greedyPairs] at hx
    split_ifs at hx with ha
    · exact hlater hx
    · split at hx
      · exact hlater hx
      · next b hb =>
        have hfound : b ∉ paired ∧ allowed a b := by simpa using List.find?_some hb
        rw [ends_cons, List.mem_cons, List.mem_cons] at hx
        obtain rfl | rfl | hx := hx
        · exact ⟨List.mem_cons_self, ha⟩
        · exact ⟨List.mem_cons_of_mem a (List.mem_of_find?_eq_some hb), hfound.1⟩
        · obtain ⟨hmem, hout⟩ := hlater hx
          exact ⟨hmem, fun h => hout (List.mem_cons_of_mem b (List.mem_cons_of_mem a h))⟩

theorem nodup_ends_greedyPairs {items : List α} (h : items.Nodup) (paired : List α) :
    (ends (greedyPairs allowed items paired)).Nodup := by
  induction items generalizing paired with
  | nil => exact List.nodup_nil
  | cons a rest ih =>
    obtain ⟨ha, hrest⟩ := List.nodup_cons.mp h
    rw [greedyPairs]
    split_ifs with hpaired
    · exact ih hrest paired
    · split
      · exact ih hrest paired
      · next b hb =>
        have hne : a ≠ b := fun heq => ha (heq ▸ List.mem_of_find?_eq_some hb)
        have hout : ∀ x ∈ ends (greedyPairs allowed rest (b :: a :: paired)), x ≠ a ∧ x ≠ b := by
          intro x hx
          have hnot := (mem_ends_greedyPairs hx).2
          exact ⟨fun heq => hnot (by simp [heq]), fun heq => hnot (by simp [heq])⟩
        rw [ends_cons, List.nodup_cons, List.nodup_cons, List.mem_cons, not_or]
        exact ⟨⟨hne, fun hmem => (hout a hmem).1 rfl⟩, fun hmem => (hout b hmem).2 rfl, ih hrest _⟩

theorem allowed_of_mem_greedyPairs {items paired : List α} {p : α × α}
    (hp : p ∈ greedyPairs allowed items paired) : allowed p.1 p.2 := by
  induction items generalizing paired with
  | nil => cases hp
  | cons a rest ih =>
    rw [greedyPairs] at hp
    split_ifs at hp with ha
    · exact ih hp
    · split at hp
      · exact ih hp
      · next b hb =>
        have hfound : b ∉ paired ∧ allowed a b := by simpa using List.find?_some hb
        obtain rfl | hp := List.mem_cons.mp hp
        · exact hfound.2
        · exact ih hp

theorem pairwise_greedyPairs (items paired : List α) :
    items.Pairwise fun a b => a ∉ paired → b ∉ paired →
      a ∉ ends (greedyPairs allowed items paired) → b ∉ ends (greedyPairs allowed items paired) →
        ¬allowed a b := by
  induction items generalizing paired with
  | nil => exact List.Pairwise.nil
  | cons a rest ih =>
    rw [greedyPairs]
    split_ifs with ha
    · exact List.pairwise_cons.mpr ⟨fun b _ hout => absurd ha hout, ih paired⟩
    · split
      · next hnone =>
        refine List.pairwise_cons.mpr ⟨fun b hb _ hout _ _ hallowed => ?_, ih paired⟩
        have hnot := List.find?_eq_none.mp hnone b hb
        exact hnot (by simpa using ⟨hout, hallowed⟩)
      · next b hb =>
        have htail := ih (b :: a :: paired)
        refine List.pairwise_cons.mpr ⟨fun c _ _ _ hnot => absurd (by simp [ends_cons]) hnot, ?_⟩
        refine htail.imp fun {c d} hcd hc hd hcout hdout => ?_
        rw [ends_cons, List.mem_cons, List.mem_cons, not_or, not_or] at hcout hdout
        obtain ⟨hca, hcb, hcout⟩ := hcout
        obtain ⟨hda, hdb, hdout⟩ := hdout
        exact hcd (by simp [hca, hcb, hc]) (by simp [hda, hdb, hd]) hcout hdout

/-- **The greedy pairs are a maximal matching.** -/
theorem greedyPairs_spec [Std.Symm allowed] {items : List α} (h : items.Nodup) :
    MaximalMatching allowed items (greedyPairs allowed items []) where
  amongst _ ha := (mem_ends_greedyPairs ha).1
  once := nodup_ends_greedyPairs h []
  permitted _ hp := allowed_of_mem_greedyPairs hp
  maximal a ha b hb hne hout hout' := by
    have hpairs : items.Pairwise fun a b => a ∉ ends (greedyPairs allowed items []) →
        b ∉ ends (greedyPairs allowed items []) → ¬allowed a b :=
      (pairwise_greedyPairs items []).imp fun hab => hab List.not_mem_nil List.not_mem_nil
    have : Std.Symm fun a b => a ∉ ends (greedyPairs allowed items []) →
        b ∉ ends (greedyPairs allowed items []) → ¬allowed a b :=
      ⟨fun a b hab hb ha hallowed => hab ha hb (symm hallowed)⟩
    exact hpairs.forall ha hb hne hout hout'

end Greedy

/-! ### Schedules -/

/-- Two have not met. -/
def Unmet (rounds : List (List (α × α))) (a b : α) : Prop := s(a, b) ∉ meetings rounds.flatten

instance (rounds : List (List (α × α))) : Std.Symm (Unmet rounds) where
  symm a b h := by rwa [Unmet, Sym2.eq_swap]

/-- Each round is a maximal matching of the items that have not met before it. -/
def Schedule (items : List α) (rounds : List (List (α × α))) : Prop :=
  ∀ k : ℕ, ∀ pairs, rounds[k]? = some pairs → MaximalMatching (Unmet (rounds.take k)) items pairs

theorem schedule_nil (items : List α) : Schedule items [] := fun _ _ h => by simp at h

theorem Schedule.snoc {items : List α} {rounds : List (List (α × α))} {pairs : List (α × α)}
    (h : Schedule items rounds) (hpairs : MaximalMatching (Unmet rounds) items pairs) :
    Schedule items (rounds ++ [pairs]) := by
  intro k pairs' hk
  obtain hlt | heq | hgt := lt_trichotomy k rounds.length
  · rw [List.getElem?_append_left hlt] at hk
    rw [List.take_append_of_le_length hlt.le]
    exact h k pairs' hk
  · rw [heq, List.getElem?_concat_length] at hk
    obtain rfl := Option.some.inj hk
    rwa [heq, List.take_left]
  · rw [List.getElem?_eq_none (by simpa using hgt)] at hk
    cases hk

theorem Schedule.of_snoc {items : List α} {rounds : List (List (α × α))} {pairs : List (α × α)}
    (h : Schedule items (rounds ++ [pairs])) :
    Schedule items rounds ∧ MaximalMatching (Unmet rounds) items pairs := by
  constructor
  · intro k pairs' hk
    have hlt : k < rounds.length := (List.getElem?_eq_some_iff.mp hk).1
    have hround := h k pairs' (by rw [List.getElem?_append_left hlt, hk])
    rwa [List.take_append_of_le_length hlt.le] at hround
  · have hround := h rounds.length pairs List.getElem?_concat_length
    rwa [List.take_left] at hround

/-- **Nobody meets twice.** -/
theorem Schedule.nodup {items : List α} {rounds : List (List (α × α))} (h : Schedule items rounds) :
    (meetings rounds.flatten).Nodup := by
  induction rounds using List.reverseRecOn with
  | nil => exact List.nodup_nil
  | append_singleton rounds pairs ih =>
    obtain ⟨hrounds, hpairs⟩ := h.of_snoc
    have hflatten :
      meetings (rounds ++ [pairs]).flatten = meetings rounds.flatten ++ meetings pairs := by
      simp [meetings]
    rw [hflatten, List.nodup_append]
    refine ⟨ih hrounds, nodup_meetings hpairs.once, ?_⟩
    rintro m hbefore m' hnow rfl
    obtain ⟨p, hp, rfl⟩ := List.mem_map.mp hnow
    exact hpairs.permitted p hp hbefore

end Selfevals.Lib.GreedyMatching
