import Mathlib.Tactic
import Mathlib.Data.List.Infix

/-!
# Scans of a list

Three loops that read a list once, and what each finds out about the list as a whole.

* `isOrderedSubsequence_iff`: tokens found one after the other by one iterator are a sublist;
* `overrun_isSome_iff`: the length of the current run exceeds a cap exactly when the list has a
  longer block of one element;
* `firstRepeat_isSome_iff`: an element is met that was seen before exactly when one occurs twice.
-/

namespace Selfevals.Lib.Scans

variable {α : Type*} [DecidableEq α]

/-! ### One iterator -/

/-- `token in it`: what is left of an iterator once the token is found. -/
def consume (token : α) : List α → Option (List α)
  | [] => none
  | x :: xs => if x = token then some xs else consume token xs

/-- `all(token in it for token in needle)`, where `it` iterates over `haystack`. -/
def isOrderedSubsequence : List α → List α → Bool
  | [], _ => true
  | token :: needle, haystack =>
    match consume token haystack with
    | none => false
    | some rest => isOrderedSubsequence needle rest

theorem cons_sublist_iff_consume (token : α) (needle haystack : List α) :
    (token :: needle).Sublist haystack ↔
      ∃ rest, consume token haystack = some rest ∧ needle.Sublist rest := by
  induction haystack with
  | nil => simp [consume]
  | cons x xs ih =>
    unfold consume
    split_ifs with hx
    · rw [hx, List.cons_sublist_cons]
      simp
    · rw [← ih]
      refine ⟨fun h => ?_, fun h => h.cons x⟩
      cases h with
      | cons _ h => exact h
      | cons_cons _ _ => exact absurd rfl hx

theorem isOrderedSubsequence_iff (needle haystack : List α) :
    isOrderedSubsequence needle haystack = true ↔ needle.Sublist haystack := by
  induction needle generalizing haystack with
  | nil => simp [isOrderedSubsequence]
  | cons token needle ih =>
    rw [cons_sublist_iff_consume, isOrderedSubsequence]
    cases consume token haystack with
    | none => simp
    | some rest => simp [ih]

/-! ### Runs -/

/-- The element whose run exceeds the cap, with the length reached, from the element of the current
run and its length. -/
def overrunFrom (cap : ℤ) : Option α → ℕ → List α → Option (α × ℕ)
  | _, _, [] => none
  | run, length, x :: xs =>
    let length' := if some x = run then length + 1 else 1
    if cap < length' then some (x, length') else overrunFrom cap (some x) length' xs

/-- The first value repeated more often in a row than the cap. -/
def overrun (cap : ℤ) (xs : List α) : Option (α × ℕ) := overrunFrom cap none 0 xs

/-- A block of one element, longer than the cap. -/
def LongBlock (cap : ℤ) (xs : List α) : Prop :=
  ∃ (x : α) (n : ℕ), cap < n ∧ List.replicate n x <:+: xs

omit [DecidableEq α] in
theorem not_replicate_prefix {x r y : α} {n length : ℕ} (hlt : length < n) (hpos : 0 < length)
    (hne : r ≠ y) (ys : List α) :
    ¬List.replicate n x <+: List.replicate length r ++ y :: ys := by
  rintro ⟨rest, h⟩
  obtain ⟨k, rfl⟩ := Nat.exists_eq_add_of_lt hlt
  have hsplit : List.replicate (length + k + 1) x ++ rest =
      List.replicate length x ++ x :: (List.replicate k x ++ rest) := by
    rw [show length + k + 1 = length + (k + 1) by omega, List.replicate_add, List.replicate_succ,
      List.append_assoc, List.cons_append]
  rw [hsplit] at h
  obtain ⟨hrun, hnext⟩ := List.append_inj h (by simp)
  have hr : x = r := by
    have hmem : x ∈ List.replicate length r := hrun ▸ List.mem_replicate.mpr ⟨hpos.ne', rfl⟩
    exact (List.mem_replicate.mp hmem).2
  exact hne (hr.symm.trans (List.cons.inj hnext).1)

omit [DecidableEq α] in
theorem longBlock_of_run {r y : α} {length : ℕ} {cap : ℤ} (hle : (length : ℤ) ≤ cap) (hne : r ≠ y)
    (ys : List α) :
    LongBlock cap (List.replicate length r ++ y :: ys) ↔ LongBlock cap (y :: ys) := by
  unfold LongBlock
  refine exists₂_congr fun x n => and_congr_right fun hcap => ?_
  induction length with
  | zero => rfl
  | succ length ih =>
    have hlt : length + 1 < n := by omega
    have hprefix := not_replicate_prefix (x := x) hlt (Nat.succ_pos length) hne ys
    rw [List.replicate_succ, List.cons_append] at hprefix ⊢
    rw [List.infix_cons_iff, ih (by omega)]
    exact or_iff_right hprefix

theorem overrunFrom_isSome_iff {cap : ℤ} (r : α) (length : ℕ) (xs : List α)
    (hle : (length : ℤ) ≤ cap) :
    (overrunFrom cap (some r) length xs).isSome ↔
      LongBlock cap (List.replicate length r ++ xs) := by
  induction xs generalizing r length with
  | nil =>
    refine ⟨fun h => by simp [overrunFrom] at h, ?_⟩
    rintro ⟨x, n, hcap, hinfix⟩
    have hlength := hinfix.length_le
    simp at hlength
    omega
  | cons y ys ih =>
    unfold overrunFrom
    by_cases hy : r = y
    · subst hy
      have hrun : List.replicate length r ++ r :: ys = List.replicate (length + 1) r ++ ys := by
        rw [List.replicate_succ', List.append_assoc, List.singleton_append]
      simp only [if_true, hrun]
      split_ifs with hover
      · exact iff_of_true rfl ⟨r, length + 1, hover, (List.prefix_append _ _).isInfix⟩
      · exact ih r (length + 1) (by omega)
    · have hother : some y ≠ some r := fun h => hy (Option.some.inj h).symm
      rw [longBlock_of_run hle hy]
      simp only [if_neg hother]
      split_ifs with hover
      · exact iff_of_true rfl ⟨y, 1, hover, (List.prefix_append [y] ys).isInfix⟩
      · exact ih y 1 (by omega)

theorem overrun_isSome_iff {cap : ℤ} (hcap : 0 ≤ cap) (xs : List α) :
    (overrun cap xs).isSome ↔ LongBlock cap xs := by
  cases xs with
  | nil =>
    refine ⟨fun h => by simp [overrun, overrunFrom] at h, ?_⟩
    rintro ⟨x, n, hlt, hinfix⟩
    have hlength := hinfix.length_le
    simp at hlength
    omega
  | cons y ys =>
    unfold overrun overrunFrom
    simp only [reduceCtorEq, if_false]
    split_ifs with hover
    · exact iff_of_true rfl ⟨y, 1, hover, (List.prefix_append [y] ys).isInfix⟩
    · exact overrunFrom_isSome_iff y 1 ys (by omega)

/-! ### Repeats -/

/-- The first element that was seen before. -/
def repeatFrom (seen : Finset α) : List α → Option α
  | [] => none
  | x :: xs => if x ∈ seen then some x else repeatFrom (insert x seen) xs

/-- The first value that was there before. -/
def firstRepeat (xs : List α) : Option α := repeatFrom ∅ xs

theorem repeatFrom_eq_none_iff (seen : Finset α) (xs : List α) :
    repeatFrom seen xs = none ↔ xs.Nodup ∧ ∀ x ∈ xs, x ∉ seen := by
  induction xs generalizing seen with
  | nil => simp [repeatFrom]
  | cons x xs ih =>
    unfold repeatFrom
    split_ifs with hx
    · simp [hx]
    · rw [ih, List.nodup_cons, List.forall_mem_cons]
      have hbefore : (∀ z ∈ xs, z ∉ insert x seen) ↔ x ∉ xs ∧ ∀ z ∈ xs, z ∉ seen := by
        simp only [Finset.mem_insert, not_or]
        refine ⟨fun h => ⟨fun hmem => (h x hmem).1 rfl, fun z hz => (h z hz).2⟩, ?_⟩
        rintro ⟨hnot, hseen⟩ z hz
        exact ⟨fun heq => hnot (heq ▸ hz), hseen z hz⟩
      rw [hbefore]
      tauto

theorem firstRepeat_isSome_iff (xs : List α) : (firstRepeat xs).isSome ↔ ¬xs.Nodup := by
  rw [← Option.ne_none_iff_isSome, Ne, firstRepeat, repeatFrom_eq_none_iff]
  simp

end Selfevals.Lib.Scans
