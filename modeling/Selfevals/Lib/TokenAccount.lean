import Mathlib.Tactic

/-!
# Accounts that fill at a rate

An account holds a level and remembers what was taken from it, and when. It fills at a rate, up to
its capacity. `Balanced` is what such an account keeps true: since any time, what was taken and what
is left are no more than the capacity and what the rate has added.
-/

namespace Selfevals.Lib.TokenAccount

section Log
variable {K : Type*} [LinearOrder K]

/-- How often something was taken in the window `[s, t]`, by a log of times and amounts. -/
def timesIn (s t : K) (log : List (K × K)) : ℕ := log.countP fun g => s ≤ g.1 ∧ g.1 ≤ t

theorem timesIn_snoc (s t now amount : K) (log : List (K × K)) :
    timesIn s t (log ++ [(now, amount)]) =
      timesIn s t log + if s ≤ now ∧ now ≤ t then 1 else 0 := by
  unfold timesIn
  rw [List.countP_append]
  split_ifs with h <;> simp [h]

variable [AddCommMonoid K]

/-- What was taken from time `s` on. -/
def takenFrom (s : K) (log : List (K × K)) : K := ((log.filter fun g => s ≤ g.1).map Prod.snd).sum

/-- What was taken in the window `[s, t]`. -/
def takenIn (s t : K) (log : List (K × K)) : K :=
  ((log.filter fun g => s ≤ g.1 ∧ g.1 ≤ t).map Prod.snd).sum

theorem takenFrom_snoc (s now amount : K) (log : List (K × K)) :
    takenFrom s (log ++ [(now, amount)]) = takenFrom s log + if s ≤ now then amount else 0 := by
  unfold takenFrom
  rw [List.filter_append, List.map_append, List.sum_append]
  split_ifs with h <;> simp [h]

theorem takenIn_snoc (s t now amount : K) (log : List (K × K)) :
    takenIn s t (log ++ [(now, amount)]) =
      takenIn s t log + if s ≤ now ∧ now ≤ t then amount else 0 := by
  unfold takenIn
  rw [List.filter_append, List.map_append, List.sum_append]
  split_ifs with h <;> simp [h]

theorem takenIn_eq_takenFrom {s t : K} {log : List (K × K)} (h : ∀ g ∈ log, g.1 ≤ t) :
    takenIn s t log = takenFrom s log := by
  have hfilter :
    (log.filter fun g => decide (s ≤ g.1 ∧ g.1 ≤ t)) = log.filter fun g => decide (s ≤ g.1) :=
    List.filter_congr fun g hg => by simp [h g hg]
  rw [takenIn, takenFrom, hfilter]

theorem takenFrom_eq_zero {s : K} {log : List (K × K)} (h : ∀ g ∈ log, g.1 < s) :
    takenFrom s log = 0 := by
  unfold takenFrom
  rw [List.filter_eq_nil_iff.mpr fun g hg => by simpa using h g hg]
  rfl

end Log

variable {K : Type*} [Field K] [LinearOrder K] [IsStrictOrderedRing K]
variable {s t now now' amount level capacity rate tolerance : K} {log : List (K × K)}

/-! ### The account -/

/-- Since any time, what was taken and what is left are no more than the capacity and what the rate
has added. -/
structure Balanced (capacity rate : K) (log : List (K × K)) (level now : K) : Prop where
  level_le : level ≤ capacity
  past : ∀ g ∈ log, g.1 ≤ now
  spent : ∀ s ≤ now, takenFrom s log + level ≤ capacity + rate * (now - s)

theorem balanced_start (hrate : 0 ≤ rate) (h : level ≤ capacity) :
    Balanced capacity rate [] level now where
  level_le := h
  past _ hg := absurd hg List.not_mem_nil
  spent s hs := by
    have hadds : 0 ≤ rate * (now - s) := mul_nonneg hrate (sub_nonneg.mpr hs)
    show (0 : K) + level ≤ _
    linarith

/-- **Filling** up to a later time, by no more than the rate adds. -/
theorem Balanced.refill (h : Balanced capacity rate log level now) (hrate : 0 ≤ rate)
    (hnow : now ≤ now')
    {level' : K} (hcapacity : level' ≤ capacity) (hadded : level' ≤ level + rate * (now' - now)) :
    Balanced capacity rate log level' now' where
  level_le := hcapacity
  past g hg := (h.past g hg).trans hnow
  spent s hs := by
    by_cases hold : s ≤ now
    · have hspent := h.spent s hold
      linarith
    · -- a window that opens later has seen nothing
      have hadds : 0 ≤ rate * (now' - s) := mul_nonneg hrate (sub_nonneg.mpr hs)
      rw [takenFrom_eq_zero fun g hg => (h.past g hg).trans_lt (not_le.mp hold)]
      linarith

/-- **Taking** an amount now. -/
theorem Balanced.take (h : Balanced capacity rate log level now) (hamount : 0 ≤ amount) :
    Balanced capacity rate (log ++ [(now, amount)]) (level - amount) now where
  level_le := by linarith [h.level_le]
  past g hg := by
    obtain hg | hg := List.mem_append.mp hg
    · exact h.past g hg
    · rw [List.mem_singleton.mp hg]
  spent s hs := by
    have hspent := h.spent s hs
    rw [takenFrom_snoc, if_pos hs]
    linarith

/-! ### Windows -/

/-- No window holds more than the capacity, what the rate adds over it, and a tolerance for each
time. -/
def Metered (capacity rate tolerance : K) (log : List (K × K)) : Prop :=
  ∀ s t, s ≤ t → takenIn s t log ≤ capacity + rate * (t - s) + timesIn s t log * tolerance

theorem metered_nil (hcapacity : 0 ≤ capacity) (hrate : 0 ≤ rate) :
    Metered capacity rate tolerance [] := by
  intro s t hst
  have hadds : 0 ≤ rate * (t - s) := mul_nonneg hrate (sub_nonneg.mpr hst)
  simp only [takenIn, timesIn, List.filter_nil, List.map_nil, List.sum_nil, List.countP_nil,
    Nat.cast_zero,
    zero_mul]
  linarith

/-- **The windows** of an account that is not overdrawn by more than the tolerance. -/
theorem Metered.take (h : Metered capacity rate tolerance log)
    (hbalanced : Balanced capacity rate log level now)
    (hrate : 0 ≤ rate) (htolerance : 0 ≤ tolerance) (hamount : 0 ≤ amount)
    (hleft : -tolerance ≤ level - amount) :
    Metered capacity rate tolerance (log ++ [(now, amount)]) := by
  intro s t hst
  have hafter := hbalanced.take hamount
  by_cases hin : s ≤ now ∧ now ≤ t
  · obtain ⟨hs, ht⟩ := hin
    have hspent := hafter.spent s hs
    have hmono : rate * (now - s) ≤ rate * (t - s) := mul_le_mul_of_nonneg_left (by linarith) hrate
    have htimes : tolerance ≤ timesIn s t (log ++ [(now, amount)]) * tolerance := by
      rw [timesIn_snoc, if_pos ⟨hs, ht⟩]
      refine le_mul_of_one_le_left htolerance ?_
      exact_mod_cast Nat.le_add_left 1 _
    rw [takenIn_eq_takenFrom fun g hg => (hafter.past g hg).trans ht]
    linarith
  · rw [takenIn_snoc, timesIn_snoc, if_neg hin, if_neg hin, add_zero, add_zero]
    exact h s t hst

end Selfevals.Lib.TokenAccount
