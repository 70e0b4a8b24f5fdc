import Mathlib.Tactic

/-!
# Rates over windows

Events are numbered, and `clock` reads the time of each. A set of events is within a rate if every
window `[s, t]` holds at most `burst + rate * (t - s)` of them.

Events may fall into parts (each event is dealt to one of several limiters), every part within the
rate by itself. `parts_withinRate_iff` says when that bounds the events as a whole, whatever the
clock: if there is only one part, or no more events than one burst.

* `WithinRate.mono` : fewer events are within the rate too;
-/

namespace Selfevals.Lib.RateWindow

variable {K : Type*} [Field K] [LinearOrder K] [IsStrictOrderedRing K]

/-- The events of a set in the window `[s, t]`. -/
def inWindow (clock : ℕ → K) (s t : K) (events : Finset ℕ) : Finset ℕ :=
  events.filter fun i => s ≤ clock i ∧ clock i ≤ t

/-- No window holds more events than a burst and what the rate adds over its length. -/
def WithinRate (burst rate : K) (clock : ℕ → K) (events : Finset ℕ) : Prop :=
  ∀ s t, s ≤ t → ((inWindow clock s t events).card : K) ≤ burst + rate * (t - s)

variable {burst rate : K} {clock : ℕ → K} {events events' : Finset ℕ}

omit [Field K] [IsStrictOrderedRing K] in
theorem mem_inWindow {s t : K} {i : ℕ} :
    i ∈ inWindow clock s t events ↔ i ∈ events ∧ s ≤ clock i ∧ clock i ≤ t := Finset.mem_filter

theorem WithinRate.mono (h : WithinRate burst rate clock events) (hsub : events' ⊆ events) :
    WithinRate burst rate clock events' := by
  intro s t hst
  have hcard : (inWindow clock s t events').card ≤ (inWindow clock s t events).card :=
    Finset.card_le_card (Finset.filter_subset_filter _ hsub)
  exact le_trans (Nat.cast_le.mpr hcard) (h s t hst)

theorem withinRate_of_card_le (hrate : 0 ≤ rate) (hcard : (events.card : K) ≤ burst) :
    WithinRate burst rate clock events := by
  intro s t hst
  have hle : ((inWindow clock s t events).card : K) ≤ events.card :=
    Nat.cast_le.mpr (Finset.card_filter_le _ _)
  have hpos : 0 ≤ rate * (t - s) := mul_nonneg hrate (sub_nonneg.mpr hst)
  linarith

/-! ### Clocks that step -/

section Slots
variable {slot : ℕ → ℕ} {n : ℕ}

/-- The clock that reads `n / rate` times the slot of an event. -/
def slotClock (rate : K) (n : ℕ) (slot : ℕ → ℕ) (i : ℕ) : K := (n / rate) * slot i

theorem slotClock_monotone (hrate : 0 < rate) (n : ℕ) (hslot : Monotone slot) :
    Monotone (slotClock rate n slot) := by
  intro i j hij
  have hle : (slot i : K) ≤ slot j := Nat.cast_le.mpr (hslot hij)
  exact mul_le_mul_of_nonneg_left hle (div_nonneg (Nat.cast_nonneg n) hrate.le)

theorem le_rate_mul_of_slot_lt (hrate : 0 < rate) {i j : ℕ} (hlt : slot i < slot j) {s t : K}
    (hs : s ≤ slotClock rate n slot i) (ht : slotClock rate n slot j ≤ t) :
    (n : K) ≤ rate * (t - s) := by
  have hstep : (1 : K) ≤ slot j - slot i := by
    have hsucc : ((slot i + 1 : ℕ) : K) ≤ slot j := Nat.cast_le.mpr hlt
    push_cast at hsucc
    linarith
  have hgap : (n / rate : K) * (slot j - slot i) ≤ t - s := by
    have hexpand : (n / rate : K) * (slot j - slot i) =
        slotClock rate n slot j - slotClock rate n slot i := by
      rw [slotClock, slotClock, mul_sub]
    linarith
  calc (n : K) = rate * (n / rate * 1) := by field_simp
    _ ≤ rate * (n / rate * (slot j - slot i)) := by gcongr
    _ ≤ rate * (t - s) := mul_le_mul_of_nonneg_left hgap hrate.le

/-- **Under a clock that steps**, the rate is a bound on the events of one slot. -/
theorem slotted_withinRate_iff (hrate : 0 < rate) (hburst : 0 ≤ burst) (hn : events.card ≤ n) :
    WithinRate burst rate (slotClock rate n slot) events ↔
      ∀ v, ((events.filter fun i => slot i = v).card : K) ≤ burst := by
  constructor
  · intro h v
    have hwindow := h ((n / rate) * v) ((n / rate) * v) le_rfl
    rw [sub_self, mul_zero, add_zero] at hwindow
    refine le_trans (Nat.cast_le.mpr (Finset.card_le_card fun i hi => ?_)) hwindow
    obtain ⟨hmem, hv⟩ := Finset.mem_filter.mp hi
    exact mem_inWindow.mpr ⟨hmem, by rw [slotClock, hv], by rw [slotClock, hv]⟩
  · intro h s t hst
    have hadds : 0 ≤ rate * (t - s) := mul_nonneg hrate.le (sub_nonneg.mpr hst)
    by_cases hspread : ∃ i ∈ inWindow (slotClock rate n slot) s t events,
        ∃ j ∈ inWindow (slotClock rate n slot) s t events, slot i < slot j
    · -- two slots in the window: its length alone allows every event
      obtain ⟨i, hi, j, hj, hlt⟩ := hspread
      have hlong := le_rate_mul_of_slot_lt (n := n) hrate hlt (mem_inWindow.mp hi).2.1
        (mem_inWindow.mp hj).2.2
      have hcard : ((inWindow (slotClock rate n slot) s t events).card : K) ≤ n :=
        Nat.cast_le.mpr ((Finset.card_filter_le _ _).trans hn)
      linarith
    · push Not at hspread
      rcases (inWindow (slotClock rate n slot) s t events).eq_empty_or_nonempty with hempty | ⟨i,
        hi⟩
      · rw [hempty, Finset.card_empty, Nat.cast_zero]
        linarith
      · have hsub : inWindow (slotClock rate n slot) s t events ⊆
            events.filter fun j => slot j = slot i := by
          intro j hj
          exact Finset.mem_filter.mpr
            ⟨(mem_inWindow.mp hj).1, le_antisymm (hspread i hi j hj) (hspread j hj i hi)⟩
        have hcard : ((inWindow (slotClock rate n slot) s t events).card : K) ≤
            (events.filter fun j => slot j = slot i).card :=
          Nat.cast_le.mpr (Finset.card_le_card hsub)
        linarith [h (slot i)]

end Slots

/-! ### Parts -/

section Parts
variable {β : Type*} [DecidableEq β] {part : ℕ → β} {n : ℕ}

/-- The first `n` events that fall into a part. -/
def partOf (part : ℕ → β) (n : ℕ) (b : β) : Finset ℕ := (Finset.range n).filter fun i => part i = b

/-- All events fall into one part. -/
def OnePart (part : ℕ → β) (n : ℕ) : Prop := ∀ i < n, ∀ j < n, part i = part j

omit [DecidableEq β] in
theorem exists_next_ne (h : ¬OnePart part n) : ∃ i, i + 1 < n ∧ part i ≠ part (i + 1) := by
  by_contra hall
  push Not at hall
  have hfirst : ∀ i, i < n → part i = part 0 := by
    intro i
    induction i with
    | zero => exact fun _ => rfl
    | succ i ih => exact fun hi => (hall i hi).symm.trans (ih (by omega))
  exact h fun i hi j hj => (hfirst i hi).trans (hfirst j hj).symm

/-- The slot of an event when the `m` events from the `k`-th on come at one instant. -/
def burstSlot (k m i : ℕ) : ℕ := if k ≤ i ∧ i < k + m then k else i

theorem burstSlot_monotone (k m : ℕ) : Monotone (burstSlot k m) := by
  intro i j hij
  unfold burstSlot
  split_ifs <;> omega

theorem burstSlot_eq_iff {k m i : ℕ} (hm : 0 < m) : burstSlot k m i = k ↔ k ≤ i ∧ i < k + m := by
  unfold burstSlot
  split_ifs with h
  · exact ⟨fun _ => h, fun _ => rfl⟩
  · constructor
    · rintro rfl
      omega
    · exact fun h' => absurd h' h

theorem eq_of_burstSlot {k m i v : ℕ} (hv : v ≠ k) (h : burstSlot k m i = v) : i = v := by
  unfold burstSlot at h
  split_ifs at h
  · exact absurd h.symm hv
  · exact h

/-- When one burst and one event more come at once, and not all of one part, then every part is
still within the rate. -/
theorem partOf_withinRate (hrate : 0 < rate) (hburst : 1 ≤ burst) {k m i : ℕ}
    (hkm : k + m ≤ n) (hm : ((m - 1 : ℕ) : K) ≤ burst) (hi : k ≤ i) (hi' : i + 1 < k + m)
    (hne : part i ≠ part (i + 1)) (b : β) :
    WithinRate burst rate (slotClock rate n (burstSlot k m)) (partOf part n b) := by
  have hcard : (partOf part n b).card ≤ n :=
    (Finset.card_filter_le _ _).trans (le_of_eq (Finset.card_range n))
  rw [slotted_withinRate_iff hrate (by linarith) hcard]
  intro v
  by_cases hv : v = k
  · subst hv
    -- one of the two events is of another part
    obtain ⟨j, hj, hj', hjb⟩ : ∃ j, v ≤ j ∧ j < v + m ∧ part j ≠ b := by
      by_cases hb : part i = b
      · exact ⟨i + 1, by omega, hi', fun h => hne (hb.trans h.symm)⟩
      · exact ⟨i, hi, by omega, hb⟩
    have hsub : ((partOf part n b).filter fun i => burstSlot v m i = v) ⊆
        (Finset.Ico v (v + m)).erase j := by
      intro i hi
      obtain ⟨hpart, hslot⟩ := Finset.mem_filter.mp hi
      rw [burstSlot_eq_iff (by omega)] at hslot
      refine Finset.mem_erase.mpr ⟨?_, Finset.mem_Ico.mpr hslot⟩
      rintro rfl
      exact hjb (Finset.mem_filter.mp hpart).2
    have hle := Finset.card_le_card hsub
    rw [Finset.card_erase_of_mem (Finset.mem_Ico.mpr ⟨hj, hj'⟩), Nat.card_Ico,
      Nat.add_sub_cancel_left] at hle
    exact le_trans (Nat.cast_le.mpr hle) hm
  · have hsub : ((partOf part n b).filter fun i => burstSlot k m i = v) ⊆ {v} := by
      intro i hi
      exact Finset.mem_singleton.mpr (eq_of_burstSlot hv (Finset.mem_filter.mp hi).2)
    have hle := Finset.card_le_card hsub
    rw [Finset.card_singleton] at hle
    exact le_trans (by exact_mod_cast hle) hburst

theorem not_withinRate_burst (hrate : 0 < rate) (hburst : 0 ≤ burst) {k m : ℕ} (hkm : k + m ≤ n)
    (hpos : 0 < m) (hm : burst < m) :
    ¬WithinRate burst rate (slotClock rate n (burstSlot k m)) (Finset.range n) := by
  rw [slotted_withinRate_iff hrate hburst (le_of_eq (Finset.card_range n))]
  intro h
  have hsub : Finset.Ico k (k + m) ⊆ (Finset.range n).filter fun i => burstSlot k m i = k := by
    intro i hi
    have hmem := Finset.mem_Ico.mp hi
    exact Finset.mem_filter.mpr
      ⟨Finset.mem_range.mpr (by omega), (burstSlot_eq_iff hpos).mpr hmem⟩
  have hle := Finset.card_le_card hsub
  rw [Nat.card_Ico, Nat.add_sub_cancel_left] at hle
  have hcast : (m : K) ≤ ((Finset.range n).filter fun i => burstSlot k m i = k).card :=
    Nat.cast_le.mpr hle
  linarith [h k]

/-- **Parts within the rate keep the whole within it**, under every clock, if and only if there is
one part, or there are no more events than a burst. -/
theorem parts_withinRate_iff (hrate : 0 < rate) (hburst : 1 ≤ burst) :
    (∀ clock : ℕ → K, Monotone clock → (∀ b, WithinRate burst rate clock (partOf part n b)) →
        WithinRate burst rate clock (Finset.range n)) ↔
      OnePart part n ∨ (n : K) ≤ burst := by
  constructor
  · intro h
    by_contra hnot
    push Not at hnot
    obtain ⟨hparts, hlong⟩ := hnot
    obtain ⟨i, hin, hne⟩ := exists_next_ne hparts
    -- the fewest events that are more than a burst
    have hex : ∃ m : ℕ, burst < m := ⟨n, hlong⟩
    obtain ⟨m, hm, hmin⟩ : ∃ m : ℕ, burst < m ∧ ∀ m' < m, (m' : K) ≤ burst :=
      ⟨Nat.find hex, Nat.find_spec hex, fun m' hm' => not_lt.mp (Nat.find_min hex hm')⟩
    have hmn : m ≤ n := by
      by_contra hgt
      exact absurd (hmin n (by omega)) (not_le.mpr hlong)
    have hm2 : 2 ≤ m := by
      have hone : ((1 : ℕ) : K) < m := by
        rw [Nat.cast_one]
        exact lt_of_le_of_lt hburst hm
      exact Nat.cast_lt.mp hone
    have hkm : min i (n - m) + m ≤ n := by omega
    refine not_withinRate_burst hrate (by linarith) hkm (by omega) hm
      (h _ (slotClock_monotone hrate n (burstSlot_monotone _ m)) fun b => ?_)
    exact partOf_withinRate hrate hburst hkm (hmin _ (by omega)) (by omega) (by omega) hne b
  · rintro (hone | hshort) clock - hpart
    · rcases Nat.eq_zero_or_pos n with rfl | hpos
      · exact (hpart (part 0)).mono (by simp)
      · refine (hpart (part 0)).mono fun i hi => ?_
        exact Finset.mem_filter.mpr ⟨hi, hone i (Finset.mem_range.mp hi) 0 hpos⟩
    · exact withinRate_of_card_le hrate.le (by rwa [Finset.card_range])

end Parts

end Selfevals.Lib.RateWindow
