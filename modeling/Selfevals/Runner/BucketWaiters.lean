import Selfevals.Lib.Run
import Selfevals.Lib.TokenAccount
import Selfevals.Runner.Throttle

/-!
# Those who wait at a token bucket

Any number of tasks acquire tokens from one bucket. A pass of `acquire` is made under the lock and
awaits nothing, so it is one step; between the passes the clock goes on, and a task that sleeps may
be woken at any time.
-/

namespace Selfevals.Runner.BucketWaiters

open Lib.Run Lib.TokenAccount Runner.Throttle Runner.Throttle.AsyncTokenBucket

/-! ### The system -/

/-- Where a task is in `acquire`, and what it asks for. -/
inductive Waiter
  | idle
  | trying (tokens : ℚ)
  | sleeping (tokens : ℚ)

def Waiter.asked : Waiter → ℚ
  | .idle => 0
  | .trying tokens | .sleeping tokens => tokens

/-- The bucket, the clock, the tasks, and what was granted so far, with the times. -/
structure State (ι : Type) where
  bucket : AsyncTokenBucket
  now : ℚ
  waiter : ι → Waiter := fun _ => .idle
  granted : List (ℚ × ℚ) := []

/-- What the waiters and the clock do. -/
inductive Op (ι : Type)
  | tick (now : ℚ)
  /-- A task calls `acquire`. -/
  | acquire (i : ι) (tokens : ℚ)
  | pass (i : ι)
  | wake (i : ι)
  /-- A task is cancelled where it waits. -/
  | cancel (i : ι)

section Step
variable {ι : Type} [DecidableEq ι]

def State.setWaiter (s : State ι) (i : ι) (waiter : Waiter) : State ι :=
  { s with waiter := Function.update s.waiter i waiter }

/-- One step of the bucket. -/
def step (s : State ι) : Op ι → Option (State ι)
  | .tick now => if s.now ≤ now then some { s with now } else none
  | .acquire i tokens =>
    match s.waiter i with
    | .idle => if 0 ≤ tokens then some (s.setWaiter i (.trying tokens)) else none
    | _ => none
  | .pass i =>
    match s.waiter i with
    | .trying tokens =>
      match s.bucket.pass tokens s.now with
      | (bucket, none) =>
        some (State.setWaiter { s with bucket, granted := s.granted ++ [(s.now, tokens)] } i .idle)
      | (bucket, some _) => some (State.setWaiter { s with bucket } i (.sleeping tokens))
    | _ => none
  | .wake i =>
    match s.waiter i with
    | .sleeping tokens => some (s.setWaiter i (.trying tokens))
    | _ => none
  | .cancel i => some (s.setWaiter i .idle)

/-! ### The invariant -/

/-- The bucket `b` is a balanced account of what it has granted, and is not overdrawn. -/
structure Inv (b : AsyncTokenBucket) (s : State ι) : Prop where
  rate : s.bucket.ratePerSec = b.ratePerSec
  capacity : s.bucket.capacity = b.capacity
  filled : s.bucket.Filled
  behind : s.bucket.updated ≤ s.now
  asked : ∀ i, 0 ≤ (s.waiter i).asked
  balanced : Balanced b.capacity b.ratePerSec s.granted s.bucket.tokens s.bucket.updated
  metered : Metered b.capacity b.ratePerSec epsilon s.granted

variable {b : AsyncTokenBucket} {s s' : State ι}

omit [DecidableEq ι] in
theorem inv_start {ratePerSec capacity start : ℚ} (hb : create ratePerSec capacity start = .ok b)
    (hstart : b.updated = start) : Inv b ({ bucket := b, now := start } : State ι) where
  rate := rfl
  capacity := rfl
  filled := filled_of_create hb
  behind := hstart.le
  asked _ := le_rfl
  balanced := balanced_start b.rate_pos.le (filled_of_create hb).2
  metered := metered_nil b.capacity_pos.le b.rate_pos.le

theorem asked_update (h : ∀ i, 0 ≤ (s.waiter i).asked) {i : ι} {waiter : Waiter}
    (hasked : 0 ≤ waiter.asked)
    (j : ι) : 0 ≤ (Function.update s.waiter i waiter j).asked := by
  by_cases hj : j = i
  · rw [hj, Function.update_self]
    exact hasked
  · rw [Function.update_of_ne hj]
    exact h j

theorem Inv.setWaiter (h : Inv b s) (i : ι) {waiter : Waiter} (hasked : 0 ≤ waiter.asked) :
    Inv b (s.setWaiter i waiter) :=
  { h with asked := asked_update h.asked hasked }

/-- **A pass**: the bucket fills, and grants what is asked for or nothing. -/
theorem Inv.pass (h : Inv b s) {i : ι} {tokens : ℚ} (hi : s.waiter i = .trying tokens) :
    ∃ s', step s (.pass i) = some s' ∧ Inv b s' := by
  have hasked : 0 ≤ tokens := by
    have hall := h.asked i
    rwa [hi] at hall
  have hcap := s.bucket.refilled_le_capacity s.now
  have hadded := s.bucket.refilled_le s.now
  have hrefilled := le_refilled h.filled h.behind
  have hlow := h.filled.1
  rw [h.rate] at hadded
  have hbalanced : Balanced b.capacity b.ratePerSec s.granted (s.bucket.refilled s.now) s.now :=
    h.balanced.refill b.rate_pos.le h.behind (h.capacity ▸ hcap) hadded
  simp only [step, hi]
  by_cases hgrant : tokens - epsilon ≤ s.bucket.refilled s.now
  · have hleft : -epsilon ≤ s.bucket.refilled s.now - tokens := by linarith
    simp only [AsyncTokenBucket.pass, if_pos hgrant]
    refine ⟨_, rfl, { h with
      rate := h.rate
      capacity := h.capacity
      filled := ⟨hleft, ?_⟩
      behind := le_rfl
      asked := asked_update h.asked le_rfl
      balanced := hbalanced.take hasked
      metered := h.metered.take hbalanced b.rate_pos.le epsilon_pos.le hasked hleft }⟩
    show s.bucket.refilled s.now - tokens ≤ s.bucket.capacity
    linarith
  · simp only [AsyncTokenBucket.pass, if_neg hgrant]
    exact ⟨_, rfl, { h with
      rate := h.rate
      capacity := h.capacity
      filled := ⟨hlow.trans hrefilled, hcap⟩
      behind := le_rfl
      asked := asked_update h.asked hasked
      balanced := hbalanced
      metered := h.metered }⟩

theorem inv_step {op : Op ι} (h : Inv b s) (hs : step s op = some s') : Inv b s' := by
  cases op with
  | tick now =>
    simp only [step] at hs
    split_ifs at hs with hnow
    obtain rfl := Option.some.inj hs
    exact { h with behind := h.behind.trans hnow }
  | acquire i tokens =>
    simp only [step] at hs
    split at hs
    · split_ifs at hs with hasked
      obtain rfl := Option.some.inj hs
      exact h.setWaiter i hasked
    · cases hs
  | pass i =>
    cases hi : s.waiter i with
    | trying tokens =>
      obtain ⟨t, ht, hinv⟩ := h.pass hi
      rwa [← Option.some.inj (ht.symm.trans hs)]
    | idle => simp [step, hi] at hs
    | sleeping tokens => simp [step, hi] at hs
  | wake i =>
    simp only [step] at hs
    split at hs
    · next tokens hi =>
      obtain rfl := Option.some.inj hs
      have hasked := h.asked i
      rw [hi] at hasked
      exact h.setWaiter i hasked
    · cases hs
  | cancel i =>
    obtain rfl := Option.some.inj hs
    exact h.setWaiter i le_rfl

/-- **The bucket meters what it grants**: whatever the tasks do and whenever they do it, the level
stays within bounds, and no window holds more than the capacity and what the rate adds, up to the
tolerance for each grant. -/
theorem acquire_metered {ratePerSec capacity start : ℚ}
    (hb : create ratePerSec capacity start = .ok b) {ops : List (Op ι)}
    (hrun : exec step { bucket := b, now := start } ops = some s) :
    (-epsilon ≤ s.bucket.tokens ∧ s.bucket.tokens ≤ capacity) ∧
      ∀ u v, u ≤ v → takenIn u v s.granted ≤
        capacity + ratePerSec * (v - u) + timesIn u v s.granted * epsilon := by
  have hcreated : b.ratePerSec = ratePerSec ∧ b.capacity = capacity ∧ b.updated = start := by
    unfold create at hb
    split_ifs at hb
    obtain rfl := Except.ok.inj hb
    exact ⟨rfl, rfl, rfl⟩
  obtain ⟨hrate, hcapacity, hstart⟩ := hcreated
  have hinv : Inv b s := inv_of_exec (fun _ _ _ => inv_step) (inv_start hb hstart) hrun
  have hfilled := hinv.filled
  unfold Filled at hfilled
  rw [hinv.capacity, hcapacity] at hfilled
  have hmetered := hinv.metered
  rw [hrate, hcapacity] at hmetered
  exact ⟨hfilled, hmetered⟩

end Step

/-- A bucket of one token, which it refills in a second. -/
def single : AsyncTokenBucket := ⟨1, 1, 1, 0, by norm_num, by norm_num⟩

/-- Two tasks ask for the token; the second waits for a second. -/
def contended : List (Op Bool) :=
  [.acquire false 1, .acquire true 1, .pass false, .pass true, .tick 1, .wake true, .pass true]

theorem contended_metered : ∃ s, exec step { bucket := single, now := 0 } contended = some s ∧
    (-epsilon ≤ s.bucket.tokens ∧ s.bucket.tokens ≤ 1) ∧
      ∀ u v, u ≤ v → takenIn u v s.granted ≤ 1 + 1 * (v - u) + timesIn u v s.granted * epsilon := by
  have hcreated : create 1 1 0 = .ok single := by
    rw [create, dif_pos one_pos, dif_pos one_pos]
    rfl
  obtain ⟨s, hs⟩ : ∃ s, exec step { bucket := single, now := 0 } contended = some s :=
    Option.isSome_iff_exists.mp (by decide +kernel)
  exact ⟨s, hs, acquire_metered hcreated hs⟩

end Selfevals.Runner.BucketWaiters
