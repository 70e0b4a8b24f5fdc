import Mathlib.Data.Rat.Defs
import Mathlib.Tactic.Linarith

/-!
# The in-process token bucket

`AsyncTokenBucket` refills at a rate up to its capacity. `acquire` makes passes over it, each under
the lock: a pass refills, and either takes a token or says how long to sleep before the next one.
What it lets through is bounded in Runner/BucketWaiters.
-/

namespace Selfevals.Runner.Throttle

/-! ### The bucket -/

/-- The tolerance of the comparison in `acquire`. -/
def epsilon : ℚ := 1 / 10 ^ 9

/-- `AsyncTokenBucket`. -/
structure AsyncTokenBucket where
  ratePerSec : ℚ
  capacity : ℚ
  tokens : ℚ
  updated : ℚ
  rate_pos : 0 < ratePerSec
  capacity_pos : 0 < capacity

namespace AsyncTokenBucket

/-- `AsyncTokenBucket(...)`, which raises a `ValueError`; a new bucket is full. -/
def create (ratePerSec capacity now : ℚ) : Except String AsyncTokenBucket :=
  if hrate : 0 < ratePerSec then
    if hcapacity : 0 < capacity then
      .ok ⟨ratePerSec, capacity, capacity, now, hrate, hcapacity⟩
    else .error "capacity must be > 0"
  else .error "rate_per_sec must be > 0"

/-- The tokens after the refill. -/
def refilled (b : AsyncTokenBucket) (now : ℚ) : ℚ :=
  min b.capacity (b.tokens + (now - b.updated) * b.ratePerSec)

/-- One pass of the loop of `acquire`: the bucket after it, and how long to sleep if it took no
tokens. -/
def pass (b : AsyncTokenBucket) (tokens now : ℚ) : AsyncTokenBucket × Option ℚ :=
  if tokens - epsilon ≤ b.refilled now then
    ({ b with tokens := b.refilled now - tokens, updated := now }, none)
  else
    ({ b with tokens := b.refilled now, updated := now },
      some ((tokens - b.refilled now) / b.ratePerSec))

/-- The level is between empty, up to the tolerance, and full. -/
def Filled (b : AsyncTokenBucket) : Prop := -epsilon ≤ b.tokens ∧ b.tokens ≤ b.capacity

variable {b : AsyncTokenBucket} {now : ℚ}

theorem epsilon_pos : 0 < epsilon := by norm_num [epsilon]

theorem filled_of_create {ratePerSec capacity now : ℚ}
    (h : create ratePerSec capacity now = .ok b) :
    b.Filled := by
  unfold create at h
  split_ifs at h with hrate hcapacity
  obtain rfl := Except.ok.inj h
  have := epsilon_pos
  refine ⟨?_, le_rfl⟩
  dsimp only
  linarith

theorem refilled_le_capacity (b : AsyncTokenBucket) (now : ℚ) : b.refilled now ≤ b.capacity :=
  min_le_left _ _

theorem refilled_le (b : AsyncTokenBucket) (now : ℚ) :
    b.refilled now ≤ b.tokens + b.ratePerSec * (now - b.updated) := by
  rw [mul_comm]
  exact min_le_right _ _

theorem le_refilled (h : b.Filled) (hnow : b.updated ≤ now) : b.tokens ≤ b.refilled now := by
  have hadds : 0 ≤ (now - b.updated) * b.ratePerSec :=
    mul_nonneg (sub_nonneg.mpr hnow) b.rate_pos.le
  exact le_min h.2 (by linarith)

end AsyncTokenBucket

end Selfevals.Runner.Throttle
