import Selfevals.Runner.LaunchAdapters
import Selfevals.Runner.Throttle

/-!
# The token bucket in Redis

The processes of a fleet share a bucket that is a hash in Redis, with a level and the time it was
filled up to. A script runs for each attempt of an `acquire`: it reads the clock of the server,
fills the bucket, takes the tokens or says how long to wait, and stores the level with its own
reading, also where the clock has gone back. The hash expires when it is not used for a while; a
bucket without a hash is full.

* `step` is the system of the processes, the server and its clock;
-/

namespace Selfevals.Runner.RedisThrottle

open Lib.Run Schemas.Experiments Runner.LaunchAdapters Runner.Throttle

/-! ### The script -/

/-- `KEYS[1]`. -/
structure BucketHash where
  tokens : ℚ
  /-- The server's time in milliseconds. -/
  ts : ℤ
deriving DecidableEq, Repr

/-- `RedisTokenBucket`. -/
structure RedisTokenBucket where
  ratePerSec : ℚ
  capacity : ℚ
  keyTtlSeconds : ℤ
  rate_pos : 0 < ratePerSec
  capacity_pos : 0 < capacity

/-- `redis.call('TIME')`. -/
structure ServerTime where
  seconds : ℕ
  micros : ℕ

/-- The time in milliseconds. -/
def ServerTime.ms (t : ServerTime) : ℤ := t.seconds * 1000 + t.micros / 1000

namespace RedisTokenBucket

/-- `RedisTokenBucket(...)`, which raises a `ValueError`. -/
def create (ratePerSec capacity : ℚ) (keyTtlSeconds : ℤ) : Except String RedisTokenBucket :=
  if hrate : 0 < ratePerSec then
    if hcapacity : 0 < capacity then .ok ⟨ratePerSec, capacity, keyTtlSeconds, hrate, hcapacity⟩
    else .error "capacity must be > 0"
  else .error "rate_per_sec must be > 0"

variable (b : RedisTokenBucket)

/-- The level after the refill. -/
def refilled (data : Option BucketHash) (now : ℤ) : ℚ :=
  let (tokens, lastMs) := (data.map fun d => (d.tokens, d.ts)).getD (b.capacity, now)
  let elapsed : ℚ := (now - lastMs : ℤ) / 1000
  let elapsed := if elapsed < 0 then 0 else elapsed
  min b.capacity (tokens + elapsed * b.ratePerSec)

/-- `_TOKEN_BUCKET_LUA`: what is stored, and the milliseconds to wait. -/
def script (data : Option BucketHash) (now : ℤ) (requested : ℚ) : BucketHash × ℤ :=
  let tokens := b.refilled data now
  if requested - epsilon ≤ tokens then (⟨tokens - requested, now⟩, 0)
  else (⟨tokens, now⟩, ⌈(requested - tokens) / b.ratePerSec * 1000⌉)

/-- The hash as the script finds it. -/
def found (hash : Option BucketHash) (now : ℤ) : Option BucketHash :=
  hash.filter fun d => now ≤ d.ts + b.keyTtlSeconds * 1000

/-- The hash once its expiry is set; Redis deletes it at once if the time is not positive. -/
def stored (d : BucketHash) : Option BucketHash := if 0 < b.keyTtlSeconds then some d else none

variable {b}

theorem of_create {ratePerSec capacity : ℚ} {keyTtlSeconds : ℤ}
    (h : create ratePerSec capacity keyTtlSeconds = .ok b) :
    b.ratePerSec = ratePerSec ∧ b.capacity = capacity ∧ b.keyTtlSeconds = keyTtlSeconds := by
  unfold create at h
  split_ifs at h
  obtain rfl := Except.ok.inj h
  exact ⟨rfl, rfl, rfl⟩

theorem refilled_none (now : ℤ) : b.refilled none now = b.capacity := by
  unfold refilled
  simp

theorem refilled_some (d : BucketHash) (now : ℤ) : b.refilled (some d) now =
    min b.capacity (d.tokens + max 0 (((now - d.ts : ℤ) : ℚ) / 1000) * b.ratePerSec) := by
  unfold refilled
  dsimp only [Option.map_some, Option.getD_some]
  congr 3
  split_ifs with h
  · exact (max_eq_left h.le).symm
  · exact (max_eq_right (not_lt.mp h)).symm

theorem hash_of_found {hash : Option BucketHash} {now : ℤ} {d : BucketHash}
    (h : b.found hash now = some d) : hash = some d := by
  obtain ⟨h, -⟩ := Option.filter_eq_some_iff.mp h
  exact h

end RedisTokenBucket

open RedisTokenBucket

/-! ### The system -/

/-- `_MAX_ACQUIRE_ATTEMPTS`. -/
def maxAcquireAttempts : ℕ := 10000

/-- Where a process is in `acquire`: what it asks for, and the attempts it has left. -/
inductive Caller
  | idle
  | trying (tokens : ℚ) (attempts : ℕ)
  | sleeping (tokens : ℚ) (attempts : ℕ)

def Caller.asked : Caller → ℚ
  | .idle => 0
  | .trying tokens _ | .sleeping tokens _ => tokens

/-- The readings of the clock that the executions made: the first, the largest and the last. -/
structure Readings where
  first : ℤ
  largest : ℤ
  last : ℤ

def Readings.next (readings : Option Readings) (now : ℤ) : Readings :=
  match readings with
  | none => ⟨now, now, now⟩
  | some r => ⟨r.first, max r.largest now, now⟩

/-- The hash and the processes; the readings and the tokens that were granted are history. -/
structure State (ι : Type) where
  hash : Option BucketHash := none
  caller : ι → Caller := fun _ => .idle
  readings : Option Readings := none
  granted : ℚ := 0

/-- What callers, Redis and its clock do. -/
inductive Op (ι : Type)
  /-- A process calls `acquire`. -/
  | acquire (i : ι) (tokens : ℚ)
  /-- The script is executed for a process, which may not get the reply. -/
  | eval (i : ι) (time : ServerTime) (replied : Bool)
  /-- A process cannot reach Redis. -/
  | fail (i : ι)
  | wake (i : ι)
  /-- A process dies, or its call is cancelled. -/
  | die (i : ι)
  /-- Redis deletes the hash, which has expired. -/
  | expire (time : ServerTime)

section Step
variable {ι : Type} (b : RedisTokenBucket)

/-- The script is executed. -/
def execute (s : State ι) (now : ℤ) (requested : ℚ) : State ι × ℤ :=
  let (hash, waitMs) := b.script (b.found s.hash now) now requested
  ({ s with
      hash := b.stored hash
      readings := some (.next s.readings now)
      granted := if waitMs ≤ 0 then s.granted + requested else s.granted }, waitMs)

variable [DecidableEq ι]

def State.setCaller (s : State ι) (i : ι) (caller : Caller) : State ι :=
  { s with caller := Function.update s.caller i caller }

/-- The process after an attempt: it has its tokens, or sleeps; after the last attempt it goes on.
-/
def afterAttempt (tokens : ℚ) (attempts : ℕ) (waitMs : ℤ) : Caller :=
  if waitMs ≤ 0 ∨ attempts = 0 then .idle else .sleeping tokens attempts

/-- One step of the bucket. -/
def step (s : State ι) : Op ι → Option (State ι)
  | .acquire i tokens =>
    match s.caller i with
    | .idle => if 0 ≤ tokens then some (s.setCaller i (.trying tokens maxAcquireAttempts)) else none
    | _ => none
  | .eval i time replied =>
    match s.caller i with
    | .trying tokens (attempts + 1) =>
      let (s, waitMs) := execute b s time.ms tokens
      -- without the reply the call fails, and lets the request through or raises
      some (s.setCaller i (if replied then afterAttempt tokens attempts waitMs else .idle))
    | _ => none
  | .fail i =>
    match s.caller i with
    | .trying _ _ => some (s.setCaller i .idle)
    | _ => none
  | .wake i =>
    match s.caller i with
    | .sleeping tokens attempts => some (s.setCaller i (.trying tokens attempts))
    | _ => none
  | .die i => some (s.setCaller i .idle)
  | .expire time => some { s with hash := b.found s.hash time.ms }

end Step

/-! ### The bound and the condition -/

section Law
variable {ι : Type} (b : RedisTokenBucket)

/-- The tokens granted since the first execution are bounded by the capacity and what the rate adds
up to the largest reading. -/
def Bounded (s : State ι) : Prop :=
  ∀ r ∈ s.readings, s.granted ≤ b.capacity + b.ratePerSec * ((r.largest - r.first : ℤ) / 1000)

/-- The script makes no use of the tolerance. -/
def Exact (s : State ι) : Op ι → Prop
  | .eval i time _ => ∀ tokens attempts, s.caller i = .trying tokens attempts →
      tokens - epsilon ≤ b.refilled (b.found s.hash time.ms) time.ms →
        tokens ≤ b.refilled (b.found s.hash time.ms) time.ms
  | _ => True

/-- What the script adds was not added before: a reading that is later than the one before it is
later than all, and a bucket is only found anew, after its expiry, when it would be full. -/
def Counted (s : State ι) : Op ι → Prop
  | .eval _ time _ => ∀ r ∈ s.readings, (r.last < time.ms → r.last = r.largest) ∧
      (b.found s.hash time.ms = none →
        r.last = r.largest ∧ r.last + b.keyTtlSeconds * 1000 ≤ time.ms ∧
        b.capacity ≤ b.ratePerSec * b.keyTtlSeconds)
  | _ => True

instance (s : State ι) (op : Op ι) : Decidable (Counted b s op) := by
  cases op <;> unfold Counted <;> infer_instance

def Sound (s : State ι) (op : Op ι) : Prop := Exact b s op ∧ Counted b s op

/-! ### The invariant -/

/-- What was granted and what is left of it, by the largest reading; a bucket without a hash holds
nothing of it. -/
structure Inv (s : State ι) : Prop where
  asked : ∀ i, 0 ≤ (s.caller i).asked
  fresh : s.readings = none → s.hash = none ∧ s.granted = 0
  first_le : ∀ r ∈ s.readings, r.first ≤ r.largest
  hash : ∀ d ∈ s.hash, 0 ≤ d.tokens ∧ d.tokens ≤ b.capacity ∧ ∀ r ∈ s.readings, d.ts = r.last
  spent : ∀ r ∈ s.readings, s.granted + (s.hash.map (·.tokens)).getD 0 ≤
    b.capacity + b.ratePerSec * ((r.largest - r.first : ℤ) / 1000)

variable {b} {s s' : State ι}

theorem inv_init : Inv b ({} : State ι) where
  asked _ := le_rfl
  fresh _ := ⟨rfl, rfl⟩
  first_le r h := by cases h
  hash d h := by cases h
  spent r h := by cases h

theorem Inv.bounded (h : Inv b s) : Bounded b s := by
  intro r hr
  have hspent := h.spent r hr
  have hleft : 0 ≤ (s.hash.map (·.tokens)).getD 0 := by
    cases hd : s.hash with
    | none => exact le_rfl
    | some d => exact (h.hash d hd).1
  linarith

/-- **The refill**: the level after it and what was granted, by the largest reading. -/
theorem spent_refilled {now : ℤ} (h : Inv b s) (hcounted : ∀ r ∈ s.readings,
    (r.last < now → r.last = r.largest) ∧
      (b.found s.hash now = none → r.last = r.largest ∧ r.last + b.keyTtlSeconds * 1000 ≤ now ∧
        b.capacity ≤ b.ratePerSec * b.keyTtlSeconds)) :
    0 ≤ b.refilled (b.found s.hash now) now ∧ b.refilled (b.found s.hash now) now ≤ b.capacity ∧
      s.granted + b.refilled (b.found s.hash now) now ≤ b.capacity + b.ratePerSec *
        (((Readings.next s.readings now).largest - (Readings.next s.readings now).first : ℤ) /
          1000) := by
  have hrate := b.rate_pos
  have hcap := b.capacity_pos
  cases hr : s.readings with
  | none =>
    obtain ⟨hhash, hgranted⟩ := h.fresh hr
    have hfound : b.found s.hash now = none := by rw [hhash]; rfl
    rw [hfound, refilled_none, hgranted]
    simp [Readings.next, hcap.le]
  | some r =>
    have hspent := h.spent r hr
    obtain ⟨hlater, hanew⟩ := hcounted r hr
    have hmax : ((max r.largest now : ℤ) : ℚ) = max (r.largest : ℚ) now := Int.cast_max
    simp only [Readings.next, Int.cast_sub, hmax]
    push_cast at hspent
    have hsplit : b.ratePerSec * ((max (r.largest : ℚ) now - r.first) / 1000) =
        b.ratePerSec * ((r.largest - r.first) / 1000) +
          b.ratePerSec * ((max (r.largest : ℚ) now - r.largest) / 1000) := by ring
    rw [hsplit]
    cases hfound : b.found s.hash now with
    | none =>
      obtain ⟨hlast, hexpired, hfull⟩ := hanew hfound
      have hleft : 0 ≤ (s.hash.map (·.tokens)).getD 0 := by
        cases hd : s.hash with
        | none => exact le_rfl
        | some d => exact (h.hash d hd).1
      rw [refilled_none]
      have hadds : b.ratePerSec * b.keyTtlSeconds ≤
          b.ratePerSec * ((max (r.largest : ℚ) now - r.largest) / 1000) := by
        refine mul_le_mul_of_nonneg_left ?_ hrate.le
        rw [hlast] at hexpired
        have hexpired' : (r.largest : ℚ) + b.keyTtlSeconds * 1000 ≤ now := by
          exact_mod_cast hexpired
        have hnow := le_max_right (r.largest : ℚ) now
        linarith
      exact ⟨hcap.le, le_rfl, by linarith⟩
    | some d =>
      obtain ⟨htokens, hle, hts⟩ := h.hash d (hash_of_found hfound)
      rw [hash_of_found hfound, Option.map_some, Option.getD_some] at hspent
      rw [refilled_some, hts r hr]
      -- what is added is not more than from the largest reading on
      have helapsed :
        max 0 (((now - r.last : ℤ) : ℚ) / 1000) ≤ (max (r.largest : ℚ) now - r.largest) / 1000 := by
        have hlargest := le_max_left (r.largest : ℚ) now
        have hnow := le_max_right (r.largest : ℚ) now
        refine max_le (by linarith) ?_
        push_cast
        by_cases hbefore : r.last < now
        · rw [hlater hbefore]
          linarith
        · have hback : (now : ℚ) ≤ r.last := by exact_mod_cast not_lt.mp hbefore
          linarith
      have hadds := mul_le_mul_of_nonneg_left helapsed hrate.le
      have hadded : 0 ≤ max 0 (((now - r.last : ℤ) : ℚ) / 1000) * b.ratePerSec :=
        mul_nonneg (le_max_left _ _) hrate.le
      refine ⟨le_min hcap.le (by linarith), min_le_left _ _, ?_⟩
      have hlevel := min_le_right b.capacity
        (d.tokens + max 0 (((now - r.last : ℤ) : ℚ) / 1000) * b.ratePerSec)
      linarith

theorem Inv.store (h : Inv b s) {now : ℤ} {tokens granted : ℚ} (hpos : 0 ≤ tokens)
    (hle : tokens ≤ b.capacity)
    (hspent : granted + tokens ≤ b.capacity + b.ratePerSec *
      (((Readings.next s.readings now).largest - (Readings.next s.readings now).first : ℤ) /
        1000)) :
    Inv b { s with
      hash := b.stored ⟨tokens, now⟩, readings := some (.next s.readings now), granted :=
        granted } where
  asked := h.asked
  fresh hnone := by cases hnone
  first_le r hr := by
    obtain rfl := Option.some.inj hr
    cases hs : s.readings with
    | none => exact le_rfl
    | some r => exact (h.first_le r hs).trans (le_max_left _ _)
  hash d hd := by
    unfold stored at hd
    split_ifs at hd
    · obtain rfl := Option.some.inj hd
      refine ⟨hpos, hle, fun r hr => ?_⟩
      obtain rfl := Option.some.inj hr
      cases s.readings <;> rfl
    · cases hd
  spent r hr := by
    obtain rfl := Option.some.inj hr
    have hleft : ((b.stored ⟨tokens, now⟩).map (·.tokens)).getD 0 ≤ tokens := by
      unfold stored
      split_ifs
      · exact le_rfl
      · exact hpos
    linarith

/-- **The script keeps the account.** -/
theorem Inv.execute (h : Inv b s) {now : ℤ} {requested : ℚ} (hrequested : 0 ≤ requested)
    (hexact : requested - epsilon ≤ b.refilled (b.found s.hash now) now →
      requested ≤ b.refilled (b.found s.hash now) now)
    (hcounted : ∀ r ∈ s.readings, (r.last < now → r.last = r.largest) ∧
      (b.found s.hash now = none → r.last = r.largest ∧ r.last + b.keyTtlSeconds * 1000 ≤ now ∧
        b.capacity ≤ b.ratePerSec * b.keyTtlSeconds)) :
    Inv b (execute b s now requested).1 := by
  obtain ⟨hpos, hle, hspent⟩ := spent_refilled h hcounted
  by_cases hgrant : requested - epsilon ≤ b.refilled (b.found s.hash now) now
  · have hlevel := hexact hgrant
    simp only [RedisThrottle.execute, script, if_pos hgrant, le_refl, if_true]
    exact h.store (by linarith) (by linarith) (by linarith)
  · have hwait :
      ¬⌈(requested - b.refilled (b.found s.hash now) now) / b.ratePerSec * 1000⌉ ≤ 0 := by
      have hdeficit : 0 < requested - b.refilled (b.found s.hash now) now := by
        have htolerance := AsyncTokenBucket.epsilon_pos
        linarith
      have hrate := b.rate_pos
      rw [not_le, Int.ceil_pos]
      positivity
    simp only [RedisThrottle.execute, script, if_neg hgrant, if_neg hwait]
    exact h.store hpos hle hspent

end Law

section Steps
variable {ι : Type} [DecidableEq ι] {b : RedisTokenBucket} {s s' : State ι}

theorem Inv.setCaller (h : Inv b s) (i : ι) {caller : Caller} (hcaller : 0 ≤ caller.asked) :
    Inv b (s.setCaller i caller) := by
  refine { h with asked := fun j => ?_ }
  show 0 ≤ (Function.update s.caller i caller j).asked
  by_cases heq : j = i
  · rw [heq, Function.update_self]
    exact hcaller
  · rw [Function.update_of_ne heq]
    exact h.asked j

omit [DecidableEq ι] in
theorem Inv.expire (h : Inv b s) (now : ℤ) : Inv b { s with hash := b.found s.hash now } where
  asked := h.asked
  fresh hnone := by
    obtain ⟨hhash, hgranted⟩ := h.fresh hnone
    exact ⟨by rw [hhash]; rfl, hgranted⟩
  first_le := h.first_le
  hash d hd := h.hash d (hash_of_found hd)
  spent r hr := by
    have hspent := h.spent r hr
    cases hd : b.found s.hash now with
    | none =>
      have hbounded := h.bounded r hr
      rwa [Option.map_none, Option.getD_none, add_zero]
    | some d => rwa [hash_of_found hd] at hspent

/-- What a step does: a process comes with a request, goes on with the one it has, or has the script
executed for it; or the hash expires. -/
inductive Stepped (b : RedisTokenBucket) (s : State ι) : Op ι → State ι → Prop
  | acquire {i tokens} (hasked : 0 ≤ tokens) :
      Stepped b s (.acquire i tokens) (s.setCaller i (.trying tokens maxAcquireAttempts))
  | caller {op i caller} (hcaller : caller = .idle ∨
    s.caller i ≠ .idle ∧ caller.asked = (s.caller i).asked) :
      Stepped b s op (s.setCaller i caller)
  | eval {i time replied tokens attempts caller} (hi : s.caller i = .trying tokens attempts)
      (hcaller : caller = .idle ∨ caller.asked = tokens) :
      Stepped b s (.eval i time replied) ((execute b s time.ms tokens).1.setCaller i caller)
  | expire {time} : Stepped b s (.expire time) { s with hash := b.found s.hash time.ms }

theorem stepped_of_step {op : Op ι} (hs : step b s op = some s') : Stepped b s op s' := by
  cases op with
  | acquire i tokens =>
    simp only [step] at hs
    split at hs
    · split_ifs at hs with hasked
      obtain rfl := Option.some.inj hs
      exact .acquire hasked
    · cases hs
  | eval i time replied =>
    simp only [step] at hs
    split at hs
    · next tokens attempts hi =>
      obtain rfl := Option.some.inj hs
      refine .eval hi ?_
      unfold afterAttempt
      split_ifs
      · exact .inl rfl
      · exact .inr rfl
      · exact .inl rfl
    · cases hs
  | fail i =>
    simp only [step] at hs
    split at hs
    · obtain rfl := Option.some.inj hs
      exact .caller (.inl rfl)
    · cases hs
  | wake i =>
    simp only [step] at hs
    split at hs
    · next tokens attempts hi =>
      obtain rfl := Option.some.inj hs
      refine .caller (.inr ?_)
      rw [hi]
      exact ⟨Caller.noConfusion, rfl⟩
    · cases hs
  | die i =>
    obtain rfl := Option.some.inj hs
    exact .caller (.inl rfl)
  | expire time =>
    obtain rfl := Option.some.inj hs
    exact .expire

theorem inv_step {op : Op ι} (h : Inv b s) (hsound : Sound b s op) (hs : step b s op = some s') :
    Inv b s' := by
  obtain ⟨hexact, hcounted⟩ := hsound
  cases stepped_of_step hs with
  | acquire hasked => exact h.setCaller _ hasked
  | @caller _ i _ hcaller =>
    refine h.setCaller i ?_
    obtain rfl | ⟨-, heq⟩ := hcaller
    · exact le_rfl
    · rw [heq]
      exact h.asked i
  | @eval i _ _ tokens attempts caller hi hcaller =>
    have hasked := h.asked i
    rw [hi] at hasked
    refine (h.execute hasked (hexact tokens attempts hi) hcounted).setCaller i ?_
    obtain rfl | heq := hcaller
    · exact le_rfl
    · rw [heq]
      exact hasked
  | expire => exact h.expire _

/-- **What is granted is bounded** in every run whose script executions make no use of the tolerance
and count no time twice. -/
theorem granted_bounded (b : RedisTokenBucket) {ops : List (Op ι)} {s : State ι}
    (hrun : exec (step b) {} ops = some s) (hsound : Guarded (step b) (Sound b) {} ops) :
    Bounded b s :=
  Inv.bounded (inv_of_guarded (fun _ _ _ => inv_step) inv_init hsound hrun)

/-! ### The buckets of a run's rate limit -/

/-- A whole number of what one request a minute adds in a millisecond. -/
def OnGrid (x : ℚ) : Prop := ∃ z : ℤ, x * 60000 = z

theorem OnGrid.min {x y : ℚ} (hx : OnGrid x) (hy : OnGrid y) : OnGrid (min x y) := by
  obtain h | h := min_choice x y
  · rwa [h]
  · rwa [h]

theorem OnGrid.max {x y : ℚ} (hx : OnGrid x) (hy : OnGrid y) : OnGrid (max x y) := by
  obtain h | h := max_choice x y
  · rwa [h]
  · rwa [h]

theorem OnGrid.sub_one {x : ℚ} (hx : OnGrid x) : OnGrid (x - 1) := by
  obtain ⟨z, hz⟩ := hx
  exact ⟨z - 60000, by push_cast; linarith⟩

theorem OnGrid.exact {x : ℚ} (hx : OnGrid x) (h : 1 - epsilon ≤ x) : 1 ≤ x := by
  obtain ⟨z, hz⟩ := hx
  unfold epsilon at h
  have hlt : (59999 : ℚ) < z := by linarith
  have hle : (60000 : ℤ) ≤ z := by exact_mod_cast hlt
  have hle' : (60000 : ℚ) ≤ z := by exact_mod_cast hle
  linarith

theorem onGrid_capacityOf (limit : RateLimitSpec) (rpm : ℕ) : OnGrid (capacityOf limit rpm) := by
  have hsecond : OnGrid (max 1 ((rpm : ℚ) / 60)) :=
    OnGrid.max ⟨60000, by norm_num⟩ ⟨rpm * 1000, by push_cast; ring⟩
  unfold capacityOf
  split
  · next burst _ =>
    split_ifs
    · exact ⟨burst * 60000, by push_cast; ring⟩
    · exact hsecond
  · exact hsecond

/-- The bucket that is built for a limit of requests per minute. -/
def RedisTokenBucket.OfLimit (b : RedisTokenBucket) (limit : RateLimitSpec) (rpm : ℕ) : Prop :=
  create (rpm / 60) (capacityOf limit rpm) 3600 = .ok b

section Limit
variable {limit : RateLimitSpec} {rpm : ℕ} (hb : b.OfLimit limit rpm)
include hb

theorem onGrid_refilled {data : Option BucketHash} (hdata : ∀ d ∈ data, OnGrid d.tokens) (now : ℤ) :
    OnGrid (b.refilled data now) := by
  obtain ⟨hrate, hcap, -⟩ := of_create hb
  have hcapacity : OnGrid b.capacity := hcap ▸ onGrid_capacityOf limit rpm
  cases data with
  | none => rwa [refilled_none]
  | some d =>
    obtain ⟨z, hz⟩ := hdata d rfl
    have helapsed : max 0 (((now - d.ts : ℤ) : ℚ) / 1000) = (max 0 (now - d.ts) : ℤ) / 1000 := by
      rw [Int.cast_max, Int.cast_zero, ← max_div_div_right (by norm_num : (0 : ℚ) ≤ 1000), zero_div]
    rw [refilled_some, helapsed, hrate]
    exact hcapacity.min ⟨z + max 0 (now - d.ts) * rpm, by push_cast at hz ⊢; linarith⟩

/-- Who waits waits for one token, and the level is on the grid. -/
structure GridInv (s : State ι) : Prop where
  asked : ∀ i, s.caller i = .idle ∨ (s.caller i).asked = 1
  hash : ∀ d ∈ s.hash, OnGrid d.tokens

/-- A request takes one token. -/
def SingleToken : Op ι → Prop
  | .acquire _ tokens => tokens = 1
  | _ => True

omit [DecidableEq ι] in
theorem GridInv.exact (h : GridInv s) (op : Op ι) : Exact b s op := by
  cases op with
  | eval i time replied =>
    intro tokens attempts hi henough
    have hone : tokens = 1 := by
      obtain hidle | hasked := h.asked i
      · cases hi.symm.trans hidle
      · rwa [hi] at hasked
    rw [hone] at henough ⊢
    exact (onGrid_refilled hb (fun d hd => h.hash d (hash_of_found hd)) time.ms).exact henough
  | _ => trivial

omit hb in
theorem GridInv.setCaller (h : GridInv s) (i : ι) {caller : Caller}
    (hcaller : caller = .idle ∨ caller.asked = 1) : GridInv (s.setCaller i caller) := by
  refine ⟨fun j => ?_, h.hash⟩
  show Function.update s.caller i caller j = .idle ∨ (Function.update s.caller i caller j).asked = 1
  by_cases heq : j = i
  · rw [heq, Function.update_self]
    exact hcaller
  · rw [Function.update_of_ne heq]
    exact h.asked j

omit [DecidableEq ι] in
theorem GridInv.execute (h : GridInv s) (now : ℤ) : GridInv (execute b s now 1).1 := by
  have hlevel : OnGrid (b.refilled (b.found s.hash now) now) :=
    onGrid_refilled hb (fun d hd => h.hash d (hash_of_found hd)) now
  refine ⟨h.asked, fun d hd => ?_⟩
  simp only [RedisThrottle.execute, script, stored] at hd
  split_ifs at hd with hgrant
  · obtain rfl := Option.some.inj hd
    exact hlevel.sub_one
  · obtain rfl := Option.some.inj hd
    exact hlevel
  · cases hd

theorem gridInv_step {op : Op ι} (h : GridInv s) (hsingle : SingleToken op)
    (hs : step b s op = some s') :
    GridInv s' := by
  cases stepped_of_step hs with
  | acquire hasked => exact h.setCaller _ (.inr hsingle)
  | @caller _ i _ hcaller =>
    refine h.setCaller i (hcaller.imp_right fun ⟨hne, heq⟩ => ?_)
    rw [heq]
    exact (h.asked i).resolve_left hne
  | @eval i _ _ tokens attempts caller hi hcaller =>
    have hone : tokens = 1 := by
      have hasked := (h.asked i).resolve_left (by simp [hi])
      rwa [hi] at hasked
    rw [hone] at hcaller ⊢
    exact (h.execute hb _).setCaller i hcaller
  | expire => exact ⟨h.asked, fun d hd => h.hash d (hash_of_found hd)⟩

/-- **The buckets of a rate limit make no use of the tolerance.** -/
theorem exact_run {ops : List (Op ι)} (hsingle : ∀ op ∈ ops, SingleToken op) :
    Guarded (step b) (Exact b) {} ops := by
  have hstart : GridInv ({} : State ι) := ⟨fun _ => .inl rfl, fun d hd => by cases hd⟩
  have hguarded : Guarded (step b) (fun _ op => SingleToken op) {} ops :=
    guarded_iff.mpr fun pre op post s hsplit _ => hsingle op (by simp [hsplit])
  refine guarded_iff.mpr fun pre op post s hsplit hs => ?_
  rw [hsplit] at hguarded
  exact (inv_of_guarded (fun _ _ _ h hop hs => gridInv_step hb h hop hs) hstart
    (guarded_append hguarded hs).1 hs).exact hb op

end Limit

end Steps

/-! ### A clock that goes back -/

theorem oneToken_pos : (0 : ℚ) < 1 := one_pos

/-- One request a second. -/
def everySecond : RedisTokenBucket := ⟨1, 1, 3600, oneToken_pos, oneToken_pos⟩

theorem everySecond_ofLimit :
    everySecond.OfLimit { requestsPerMinute := some 60, burst := some 1 } 60 := by
  have hrate : ((60 : ℕ) : ℚ) / 60 = 1 := by norm_num
  have hcapacity : capacityOf { requestsPerMinute := some 60, burst := some 1 } 60 = 1 := by
    norm_num [capacityOf]
  rw [RedisTokenBucket.OfLimit, hrate, hcapacity, create, dif_pos one_pos, dif_pos one_pos]
  rfl

/-- A request at each of these seconds. -/
def requests (seconds : List ℕ) : List (Op Unit) :=
  seconds.flatMap fun t => [.die (), .acquire () 1, .eval () ⟨t, 0⟩ true]

theorem singleToken_requests (seconds : List ℕ) : ∀ op ∈ requests seconds, SingleToken op := by
  intro op hop
  obtain ⟨t, -, hop⟩ := List.mem_flatMap.mp hop
  simp only [List.mem_cons, List.not_mem_nil, or_false] at hop
  obtain rfl | rfl | rfl := hop
  · trivial
  · rfl
  · trivial

/-- Two requests, a second apart. -/
theorem bounded_forth : ∃ s, exec (step everySecond) {} (requests [10, 11]) = some s ∧
    Bounded everySecond s := by
  obtain ⟨s, hs⟩ : ∃ s, exec (step everySecond) {} (requests [10, 11]) = some s :=
    Option.isSome_iff_exists.mp (by decide +kernel)
  have hcounted : Guarded (step everySecond) (Counted everySecond) {} (requests [10, 11]) := by
    decide +kernel
  exact ⟨s, hs, granted_bounded everySecond hs
    (guarded_and (exact_run everySecond_ofLimit (singleToken_requests _)) hcounted)⟩

/-- **A second that the clock repeats** is granted twice. -/
theorem not_bounded_back : ¬∀ (b : RedisTokenBucket) (ops : List (Op Unit)) (s : State Unit),
    exec (step b) {} ops = some s → Bounded b s := by
  intro h
  have hrun : ((exec (step everySecond) {} (requests [10, 9, 10])).map fun s =>
      (s.granted, s.readings.map fun r => (r.first, r.largest))) =
        some (2, some (10000, 10000)) := by
    decide +kernel
  obtain ⟨s, hs, hend⟩ := Option.map_eq_some_iff.mp hrun
  obtain ⟨hgranted, hreadings⟩ := Prod.mk.inj hend
  obtain ⟨r, hr, heq⟩ := Option.map_eq_some_iff.mp hreadings
  obtain ⟨hfirst, hlargest⟩ := Prod.mk.inj heq
  have hbounded := h everySecond _ s hs r hr
  rw [hgranted, hfirst, hlargest] at hbounded
  norm_num [everySecond] at hbounded

end Selfevals.Runner.RedisThrottle
