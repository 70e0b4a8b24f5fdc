import Selfevals.Lib.Floats
import Selfevals.Runner.LaunchAdapters

/-!
# Backoff of retries

`RetryingAdapter.invoke` tries again after a transient failure, as often as its policy allows, and
sleeps before each retry. How long depends on the attempt, on a number drawn from `[0, 1)`, and on
what the provider asked for, which may be any float. Delays are exact rationals.

* `backoff_mem`: a delay is within the policy's cap;
-/

namespace Selfevals.Runner.RetryBackoff

open Lib.Floats Repo.Loader.Models Runner.LaunchAdapters Schemas.Experiments

/-! ### The loop -/

/-- What `invoke` reads of an `AdapterError`. -/
structure AdapterError where
  retryable : Bool := false
  retryAfterSeconds : Option PyFloat := none
deriving DecidableEq, Repr

/-- How the inner adapter answers. -/
inductive Answer (ρ : Type)
  | response (r : ρ)
  | adapterError (error : AdapterError)
  /-- Any other exception. -/
  | raised
deriving DecidableEq, Repr

variable {ρ : Type}

/-- A failure that a retry might resolve. -/
def Answer.retryable : Answer ρ → Bool
  | .adapterError error => error.retryable
  | .response _ | .raised => false

def Answer.retryAfter : Answer ρ → Option PyFloat
  | .adapterError error => error.retryAfterSeconds
  | .response _ | .raised => none

/-- The exponential delay with its jitter, without a hint. -/
def backoff (policy : RetryPolicy) (draw : ℚ) (attempt : ℕ) : ℚ :=
  let expo := min policy.maxDelay (policy.baseDelay * policy.multiplier ^ attempt)
  let low := expo * (1 - policy.jitter)
  low + draw * (expo - low)

/-- `_compute_delay`, where `draw` is what `random()` gave. -/
def computeDelay (policy : RetryPolicy) (draw : ℚ) (attempt : ℕ) (retryAfter : Option PyFloat) :
    PyFloat :=
  let delay : PyFloat := .finite (backoff policy draw attempt)
  match retryAfter with
  | none => delay
  | some retryAfter => .pyMin (.finite policy.maxDelay) (.pyMax delay retryAfter)

/-- What a call does. -/
inductive Event
  /-- A token of a rate limit. -/
  | granted
  | invoked
  | slept (delay : PyFloat)
deriving DecidableEq, Repr

/-- What a call did, the answer that it returned or raised, and how many requests the transport has
been sent then. -/
structure Called (ρ : Type) where
  events : List Event
  answer : Answer ρ
  requests : ℕ
deriving DecidableEq, Repr

/-- A failed attempt and the delay after it, before the rest of the call. -/
def Called.after (tried : Called ρ) (delay : PyFloat) (rest : Called ρ) : Called ρ :=
  { rest with events := tried.events ++ .slept delay :: rest.events }

/-- The adapter of a transport, which answers its requests in turn. -/
def transport (answer : ℕ → Answer ρ) (n : ℕ) : Option (Called ρ) :=
  some ⟨[.invoked], answer n, n + 1⟩

/-- The `while True` of `RetryingAdapter.invoke`, from an attempt on, where the transport below the
inner adapter has been sent `n` requests. `none` is a loop that has not ended in so many rounds. -/
def retryWhile (policy : RetryPolicy) (inner : ℕ → Option (Called ρ)) (draw : ℕ → ℚ) :
    (rounds attempt n : ℕ) → Option (Called ρ)
  | 0, _, _ => none
  | rounds + 1, attempt, n => do
    let tried ← inner n
    match tried.answer with
    | .response _ | .raised => return tried
    | .adapterError error =>
      if !error.retryable || policy.maxRetries ≤ attempt then return tried
      else
        let delay := computeDelay policy (draw attempt) attempt error.retryAfterSeconds
        let rest ← retryWhile policy inner draw rounds (attempt + 1) tried.requests
        return tried.after delay rest

theorem retryWhile_succ {policy : RetryPolicy} {inner : ℕ → Option (Called ρ)} {draw : ℕ → ℚ}
    (rounds attempt n : ℕ) :
    retryWhile policy inner draw (rounds + 1) attempt n = (inner n).bind fun tried =>
      if tried.answer.retryable = true ∧ attempt < policy.maxRetries then
        (retryWhile policy inner draw rounds (attempt + 1) tried.requests).map
          (tried.after (computeDelay policy (draw attempt) attempt tried.answer.retryAfter))
      else some tried := by
  rw [retryWhile]
  refine congrArg (inner n).bind (funext fun tried => ?_)
  obtain ⟨events, answer, requests⟩ := tried
  cases answer with
  | response r => rfl
  | raised => rfl
  | adapterError error =>
    have hends : (!error.retryable || decide (policy.maxRetries ≤ attempt)) = true ↔
        ¬(error.retryable = true ∧ attempt < policy.maxRetries) := by
      rw [Bool.or_eq_true, Bool.not_eq_true', decide_eq_true_eq, not_and_or, Bool.not_eq_true,
        not_lt]
    dsimp only
    by_cases hretry : error.retryable = true ∧ attempt < policy.maxRetries
    · rw [if_neg fun h => hends.mp h hretry]
      exact (Option.map_eq_bind.symm).trans (if_pos hretry).symm
    · rw [if_pos (hends.mpr hretry)]
      exact (if_neg hretry).symm

theorem exists_retryWhile {policy : RetryPolicy} {inner : ℕ → Option (Called ρ)} {draw : ℕ → ℚ}
    (hinner : ∀ n, ∃ tried, inner n = some tried) {rounds attempt : ℕ}
    (hrounds : policy.maxRetries - attempt < rounds) (n : ℕ) :
    ∃ called, retryWhile policy inner draw rounds attempt n = some called := by
  induction rounds generalizing attempt n with
  | zero => omega
  | succ rounds ih =>
    obtain ⟨tried, htried⟩ := hinner n
    rw [retryWhile_succ, htried, Option.bind_some]
    split_ifs with hretry
    · obtain ⟨rest, hrest⟩ := @ih (attempt + 1) (by omega) tried.requests
      exact ⟨_, by rw [hrest]; rfl⟩
    · exact ⟨tried, rfl⟩

variable {policy : RetryPolicy} {answer : ℕ → Answer ρ} {draw : ℕ → ℚ}

/-! ### The attempts -/

/-- What a call logs that retries the attempts from the first one up to the last. -/
def logOf (delay : ℕ → PyFloat) (first : ℕ) : ℕ → List Event
  | 0 => [.invoked]
  | retries + 1 => .invoked :: .slept (delay first) :: logOf delay (first + 1) retries

/-- The last attempt is the first that is not retried: it does not fail, or not in a way that a
retry might resolve, or no retry is left. -/
structure Last (policy : RetryPolicy) (answer : ℕ → Answer ρ) (first n : ℕ) : Prop where
  le : n ≤ policy.maxRetries
  retried : ∀ k, first ≤ k → k < n → (answer k).retryable = true
  final : (answer n).retryable = true → n = policy.maxRetries

/-- **Termination.** With more rounds than retries are left the loop around a transport ends with the
last attempt. -/
theorem retryWhile_stops {rounds attempt : ℕ} (hattempt : attempt ≤ policy.maxRetries)
    (hrounds : policy.maxRetries - attempt < rounds) :
    ∃ retries, Last policy answer attempt (attempt + retries) ∧
      retryWhile policy (transport answer) draw rounds attempt attempt =
        some ⟨logOf (fun k => computeDelay policy (draw k) k (answer k).retryAfter) attempt retries,
          answer (attempt + retries), attempt + retries + 1⟩ := by
  induction rounds generalizing attempt with
  | zero => omega
  | succ rounds ih =>
    rw [retryWhile_succ, transport, Option.bind_some]
    split_ifs with hretry
    · obtain ⟨hretryable, hlt⟩ := hretry
      obtain ⟨retries, hlast, hrun⟩ := ih hlt (by omega)
      have hshift : attempt + (retries + 1) = attempt + 1 + retries := by omega
      refine ⟨retries + 1, ⟨hshift ▸ hlast.le, fun k hlo hhi => ?_, hshift ▸ hlast.final⟩, ?_⟩
      · obtain rfl | hgt := hlo.eq_or_lt
        · exact hretryable
        · exact hlast.retried k hgt (by omega)
      · rw [hrun, hshift]
        rfl
    · refine ⟨0, ⟨hattempt, fun k hlo hhi => by omega, fun hretryable => ?_⟩, rfl⟩
      rw [not_and, not_lt] at hretry
      exact le_antisymm hattempt (hretry hretryable)

/-- How often the inner adapter was invoked. -/
def invocations (events : List Event) : ℕ := events.count .invoked

/-- The delays, in order. -/
def delays : List Event → List PyFloat
  | [] => []
  | .granted :: events | .invoked :: events => delays events
  | .slept delay :: events => delay :: delays events

theorem invocations_logOf (delay : ℕ → PyFloat) (first retries : ℕ) :
    invocations (logOf delay first retries) = retries + 1 := by
  unfold invocations
  induction retries generalizing first with
  | zero => rfl
  | succ retries ih => simp [logOf, ih]

theorem delays_logOf (delay : ℕ → PyFloat) (first retries : ℕ) :
    delays (logOf delay first retries) = (List.range' first retries).map delay := by
  induction retries generalizing first with
  | zero => rfl
  | succ retries ih => simp [logOf, delays, ih, List.range'_succ]

/-! ### Delays -/

/-- What the schema of a policy asks of its delays. -/
structure Sane (policy : RetryPolicy) : Prop where
  baseDelay : 0 ≤ policy.baseDelay
  maxDelay : 0 ≤ policy.maxDelay
  multiplier : 0 ≤ policy.multiplier
  jitter : 0 ≤ policy.jitter ∧ policy.jitter ≤ 1

theorem backoff_mem (h : Sane policy) {draw : ℚ} (hdraw : 0 ≤ draw ∧ draw < 1) (attempt : ℕ) :
    0 ≤ backoff policy draw attempt ∧ backoff policy draw attempt ≤ policy.maxDelay := by
  unfold backoff
  have hexpo : 0 ≤ min policy.maxDelay (policy.baseDelay * policy.multiplier ^ attempt) :=
    le_min h.maxDelay (mul_nonneg h.baseDelay (pow_nonneg h.multiplier attempt))
  have hcap : min policy.maxDelay (policy.baseDelay * policy.multiplier ^ attempt) ≤
    policy.maxDelay := min_le_left _ _
  generalize min policy.maxDelay (policy.baseDelay * policy.multiplier ^ attempt) = expo at *
  have hlow : 0 ≤ expo * (1 - policy.jitter) := mul_nonneg hexpo (by linarith [h.jitter.2])
  have hspread : 0 ≤ expo - expo * (1 - policy.jitter) := by
    have hjitter := mul_nonneg hexpo h.jitter.1
    linarith
  have hdrawn := mul_le_mul_of_nonneg_right hdraw.2.le hspread
  have hnonneg := mul_nonneg hdraw.1 hspread
  dsimp only
  constructor <;> linarith

/-- **A delay** is a number within the cap, whatever the provider asks for. -/
theorem computeDelay_mem (h : Sane policy) {draw : ℚ} (hdraw : 0 ≤ draw ∧ draw < 1) (attempt : ℕ)
    (retryAfter : Option PyFloat) :
    ∃ q, computeDelay policy draw attempt retryAfter = .finite q ∧ 0 ≤ q ∧ q ≤ policy.maxDelay := by
  obtain ⟨hlo, hhi⟩ := backoff_mem h hdraw attempt
  cases retryAfter with
  | none => exact ⟨_, rfl, hlo, hhi⟩
  | some floor =>
    obtain ⟨q, hq, hcap, hmin, -⟩ :=
      PyFloat.pyMin_pyMax policy.maxDelay (backoff policy draw attempt) floor
    exact ⟨q, hq, (le_min h.maxDelay hlo).trans hmin, hcap⟩

theorem computeDelay_hint (policy : RetryPolicy) (draw : ℚ) (attempt : ℕ) (hint : PyFloat) :
    PyFloat.lt (computeDelay policy draw attempt (some hint))
      (.pyMin hint (.finite policy.maxDelay)) = false := by
  obtain ⟨q, hq, -, -, hfloor⟩ :=
    PyFloat.pyMin_pyMax policy.maxDelay (backoff policy draw attempt) hint
  unfold computeDelay
  dsimp only
  rwa [hq]

/-! ### One call -/

/-- What a call keeps to. The attempts are counted from zero, and `answer n` is the answer to the
`n`th. -/
structure Lawful (policy : RetryPolicy) (answer : ℕ → Answer ρ) (called : Called ρ) : Prop where
  attempts : invocations called.events ≤ policy.maxRetries + 1
  /-- The first success is returned. -/
  success : ∀ n r, n ≤ policy.maxRetries → (∀ k < n, (answer k).retryable = true) →
    answer n = .response r → called.answer = .response r
  /-- A failure that is not retryable is propagated without another attempt. -/
  permanent : ∀ n, n ≤ policy.maxRetries → (∀ k < n, (answer k).retryable = true) →
    (answer n).retryable = false → called.answer = answer n ∧ invocations called.events = n + 1
  /-- One that is retryable is propagated when no retry is left. -/
  exhausted : (∀ k ≤ policy.maxRetries, (answer k).retryable = true) →
    called.answer = answer policy.maxRetries ∧
      invocations called.events = policy.maxRetries + 1
  /-- Before every retry there is a delay. -/
  slept : (delays called.events).length + 1 = invocations called.events
  delays_mem : Sane policy → ∀ delay ∈ delays called.events, ∃ q, delay = .finite q ∧ 0 ≤ q ∧
    q ≤ policy.maxDelay
  /-- The delay after a failure is not less than its hint, or the cap. -/
  hints : ∀ k delay hint, (delays called.events)[k]? = some delay →
    (answer k).retryAfter = some hint →
    PyFloat.lt delay (.pyMin hint (.finite policy.maxDelay)) = false

theorem lawful_of_last {n requests : ℕ} (hlast : Last policy answer 0 n)
    (hdraw : ∀ k, 0 ≤ draw k ∧ draw k < 1) :
    Lawful policy answer
      ⟨logOf (fun k => computeDelay policy (draw k) k (answer k).retryAfter) 0 n, answer n,
        requests⟩ := by
  -- an attempt that ends the call is the last one
  have huniq {m : ℕ} (hm : m ≤ policy.maxRetries) (hbefore : ∀ k < m, (answer k).retryable = true)
      (hend : (answer m).retryable = false) : m = n := by
    obtain hlt | heq | hgt := lt_trichotomy m n
    · rw [hlast.retried m (Nat.zero_le m) hlt] at hend
      cases hend
    · exact heq
    · have heq := hlast.final (hbefore n hgt)
      omega
  constructor
  · rw [invocations_logOf]
    exact Nat.succ_le_succ hlast.le
  · intro m r hm hbefore hanswer
    obtain rfl := huniq hm hbefore (by rw [hanswer]; rfl)
    exact hanswer
  · intro m hm hbefore hend
    obtain rfl := huniq hm hbefore hend
    exact ⟨rfl, invocations_logOf _ _ _⟩
  · intro hall
    obtain rfl := hlast.final (hall n hlast.le)
    exact ⟨rfl, invocations_logOf _ _ _⟩
  · rw [delays_logOf, invocations_logOf, List.length_map, List.length_range']
  · intro hsane delay hdelay
    rw [delays_logOf, List.mem_map] at hdelay
    obtain ⟨k, -, rfl⟩ := hdelay
    exact computeDelay_mem hsane (hdraw k) k _
  · intro k delay hint hdelay hhint
    rw [delays_logOf, List.getElem?_map, Option.map_eq_some_iff] at hdelay
    obtain ⟨k', hk', rfl⟩ := hdelay
    obtain ⟨hlt, hk'⟩ := List.getElem?_eq_some_iff.mp hk'
    obtain rfl : k = k' := by simpa using hk'
    rw [hhint]
    exact computeDelay_hint policy (draw k) k hint

/-- **The retry wrapper.** However its inner adapter answers, a call ends within a round for each
attempt, and keeps to its policy. -/
theorem retryWhile_lawful (policy : RetryPolicy) (answer : ℕ → Answer ρ)
    (draw : ℕ → Set.Ico (0 : ℚ) 1) {rounds : ℕ} (h : policy.maxRetries < rounds) :
    ∃ called, retryWhile policy (transport answer) (fun n => draw n) rounds 0 0 = some called ∧
      Lawful policy answer called := by
  have hlawful {n requests : ℕ} (hlast : Last policy answer 0 n) :=
    @lawful_of_last _ _ _ _ n requests hlast fun k => (draw k).2
  obtain ⟨n, hlast, hrun⟩ := retryWhile_stops (Nat.zero_le policy.maxRetries) h
  rw [Nat.zero_add] at hlast hrun
  exact ⟨_, hrun, hlawful hlast⟩

/-! ### A provider that is busy -/

/-- Twice `429`, with a hint that is over the cap, then a response. -/
def busy : ℕ → Answer String
  | 0 => .adapterError { retryable := true, retryAfterSeconds := some .inf }
  | 1 => .adapterError { retryable := true, retryAfterSeconds := some (.finite 2) }
  | _ => .response "done"

/-- The policy of a launch, by default. -/
def defaultPolicy : RetryPolicy := ⟨2, 1 / 2, 30, 2, 1 / 2⟩

/-- The calls of the default policy keep to it. -/
theorem lawful_busy :
    2 < 3 ∧ ∃ called, retryWhile defaultPolicy (transport busy) (fun _ => 0) 3 0 0 = some called ∧
      Lawful defaultPolicy busy called :=
  ⟨by decide, retryWhile_lawful defaultPolicy busy (fun _ => ⟨0, by norm_num⟩) (by decide)⟩

end Selfevals.Runner.RetryBackoff
