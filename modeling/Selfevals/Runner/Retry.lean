import Selfevals.Lib.Interleaving
import Selfevals.Runner.RedisThrottle
import Selfevals.Runner.RetryBackoff

/-!
# Invoking a wrapped adapter

`invoke` runs one logical call of an adapter over the answers that its transport gives to the
successive requests, and over what Redis replies where a bucket is kept there. It logs what happens:
a token is granted, the transport is invoked, the call sleeps. The calls of a process run
concurrently, so its log is an interleaving of theirs.

In the stack of a launch the retries are inside the rate limit: a call takes one token and makes as
many requests as it needs. A bucket in Redis fails open: where the server cannot be reached, a call
goes on without a token. The requests stay within the tokens if and only if no call that goes on is
retried, and none goes on without its token (`covered_iff`).
-/

namespace Selfevals.Runner.Retry

open Lib.Interleaving Repo.Loader.Agent Schemas.Experiments Repo.Loader.Models Runner.LaunchAdapters
open Runner.RedisThrottle (maxAcquireAttempts)
open Runner.RetryBackoff

/-! ### Acquiring a token -/

/-- How an execution of the script of a bucket ends. -/
inductive Reply
  /-- The milliseconds to wait; the token is taken where there are none. -/
  | answered (waitMs : ℚ)
  /-- An error that the bucket takes for a server that cannot be reached. -/
  | unreachable
  /-- Any other exception. -/
  | raised
deriving DecidableEq, Repr

/-- The bucket is to wait and try again. -/
def Reply.waits : Reply → Bool
  | .answered waitMs => 0 < waitMs
  | _ => false

/-- What an `acquire` came to. -/
inductive Acquired
  | granted
  /-- It returned without a token. -/
  | passed
  | raised
deriving DecidableEq, Repr

/-- `RedisTokenBucket.acquire`, which fails open, with so many attempts left; the `k`-th execution
of the script ends with `reply k`. -/
def acquire (reply : ℕ → Reply) : (left k : ℕ) → List Event × Acquired
  | 0, _ => ([], .passed)
  | left + 1, k =>
    match reply k with
    | .answered waitMs =>
      if waitMs ≤ 0 then ([.granted], .granted)
      else
        let (events, acquired) := acquire reply left (k + 1)
        (.slept (.finite (waitMs / 1000)) :: events, acquired)
    | .unreachable => ([], .passed)
    | .raised => ([], .raised)

/-- `acquire` of either bucket; that of the process returns with a token only. -/
def acquireFrom (bucket : TokenBucket) (reply : ℕ → Reply) : List Event × Acquired :=
  match bucket.state with
  | .inProcess _ => ([.granted], .granted)
  | .redis _ _ => acquire reply maxAcquireAttempts 0

/-! ### One call -/

variable {ρ : Type}

/-- A logical call: how the transport answers its requests, how the script ends that is executed for
the token before a request, and the numbers drawn for its delays. -/
structure Call (ρ : Type) where
  answer : ℕ → Answer ρ
  reply : ℕ → ℕ → Reply := fun _ _ => .answered 0
  draw : ℕ → ℚ

/-- `invoke`, where the transport has been sent `n` requests of this call. -/
def invoke (call : Call ρ) : Adapter → ℕ → Option (Called ρ)
  | .transport _, n => transport call.answer n
  | .retrying inner policy, n =>
    retryWhile policy (invoke call inner) call.draw (policy.maxRetries + 1) 0 n
  | .rateLimited inner bucket, n =>
    match acquireFrom bucket (call.reply n) with
    | (events, .raised) => some ⟨events, .raised, n⟩
    | (events, _) =>
      (invoke call inner n).map fun called => { called with events := events ++ called.events }

theorem exists_invoke (call : Call ρ) (adapter : Adapter) (n : ℕ) :
    ∃ called, invoke call adapter n = some called := by
  induction adapter generalizing n with
  | transport agent => exact ⟨_, rfl⟩
  | retrying inner policy ih =>
    exact exists_retryWhile ih (Nat.lt_succ_of_le (Nat.sub_le _ _)) n
  | rateLimited inner bucket ih =>
    unfold invoke
    obtain ⟨called, hcalled⟩ := ih n
    rw [hcalled]
    split
    · exact ⟨_, rfl⟩
    · exact ⟨_, rfl⟩

/-- What a call logs from its first request on. -/
def Call.events (adapter : Adapter) (call : Call ρ) : List Event :=
  (invoke call adapter 0).elim [] (·.events)

def Event.isGranted : Event → Bool
  | .granted => true
  | _ => false

def Event.isInvoked : Event → Bool
  | .invoked => true
  | _ => false

/-- The tokens granted. -/
def tokens (log : List Event) : ℕ := log.countP Event.isGranted

/-- The requests made, first tries and retries. -/
def requests (log : List Event) : ℕ := log.countP Event.isInvoked

/-- At every moment of the log the requests made are within the tokens granted. -/
def Covered (log : List Event) : Prop := ∀ past, past <+: log → requests past ≤ tokens past

section Counts
variable (es es' : List Event) (delay : Selfevals.Lib.Floats.PyFloat)

@[simp] theorem tokens_invoked : tokens (.invoked :: es) = tokens es :=
  List.countP_cons_of_neg Bool.false_ne_true

@[simp] theorem tokens_slept : tokens (.slept delay :: es) = tokens es :=
  List.countP_cons_of_neg Bool.false_ne_true

@[simp] theorem tokens_append : tokens (es ++ es') = tokens es + tokens es' :=
  List.countP_append

@[simp] theorem requests_invoked : requests (.invoked :: es) = requests es + 1 :=
  List.countP_cons_of_pos rfl

@[simp] theorem requests_slept : requests (.slept delay :: es) = requests es :=
  List.countP_cons_of_neg Bool.false_ne_true

@[simp] theorem requests_append : requests (es ++ es') = requests es + requests es' :=
  List.countP_append

end Counts

/-! ### What an acquire comes to -/

section Acquire
variable {reply : ℕ → Reply}

/-- The first reply that is none to wait after comes within so many attempts, and is this one. -/
def Settles (reply : ℕ → Reply) (left k : ℕ) (settled : Reply → Prop) : Prop :=
  ∃ i < left, (∀ j < i, (reply (k + j)).waits = true) ∧ (reply (k + i)).waits = false ∧
    settled (reply (k + i))

theorem settles_succ {left k : ℕ} {settled : Reply → Prop} :
    Settles reply (left + 1) k settled ↔
      if (reply k).waits then Settles reply left (k + 1) settled else settled (reply k) := by
  unfold Settles
  split_ifs with hwaits
  · constructor
    · rintro ⟨i, hi, hbefore, hend, hsettled⟩
      obtain ⟨i, rfl⟩ : ∃ i', i = i' + 1 := Nat.exists_eq_succ_of_ne_zero fun hzero => by
        subst hzero
        rw [Nat.add_zero, hwaits] at hend
        cases hend
      have hshift : ∀ j, k + (j + 1) = k + 1 + j := fun j => by omega
      rw [hshift] at hend hsettled
      exact ⟨i, by omega, fun j hj => hshift j ▸ hbefore (j + 1) (by omega), hend, hsettled⟩
    · rintro ⟨i, hi, hbefore, hend, hsettled⟩
      have hshift : ∀ j, k + (j + 1) = k + 1 + j := fun j => by omega
      refine ⟨i + 1, by omega, fun j hj => ?_, hshift i ▸ hend, hshift i ▸ hsettled⟩
      cases j with
      | zero => exact hwaits
      | succ j => exact hshift j ▸ hbefore j (by omega)
  · constructor
    · rintro ⟨i, -, hbefore, -, hsettled⟩
      cases i with
      | zero => exact hsettled
      | succ i => exact absurd (hbefore 0 (Nat.succ_pos i)) hwaits
    · intro hsettled
      exact ⟨0, Nat.succ_pos left, fun j hj => absurd hj (Nat.not_lt_zero j), by simpa using hwaits,
        hsettled⟩

theorem acquire_succ (left k : ℕ) :
    ((reply k).waits = true ∧ ∃ delay, acquire reply (left + 1) k =
        (.slept delay :: (acquire reply left (k + 1)).1, (acquire reply left (k + 1)).2)) ∨
      ((reply k).waits = false ∧ acquire reply (left + 1) k =
        match reply k with
        | .answered _ => ([.granted], .granted)
        | .unreachable => ([], .passed)
        | .raised => ([], .raised)) := by
  rw [acquire]
  cases reply k with
  | answered waitMs =>
    dsimp only [Reply.waits]
    by_cases hwait : 0 < waitMs
    · exact .inl ⟨decide_eq_true hwait, _, if_neg (not_le.mpr hwait)⟩
    · exact .inr ⟨decide_eq_false hwait, if_pos (not_lt.mp hwait)⟩
  | unreachable => exact .inr ⟨rfl, rfl⟩
  | raised => exact .inr ⟨rfl, rfl⟩

/-- **An acquire** makes no request, and logs a token exactly where it is granted one. -/
theorem acquire_spec (left k : ℕ) :
    requests (acquire reply left k).1 = 0 ∧
      (tokens (acquire reply left k).1 = if (acquire reply left k).2 = .granted then 1 else 0) ∧
      ((acquire reply left k).2 = .granted ↔ Settles reply left k fun r => r ≠ .unreachable ∧
        r ≠ .raised) ∧
      ((acquire reply left k).2 = .raised ↔ Settles reply left k fun r => r = .raised) := by
  induction left generalizing k with
  | zero => simp [acquire, Settles, requests, tokens]
  | succ left ih =>
    rw [settles_succ, settles_succ]
    obtain ⟨hwaits, delay, heq⟩ | ⟨hwaits, heq⟩ := @acquire_succ reply left k
    · rw [heq, if_pos hwaits, if_pos hwaits, requests_slept, tokens_slept]
      exact ih (k + 1)
    · rw [heq, hwaits]
      cases reply k <;> simp [requests, tokens, Event.isInvoked, Event.isGranted]

end Acquire

/-! ### The stack of a launch -/

/-- Where the bucket of a launch keeps its tokens. -/
def bucketState (redisUrl key : Option String) (made : ℕ) : BucketState :=
  match redisUrl, key with
  | some url, some key => .redis url key
  | _, _ => .inProcess made

/-- A call whose requests are covered by what its acquire came to: it got a token, and its first
request does not fail in a way that is retried, or its acquire raised and no request was made. -/
def Call.Paid (state : BucketState) (call : Call ρ) : Prop :=
  match state with
  | .inProcess _ => (call.answer 0).retryable = false
  | .redis _ _ =>
    Settles (call.reply 0) maxAcquireAttempts 0 (fun r => r = .raised) ∨
      Settles (call.reply 0) maxAcquireAttempts 0 (fun r => r ≠ .unreachable ∧ r ≠ .raised) ∧
        (call.answer 0).retryable = false

theorem acquireFrom_spec (bucket : TokenBucket) (call : Call ρ) :
    requests (acquireFrom bucket (call.reply 0)).1 = 0 ∧
      (tokens (acquireFrom bucket (call.reply 0)).1 =
        if (acquireFrom bucket (call.reply 0)).2 = .granted then 1 else 0) ∧
      (call.Paid bucket.state ↔ (acquireFrom bucket (call.reply 0)).2 = .raised ∨
        (acquireFrom bucket (call.reply 0)).2 = .granted ∧ (call.answer 0).retryable = false) := by
  unfold acquireFrom Call.Paid
  cases bucket.state with
  | inProcess n => simp [requests, tokens, Event.isInvoked, Event.isGranted]
  | redis url key =>
    obtain ⟨hrequests, htokens, hgranted, hraised⟩ :=
      @acquire_spec (call.reply 0) maxAcquireAttempts 0
    exact ⟨hrequests, htokens, by rw [hgranted, hraised]⟩

theorem counts_logOf (delay : ℕ → Selfevals.Lib.Floats.PyFloat) (first retries : ℕ) :
    tokens (logOf delay first retries) = 0 ∧
      requests (logOf delay first retries) = retries + 1 := by
  induction retries generalizing first with
  | zero => exact ⟨rfl, rfl⟩
  | succ retries ih =>
    obtain ⟨htokens, hrequests⟩ := ih (first + 1)
    simp [logOf, htokens, hrequests]

section Stack
variable (agent : AgentSpec) {run : RunSpec} {rpm : ℕ}

theorem wrapResilience_stack (hretry : 0 < run.retry.maxRetries)
    (hrate : run.rateLimit.requestsPerMinute = some rpm) (redisUrl key : Option String) (made : ℕ) :
    ∃ policy bucket, policy.maxRetries = run.retry.maxRetries ∧
      bucket.state = bucketState redisUrl key made ∧
      (wrapResilience (.transport agent) run redisUrl key made).1 =
        .rateLimited (.retrying (.transport agent) policy) bucket := by
  unfold wrapResilience withRetries
  rw [if_pos hretry, hrate]
  rcases redisUrl with _ | url
  · exact ⟨_, _, rfl, rfl, rfl⟩
  · rcases key with _ | key
    · exact ⟨_, _, rfl, rfl, rfl⟩
    · exact ⟨_, _, rfl, rfl, rfl⟩

variable {agent} {policy : RetryPolicy} {bucket : TokenBucket} {call : Call ρ}

/-- **A call** that goes on logs its acquire and then its requests, more than one exactly where the
first of them is retried. -/
theorem events_spec (hmax : 0 < policy.maxRetries) (call : Call ρ) :
    let events := call.events (.rateLimited (.retrying (.transport agent) policy) bucket)
    let acquired := acquireFrom bucket (call.reply 0)
    acquired.2 = .raised ∧ events = acquired.1 ∨
      acquired.2 ≠ .raised ∧ ∃ delay retries, events = acquired.1 ++ logOf delay 0 retries ∧
        (retries = 0 ↔ (call.answer 0).retryable = false) := by
  obtain ⟨retries, hlast, hrun⟩ := @retryWhile_stops ρ policy call.answer call.draw
    (policy.maxRetries + 1) 0 (Nat.zero_le _) (Nat.lt_succ_self _)
  rw [Nat.zero_add] at hlast hrun
  have hretried : retries = 0 ↔ (call.answer 0).retryable = false := by
    constructor
    · rintro rfl
      by_contra hfail
      exact hmax.ne (hlast.final (by simpa using hfail))
    · intro hfail
      by_contra hne
      rw [hlast.retried 0 le_rfl (Nat.pos_of_ne_zero hne)] at hfail
      cases hfail
  have hinner : invoke call (.retrying (.transport agent) policy) 0 = some _ := hrun
  dsimp only
  unfold Call.events
  rw [invoke, hinner]
  split
  · next es heq =>
    rw [heq]
    exact .inl ⟨rfl, rfl⟩
  · next es acquired hne heq =>
    rw [heq]
    exact .inr ⟨hne, _, retries, rfl, hretried⟩

theorem counts_events (hmax : 0 < policy.maxRetries) (call : Call ρ) :
    let events := call.events (.rateLimited (.retrying (.transport agent) policy) bucket)
    tokens events ≤ requests events ∧
      (requests events ≤ tokens events ↔ call.Paid bucket.state) := by
  obtain ⟨hrequests, htokens, hpaid⟩ := acquireFrom_spec bucket call
  dsimp only
  rw [hpaid]
  obtain ⟨hraised, hevents⟩ | ⟨hraised, delay, retries, hevents, hretried⟩ :=
    @events_spec ρ agent policy bucket hmax call
  · rw [hevents, hrequests, htokens, if_neg (by rw [hraised]; decide)]
    exact ⟨le_rfl, iff_of_true le_rfl (.inl hraised)⟩
  · obtain ⟨htokens', hrequests'⟩ := counts_logOf delay 0 retries
    rw [hevents, tokens_append, requests_append, hrequests, htokens, htokens', hrequests',
      or_iff_right hraised, ← hretried]
    split_ifs with hgranted <;> simp [hgranted]

theorem covered_of_requests {es : List Event} (h : requests es = 0) : Covered es := by
  intro past hpast
  have hle : requests past ≤ requests es := hpast.sublist.countP_le
  omega

theorem covered_concat {es : List Event} (h : requests es = 0) (htokens : 0 < tokens es) :
    Covered (es ++ [.invoked]) := by
  intro past hpast
  obtain rfl | hpast := List.prefix_concat_iff.mp hpast
  · rw [tokens_append, requests_append, h]
    exact Nat.le_add_right_of_le htokens
  · exact covered_of_requests h past hpast

theorem covered_of_paid (hmax : 0 < policy.maxRetries) {call : Call ρ}
    (h : call.Paid bucket.state) :
    Covered (call.events (.rateLimited (.retrying (.transport agent) policy) bucket)) := by
  obtain ⟨hrequests, htokens, hpaid⟩ := acquireFrom_spec bucket call
  obtain ⟨-, hevents⟩ | ⟨hraised, delay, retries, hevents, hretried⟩ :=
    @events_spec ρ agent policy bucket hmax call
  · rw [hevents]
    exact covered_of_requests hrequests
  · obtain ⟨hgranted, hfirst⟩ := (hpaid.mp h).resolve_left hraised
    obtain rfl := hretried.mpr hfirst
    rw [hevents]
    exact covered_concat hrequests (by rw [htokens, if_pos hgranted]; exact Nat.one_pos)

end Stack

/-! ### The calls of a process -/

theorem covered_of_traces {traces : List (List Event)} {log : List Event}
    (hlog : Interleaved traces log) (h : ∀ trace ∈ traces, Covered trace) : Covered log := by
  intro past hpast
  obtain ⟨pasts, hprefix, hinter⟩ := hlog.of_prefix hpast
  rw [requests, tokens, hinter.countP, hinter.countP]
  refine List.sum_le_sum fun past' hpast' => ?_
  obtain ⟨trace, htrace, hle⟩ := exists_mem_of_forall₂ hprefix hpast'
  exact h trace htrace past' hle

theorem tokens_lt_requests {agent : AgentSpec} {policy : RetryPolicy} {bucket : TokenBucket}
    {calls : List (Call ρ)} {log : List Event} (hlog : Interleaved
      (calls.map (Call.events (.rateLimited (.retrying (.transport agent) policy) bucket))) log)
    (hmax : 0 < policy.maxRetries) {call : Call ρ} (hcall : call ∈ calls)
    (hunpaid : ¬call.Paid bucket.state) : tokens log < requests log := by
  rw [tokens, requests, hlog.countP, hlog.countP, List.map_map, List.map_map]
  refine List.sum_lt_sum _ _ (fun call _ => (counts_events hmax call).1) ⟨call, hcall, ?_⟩
  exact not_le.mp fun hle => hunpaid ((counts_events hmax call).2.mp hle)

/-- **The throttle covers every request** of every interleaving of calls if and only if each call is
paid: none goes on without a token, and of none that goes on the first request fails in a way that
is retried. -/
theorem covered_iff (agent : AgentSpec) {run : RunSpec} {rpm : ℕ}
    (hretry : 0 < run.retry.maxRetries)
    (hrate : run.rateLimit.requestsPerMinute = some rpm) (redisUrl key : Option String) (made : ℕ)
    {calls : List (Call ρ)} {log : List Event}
    (hlog : Interleaved
      (calls.map (Call.events (wrapResilience (.transport agent) run redisUrl key made).1)) log) :
    Covered log ↔ ∀ call ∈ calls, call.Paid (bucketState redisUrl key made) := by
  obtain ⟨policy, bucket, hpolicy, hstate, hstack⟩ :=
    wrapResilience_stack agent hretry hrate redisUrl key made
  have hmax : 0 < policy.maxRetries := hpolicy ▸ hretry
  rw [hstack] at hlog
  rw [← hstate]
  constructor
  · intro hcovered call hcall
    by_contra hunpaid
    have hlt := tokens_lt_requests hlog hmax hcall hunpaid
    exact absurd (hcovered log List.prefix_rfl) (not_le.mpr hlt)
  · intro hpaid
    refine covered_of_traces hlog fun trace htrace => ?_
    obtain ⟨call, hcall, rfl⟩ := List.mem_map.mp htrace
    exact covered_of_paid hmax (hpaid call hcall)

section Examples

theorem agent_ne_nil : ["agent"] ≠ [] := by decide

def command : AgentSpec := .cli { command := ["agent"], command_ne_nil := agent_ne_nil }

/-- Two retries, by default, and sixty requests a minute. -/
def limited : RunSpec where
  sandbox := .mock
  rateLimit := { requestsPerMinute := some 60 }

/-- The adapter of a worker, whose bucket is in Redis. -/
def sharedAdapter : Adapter :=
  (wrapResilience (.transport command) limited (some "redis://") (some "bucket") 0).1

/-- A call that waits half a second for its token. -/
def waited : Call Unit where
  answer _ := .response ()
  reply _ k := .answered (if k = 0 then 500 else 0)
  draw _ := 0

/-- A permanent failure. -/
def refused : Call Unit where
  answer _ := .adapterError {}
  draw _ := 0

/-- The script raises. -/
def unauthorized : Call Unit where
  answer _ := .response ()
  reply _ _ := .raised
  draw _ := 0

/-- Three calls, of which one waits while another one is refused. -/
theorem covered_waited :
    Covered [.slept (.finite (1 / 2)), .granted, .granted, .invoked, .invoked] := by
  have hlog : Interleaved ([waited, refused, unauthorized].map (Call.events sharedAdapter))
      [.slept (.finite (1 / 2)), .granted, .granted, .invoked, .invoked] := by
    have hwaited : Call.events sharedAdapter waited =
      [.slept (.finite (1 / 2)), .granted, .invoked] := by decide +kernel
    have hrefused : Call.events sharedAdapter refused = [.granted, .invoked] := by decide +kernel
    have hunauthorized : Call.events sharedAdapter unauthorized = [] := by decide +kernel
    rw [List.map_cons, List.map_cons, List.map_singleton, hwaited, hrefused, hunauthorized]
    have hdone : Interleaved [[], [], []] ([] : List Event) := .done (by simp)
    have hanswered := @Interleaved.next Event [] [[], []] .invoked [] _ hdone
    have hboth := @Interleaved.next Event [[.invoked]] [[]] .invoked [] _ hanswered
    have hfirst := @Interleaved.next Event [] [[.invoked], []] .granted [.invoked] _ hboth
    have hsecond :=
      @Interleaved.next Event [[.granted, .invoked]] [[]] .granted [.invoked] _ hfirst
    exact @Interleaved.next Event [] [[.granted, .invoked], []] _ _ _ hsecond
  refine (covered_iff command (by decide) rfl (some "redis://") (some "bucket") 0 hlog).mpr ?_
  have hattempts : 1 < maxAcquireAttempts := by decide
  intro call hcall
  simp only [List.mem_cons, List.not_mem_nil, or_false] at hcall
  rcases hcall with rfl | rfl | rfl
  · refine .inr ⟨⟨1, hattempts, fun j hj => ?_, rfl, by simp [waited]⟩, rfl⟩
    obtain rfl := Nat.lt_one_iff.mp hj
    rfl
  · exact .inr ⟨⟨0, by omega, fun j hj => absurd hj (Nat.not_lt_zero j), rfl, by simp [refused]⟩,
      rfl⟩
  · exact .inl ⟨0, by omega, fun j hj => absurd hj (Nat.not_lt_zero j), rfl, rfl⟩

/-- The provider answers 429 once, then responds. -/
def throttledOnce : Call Unit where
  answer
    | 0 => .adapterError { retryable := true }
    | _ => .response ()
  draw _ := 0

/-- **One token, two requests**, when the provider limits the rate. -/
theorem not_covered : ¬∀ (agent : AgentSpec) (run : RunSpec) (rpm made : ℕ)
    (redisUrl key : Option String) (calls : List (Call Unit)) (log : List Event),
    0 < run.retry.maxRetries → run.rateLimit.requestsPerMinute = some rpm →
      Interleaved (calls.map
        (Call.events (wrapResilience (.transport agent) run redisUrl key made).1)) log →
        Covered log := by
  intro h
  have hlog := interleaved_flatten ([throttledOnce].map
    (Call.events (wrapResilience (.transport command) limited none none 0).1))
  have hcovered := h command limited 60 0 none none [throttledOnce] _ (by decide) rfl hlog
  have hle := hcovered _ List.prefix_rfl
  revert hle
  decide +kernel

end Examples

end Selfevals.Runner.Retry
