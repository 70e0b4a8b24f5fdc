import Selfevals.Lib.RateWindow
import Selfevals.Repo.Loader.SpecRoundTrip
import Selfevals.Runner.LaunchAdapters
import Selfevals.Runner.Throttle

/-!
# The rate limit of a run

The requests of a run are made by workers, batch by batch: `run_scenario_jobs_once` claims scenario
jobs and builds a loop for them, and the executor of that loop sends the requests of these jobs. The
coordinator builds a loop as well, with the Redis url of its process, but sends nothing through it.
The loops of the batches are built without the url.

* `Inv` : who draws from which bucket;
-/

namespace Selfevals.Worker.RunRateLimit

open Lib.JsonValue Lib.RateWindow Lib.Result Lib.Run Schemas.Experiments Schemas.EvalCases
  Repo.Loader.Models Runner.LaunchAdapters Runner.Throttle

variable {ι κ : Type}

/-! ### The system -/

/-- A run with `requests_per_minute` set, on worker processes `ι`, as the payload of its job has it.
-/
structure LimitedRun (ι κ : Type) where
  spec : ExperimentSpec κ
  host : ι → AdapterHost
  /-- The url that the workers are configured with. -/
  redisUrl : Option String
  rpm : ℕ
  rpm_eq : spec.experiment.run.rateLimit.requestsPerMinute = some rpm
  valid : RateLimitSpec.Valid spec.experiment.run.rateLimit

namespace LimitedRun

def rate (run : LimitedRun ι κ) : ℚ := run.rpm / 60

def capacity (run : LimitedRun ι κ) : ℚ := capacityOf run.spec.experiment.run.rateLimit run.rpm

/-- The bucket that is made as the `n`-th of the run. -/
def bucket (run : LimitedRun ι κ) (n : ℕ) : TokenBucket := ⟨.inProcess n, run.rate, run.capacity⟩

theorem rate_pos (run : LimitedRun ι κ) : 0 < run.rate := by
  have hpos : 0 < (run.rpm : ℚ) := Nat.cast_pos.mpr (run.valid.1 run.rpm run.rpm_eq).1
  unfold rate
  positivity

theorem one_le_capacity (run : LimitedRun ι κ) : 1 ≤ run.capacity := by
  unfold capacity capacityOf
  rcases hburst : run.spec.experiment.run.rateLimit.burst with _ | burst
  · exact le_max_left _ _
  · have hone := (run.valid.2 burst hburst).1
    dsimp only
    rw [if_pos (by omega)]
    exact_mod_cast hone

theorem bucket_injective (run : LimitedRun ι κ) : Function.Injective run.bucket := fun _ _ h =>
  BucketState.inProcess.inj (congrArg TokenBucket.state h)

end LimitedRun

/-- A claimed batch: its number among all batches of the run, the parameter overrides of its jobs,
and the executor of the loop that is built for it. -/
structure Batch where
  number : ℕ
  jobs : List Object
  executor : Executor

/-- A request that a bucket let through. -/
structure Request where
  batch : ℕ
  /-- The agent block it binds; none for the declared agent. -/
  agent : Option String
  bucket : TokenBucket

/-- How many in-process buckets and batches there are, the batch of each worker, and the requests
let through so far, in order. -/
structure State (ι : Type) where
  made : ℕ := 0
  batches : ℕ := 0
  current : ι → Option Batch := fun _ => none
  log : List Request := []

/-- What the calls of a run do. -/
inductive Op (ι : Type)
  /-- `execute_run_job` builds the loop of the coordinator. -/
  | coordinate (p : ι)
  /-- `run_scenario_jobs_once` claims jobs, of any iteration, and builds their loop. -/
  | claim (p : ι) (jobs : List Object)
  /-- A job of the batch sends a request to the agent. -/
  | request (p : ι) (job : ℕ)
  /-- The batch is done, or its worker dies. -/
  | close (p : ι)

def init : State ι := {}

section System
variable [DecidableEq ι] (run : LimitedRun ι κ)

/-- The batch of a worker sends a request with the given overrides. -/
def State.send (s : State ι) (p : ι) (batch : Batch) (overrides : Object) : State ι :=
  match adapterFor (run.host p) run.spec batch.executor overrides s.made with
  | .error _ => s
  | .ok (adapter, executor, made) =>
    { s with
      made
      current := Function.update s.current p (some { batch with executor })
      log := s.log ++ (adapter.bucket?.map fun bucket =>
        ⟨batch.number, agentKey (run.host p) overrides, bucket⟩).toList }

/-- One step of a run. -/
def step (s : State ι) : Op ι → Option (State ι)
  | .coordinate p =>
    match buildExecutor (run.host p) run.spec run.redisUrl s.made with
    | .error _ => some s
    | .ok (_, made) => some { s with made }
  | .claim p jobs =>
    if (s.current p).isNone ∧ jobs ≠ [] then
      match buildExecutor (run.host p) run.spec none s.made with
      | .error _ => some s
      | .ok (executor, made) =>
        some { s with
          made
          batches := s.batches + 1
          current := Function.update s.current p (some ⟨s.batches, jobs, executor⟩) }
    else none
  | .request p job =>
    match s.current p with
    | none => none
    | some batch => batch.jobs[job]?.map (s.send run p batch)
  | .close p => some { s with current := Function.update s.current p none }

/-! ### The property and the condition -/

/-- The requests of a log that draw from a bucket. -/
def throughBucket (log : List Request) (bucket : TokenBucket) : Finset ℕ :=
  (Finset.range log.length).filter fun i => log[i]?.map (·.bucket) = some bucket

/-- Under every clock that does not go back, and under which each bucket meets its own bound, the
requests of the log meet that of one bucket. -/
def RunWideLimit (log : List Request) : Prop :=
  ∀ clock : ℕ → ℚ, Monotone clock →
    (∀ r ∈ log, WithinRate r.bucket.capacity r.bucket.ratePerSec clock
      (throughBucket log r.bucket)) →
    WithinRate run.capacity run.rate clock (Finset.range log.length)

/-- All requests are sent for one batch, and bind one agent. -/
def OneBatchAgent (log : List Request) : Prop :=
  ∀ r ∈ log, ∀ r' ∈ log, r.batch = r'.batch ∧ r.agent = r'.agent

/-! ### Who draws from which bucket -/

/-- The bucket of an agent in a batch, as far as it is made. -/
def Batch.bucket? (batch : Batch) (agent : Option String) : Option TokenBucket :=
  (batch.executor.adapter? agent).bind Adapter.bucket?

/-- A bucket is known as that of an agent in a batch: by a request, or by an executor. -/
def Known (s : State ι) (number : ℕ) (agent : Option String) (bucket : TokenBucket) : Prop :=
  ⟨number, agent, bucket⟩ ∈ s.log ∨
    ∃ p batch, s.current p = some batch ∧ batch.number = number ∧ batch.bucket? agent = some bucket

/-- What holds of the buckets of a run. -/
structure Inv (s : State ι) : Prop where
  /-- The executors were built without a url, and each of their adapters has a bucket of the run. -/
  wired : ∀ p batch, s.current p = some batch → batch.executor.redisUrl = none ∧
    batch.number < s.batches ∧ ∀ agent adapter, batch.executor.adapter? agent = some adapter →
      ∃ n < s.made, adapter.bucket? = some (run.bucket n)
  logged : ∀ r ∈ s.log, r.batch < s.batches ∧ ∃ n < s.made, r.bucket = run.bucket n
  /-- No two workers have the same batch. -/
  alone : ∀ p p' batch batch', s.current p = some batch → s.current p' = some batch' →
    batch.number = batch'.number → p = p'
  /-- An executor keeps the bucket of an agent. -/
  kept : ∀ r ∈ s.log, ∀ p batch, s.current p = some batch → batch.number = r.batch →
    batch.bucket? r.agent = some r.bucket
  agree : ∀ number agent bucket number' agent' bucket', Known s number agent bucket →
    Known s number' agent' bucket' → (bucket = bucket' ↔ number = number' ∧ agent = agent')

omit [DecidableEq ι] in
theorem inv_init : Inv run (init : State ι) where
  wired _ _ h := nomatch h
  logged _ h := absurd h List.not_mem_nil
  alone _ _ _ _ h := nomatch h
  kept _ h := absurd h List.not_mem_nil
  agree _ _ _ _ _ _ h := by
    rcases h with h | ⟨_, _, h, -⟩
    · exact absurd h List.not_mem_nil
    · cases h

variable {run} {s s' : State ι}

omit [DecidableEq ι] in
theorem Inv.known (h : Inv run s) {number : ℕ} {agent : Option String} {bucket : TokenBucket}
    (hknown : Known s number agent bucket) :
    number < s.batches ∧ ∃ n < s.made, bucket = run.bucket n := by
  rcases hknown with hlog | ⟨p, batch, hp, rfl, hbucket⟩
  · exact h.logged _ hlog
  · obtain ⟨-, hnumber, hadapter⟩ := h.wired p batch hp
    obtain ⟨adapter, hget, hdraws⟩ := Option.bind_eq_some_iff.mp hbucket
    obtain ⟨n, hn, hmade⟩ := hadapter agent adapter hget
    exact ⟨hnumber, n, hn, Option.some.inj (hdraws.symm.trans hmade)⟩

omit [DecidableEq ι] in
theorem Inv.agree_new (h : Inv run s) (number₀ : ℕ) (agent₀ : Option String)
    (hnone : ∀ bucket, ¬Known s number₀ agent₀ bucket)
    (hnew : ∀ number agent bucket, Known s' number agent bucket → Known s number agent bucket ∨
      (number = number₀ ∧ agent = agent₀ ∧ bucket = run.bucket s.made))
    (number : ℕ) (agent : Option String) (bucket : TokenBucket) (number' : ℕ)
    (agent' : Option String) (bucket' : TokenBucket) (hknown : Known s' number agent bucket)
    (hknown' : Known s' number' agent' bucket') :
    bucket = bucket' ↔ number = number' ∧ agent = agent' := by
  have hfresh : ∀ {number agent bucket}, Known s number agent bucket →
      bucket ≠ run.bucket s.made ∧ ¬(number = number₀ ∧ agent = agent₀) := by
    intro number agent bucket hold
    obtain ⟨-, n, hn, rfl⟩ := h.known hold
    refine ⟨fun heq => absurd (run.bucket_injective heq) (by omega), ?_⟩
    rintro ⟨rfl, rfl⟩
    exact hnone _ hold
  rcases hnew _ _ _ hknown with hold | ⟨rfl, rfl, rfl⟩
  · rcases hnew _ _ _ hknown' with hold' | ⟨rfl, rfl, rfl⟩
    · exact h.agree _ _ _ _ _ _ hold hold'
    · exact iff_of_false (hfresh hold).1 (hfresh hold).2
  · rcases hnew _ _ _ hknown' with hold' | ⟨rfl, rfl, rfl⟩
    · refine iff_of_false (hfresh hold').1.symm fun heq => (hfresh hold').2 ⟨heq.1.symm, heq.2.symm⟩
    · exact iff_of_true rfl ⟨rfl, rfl⟩

/-- A worker gets a batch, or its batch gets an executor with more adapters, while the requests it
has sent draw from the buckets that its executor has. -/
theorem Inv.set (h : Inv run s) {p : ι} {batch : Batch}
    (hcurrent : s'.current = Function.update s.current p (some batch)) (hmade : s.made ≤ s'.made)
    (hbatches : s.batches ≤ s'.batches)
    (hwired : batch.executor.redisUrl = none ∧ batch.number < s'.batches ∧
      ∀ agent adapter, batch.executor.adapter? agent = some adapter →
        ∃ n < s'.made, adapter.bucket? = some (run.bucket n))
    (hlog : ∀ r ∈ s'.log, r ∈ s.log ∨ r.batch = batch.number)
    (hnumber : ∀ q, q ≠ p → ∀ batch', s.current q = some batch' → batch'.number ≠ batch.number)
    (hkept : ∀ r ∈ s'.log, r.batch = batch.number → batch.bucket? r.agent = some r.bucket)
    (hagree : ∀ number agent bucket number' agent' bucket', Known s' number agent bucket →
      Known s' number' agent' bucket' → (bucket = bucket' ↔ number = number' ∧ agent = agent')) :
    Inv run s' := by
  have hself : s'.current p = some batch := by rw [hcurrent, Function.update_self]
  have hother : ∀ q, q ≠ p → s'.current q = s.current q := fun q hq => by
    rw [hcurrent, Function.update_of_ne hq]
  refine ⟨fun q batch' hq => ?_, fun r hr => ?_, fun q q' batch' batch'' hq hq' heq => ?_,
    fun r hr q batch' hq heq => ?_, hagree⟩
  · by_cases hqp : q = p
    · subst hqp
      obtain rfl := Option.some.inj (hself.symm.trans hq)
      exact hwired
    · rw [hother q hqp] at hq
      obtain ⟨hurl, hlt, hadapter⟩ := h.wired q batch' hq
      refine ⟨hurl, hlt.trans_le hbatches, fun agent adapter hget => ?_⟩
      obtain ⟨n, hn, hdraws⟩ := hadapter agent adapter hget
      exact ⟨n, hn.trans_le hmade, hdraws⟩
  · rcases hlog r hr with hold | hnew
    · obtain ⟨hlt, n, hn, hdraws⟩ := h.logged r hold
      exact ⟨hlt.trans_le hbatches, n, hn.trans_le hmade, hdraws⟩
    · obtain ⟨adapter, hget, hdraws⟩ := Option.bind_eq_some_iff.mp (hkept r hr hnew)
      obtain ⟨n, hn, hmade'⟩ := hwired.2.2 _ adapter hget
      exact ⟨hnew ▸ hwired.2.1, n, hn, Option.some.inj (hdraws.symm.trans hmade')⟩
  · by_cases hqp : q = p <;> by_cases hqp' : q' = p
    · rw [hqp, hqp']
    · subst hqp
      obtain rfl := Option.some.inj (hself.symm.trans hq)
      exact absurd heq.symm (hnumber q' hqp' batch'' (hother q' hqp' ▸ hq'))
    · subst hqp'
      obtain rfl := Option.some.inj (hself.symm.trans hq')
      exact absurd heq (hnumber q hqp batch' (hother q hqp ▸ hq))
    · exact h.alone q q' batch' batch'' (hother q hqp ▸ hq) (hother q' hqp' ▸ hq') heq
  · by_cases hqp : q = p
    · subst hqp
      obtain rfl := Option.some.inj (hself.symm.trans hq)
      exact hkept r hr heq.symm
    · rw [hother q hqp] at hq
      rcases hlog r hr with hold | hnew
      · exact h.kept r hold q batch' hq heq
      · exact absurd (heq.trans hnew) (hnumber q hqp batch' hq)

theorem known_set {p : ι} {batch : Batch}
    (hcurrent : s'.current = Function.update s.current p (some batch)) {number : ℕ}
    {agent : Option String} {bucket : TokenBucket} (h : Known s' number agent bucket) :
    ⟨number, agent, bucket⟩ ∈ s'.log ∨ Known s number agent bucket ∨
      (batch.number = number ∧ batch.bucket? agent = some bucket) := by
  rcases h with hlog | ⟨q, batch', hq, hnumber, hget⟩
  · exact .inl hlog
  · by_cases hqp : q = p
    · rw [hcurrent, hqp, Function.update_self] at hq
      obtain rfl := Option.some.inj hq
      exact .inr (.inr ⟨hnumber, hget⟩)
    · rw [hcurrent, Function.update_of_ne hqp] at hq
      exact .inr (.inl (.inr ⟨q, batch', hq, hnumber, hget⟩))

theorem inv_claim (h : Inv run s) {p : ι} {jobs : List Object} {executor : Executor} {made : ℕ}
    (hbuild : buildExecutor (run.host p) run.spec none s.made = .ok (executor, made)) :
    Inv run { s with
      made
      batches := s.batches + 1
      current := Function.update s.current p (some ⟨s.batches, jobs, executor⟩) } := by
  obtain ⟨adapter, -, heq⟩ := map_eq_ok.mp hbuild
  obtain ⟨hbucket, hmade⟩ := wrapResilience_bucket adapter run.rpm_eq
    (bucketKey none (rateLimitKeyForAgent (run.host p) run.spec run.spec.agent)) s.made
  obtain ⟨rfl, rfl⟩ := Prod.mk.inj heq
  rw [hmade]
  refine h.set rfl s.made.le_succ s.batches.le_succ
    ⟨rfl, s.batches.lt_succ_self, fun agent adapter' hget => ?_⟩ (fun r hr => .inl hr)
    (fun q _ batch hq => ((h.wired q batch hq).2.1).ne) (fun r hr hnumber => ?_)
    (h.agree_new s.batches none
      (fun bucket hknown => absurd (h.known hknown).1 (lt_irrefl _))
      fun number agent bucket hknown => ?_)
  · rcases agent with _ | key
    · obtain rfl := Option.some.inj hget
      exact ⟨s.made, s.made.lt_succ_self, hbucket⟩
    · cases hget
  · exact absurd hnumber (h.logged r hr).1.ne
  · rcases known_set rfl hknown with hlog | hold | ⟨rfl, hget⟩
    · exact .inl (.inl hlog)
    · exact .inl hold
    · rcases agent with _ | key
      · exact .inr ⟨rfl, rfl, (Option.some.inj (hbucket.symm.trans hget)).symm⟩
      · cases hget

theorem Inv.sent (h : Inv run s) {p : ι} {batch : Batch} (batch' : Batch) {key : Option String}
    {bucket : TokenBucket} (hp : s.current p = some batch) (hnumber : batch'.number = batch.number)
    (hcurrent : s'.current = Function.update s.current p (some batch'))
    (hlog : s'.log = s.log ++ [⟨batch.number, key, bucket⟩]) (hmade : s.made ≤ s'.made)
    (hbatches : s'.batches = s.batches)
    (hwired : batch'.executor.redisUrl = none ∧ ∀ agent adapter,
      batch'.executor.adapter? agent = some adapter →
        ∃ n < s'.made, adapter.bucket? = some (run.bucket n))
    (hget : batch'.bucket? key = some bucket)
    (hkeeps : ∀ agent b, batch.bucket? agent = some b → batch'.bucket? agent = some b)
    (hgrows : batch' = batch ∨ batch.bucket? key = none ∧ ∀ agent b, batch'.bucket? agent = some b →
      batch.bucket? agent = some b ∨ agent = key ∧ b = run.bucket s.made) : Inv run s' := by
  have hmem : ∀ r ∈ s'.log, r ∈ s.log ∨ r = ⟨batch.number, key, bucket⟩ := by
    intro r hr
    rw [hlog] at hr
    exact (List.mem_append.mp hr).imp id List.mem_singleton.mp
  have halone : ∀ q, q ≠ p → ∀ b, s.current q = some b → b.number ≠ batch.number :=
    fun q hq b hb heq => hq (h.alone q p b batch hb hp heq)
  have hknown : ∀ number agent b, Known s' number agent b →
      Known s number agent b ∨ (batch.number = number ∧ batch'.bucket? agent = some b) := by
    intro number agent b hk
    rcases known_set hcurrent hk with hin | hold | ⟨hnum, hb⟩
    · rcases hmem _ hin with hold | hnew
      · exact .inl (.inl hold)
      · obtain ⟨rfl, rfl, rfl⟩ := Request.mk.inj hnew
        exact .inr ⟨rfl, hget⟩
    · exact .inl hold
    · exact .inr ⟨hnumber.symm.trans hnum, hb⟩
  refine h.set hcurrent hmade hbatches.ge
    ⟨hwired.1, by rw [hnumber, hbatches]; exact (h.wired p batch hp).2.1, hwired.2⟩
    (fun r hr => (hmem r hr).imp id fun heq => by rw [heq, hnumber])
    (fun q hq b hb => by rw [hnumber]; exact halone q hq b hb) (fun r hr hr' => ?_) ?_
  · rcases hmem r hr with hold | rfl
    · exact hkeeps _ _ (h.kept r hold p batch hp (hnumber ▸ hr'.symm))
    · exact hget
  · rcases hgrows with rfl | ⟨hnone, hnew⟩
    · have hold : ∀ number agent b, Known s' number agent b → Known s number agent b :=
        fun number agent b hk => (hknown number agent b hk).elim id
          fun ⟨hnum, hb⟩ => .inr ⟨p, batch', hp, hnum, hb⟩
      exact fun _ _ _ _ _ _ hk hk' => h.agree _ _ _ _ _ _ (hold _ _ _ hk) (hold _ _ _ hk')
    · refine h.agree_new batch.number key (fun b hk => ?_)
        fun number agent b hk => ?_
      · -- no request of the batch and no executor knows the agent yet
        rcases hk with hin | ⟨q, batch'', hq, hnum, hb⟩
        · rw [h.kept _ hin p batch hp rfl] at hnone
          cases hnone
        · obtain rfl := h.alone q p batch'' batch hq hp hnum
          obtain rfl := Option.some.inj (hq.symm.trans hp)
          rw [hb] at hnone
          cases hnone
      · rcases hknown number agent b hk with hold | ⟨rfl, hb⟩
        · exact .inl hold
        · rcases hnew agent b hb with hold | ⟨rfl, rfl⟩
          · exact .inl (.inr ⟨p, batch, hp, rfl, hold⟩)
          · exact .inr ⟨rfl, rfl, rfl⟩

theorem inv_send (h : Inv run s) {p : ι} {batch : Batch} (hp : s.current p = some batch)
    (overrides : Object) : Inv run (s.send run p batch overrides) := by
  unfold State.send
  rcases hadapter : adapterFor (run.host p) run.spec batch.executor overrides s.made with
    e | ⟨adapter, executor, made⟩
  · exact h
  dsimp only
  obtain ⟨hurl, -, hbuckets⟩ := h.wired p batch hp
  rcases adapterFor_spec hadapter with ⟨hget, rfl, rfl⟩ | ⟨key, inner, bucketKey, hkey, hnone, rfl,
    hwrap⟩
  · obtain ⟨n, hn, hdraws⟩ := hbuckets _ adapter hget
    have hbucket : batch.bucket? (agentKey (run.host p) overrides) = some (run.bucket n) := by
      rw [Batch.bucket?, hget]
      exact hdraws
    rw [hdraws]
    exact h.sent batch hp rfl rfl rfl le_rfl rfl ⟨hurl,
      hbuckets⟩ hbucket (fun _ _ hb => hb) (.inl rfl)
  · rw [hurl] at hwrap
    obtain ⟨hdraws, hmade⟩ := wrapResilience_bucket inner run.rpm_eq bucketKey s.made
    rw [← hwrap] at hdraws hmade
    dsimp only at hdraws hmade
    let batch' : Batch := { batch with executor := { batch.executor with
      cache := (key, adapter) :: batch.executor.cache } }
    have hbucket : ∀ agent, batch'.bucket? agent =
        if agent = some key then some (run.bucket s.made) else batch.bucket? agent := by
      intro agent
      unfold Batch.bucket?
      rw [Executor.adapter?_cached]
      split_ifs
      · exact hdraws
      · rfl
    have hnobucket : batch.bucket? (some key) = none := by
      rw [Batch.bucket?, hnone]
      rfl
    rw [hdraws, hkey]
    refine h.sent batch' hp rfl rfl rfl (hmade ▸ s.made.le_succ) rfl
      ⟨hurl, fun agent adapter' hget =>
        ?_⟩ (by rw [hbucket, if_pos rfl]; rfl) (fun agent b hb => ?_)
      (.inr ⟨hnobucket, fun agent b hb => ?_⟩)
    · rw [Executor.adapter?_cached] at hget
      dsimp only
      split_ifs at hget with hagent
      · obtain rfl := Option.some.inj hget
        exact ⟨s.made, by omega, hdraws⟩
      · obtain ⟨n, hn, hb⟩ := hbuckets agent adapter' hget
        exact ⟨n, by omega, hb⟩
    · rw [hbucket]
      split_ifs with hagent
      · rw [hagent, hnobucket] at hb
        cases hb
      · exact hb
    · rw [hbucket] at hb
      split_ifs at hb with hagent
      · exact .inr ⟨hagent, (Option.some.inj hb).symm⟩
      · exact .inl hb

omit [DecidableEq ι] in
theorem inv_coordinate (h : Inv run s) {made : ℕ} (hmade : s.made ≤ made) :
    Inv run { s with made } where
  wired p batch hp := by
    obtain ⟨hurl, hlt, hadapter⟩ := h.wired p batch hp
    refine ⟨hurl, hlt, fun agent adapter hget => ?_⟩
    obtain ⟨n, hn, hdraws⟩ := hadapter agent adapter hget
    exact ⟨n, hn.trans_le hmade, hdraws⟩
  logged r hr := by
    obtain ⟨hlt, n, hn, hdraws⟩ := h.logged r hr
    exact ⟨hlt, n, hn.trans_le hmade, hdraws⟩
  alone := h.alone
  kept := h.kept
  agree := h.agree

theorem inv_close (h : Inv run s) (p : ι) :
    Inv run { s with current := Function.update s.current p none } := by
  have hold : ∀ q batch,
    Function.update s.current p none q = some batch → s.current q = some batch := by
    intro q batch hq
    by_cases hqp : q = p
    · rw [hqp, Function.update_self] at hq
      cases hq
    · rwa [Function.update_of_ne hqp] at hq
  have hknown : ∀ number agent bucket,
      Known { s with current := Function.update s.current p none } number agent bucket →
        Known s number agent bucket := by
    intro number agent bucket hk
    rcases hk with hlog | ⟨q, batch, hq, hnumber, hget⟩
    · exact .inl hlog
    · exact .inr ⟨q, batch, hold q batch hq, hnumber, hget⟩
  exact {
    wired := fun q batch hq => h.wired q batch (hold q batch hq)
    logged := h.logged
    alone := fun q q' batch batch' hq hq' =>
      h.alone q q' batch batch' (hold q batch hq) (hold q' batch' hq')
    kept := fun r hr q batch hq => h.kept r hr q batch (hold q batch hq)
    agree := fun _ _ _ _ _ _ hk hk' =>
      h.agree _ _ _ _ _ _ (hknown _ _ _ hk) (hknown _ _ _ hk') }

theorem inv_step (h : Inv run s) (op : Op ι) (hs : step run s op = some s') : Inv run s' := by
  rcases op with p | ⟨p, jobs⟩ | ⟨p, job⟩ | p
  · simp only [step] at hs
    rcases hbuild :
      buildExecutor (run.host p) run.spec run.redisUrl s.made with e | ⟨executor, made⟩
    · rw [hbuild] at hs
      obtain rfl := Option.some.inj hs
      exact h
    · rw [hbuild] at hs
      obtain rfl := Option.some.inj hs
      obtain ⟨adapter, -, heq⟩ := map_eq_ok.mp hbuild
      obtain ⟨-, rfl⟩ := Prod.mk.inj heq
      exact inv_coordinate h (le_wrapResilience _ _ _ _ _)
  · simp only [step] at hs
    split_ifs at hs
    rcases hbuild : buildExecutor (run.host p) run.spec none s.made with e | ⟨executor, made⟩
    · rw [hbuild] at hs
      obtain rfl := Option.some.inj hs
      exact h
    · rw [hbuild] at hs
      obtain rfl := Option.some.inj hs
      exact inv_claim h hbuild
  · simp only [step] at hs
    rcases hp : s.current p with _ | batch
    · rw [hp] at hs
      cases hs
    · rw [hp] at hs
      obtain ⟨overrides, -, rfl⟩ := Option.map_eq_some_iff.mp hs
      exact inv_send h hp overrides
  · obtain rfl := Option.some.inj hs
    exact inv_close h p

theorem inv_exec {ops : List (Op ι)} (hs : exec (step run) init ops = some s) : Inv run s :=
  inv_of_exec (fun _ op _ h hstep => inv_step h op hstep) (inv_init run) hs

/-- **Two requests draw from one bucket exactly when they are of one batch and bind one agent.** -/
theorem bucket_eq_iff {ops : List (Op ι)} (hs : exec (step run) init ops = some s) {r r' : Request}
    (hr : r ∈ s.log) (hr' : r' ∈ s.log) :
    r.bucket = r'.bucket ↔ r.batch = r'.batch ∧ r.agent = r'.agent :=
  (inv_exec hs).agree _ _ _ _ _ _ (.inl hr) (.inl hr')

/-! ### The limit of the run -/

omit [DecidableEq ι] in
theorem forall_mem_iff_forall_part {log : List Request} {P : Finset ℕ → Prop} (hempty : P ∅) :
    (∀ r ∈ log, P (throughBucket log r.bucket)) ↔
      ∀ b, P (partOf (fun i => log[i]?.map (·.bucket)) log.length b) := by
  constructor
  · intro h b
    by_cases hb : ∃ r ∈ log, b = some r.bucket
    · obtain ⟨r, hr, rfl⟩ := hb
      exact h r hr
    · have hnone : partOf (fun i => log[i]?.map (·.bucket)) log.length b = ∅ := by
        refine Finset.filter_eq_empty_iff.mpr fun i hi hpart => hb ?_
        have hlt := Finset.mem_range.mp hi
        dsimp only at hpart
        rw [List.getElem?_eq_getElem hlt] at hpart
        exact ⟨log[i], List.getElem_mem hlt, hpart.symm⟩
      rwa [hnone]
  · intro h r _
    exact h (some r.bucket)

omit [DecidableEq ι] in
theorem onePart_iff {log : List Request} :
    OnePart (fun i => log[i]?.map (·.bucket)) log.length ↔
      ∀ r ∈ log, ∀ r' ∈ log, r.bucket = r'.bucket := by
  constructor
  · intro h r hr r' hr'
    obtain ⟨i, hi, rfl⟩ := List.getElem_of_mem hr
    obtain ⟨j, hj, rfl⟩ := List.getElem_of_mem hr'
    have hparts := h i hi j hj
    dsimp only at hparts
    rw [List.getElem?_eq_getElem hi, List.getElem?_eq_getElem hj] at hparts
    exact Option.some.inj hparts
  · intro h i hi j hj
    dsimp only
    rw [List.getElem?_eq_getElem hi, List.getElem?_eq_getElem hj]
    exact congrArg some (h _ (List.getElem_mem hi) _ (List.getElem_mem hj))

/-- **The limit holds for the run as a whole if and only if** all its requests are sent for one
batch and bind one agent, or there are no more of them than one burst. -/
theorem runWideLimit_iff {ops : List (Op ι)} (hs : exec (step run) init ops = some s) :
    RunWideLimit run s.log ↔ OneBatchAgent s.log ∨ (s.log.length : ℚ) ≤ run.capacity := by
  have hown : ∀ clock : ℕ → ℚ,
      (∀ r ∈ s.log, WithinRate r.bucket.capacity r.bucket.ratePerSec clock
        (throughBucket s.log r.bucket)) ↔
      ∀ b, WithinRate run.capacity run.rate clock
        (partOf (fun i => s.log[i]?.map (·.bucket)) s.log.length b) := by
    intro clock
    rw [← forall_mem_iff_forall_part (P := WithinRate run.capacity run.rate clock)
      (withinRate_of_card_le run.rate_pos.le (by
        rw [Finset.card_empty, Nat.cast_zero]
        linarith [run.one_le_capacity]))]
    refine forall₂_congr fun r hr => ?_
    obtain ⟨-, n, -, hbucket⟩ := (inv_exec hs).logged r hr
    rw [hbucket]
    rfl
  have hone : OnePart (fun i => s.log[i]?.map (·.bucket)) s.log.length ↔ OneBatchAgent s.log :=
    onePart_iff.trans (forall₂_congr fun r hr => forall₂_congr fun r' hr' =>
      bucket_eq_iff hs hr hr')
  unfold RunWideLimit
  rw [← hone, ← parts_withinRate_iff run.rate_pos run.one_le_capacity]
  exact forall₂_congr fun clock _ => imp_congr_left (hown clock)

end System

/-! ### One request a minute, two batches -/

section Batches

/-- One request per second at most, and no burst. -/
def slowRun : LimitedRun Unit EvalCase where
  spec :=
    let spec := Repo.Loader.SpecRoundTrip.refundSpec none
    { spec with experiment := { spec.experiment with
        run := { spec.experiment.run with
          rateLimit := { requestsPerMinute := some 60, burst := some 1 } } } }
  host _ := {
    importer := fun _ => .object "run" true "function"
    isDir := fun _ => true
    dumps := fun _ => "{}"
    str := fun _ => "" }
  redisUrl := some "redis://localhost:6379/0"
  rpm := 60
  rpm_eq := rfl
  valid := by decide

/-- One batch of one job, which sends two requests. -/
def oneBatch : List (Op Unit) := [.coordinate (), .claim () [[]], .request () 0, .request () 0]

/-- Two batches of one job each, which sends one request. -/
def twoBatches : List (Op Unit) :=
  [.coordinate (), .claim () [[]], .request () 0, .close (), .claim () [[]], .request () 0]

def twoBatchesLog : List Request := [⟨0, none, slowRun.bucket 0⟩, ⟨1, none, slowRun.bucket 1⟩]

theorem exec_oneBatch : (exec (step slowRun) init oneBatch).map (·.log) =
    some [⟨0, none, slowRun.bucket 0⟩, ⟨0, none, slowRun.bucket 0⟩] := rfl

theorem exec_twoBatches :
    (exec (step slowRun) init twoBatches).map (·.log) = some twoBatchesLog := rfl

/-- Within one batch the limit holds. -/
theorem limited_one_batch :
    ∃ s, exec (step slowRun) init oneBatch = some s ∧ RunWideLimit slowRun s.log := by
  obtain ⟨s, hs, hlog⟩ := Option.map_eq_some_iff.mp exec_oneBatch
  refine ⟨s, hs, (runWideLimit_iff hs).mpr (.inl ?_)⟩
  rw [hlog]
  intro r hr r' hr'
  simp only [List.mem_cons, List.not_mem_nil, or_false, or_self] at hr hr'
  rw [hr, hr']
  exact ⟨rfl, rfl⟩

/-- **Two batches send two requests at one instant**, where a burst is one. -/
theorem not_all_limited :
    ¬∀ (run : LimitedRun Unit EvalCase) (ops : List (Op Unit)) (s : State Unit),
      exec (step run) init ops = some s → RunWideLimit run s.log := by
  intro h
  obtain ⟨s, hs, hlog⟩ := Option.map_eq_some_iff.mp exec_twoBatches
  have hrun := h slowRun twoBatches s hs
  rw [hlog] at hrun
  have hcapacity : slowRun.capacity = 1 := rfl
  have hown : ∀ r ∈ twoBatchesLog, WithinRate r.bucket.capacity r.bucket.ratePerSec (fun _ => 0)
      (throughBucket twoBatchesLog r.bucket) := by
    intro r hr
    have hbucket : r.bucket.capacity = 1 ∧ 0 ≤ r.bucket.ratePerSec ∧
        (throughBucket twoBatchesLog r.bucket).card ≤ 1 := by
      revert r
      decide +kernel
    obtain ⟨hone, hrate, hcard⟩ := hbucket
    refine withinRate_of_card_le hrate ?_
    rw [hone]
    exact_mod_cast hcard
  have hwindow := hrun (fun _ => 0) monotone_const hown 0 0 le_rfl
  have hboth : (inWindow (fun _ => (0 : ℚ)) 0 0 (Finset.range twoBatchesLog.length)).card = 2 := by
    decide +kernel
  rw [hboth, hcapacity] at hwindow
  norm_num at hwindow

end Batches

end Selfevals.Worker.RunRateLimit
