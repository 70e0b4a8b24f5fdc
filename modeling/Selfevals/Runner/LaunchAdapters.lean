import Selfevals.Repo.Loader.Agent
import Selfevals.Runner.LaunchGraders

/-!
# Adapters of a launch

`buildAdapter` turns an agent spec into an adapter, `wrapResilience` puts retries and the rate limit
around it. The bucket of the limit is under a key in Redis if there is a url and a key for it;
otherwise it is a new object of the process. An executor holds the adapter of the declared agent and
builds those of `search_space.agents` on demand, each once.

The in-process buckets are numbered in the order in which they are made.

* `wrapResilience_bucket` : the bucket of a limited run;
-/

namespace Selfevals.Runner.LaunchAdapters

open Lib.JsonValue Lib.Result Schemas.Experiments Repo.Loader.Models Repo.Loader.Agent
  Graders.Registry Runner.LaunchGraders

/-! ### Adapters -/

/-- Where a bucket keeps its tokens. -/
inductive BucketState
  | inProcess (n : ℕ)
  | redis (url key : String)
deriving DecidableEq, Repr

structure TokenBucket where
  state : BucketState
  ratePerSec : ℚ
  capacity : ℚ
deriving DecidableEq, Repr

structure RetryPolicy where
  maxRetries : ℕ
  baseDelay : ℚ
  maxDelay : ℚ
  multiplier : ℚ
  jitter : ℚ
deriving DecidableEq, Repr

/-- The adapters that a launch stacks. -/
inductive Adapter
  /-- The adapter of a transport, with the fields of its spec. -/
  | transport (agent : AgentSpec)
  | retrying (inner : Adapter) (policy : RetryPolicy)
  | rateLimited (inner : Adapter) (bucket : TokenBucket)
deriving DecidableEq, Repr

/-- The bucket that each invocation draws from. -/
def Adapter.bucket? : Adapter → Option TokenBucket
  | .rateLimited _ bucket => some bucket
  | _ => none

/-- What a process offers to the adapters that are built in it. -/
structure AdapterHost where
  importer : Importer
  isDir : String → Bool
  /-- `json.dumps(block, sort_keys=True, default=str)`. -/
  dumps : Object → String
  /-- An f-string of what is no string. -/
  str : Json → String

/-- What building an adapter raises: the loader for an agent block, the adapter itself otherwise. -/
abbrev AdapterError := LoadError ⊕ LaunchError

/-- `build_adapter`. -/
def buildAdapter (host : AdapterHost) (agent : AgentSpec) : Except LaunchError Adapter :=
  match agent with
  | .embedded a =>
    match host.importer a.entrypoint with
    | .loaderError text => .error (.userError [.text text])
    | .raised what => .error (.raised what)
    | .object _ callable typeName =>
      if callable then .ok (.transport agent)
      else .error (.userError [.text "agent entrypoint ", .repr (.str a.entrypoint.raw),
        .text s!" resolved to a non-callable ({typeName})"])
  | .cli a =>
    match a.cwd with
    | none => .ok (.transport agent)
    | some cwd =>
      if host.isDir cwd then .ok (.transport agent)
      else .error (.valueError [.text "agent.cwd does not exist or is not a directory: ",
        .repr (.str cwd)])
  | .http _ => .ok (.transport agent)

/-! ### Resilience -/

/-- `_provider_of`. -/
def providerOf : AgentSpec → Option String
  | .embedded _ => none
  | .cli a => a.model.map (·.provider.val)
  | .http a => a.model.map (·.provider.val)

section Spec
variable {κ : Type}

def workspaceText (host : AdapterHost) : Json → String
  | .str s => s
  | v => host.str v

/-- `_rate_limit_key_for_agent`. -/
def rateLimitKeyForAgent (host : AdapterHost) (spec : ExperimentSpec κ) (agent : AgentSpec) :
    String :=
  let workspace := workspaceText host spec.workspaceId
  match providerOf agent with
  | none => s!"selfevals:ratelimit:{workspace}:exp:{spec.experiment.id}"
  | some provider => s!"selfevals:ratelimit:{workspace}:provider:{provider}"

/-- `key if redis_url else None`. -/
def bucketKey (redisUrl : Option String) (key : String) : Option String :=
  if redisUrl.any (· ≠ "") then some key else none

/-- The capacity of the bucket for so many requests per minute: the burst, or what a second adds. -/
def capacityOf (limit : RateLimitSpec) (rpm : ℕ) : ℚ :=
  match limit.burst with
  | some burst => if burst ≠ 0 then burst else max 1 (rpm / 60)
  | none => max 1 (rpm / 60)

/-- The adapter, with retries where there are any. -/
def withRetries (adapter : Adapter) (retry : RetrySpec) : Adapter :=
  if 0 < retry.maxRetries then
    .retrying adapter ⟨retry.maxRetries, retry.baseDelaySeconds, retry.maxDelaySeconds,
      retry.multiplier, retry.jitter⟩
  else adapter

/-- `_wrap_resilience`, where `made` in-process buckets exist: the adapter, and how many exist then.
-/
def wrapResilience (adapter : Adapter) (run : RunSpec) (redisUrl key : Option String) (made : ℕ) :
    Adapter × ℕ :=
  let adapter := withRetries adapter run.retry
  match run.rateLimit.requestsPerMinute with
  | none => (adapter, made)
  | some rpm =>
    let capacity := capacityOf run.rateLimit rpm
    match redisUrl, key with
    | some url, some key => (.rateLimited adapter ⟨.redis url key, rpm / 60, capacity⟩, made)
    | _, _ => (.rateLimited adapter ⟨.inProcess made, rpm / 60, capacity⟩, made + 1)

/-- `agent_block_adapter_factory`. -/
def agentBlockAdapterFactory (host : AdapterHost) (spec : ExperimentSpec κ)
    (redisUrl : Option String)
    (block : Object) (made : ℕ) : Except AdapterError (Adapter × ℕ) := do
  let variant ← (buildAgentSpec s!"{spec.experiment.id}:search_space.agents"
    [("agent", .obj block)]).mapError .inl
  let adapter ← (buildAdapter host variant).mapError .inr
  return wrapResilience adapter spec.experiment.run redisUrl
    (bucketKey redisUrl (rateLimitKeyForAgent host spec variant)) made

/-! ### Executors -/

/-- The adapters of an executor: that of the declared agent, and those built for agent blocks. -/
structure Executor where
  adapter : Adapter
  redisUrl : Option String
  cache : List (String × Adapter) := []

/-- The executor that `build_loop` wires for a spec. -/
def buildExecutor (host : AdapterHost) (spec : ExperimentSpec κ) (redisUrl : Option String)
    (made : ℕ) :
    Except LaunchError (Executor × ℕ) :=
  (buildAdapter host spec.agent).map fun adapter =>
    let wrapped := wrapResilience adapter spec.experiment.run redisUrl
      (bucketKey redisUrl (rateLimitKeyForAgent host spec spec.agent)) made
    ({ adapter := wrapped.1, redisUrl }, wrapped.2)

/-- The key under which the adapter for the overrides is cached; none for the declared agent. -/
def agentKey (host : AdapterHost) (overrides : Object) : Option String :=
  match dictGet overrides "agent" with
  | .obj block => some (host.dumps block)
  | _ => none

/-- The adapter under a key, as far as it is built. -/
def Executor.adapter? (executor : Executor) : Option String → Option Adapter
  | none => some executor.adapter
  | some key => executor.cache.lookup key

theorem Executor.adapter?_cached (executor : Executor) (key : String) (adapter : Adapter)
    (agent : Option String) :
    Executor.adapter? { executor with cache := (key, adapter) :: executor.cache } agent =
      if agent = some key then some adapter else executor.adapter? agent := by
  rcases agent with _ | key'
  · rfl
  · show List.lookup key' ((key, adapter) :: executor.cache) = _
    by_cases hkeys : key' = key
    · rw [if_pos (congrArg some hkeys), hkeys, List.lookup_cons_self]
    · rw [if_neg fun h => hkeys (Option.some.inj h), List.lookup_cons, beq_false_of_ne hkeys]
      rfl

/-- `_adapter_for`: the adapter, the executor and how many in-process buckets exist then. -/
def adapterFor (host : AdapterHost) (spec : ExperimentSpec κ) (executor : Executor)
    (overrides : Object) (made : ℕ) : Except AdapterError (Adapter × Executor × ℕ) :=
  match dictGet overrides "agent" with
  | .null => .ok (executor.adapter, executor, made)
  | .obj block =>
    let key := host.dumps block
    match executor.cache.lookup key with
    | some cached => .ok (cached, executor, made)
    | none =>
      (agentBlockAdapterFactory host spec executor.redisUrl block made).map fun built =>
        (built.1, { executor with cache := (key, built.1) :: executor.cache }, built.2)
  | v => .error (.inr (.valueError
      [.text s!"proposal 'agent' must be a mapping (an agent: block), got {v.typeName}"]))

/-! ### What they give -/

theorem wrapResilience_bucket (adapter : Adapter) {run : RunSpec} {rpm : ℕ}
    (hrpm : run.rateLimit.requestsPerMinute = some rpm) (key : Option String) (made : ℕ) :
    (wrapResilience adapter run none key made).1.bucket? =
        some ⟨.inProcess made, rpm / 60, capacityOf run.rateLimit rpm⟩ ∧
      (wrapResilience adapter run none key made).2 = made + 1 := by
  unfold wrapResilience
  rw [hrpm]
  exact ⟨rfl, rfl⟩

theorem le_wrapResilience (adapter : Adapter) (run : RunSpec) (redisUrl key : Option String)
    (made : ℕ) : made ≤ (wrapResilience adapter run redisUrl key made).2 := by
  unfold wrapResilience
  rcases run.rateLimit.requestsPerMinute with _ | rpm
  · exact le_rfl
  · rcases redisUrl with _ | url
    · exact made.le_succ
    · rcases key with _ | key
      · exact made.le_succ
      · exact le_rfl

/-- **Which adapter an invocation takes**: the one under its key. Either it was there, and the
executor stays as it is, or it is built now, for an agent of its own, and nothing else changes. -/
theorem adapterFor_spec {host : AdapterHost} {spec : ExperimentSpec κ}
    {executor executor' : Executor}
    {overrides : Object} {made made' : ℕ} {adapter : Adapter}
    (h : adapterFor host spec executor overrides made = .ok (adapter, executor', made')) :
    (executor.adapter? (agentKey host overrides) = some adapter ∧ executor' = executor ∧
      made' = made) ∨
      ∃ key inner bucketKey,
        agentKey host overrides = some key ∧ executor.adapter? (some key) = none ∧
        executor' = { executor with cache := (key, adapter) :: executor.cache } ∧
        (adapter, made') =
          wrapResilience inner spec.experiment.run executor.redisUrl bucketKey made := by
  unfold adapterFor at h
  unfold agentKey
  cases hget : dictGet overrides "agent" with
  | null =>
    rw [hget] at h
    obtain ⟨rfl, rfl, rfl⟩ := (Prod.mk.inj (Except.ok.inj h)).imp id Prod.mk.inj
    exact .inl ⟨rfl, rfl, rfl⟩
  | obj block =>
    rw [hget] at h
    dsimp only at h ⊢
    rcases hcached : executor.cache.lookup (host.dumps block) with _ | cached
    · rw [hcached] at h
      obtain ⟨⟨built, made⟩, hbuilt, heq⟩ := map_eq_ok.mp h
      obtain ⟨rfl, rfl, rfl⟩ := (Prod.mk.inj heq).imp id Prod.mk.inj
      obtain ⟨variant, -, hvariant⟩ := bind_eq_ok.mp hbuilt
      obtain ⟨inner, -, hwrapped⟩ := bind_eq_ok.mp hvariant
      exact .inr ⟨host.dumps block, inner, _, rfl, hcached, rfl, (Except.ok.inj hwrapped).symm⟩
    · rw [hcached] at h
      obtain ⟨rfl, rfl, rfl⟩ := (Prod.mk.inj (Except.ok.inj h)).imp id Prod.mk.inj
      exact .inl ⟨hcached, rfl, rfl⟩
  | bool | int | float | str | arr =>
    rw [hget] at h
    cases h

end Spec

end Selfevals.Runner.LaunchAdapters
