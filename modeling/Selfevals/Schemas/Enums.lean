import Mathlib.Tactic

/-!
# Enumerations with string values

The `StrEnum`s and `Literal` types of the schemas. `Coded` is what they share: every member has a
string value, by which it is written and found again (`ofValue_value`).
-/

namespace Selfevals.Schemas.Enums

/-- An enumeration whose members are known by their string values. -/
class Coded (α : Type) where
  value : α → String
  members : List α
  mem_members : ∀ a, a ∈ members := by intro a; cases a <;> simp
  value_injective : Function.Injective value := by intro a b; cases a <;> cases b <;> simp

namespace Coded
variable {α : Type} [Coded α]

/-- The member with a string value, as validation finds it. -/
def ofValue (s : String) : Option α := members.find? fun a => value a == s

@[simp] theorem ofValue_value (a : α) : ofValue (value a) = some a := by
  unfold ofValue
  have hsome : (members.find? fun b : α => value b == value a).isSome := by
    rw [List.find?_isSome]
    exact ⟨a, mem_members a, by simp⟩
  obtain ⟨b, hb⟩ := Option.isSome_iff_exists.mp hsome
  have heq : value b = value a := by simpa using List.find?_some hb
  rw [hb, value_injective heq]

theorem value_of_ofValue {s : String} {a : α} (h : ofValue s = some a) : value a = s := by
  simpa using List.find?_some h

end Coded

/-! ### `schemas/enums.py` -/

inductive DatasetType
  | smoke | golden | regression | capability | productionSample | adversarialSafety | calibration
  | incidentQueue
deriving DecidableEq, Repr

instance : Coded DatasetType where
  value
    | .smoke => "smoke"
    | .golden => "golden"
    | .regression => "regression"
    | .capability => "capability"
    | .productionSample => "production_sample"
    | .adversarialSafety => "adversarial_safety"
    | .calibration => "calibration"
    | .incidentQueue => "incident_queue"
  members := [.smoke, .golden, .regression, .capability, .productionSample, .adversarialSafety,
    .calibration, .incidentQueue]

inductive SandboxMode
  | mock | dryRun | liveSandboxed | liveCanary
deriving DecidableEq, Repr

instance : Coded SandboxMode where
  value
    | .mock => "mock"
    | .dryRun => "dry_run"
    | .liveSandboxed => "live_sandboxed"
    | .liveCanary => "live_canary"
  members := [.mock, .dryRun, .liveSandboxed, .liveCanary]

inductive RuntimeLocation
  | offline | replay | simulation | shadow | canary | online | humanReview
deriving DecidableEq, Repr

instance : Coded RuntimeLocation where
  value
    | .offline => "offline"
    | .replay => "replay"
    | .simulation => "simulation"
    | .shadow => "shadow"
    | .canary => "canary"
    | .online => "online"
    | .humanReview => "human_review"
  members := [.offline, .replay, .simulation, .shadow, .canary, .online, .humanReview]

inductive Mode
  | agentLoop | handoff
deriving DecidableEq, Repr

instance : Coded Mode where
  value
    | .agentLoop => "agent_loop"
    | .handoff => "handoff"
  members := [.agentLoop, .handoff]

inductive ProposerStrategy
  | manual | grid | random | bayesian | bandit | evolutionary | llmProposer
deriving DecidableEq, Repr

instance : Coded ProposerStrategy where
  value
    | .manual => "manual"
    | .grid => "grid"
    | .random => "random"
    | .bayesian => "bayesian"
    | .bandit => "bandit"
    | .evolutionary => "evolutionary"
    | .llmProposer => "llm_proposer"
  members := [.manual, .grid, .random, .bayesian, .bandit, .evolutionary, .llmProposer]

inductive ExperimentState
  | draft | queued | running | paused | completed | aborted | superseded
deriving DecidableEq, Repr

instance : Coded ExperimentState where
  value
    | .draft => "draft"
    | .queued => "queued"
    | .running => "running"
    | .paused => "paused"
    | .completed => "completed"
    | .aborted => "aborted"
    | .superseded => "superseded"
  members := [.draft, .queued, .running, .paused, .completed, .aborted, .superseded]

inductive DecisionOutcome
  | keepCandidate | reject | revert | featureFlag | investigate | requireTradeoffReview
  | spawnSubexperiment
deriving DecidableEq, Repr

instance : Coded DecisionOutcome where
  value
    | .keepCandidate => "keep_candidate"
    | .reject => "reject"
    | .revert => "revert"
    | .featureFlag => "feature_flag"
    | .investigate => "investigate"
    | .requireTradeoffReview => "require_tradeoff_review"
    | .spawnSubexperiment => "spawn_subexperiment"
  members := [.keepCandidate, .reject, .revert, .featureFlag, .investigate,
    .requireTradeoffReview, .spawnSubexperiment]

inductive SpanKind
  | agentTurn | llmCall | toolCall | retrieval | memoryRead | memoryWrite | decision | handoff
  | humanIntervention | guardrailCheck | stt | tts | error | custom
deriving DecidableEq, Repr

instance : Coded SpanKind where
  value
    | .agentTurn => "agent_turn"
    | .llmCall => "llm_call"
    | .toolCall => "tool_call"
    | .retrieval => "retrieval"
    | .memoryRead => "memory_read"
    | .memoryWrite => "memory_write"
    | .decision => "decision"
    | .handoff => "handoff"
    | .humanIntervention => "human_intervention"
    | .guardrailCheck => "guardrail_check"
    | .stt => "stt"
    | .tts => "tts"
    | .error => "error"
    | .custom => "custom"
  members := [.agentTurn, .llmCall, .toolCall, .retrieval, .memoryRead, .memoryWrite, .decision,
    .handoff, .humanIntervention, .guardrailCheck, .stt, .tts, .error, .custom]

inductive Level
  | singleStep | multiStep | finalResponse | stepLevel | toolCall | retrieval | memoryContext
  | workflow | trajectory | conversation | system | agent
deriving DecidableEq, Repr

instance : Coded Level where
  value
    | .singleStep => "single_step"
    | .multiStep => "multi_step"
    | .finalResponse => "final_response"
    | .stepLevel => "step_level"
    | .toolCall => "tool_call"
    | .retrieval => "retrieval"
    | .memoryContext => "memory_context"
    | .workflow => "workflow"
    | .trajectory => "trajectory"
    | .conversation => "conversation"
    | .system => "system"
    | .agent => "agent"
  members := [.singleStep, .multiStep, .finalResponse, .stepLevel, .toolCall, .retrieval,
    .memoryContext, .workflow, .trajectory, .conversation, .system, .agent]

inductive DatasetSource
  | handcrafted | production | staging | development | failure | synthetic | adversarial
  | humanLabeled | externalBenchmark | simulation | custom
deriving DecidableEq, Repr

instance : Coded DatasetSource where
  value
    | .handcrafted => "handcrafted"
    | .production => "production"
    | .staging => "staging"
    | .development => "development"
    | .failure => "failure"
    | .synthetic => "synthetic"
    | .adversarial => "adversarial"
    | .humanLabeled => "human_labeled"
    | .externalBenchmark => "external_benchmark"
    | .simulation => "simulation"
    | .custom => "custom"
  members := [.handcrafted, .production, .staging, .development, .failure, .synthetic, .adversarial,
    .humanLabeled, .externalBenchmark, .simulation, .custom]

inductive PiiStatus
  | raw | detected | scrubbed | synthetic | approvedRaw
deriving DecidableEq, Repr

instance : Coded PiiStatus where
  value
    | .raw => "raw"
    | .detected => "detected"
    | .scrubbed => "scrubbed"
    | .synthetic => "synthetic"
    | .approvedRaw => "approved_raw"
  members := [.raw, .detected, .scrubbed, .synthetic, .approvedRaw]

inductive DatasetStatus
  | draft | frozen | active | archived
deriving DecidableEq, Repr

instance : Coded DatasetStatus where
  value
    | .draft => "draft"
    | .frozen => "frozen"
    | .active => "active"
    | .archived => "archived"
  members := [.draft, .frozen, .active, .archived]

end Selfevals.Schemas.Enums
