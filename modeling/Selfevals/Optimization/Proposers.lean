import Selfevals.Lib.Sql
import Selfevals.Optimization.GridProposer

/-!
# The proposers

Next to the grid there are a list of proposals, random samples of the search space, and hypotheses:
the proposer of an LLM asks it, or, without one, applies the hypotheses that are pending. A proposer
remembers the state of its generator, and stamps the hypothesis it consumes.

* `Reproducible`: the first proposal is the same in every process, as it is for `grid`, for `manual`
  and for a seeded `random`.
-/

namespace Selfevals.Optimization.Proposers

open Lib.JsonValue Lib.Sql Schemas.Base Schemas.Experiments Schemas.Iterations
  Optimization.GridProposer

/-! ### Hypotheses -/

/-- A hypothesis as it is stored. -/
structure HypothesisRecord where
  id : String
  experimentId : String
  createdAt : Time
  targetsModeSlug : String
  statement : String
  suggestedParameters : Object := []
  consumedByIteration : Option ℕ := none
deriving DecidableEq

/-- What a proposer is shown; none of them looks at the history. -/
structure ProposerContext where
  iterationIndex : ℕ
  failureModes : List String := []
  pendingHypotheses : List HypothesisRecord := []

/-- `_pending_hypotheses`. -/
def pendingHypotheses (experimentId : String) (stored : List HypothesisRecord) :
    List HypothesisRecord :=
  orderBy (fun h => toLex (h.createdAt, h.id))
    (stored.filter fun h => h.experimentId = experimentId ∧ h.consumedByIteration = none)

/-- `_next_pending_hypothesis`. -/
def nextPendingHypothesis (context : ProposerContext) : Option HypothesisRecord :=
  context.pendingHypotheses.find? fun h => h.consumedByIteration = none

/-- `_proposal_from_hypothesis`. -/
def proposalFromHypothesis (hyp : HypothesisRecord) : Proposal :=
  { parameters := hyp.suggestedParameters, hypothesis := hyp.statement }

/-! ### Samples -/

/-- Python's `random.Random`, and `float(v)`. -/
structure Generator (R : Type) where
  ofSeed : ℤ → R
  /-- The index of `rng.choice` in a sequence of this length. -/
  choice : R → ℕ → ℕ × R
  uniform : R → ℚ → ℚ → ℚ × R
  float : Json → Option ℚ

section Sample
variable {R : Type} (g : Generator R)

/-- `rng.choice(items)`. -/
def choose {α : Type} (rng : R) (items : List α) : Except String (α × R) :=
  match items[(g.choice rng items.length).1]? with
  | none => .error "cannot choose from an empty sequence"
  | some item => .ok (item, (g.choice rng items.length).2)

/-- `_sample_value`. -/
def sampleValue (rng : R) (spec : Json) : Except String (Json × R) :=
  match spec with
  | .arr [] => .error "cannot sample from empty list"
  | .arr items => choose g rng items
  | .obj fields =>
    match fields.lookup "choices", fields.lookup "lo", fields.lookup "hi" with
    | some (.arr items), _, _ => choose g rng items
    | some v, _, _ => .error ("object of type '" ++ v.typeName ++ "' is not a sequence")
    | none, some lo, some hi =>
      match g.float lo, g.float hi with
      | some lo, some hi => .ok (.float (g.uniform rng lo hi).1, (g.uniform rng lo hi).2)
      | _, _ => .error "could not convert to float"
    | none, _, _ => .ok (spec, rng)
  | spec => .ok (spec, rng)

/-- A sample of each parameter, in their order. -/
def sampleParams (rng : R) : Object → Except String (Object × R)
  | [] => .ok ([], rng)
  | (k, spec) :: rest => do
    let (v, rng) ← sampleValue g rng spec
    let (params, rng) ← sampleParams rng rest
    return ((k, v) :: params, rng)

/-- The parameters of a random proposal. -/
def randomParams (rng : R) (searchSpace : SearchSpace) : Except String (Object × R) := do
  let (modelParams, rng) ← sampleParams g rng searchSpace.modelParams
  let (agent, rng) ←
    if searchSpace.agents = [] then .ok ([], rng)
    else do
      let (agent, rng) ← choose g rng searchSpace.agents
      .ok ([("agent", .obj agent)], rng)
  if modelParams ≠ [] ∨ agent = [] then return (agent ++ [("model_params", .obj modelParams)], rng)
  else return (agent, rng)

end Sample

/-! ### The proposers -/

/-- `_validate_or_raise`. -/
def validated (e : Experiment) (proposal : Proposal) : Proposed :=
  if violationsAgainst proposal.parameters e.editable = [] then .proposal proposal
  else .rejected (violationsAgainst proposal.parameters e.editable)

/-- The proposers that are built for an experiment, and the one with an LLM, whose answer is what
the adapter's output parses to. -/
inductive Proposer (R : Type)
  | grid
  | manual (proposals : List Proposal)
  | random (maxProposals : ℕ) (seed : Option ℤ)
  | llm (answer : Option (Experiment → ProposerContext → R → Proposed × R))

section Propose
variable {R : Type} (g : Generator R) (pyStr : Json → String)

/-- The generator's state in a new process: that of the seed, if there is one. -/
def Proposer.start (proposer : Proposer R) (entropy : R) : R :=
  match proposer with
  | .random _ (some seed) => g.ofSeed seed
  | _ => entropy

/-- The hypothesis that is stamped for a proposal that is made. -/
def consumedBy (context : ProposerContext) : Proposed → Option HypothesisRecord
  | .proposal _ => (nextPendingHypothesis context).map fun hyp =>
    { hyp with consumedByIteration := some context.iterationIndex }
  | _ => none

/-- `propose`, with the generator's next state and the hypothesis that is consumed. -/
def Proposer.propose (proposer : Proposer R) (e : Experiment) (context : ProposerContext)
    (rng : R) :
    Proposed × R × Option HypothesisRecord :=
  match proposer with
  | .grid => (GridProposer.propose pyStr e context.iterationIndex, rng, none)
  | .manual proposals =>
    match proposals[context.iterationIndex]? with
    | none =>
      (.exhausted ("manual proposer exhausted after " ++ toString proposals.length ++ " proposals"),
        rng,
        none)
    | some proposal => (validated e proposal, rng, none)
  | .random maxProposals _ =>
    if maxProposals ≤ context.iterationIndex then
      (.exhausted ("random proposer exhausted after " ++ toString maxProposals ++ " samples"), rng,
        none)
    else
      match randomParams g rng e.searchSpace with
      | .error message => (.raised message, rng, none)
      | .ok (params, rng) =>
        (validated e {
          parameters := params
          hypothesis :=
            "random[" ++ toString context.iterationIndex ++ "]: " ++ describeCombo pyStr params },
          rng, none)
  | .llm none =>
    match nextPendingHypothesis context with
    | none => (.exhausted "llm proposer (offline) exhausted: no pending hypotheses remain", rng,
      none)
    | some hyp =>
      let proposed := validated e (proposalFromHypothesis hyp)
      (proposed, rng, consumedBy context proposed)
  | .llm (some answer) =>
    let (proposed, rng) := answer e context rng
    (proposed, rng, consumedBy context proposed)

end Propose

end Selfevals.Optimization.Proposers
