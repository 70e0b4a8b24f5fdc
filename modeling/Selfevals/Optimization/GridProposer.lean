import Selfevals.Schemas.Experiments
import Selfevals.Schemas.Iterations

/-!
# The grid proposer

`GridProposer` proposes, one after the other, what the search space spans: each agent with each
choice of one value for each model parameter that is a list. `ensureCombos` lists them; an agent is
kept for all parameters before the next one.

* `mem_product`: the product has each choice.
* `pairwise_product`: the product of increasing lists is increasing.
-/

namespace Selfevals.Optimization.GridProposer

open Lib.JsonValue Lib.Mapping Schemas.Experiments Schemas.Iterations

/-! ### Products -/

/-- `itertools.product`: the last list varies fastest. -/
def product {α : Type} : List (List α) → List (List α)
  | [] => [[]]
  | xs :: xss => xs.flatMap fun x => (product xss).map (x :: ·)

section Product
variable {α : Type}

theorem mem_product {xss : List (List α)} {ys : List α} :
    ys ∈ product xss ↔ List.Forall₂ (· ∈ ·) ys xss := by
  induction xss generalizing ys with
  | nil => simp [product]
  | cons xs xss ih =>
    cases ys with
    | nil => simp [product]
    | cons y ys => simp [product, ih]

theorem length_product (xss : List (List α)) :
    (product xss).length = (xss.map List.length).prod := by
  induction xss with
  | nil => rfl
  | cons xs xss ih => simp [product, ih]

theorem product_eq_nil {xss : List (List α)} : product xss = [] ↔ [] ∈ xss := by
  rw [← List.length_eq_zero_iff, length_product, List.prod_eq_zero_iff]
  simp

theorem pairwise_product {r : α → α → Prop} {xss : List (List α)}
    (h : ∀ xs ∈ xss, xs.Pairwise r) : (product xss).Pairwise (List.Lex r) := by
  induction xss with
  | nil => simp [product]
  | cons xs xss ih =>
    have hxs : xs.Pairwise r := h xs List.mem_cons_self
    have hrest := ih fun ys hys => h ys (List.mem_cons_of_mem xs hys)
    unfold product
    rw [List.pairwise_flatMap]
    refine ⟨fun x _ => ?_, hxs.imp fun {x x'} hr => ?_⟩
    · rw [List.pairwise_map]
      exact hrest.imp fun hlex => List.Lex.cons hlex
    · intro ys hys ys' hys'
      obtain ⟨zs, -, rfl⟩ := List.mem_map.mp hys
      obtain ⟨zs', -, rfl⟩ := List.mem_map.mp hys'
      exact List.Lex.rel hr

end Product

/-! ### The combinations -/

/-- The parameters that are lists, with their values. -/
def axes (searchSpace : Object) : List (String × List Json) :=
  searchSpace.filterMap fun (k, v) =>
    match v with
    | .arr items => some (k, items)
    | _ => none

/-- The parameters that are not. -/
def constants (searchSpace : Object) : Object :=
  searchSpace.filter fun (_, v) =>
    match v with
    | .arr _ => false
    | _ => true

/-- The constants, with a value for each axis. -/
def combine (searchSpace : Object) (values : List Json) : Object :=
  (((axes searchSpace).map Prod.fst).zip values).foldl (fun d (k, val) => setItem k val d)
    (constants searchSpace)

/-- `_grid_combinations`. -/
def gridCombinations (searchSpace : Object) : List Object :=
  if axes searchSpace = [] then
    if constants searchSpace = [] then [] else [constants searchSpace]
  else (product ((axes searchSpace).map Prod.snd)).map (combine searchSpace)

/-- The `ValueError` of an empty grid. -/
def emptyGrid : String :=
  "grid proposer requires at least one combination in " ++
    "experiment.search_space.model_params or search_space.agents"

/-- `_ensure_combos`. -/
def ensureCombos (searchSpace : SearchSpace) : Except String (List Object) :=
  let paramCombos := gridCombinations searchSpace.modelParams
  let agents := searchSpace.agents
  if paramCombos = [] ∧ agents = [] then .error emptyGrid
  else if agents = [] then .ok (paramCombos.map fun p => [("model_params", .obj p)])
  else if paramCombos = [] then .ok (agents.map fun a => [("agent", .obj a)])
  else
    -- the agent varies slowest
    .ok (agents.flatMap fun a => paramCombos.map fun p =>
      [("agent", .obj a), ("model_params", .obj p)])

/-! ### The proposals -/

/-- `_PROPOSAL_KEY_TO_EDITABLE`. -/
def proposalKeyToEditable : List (String × (EditableContract → Bool)) :=
  [("prompt", (·.prompt)), ("system_prompt", (·.prompt)), ("model", (·.modelChoice)),
    ("agent", (·.modelChoice)), ("model_params", (·.modelParams)),
    ("tool_descriptions", (·.toolDescriptions)), ("tool_code", (·.toolCode)),
    ("workflow_graph", (·.workflowGraph)), ("graph", (·.workflowGraph)), ("skills", (·.skills)),
    ("dataset", (·.dataset)), ("graders", (·.graders))]

/-- `violations_against`, of a proposal without code changes. -/
def violationsAgainst (parameters : Object) (editable : EditableContract) : List String :=
  (parameters.map Prod.fst).filter fun key =>
    match proposalKeyToEditable.lookup key with
    | some flag => !flag editable
    | none => false

section Describe
variable (pyStr : Json → String)

def describeAgent (agent : Object) : String :=
  let label := dictGet agent "name"
  if label.truthy then pyStr label
  else
    let kind := pyStr (dictGetD agent "type" (.str "agent"))
    let value := ["url", "entrypoint", "command"].findSome? fun key =>
      let value := dictGet agent key
      if value.truthy then
        match value with
        | .arr items => some (" ".intercalate (items.map pyStr))
        | value => some (pyStr value)
      else none
    match value with
    | some value => kind ++ ":" ++ value
    | none => kind

/-- `_describe_combo`. -/
def describeCombo (params : Object) : String :=
  let agent := match params.lookup "agent" with
    | some (.obj agent) => [describeAgent pyStr agent]
    | some agent => [pyStr agent]
    | none => []
  let modelParams := dictGet params "model_params"
  let parts := agent ++ if modelParams.truthy then [pyStr modelParams] else []
  let text := " + ".intercalate parts
  if text = "" then pyStr (.obj params) else text

end Describe

/-- What a proposer comes up with. -/
inductive Proposed
  | proposal (p : Proposal)
  /-- `SearchSpaceExhaustedError`. -/
  | exhausted (message : String)
  /-- `ValueError`, or another exception. -/
  | raised (message : String)
  /-- `ProposalRejectedError`. -/
  | rejected (violations : List String)

/-- `propose`; the combinations it keeps are those of the experiment. -/
def propose (pyStr : Json → String) (e : Experiment) (iterationIndex : ℕ) : Proposed :=
  match ensureCombos e.searchSpace with
  | .error message => .raised message
  | .ok combos =>
    match combos[iterationIndex]? with
    | none => .exhausted ("grid exhausted after " ++ toString combos.length ++ " combinations")
    | some params =>
      if violationsAgainst params e.editable = [] then
        .proposal {
          parameters := params
          hypothesis := "grid[" ++ toString iterationIndex ++ "]: " ++ describeCombo pyStr params }
      else .rejected (violationsAgainst params e.editable)

end Selfevals.Optimization.GridProposer
