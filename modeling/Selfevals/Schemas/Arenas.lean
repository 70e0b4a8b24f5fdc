import Selfevals.Lib.JsonValue

/-!
# Arenas

An arena runs variants of an agent's code against each other, round by round. What a launch of a
round neither reads nor writes is left out.
-/

namespace Selfevals.Schemas.Arenas

open Lib.JsonValue

inductive ArenaState
  | draft | active | completed | archived
deriving DecidableEq, Repr

inductive ArenaVariantState
  | registered | preparing | ready | failed | retired
deriving DecidableEq, Repr

inductive ArenaRoundState
  | pending | running | completed | failed | cancelled
deriving DecidableEq, Repr

/-- `max_variants` is for registering. -/
structure ArenaBudget where
  maxRounds : Option ℕ := none
  maxCostUsd : Option ℚ := none
  maxRounds_pos : ∀ n ∈ maxRounds, 1 ≤ n := by simp
  maxCostUsd_pos : ∀ cost ∈ maxCostUsd, 0 < cost := by simp

/-- `Arena`. -/
structure Arena where
  id : String
  name : String
  agentCommand : List String
  agentEnv : List (String × String) := []
  specTemplate : Object := []
  datasetId : Option String := none
  budget : ArenaBudget := {}
  currentRound : ℕ := 0
  state : ArenaState := .draft

/-- `ArenaVariant`. -/
structure ArenaVariant where
  id : String
  name : String
  worktreePath : Option String := none
  envOverrides : List (String × String) := []
  state : ArenaVariantState := .registered
deriving DecidableEq, Repr

/-- One variant's participation in one round. -/
structure RoundEntry where
  variantId : String
  experimentId : Option String := none
  runJobId : Option String := none
  status : String := "pending"
deriving DecidableEq, Repr

/-- `ArenaRound`. -/
structure ArenaRound where
  id : String
  arenaId : String
  index : ℕ
  entries : List RoundEntry := []
  reps : ℤ := 1
  state : ArenaRoundState := .pending
deriving DecidableEq, Repr

end Selfevals.Schemas.Arenas
