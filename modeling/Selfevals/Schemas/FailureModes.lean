import Selfevals.Schemas.Experiments

/-!
# Failure modes

An entry of a workspace's taxonomy, with its evidence. `slugPattern` is what the validator of `slug`
matches.
-/

namespace Selfevals.Schemas.FailureModes

open Schemas.Base Schemas.Enums Schemas.Experiments

inductive FailureModeStatus
  | candidate | official | retired
deriving DecidableEq, Repr

instance : Coded FailureModeStatus where
  value
    | .candidate => "candidate"
    | .official => "official"
    | .retired => "retired"
  members := [.candidate, .official, .retired]

/-- Evidence that links a trace to a failure mode. -/
structure FailureModeExample where
  traceId : String
  quotePointer : Option String := none
  quoteHash : Option String := none
  note : Option String := none
deriving DecidableEq, Repr

/-- `FailureMode`. -/
structure FailureMode extends BaseEntity where
  slug : String
  title : String
  definition : String
  status : FailureModeStatus := .candidate
  parentModeId : Option String := none
  examples : List FailureModeExample := []
  proposedBy : String := "seed"
  firstSeenIteration : Option ℕ := none
  supersededBy : Option String := none

instance : Entity FailureMode where
  base m := m.toBaseEntity
  withCreatedAt m createdAt := { m with createdAt := createdAt }
  base_withCreatedAt _ _ := rfl

/-- What a slug begins with. -/
def isSlugStart (c : Char) : Bool := ('a' ≤ c && c ≤ 'z') || ('0' ≤ c && c ≤ '9')

/-- What a slug goes on with. -/
def isSlugChar (c : Char) : Bool := isSlugStart c || c = '_'

/-- `^[a-z0-9][a-z0-9_]{0,62}$`; `$` matches before a newline at the end, too. -/
def slugPattern (slug : String) : Bool :=
  let cs := slug.toList
  let cs := if cs.getLast? = some '\n' then cs.dropLast else cs
  match cs with
  | [] => false
  | c :: cs => isSlugStart c && cs.all isSlugChar && cs.length ≤ 62

/-- What the model accepts. -/
@[mk_iff]
structure FailureMode.Valid (m : FailureMode) : Prop where
  base : BaseEntity.Valid m.toBaseEntity
  slug : NonEmpty m.slug ∧ slugPattern m.slug = true
  texts : NonEmpty m.title ∧ NonEmpty m.definition ∧ NonEmpty m.proposedBy
  examples : ∀ ex ∈ m.examples, NonEmpty ex.traceId

instance (m : FailureMode) : Decidable m.Valid := decidable_of_iff' _ m.valid_iff

example : slugPattern "invented_price" = true ∧ slugPattern "Invented price" = false := by decide

end Selfevals.Schemas.FailureModes
