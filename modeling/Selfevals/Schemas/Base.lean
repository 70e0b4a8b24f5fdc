import Mathlib.Tactic

/-!
# The shared fields of stored entities

`BaseEntity` holds what every persistent entity has; `Entity` is the class of the entity types, each
of which carries a `BaseEntity`. Instants are integers (microseconds since the epoch, UTC).
-/

namespace Selfevals.Schemas.Base

/-- A UTC `datetime`, in microseconds. -/
abbrev Time := ℤ

/-- `timedelta(seconds=n)`. -/
def seconds (n : ℤ) : Time := n * 1000000

/-- A reference to another entity by id and optional version. -/
structure EntityRef where
  id : String
  version : Option ℕ := none
deriving DecidableEq, Repr

/-- `BaseEntity`. -/
structure BaseEntity where
  id : String
  workspaceId : String
  version : ℕ := 1
  createdAt : Time
  updatedAt : Time
  deletedAt : Option Time := none
deriving DecidableEq, Repr

/-- An entity type: it carries the shared fields, and `created_at` can be put back. -/
class Entity (α : Type*) where
  base : α → BaseEntity
  withCreatedAt : α → Time → α
  base_withCreatedAt : ∀ (e : α) (t : Time),
    base (withCreatedAt e t) = { base e with createdAt := t }

end Selfevals.Schemas.Base
