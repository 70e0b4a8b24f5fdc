import Selfevals.Schemas.Experiments

/-!
# Workspaces and members

A workspace is the tenant that every other entity belongs to, itself included; a member is a user
who holds one role in it. `slugPattern` is what the validator of `slug` matches.
-/

namespace Selfevals.Schemas.Workspaces

open Schemas.Base Schemas.Enums Schemas.Experiments

/-- `Role`. -/
inductive Role
  | viewer | evaluator | experimenter | maintainer | admin | auditor
deriving DecidableEq, Repr

instance codedRole : Coded Role where
  value
    | .viewer => "viewer"
    | .evaluator => "evaluator"
    | .experimenter => "experimenter"
    | .maintainer => "maintainer"
    | .admin => "admin"
    | .auditor => "auditor"
  members := [.viewer, .evaluator, .experimenter, .maintainer, .admin, .auditor]

/-- The settings of a workspace. -/
structure WorkspaceSettings where
  defaultRuntime : String := "offline"
  retentionDays : ℕ := 365
deriving DecidableEq, Repr

/-- `Workspace`. -/
structure Workspace extends BaseEntity where
  slug : String
  name : String
  description : Option String := none
  ownerId : Option String := none
  settings : WorkspaceSettings := {}
deriving DecidableEq, Repr

instance : Entity Workspace where
  base w := w.toBaseEntity
  withCreatedAt w createdAt := { w with createdAt := createdAt }
  base_withCreatedAt _ _ := rfl

/-- `Member`. -/
structure Member extends BaseEntity where
  userId : String
  role : Role
  invitedBy : Option String := none
deriving DecidableEq, Repr

instance : Entity Member where
  base m := m.toBaseEntity
  withCreatedAt m createdAt := { m with createdAt := createdAt }
  base_withCreatedAt _ _ := rfl

def isSlugStart (c : Char) : Bool := ('a' ≤ c && c ≤ 'z') || ('0' ≤ c && c ≤ '9')

def isSlugChar (c : Char) : Bool := isSlugStart c || c = '_' || c = '-'

/-- `^[a-z0-9][a-z0-9_-]{0,62}$`; `$` matches before a newline at the end, too. -/
def slugPattern (slug : String) : Bool :=
  let cs := slug.toList
  let cs := if cs.getLast? = some '\n' then cs.dropLast else cs
  match cs with
  | [] => false
  | c :: cs => isSlugStart c && cs.all isSlugChar && cs.length ≤ 62

/-- What the model accepts of a workspace. -/
def Workspace.Valid (w : Workspace) : Prop :=
  BaseEntity.Valid w.toBaseEntity ∧
    (NonEmpty w.slug ∧ w.slug.length ≤ 63 ∧ slugPattern w.slug = true) ∧ NonEmpty w.name ∧
    (∀ ownerId ∈ w.ownerId, NonEmpty ownerId) ∧
    (1 ≤ w.settings.retentionDays ∧ w.settings.retentionDays ≤ 3650) ∧ w.workspaceId = w.id
deriving Decidable

/-- What the model accepts of a member. -/
def Member.Valid (m : Member) : Prop :=
  BaseEntity.Valid m.toBaseEntity ∧ NonEmpty m.userId ∧ ∀ by_ ∈ m.invitedBy, NonEmpty by_
deriving Decidable

example : slugPattern "acme-2" = true ∧ slugPattern "-acme" = false := by decide

end Selfevals.Schemas.Workspaces
