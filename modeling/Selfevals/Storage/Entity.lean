import Selfevals.Schemas.Base

/-!
# The entity store: `put_entity` on one row

`putEntity` is what `_PostgresScope.put_entity` does to the row of the entity's id: the ownership
guard, the read of the stored version and owner and the version check (`checkPut`), and the upsert,
which replaces every column but `id` and `created_at`.

`accepts` is the version check alone: it lets a write through if the stored version is the entity's
own or the one before it. A write that leaves the version as read therefore passes whenever no other
write has bumped it (`accepts_self`), which is what the run-job and experiment writers all do.
-/

namespace Selfevals.Storage.Entity

open Schemas.Base

/-- What the store raises. -/
inductive StorageError
  | optimisticConcurrency (entityId : String) (expected found : ℕ)
  | workspaceMismatch (expected found : String)
  | entityNotFound (entityId workspaceId : String)
deriving DecidableEq, Repr

/-- `stored_version in (entity.version - 1, entity.version)`. -/
def accepts (stored version : ℕ) : Bool := stored + 1 == version || stored == version

@[simp] theorem accepts_self (v : ℕ) : accepts v v = true := by simp [accepts]

theorem accepts_iff {stored version : ℕ} :
    accepts stored version = true ↔ stored + 1 = version ∨ stored = version := by
  simp [accepts]

variable {α : Type*} [Entity α]

open Entity (base withCreatedAt)

/-- `mapper.upsert`: every column is replaced but `id` and `created_at`. -/
def upsert (existing : Option α) (entity : α) : α :=
  match existing with
  | none => entity
  | some row => withCreatedAt entity (base row).createdAt

/-- What `put_entity` checks in the scope of a workspace, on the row stored under the entity's id.
-/
def checkPut (workspaceId : String) (existing : Option α) (entity : α) : Except StorageError Unit :=
  if (base entity).workspaceId ≠ workspaceId then
    .error (.workspaceMismatch workspaceId (base entity).workspaceId)
  else
    match existing with
    | none => .ok ()
    | some row =>
      if (base row).workspaceId ≠ workspaceId then
        .error (.workspaceMismatch workspaceId (base row).workspaceId)
      else if accepts (base row).version (base entity).version then .ok ()
      else
        .error (.optimisticConcurrency (base entity).id (base entity).version (base row).version)

/-- `put_entity`: the checks, then the write. -/
def putEntity (workspaceId : String) (existing : Option α) (entity : α) :
    Except StorageError α :=
  (checkPut workspaceId existing entity).map fun _ => upsert existing entity

theorem checkPut_of_same {row entity : α}
    (hws : (base entity).workspaceId = (base row).workspaceId) :
    checkPut (base entity).workspaceId (some row) entity =
      if accepts (base row).version (base entity).version then .ok ()
      else
        .error (.optimisticConcurrency (base entity).id (base entity).version
          (base row).version) := by
  unfold checkPut
  rw [if_neg (by simp)]
  dsimp only
  rw [if_neg (by simp [hws])]

theorem checkPut_workspaceId {workspaceId : String} {existing : Option α} {entity : α}
    (h : checkPut workspaceId existing entity = .ok ()) :
    (base entity).workspaceId = workspaceId := by
  unfold checkPut at h
  split_ifs at h with hentity
  exact not_not.mp hentity

theorem checkPut_eq_ok {workspaceId : String} {row entity : α}
    (h : checkPut workspaceId (some row) entity = .ok ()) :
    (base entity).workspaceId = workspaceId ∧ (base row).workspaceId = workspaceId := by
  unfold checkPut at h
  split_ifs at h with hentity
  dsimp only at h
  split_ifs at h with hrow
  exact ⟨not_not.mp hentity, not_not.mp hrow⟩

theorem putEntity_of_same {row entity : α}
    (hws : (base entity).workspaceId = (base row).workspaceId)
    (hv : (base entity).version = (base row).version) :
    putEntity (base entity).workspaceId (some row) entity = .ok (upsert (some row) entity) := by
  unfold putEntity
  rw [checkPut_of_same hws, hv, if_pos (accepts_self _)]
  rfl

/-- The row after `put_entity` of a copy, in a scope of the copy's workspace, if it is accepted. -/
def tryPut (row copy : α) : Option α := (putEntity (base copy).workspaceId (some row) copy).toOption

theorem tryPut_of_same {row copy : α} (hws : (base copy).workspaceId = (base row).workspaceId)
    (hv : (base copy).version = (base row).version) :
    tryPut row copy = some (withCreatedAt copy (base row).createdAt) := by
  unfold tryPut
  rw [putEntity_of_same hws hv]
  rfl

theorem putEntity_eq_ok {workspaceId : String} {existing : Option α} {entity row : α}
    (h : putEntity workspaceId existing entity = .ok row) :
    checkPut workspaceId existing entity = .ok () ∧ row = upsert existing entity := by
  unfold putEntity at h
  cases hc : checkPut workspaceId existing entity with
  | error e => rw [hc] at h; simp [Except.map] at h
  | ok u =>
    rw [hc] at h
    simp only [Except.map, Except.ok.injEq] at h
    exact ⟨rfl, h.symm⟩

theorem tryPut_eq_some {row copy row' : α} (h : tryPut row copy = some row') :
    row' = upsert (some row) copy := by
  unfold tryPut at h
  cases hput : putEntity (base copy).workspaceId (some row) copy with
  | error e => rw [hput] at h; simp [Except.toOption] at h
  | ok r =>
    rw [hput] at h
    obtain rfl : r = row' := by simpa [Except.toOption] using h
    exact (putEntity_eq_ok hput).2

end Selfevals.Storage.Entity
