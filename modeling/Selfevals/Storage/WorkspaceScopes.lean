import Selfevals.Lib.ForeignKeys
import Selfevals.Lib.Run
import Selfevals.Storage.Entity

/-!
# Workspace scopes

Any number of scopes, each of one workspace, work on the tables of all workspaces. `put_entity`
reads the owner of an id in one statement and writes in the next, `delete_entity` likewise; and the
write is `ON CONFLICT (id) DO UPDATE SET`, which sets every column but `id` and `created_at`, the
owner as well. A deletion takes the rows that refer to the deleted one with it, or their references.
-/

namespace Selfevals.Storage.WorkspaceScopes

open Lib.ForeignKeys Lib.Run Schemas.Base Storage.Entity
open Lib.ForeignKeys.Database (Depends)

/-! ### Rows -/

/-- A column that refers to a row of a table. -/
structure ForeignKey where
  column : String
  target : String × String
  onDelete : OnDelete
deriving DecidableEq, Repr

/-- The row of an entity: its table, the shared columns, the foreign keys that are not null and the
other columns. -/
structure Row (κ : Type) extends BaseEntity where
  table : String
  foreignKeys : List ForeignKey := []
  rest : κ
deriving DecidableEq

variable {γ κ : Type}

instance : Entity (Row κ) where
  base row := row.toBaseEntity
  withCreatedAt row createdAt := { row with createdAt := createdAt }
  base_withCreatedAt _ _ := rfl

def Row.key (row : Row κ) : String × String := (row.table, row.id)

/-- The foreign keys that stay when rows are gone. -/
def ForeignKey.stays (gone : String × String → Bool) (fk : ForeignKey) : Bool :=
  !(decide (fk.onDelete = .setNull) && gone fk.target)

instance : Referring (Row κ) (String × String) where
  key := Row.key
  references row := row.foreignKeys.map fun fk => ⟨fk.target, fk.onDelete⟩
  clear gone row := { row with foreignKeys := row.foreignKeys.filter (ForeignKey.stays gone) }
  key_clear _ _ := rfl
  clear_eq_self_iff gone row := by
    rw [List.forall_mem_map]
    have heq : ({ row with foreignKeys := row.foreignKeys.filter (ForeignKey.stays gone) } : Row
      κ) =
        row ↔ row.foreignKeys.filter (ForeignKey.stays gone) = row.foreignKeys := by
      constructor
      · exact fun h => congrArg Row.foreignKeys h
      · intro h
        rw [h]
    rw [heq, List.filter_eq_self]
    refine forall₂_congr fun fk _ => ?_
    rw [ForeignKey.stays, Bool.not_eq_true', Bool.and_eq_false_imp, decide_eq_true_iff]

@[simp] theorem key_upsert (existing : Option (Row κ)) (row : Row κ) :
    Referring.key (upsert existing row) = row.key := by
  cases existing <;> rfl

@[simp] theorem workspaceId_upsert (existing : Option (Row κ)) (row : Row κ) :
    (upsert existing row).workspaceId = row.workspaceId := by
  cases existing <;> rfl

/-! ### What a scope reads -/

section Reads
variable (db : Database (Row κ)) (workspaceId : String)

/-- `mapper.load`. -/
def load (key : String × String) : Option (Row κ) :=
  db.rows.find? fun row => row.key = key ∧ row.workspaceId = workspaceId

/-- `get_entity`. -/
def getEntity (key : String × String) : Except StorageError (Row κ) :=
  match load db workspaceId key with
  | some row => .ok row
  | none =>
    match db.find? key with
    | some row => .error (.workspaceMismatch workspaceId row.workspaceId)
    | none => .error (.entityNotFound key.2 workspaceId)

/-- `exists`. -/
def entityExists (key : String × String) : Bool :=
  db.rows.any fun row => row.key = key ∧ row.workspaceId = workspaceId

/-- A `ListFilter`: the rows that are wanted, and how they are ordered and cut. -/
structure ListFilter (κ : Type) where
  wanted : Row κ → Bool
  page : List (Row κ) → List (Row κ)

/-- The rows of a table that belong to a workspace. -/
def owned (table : String) (row : Row κ) : Bool :=
  row.table = table ∧ row.workspaceId = workspaceId

/-- `list_entities`. -/
def listEntities (table : String) (filter : ListFilter κ) : List (Row κ) :=
  filter.page ((db.rows.filter (owned workspaceId table)).filter filter.wanted)

end Reads

/-- A workspace reads the same of two databases: by id, by whether an id exists, and by lists. -/
def SameReads (workspaceId : String) (db db' : Database (Row κ)) : Prop :=
  (∀ key, load db' workspaceId key = load db workspaceId key) ∧
    (∀ key, entityExists db' workspaceId key = entityExists db workspaceId key) ∧
      ∀ table filter, listEntities db' workspaceId table filter =
        listEntities db workspaceId table filter

/-! ### The owner checks -/

/-- What `delete_entity` checks. -/
def checkDelete (workspaceId : String) (existing : Option (Row κ)) (key : String × String) :
    Except StorageError Unit :=
  match existing with
  | none => .error (.entityNotFound key.2 workspaceId)
  | some row =>
    if row.workspaceId ≠ workspaceId then .error (.workspaceMismatch workspaceId row.workspaceId)
    else .ok ()

/-! ### The system of scopes -/

/-- What a scope is in the middle of. -/
inductive Scope (κ : Type)
  | idle
  /-- `put_entity`, its check passed. -/
  | putting (row : Row κ)
  /-- `delete_entity`, its check passed. -/
  | deleting (key : String × String)

structure State (γ κ : Type) where
  db : Database (Row κ)
  scope : γ → Scope κ

/-- What the scopes of workspaces do. -/
inductive Op (γ κ : Type)
  | get (c : γ) (key : String × String)
  /-- `put_entity` up to its check. -/
  | put (c : γ) (row : Row κ)
  /-- The write of `put_entity`. -/
  | write (c : γ)
  /-- `delete_entity` up to its check. -/
  | delete (c : γ) (key : String × String)
  /-- The `DELETE` of `delete_entity`. -/
  | remove (c : γ)
  /-- An operation ends with another error. -/
  | fail (c : γ)

def Op.by : Op γ κ → γ
  | .get c _ | .put c _ | .write c | .delete c _ | .remove c | .fail c => c

/-- No scope is in the middle of anything. -/
def State.init (db : Database (Row κ)) : State γ κ := ⟨db, fun _ => .idle⟩

/-- Every row that a row refers to is stored. -/
def ReferencesStored (db : Database (Row κ)) (row : Row κ) : Prop :=
  ∀ fk ∈ row.foreignKeys, (db.find? fk.target).isSome
deriving Decidable

section System
variable (workspaceOf : γ → String)

/-- The storage error an operation raises, if it does. -/
def result (s : State γ κ) : Op γ κ → Except StorageError Unit
  | .get c key => (getEntity s.db (workspaceOf c) key).map fun _ => ()
  | .put c row => checkPut (workspaceOf c) (s.db.find? row.key) row
  | .delete c key => checkDelete (workspaceOf c) (s.db.find? key) key
  | .write _ | .remove _ | .fail _ => .ok ()

/-- The id an operation is about. -/
def target (s : State γ κ) : Op γ κ → Option (String × String)
  | .get _ key | .delete _ key => some key
  | .put _ row => some row.key
  | .write c =>
    match s.scope c with
    | .putting row => some row.key
    | _ => none
  | .remove c =>
    match s.scope c with
    | .deleting key => some key
    | _ => none
  | .fail _ => none

variable [DecidableEq γ]

def State.setScope (s : State γ κ) (c : γ) (x : Scope κ) : State γ κ :=
  { s with scope := Function.update s.scope c x }

/-- The database after `mapper.upsert`; a reference to a row that is not stored is refused. -/
def upsertRow (db : Database (Row κ)) (row : Row κ) : Database (Row κ) :=
  let db' := db.set (upsert (db.find? row.key) row)
  if ReferencesStored db' row then db' else db

/-- One step of a scope, each of which does one thing after the other. -/
def step (s : State γ κ) : Op γ κ → Option (State γ κ)
  | .get c _ =>
    match s.scope c with
    | .idle => some s
    | _ => none
  | .put c row =>
    match s.scope c with
    | .idle =>
      match checkPut (workspaceOf c) (s.db.find? row.key) row with
      | .ok () => some (s.setScope c (.putting row))
      | .error _ => some s
    | _ => none
  | .write c =>
    match s.scope c with
    | .putting row => some { s.setScope c .idle with db := upsertRow s.db row }
    | _ => none
  | .delete c key =>
    match s.scope c with
    | .idle =>
      match checkDelete (workspaceOf c) (s.db.find? key) key with
      | .ok () => some (s.setScope c (.deleting key))
      | .error _ => some s
    | _ => none
  | .remove c =>
    match s.scope c with
    | .deleting key => some { s.setScope c .idle with db := s.db.delete key }
    | _ => none
  | .fail c => some (s.setScope c .idle)

/-- No stored row changes its owner. -/
def OwnersKept (db db' : Database (Row κ)) : Prop :=
  ∀ key row row', db.find? key = some row → db'.find? key = some row' →
    row'.workspaceId = row.workspaceId

/-- **What isolation says of an operation**: no row changes its owner, no other workspace reads
anything else than before, and an id of another workspace is refused with a mismatch. -/
def Isolated (s : State γ κ) (op : Op γ κ) : Prop :=
  (∀ s', step workspaceOf s op = some s' → OwnersKept s.db s'.db ∧
    ∀ workspaceId, workspaceId ≠ workspaceOf op.by → SameReads workspaceId s.db s'.db) ∧
  ∀ key row, target s op = some key → s.db.find? key = some row →
    row.workspaceId ≠ workspaceOf op.by →
      ∃ found, result workspaceOf s op = .error (.workspaceMismatch (workspaceOf op.by) found)

/-- The row under the id a put writes, if there is one, is of the scope's workspace; and so is every
row that depends on one that is deleted. -/
def InTurn (s : State γ κ) : Op γ κ → Prop
  | .write c => ∀ row, s.scope c = .putting row → ∀ existing, s.db.find? row.key = some existing →
      existing.workspaceId = workspaceOf c
  | .remove c => ∀ key, s.scope c = .deleting key → ∀ row ∈ s.db.rows,
      Depends s.db.rows key row → row.workspaceId = workspaceOf c
  | _ => True

end System

/-! ### What a workspace reads, by its own rows -/

theorem owned_of_key (workspaceId : String) (key : String × String) (row : Row κ) :
    decide (row.key = key ∧ row.workspaceId = workspaceId) =
      (owned workspaceId key.1 row && decide (row.key = key)) := by
  rw [Bool.eq_iff_iff]
  simp only [owned, Row.key, Prod.ext_iff, Bool.and_eq_true, decide_eq_true_iff]
  tauto

/-- **A workspace reads the same** if and only if the rows it owns are the same, table by table. -/
theorem sameReads_iff {workspaceId : String} {db db' : Database (Row κ)} :
    SameReads workspaceId db db' ↔ ∀ table,
      db'.rows.filter (owned workspaceId table) = db.rows.filter (owned workspaceId table) := by
  constructor
  · rintro ⟨-, -, hlists⟩ table
    have h := hlists table ⟨fun _ => true, id⟩
    unfold listEntities at h
    simpa using h
  · intro h
    have hload : ∀ (db : Database (Row κ)) key, load db workspaceId key =
        (db.rows.filter (owned workspaceId key.1)).find? fun row => row.key = key := by
      intro db key
      unfold load
      rw [List.find?_filter]
      refine congrArg (List.find? · db.rows) (funext fun row => ?_)
      rw [owned_of_key]
      simp
    have hexists : ∀ (db : Database (Row κ)) key, entityExists db workspaceId key =
        (db.rows.filter (owned workspaceId key.1)).any fun row => row.key = key := by
      intro db key
      unfold entityExists
      rw [List.any_filter]
      simp only [owned_of_key]
    refine ⟨fun key => ?_, fun key => ?_, fun table filter => ?_⟩
    · rw [hload, hload, h]
    · rw [hexists, hexists, h]
    · unfold listEntities
      rw [h]

theorem load_eq_none {db : Database (Row κ)} {workspaceId : String} {key : String × String}
    {row : Row κ} (hrow : db.find? key = some row) (hne : row.workspaceId ≠ workspaceId) :
    load db workspaceId key = none := by
  refine List.find?_eq_none.mpr fun row' hrow' h => hne ?_
  rw [decide_eq_true_iff] at h
  have hfound := Database.find?_eq_some.mpr ⟨hrow', h.1⟩
  rw [hrow] at hfound
  rw [Option.some.inj hfound]
  exact h.2

theorem sameReads_refl (workspaceId : String) (db : Database (Row κ)) :
    SameReads workspaceId db db := ⟨fun _ => rfl, fun _ => rfl, fun _ _ => rfl⟩

theorem ownersKept_refl (db : Database (Row κ)) : OwnersKept db db := by
  intro key row row' hrow hrow'
  rw [hrow] at hrow'
  rw [Option.some.inj hrow']

/-! ### Writes and deletions -/

section Writes
variable {db : Database (Row κ)} {row : Row κ}
  (hown : ∀ existing, db.find? row.key = some existing → existing.workspaceId = row.workspaceId)
include hown

theorem ownersKept_upsertRow : OwnersKept db (upsertRow db row) := by
  unfold upsertRow
  dsimp only
  split_ifs
  · intro key r r' hr hr'
    rw [Database.find?_set, key_upsert] at hr'
    split_ifs at hr' with hkey
    · subst hkey
      rw [← Option.some.inj hr', workspaceId_upsert, hown r hr]
    · rw [hr] at hr'
      rw [Option.some.inj hr']
  · exact ownersKept_refl db

theorem sameReads_upsertRow {workspaceId : String} (hne : workspaceId ≠ row.workspaceId) :
    SameReads workspaceId db (upsertRow db row) := by
  unfold upsertRow
  dsimp only
  split_ifs
  · refine sameReads_iff.mpr fun table => Database.filter_set ?_ fun existing hexisting => ?_
    · unfold owned
      rw [workspaceId_upsert]
      exact decide_eq_false fun h => hne h.2.symm
    · rw [key_upsert] at hexisting
      unfold owned
      rw [hown existing hexisting]
      exact decide_eq_false fun h => hne h.2.symm
  · exact sameReads_refl _ _

end Writes

theorem ownersKept_delete (db : Database (Row κ)) (key : String × String) :
    OwnersKept db (db.delete key) := by
  intro k row row' hrow hrow'
  obtain ⟨row₀, hrow₀, rfl⟩ := Database.of_find?_delete hrow'
  rw [hrow] at hrow₀
  rw [Option.some.inj hrow₀]
  rfl

/-- A deletion changes nothing other workspaces read if and only if none of their rows depends on
it. -/
theorem sameReads_delete_iff {db : Database (Row κ)} {key : String × String}
    {workspaceId : String} :
    (∀ other, other ≠ workspaceId → SameReads other db (db.delete key)) ↔
      ∀ row ∈ db.rows, Depends db.rows key row → row.workspaceId = workspaceId := by
  have hpart : ∀ other table, (db.delete key).rows.filter (owned other table) =
      db.rows.filter (owned other table) ↔
        ∀ row ∈ db.rows, owned other table row = true → ¬ Depends db.rows key row :=
    fun other table => Database.filter_delete_eq_iff fun _ _ => rfl
  constructor
  · intro h row hrow hdepends
    by_contra hne
    refine (hpart row.workspaceId row.table).mp (sameReads_iff.mp (h _ hne) row.table) row hrow ?_
      hdepends
    exact decide_eq_true ⟨rfl, rfl⟩
  · intro h other hne
    refine sameReads_iff.mpr fun table => (hpart other table).mpr fun row hrow hown hdepends => ?_
    exact hne ((of_decide_eq_true hown).2.symm.trans (h row hrow hdepends))

/-! ### Isolated operations -/

section Isolation
variable {workspaceOf : γ → String}

theorem getEntity_mismatch {db : Database (Row κ)} {workspaceId : String} {key : String × String}
    {row : Row κ} (hrow : db.find? key = some row) (hne : row.workspaceId ≠ workspaceId) :
    getEntity db workspaceId key = .error (.workspaceMismatch workspaceId row.workspaceId) := by
  unfold getEntity
  rw [load_eq_none hrow hne]
  dsimp only
  rw [hrow]

theorem checkPut_mismatch {workspaceId : String} {row row' : Row κ}
    (hne : row.workspaceId ≠ workspaceId) :
    ∃ found, checkPut workspaceId (some row) row' =
      .error (.workspaceMismatch workspaceId found) := by
  unfold checkPut
  split_ifs with hrow'
  · exact ⟨_, rfl⟩
  · exact ⟨_, if_pos hne⟩

variable [DecidableEq γ]

/-- Every scope is about to write a row of its own workspace. -/
def Inv (workspaceOf : γ → String) (s : State γ κ) : Prop :=
  ∀ c row, s.scope c = .putting row → row.workspaceId = workspaceOf c

theorem inv_setScope {s : State γ κ} (h : Inv workspaceOf s) {c : γ} {x : Scope κ}
    (hx : ∀ row, x = .putting row → row.workspaceId = workspaceOf c) :
    Inv workspaceOf (s.setScope c x) := by
  intro d row hd
  have hd' : Function.update s.scope c x d = .putting row := hd
  by_cases hdc : d = c
  · subst hdc
    rw [Function.update_self] at hd'
    exact hx row hd'
  · rw [Function.update_of_ne hdc] at hd'
    exact h d row hd'

theorem inv_idle {s : State γ κ} (h : Inv workspaceOf s) (c : γ) (db : Database (Row κ)) :
    Inv workspaceOf { s.setScope c .idle with db := db } :=
  inv_setScope h (x := .idle) fun _ hx => nomatch hx

theorem inv_step {s s' : State γ κ} {op : Op γ κ} (h : Inv workspaceOf s)
    (hs : step workspaceOf s op = some s') : Inv workspaceOf s' := by
  cases op with
  | get c key =>
    simp only [step] at hs
    split at hs <;> cases hs
    exact h
  | put c row =>
    simp only [step] at hs
    split at hs
    · split at hs
      · next hok =>
        cases hs
        refine inv_setScope h fun row' hx => ?_
        cases hx
        exact checkPut_workspaceId hok
      · cases hs; exact h
    · cases hs
  | write c =>
    simp only [step] at hs
    split at hs <;> cases hs
    exact inv_idle h c _
  | delete c key =>
    simp only [step] at hs
    split at hs
    · split at hs
      · cases hs
        refine inv_setScope h fun _ hx => ?_
        cases hx
      · cases hs; exact h
    · cases hs
  | remove c =>
    simp only [step] at hs
    split at hs <;> cases hs
    exact inv_idle h c _
  | fail c => cases hs; exact inv_idle h c _

theorem isolated_of_db_eq {s : State γ κ} {op : Op γ κ}
    (hdb : ∀ s', step workspaceOf s op = some s' → s'.db = s.db)
    (hrefused : ∀ key row, target s op = some key → s.db.find? key = some row →
      row.workspaceId ≠ workspaceOf op.by →
        ∃ found, result workspaceOf s op = .error (.workspaceMismatch (workspaceOf op.by) found)) :
    Isolated workspaceOf s op := by
  refine ⟨fun s' hs => ?_, hrefused⟩
  rw [hdb s' hs]
  exact ⟨ownersKept_refl s.db, fun other _ => sameReads_refl other s.db⟩

theorem isolated_check {s : State γ κ} {op : Op γ κ} (hop : ∀ c, op ≠ .write c ∧ op ≠ .remove c) :
    Isolated workspaceOf s op := by
  cases op with
  | get c key =>
    refine isolated_of_db_eq (fun s' hs => ?_) fun key' row hkey hrow hne => ?_
    · simp only [step] at hs
      split at hs <;> cases hs
      rfl
    · cases hkey
      have hget : getEntity s.db (workspaceOf c) key = _ := getEntity_mismatch hrow hne
      refine ⟨row.workspaceId, ?_⟩
      show (getEntity s.db (workspaceOf c) key).map _ = _
      rw [hget]
      rfl
  | put c row =>
    refine isolated_of_db_eq (fun s' hs => ?_) fun key' row' hkey hrow hne => ?_
    · simp only [step] at hs
      split at hs
      · split at hs <;> cases hs <;> rfl
      · cases hs
    · cases hkey
      show ∃ found, checkPut (workspaceOf c) (s.db.find? row.key) row = _
      rw [hrow]
      exact checkPut_mismatch hne
  | delete c key =>
    refine isolated_of_db_eq (fun s' hs => ?_) fun key' row hkey hrow hne => ?_
    · simp only [step] at hs
      split at hs
      · split at hs <;> cases hs <;> rfl
      · cases hs
    · cases hkey
      refine ⟨row.workspaceId, ?_⟩
      show checkDelete (workspaceOf c) (s.db.find? key) key = _
      rw [hrow]
      exact if_pos hne
  | fail c =>
    refine isolated_of_db_eq (fun s' hs => by cases hs; rfl) fun _ _ hkey => ?_
    cases hkey
  | write c => exact absurd rfl (hop c).1
  | remove c => exact absurd rfl (hop c).2

theorem isolated_write_iff {s : State γ κ} (h : Inv workspaceOf s) (c : γ) :
    Isolated workspaceOf s (.write c) ↔ InTurn workspaceOf s (.write c) := by
  constructor
  · rintro ⟨-, hrefused⟩ row hc existing hexisting
    by_contra hne
    obtain ⟨found, hresult⟩ := hrefused row.key existing (by simp only [target, hc]) hexisting hne
    cases hresult
  · intro hturn
    refine ⟨fun s' hs => ?_, fun key row hkey hrow hne => ?_⟩
    · simp only [step] at hs
      split at hs <;> cases hs
      next row hc =>
      have hown : ∀ existing, s.db.find? row.key = some existing →
          existing.workspaceId = row.workspaceId := fun existing hexisting =>
        (hturn row hc existing hexisting).trans (h c row hc).symm
      refine ⟨ownersKept_upsertRow hown, fun other hother => sameReads_upsertRow hown ?_⟩
      rw [h c row hc]
      exact hother
    · simp only [target] at hkey
      split at hkey <;> cases hkey
      next row' hc => exact absurd (hturn row' hc row hrow) hne

theorem isolated_remove_iff (s : State γ κ) (c : γ) :
    Isolated workspaceOf s (.remove c) ↔ InTurn workspaceOf s (.remove c) := by
  constructor
  · rintro ⟨hstep, -⟩ key hc
    have hs : step workspaceOf s (.remove c) =
        some { s.setScope c .idle with db := s.db.delete key } := by simp only [step, hc]
    exact sameReads_delete_iff.mp (hstep _ hs).2
  · intro hturn
    refine ⟨fun s' hs => ?_, fun key row hkey hrow hne => ?_⟩
    · simp only [step] at hs
      split at hs <;> cases hs
      next key hc => exact ⟨ownersKept_delete s.db key, sameReads_delete_iff.mpr (hturn key hc)⟩
    · simp only [target] at hkey
      split at hkey <;> cases hkey
      next hc =>
      obtain ⟨hmem, rfl⟩ := Database.find?_eq_some.mp hrow
      exact absurd (hturn _ hc row hmem (Or.inl (Database.goesWith_self hmem))) hne

theorem isolated_step_iff {s : State γ κ} (h : Inv workspaceOf s) (op : Op γ κ) :
    Isolated workspaceOf s op ↔ InTurn workspaceOf s op := by
  cases op with
  | get c key | put c row | delete c key | fail c =>
    exact iff_of_true (isolated_check fun d => ⟨nofun, nofun⟩) trivial
  | write c => exact isolated_write_iff h c
  | remove c => exact isolated_remove_iff s c

/-- **The workspaces are isolated in a run if and only if its writes and deletions are in turn**:
none writes or deletes what has become another workspace's, or what another workspace's rows depend
on. -/
theorem isolated_iff (workspaceOf : γ → String) (db : Database (Row κ)) (ops : List (Op γ κ)) :
    Guarded (step workspaceOf) (Isolated workspaceOf) (.init db) ops ↔
      Guarded (step workspaceOf) (InTurn workspaceOf) (.init db) ops :=
  guarded_congr (fun _ op hI => isolated_step_iff hI op) (fun _ _ _ hI _ hs => inv_step hI hs)
    (fun _ _ hc => nomatch hc)

end Isolation

/-! ### Two workspaces import the same id -/

/-- The row of a workspace. -/
def workspaceRow (id : String) : Row String where
  id := id
  workspaceId := id
  createdAt := 0
  updatedAt := 0
  table := "workspaces"
  rest := ""

/-- A case that a workspace imports, with the id that its file gives. -/
def caseRow (workspaceId name : String) : Row String where
  id := "ec_1"
  workspaceId := workspaceId
  createdAt := 0
  updatedAt := 0
  table := "eval_cases"
  foreignKeys := [⟨"workspace_id", ("workspaces", workspaceId), .cascade⟩]
  rest := name

/-- Two workspaces without cases. -/
def twoWorkspaces : Database (Row String) :=
  (Database.empty.set (workspaceRow "ws_1")).set (workspaceRow "ws_2")

/-- The scope of each of two workspaces. -/
def importer (second : Bool) : String := if second then "ws_2" else "ws_1"

/-- Both workspaces import a case with the same id, and both find it unused. -/
def imports : List (Op Bool String) :=
  [.put false (caseRow "ws_1" "refund"), .put true (caseRow "ws_2" "greeting"), .write false,
    .write true]

/-- The second write takes the case from the first workspace. -/
theorem import_takes_case :
    (∃ s, exec (step importer) (.init twoWorkspaces) (imports.take 3) = some s ∧
      load s.db "ws_1" ("eval_cases", "ec_1") = some (caseRow "ws_1" "refund")) ∧
    (∃ s, exec (step importer) (.init twoWorkspaces) imports = some s ∧
      s.db.find? ("eval_cases", "ec_1") = some (caseRow "ws_2" "greeting") ∧
      load s.db "ws_1" ("eval_cases", "ec_1") = none) ∧
    ¬ Guarded (step importer) (Isolated importer) (.init twoWorkspaces) imports := by
  refine ⟨⟨_, rfl, by decide +kernel⟩, ⟨_, rfl, by decide +kernel, by decide +kernel⟩, fun h => ?_⟩
  have hwrite := guarded_iff.mp h (imports.take 3) (.write true) [] _ rfl rfl
  obtain ⟨found, hresult⟩ := hwrite.2 ("eval_cases", "ec_1") (caseRow "ws_1" "refund") rfl
    (by decide +kernel) (by decide)
  cases hresult

end Selfevals.Storage.WorkspaceScopes
