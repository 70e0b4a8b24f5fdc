import Selfevals.Lib.Run
import Selfevals.Schemas.Job
import Selfevals.Storage.Entity

/-!
# Concurrent writers of one entity

Any number of clients read an entity, change it and write it back. `put_entity` looks at the stored
version in one statement and writes in the next, so other writes can come in between; and it accepts
both the version it finds and the next one, so a client that leaves the version as read, or bumps it
by one, is accepted over a write it has not seen.
-/

namespace Selfevals.Storage.Concurrency

open Schemas.Base Storage.Entity Lib.Run
open Entity (base withCreatedAt)

/-- Where a client is: what it read (`none` if there was no row), or the copy it last wrote, and the
entity it is about to write. `seen` and `checked` count the writes accepted at the read and at the
check; no step reads them. -/
inductive Client (α : Type)
  | idle
  | holding (seen : ℕ) (read : Option α)
  | writing (seen checked : ℕ) (read : Option α) (entity : α)

/-- The stored row, the number of writes accepted so far, and the clients. -/
structure StoreState (κ α : Type) where
  row : Option α
  writes : ℕ
  client : κ → Client α

/-- What the clients of the store do. -/
inductive Op (κ α : Type)
  /-- `get_entity`. -/
  | get (c : κ)
  /-- `put_entity` up to the version check. -/
  | check (c : κ) (entity : α)
  /-- The upsert of a `put_entity` whose check has passed. -/
  | write (c : κ)
  /-- The client forgets its copy. -/
  | drop (c : κ)

variable {κ α : Type} [Entity α]

/-- What a client may make of its copy: the version stays or is bumped by one; what it found no row
for has the version of a new entity. -/
def Derived (workspaceId : String) (read : Option α) (entity : α) : Prop :=
  (base entity).workspaceId = workspaceId ∧
    match read with
    | none => (base entity).version = 1
    | some r =>
      (base entity).version = (base r).version ∨ (base entity).version = (base r).version + 1

instance (workspaceId : String) (read : Option α) (entity : α) :
    Decidable (Derived workspaceId read entity) := by
  unfold Derived
  cases read <;> infer_instance

/-- Nobody has read yet. -/
def init (row : Option α) : StoreState κ α := ⟨row, 0, fun _ => .idle⟩

section Step
variable [DecidableEq κ]

def StoreState.setClient (s : StoreState κ α) (c : κ) (x : Client α) : StoreState κ α :=
  { s with client := Function.update s.client c x }

/-- One step of a client in a scope of the workspace. -/
def step (workspaceId : String) (s : StoreState κ α) : Op κ α → Option (StoreState κ α)
  | .get c =>
    match s.row with
    | none => some (s.setClient c (.holding s.writes none))
    | some row =>
      if (base row).workspaceId = workspaceId then
        some (s.setClient c (.holding s.writes (some row)))
      else none
  | .check c entity =>
    match s.client c with
    | .holding seen read =>
      if Derived workspaceId read entity then
        match checkPut workspaceId s.row entity with
        | .ok () => some (s.setClient c (.writing seen s.writes read entity))
        | .error _ => some (s.setClient c .idle)
      else none
    | _ => none
  | .write c =>
    match s.client c with
    | .writing _ _ _ entity =>
      some { s.setClient c (.holding (s.writes + 1) (some entity)) with
        row := some (upsert s.row entity)
        writes := s.writes + 1 }
    | _ => none
  | .drop c => some (s.setClient c .idle)

/-- The write of a client whose read is older than the last write accepted is refused, by the
concurrency error; so nothing is written from an older read. -/
def Safe (workspaceId : String) (s : StoreState κ α) : Op κ α → Prop
  | .check c entity => ∀ seen read, s.client c = .holding seen read →
      Derived workspaceId read entity → seen < s.writes →
      ∃ id expected found, checkPut workspaceId s.row entity =
        .error (.optimisticConcurrency id expected found)
  | .write c => ∀ seen checked read entity, s.client c = .writing seen checked read entity →
      seen = s.writes
  | _ => True

/-- A client whose read is older than the last write accepted finds the stored version above the one
it writes, and nothing is written between a client's check and its write. -/
def Unraced (workspaceId : String) (s : StoreState κ α) : Op κ α → Prop
  | .check c entity => ∀ seen read, s.client c = .holding seen read →
      Derived workspaceId read entity → seen < s.writes →
      ∃ row, s.row = some row ∧ (base entity).version < (base row).version
  | .write c => ∀ seen checked read entity, s.client c = .writing seen checked read entity →
      checked = s.writes
  | _ => True

/-! ### The invariant -/

/-- What a client knows of the row: it is in the client's workspace, and its version is at least the
one read. -/
def Known (workspaceId : String) (row read : Option α) : Prop :=
  match row with
  | none => read = none
  | some row => (base row).workspaceId = workspaceId ∧
      match read with
      | none => 1 ≤ (base row).version
      | some r => (base r).version ≤ (base row).version

def Consistent (workspaceId : String) (s : StoreState κ α) : Client α → Prop
  | .idle => True
  | .holding seen read => seen ≤ s.writes ∧ Known workspaceId s.row read
  | .writing seen checked read entity => seen = checked ∧ checked ≤ s.writes ∧
      Derived workspaceId read entity ∧ Known workspaceId s.row read ∧
      (checked = s.writes → checkPut workspaceId s.row entity = .ok ())

/-- Every client is consistent with the store. -/
def Inv (workspaceId : String) (s : StoreState κ α) : Prop :=
  ∀ c, Consistent workspaceId s (s.client c)

omit [DecidableEq κ] in
theorem inv_init (workspaceId : String) (row : Option α) :
    Inv workspaceId (init (κ := κ) row) := fun _ => trivial

@[simp] theorem base_upsert_version (existing : Option α) (entity : α) :
    (base (upsert existing entity)).version = (base entity).version := by
  cases existing with
  | none => rfl
  | some row => simp [upsert, Entity.base_withCreatedAt]

@[simp] theorem base_upsert_workspaceId (existing : Option α) (entity : α) :
    (base (upsert existing entity)).workspaceId = (base entity).workspaceId := by
  cases existing with
  | none => rfl
  | some row => simp [upsert, Entity.base_withCreatedAt]

theorem version_le_of_checkPut {workspaceId : String} {row entity : α}
    (h : checkPut workspaceId (some row) entity = .ok ()) :
    (base row).version ≤ (base entity).version := by
  unfold checkPut at h
  dsimp only at h
  split_ifs at h with h1 h2 h3
  have := accepts_iff.mp h3
  omega

theorem known_write {workspaceId : String} {row read read' : Option α} {entity : α}
    (hcheck : checkPut workspaceId row entity = .ok ()) (hd : Derived workspaceId read entity)
    (hread : Known workspaceId row read) (h : Known workspaceId row read') :
    Known workspaceId (some (upsert row entity)) read' := by
  refine ⟨by rw [base_upsert_workspaceId]; exact hd.1, ?_⟩
  rw [base_upsert_version]
  cases row with
  | none =>
    obtain rfl : read = none := hread
    obtain rfl : read' = none := h
    have hv : (base entity).version = 1 := hd.2
    show 1 ≤ _
    omega
  | some r =>
    have hle := version_le_of_checkPut hcheck
    cases read' with
    | none => exact h.2.trans hle
    | some r' => exact h.2.trans hle

theorem inv_step {workspaceId : String} {s s' : StoreState κ α} {op : Op κ α}
    (h : Inv workspaceId s) (hu : Unraced workspaceId s op)
    (hs : step workspaceId s op = some s') : Inv workspaceId s' := by
  have hset : ∀ {c : κ} {x : Client α}, Consistent workspaceId s x →
      Inv workspaceId (s.setClient c x) := by
    intro c x hx d
    show Consistent workspaceId s (Function.update s.client c x d)
    by_cases hd : d = c
    · subst hd
      rw [Function.update_self]
      exact hx
    · rw [Function.update_of_ne hd]
      exact h d
  cases op with
  | get c =>
    simp only [step] at hs
    split at hs
    · next hrow => cases hs; exact hset ⟨le_rfl, by rw [hrow]; rfl⟩
    · next row hrow =>
      split_ifs at hs with hws
      cases hs
      refine hset ⟨le_rfl, ?_⟩
      rw [hrow]
      exact ⟨hws, le_rfl⟩
  | check c entity =>
    simp only [step] at hs
    split at hs
    · next seen read hc =>
      have hcons := h c
      rw [hc] at hcons
      obtain ⟨hle, hknown⟩ := hcons
      split_ifs at hs with hd
      split at hs
      · next hok =>
        cases hs
        refine hset ⟨?_, le_rfl, hd, hknown, fun _ => hok⟩
        -- a client whose read is older does not pass the check
        by_contra hne
        obtain ⟨row, hrow, hlt⟩ := hu seen read hc hd (by omega)
        rw [hrow] at hok
        have := version_le_of_checkPut hok
        omega
      · cases hs; exact hset trivial
    · cases hs
  | write c =>
    simp only [step] at hs
    split at hs
    · next seen checked read entity hc =>
      have hcons := h c
      rw [hc] at hcons
      obtain ⟨-, -, hd, hread, hok⟩ := hcons
      have hcheck := hok (hu seen checked read entity hc)
      cases hs
      intro d
      show Consistent _ _ (Function.update s.client c _ d)
      by_cases hdc : d = c
      · subst hdc
        rw [Function.update_self]
        refine ⟨le_rfl, by rw [base_upsert_workspaceId]; exact hd.1, ?_⟩
        rw [base_upsert_version]
      · rw [Function.update_of_ne hdc]
        have hold := h d
        cases hcd : s.client d with
        | idle => trivial
        | holding seen' read' =>
          rw [hcd] at hold
          obtain ⟨hle, hknown⟩ := hold
          exact ⟨hle.trans (Nat.le_succ _), known_write hcheck hd hread hknown⟩
        | writing seen' checked' read' entity' =>
          rw [hcd] at hold
          obtain ⟨heq, hle, hd', hknown, -⟩ := hold
          refine ⟨heq, hle.trans (Nat.le_succ _), hd', known_write hcheck hd hread hknown, ?_⟩
          intro habs
          have : checked' = s.writes + 1 := habs
          omega
    · cases hs
  | drop c => cases hs; exact hset trivial

/-! ### Safe and unraced steps -/

/-- For a client that knows the row, the version check refuses exactly the versions below the stored
one. -/
theorem refused_iff {workspaceId : String} {row read : Option α} {entity : α}
    (hd : Derived workspaceId read entity) (hknown : Known workspaceId row read) :
    (∃ id expected found, checkPut workspaceId row entity =
        .error (.optimisticConcurrency id expected found)) ↔
      ∃ r, row = some r ∧ (base entity).version < (base r).version := by
  obtain ⟨hws, hv⟩ := hd
  subst hws
  cases row with
  | none => simp [checkPut]
  | some r =>
    obtain ⟨hrws, hle⟩ := hknown
    rw [checkPut_of_same hrws.symm]
    have hacc : accepts (base r).version (base entity).version = true ↔
        ¬ (base entity).version < (base r).version := by
      rw [accepts_iff]
      cases read with
      | none => dsimp only at hv hle; omega
      | some r' => dsimp only at hv hle; omega
    by_cases hlt : (base entity).version < (base r).version
    · rw [if_neg (by rw [hacc]; exact not_not.mpr hlt)]
      exact ⟨fun _ => ⟨r, rfl, hlt⟩, fun _ => ⟨_, _, _, rfl⟩⟩
    · rw [if_pos (hacc.mpr hlt)]
      simp [hlt]

omit [DecidableEq κ] in
theorem safe_step_iff {workspaceId : String} {s : StoreState κ α} (h : Inv workspaceId s)
    (op : Op κ α) : Safe workspaceId s op ↔ Unraced workspaceId s op := by
  cases op with
  | get c | drop c => exact Iff.rfl
  | check c entity =>
    constructor
    · intro hsafe seen read hc hd hlt
      have hcons := h c
      rw [hc] at hcons
      exact (refused_iff hd hcons.2).mp (hsafe seen read hc hd hlt)
    · intro hu seen read hc hd hlt
      have hcons := h c
      rw [hc] at hcons
      exact (refused_iff hd hcons.2).mpr (hu seen read hc hd hlt)
  | write c =>
    constructor
    · intro hsafe seen checked read entity hc
      have hcons := h c
      rw [hc] at hcons
      rw [← hcons.1]
      exact hsafe seen checked read entity hc
    · intro hu seen checked read entity hc
      have hcons := h c
      rw [hc] at hcons
      rw [hcons.1]
      exact hu seen checked read entity hc

/-- **No write is lost in a run if and only if no race takes place in it.** -/
theorem safe_iff_unraced (workspaceId : String) (row : Option α) (ops : List (Op κ α)) :
    Guarded (step workspaceId) (Safe workspaceId) (init row) ops ↔
      Guarded (step workspaceId) (Unraced workspaceId) (init row) ops :=
  guarded_congr (fun _ op hI => safe_step_iff hI op) (fun _ _ _ hI hu ht => inv_step hI hu ht)
    (inv_init workspaceId row)

end Step

/-! ### Two clients -/

open Schemas.Job

/-- A stored entity, at version 1. -/
def stored : RunJob where
  id := "job_1"
  workspaceId := "ws_1"
  createdAt := 0
  updatedAt := 0
  experimentId := "exp_1"

/-- What a client makes of it. -/
def edited (note : String) (version : ℕ) : RunJob :=
  { stored with lastError := some note, version := version }

/-- Both clients read, then one after the other writes. -/
def race (version : ℕ) : List (Op Bool RunJob) :=
  [.get false, .get true, .check false (edited "first" version), .write false,
    .check true (edited "second" version), .write true]

/-- Both writes are accepted, and the second replaces the first. -/
def FirstWriteLost (version : ℕ) : Prop :=
  (∃ s, exec (step "ws_1") (init (some stored)) ((race version).take 4) = some s ∧
    s.row = some (edited "first" version)) ∧
  (∃ s, exec (step "ws_1") (init (some stored)) (race version) = some s ∧
    s.row = some (edited "second" version)) ∧
  ¬ Guarded (step "ws_1") (Safe "ws_1") (init (some stored)) (race version)

/-- Whether the two writers leave the version as read or bump it, the first write is lost. -/
theorem first_write_lost : FirstWriteLost 1 ∧ FirstWriteLost 2 := by
  constructor
  · refine ⟨⟨_, rfl, rfl⟩, ⟨_, rfl, rfl⟩, fun h => ?_⟩
    have hwrite := guarded_iff.mp h ((race 1).take 5) (.write true) [] _ rfl rfl
    exact absurd (hwrite 0 1 _ _ rfl) (by decide)
  · refine ⟨⟨_, rfl, rfl⟩, ⟨_, rfl, rfl⟩, fun h => ?_⟩
    have hwrite := guarded_iff.mp h ((race 2).take 5) (.write true) [] _ rfl rfl
    exact absurd (hwrite 0 1 _ _ rfl) (by decide)

end Selfevals.Storage.Concurrency
