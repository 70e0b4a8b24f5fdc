import Mathlib.Data.List.Sort
import Selfevals.Lib.Run

/-!
# Forward-only migrations

`PostgresStorage` applies the pending migrations when it is opened, so any number of processes may
be at it at the same time, each may stop at any statement, and what is pending is read before the
first is run. A migration's `up` is one statement and the row that records it is the next: on a
connection that commits by itself, which is how `PostgresStorage` connects, the two do not commit
together.

* `schemaAt i` is the schema after the first `i` migrations in order, on a database nobody else is
  at; `Staged` is what the migrations have to satisfy: they can be run in order, and one that has
  been run changes nothing when it is run again, whatever has been run after it.
-/

namespace Selfevals.Storage.Migrations

open Lib.Run

/-- `up` on the schema, `none` where the statement fails. -/
structure Migration (S : Type) where
  version : ℕ
  name : String
  up : S → Option S

def isDigit (c : Char) : Bool := '0' ≤ c && c ≤ '9'

def isSlug (c : Char) : Bool := ('a' ≤ c && c ≤ 'z') || isDigit c || c == '_'

def digit (c : Char) : ℕ := c.toNat - '0'.toNat

/-- `_MIGRATION_RE`, with `int` of what it captures. -/
def migrationVersion : List Char → Option ℕ
  | 'm' :: a :: b :: c :: d :: '_' :: e :: rest =>
    if [a, b, c, d].all isDigit && (e :: rest).all isSlug then
      some (((digit a * 10 + digit b) * 10 + digit c) * 10 + digit d)
    else none
  | _ => none

variable {S : Type}

/-- The modules of the package, in the order they are listed in. -/
def discoverMigrations (infos : List (String × (S → Option S))) : List (Migration S) :=
  (infos.filterMap fun info =>
    (migrationVersion info.1.toList).map fun version => ⟨version, info.1, info.2⟩).mergeSort
      fun m m' => m.version ≤ m'.version

/-- **The order of the versions**, whatever the package lists its modules in. -/
theorem discoverMigrations_eq {infos : List (String × (S → Option S))} {ms : List (Migration S)}
    (h : (infos.filterMap fun info =>
      (migrationVersion info.1.toList).map fun version => ⟨version, info.1, info.2⟩).Perm ms)
    (hms : ms.Pairwise fun m m' => m.version < m'.version) : discoverMigrations infos = ms := by
  have hperm : (discoverMigrations infos).Perm ms := (List.mergeSort_perm _ _).trans h
  have hsorted : (discoverMigrations infos).Pairwise fun m m' => m.version ≤ m'.version := by
    refine (List.pairwise_mergeSort (fun a b c => ?_) (fun a b => ?_) _).imp of_decide_eq_true
    · simpa using le_trans
    · simpa using le_total a.version b.version
  have hnodup : (ms.map Migration.version).Nodup :=
    (List.pairwise_map.mpr hms).imp ne_of_lt
  refine hperm.eq_of_pairwise (fun m m' hm hm' hle hge => ?_) hsorted (hms.imp le_of_lt)
  exact List.inj_on_of_nodup_map hnodup (hperm.mem_iff.mp hm) hm' (le_antisymm hle hge)

/-- The schema and the rows of `_pg_migrations`; `none` before that table exists. -/
structure Database (S : Type) where
  schema : S
  rows : Option (List (ℕ × String)) := none

/-- `current_version`, of a database that has the table. -/
def currentVersion (db : Database S) : ℕ := ((db.rows.getD []).map Prod.fst).foldl max 0

/-- Where a call of `apply_migrations` is. `newlyApplied` is its local list, which a call that fails
does not return. -/
inductive Process (S : Type)
  | opened
  /-- `_pg_migrations` exists. -/
  | created
  /-- `pending` is what the loop has left of the versions it did not read as applied. -/
  | applying (pending : List (Migration S)) (newlyApplied : List ℕ)
  /-- The `up` of the migration is committed, its row is not. -/
  | recording (migration : Migration S) (pending : List (Migration S)) (newlyApplied : List ℕ)
  | returned (newlyApplied : List ℕ)
  | failed (newlyApplied : List ℕ)

/-- The versions that a process has applied. -/
def Process.newlyApplied : Process S → List ℕ
  | .opened | .created => []
  | .applying _ vs | .recording _ _ vs | .returned vs | .failed vs => vs

/-- `INSERT INTO _pg_migrations`: the version is the primary key. -/
def insertRow (rows : Option (List (ℕ × String))) (m : Migration S) :
    Option (List (ℕ × String)) :=
  rows.bind fun rows =>
    if m.version ∈ rows.map Prod.fst then none else some (rows ++ [(m.version, m.name)])

/-- The next statement of a call, on a connection with the given `autocommit`: without it `up` and
the row are one transaction. A statement that fails raises, and the call is over. -/
def advance (discovered : List (Migration S)) (autocommit : Bool) (db : Database S) :
    Process S → Option (Database S × Process S)
  | .opened => some ({ db with rows := some (db.rows.getD []) }, .created)
  | .created =>
    match db.rows with
    | none => some (db, .failed [])
    | some rows => some (db, .applying
        (discovered.filter fun m => !(rows.map Prod.fst).contains m.version) [])
  | .applying [] vs => some (db, .returned vs)
  | .applying (m :: pending) vs =>
    match m.up db.schema with
    | none => some (db, .failed vs)
    | some schema =>
      if autocommit then some ({ db with schema := schema }, .recording m pending vs)
      else
        match insertRow db.rows m with
        | none => some (db, .failed vs)
        | some rows => some (⟨schema, some rows⟩, .applying pending (vs ++ [m.version]))
  | .recording m pending vs =>
    match insertRow db.rows m with
    | none => some (db, .failed vs)
    | some rows => some ({ db with rows := some rows }, .applying pending (vs ++ [m.version]))
  | .returned _ | .failed _ => none

/-- The database, and the processes that migrate it. -/
structure System (S : Type) where
  db : Database S
  process : ℕ → Process S

/-- A process executes its next statement, or its call ends before it: the process is killed, or the
statement fails for a reason of its own (a lost connection, a lock). -/
inductive Op
  | advance (p : ℕ)
  | crash (p : ℕ)

variable (discovered : List (Migration S)) (autocommit : ℕ → Bool)

/-- One step of a process, or its end. -/
def step (s : System S) : Op → Option (System S)
  | .advance p => (advance discovered (autocommit p) s.db (s.process p)).map fun r =>
    ⟨r.1, Function.update s.process p r.2⟩
  | .crash p =>
    match s.process p with
    | .returned _ | .failed _ => none
    | process => some
      { s with process := Function.update s.process p (.failed process.newlyApplied) }

/-- A database with nothing in it and processes that have yet to start. -/
def start (empty : S) : System S := ⟨⟨empty, none⟩, fun _ => .opened⟩

/-- The schema after the first `i` migrations. -/
def schemaAt (empty : S) (i : ℕ) : Option S :=
  (discovered.take i).foldlM (fun schema m => m.up schema) empty

/-- **What the runner relies on**: the migrations run in order; one that has been run changes
nothing when it is run again; no two have one version. -/
structure Staged (empty : S) : Prop where
  runs : ∀ i, ∃ schema, schemaAt discovered empty i = some schema
  again : ∀ i j m schema, discovered[j]? = some m → j < i →
    schemaAt discovered empty i = some schema → m.up schema = some schema
  versions : (discovered.map Migration.version).Nodup

/-! ### What a step keeps -/

section
variable {discovered autocommit} {empty : S} {n k : ℕ} {db db' : Database S}
variable {process process' : Process S} {s s' : System S} {op : Op}

/-- The row that records a migration. -/
def Migration.row (m : Migration S) : ℕ × String := (m.version, m.name)

/-- What a process knows when `n` versions are recorded and the schema is that of `k` migrations:
what it has left is the rest of the migrations after some that are recorded. -/
def Ready (discovered : List (Migration S)) (n k : ℕ) (db : Database S) : Process S → Prop
  | .opened | .failed _ => True
  | .created => db.rows ≠ none
  | .applying pending _ => db.rows ≠ none ∧ ∃ i ≤ n, pending = discovered.drop i
  | .recording m pending _ =>
    db.rows ≠ none ∧ ∃ i ≤ n, i < k ∧ m :: pending = discovered.drop i
  | .returned _ => n = discovered.length

/-- **The first `n` versions are recorded, and the schema is that of `k` migrations**, one more at
most. -/
structure Consistent (discovered : List (Migration S)) (empty : S) (n k : ℕ) (db : Database S) :
    Prop where
  rows : db.rows.getD [] = (discovered.take n).map Migration.row
  schema : schemaAt discovered empty k = some db.schema
  recorded_le : n ≤ k
  le_succ : k ≤ n + 1
  le_length : k ≤ discovered.length

theorem schemaAt_succ {i : ℕ} {m : Migration S} {schema : S} (hm : discovered[i]? = some m)
    (hi : schemaAt discovered empty i = some schema) :
    schemaAt discovered empty (i + 1) = m.up schema := by
  rw [schemaAt, List.take_add_one, hm, List.foldlM_append]
  rw [schemaAt] at hi
  simp [hi]

theorem getElem?_of_drop {i : ℕ} {m : Migration S} {pending : List (Migration S)}
    (h : m :: pending = discovered.drop i) :
    discovered[i]? = some m ∧ pending = discovered.drop (i + 1) := by
  constructor
  · rw [← List.head?_drop, ← h, List.head?_cons]
  · rw [← List.tail_drop, ← h, List.tail_cons]

theorem filter_pending (hd : (discovered.map Migration.version).Nodup)
    {rows : List (ℕ × String)} (hrows : rows = (discovered.take n).map Migration.row) :
    (discovered.filter fun m => !(rows.map Prod.fst).contains m.version) = discovered.drop n := by
  have hfst : rows.map Prod.fst = (discovered.take n).map Migration.version := by
    rw [hrows, List.map_map]
    rfl
  have hsplit := List.take_append_drop n discovered
  rw [← hsplit, List.map_append] at hd
  have hdisjoint := List.disjoint_of_nodup_append hd
  calc (discovered.filter fun m => !(rows.map Prod.fst).contains m.version)
      = (discovered.take n).filter (fun m => !(rows.map Prod.fst).contains m.version) ++
          (discovered.drop n).filter fun m => !(rows.map Prod.fst).contains m.version := by
        rw [← List.filter_append, hsplit]
    _ = [] ++ discovered.drop n := by
        congr 1
        · rw [List.filter_eq_nil_iff]
          intro m hm
          rw [hfst, Bool.not_eq_true', ← Bool.not_eq_true, not_not, List.contains_iff_mem]
          exact List.mem_map_of_mem hm
        · rw [List.filter_eq_self]
          intro m hm
          have hnot := hdisjoint.symm (List.mem_map_of_mem hm)
          rw [← hfst] at hnot
          simpa using hnot
    _ = discovered.drop n := rfl

theorem insertRow_eq (hd : (discovered.map Migration.version).Nodup) {i : ℕ} {m : Migration S}
    (hm : discovered[i]? = some m) (hi : i ≤ n) {rows : Option (List (ℕ × String))}
    (hnone : rows ≠ none) (hrows : rows.getD [] = (discovered.take n).map Migration.row) :
    insertRow rows m =
      if i < n then none else some ((discovered.take (n + 1)).map Migration.row) := by
  obtain ⟨rows, rfl⟩ := Option.ne_none_iff_exists'.mp hnone
  have hfst : rows.map Prod.fst = (discovered.map Migration.version).take n := by
    rw [show rows = _ from hrows, List.map_map, ← List.map_take]
    rfl
  have hget : (discovered.map Migration.version)[i]? = some m.version := by
    rw [List.getElem?_map, hm]
    rfl
  obtain ⟨hlt, hval⟩ := List.getElem?_eq_some_iff.mp hget
  have hmem : m.version ∈ rows.map Prod.fst ↔ i < n := by
    rw [hfst]
    constructor
    · intro h
      obtain ⟨j, hj, hjm⟩ := List.getElem_of_mem h
      rw [List.getElem_take] at hjm
      have hij := (hd.getElem_inj_iff).mp (hjm.trans hval.symm)
      have := List.length_take_le n (discovered.map Migration.version)
      omega
    · intro h
      refine List.mem_iff_getElem?.mpr ⟨i, ?_⟩
      rw [List.getElem?_take_of_lt h, hget]
  show (if m.version ∈ rows.map Prod.fst then none else some (rows ++ [(m.version, m.name)])) = _
  by_cases h : i < n
  · rw [if_pos (hmem.mpr h), if_pos h]
  · obtain rfl : i = n := by omega
    rw [if_neg (mt hmem.mp h), if_neg h, List.take_add_one, hm, show rows = _ from hrows,
      List.map_append]
    rfl

theorem Ready.mono {n' k' : ℕ} (h : Ready discovered n k db process) (hn : n ≤ n') (hk : k ≤ k')
    (hlen : n' ≤ discovered.length) (hrows : db.rows ≠ none → db'.rows ≠ none) :
    Ready discovered n' k' db' process := by
  cases process with
  | opened => trivial
  | created => exact hrows h
  | applying pending vs =>
    obtain ⟨hnone, i, hi, hdrop⟩ := h
    exact ⟨hrows hnone, i, hi.trans hn, hdrop⟩
  | recording m pending vs =>
    obtain ⟨hnone, i, hi, hik, hdrop⟩ := h
    exact ⟨hrows hnone, i, hi.trans hn, hik.trans_le hk, hdrop⟩
  | returned vs => exact le_antisymm hlen (h ▸ hn)
  | failed vs => trivial

theorem Consistent.up (hst : Staged discovered empty) (hc : Consistent discovered empty n k db)
    {i : ℕ} {m : Migration S} (hm : discovered[i]? = some m) (hi : i ≤ n) :
    ∃ schema, m.up db.schema = some schema ∧
      schemaAt discovered empty (max k (i + 1)) = some schema := by
  rcases Nat.lt_or_ge i k with hik | hik
  · refine ⟨db.schema, hst.again k i m _ hm hik hc.schema, ?_⟩
    rw [Nat.max_eq_left (by omega)]
    exact hc.schema
  · obtain rfl : i = k := le_antisymm (hi.trans hc.recorded_le) hik
    obtain ⟨schema, hschema⟩ := hst.runs (i + 1)
    refine ⟨schema, ?_, ?_⟩
    · rw [← schemaAt_succ hm hc.schema, hschema]
    · rw [Nat.max_eq_right (by omega), hschema]

theorem Consistent.le (hc : Consistent discovered empty n k db) : n ≤ discovered.length :=
  hc.recorded_le.trans hc.le_length

/-- **What a statement does**: it records nothing, or the next version. -/
theorem advance_consistent (hst : Staged discovered empty)
    (hc : Consistent discovered empty n k db) (hready : Ready discovered n k db process)
    {auto : Bool} (h : advance discovered auto db process = some (db', process')) :
    ∃ n' k', n ≤ n' ∧ k ≤ k' ∧ Consistent discovered empty n' k' db' ∧
      Ready discovered n' k' db' process' ∧ (db.rows ≠ none → db'.rows ≠ none) ∧
      (auto = false → k = n → k' = n') := by
  have hsame : db = db' → Ready discovered n k db process' →
      ∃ n' k', n ≤ n' ∧ k ≤ k' ∧ Consistent discovered empty n' k' db' ∧
        Ready discovered n' k' db' process' ∧ (db.rows ≠ none → db'.rows ≠ none) ∧
        (auto = false → k = n → k' = n') := by
    rintro rfl hr
    exact ⟨n, k, le_rfl, le_rfl, hc, hr, id, fun _ => id⟩
  cases process with
  | opened =>
    obtain ⟨rfl, rfl⟩ := Prod.mk.inj (Option.some.inj h)
    exact ⟨n, k, le_rfl, le_rfl, ⟨hc.rows, hc.schema, hc.recorded_le, hc.le_succ, hc.le_length⟩,
      nofun, nofun, fun _ => id⟩
  | created =>
    obtain ⟨rows, hrows⟩ := Option.ne_none_iff_exists'.mp hready
    rw [advance, hrows] at h
    obtain ⟨rfl, rfl⟩ := Prod.mk.inj (Option.some.inj h)
    have hfirst := hc.rows
    rw [hrows] at hfirst
    exact hsame rfl ⟨hready, n, le_rfl, filter_pending hst.versions hfirst⟩
  | applying pending vs =>
    obtain ⟨hnone, i, hi, hdrop⟩ := hready
    cases pending with
    | nil =>
      obtain ⟨rfl, rfl⟩ := Prod.mk.inj (Option.some.inj h)
      have hlen := List.drop_eq_nil_iff.mp hdrop.symm
      exact hsame rfl (le_antisymm hc.le (hlen.trans hi))
    | cons m pending =>
      obtain ⟨hm, hrest⟩ := getElem?_of_drop hdrop
      have hilt := (List.getElem?_eq_some_iff.mp hm).1
      obtain ⟨schema, hup, hschema⟩ := hc.up hst hm hi
      rw [advance, hup] at h
      cases auto with
      | true =>
        obtain ⟨rfl, rfl⟩ := Prod.mk.inj (Option.some.inj h)
        have hle := hc.recorded_le
        have hsucc := hc.le_succ
        have hlen := hc.le_length
        exact ⟨n, max k (i + 1), le_rfl, le_max_left _ _,
          ⟨hc.rows, hschema, by omega, by omega, by omega⟩,
          ⟨hnone, i, hi, by omega, hdrop⟩, id, nofun⟩
      | false =>
        rw [insertRow_eq hst.versions hm hi hnone hc.rows] at h
        by_cases hin : i < n
        · rw [if_pos hin] at h
          obtain ⟨rfl, rfl⟩ := Prod.mk.inj (Option.some.inj h)
          exact hsame rfl trivial
        · obtain rfl : i = n := by omega
          rw [if_neg hin] at h
          obtain ⟨rfl, rfl⟩ := Prod.mk.inj (Option.some.inj h)
          have hmax : max k (i + 1) = i + 1 := Nat.max_eq_right hc.le_succ
          rw [hmax] at hschema
          exact ⟨i + 1, i + 1, by omega, hc.le_succ, ⟨rfl, hschema, le_rfl, by omega, hilt⟩,
            ⟨nofun, i + 1, le_rfl, hrest⟩, nofun, fun _ _ => rfl⟩
  | recording m pending vs =>
    obtain ⟨hnone, i, hi, hik, hdrop⟩ := hready
    obtain ⟨hm, hrest⟩ := getElem?_of_drop hdrop
    rw [advance, insertRow_eq hst.versions hm hi hnone hc.rows] at h
    by_cases hin : i < n
    · rw [if_pos hin] at h
      obtain ⟨rfl, rfl⟩ := Prod.mk.inj (Option.some.inj h)
      exact hsame rfl trivial
    · obtain rfl : i = n := by omega
      rw [if_neg hin] at h
      obtain ⟨rfl, rfl⟩ := Prod.mk.inj (Option.some.inj h)
      obtain rfl : k = i + 1 := le_antisymm hc.le_succ hik
      exact ⟨i + 1, i + 1, by omega, le_rfl, ⟨rfl, hc.schema, le_rfl, by omega, hc.le_length⟩,
        ⟨nofun, i + 1, le_rfl, hrest⟩, nofun, fun _ hk => by omega⟩
  | returned vs => exact absurd h nofun
  | failed vs => exact absurd h nofun

/-! ### Who applied what -/

/-- The versions on record. -/
def Database.versions (db : Database S) : List ℕ := (db.rows.getD []).map Prod.fst

theorem insertRow_eq_some {rows : Option (List (ℕ × String))} {rows' : List (ℕ × String)}
    {m : Migration S} (h : insertRow rows m = some rows') :
    m.version ∉ (rows.getD []).map Prod.fst ∧
      rows'.map Prod.fst = (rows.getD []).map Prod.fst ++ [m.version] := by
  obtain ⟨old, rfl, hrow⟩ := Option.bind_eq_some_iff.mp h
  by_cases hmem : m.version ∈ old.map Prod.fst
  · rw [if_pos hmem] at hrow
    exact absurd hrow nofun
  · rw [if_neg hmem] at hrow
    obtain rfl := Option.some.inj hrow
    exact ⟨hmem, List.map_append⟩

theorem advance_versions {auto : Bool}
    (h : advance discovered auto db process = some (db', process')) :
    db'.versions = db.versions ∧ process'.newlyApplied = process.newlyApplied ∨
      ∃ v, v ∉ db.versions ∧ db'.versions = db.versions ++ [v] ∧
        process'.newlyApplied = process.newlyApplied ++ [v] := by
  cases process with
  | opened =>
    obtain ⟨rfl, rfl⟩ := Prod.mk.inj (Option.some.inj h)
    exact .inl ⟨rfl, rfl⟩
  | created =>
    rw [advance] at h
    split at h <;> obtain ⟨rfl, rfl⟩ := Prod.mk.inj (Option.some.inj h) <;> exact .inl ⟨rfl, rfl⟩
  | applying pending vs =>
    cases pending with
    | nil =>
      obtain ⟨rfl, rfl⟩ := Prod.mk.inj (Option.some.inj h)
      exact .inl ⟨rfl, rfl⟩
    | cons m pending =>
      rw [advance] at h
      split at h
      · obtain ⟨rfl, rfl⟩ := Prod.mk.inj (Option.some.inj h)
        exact .inl ⟨rfl, rfl⟩
      · split at h
        · obtain ⟨rfl, rfl⟩ := Prod.mk.inj (Option.some.inj h)
          exact .inl ⟨rfl, rfl⟩
        · split at h
          · obtain ⟨rfl, rfl⟩ := Prod.mk.inj (Option.some.inj h)
            exact .inl ⟨rfl, rfl⟩
          · rename_i rows hrows
            obtain ⟨rfl, rfl⟩ := Prod.mk.inj (Option.some.inj h)
            obtain ⟨hnew, hversions⟩ := insertRow_eq_some hrows
            exact .inr ⟨m.version, hnew, hversions, rfl⟩
  | recording m pending vs =>
    rw [advance] at h
    split at h
    · obtain ⟨rfl, rfl⟩ := Prod.mk.inj (Option.some.inj h)
      exact .inl ⟨rfl, rfl⟩
    · rename_i rows hrows
      obtain ⟨rfl, rfl⟩ := Prod.mk.inj (Option.some.inj h)
      obtain ⟨hnew, hversions⟩ := insertRow_eq_some hrows
      exact .inr ⟨m.version, hnew, hversions, rfl⟩
  | returned vs => exact absurd h nofun
  | failed vs => exact absurd h nofun

/-- **Every recorded version was applied by one process**, which has it on its list once. -/
structure Once (s : System S) : Prop where
  recorded : ∀ v, v ∈ s.db.versions ↔ ∃ p, v ∈ (s.process p).newlyApplied
  unique : ∀ v p q, v ∈ (s.process p).newlyApplied → v ∈ (s.process q).newlyApplied → p = q
  nodup : ∀ p, (s.process p).newlyApplied.Nodup

theorem step_cases (h : step discovered autocommit s op = some s') :
    ∃ p db' process', s' = ⟨db', Function.update s.process p process'⟩ ∧
      ((op = .advance p ∧
          advance discovered (autocommit p) s.db (s.process p) = some (db', process')) ∨
        (op = .crash p ∧ db' = s.db ∧ process' = .failed (s.process p).newlyApplied)) := by
  cases op with
  | advance p =>
    obtain ⟨⟨db', process'⟩, hadvance, rfl⟩ := Option.map_eq_some_iff.mp h
    exact ⟨p, db', process', rfl, .inl ⟨rfl, hadvance⟩⟩
  | crash p =>
    rw [step] at h
    split at h
    · exact absurd h nofun
    · exact absurd h nofun
    · cases h
      exact ⟨p, s.db, _, rfl, .inr ⟨rfl, rfl, rfl⟩⟩

theorem Once.step (ho : Once s) (h : step discovered autocommit s op = some s') : Once s' := by
  obtain ⟨p, db', process', rfl, hcase⟩ := step_cases h
  have hversions : db'.versions = s.db.versions ∧
      process'.newlyApplied = (s.process p).newlyApplied ∨
      ∃ v, v ∉ s.db.versions ∧ db'.versions = s.db.versions ++ [v] ∧
        process'.newlyApplied = (s.process p).newlyApplied ++ [v] := by
    rcases hcase with ⟨-, hadvance⟩ | ⟨-, rfl, rfl⟩
    · exact advance_versions hadvance
    · exact .inl ⟨rfl, rfl⟩
  have hlist : ∀ q, (Function.update s.process p process' q).newlyApplied =
      if q = p then process'.newlyApplied else (s.process q).newlyApplied := by
    intro q
    by_cases hq : q = p
    · rw [if_pos hq, hq, Function.update_self]
    · rw [if_neg hq, Function.update_of_ne hq]
  rcases hversions with ⟨hrows, hsame⟩ | ⟨v, hnew, hrows, happ⟩
  · have hkeep : ∀ q, (Function.update s.process p process' q).newlyApplied =
        (s.process q).newlyApplied := by
      intro q
      rw [hlist]
      split
      · rename_i hq
        rw [hq, hsame]
      · rfl
    refine ⟨fun v => ?_, fun v q r => ?_, fun q => ?_⟩
    · simp only [hrows, hkeep, ho.recorded]
    · simp only [hkeep]
      exact ho.unique v q r
    · simp only [hkeep]
      exact ho.nodup q
  · -- the new version is on no list before the step
    have hfresh : ∀ q, v ∉ (s.process q).newlyApplied := fun q hq =>
      hnew ((ho.recorded v).mpr ⟨q, hq⟩)
    have hmem : ∀ w q, w ∈ (Function.update s.process p process' q).newlyApplied ↔
        w ∈ (s.process q).newlyApplied ∨ w = v ∧ q = p := by
      intro w q
      rw [hlist]
      split
      · rename_i hq
        rw [happ, List.mem_append, List.mem_singleton, hq]
        tauto
      · rename_i hq
        tauto
    refine ⟨fun w => ?_, fun w q r => ?_, fun q => ?_⟩
    · simp only [hmem, hrows, List.mem_append, List.mem_singleton, ho.recorded, exists_or,
        exists_and_left, exists_eq, and_true]
    · simp only [hmem]
      rintro (hq | ⟨rfl, rfl⟩) (hr | ⟨hw, hr⟩)
      · exact ho.unique w q r hq hr
      · exact absurd (hw ▸ hq) (hfresh q)
      · exact absurd hr (hfresh r)
      · exact hr.symm
    · show (Function.update s.process p process' q).newlyApplied.Nodup
      rw [hlist]
      split
      · rw [happ, ← List.concat_eq_append]
        exact (ho.nodup p).concat (hfresh p)
      · exact ho.nodup q

theorem once_start (empty : S) : Once (start empty) :=
  ⟨fun _ => ⟨fun h => absurd h nofun, fun ⟨_, h⟩ => absurd h nofun⟩, fun _ _ _ h => absurd h nofun,
    fun _ => List.nodup_nil⟩

/-! ### The whole system -/

/-- The first `n` versions are recorded, the schema is that of `k` migrations, and every process is
in step with that. Where no connection commits by itself, `k` is `n`. -/
structure InStep (discovered : List (Migration S)) (autocommit : ℕ → Bool) (empty : S) (n k : ℕ)
    (s : System S) : Prop where
  consistent : Consistent discovered empty n k s.db
  ready : ∀ p, Ready discovered n k s.db (s.process p)
  together : (∀ p, autocommit p = false) → k = n

theorem inStep_start (hst : Staged discovered empty) :
    InStep discovered autocommit empty 0 0 (start empty) := by
  obtain ⟨schema, hschema⟩ := hst.runs 0
  refine ⟨⟨rfl, hschema.trans ?_, le_rfl, Nat.zero_le _, Nat.zero_le _⟩, fun p => trivial,
    fun _ => rfl⟩
  exact hschema.symm

/-- **What one step keeps.** -/
theorem InStep.step (hst : Staged discovered empty)
    (hs : InStep discovered autocommit empty n k s)
    (h : Migrations.step discovered autocommit s op = some s') :
    ∃ n' k', n ≤ n' ∧ k ≤ k' ∧ InStep discovered autocommit empty n' k' s' := by
  obtain ⟨p, db', process', rfl, ⟨-, hadvance⟩ | ⟨-, rfl, rfl⟩⟩ := step_cases h
  · obtain ⟨n', k', hn, hk, hc, hready, hrows, htogether⟩ :=
      advance_consistent hst hs.consistent (hs.ready p) hadvance
    refine ⟨n', k', hn, hk, hc, fun q => ?_, fun hno => htogether (hno p) (hs.together hno)⟩
    by_cases hq : q = p
    · simp only [hq, Function.update_self]
      exact hready
    · simp only [Function.update_of_ne hq]
      exact (hs.ready q).mono hn hk hc.le hrows
  · refine ⟨n, k, le_rfl, le_rfl, hs.consistent, fun q => ?_, hs.together⟩
    by_cases hq : q = p
    · simp only [hq, Function.update_self]
      trivial
    · simp only [Function.update_of_ne hq]
      exact hs.ready q

theorem InStep.of_exec (hst : Staged discovered empty) {ops : List Op}
    (hs : InStep discovered autocommit empty n k s)
    (h : exec (Migrations.step discovered autocommit) s ops = some s') :
    ∃ n' k', InStep discovered autocommit empty n' k' s' :=
  @inv_of_exec _ _ _ (fun s => ∃ n k, InStep discovered autocommit empty n k s)
    (fun _ _ _ ⟨_, _, hs⟩ ht => by
      obtain ⟨n', k', -, -, hs'⟩ := hs.step hst ht
      exact ⟨n', k', hs'⟩) _ _ _ ⟨n, k, hs⟩ h

theorem inStep_of_exec (hst : Staged discovered empty) {ops : List Op}
    (h : exec (Migrations.step discovered autocommit) (start empty) ops = some s) :
    ∃ n k, InStep discovered autocommit empty n k s :=
  (inStep_start hst).of_exec hst h

theorem once_of_exec {ops : List Op}
    (h : exec (Migrations.step discovered autocommit) (start empty) ops = some s) : Once s :=
  inv_of_exec (fun _ _ _ ho ht => ho.step ht) (once_start empty) h

/-! ### A process left alone -/

/-- The steps of one process only. -/
def Alone (p : ℕ) (ops : List Op) : Prop := ∀ op ∈ ops, op = .advance p

theorem InStep.recorded_eq {m : ℕ} (hs : InStep discovered autocommit empty n k s)
    (hm : m ≤ discovered.length) (h : s.db.rows.getD [] = (discovered.take m).map Migration.row) :
    n = m := by
  have hlen := congrArg List.length (hs.consistent.rows.symm.trans h)
  rw [List.length_map, List.length_map, List.length_take_of_le hs.consistent.le,
    List.length_take_of_le hm] at hlen
  exact hlen

/-- **One round of the loop** of a process that no other gets in the way of. -/
theorem exec_round (hst : Staged discovered empty) {p : ℕ}
    (hs : InStep discovered autocommit empty n k s) {m : Migration S}
    {pending : List (Migration S)} {vs : List ℕ}
    (hp : s.process p = .applying (m :: pending) vs) (hdrop : m :: pending = discovered.drop n) :
    ∃ ops s' k', Alone p ops ∧ exec (Migrations.step discovered autocommit) s ops = some s' ∧
      InStep discovered autocommit empty (n + 1) k' s' ∧
      s'.process p = .applying pending (vs ++ [m.version]) := by
  obtain ⟨hm, -⟩ := getElem?_of_drop hdrop
  have hlt := (List.getElem?_eq_some_iff.mp hm).1
  have hready := hs.ready p
  rw [hp] at hready
  obtain ⟨hrows, -⟩ := hready
  obtain ⟨schema, hup, -⟩ := hs.consistent.up hst hm le_rfl
  have hinsert := insertRow_eq hst.versions hm le_rfl hrows hs.consistent.rows
  rw [if_neg (lt_irrefl n)] at hinsert
  have hfinal : ∃ ops, Alone p ops ∧ exec (Migrations.step discovered autocommit) s ops = some
      ⟨⟨schema, some ((discovered.take (n + 1)).map Migration.row)⟩,
        Function.update s.process p (.applying pending (vs ++ [m.version]))⟩ := by
    cases hauto : autocommit p with
    | true =>
      refine ⟨[.advance p, .advance p], by simp [Alone], ?_⟩
      have hfirst : Migrations.step discovered autocommit s (.advance p) = some
          ⟨{ s.db with schema := schema },
            Function.update s.process p (.recording m pending vs)⟩ := by
        simp only [Migrations.step, hp, hauto, advance, hup, if_true, Option.map_some]
      rw [exec_cons, hfirst, Option.bind_some, exec_cons]
      simp only [Migrations.step, Function.update_self, advance, hinsert, Option.map_some,
        Function.update_idem, Option.bind_some, exec_nil]
    | false =>
      refine ⟨[.advance p], by simp [Alone], ?_⟩
      rw [exec_cons]
      simp only [Migrations.step, hp, hauto, advance, hup, Bool.false_eq_true, if_false, hinsert,
        Option.map_some, Option.bind_some, exec_nil]
  obtain ⟨ops, halone, hexec⟩ := hfinal
  obtain ⟨n', k', hs'⟩ := hs.of_exec hst hexec
  obtain rfl : n' = n + 1 := hs'.recorded_eq hlt rfl
  exact ⟨ops, _, k', halone, hexec, hs', Function.update_self ..⟩

theorem exec_rounds (hst : Staged discovered empty) {p : ℕ} :
    ∀ {pending : List (Migration S)} {n k : ℕ} {s : System S} {vs : List ℕ},
      InStep discovered autocommit empty n k s → s.process p = .applying pending vs →
      pending = discovered.drop n → ∃ ops s', Alone p ops ∧
        exec (Migrations.step discovered autocommit) s ops = some s' ∧
        InStep discovered autocommit empty discovered.length discovered.length s' ∧
        s'.process p = .returned (vs ++ pending.map Migration.version)
  | [], n, k, s, vs, hs, hp, hdrop => by
    have hlen : n = discovered.length :=
      le_antisymm hs.consistent.le (List.drop_eq_nil_iff.mp hdrop.symm)
    have hk : k = discovered.length :=
      le_antisymm hs.consistent.le_length (hlen ▸ hs.consistent.recorded_le)
    subst hlen hk
    have hstep : Migrations.step discovered autocommit s (.advance p) =
        some ⟨s.db, Function.update s.process p (.returned vs)⟩ := by
      simp only [Migrations.step, hp, advance, Option.map_some]
    obtain ⟨n', k', hn, hk, hs'⟩ := hs.step hst hstep
    obtain rfl := le_antisymm hs'.consistent.le hn
    obtain rfl := le_antisymm hs'.consistent.le_length hk
    refine ⟨[.advance p], _, by simp [Alone], exec_cons_eq_some.mpr ⟨_, hstep, rfl⟩, hs', ?_⟩
    simp
  | m :: pending, n, k, s, vs, hs, hp, hdrop => by
    obtain ⟨ops, t, k', halone, hexec, ht, htp⟩ := exec_round hst hs hp hdrop
    obtain ⟨-, hrest⟩ := getElem?_of_drop hdrop
    obtain ⟨ops', s', halone', hexec', hs', hsp⟩ := exec_rounds hst ht htp hrest
    refine ⟨ops ++ ops', s', fun op hop => ?_, ?_, hs', ?_⟩
    · exact (List.mem_append.mp hop).elim (halone op) (halone' op)
    · rw [exec_append_of hexec]
      exact hexec'
    · rw [hsp, List.map_cons, List.append_assoc, List.singleton_append]

/-- **A process that starts now and is left alone** applies what is not recorded and returns. -/
theorem exec_alone (hst : Staged discovered empty) {p : ℕ}
    (hs : InStep discovered autocommit empty n k s) (hp : s.process p = .opened) :
    ∃ ops s', Alone p ops ∧ exec (Migrations.step discovered autocommit) s ops = some s' ∧
      InStep discovered autocommit empty discovered.length discovered.length s' ∧
      s'.process p = .returned ((discovered.drop n).map Migration.version) := by
  have hcreated : Migrations.step discovered autocommit s (.advance p) =
      some ⟨{ s.db with rows := some (s.db.rows.getD []) },
        Function.update s.process p .created⟩ := by
    simp only [Migrations.step, hp, advance, Option.map_some]
  have hread : Migrations.step discovered autocommit
      ⟨{ s.db with rows := some (s.db.rows.getD []) }, Function.update s.process p .created⟩
      (.advance p) = some ⟨{ s.db with rows := some (s.db.rows.getD []) },
        Function.update s.process p (.applying (discovered.drop n) [])⟩ := by
    simp only [Migrations.step, Function.update_self, advance, Option.map_some,
      Function.update_idem, filter_pending hst.versions hs.consistent.rows]
  have hboth : exec (Migrations.step discovered autocommit) s [.advance p, .advance p] =
      some ⟨{ s.db with rows := some (s.db.rows.getD []) },
        Function.update s.process p (.applying (discovered.drop n) [])⟩ := by
    rw [exec_cons, hcreated, Option.bind_some, exec_cons, hread, Option.bind_some, exec_nil]
  obtain ⟨n', k', hs'⟩ := hs.of_exec hst hboth
  obtain rfl : n' = n := hs'.recorded_eq hs.consistent.le hs.consistent.rows
  obtain ⟨ops, t, halone, hexec, ht, htp⟩ := exec_rounds hst hs' (Function.update_self ..) rfl
  refine ⟨[.advance p, .advance p] ++ ops, t, fun op hop => ?_, ?_, ht, htp⟩
  · rcases List.mem_append.mp hop with hop | hop
    · simpa using hop
    · exact halone op hop
  · rw [exec_append_of hboth]
    exact hexec

end

end Selfevals.Storage.Migrations
