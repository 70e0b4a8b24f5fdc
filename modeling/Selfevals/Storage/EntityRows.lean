import Selfevals.Lib.Relational
import Selfevals.Storage.Tables

/-!
# Entities in rows of several tables

A mapper keeps an entity in the row of its id in a main table, and in rows of other tables that name
the entity as their owner. A `Layout` says which; `Represents` says that a database holds the
entities of a `Table`, each with its own rows and no others.
-/

namespace Selfevals.Storage.EntityRows

open Lib.Sql Lib.Relational Schemas.Base
open Storage.Entity (upsert)
open Entity (base withCreatedAt)
open Tables (base_upsert_id)
open Tables.Table (find?_eq_some find?_set mem_rows_iff)

variable {T C : Type} [DecidableEq T] [DecidableEq C] {S : Schema T C} {α : Type} [Entity α]

/-- The rows an entity is kept in. -/
structure Layout (T C α : Type) [DecidableEq T] [DecidableEq C] [Entity α] where
  main : T
  idColumn : C
  owner : C
  /-- What an upsert of the main row replaces. -/
  updateColumns : List C
  newRow : α → Row C
  /-- What goes into the other tables. -/
  inserts : α → List (Db.Insert T C)
  idColumn_kept : idColumn ∉ updateColumns
  newRow_id : ∀ a, newRow a idColumn = .text (base a).id
  updated_newRow : ∀ old new, (base old).id = (base new).id →
    Db.updated updateColumns (newRow old) (newRow new) = newRow (upsert (some old) new)
  inserts_upsert : ∀ old new, inserts (upsert (some old) new) = inserts new
  owned : ∀ a t, ∀ row ∈ Db.added t (inserts a), hasText owner (base a).id row = true

variable (L : Layout T C α)

/-- The main rows are those of the entities of a table. -/
structure Layout.Holds (rows : List (Row C)) (store : Tables.Table α) : Prop where
  named : ∀ row ∈ rows, ∃ id, row L.idColumn = .text id
  found : ∀ id, rows.filter (hasText L.idColumn id) = ((store.find? id).map L.newRow).toList

/-- The rows besides the main ones are those of the entities of a table. -/
def Layout.Facts (db : Db S) (store : Tables.Table α) : Prop :=
  ∀ id t, t ≠ L.main → (db.rows t).filter (hasText L.owner id) =
    (store.find? id).elim [] fun a => Db.added t (L.inserts a)

/-- The database holds the entities of a table, each with its own rows and no others. -/
structure Represents (db : Db S) (store : Tables.Table α) : Prop where
  main : L.Holds (db.rows L.main) store
  facts : L.Facts db store

theorem represents_empty : Represents (S := S) L Db.empty Tables.Table.empty :=
  ⟨⟨by simp [Db.empty], fun _ => rfl⟩, fun _ _ _ => rfl⟩

variable {L} {db db' : Db S} {store : Tables.Table α} {rows : List (Row C)}

theorem id_of_stored {id : String} {a : α} (hstored : store.find? id = some a) : id = (base a).id :=
  (find?_eq_some.mp hstored).2.symm

/-! ### The main rows -/

theorem Layout.sameKey_id {key : List C} (hkey : L.idColumn ∈ key) {a b : α}
    (hne : (base a).id ≠ (base b).id) : sameKey key (L.newRow a) (L.newRow b) = false := by
  refine sameKey_eq_false hkey ?_
  rw [L.newRow_id, L.newRow_id, sqlEq_text]
  exact beq_false_of_ne hne

namespace Layout.Holds

theorem mem_iff (h : L.Holds rows store) {row : Row C} :
    row ∈ rows ↔ ∃ a ∈ store.rows, row = L.newRow a := by
  constructor
  · intro hrow
    obtain ⟨id, hid⟩ := h.named row hrow
    have hmem : row ∈ rows.filter (hasText L.idColumn id) :=
      List.mem_filter.mpr ⟨hrow, hasText_iff.mpr hid⟩
    rw [h.found id, Option.mem_toList, Option.map_eq_some_iff] at hmem
    obtain ⟨a, ha, rfl⟩ := hmem
    exact ⟨a, (find?_eq_some.mp ha).1, rfl⟩
  · rintro ⟨a, ha, rfl⟩
    have hmem : L.newRow a ∈ rows.filter (hasText L.idColumn (base a).id) := by
      rw [h.found, mem_rows_iff.mp ha]
      simp
    exact (List.mem_filter.mp hmem).1

theorem nodup (h : L.Holds rows store) : rows.Nodup := by
  refine List.nodup_iff_sublist.mpr fun row hsub => ?_
  obtain ⟨id, hid⟩ := h.named row (hsub.subset List.mem_cons_self)
  have htwice := hsub.filter (hasText L.idColumn id)
  rw [List.filter_eq_self.mpr fun r hr => by simp_all [hasText_iff], h.found id] at htwice
  have hlen := htwice.length_le
  cases hstored : store.find? id <;> simp [hstored] at hlen

/-- **The rows may stand** where those of each entity pass, and no two entities share a key. -/
theorem accepts_iff (h : L.Holds rows store) : S.Accepts L.main rows ↔
    (∀ a ∈ store.rows, (S.checks L.main).all (·.holds (L.newRow a)) = true) ∧
      ∀ key ∈ S.keys L.main, ∀ a ∈ store.rows, ∀ b ∈ store.rows, (base a).id ≠ (base b).id →
        sameKey key (L.newRow a) (L.newRow b) = false := by
  have hne : ∀ a b, (base a).id ≠ (base b).id → L.newRow a ≠ L.newRow b := fun a b hab heq =>
    hab (SqlValue.text.inj ((L.newRow_id a).symm.trans (heq ▸ L.newRow_id b)))
  constructor
  · refine fun hacc => ⟨fun a ha => hacc.1 _ (h.mem_iff.mpr ⟨a, ha, rfl⟩),
      fun key hkey a ha b hb hab => ?_⟩
    have : Std.Symm fun r r' : Row C => sameKey key r r' = false :=
      ⟨fun r r' hclash => (sameKey_symm key r' r).trans hclash⟩
    exact (hacc.2 key hkey).forall (h.mem_iff.mpr ⟨a, ha, rfl⟩) (h.mem_iff.mpr ⟨b, hb, rfl⟩)
      (hne a b hab)
  · rintro ⟨hchecks, hkeys⟩
    refine ⟨fun row hrow => ?_,
      fun key hkey => h.nodup.pairwise_of_forall_ne fun r hr r' hr' hrr' => ?_⟩
    · obtain ⟨a, ha, rfl⟩ := h.mem_iff.mp hrow
      exact hchecks a ha
    · obtain ⟨a, ha, rfl⟩ := h.mem_iff.mp hr
      obtain ⟨b, hb, rfl⟩ := h.mem_iff.mp hr'
      refine hkeys key hkey a ha b hb fun hid => hrr' ?_
      rw [List.inj_on_of_nodup_map store.ids_nodup ha hb hid]

/-- **The main rows after an upsert**: under its id the new row, with the creation time that was
stored. -/
theorem upsert (h : L.Holds rows store) (a : α) :
    L.Holds (Db.upsertRows L.idColumn L.updateColumns rows (L.newRow a))
      (store.set (Entity.upsert (store.find? (base a).id) a)) := by
  refine ⟨fun row hrow => ?_, fun id => ?_⟩
  · unfold Db.upsertRows at hrow
    split_ifs at hrow
    · obtain ⟨old, hold, rfl⟩ := List.mem_map.mp hrow
      split_ifs
      · rw [updated_of_not_mem L.idColumn_kept]
        exact h.named old hold
      · exact h.named old hold
    · obtain hrow | hrow := List.mem_append.mp hrow
      · exact h.named row hrow
      · rw [List.mem_singleton] at hrow
        exact ⟨_, hrow ▸ L.newRow_id a⟩
  · rw [filter_upsertRows L.idColumn_kept (L.newRow_id a), find?_set, base_upsert_id]
    split_ifs with heq hnil
    · cases hstored : store.find? (base a).id with
      | none => rfl
      | some old => simp [h.found, hstored] at hnil
    · cases hstored : store.find? (base a).id with
      | none => simp [h.found, hstored] at hnil
      | some old =>
        rw [h.found, hstored]
        show [Db.updated _ _ _] = _
        rw [L.updated_newRow old a (id_of_stored hstored).symm]
        rfl
    · exact h.found id

end Layout.Holds

/-- **An upsert of the main row passes** where its checks do, and no other entity has a key of it.
-/
theorem Represents.accepts_upsert_iff (h : Represents L db store) (a : α) :
    S.Accepts L.main (Db.upsertRows L.idColumn L.updateColumns (db.rows L.main) (L.newRow a)) ↔
      (S.checks L.main).all (·.holds (L.newRow (upsert (store.find? (base a).id) a))) = true ∧
        ∀ key ∈ S.keys L.main, ∀ old ∈ store.rows, (base old).id ≠ (base a).id →
          sameKey key (L.newRow old) (L.newRow (upsert (store.find? (base a).id) a)) = false := by
  have hold := h.main.accepts_iff.mp (db.accepted L.main)
  have hnew := h.main.upsert a
  have hid := base_upsert_id (store.find? (base a).id) a
  generalize upsert (store.find? (base a).id) a = new at hnew hid ⊢
  have hmem : ∀ r, r ∈ (store.set new).rows ↔ _ := fun r => Tables.Table.mem_setRows
  rw [hnew.accepts_iff, ← hid]
  constructor
  · rintro ⟨hchecks, hkeys⟩
    refine ⟨hchecks _ ((hmem _).mpr (.inl rfl)), fun key hkey old hmem' hne => ?_⟩
    exact hkeys key hkey old ((hmem _).mpr (.inr ⟨hmem', hne⟩)) _ ((hmem _).mpr (.inl rfl))
      hne
  · rintro ⟨hchecks, hkeys⟩
    refine ⟨fun r hr => ?_, fun key hkey r hr r' hr' hne => ?_⟩
    · obtain rfl | ⟨hr, -⟩ := (hmem r).mp hr
      · exact hchecks
      · exact hold.1 r hr
    · obtain rfl | ⟨hmem₁, hother⟩ := (hmem r).mp hr
      · obtain rfl | ⟨hmem₂, hother'⟩ := (hmem r').mp hr'
        · exact absurd rfl hne
        · rw [sameKey_symm]
          exact hkeys key hkey r' hmem₂ hother'
      · obtain rfl | ⟨hmem₂, -⟩ := (hmem r').mp hr'
        · exact hkeys key hkey r hmem₁ hother
        · exact hold.2 key hkey r hmem₁ r' hmem₂ hne

theorem Represents.find?_main (h : Represents L db store) (id : String) (p : Row C → Bool) :
    ((db.rows L.main).find? fun row => hasText L.idColumn id row && p row) =
      ((store.find? id).map L.newRow).filter p := by
  have hfind : ((db.rows L.main).find? fun row => hasText L.idColumn id row && p row) =
      (((store.find? id).map L.newRow).toList).find? p := by
    rw [← h.main.found id, List.find?_filter]
    simp only [Bool.decide_and, Bool.decide_eq_true]
  rw [hfind]
  cases hstored : store.find? id with
  | none => rfl
  | some a => cases hp : p (L.newRow a) <;> simp [Option.filter, hp]

/-! ### The other rows -/

theorem Layout.Facts.of_stored (h : L.Facts db store) {a : α}
    (hstored : store.find? (base a).id = some a) {t : T} (ht : t ≠ L.main) :
    (db.rows t).filter (hasText L.owner (base a).id) = Db.added t (L.inserts a) := by
  rw [h _ t ht, hstored]
  rfl

theorem Layout.Facts.exists_insert (h : L.Facts db store) {id : String} {t : T} (ht : t ≠ L.main)
    {row : Row C} (hrow : row ∈ db.rows t) (htext : hasText L.owner id row = true) :
    ∃ a, store.find? id = some a ∧ row ∈ Db.added t (L.inserts a) := by
  have hmem : row ∈ (db.rows t).filter (hasText L.owner id) := List.mem_filter.mpr ⟨hrow, htext⟩
  rw [h id t ht] at hmem
  cases hstored : store.find? id with
  | none => simp [hstored] at hmem
  | some a => exact ⟨a, rfl, by simpa [hstored] using hmem⟩

/-- **A write to the rows is a write to the table**: the entity is kept under its id, with the
creation time of the first insert, and nothing else changes. -/
theorem Represents.write (h : Represents L db store) {a : α}
    (hmain : db'.rows L.main =
      Db.upsertRows L.idColumn L.updateColumns (db.rows L.main) (L.newRow a))
    (hfacts : ∀ t, t ≠ L.main → db'.rows t =
      (db.rows t).filter (fun row => !hasText L.owner (base a).id row) ++
        Db.added t (L.inserts a)) :
    Represents L db' (store.set (upsert (store.find? (base a).id) a)) := by
  refine ⟨hmain ▸ h.main.upsert a, fun id t ht => ?_⟩
  rw [hfacts t ht, filter_replaced (L.owned a t), find?_set, base_upsert_id]
  split_ifs
  · cases hstored : store.find? (base a).id with
    | none => rfl
    | some old => exact congrArg (Db.added t) (L.inserts_upsert old a).symm
  · exact h.facts id t ht

/-! ### Runs of writes -/

/-- The table after a run of writes. -/
def written (writes : List α) : Tables.Table α :=
  writes.foldl (fun store a => store.set (upsert (store.find? (base a).id) a)) .empty

/-- What the writes of a run leave under an id: the last one, with the creation time of the first.
-/
def latest (writes : List α) (id : String) : Option α := do
  let first ← writes.find? fun a => (base a).id == id
  let last ← writes.reverse.find? fun a => (base a).id == id
  return withCreatedAt last (base first).createdAt

theorem written_append (writes : List α) (a : α) : written (writes ++ [a]) =
    (written writes).set (upsert ((written writes).find? (base a).id) a) := by
  unfold written
  rw [List.foldl_append]
  rfl

theorem latest_append_of_ne (writes : List α) {a : α} {id : String} (hne : id ≠ (base a).id) :
    latest (writes ++ [a]) id = latest writes id := by
  have hother : ((base a).id == id) = false := beq_false_of_ne (Ne.symm hne)
  simp [latest, List.find?_append, hother]

theorem latest_append_self (hself : ∀ a : α, withCreatedAt a (base a).createdAt = a)
    (writes : List α) (a : α) :
    latest (writes ++ [a]) (base a).id = some (upsert (latest writes (base a).id) a) := by
  have hhead : ∀ as : List α, (a :: as).find? (fun b => (base b).id == (base a).id) = some a :=
    fun as => List.find?_cons_of_pos (by simp)
  have hlast : (writes ++ [a]).reverse.find? (fun b => (base b).id == (base a).id) = some a := by
    rw [List.reverse_append, List.reverse_singleton, List.singleton_append]
    exact hhead _
  unfold latest
  rw [hlast, List.find?_append, hhead]
  cases hfirst : writes.find? fun b => (base b).id == (base a).id with
  | none => exact congrArg some (hself a)
  | some first =>
    have hsome : (writes.reverse.find? fun b => (base b).id == (base a).id).isSome := by
      refine List.find?_isSome.mpr ⟨first, ?_, by simpa using List.find?_some hfirst⟩
      exact List.mem_reverse.mpr (List.mem_of_find?_eq_some hfirst)
    obtain ⟨last, hlast⟩ := Option.isSome_iff_exists.mp hsome
    rw [hlast]
    show some (withCreatedAt a (base first).createdAt) =
      some (withCreatedAt a (base (withCreatedAt last (base first).createdAt)).createdAt)
    rw [Entity.base_withCreatedAt]

/-- **What a run of writes leaves** under an id is the last one, with the creation time of the
first. -/
theorem find?_written (hself : ∀ a : α, withCreatedAt a (base a).createdAt = a) (writes : List α)
    (id : String) : (written writes).find? id = latest writes id := by
  induction writes using List.reverseRecOn generalizing id with
  | nil => rfl
  | append_singleton writes a ih =>
    rw [written_append, find?_set, base_upsert_id]
    split_ifs with heq
    · rw [heq, latest_append_self hself, ih]
    · rw [latest_append_of_ne writes heq, ih]

end Selfevals.Storage.EntityRows
