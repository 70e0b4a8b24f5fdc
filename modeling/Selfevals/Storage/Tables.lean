import Selfevals.Storage.Entity

/-!
# Tables of entities

A table holds one row for each id, as its primary key has it. `put` is `put_entity` on the table.

* `find?_set`, `put_eq_ok`: what is stored under each id after a write.
-/

namespace Selfevals.Storage.Tables

open Schemas.Base Storage.Entity
open Entity (base withCreatedAt)

variable {α : Type} [Entity α]

@[simp] theorem base_upsert_id (existing : Option α) (entity : α) :
    (base (upsert existing entity)).id = (base entity).id := by
  cases existing with
  | none => rfl
  | some row => simp [upsert, Entity.base_withCreatedAt]

/-- The rows of a table; their ids are distinct. -/
structure Table (α : Type) [Entity α] where
  rows : List α
  ids_nodup : (rows.map fun r => (base r).id).Nodup

namespace Table

/-- A table without rows. -/
def empty : Table α := ⟨[], List.nodup_nil⟩

/-- The row with an id. -/
def find? (t : Table α) (id : String) : Option α := t.rows.find? fun r => (base r).id == id

/-- The rows after a row is replaced under its id, or added. -/
def setRows (rows : List α) (row : α) : List α :=
  if rows.any fun r => (base r).id == (base row).id then
    rows.map fun r => if (base r).id = (base row).id then row else r
  else rows ++ [row]

theorem ids_setRows (rows : List α) (row : α) :
    (setRows rows row).map (fun r => (base r).id) =
      if (base row).id ∈ rows.map (fun r => (base r).id) then rows.map (fun r => (base r).id)
      else rows.map (fun r => (base r).id) ++ [(base row).id] := by
  have hany : (rows.any fun r => (base r).id == (base row).id) = true ↔
      (base row).id ∈ rows.map (fun r => (base r).id) := by simp
  unfold setRows
  by_cases h : (base row).id ∈ rows.map (fun r => (base r).id)
  · rw [if_pos (hany.mpr h), if_pos h, List.map_map]
    refine List.map_congr_left fun r _ => ?_
    show (base (if (base r).id = (base row).id then row else r)).id = (base r).id
    split_ifs with heq
    · exact heq.symm
    · rfl
  · rw [if_neg fun hp => h (hany.mp hp), if_neg h, List.map_append]
    rfl

/-- The row is written under its id. -/
def set (t : Table α) (row : α) : Table α where
  rows := setRows t.rows row
  ids_nodup := by
    rw [ids_setRows]
    split_ifs with h
    · exact t.ids_nodup
    · rw [← List.concat_eq_append]
      exact t.ids_nodup.concat h

/-- `put_entity`, in the scope of a workspace. -/
def put (t : Table α) (workspaceId : String) (entity : α) : Except StorageError (Table α) :=
  (putEntity workspaceId (t.find? (base entity).id) entity).map t.set

theorem mem_setRows {rows : List α} {row r : α} :
    r ∈ setRows rows row ↔ r = row ∨ r ∈ rows ∧ (base r).id ≠ (base row).id := by
  unfold setRows
  split_ifs with hany
  · obtain ⟨old, hold, hid⟩ := List.any_eq_true.mp hany
    rw [beq_iff_eq] at hid
    rw [List.mem_map]
    constructor
    · rintro ⟨r₀, hr₀, rfl⟩
      split_ifs with heq
      · exact Or.inl rfl
      · exact Or.inr ⟨hr₀, heq⟩
    · rintro (rfl | ⟨hr, hne⟩)
      · exact ⟨old, hold, if_pos hid⟩
      · exact ⟨r, hr, if_neg hne⟩
  · rw [List.mem_append, List.mem_singleton]
    have hnew : ∀ r ∈ rows, (base r).id ≠ (base row).id := fun r hr heq =>
      hany (List.any_eq_true.mpr ⟨r, hr, by simpa using heq⟩)
    constructor
    · rintro (hr | rfl)
      · exact Or.inr ⟨hr, hnew r hr⟩
      · exact Or.inl rfl
    · rintro (rfl | ⟨hr, -⟩)
      · exact Or.inr rfl
      · exact Or.inl hr

theorem find?_eq_some {t : Table α} {id : String} {r : α} :
    t.find? id = some r ↔ r ∈ t.rows ∧ (base r).id = id := by
  unfold find?
  constructor
  · intro h
    exact ⟨List.mem_of_find?_eq_some h, by simpa using List.find?_some h⟩
  · rintro ⟨hr, rfl⟩
    have hsome : (t.rows.find? fun r' => (base r').id == (base r).id).isSome := by
      rw [List.find?_isSome]
      exact ⟨r, hr, by simp⟩
    obtain ⟨r', hr'⟩ := Option.isSome_iff_exists.mp hsome
    have hid : (base r').id = (base r).id := by simpa using List.find?_some hr'
    obtain rfl := List.inj_on_of_nodup_map t.ids_nodup (List.mem_of_find?_eq_some hr') hr hid
    exact hr'

theorem mem_rows_iff {t : Table α} {r : α} : r ∈ t.rows ↔ t.find? (base r).id = some r := by
  rw [find?_eq_some, and_iff_left rfl]

theorem forall_rows_iff {t : Table α} {p : α → Prop} :
    (∀ r ∈ t.rows, p r) ↔ ∀ id r, t.find? id = some r → p r :=
  ⟨fun h _ r hr => h r (find?_eq_some.mp hr).1, fun h r hr => h _ r (mem_rows_iff.mp hr)⟩

/-- **After a write**, the row is found under its id, and under every other id what was there. -/
theorem find?_set (t : Table α) (row : α) (id : String) :
    (t.set row).find? id = if id = (base row).id then some row else t.find? id := by
  refine Option.ext fun r => ?_
  rw [find?_eq_some, show (t.set row).rows = setRows t.rows row from rfl, mem_setRows]
  split_ifs with hid
  · subst hid
    constructor
    · rintro ⟨rfl | ⟨-, hne⟩, heq⟩
      · rfl
      · exact absurd heq hne
    · intro h
      obtain rfl := Option.some.inj h
      exact ⟨Or.inl rfl, rfl⟩
  · rw [find?_eq_some]
    constructor
    · rintro ⟨rfl | ⟨hr, -⟩, rfl⟩
      · exact absurd rfl hid
      · exact ⟨hr, rfl⟩
    · rintro ⟨hr, rfl⟩
      exact ⟨Or.inr ⟨hr, hid⟩, rfl⟩

theorem set_of_find? {t : Table α} {row : α} (h : t.find? (base row).id = some row) :
    t.set row = t := by
  have hmem : row ∈ t.rows := mem_rows_iff.mpr h
  have hany : (t.rows.any fun r => (base r).id == (base row).id) = true :=
    List.any_eq_true.mpr ⟨row, hmem, by simp⟩
  obtain ⟨rows, hnodup⟩ := t
  refine (Table.mk.injEq _ _ _ _).mpr ?_
  show setRows rows row = rows
  unfold setRows
  rw [if_pos hany]
  refine (List.map_congr_left fun r hr => ?_).trans (List.map_id _)
  split_ifs with hid
  · exact (List.inj_on_of_nodup_map hnodup hr hmem hid).symm
  · rfl

theorem put_eq_ok {t t' : Table α} {workspaceId : String} {entity : α}
    (h : t.put workspaceId entity = .ok t') :
    checkPut workspaceId (t.find? (base entity).id) entity = .ok () ∧
      ∀ id, t'.find? id = if id = (base entity).id then
        some (upsert (t.find? (base entity).id) entity) else t.find? id := by
  unfold put at h
  cases hput : putEntity workspaceId (t.find? (base entity).id) entity with
  | error e => rw [hput] at h; cases h
  | ok row =>
    rw [hput] at h
    obtain rfl : t.set row = t' := Except.ok.inj h
    obtain ⟨hcheck, rfl⟩ := putEntity_eq_ok hput
    refine ⟨hcheck, fun id => ?_⟩
    rw [find?_set, base_upsert_id]

theorem find?_eq_none {t : Table α} {id : String} :
    t.find? id = none ↔ ∀ r ∈ t.rows, (base r).id ≠ id := by
  simp [find?]

theorem put_of_new {t : Table α} {workspaceId : String} {entity : α}
    (hnew : t.find? (base entity).id = none) (hws : (base entity).workspaceId = workspaceId) :
    ∃ t', t.put workspaceId entity = .ok t' ∧ t'.rows = t.rows ++ [entity] := by
  have hany : ¬ (t.rows.any fun r => (base r).id == (base entity).id) = true := by
    intro hany
    obtain ⟨r, hr, hid⟩ := List.any_eq_true.mp hany
    exact find?_eq_none.mp hnew r hr (by simpa using hid)
  have hput : putEntity workspaceId none entity = .ok entity := by
    unfold putEntity checkPut
    rw [if_neg (by simp [hws])]
    rfl
  refine ⟨t.set entity, ?_, if_neg hany⟩
  unfold put
  rw [hnew, hput]
  rfl

theorem find?_of_append {t t' : Table α} {row : α} (hrows : t'.rows = t.rows ++ [row])
    (id : String) : t'.find? id = if id = (base row).id then some row else t.find? id := by
  split_ifs with hid
  · rw [find?_eq_some, hrows, hid]
    exact ⟨List.mem_append_right _ (List.mem_singleton_self row), rfl⟩
  · have hne : ((base row).id == id) = false := by simpa using Ne.symm hid
    unfold find?
    rw [hrows, List.find?_append, List.find?_singleton, hne]
    simp

theorem find?_of_map {t t' : Table α} {row : α} (hrow : row ∈ t.rows) (entity : α)
    (hbase : (base entity).id = (base row).id)
    (hrows : t'.rows = t.rows.map fun r => if (base r).id = (base row).id then entity else r)
    (id : String) : t'.find? id = if id = (base row).id then some entity else t.find? id := by
  refine Option.ext fun r => ?_
  rw [find?_eq_some, hrows, List.mem_map]
  split_ifs with hid
  · constructor
    · rintro ⟨⟨r₀, hr₀, rfl⟩, hr⟩
      split_ifs at hr ⊢ with h₀
      · rfl
      · exact absurd (hr.trans hid) h₀
    · intro h
      obtain rfl := Option.some.inj h
      exact ⟨⟨row, hrow, if_pos rfl⟩, hbase.trans hid.symm⟩
  · rw [find?_eq_some]
    constructor
    · rintro ⟨⟨r₀, hr₀, rfl⟩, hr⟩
      split_ifs at hr ⊢ with h₀
      · exact absurd (hr.symm.trans hbase) hid
      · exact ⟨hr₀, hr⟩
    · rintro ⟨hr, rfl⟩
      exact ⟨⟨r, hr, if_neg hid⟩, rfl⟩

theorem put_over {t : Table α} {workspaceId : String} {row entity : α} (hrow : row ∈ t.rows)
    (hbase : base entity = base row) (hws : (base row).workspaceId = workspaceId)
    (hcreated : withCreatedAt entity (base row).createdAt = entity) :
    ∃ t', t.put workspaceId entity = .ok t' ∧
      t'.rows = t.rows.map fun r => if (base r).id = (base row).id then entity else r := by
  have hfind : t.find? (base entity).id = some row := by
    rw [hbase]
    exact mem_rows_iff.mp hrow
  have hput : putEntity workspaceId (some row) entity = .ok entity := by
    obtain rfl : (base entity).workspaceId = workspaceId := by rw [hbase, hws]
    rw [putEntity_of_same (by rw [hbase]) (by rw [hbase])]
    exact congrArg Except.ok hcreated
  have hany : (t.rows.any fun r => (base r).id == (base entity).id) = true :=
    List.any_eq_true.mpr ⟨row, hrow, by simp [hbase]⟩
  refine ⟨t.set entity, ?_, (if_pos hany).trans (by rw [hbase])⟩
  unfold put
  rw [hfind, hput]
  rfl

/-- `mapper.delete`. -/
def erase (t : Table α) (id : String) : Table α where
  rows := t.rows.filter fun r => (base r).id ≠ id
  ids_nodup := t.ids_nodup.sublist (List.filter_sublist.map _)

theorem mem_rows_erase {t : Table α} {id : String} {r : α} :
    r ∈ (t.erase id).rows ↔ r ∈ t.rows ∧ (base r).id ≠ id := by
  simp [erase]

theorem sum_map_over {t : Table α} {row : α} (hrow : row ∈ t.rows) (entity : α) (f : α → ℕ) :
    ((t.rows.map fun r => if (base r).id = (base row).id then entity else r).map f).sum + f row =
      (t.rows.map f).sum + f entity := by
  obtain ⟨pre, post, hsplit⟩ := List.append_of_mem hrow
  have hnodup := t.ids_nodup
  rw [hsplit, List.map_append, List.map_cons, List.nodup_middle, List.nodup_cons] at hnodup
  have hother : ∀ rs : List α, (∀ r ∈ rs, r ∈ pre ++ post) →
      (rs.map fun r => if (base r).id = (base row).id then entity else r) = rs := by
    intro rs hrs
    refine (List.map_congr_left fun r hr => if_neg fun hid => hnodup.1 ?_).trans (List.map_id rs)
    rw [← List.map_append]
    exact List.mem_map.mpr ⟨r, hrs r hr, hid⟩
  rw [hsplit, List.map_append, List.map_cons, if_pos rfl,
    hother pre fun r hr => List.mem_append_left post hr,
    hother post fun r hr => List.mem_append_right pre hr]
  simp only [List.map_append, List.map_cons, List.sum_append, List.sum_cons]
  omega

end Table

end Selfevals.Storage.Tables
