import Mathlib.Data.List.Basic
import Mathlib.Tactic

/-!
# Tables with foreign keys

A database is a set of rows with distinct keys. A row may refer to others: when the other is
deleted, the row falls with it (`ON DELETE CASCADE`) or its reference becomes null (`ON DELETE SET
NULL`).

* `find?_set`, `find?_delete`: what is stored under each key after a write.
-/

namespace Selfevals.Lib.ForeignKeys

/-- What a reference does when its row is deleted. -/
inductive OnDelete
  | cascade | setNull
deriving DecidableEq, Repr

/-- A reference from one table to another. -/
structure Reference (κ : Type*) where
  target : κ
  onDelete : OnDelete
deriving DecidableEq, Repr

/-- Rows with a key, and references to others. -/
class Referring (ρ : Type*) (κ : outParam Type*) where
  key : ρ → κ
  references : ρ → List (Reference κ)
  /-- The references to what is gone become null, where they may. -/
  clear : (κ → Bool) → ρ → ρ
  key_clear : ∀ gone r, key (clear gone r) = key r
  clear_eq_self_iff : ∀ gone r, clear gone r = r ↔
    ∀ ref ∈ references r, ref.onDelete = .setNull → gone ref.target = false

variable {ρ κ : Type*} [Referring ρ κ]

open Referring (key references clear)

section Fallen
variable [DecidableEq κ]

/-- A row refers to one of the keys, and falls with it. -/
def cascades (gone : List κ) (r : ρ) : Bool :=
  (references r).any fun ref => decide (ref.onDelete = .cascade) && decide (ref.target ∈ gone)

/-- What falls with the keys, in `n` rounds. -/
def fallen : ℕ → List ρ → List κ → List κ
  | 0, _, gone => gone
  | n + 1, rows, gone =>
    match rows.filter (cascades gone) with
    | [] => gone
    | more => fallen n (rows.filter fun r => !cascades gone r) (gone ++ more.map key)

omit [DecidableEq κ] in
/-- A key falls with those of a list. -/
inductive Falls (rows : List ρ) (gone : List κ) : κ → Prop
  | gone {k : κ} (h : k ∈ gone) : Falls rows gone k
  | cascade {r : ρ} {ref : Reference κ} (hr : r ∈ rows) (href : ref ∈ references r)
    (honDelete : ref.onDelete = .cascade) (h : Falls rows gone ref.target) :
    Falls rows gone (key r)

theorem cascades_iff {gone : List κ} {r : ρ} :
    cascades gone r = true ↔
      ∃ ref ∈ references r, ref.onDelete = .cascade ∧ ref.target ∈ gone := by
  simp [cascades]

theorem falls_of_cascades {rows : List ρ} {gone : List κ} {r : ρ} (hr : r ∈ rows)
    (h : cascades gone r = true) : Falls rows gone (key r) := by
  obtain ⟨ref, href, honDelete, htarget⟩ := cascades_iff.mp h
  exact .cascade hr href honDelete (.gone htarget)

theorem falls_iff_mem {rows : List ρ} {gone : List κ} (h : rows.filter (cascades gone) = [])
    {k : κ} : Falls rows gone k ↔ k ∈ gone := by
  refine ⟨fun hk => ?_, .gone⟩
  induction hk with
  | gone hk => exact hk
  | cascade hr href honDelete _ ih =>
    exact absurd (cascades_iff.mpr ⟨_, href, honDelete, ih⟩) (List.filter_eq_nil_iff.mp h _ hr)

/-- **A round**: the rows that refer to what is gone are gone as well, and the others remain. -/
theorem falls_round (rows : List ρ) (gone : List κ) {k : κ} :
    Falls rows gone k ↔ Falls (rows.filter fun r => !cascades gone r)
      (gone ++ (rows.filter (cascades gone)).map key) k := by
  constructor
  · intro h
    induction h with
    | gone hk => exact .gone (List.mem_append_left _ hk)
    | @cascade r ref hr href honDelete _ ih =>
      by_cases hc : cascades gone r = true
      · exact .gone (List.mem_append_right _ (List.mem_map_of_mem (List.mem_filter.mpr ⟨hr, hc⟩)))
      · exact .cascade (List.mem_filter.mpr ⟨hr, by simpa using hc⟩) href honDelete ih
  · intro h
    induction h with
    | gone hk =>
      obtain hk | hk := List.mem_append.mp hk
      · exact .gone hk
      · obtain ⟨r, hr, rfl⟩ := List.mem_map.mp hk
        obtain ⟨hr, hc⟩ := List.mem_filter.mp hr
        exact falls_of_cascades hr hc
    | cascade hr href honDelete _ ih =>
      exact .cascade (List.mem_filter.mp hr).1 href honDelete ih

theorem mem_fallen {n : ℕ} {rows : List ρ} {gone : List κ} (h : rows.length ≤ n) {k : κ} :
    k ∈ fallen n rows gone ↔ Falls rows gone k := by
  induction n generalizing rows gone with
  | zero =>
    obtain rfl := List.eq_nil_of_length_eq_zero (Nat.le_zero.mp h)
    exact (falls_iff_mem rfl).symm
  | succ n ih =>
    unfold fallen
    split
    · next hnone => exact (falls_iff_mem hnone).symm
    · next more hmore =>
      -- a round takes one row at least
      have hlt : (rows.filter fun r => !cascades gone r).length < rows.length := by
        obtain ⟨r, hr⟩ := List.exists_mem_of_ne_nil _ hmore
        obtain ⟨hr, hc⟩ := List.mem_filter.mp hr
        exact List.length_filter_lt_length_iff_exists.mpr ⟨r, hr, by simpa using hc⟩
      rw [ih (by omega), ← falls_round]

end Fallen

/-! ### A database -/

/-- Rows with distinct keys. -/
structure Database (ρ : Type*) {κ : Type*} [Referring ρ κ] where
  rows : List ρ
  keys_nodup : (rows.map key).Nodup

namespace Database

/-- No rows. -/
def empty : Database ρ := ⟨[], List.nodup_nil⟩

variable [DecidableEq κ]

/-- The row with a key. -/
def find? (db : Database ρ) (k : κ) : Option ρ := db.rows.find? fun r => key r = k

theorem find?_eq_some {db : Database ρ} {k : κ} {r : ρ} :
    db.find? k = some r ↔ r ∈ db.rows ∧ key r = k := by
  unfold find?
  constructor
  · intro h
    exact ⟨List.mem_of_find?_eq_some h, by simpa using List.find?_some h⟩
  · rintro ⟨hr, rfl⟩
    have hsome : (db.rows.find? fun r' => decide (key r' = key r)).isSome := by
      rw [List.find?_isSome]
      exact ⟨r, hr, by simp⟩
    obtain ⟨r', hr'⟩ := Option.isSome_iff_exists.mp hsome
    have hkey : key r' = key r := by simpa using List.find?_some hr'
    obtain rfl := List.inj_on_of_nodup_map db.keys_nodup (List.mem_of_find?_eq_some hr') hr hkey
    exact hr'

/-- The rows after one is replaced under its key, or added. -/
def setRows (rows : List ρ) (row : ρ) : List ρ :=
  if key row ∈ rows.map key then rows.map fun r => if key r = key row then row else r
  else rows ++ [row]

theorem keys_setRows (rows : List ρ) (row : ρ) :
    (setRows rows row).map key =
      if key row ∈ rows.map key then rows.map key else rows.map key ++ [key row] := by
  unfold setRows
  split_ifs with h
  · rw [List.map_map]
    refine List.map_congr_left fun r _ => ?_
    show key (if key r = key row then row else r) = key r
    split_ifs with heq
    · exact heq.symm
    · rfl
  · rw [List.map_append]
    rfl

/-- `INSERT … ON CONFLICT DO UPDATE`. -/
def set (db : Database ρ) (row : ρ) : Database ρ where
  rows := setRows db.rows row
  keys_nodup := by
    rw [keys_setRows]
    split_ifs with h
    · exact db.keys_nodup
    · rw [← List.concat_eq_append]
      exact db.keys_nodup.concat h

theorem mem_setRows {rows : List ρ} {row r : ρ} :
    r ∈ setRows rows row ↔ r = row ∨ r ∈ rows ∧ key r ≠ key row := by
  unfold setRows
  split_ifs with hmem
  · obtain ⟨old, hold, hkey⟩ := List.mem_map.mp hmem
    rw [List.mem_map]
    constructor
    · rintro ⟨r₀, hr₀, rfl⟩
      split_ifs with heq
      · exact Or.inl rfl
      · exact Or.inr ⟨hr₀, heq⟩
    · rintro (rfl | ⟨hr, hne⟩)
      · exact ⟨old, hold, if_pos hkey⟩
      · exact ⟨r, hr, if_neg hne⟩
  · rw [List.mem_append, List.mem_singleton]
    have hnew : ∀ r ∈ rows, key r ≠ key row := fun r hr heq =>
      hmem (List.mem_map.mpr ⟨r, hr, heq⟩)
    constructor
    · rintro (hr | rfl)
      · exact Or.inr ⟨hr, hnew r hr⟩
      · exact Or.inl rfl
    · rintro (rfl | ⟨hr, -⟩)
      · exact Or.inr rfl
      · exact Or.inl hr

theorem find?_set (db : Database ρ) (row : ρ) (k : κ) :
    (db.set row).find? k = if k = key row then some row else db.find? k := by
  refine Option.ext fun r => ?_
  rw [find?_eq_some, show (db.set row).rows = setRows db.rows row from rfl, mem_setRows]
  split_ifs with hk
  · subst hk
    constructor
    · rintro ⟨rfl | ⟨-, hne⟩, heq⟩
      · rfl
      · exact absurd heq hne
    · intro h
      obtain rfl := Option.some.inj h
      exact ⟨Or.inl rfl, rfl⟩
  · rw [find?_eq_some]
    constructor
    · rintro ⟨rfl | ⟨hr, -⟩, rfl⟩
      · exact absurd rfl hk
      · exact ⟨hr, rfl⟩
    · rintro ⟨hr, rfl⟩
      exact ⟨Or.inr ⟨hr, hk⟩, rfl⟩

theorem filter_set {db : Database ρ} {row : ρ} {p : ρ → Bool} (hnew : p row = false)
    (hold : ∀ r, db.find? (key row) = some r → p r = false) :
    (db.set row).rows.filter p = db.rows.filter p := by
  show (setRows db.rows row).filter p = _
  unfold setRows
  split_ifs with hmem
  · have hsame : ∀ r ∈ db.rows, key r = key row → p r = false := fun r hr hkey =>
      hold r (find?_eq_some.mpr ⟨hr, hkey⟩)
    rw [List.filter_map, ← List.map_id (db.rows.filter p)]
    have hcongr : db.rows.filter (p ∘ fun r => if key r = key row then row else r) =
        db.rows.filter p := by
      refine List.filter_congr fun r hr => ?_
      show p (if key r = key row then row else r) = p r
      split_ifs with hkey
      · rw [hnew, hsame r hr hkey]
      · rfl
    rw [hcongr]
    refine List.map_congr_left fun r hr => if_neg fun hkey => ?_
    obtain ⟨hr, hpr⟩ := List.mem_filter.mp hr
    rw [hsame r hr hkey] at hpr
    cases hpr
  · rw [List.filter_append]
    simp [hnew]

/-! ### `DELETE` -/

/-- The keys that go when the row of a key is deleted. -/
def goneWith (rows : List ρ) (k : κ) : List κ :=
  fallen rows.length rows ((rows.filter fun r => key r = k).map key)

/-- `DELETE … WHERE id = k`. -/
def delete (db : Database ρ) (k : κ) : Database ρ where
  rows := (db.rows.filter fun r => key r ∉ goneWith db.rows k).map
    (clear fun k' => decide (k' ∈ goneWith db.rows k))
  keys_nodup := by
    have hkeys : key ∘ clear (ρ := ρ) (fun k' => decide (k' ∈ goneWith db.rows k)) = key :=
      funext fun r => Referring.key_clear _ r
    rw [List.map_map, hkeys]
    exact db.keys_nodup.sublist (List.filter_sublist.map _)

/-- A key goes when the row of another is deleted. -/
def GoesWith (rows : List ρ) (k k' : κ) : Prop :=
  Falls rows ((rows.filter fun r => key r = k).map key) k'

/-- A row depends on the row of a key: it is deleted with it, or loses a reference. -/
def Depends (rows : List ρ) (k : κ) (r : ρ) : Prop :=
  GoesWith rows k (key r) ∨
    ∃ ref ∈ references r, ref.onDelete = .setNull ∧ GoesWith rows k ref.target

theorem mem_goneWith {rows : List ρ} {k k' : κ} : k' ∈ goneWith rows k ↔ GoesWith rows k k' :=
  mem_fallen le_rfl

instance (rows : List ρ) (k k' : κ) : Decidable (GoesWith rows k k') :=
  decidable_of_iff _ mem_goneWith

instance (rows : List ρ) (k : κ) (r : ρ) : Decidable (Depends rows k r) := by
  unfold Depends
  infer_instance

theorem goesWith_self {rows : List ρ} {r : ρ} (hr : r ∈ rows) : GoesWith rows (key r) (key r) :=
  .gone (List.mem_map_of_mem (List.mem_filter.mpr ⟨hr, by simp⟩))

theorem clear_eq_self_of_not_depends {rows : List ρ} {k : κ} {r : ρ} (h : ¬ Depends rows k r) :
    clear (fun k' => decide (k' ∈ goneWith rows k)) r = r := by
  refine (Referring.clear_eq_self_iff _ r).mpr fun ref href honDelete => ?_
  rw [decide_eq_false_iff_not, mem_goneWith]
  exact fun hgone => h (Or.inr ⟨ref, href, honDelete, hgone⟩)

theorem of_find?_delete {db : Database ρ} {k k' : κ} {r : ρ}
    (h : (db.delete k).find? k' = some r) :
    ∃ r₀, db.find? k' = some r₀ ∧ r = clear (fun k' => decide (k' ∈ goneWith db.rows k)) r₀ := by
  obtain ⟨hr, rfl⟩ := find?_eq_some.mp h
  obtain ⟨r₀, hr₀, rfl⟩ := List.mem_map.mp hr
  exact ⟨r₀, find?_eq_some.mpr ⟨(List.mem_filter.mp hr₀).1, (Referring.key_clear _ r₀).symm⟩, rfl⟩

/-- **What a deletion leaves as it is**: a part of the database of which no row depends on the
deleted one. -/
theorem filter_delete_eq_iff {db : Database ρ} {k : κ} {p : ρ → Bool}
    (hp : ∀ gone r, p (clear gone r) = p r) :
    (db.delete k).rows.filter p = db.rows.filter p ↔
      ∀ r ∈ db.rows, p r = true → ¬ Depends db.rows k r := by
  let cleared : ρ → ρ := clear fun k' => decide (k' ∈ goneWith db.rows k)
  have hdelete : (db.delete k).rows.filter p =
      ((db.rows.filter p).filter fun r => key r ∉ goneWith db.rows k).map cleared := by
    show ((db.rows.filter fun r => key r ∉ goneWith db.rows k).map cleared).filter p = _
    rw [List.filter_map, List.filter_filter, List.filter_filter]
    have hpc : p ∘ cleared = p := funext fun r => hp _ r
    rw [hpc]
    simp only [Bool.and_comm]
  rw [hdelete]
  constructor
  · intro heq r hr hpr hdepends
    have hlen := congrArg List.length heq
    rw [List.length_map, List.length_filter_eq_length_iff] at hlen
    have hmem : r ∈ db.rows.filter p := List.mem_filter.mpr ⟨hr, hpr⟩
    rw [List.filter_eq_self.mpr hlen] at heq
    have hsame : cleared r = r :=
      List.map_inj_left.mp (heq.trans (List.map_id _).symm) r hmem
    obtain hgone | ⟨ref, href, honDelete, hgone⟩ := hdepends
    · exact of_decide_eq_true (hlen r hmem) (mem_goneWith.mpr hgone)
    · have hkept := (Referring.clear_eq_self_iff _ r).mp hsame ref href honDelete
      exact of_decide_eq_false hkept (mem_goneWith.mpr hgone)
  · intro hnone
    have hnone' : ∀ r ∈ db.rows.filter p, ¬ Depends db.rows k r := fun r hr =>
      hnone r (List.mem_filter.mp hr).1 (List.mem_filter.mp hr).2
    have hall : (db.rows.filter p).filter (fun r => key r ∉ goneWith db.rows k) =
        db.rows.filter p :=
      List.filter_eq_self.mpr fun r hr => decide_eq_true fun hgone =>
        hnone' r hr (Or.inl (mem_goneWith.mp hgone))
    rw [hall]
    exact (List.map_congr_left fun r hr => clear_eq_self_of_not_depends (hnone' r hr)).trans
      (List.map_id _)

end Database

end Selfevals.Lib.ForeignKeys
