import Selfevals.Lib.JsonValue
import Selfevals.Lib.Mapping

/-!
# Equality of JSON values

Python's `==` on what a JSON document is loaded as: numbers are compared by value, `True` and `1`
and `1.0` being one, and the order of the keys of a dict does not count. A dict has no key twice
(`Keyed`).
-/

namespace Selfevals.Lib.JsonEquality

open Lib.JsonValue Lib.Mapping

/-! ### Dicts -/

/-- Every dict in the value has each of its keys once. -/
inductive Keyed : Json → Prop
  | null : Keyed .null
  | bool (b : Bool) : Keyed (.bool b)
  | int (n : ℤ) : Keyed (.int n)
  | float (q : ℚ) : Keyed (.float q)
  | str (s : String) : Keyed (.str s)
  | arr {items : List Json} (items_keyed : ∀ v ∈ items, Keyed v) : Keyed (.arr items)
  | obj {fields : Object} (nodup : (fields.map Prod.fst).Nodup)
      (fields_keyed : ∀ field ∈ fields, Keyed field.2) : Keyed (.obj fields)

theorem Keyed.nodup {fields : Object} (h : Keyed (.obj fields)) : (fields.map Prod.fst).Nodup := by
  cases h with
  | obj nodup _ => exact nodup

theorem Keyed.field {fields : Object} (h : Keyed (.obj fields)) {field : String × Json}
    (hfield : field ∈ fields) : Keyed field.2 := by
  cases h with
  | obj _ fields_keyed => exact fields_keyed field hfield

theorem lookup_eq_some_iff {fields : Object} (h : (fields.map Prod.fst).Nodup) {k : String}
    {v : Json} : fields.lookup k = some v ↔ (k, v) ∈ fields :=
  (Dict.mem_items_iff ⟨fields, h⟩ k v).symm

theorem isSome_lookup_iff {fields : Object} (h : (fields.map Prod.fst).Nodup) {k : String} :
    (fields.lookup k).isSome ↔ k ∈ fields.map Prod.fst :=
  (Dict.mem_keys_iff ⟨fields, h⟩ k).symm

/-! ### Equality -/

/-- The number that a value is. -/
def number : Json → Option ℚ
  | .bool b => some (if b then 1 else 0)
  | .int n => some n
  | .float q => some q
  | .null | .str _ | .arr _ | .obj _ => none

/-- `v == w`, where `v` is neither a list nor a dict. -/
def scalarEq : Json → Json → Bool
  | .null, .null => true
  | .str s, .str t => s = t
  | v, w => (number v).any fun p => number w = some p

mutual

/-- `v == w`. -/
def pyEq : Json → Json → Bool
  | .arr xs, .arr ys => pyEqItems xs ys
  | .obj xs, .obj ys => xs.length == ys.length && pyEqFields xs ys
  | .arr _, _ | .obj _, _ => false
  | .null, w => scalarEq .null w
  | .bool b, w => scalarEq (.bool b) w
  | .int n, w => scalarEq (.int n) w
  | .float q, w => scalarEq (.float q) w
  | .str s, w => scalarEq (.str s) w

/-- The items are equal in turn. -/
def pyEqItems : List Json → List Json → Bool
  | [], [] => true
  | x :: xs, y :: ys => pyEq x y && pyEqItems xs ys
  | [], _ :: _ | _ :: _, [] => false

/-- What each item holds is held under its key. -/
def pyEqFields : List (String × Json) → Object → Bool
  | [], _ => true
  | (k, v) :: xs, ys => (ys.lookup k).any (pyEq v) && pyEqFields xs ys

end

theorem pyEqFields_iff {xs ys : Object} : pyEqFields xs ys = true ↔
    ∀ field ∈ xs, ∃ w, ys.lookup field.1 = some w ∧ pyEq field.2 w = true := by
  induction xs with
  | nil => simp [pyEqFields]
  | cons field xs ih =>
    obtain ⟨k, v⟩ := field
    rw [pyEqFields, Bool.and_eq_true, ih, List.forall_mem_cons, Option.any_eq_true]

/-- **Equality of dicts**: every key reads alike in both. -/
theorem pyEq_obj_iff {xs ys : Object} (hx : (xs.map Prod.fst).Nodup)
    (hy : (ys.map Prod.fst).Nodup) :
    pyEq (.obj xs) (.obj ys) = true ↔
      ∀ k, Option.Rel (fun v w => pyEq v w = true) (xs.lookup k) (ys.lookup k) := by
  have hlength : (xs.length == ys.length) = true ↔
      (xs.map Prod.fst).length = (ys.map Prod.fst).length := by simp
  rw [pyEq, Bool.and_eq_true, hlength, pyEqFields_iff]
  constructor
  · rintro ⟨hlength, hfields⟩ k
    have hsub : xs.map Prod.fst ⊆ ys.map Prod.fst := by
      intro k hk
      obtain ⟨field, hfield, rfl⟩ := List.mem_map.mp hk
      obtain ⟨w, hw, -⟩ := hfields field hfield
      exact (isSome_lookup_iff hy).mp (by rw [hw]; rfl)
    have hperm := (hx.subperm hsub).perm_of_length_le hlength.ge
    cases hv : xs.lookup k with
    | none =>
      have hnone : ys.lookup k = none := by
        rw [← Option.not_isSome_iff_eq_none, isSome_lookup_iff hy, ← hperm.mem_iff,
          ← isSome_lookup_iff hx, hv]
        exact Bool.false_ne_true
      rw [hnone]
      exact .none
    | some v =>
      obtain ⟨w, hw, heq⟩ := hfields (k, v) ((lookup_eq_some_iff hx).mp hv)
      rw [hw]
      exact .some heq
  · intro hrel
    have hmem (k : String) : k ∈ xs.map Prod.fst ↔ k ∈ ys.map Prod.fst := by
      rw [← isSome_lookup_iff hx, ← isSome_lookup_iff hy]
      have hk := hrel k
      generalize xs.lookup k = v at hk
      generalize ys.lookup k = w at hk
      cases hk <;> simp
    refine ⟨((List.perm_ext_iff_of_nodup hx hy).mpr hmem).length_eq, fun ⟨k, v⟩ hfield => ?_⟩
    have hk := hrel k
    rw [(lookup_eq_some_iff hx).mpr hfield] at hk
    generalize hw : ys.lookup k = w at hk
    cases hk with
    | some heq => exact ⟨_, rfl, heq⟩

theorem scalarEq_comm (v w : Json) : scalarEq v w = scalarEq w v := by
  cases v <;> cases w <;> simp [scalarEq, number, eq_comm]

theorem scalarEq_arr (v : Json) (items : List Json) : scalarEq v (.arr items) = false := by
  cases v <;> simp [scalarEq, number]

theorem scalarEq_obj (v : Json) (fields : Object) : scalarEq v (.obj fields) = false := by
  cases v <;> simp [scalarEq, number]

/-- Neither a list nor a dict. -/
def scalar : Json → Bool
  | .arr _ | .obj _ => false
  | .null | .bool _ | .int _ | .float _ | .str _ => true

theorem pyEq_scalar {v : Json} (h : scalar v = true) (w : Json) :
    pyEq v w = scalarEq v w ∧ pyEq w v = scalarEq v w := by
  have hleft : pyEq v w = scalarEq v w := by
    cases v with
    | arr | obj => cases h
    | null | bool | int | float | str => rfl
  refine ⟨hleft, ?_⟩
  cases w with
  | arr items =>
    rw [scalarEq_arr]
    cases v with
    | arr | obj => cases h
    | null | bool | int | float | str => rfl
  | obj fields =>
    rw [scalarEq_obj]
    cases v with
    | arr | obj => cases h
    | null | bool | int | float | str => rfl
  | null | bool | int | float | str =>
    rw [scalarEq_comm]
    rfl

theorem pyEqItems_comm {xs ys : List Json} (h : ∀ v ∈ xs, ∀ w ∈ ys, pyEq v w = pyEq w v) :
    pyEqItems xs ys = pyEqItems ys xs := by
  induction xs generalizing ys with
  | nil => cases ys <;> rfl
  | cons x xs ih =>
    cases ys with
    | nil => rfl
    | cons y ys =>
      rw [pyEqItems, pyEqItems, h x List.mem_cons_self y List.mem_cons_self,
        ih fun v hv w hw => h v (List.mem_cons_of_mem x hv) w (List.mem_cons_of_mem y hw)]

/-- **Equality is symmetric.** -/
theorem pyEq_comm {v w : Json} (hv : Keyed v) (hw : Keyed w) : pyEq v w = pyEq w v := by
  induction hv generalizing w with
  | null | bool | int | float | str =>
    refine (pyEq_scalar ?_ w).1.trans (pyEq_scalar ?_ w).2.symm <;> rfl
  | arr items_keyed ih =>
    cases hw with
    | arr items_keyed' =>
      exact pyEqItems_comm fun v hv w hw => ih v hv (items_keyed' w hw)
    | null | bool | int | float | str | obj => rfl
  | @obj xs nodup fields_keyed ih =>
    cases hw with
    | @obj ys nodup' fields_keyed' =>
      rw [Bool.eq_iff_iff, pyEq_obj_iff nodup nodup', pyEq_obj_iff nodup' nodup]
      refine forall_congr' fun k => ?_
      cases hv : xs.lookup k with
      | none => cases ys.lookup k <;> simp
      | some v =>
        cases hw : ys.lookup k with
        | none => simp
        | some w =>
          have hxs := (lookup_eq_some_iff nodup).mp hv
          have hys := (lookup_eq_some_iff nodup').mp hw
          rw [Option.rel_some_some, Option.rel_some_some, ih (k, v) hxs (fields_keyed' (k, w) hys)]
    | null | bool | int | float | str | arr => rfl

end Selfevals.Lib.JsonEquality
