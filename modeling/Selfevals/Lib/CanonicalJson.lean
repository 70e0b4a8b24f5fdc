import Mathlib.Data.String.Basic
import Selfevals.Lib.JsonText
import Selfevals.Lib.Sql

/-!
# Canonical JSON

`sortKeys` puts the keys of every dict in order, as `json.dumps(v, sort_keys=True)` writes them.
`same` is equality of JSON values: the keys of a dict in any order, but numbers of one kind, where
Python's `==` has `1`, `1.0` and `True` equal.

* `same_sortKeys`: a value is the same as its sorted form.
-/

namespace Selfevals.Lib.CanonicalJson

open Lib.JsonEquality Lib.JsonNumbers Lib.JsonStrings Lib.JsonText Lib.JsonValue Lib.Sql

/-! ### Sorted keys -/

/-- `sorted(d.items())`; no two items have one key. -/
def sortFields (fields : Object) : Object := orderBy Prod.fst fields

theorem sortFields_perm (fields : Object) : (sortFields fields).Perm fields := orderBy_perm _ fields

theorem sortFields_eq_iff {xs ys : Object} (h : (ys.map Prod.fst).Nodup) :
    sortFields xs = sortFields ys ↔ xs.Perm ys := by
  refine ⟨fun heq => ?_, fun hperm => ?_⟩
  · exact (sortFields_perm xs).symm.trans (heq ▸ sortFields_perm ys)
  · have hkeys : ((sortFields ys).map Prod.fst).Nodup :=
      ((sortFields_perm ys).map Prod.fst).nodup_iff.mpr h
    have hsorted (fields : Object) : (sortFields fields).Pairwise fun a b => a.1 ≤ b.1 :=
      List.pairwise_insertionSort _ fields
    have hall : (sortFields xs).Perm (sortFields ys) :=
      (sortFields_perm xs).trans (hperm.trans (sortFields_perm ys).symm)
    refine List.Perm.eq_of_pairwise (fun a b ha hb hab hba => ?_) (hsorted xs) (hsorted ys) hall
    exact List.inj_on_of_nodup_map hkeys (hall.mem_iff.mp ha) hb (le_antisymm hab hba)

mutual

/-- A value with the keys of its objects in order, at every depth. -/
def sortKeys : Json → Json
  | .null => .null
  | .bool b => .bool b
  | .int n => .int n
  | .float q => .float q
  | .str s => .str s
  | .arr items => .arr (sortKeysItems items)
  | .obj fields => .obj (sortFields (sortKeysFields fields))

def sortKeysItems : List Json → List Json
  | [] => []
  | v :: vs => sortKeys v :: sortKeysItems vs

def sortKeysFields : List (String × Json) → Object
  | [] => []
  | (k, v) :: fields => (k, sortKeys v) :: sortKeysFields fields

end

theorem sortKeysItems_eq (items : List Json) : sortKeysItems items = items.map sortKeys := by
  induction items with
  | nil => rfl
  | cons v vs ih => rw [sortKeysItems, ih, List.map_cons]

theorem sortKeysFields_eq (fields : Object) :
    sortKeysFields fields = fields.map fun field => (field.1, sortKeys field.2) := by
  induction fields with
  | nil => rfl
  | cons field fields ih => rw [sortKeysFields, ih, List.map_cons]

theorem keys_sortKeysFields (fields : Object) :
    (sortKeysFields fields).map Prod.fst = fields.map Prod.fst := by
  rw [sortKeysFields_eq, List.map_map]
  rfl

theorem mem_sortFields {fields : Object} {field : String × Json} :
    field ∈ sortFields (sortKeysFields fields) ↔
      ∃ given ∈ fields, (given.1, sortKeys given.2) = field := by
  rw [(sortFields_perm _).mem_iff, sortKeysFields_eq, List.mem_map]

theorem nodup_sortFields {fields : Object} (h : (fields.map Prod.fst).Nodup) :
    ((sortFields (sortKeysFields fields)).map Prod.fst).Nodup := by
  rw [((sortFields_perm _).map Prod.fst).nodup_iff, keys_sortKeysFields]
  exact h

theorem keyed_sortKeys {v : Json} (hv : Keyed v) : Keyed (sortKeys v) := by
  induction hv with
  | null => exact .null
  | bool b => exact .bool b
  | int n => exact .int n
  | float q => exact .float q
  | str s => exact .str s
  | arr _ ih =>
    refine .arr fun v hv => ?_
    rw [sortKeysItems_eq] at hv
    obtain ⟨given, hgiven, rfl⟩ := List.mem_map.mp hv
    exact ih given hgiven
  | obj nodup _ ih =>
    refine .obj (nodup_sortFields nodup) fun field hfield => ?_
    obtain ⟨given, hgiven, rfl⟩ := mem_sortFields.mp hfield
    exact ih given hgiven

theorem sortKeys_sortKeys {v : Json} (hv : Keyed v) : sortKeys (sortKeys v) = sortKeys v := by
  induction hv with
  | null | bool | int | float | str => rfl
  | @arr items _ ih =>
    rw [sortKeys, sortKeys, sortKeysItems_eq, sortKeysItems_eq, List.map_map]
    exact congrArg Json.arr (List.map_congr_left ih)
  | @obj fields nodup _ ih =>
    have hkeys : ((sortKeysFields fields).map Prod.fst).Nodup := by
      rw [keys_sortKeysFields]
      exact nodup
    have hagain : (sortKeysFields fields).map (fun field => (field.1, sortKeys field.2)) =
        sortKeysFields fields := by
      rw [sortKeysFields_eq, List.map_map]
      exact List.map_congr_left fun field hfield => Prod.ext rfl (ih field hfield)
    have hperm : (sortKeysFields (sortFields (sortKeysFields fields))).Perm
        (sortKeysFields fields) := by
      rw [sortKeysFields_eq (sortFields _)]
      have hmap := (sortFields_perm (sortKeysFields fields)).map
        fun field => (field.1, sortKeys field.2)
      rwa [hagain] at hmap
    rw [sortKeys, sortKeys, (sortFields_eq_iff hkeys).mpr hperm]

/-! ### The same value -/

mutual

/-- Whether two values are one JSON value. -/
def same : Json → Json → Bool
  | .arr xs, .arr ys => sameItems xs ys
  | .obj xs, .obj ys => xs.length == ys.length && sameFields xs ys
  | .arr _, _ | .obj _, _ => false
  | .null, w => w = .null
  | .bool b, w => w = .bool b
  | .int n, w => w = .int n
  | .float q, w => w = .float q
  | .str s, w => w = .str s

def sameItems : List Json → List Json → Bool
  | [], [] => true
  | x :: xs, y :: ys => same x y && sameItems xs ys
  | [], _ :: _ | _ :: _, [] => false

def sameFields : List (String × Json) → Object → Bool
  | [], _ => true
  | (k, v) :: xs, ys => (ys.lookup k).any (same v) && sameFields xs ys

end

theorem sameItems_iff {xs ys : List Json}
    (h : ∀ v ∈ xs, ∀ w ∈ ys, same v w = true ↔ sortKeys v = sortKeys w) :
    sameItems xs ys = true ↔ xs.map sortKeys = ys.map sortKeys := by
  induction xs generalizing ys with
  | nil => cases ys <;> simp [sameItems]
  | cons x xs ih =>
    cases ys with
    | nil => simp [sameItems]
    | cons y ys =>
      rw [sameItems, Bool.and_eq_true, h x List.mem_cons_self y List.mem_cons_self,
        ih fun v hv w hw => h v (List.mem_cons_of_mem x hv) w (List.mem_cons_of_mem y hw),
        List.map_cons, List.map_cons, List.cons.injEq]

theorem sameFields_iff {xs ys : Object} : sameFields xs ys = true ↔
    ∀ field ∈ xs, ∃ w, ys.lookup field.1 = some w ∧ same field.2 w = true := by
  induction xs with
  | nil => simp [sameFields]
  | cons field xs ih =>
    obtain ⟨k, v⟩ := field
    rw [sameFields, Bool.and_eq_true, ih, List.forall_mem_cons, Option.any_eq_true]

theorem perm_sortKeysFields_iff {xs ys : Object} (hx : (xs.map Prod.fst).Nodup)
    (hy : (ys.map Prod.fst).Nodup) : (sortKeysFields xs).Perm (sortKeysFields ys) ↔
      xs.length = ys.length ∧ ∀ field ∈ xs, ∃ w, ys.lookup field.1 = some w ∧
        sortKeys field.2 = sortKeys w := by
  rw [sortKeysFields_eq, sortKeysFields_eq]
  constructor
  · intro hperm
    refine ⟨by simpa using hperm.length_eq, fun field hfield => ?_⟩
    have hmem := hperm.mem_iff.mp (List.mem_map_of_mem hfield)
    obtain ⟨⟨k, w⟩, hother, heq⟩ := List.mem_map.mp hmem
    obtain ⟨rfl, hsorted⟩ := Prod.mk.inj heq
    exact ⟨w, (lookup_eq_some_iff hy).mpr hother, hsorted.symm⟩
  · rintro ⟨hlength, hfields⟩
    have hnodup : (xs.map fun field => (field.1, sortKeys field.2)).Nodup := by
      refine List.Nodup.of_map Prod.fst ?_
      rw [List.map_map]
      exact hx
    have hsub : (xs.map fun field => (field.1, sortKeys field.2)) ⊆
        ys.map fun field => (field.1, sortKeys field.2) := by
      intro field hfield
      obtain ⟨⟨k, v⟩, hgiven, rfl⟩ := List.mem_map.mp hfield
      obtain ⟨w, hw, hsorted⟩ := hfields (k, v) hgiven
      refine List.mem_map.mpr ⟨(k, w), (lookup_eq_some_iff hy).mp hw, ?_⟩
      rw [show sortKeys v = sortKeys w from hsorted]
    refine (hnodup.subperm hsub).perm_of_length_le ?_
    rw [List.length_map, List.length_map, hlength]

/-- **The same value**: equal, once the keys are sorted. -/
theorem same_iff {v w : Json} (hv : Keyed v) (hw : Keyed w) :
    same v w = true ↔ sortKeys v = sortKeys w := by
  induction hv generalizing w with
  | null | bool | int | float | str => cases hw <;> simp [same, sortKeys, eq_comm]
  | @arr xs _ ih =>
    cases hw with
    | @arr ys items_keyed' =>
      rw [same, sameItems_iff fun v hv w hw => ih v hv (items_keyed' w hw), sortKeys, sortKeys,
        sortKeysItems_eq, sortKeysItems_eq, Json.arr.injEq]
    | null | bool | int | float | str | obj => simp [same, sortKeys]
  | @obj xs nodup _ ih =>
    cases hw with
    | @obj ys nodup' fields_keyed' =>
      have hkeys : ((sortKeysFields ys).map Prod.fst).Nodup := by
        rw [keys_sortKeysFields]
        exact nodup'
      rw [same, Bool.and_eq_true, beq_iff_eq, sameFields_iff, sortKeys, sortKeys, Json.obj.injEq,
        sortFields_eq_iff hkeys, perm_sortKeysFields_iff nodup nodup']
      refine and_congr_right fun _ => forall₂_congr fun field hfield => exists_congr fun w => ?_
      refine and_congr_right fun hlookup => ih field hfield ?_
      exact fields_keyed' (field.1, w) ((lookup_eq_some_iff nodup').mp hlookup)
    | null | bool | int | float | str | arr => simp [same, sortKeys]

theorem same_sortKeys {v : Json} (hv : Keyed v) : same (sortKeys v) v = true :=
  (same_iff (keyed_sortKeys hv) hv).mpr (sortKeys_sortKeys hv)

/-! ### The sizes of a sorted value -/

theorem sizeItems_eq (floats : FloatText) (items : List Json) :
    sizeItems floats items = (items.map (size floats)).sum := by
  induction items with
  | nil => rfl
  | cons v vs ih => rw [sizeItems, ih, List.map_cons, List.sum_cons]

theorem sizeFields_eq (floats : FloatText) (fields : Object) : sizeFields floats fields =
    (fields.map fun field => (quote field.1).length + 1 + size floats field.2).sum := by
  induction fields with
  | nil => rfl
  | cons field fields ih => rw [sizeFields, ih, List.map_cons, List.sum_cons]

theorem size_sortKeys (floats : FloatText) {v : Json} (hv : Keyed v) :
    size floats (sortKeys v) = size floats v := by
  induction hv with
  | null | bool | int | float | str => rfl
  | @arr items _ ih =>
    have hsize : ∀ v ∈ items, (size floats ∘ sortKeys) v = size floats v := ih
    rw [sortKeys, size, size, sizeItems_eq, sizeItems_eq, sortKeysItems_eq, List.map_map,
      List.length_map, List.map_congr_left hsize]
  | @obj fields _ _ ih =>
    have hperm := sortFields_perm (sortKeysFields fields)
    have hfields : ∀ field ∈ fields,
        ((fun field => (quote field.1).length + 1 + size floats field.2) ∘
          fun field => (field.1, sortKeys field.2)) field =
            (quote field.1).length + 1 + size floats field.2 := by
      intro field hfield
      rw [Function.comp_apply, ih field hfield]
    rw [sortKeys, size, size, sizeFields_eq, sizeFields_eq, (hperm.map _).sum_eq, hperm.length_eq,
      sortKeysFields_eq, List.map_map, List.length_map, List.map_congr_left hfields]

theorem printable_sortKeys {v : Json} (hv : Keyed v) : printable (sortKeys v) = printable v := by
  induction hv with
  | null | bool | int | float | str => rfl
  | @arr items _ ih =>
    rw [sortKeys, printable, printable, Bool.eq_iff_iff, printableItems_iff, printableItems_iff,
      sortKeysItems_eq, List.forall_mem_map]
    exact forall₂_congr fun v hv => by rw [ih v hv]
  | @obj fields _ _ ih =>
    rw [sortKeys, printable, printable, Bool.eq_iff_iff, printableFields_iff, printableFields_iff]
    constructor
    · intro h field hfield
      rw [← ih field hfield]
      exact h (field.1, sortKeys field.2) (mem_sortFields.mpr ⟨field, hfield, rfl⟩)
    · intro h field hfield
      obtain ⟨given, hgiven, rfl⟩ := mem_sortFields.mp hfield
      rw [ih given hgiven]
      exact h given hgiven

end Selfevals.Lib.CanonicalJson
