import Mathlib.Data.String.Basic
import Selfevals.Lib.JsonEquality
import Selfevals.Lib.PyStr

/-!
# The proposal diff

The parameters that two iterations proposed are compared leaf by leaf: `flatten` gives every leaf
the dotted path of the keys that lead to it, and the diff has a row for every path. Of two leaves
with one path the later one is shown, an object without leaves has no path, and a path without a
leaf reads as `None`.
-/

namespace Selfevals.Reporter.ProposalDiff

open Lib.JsonEquality Lib.JsonValue Lib.Mapping Lib.PyStr

/-! ### Flattening -/

/-- The path of a key under a prefix, which is empty at the top. -/
def dotted (start key : String) : String := if start = "" then key else joined '.' start key

mutual

/-- What a value adds under its path. -/
def flattenValue (path : String) : Json → Dict String Json → Dict String Json
  | .obj fields, out =>
    (flattenItems path fields .empty).items.foldl (fun out item => out.set item.1 item.2) out
  | .null, out => out.set path .null
  | .bool b, out => out.set path (.bool b)
  | .int n, out => out.set path (.int n)
  | .float q, out => out.set path (.float q)
  | .str s, out => out.set path (.str s)
  | .arr items, out => out.set path (.arr items)

/-- `for k, v in params.items()`. -/
def flattenItems (start : String) : List (String × Json) → Dict String Json → Dict String Json
  | [], out => out
  | (k, v) :: rest, out => flattenItems start rest (flattenValue (dotted start k) v out)

end

/-- The leaves of a dict by their dotted keys. -/
def flatten (params : Object) : Dict String Json := flattenItems "" params .empty

/-! ### The rows -/

/-- How values are printed: `f"{q:.4g}"` and `repr`. -/
structure Format where
  fixed4g : ℚ → String
  repr : Json → String

/-- `_fmt`, where `none` is `_MISSING`. -/
def fmt (f : Format) : Option Json → String
  | none => "—"
  | some (.float q) => "`" ++ f.fixed4g q ++ "`"
  | some (.str s) => "`" ++ s ++ "`"
  | some v => "`" ++ f.repr v ++ "`"

/-- A parameter in two proposals. -/
structure ParamDiffRow where
  key : String
  a : String
  b : String
  changed : Bool
deriving DecidableEq, Repr

/-- `d.get(key)` of a flattened tree. -/
def reading (d : Dict String Json) (key : String) : Json := (d.get? key).getD .null

/-- `_compute_proposal_diff`, of the parameters of two records. -/
def computeProposalDiff (f : Format) (a b : Object) : List ParamDiffRow :=
  let aParams := flatten a
  let bParams := flatten b
  (sortedSet (aParams.keys ++ bParams.keys)).map fun key =>
    { key
      a := fmt f (aParams.get? key)
      b := fmt f (bParams.get? key)
      changed := !pyEq (reading aParams key) (reading bParams key) }

/-! ### Leaves -/

mutual

/-- The leaves of a value, in order, each with the keys that lead to it. -/
def leaves (path : List String) : Json → List (List String × Json)
  | .obj fields => fieldLeaves path fields
  | .null => [(path, .null)]
  | .bool b => [(path, .bool b)]
  | .int n => [(path, .int n)]
  | .float q => [(path, .float q)]
  | .str s => [(path, .str s)]
  | .arr items => [(path, .arr items)]

/-- The leaves of fields by their paths. -/
def fieldLeaves (path : List String) : List (String × Json) → List (List String × Json)
  | [] => []
  | (k, v) :: rest => leaves (path ++ [k]) v ++ fieldLeaves path rest

end

/-- The dotted path of keys. -/
def pathName (path : List String) : String := path.foldl dotted ""

theorem pathName_concat (path : List String) (k : String) :
    pathName (path ++ [k]) = dotted (pathName path) k := by
  simp [pathName]

/-- The last of the leaves that have a dotted path. -/
def lastNamed (name : String) (found : List (List String × Json)) : Option Json :=
  (found.reverse.find? fun leaf => pathName leaf.1 = name).map Prod.snd

theorem lastNamed_append (name : String) (xs ys : List (List String × Json)) :
    lastNamed name (xs ++ ys) = (lastNamed name ys).or (lastNamed name xs) := by
  unfold lastNamed
  rw [List.reverse_append, List.find?_append, Option.map_or]

theorem lastNamed_singleton (name : String) (path : List String) (v : Json) :
    lastNamed name [(path, v)] = if name = pathName path then some v else none := by
  unfold lastNamed
  by_cases h : name = pathName path
  · simp [h]
  · have hne : pathName path ≠ name := Ne.symm h
    simp [h, hne]

theorem get?_update (items : List (String × Json)) (hnodup : (items.map Prod.fst).Nodup)
    (out : Dict String Json) (name : String) :
    (items.foldl (fun out item => out.set item.1 item.2) out).get? name =
      ((⟨items, hnodup⟩ : Dict String Json).get? name).or (out.get? name) := by
  induction items generalizing out with
  | nil => rfl
  | cons item items ih =>
    obtain ⟨k, v⟩ := item
    rw [List.map_cons, List.nodup_cons] at hnodup
    rw [List.foldl_cons, ih hnodup.2, Dict.get?_set]
    show ((items.lookup name).or _) = (((k, v) :: items).lookup name).or _
    by_cases hk : name = k
    · subst hk
      have hnone : items.lookup name = none := by
        rw [← Option.not_isSome_iff_eq_none, isSome_lookup_iff hnodup.2]
        exact hnodup.1
      simp [hnone]
    · have hne : (name == k) = false := by simpa using hk
      simp [List.lookup_cons, hne, hk]

mutual

theorem get?_flattenValue (path : List String) (v : Json) (out : Dict String Json) (name : String) :
    (flattenValue (pathName path) v out).get? name =
      (lastNamed name (leaves path v)).or (out.get? name) := by
  have hleaf (w : Json) : (out.set (pathName path) w).get? name =
      (lastNamed name [(path, w)]).or (out.get? name) := by
    rw [Dict.get?_set, lastNamed_singleton]
    split_ifs <;> rfl
  cases v with
  | obj fields =>
    rw [flattenValue, leaves, get?_update _ (Dict.nodup _)]
    show ((flattenItems (pathName path) fields .empty).get? name).or _ = _
    rw [get?_flattenItems path fields .empty name, Dict.get?_empty, Option.or_none]
  | null | bool | int | float | str | arr => exact hleaf _

theorem get?_flattenItems (path : List String) (fields : List (String × Json))
    (out : Dict String Json) (name : String) :
    (flattenItems (pathName path) fields out).get? name =
      (lastNamed name (fieldLeaves path fields)).or (out.get? name) := by
  match fields with
  | [] => rfl
  | (k, v) :: rest =>
    rw [flattenItems, fieldLeaves, get?_flattenItems path rest, ← pathName_concat,
      get?_flattenValue (path ++ [k]) v, lastNamed_append, Option.or_assoc]

end

/-- The value of the last leaf that has a dotted path. -/
def lastLeaf (params : Object) (name : String) : Option Json :=
  lastNamed name (fieldLeaves [] params)

/-- **What a flattened tree holds** under a path is the last leaf with this path. -/
theorem get?_flatten (params : Object) (name : String) :
    (flatten params).get? name = lastLeaf params name := by
  have h := get?_flattenItems [] params .empty name
  rw [Dict.get?_empty, Option.or_none] at h
  exact h

/-! ### What the diff shows -/

/-- Under every dotted path the last leaves of the two trees are equal, where a leaf that is null is
like no leaf. -/
def LookAlike (a b : Object) : Prop :=
  ∀ name, pyEq ((lastLeaf a name).getD .null) ((lastLeaf b name).getD .null) = true

theorem reading_flatten (params : Object) (name : String) :
    reading (flatten params) name = (lastLeaf params name).getD .null := by
  rw [reading, get?_flatten]

theorem exists_changed_iff (f : Format) (a b : Object) :
    (∃ row ∈ computeProposalDiff f a b, row.changed = true) ↔ ¬LookAlike a b := by
  unfold LookAlike computeProposalDiff
  simp only [List.mem_map, not_forall, ← reading_flatten]
  constructor
  · rintro ⟨row, ⟨key, -, rfl⟩, hchanged⟩
    exact ⟨key, by simpa using hchanged⟩
  · rintro ⟨name, hdiffer⟩
    refine ⟨_, ⟨name, ?_, rfl⟩, by simpa using hdiffer⟩
    by_contra hnone
    rw [mem_sortedSet, List.mem_append, Dict.mem_keys_iff, Dict.mem_keys_iff, not_or,
      Option.not_isSome_iff_eq_none, Option.not_isSome_iff_eq_none] at hnone
    rw [reading, reading, hnone.1, hnone.2] at hdiffer
    exact hdiffer rfl

/-- The diff has a changed row if and only if the trees differ. -/
def Complete (f : Format) (a b : Object) : Prop :=
  (∃ row ∈ computeProposalDiff f a b, row.changed = true) ↔ pyEq (.obj a) (.obj b) = false

theorem complete_iff_lookAlike (f : Format) (a b : Object) :
    Complete f a b ↔ (LookAlike a b ↔ pyEq (.obj a) (.obj b) = true) := by
  rw [Complete, exists_changed_iff, ← Bool.not_eq_true]
  exact not_iff_not

/-! ### Trees without dots -/

/-- A key that is not empty and has no dot. -/
def CleanKey (k : String) : Prop := k ≠ "" ∧ '.' ∉ k.toList

/-- Such are the keys of the nested objects. -/
inductive Clean : Json → Prop
  | scalar {v : Json} (isScalar : scalar v = true) : Clean v
  | arr (items : List Json) : Clean (.arr items)
  | obj {fields : Object} (keys_clean : ∀ field ∈ fields, CleanKey field.1)
      (fields_clean : ∀ field ∈ fields, Clean field.2) : Clean (.obj fields)

/-- The leaf that keys lead to. -/
def leafAt : List String → Json → Option Json
  | [], .obj _ => none
  | [], v => some v
  | k :: ks, .obj fields => (fields.lookup k).bind (leafAt ks)
  | _ :: _, _ => none

theorem leafAt_nil {v : Json} (h : ∀ fields, v ≠ .obj fields) : leafAt [] v = some v := by
  cases v with
  | obj fields => exact absurd rfl (h fields)
  | null | bool | int | float | str | arr => rfl

theorem mem_fieldLeaves_iff {fields : Object} {path : List String} {leaf : List String × Json} :
    leaf ∈ fieldLeaves path fields ↔
      ∃ field ∈ fields, leaf ∈ leaves (path ++ [field.1]) field.2 := by
  induction fields with
  | nil => simp [fieldLeaves]
  | cons field fields ih =>
    obtain ⟨k, v⟩ := field
    rw [fieldLeaves, List.mem_append, ih, List.exists_mem_cons_iff]

theorem mem_leaves_of_leaf {v : Json} (hv : ∀ fields, v ≠ .obj fields) {path : List String}
    {leaf : List String × Json} (hleaves : leaves path v = [(path, v)]) :
    leaf ∈ leaves path v ↔ ∃ ks, leaf.1 = path ++ ks ∧ leafAt ks v = some leaf.2 := by
  obtain ⟨keys, w⟩ := leaf
  rw [hleaves, List.mem_singleton, Prod.mk.injEq]
  constructor
  · rintro ⟨rfl, rfl⟩
    exact ⟨[], (List.append_nil keys).symm, leafAt_nil hv⟩
  · rintro ⟨ks, hkeys, hat⟩
    cases ks with
    | nil =>
      rw [leafAt_nil hv] at hat
      exact ⟨by simpa using hkeys, (Option.some.inj hat).symm⟩
    | cons k ks =>
      cases v with
      | obj fields => exact absurd rfl (hv fields)
      | null | bool | int | float | str | arr => cases hat

theorem mem_leaves_iff {v : Json} (hv : Keyed v) {path : List String}
    {leaf : List String × Json} :
    leaf ∈ leaves path v ↔ ∃ ks, leaf.1 = path ++ ks ∧ leafAt ks v = some leaf.2 := by
  induction hv generalizing path with
  | null | bool | int | float | str | arr => exact mem_leaves_of_leaf (by simp) rfl
  | @obj fields nodup _ ih =>
    rw [leaves, mem_fieldLeaves_iff]
    constructor
    · rintro ⟨⟨k, v⟩, hfield, hmem⟩
      obtain ⟨ks, hkeys, hat⟩ := (ih (k, v) hfield).mp hmem
      refine ⟨k :: ks, by simpa using hkeys, ?_⟩
      rw [leafAt, (lookup_eq_some_iff nodup).mpr hfield, Option.bind_some]
      exact hat
    · rintro ⟨ks, hkeys, hat⟩
      cases ks with
      | nil => cases hat
      | cons k ks =>
        obtain ⟨v, hv, hat⟩ := Option.bind_eq_some_iff.mp hat
        have hfield := (lookup_eq_some_iff nodup).mp hv
        exact ⟨(k, v), hfield, (ih (k, v) hfield).mpr ⟨ks, by simpa using hkeys, hat⟩⟩

theorem joined_assoc (sep : Char) (s t u : String) :
    joined sep (joined sep s t) u = joined sep s (joined sep t u) := by
  simp only [joined, String.append_assoc]

theorem joined_ne_empty (sep : Char) (s t : String) : joined sep s t ≠ "" := by
  intro h
  have hlength := congrArg (fun u : String => u.toList.length) h
  simp at hlength

theorem foldl_dotted {ks : List String} (hks : ks ≠ []) (hne : ∀ k ∈ ks, k ≠ "") {start : String}
    (hstart : start ≠ "") : ks.foldl dotted start = joined '.' start (pathName ks) := by
  induction ks generalizing start with
  | nil => exact absurd rfl hks
  | cons k ks ih =>
    rw [List.forall_mem_cons] at hne
    have hpath : pathName (k :: ks) = ks.foldl dotted k := rfl
    rw [List.foldl_cons, dotted, if_neg hstart, hpath]
    cases ks with
    | nil => rfl
    | cons k' ks =>
      rw [ih (by simp) hne.2 (joined_ne_empty _ _ _), ih (by simp) hne.2 hne.1, joined_assoc]

/-- **The keys are found again** in their dotted path. -/
theorem splitOn_pathName {ks : List String} (hks : ks ≠ []) (hclean : ∀ k ∈ ks, CleanKey k) :
    splitOn '.' (pathName ks) = ks := by
  induction ks with
  | nil => exact absurd rfl hks
  | cons k ks ih =>
    rw [List.forall_mem_cons] at hclean
    have hpath : pathName (k :: ks) = ks.foldl dotted k := rfl
    rw [hpath]
    cases ks with
    | nil => exact splitOn_eq_singleton hclean.1.2
    | cons k' ks =>
      rw [foldl_dotted (by simp) (fun k hk => (hclean.2 k hk).1) hclean.1.1,
        splitOn_joined hclean.1.2, ih (by simp) hclean.2]

theorem cleanKey_of_leafAt {v w : Json} (hv : Clean v) {ks : List String}
    (h : leafAt ks v = some w) : ∀ k ∈ ks, CleanKey k := by
  induction ks generalizing v with
  | nil => simp
  | cons k ks ih =>
    cases hv with
    | scalar isScalar =>
      cases v with
      | arr | obj => cases isScalar
      | null | bool | int | float | str => cases h
    | arr => cases h
    | @obj fields keys_clean fields_clean =>
      obtain ⟨u, hu, hat⟩ := Option.bind_eq_some_iff.mp h
      have hfield : (k, u) ∈ fields := by
        obtain ⟨before, after, rfl, -⟩ := List.lookup_eq_some_iff.mp hu
        simp
      exact List.forall_mem_cons.mpr
        ⟨keys_clean (k, u) hfield, ih (fields_clean (k, u) hfield) hat⟩

theorem mem_of_lastNamed {name : String} {found : List (List String × Json)} {v : Json}
    (h : lastNamed name found = some v) : ∃ path, (path, v) ∈ found ∧ pathName path = name := by
  obtain ⟨⟨path, w⟩, hfind, rfl⟩ := Option.map_eq_some_iff.mp h
  exact ⟨path, by simpa using List.mem_of_find?_eq_some hfind, by
    simpa using List.find?_some hfind⟩

theorem isSome_lastNamed {path : List String} {found : List (List String × Json)} {v : Json}
    (h : (path, v) ∈ found) : ∃ w, lastNamed (pathName path) found = some w := by
  have hfind : (found.reverse.find? fun leaf => pathName leaf.1 = pathName path).isSome :=
    List.find?_isSome.mpr ⟨(path, v), List.mem_reverse.mpr h, by simp⟩
  obtain ⟨leaf, hleaf⟩ := Option.isSome_iff_exists.mp hfind
  exact ⟨leaf.2, by rw [lastNamed, hleaf, Option.map_some]⟩

section CleanTree
variable {params : Object} (hkeyed : Keyed (.obj params)) (hclean : Clean (.obj params))
include hkeyed

theorem exists_of_lastLeaf {name : String} {v : Json} (h : lastLeaf params name = some v) :
    ∃ ks, pathName ks = name ∧ leafAt ks (.obj params) = some v := by
  obtain ⟨path, hmem, hname⟩ := mem_of_lastNamed h
  obtain ⟨ks, hpath, hat⟩ := (mem_leaves_iff hkeyed).mp hmem
  rw [List.nil_append] at hpath
  exact ⟨ks, hpath ▸ hname, hat⟩

include hclean

theorem lastLeaf_pathName {ks : List String} (hks : ks ≠ []) (hkeys : ∀ k ∈ ks, CleanKey k) :
    lastLeaf params (pathName ks) = leafAt ks (.obj params) := by
  cases hlast : lastLeaf params (pathName ks) with
  | some v =>
    obtain ⟨ks', hname, hat⟩ := exists_of_lastLeaf hkeyed hlast
    have hne : ks' ≠ [] := by
      rintro rfl
      cases hat
    have heq := congrArg (splitOn '.') hname
    rw [splitOn_pathName hne (cleanKey_of_leafAt hclean hat), splitOn_pathName hks hkeys] at heq
    rw [← heq, hat]
  | none =>
    cases hat : leafAt ks (.obj params) with
    | none => rfl
    | some v =>
      have hleaf : (ks, v) ∈ leaves [] (.obj params) := (mem_leaves_iff hkeyed).mpr ⟨ks, rfl, hat⟩
      obtain ⟨w, hw⟩ := isSome_lastNamed hleaf
      exact absurd (hlast.symm.trans hw) (by simp)

end CleanTree

/-! ### Nulls and empty objects -/

mutual

/-- The value without its nulls and its empty objects, if anything is left. -/
def prune : Json → Option Json
  | .null => none
  | .obj fields =>
    match pruneFields fields with
    | [] => none
    | field :: rest => some (.obj (field :: rest))
  | .bool b => some (.bool b)
  | .int n => some (.int n)
  | .float q => some (.float q)
  | .str s => some (.str s)
  | .arr items => some (.arr items)

def pruneFields : List (String × Json) → List (String × Json)
  | [] => []
  | (k, v) :: rest => ((prune v).map fun w => (k, w)).toList ++ pruneFields rest

end

theorem prune_obj (fields : Object) : prune (.obj fields) =
    if pruneFields fields = [] then none else some (.obj (pruneFields fields)) := by
  rw [prune]
  cases pruneFields fields with
  | nil => rfl
  | cons field rest => rfl

theorem keys_pruneFields_sublist (fields : Object) :
    ((pruneFields fields).map Prod.fst).Sublist (fields.map Prod.fst) := by
  induction fields with
  | nil => exact .slnil
  | cons field fields ih =>
    obtain ⟨k, v⟩ := field
    rw [pruneFields]
    cases prune v with
    | none => exact ih.cons _
    | some w => exact ih.cons_cons _

theorem lookup_pruneFields {fields : Object} (h : (fields.map Prod.fst).Nodup) (k : String) :
    (pruneFields fields).lookup k = (fields.lookup k).bind prune := by
  induction fields with
  | nil => rfl
  | cons field fields ih =>
    obtain ⟨j, v⟩ := field
    rw [List.map_cons, List.nodup_cons] at h
    rw [pruneFields]
    by_cases hk : k = j
    · subst hk
      have hout : (pruneFields fields).lookup k = none := by
        rw [← Option.not_isSome_iff_eq_none,
          isSome_lookup_iff ((keys_pruneFields_sublist fields).nodup h.2)]
        exact fun hmem => h.1 ((keys_pruneFields_sublist fields).subset hmem)
      cases hv : prune v with
      | none => simp [hv, hout]
      | some w => simp [hv]
    · have hne : (k == j) = false := by simpa using hk
      cases hv : prune v with
      | none => simpa [List.lookup_cons, hne] using ih h.2
      | some w => simpa [List.lookup_cons, hne] using ih h.2

/-- What keys read, a leaf that is null being like none. -/
def readAt (ks : List String) (v : Json) : Json := (leafAt ks v).getD .null

theorem readAt_obj (k : String) (ks : List String) (fields : Object) :
    readAt (k :: ks) (.obj fields) = ((fields.lookup k).map (readAt ks)).getD .null := by
  rw [readAt, leafAt]
  cases fields.lookup k <;> rfl

theorem pyEq_null_iff {v : Json} : pyEq .null v = true ↔ v = .null := by
  cases v <;> simp [pyEq, scalarEq, number]

theorem pyEq_null_right_iff {v : Json} : pyEq v .null = true ↔ v = .null := by
  cases v <;> simp [pyEq, scalarEq, number]

theorem pruneFields_eq_nil_iff {fields : Object} (h : (fields.map Prod.fst).Nodup) :
    pruneFields fields = [] ↔ ∀ k, (fields.lookup k).bind prune = none := by
  simp only [← lookup_pruneFields h]
  constructor
  · intro hnil k
    rw [hnil]
    rfl
  · intro hnone
    cases hfields : pruneFields fields with
    | nil => rfl
    | cons field rest =>
      obtain ⟨k, v⟩ := field
      have hk := hnone k
      rw [hfields, List.lookup_cons_self] at hk
      cases hk

theorem readAt_obj_eq_null_iff {fields : Object} :
    (∀ ks, readAt ks (.obj fields) = .null) ↔
      ∀ k v, fields.lookup k = some v → ∀ ks, readAt ks v = .null := by
  constructor
  · intro h k v hv ks
    have hread := h (k :: ks)
    rwa [readAt_obj, hv] at hread
  · intro h ks
    cases ks with
    | nil => rfl
    | cons k ks =>
      rw [readAt_obj]
      cases hv : fields.lookup k with
      | none => rfl
      | some v => exact h k v hv ks

theorem prune_eq_none_iff {v : Json} (hv : Keyed v) :
    prune v = none ↔ ∀ ks, readAt ks v = .null := by
  induction hv with
  | null =>
    refine ⟨fun _ ks => ?_, fun _ => rfl⟩
    cases ks <;> rfl
  | bool | int | float | str | arr =>
    constructor
    · intro h
      cases h
    · intro h
      cases h []
  | @obj fields nodup _ ih =>
    rw [prune_obj, readAt_obj_eq_null_iff]
    have hiff : (if pruneFields fields = [] then none else some (Json.obj (pruneFields fields))) =
        none ↔ pruneFields fields = [] := by
      split_ifs with h <;> simp [h]
    rw [hiff, pruneFields_eq_nil_iff nodup]
    refine forall_congr' fun k => ?_
    cases hv : fields.lookup k with
    | none => simp
    | some v =>
      rw [Option.bind_some, ih (k, v) ((lookup_eq_some_iff nodup).mp hv)]
      simp

/-- What is left of two values is equal. -/
def SamePruned (v w : Json) : Prop :=
  Option.Rel (fun v w => pyEq v w = true) (prune v) (prune w)

theorem samePruned_obj_iff (xs ys : Object) :
    SamePruned (.obj xs) (.obj ys) ↔
      pyEq (.obj (pruneFields xs)) (.obj (pruneFields ys)) = true := by
  unfold SamePruned
  rw [prune_obj, prune_obj]
  split_ifs with hxs hys hys
  · rw [hxs, hys]
    exact iff_of_true .none rfl
  · refine iff_of_false (by simp) ?_
    cases hfields : pruneFields ys with
    | nil => exact absurd hfields hys
    | cons field rest => simp [hxs, pyEq]
  · refine iff_of_false (by simp) ?_
    cases hfields : pruneFields xs with
    | nil => exact absurd hfields hxs
    | cons field rest => simp [hys, pyEq]
  · rw [Option.rel_some_some]

theorem readAt_null (ks : List String) : readAt ks .null = .null := by
  cases ks <;> rfl

theorem samePruned_null_left {w : Json} (hw : Keyed w) :
    SamePruned .null w ↔ ∀ ks, pyEq (readAt ks .null) (readAt ks w) = true := by
  simp only [readAt_null, pyEq_null_iff, ← prune_eq_none_iff hw]
  unfold SamePruned
  rw [prune]
  cases prune w <;> simp

theorem samePruned_null_right {v : Json} (hv : Keyed v) :
    SamePruned v .null ↔ ∀ ks, pyEq (readAt ks v) (readAt ks .null) = true := by
  simp only [readAt_null, pyEq_null_right_iff, ← prune_eq_none_iff hv]
  unfold SamePruned
  rw [prune.eq_1]
  cases prune v <;> simp

theorem not_pyEq_obj {v : Json} (hv : ∀ fields, v ≠ .obj fields) (fields : Object) :
    pyEq v (.obj fields) = false := by
  cases v with
  | obj fields => exact absurd rfl (hv fields)
  | null | bool | int | float | str | arr => simp [pyEq, scalarEq_obj]

/-- Neither null nor an object: a leaf that stays. -/
def solid : Json → Bool
  | .null | .obj _ => false
  | .bool _ | .int _ | .float _ | .str _ | .arr _ => true

section Solid
variable {v w : Json} (hv : solid v = true)
include hv

theorem prune_solid : prune v = some v := by
  cases v with
  | null | obj => cases hv
  | bool | int | float | str | arr => rfl

theorem readAt_solid (ks : List String) : readAt ks v = if ks = [] then v else .null := by
  cases v with
  | null | obj => cases hv
  | bool | int | float | str | arr => cases ks <;> rfl

theorem ne_null_of_solid : v ≠ .null := by
  rintro rfl
  cases hv

theorem pyEq_solid_obj (fields : Object) :
    pyEq v (.obj fields) = false ∧ pyEq (.obj fields) v = false := by
  cases v with
  | null | obj => cases hv
  | bool | int | float | str | arr => exact ⟨not_pyEq_obj (by simp) fields, rfl⟩

theorem samePruned_solid (hw : solid w = true) :
    SamePruned v w ↔ ∀ ks, pyEq (readAt ks v) (readAt ks w) = true := by
  unfold SamePruned
  rw [prune_solid hv, prune_solid hw, Option.rel_some_some]
  simp only [readAt_solid hv, readAt_solid hw]
  constructor
  · intro h ks
    split_ifs
    · exact h
    · rfl
  · exact fun h => h []

theorem samePruned_solid_obj (fields : Object) :
    SamePruned v (.obj fields) ↔ ∀ ks, pyEq (readAt ks v) (readAt ks (.obj fields)) = true := by
  refine iff_of_false ?_ fun h => ?_
  · unfold SamePruned
    rw [prune_solid hv, prune_obj]
    split_ifs <;> simp [(pyEq_solid_obj hv (pruneFields fields)).1]
  · have hnil := h []
    rw [readAt_solid hv, if_pos rfl] at hnil
    exact ne_null_of_solid hv (pyEq_null_right_iff.mp hnil)

theorem samePruned_obj_solid (fields : Object) :
    SamePruned (.obj fields) v ↔ ∀ ks, pyEq (readAt ks (.obj fields)) (readAt ks v) = true := by
  refine iff_of_false ?_ fun h => ?_
  · unfold SamePruned
    rw [prune_solid hv, prune_obj]
    split_ifs <;> simp [(pyEq_solid_obj hv (pruneFields fields)).2]
  · have hnil := h []
    rw [readAt_solid hv, if_pos rfl] at hnil
    exact ne_null_of_solid hv (pyEq_null_iff.mp hnil)

end Solid

theorem bind_prune (fields : Object) (k : String) :
    (fields.lookup k).bind prune = prune ((fields.lookup k).getD .null) := by
  cases fields.lookup k <;> rfl

theorem readAt_cons (k : String) (ks : List String) (fields : Object) :
    readAt (k :: ks) (.obj fields) = readAt ks ((fields.lookup k).getD .null) := by
  rw [readAt_obj]
  cases fields.lookup k with
  | none => exact (readAt_null ks).symm
  | some v => rfl

theorem keyed_getD {fields : Object} (h : Keyed (.obj fields)) (k : String) :
    Keyed ((fields.lookup k).getD .null) := by
  cases hv : fields.lookup k with
  | none => exact .null
  | some v => exact h.field ((lookup_eq_some_iff h.nodup).mp hv)

/-- **What is left of two values is equal** if and only if they read alike. -/
theorem samePruned_iff {v w : Json} (hv : Keyed v) (hw : Keyed w) :
    SamePruned v w ↔ ∀ ks, pyEq (readAt ks v) (readAt ks w) = true := by
  induction hv generalizing w with
  | null => exact samePruned_null_left hw
  | bool | int | float | str | arr =>
    cases hw with
    | null => exact samePruned_null_right (by constructor <;> assumption)
    | bool | int | float | str | arr => exact samePruned_solid rfl rfl
    | obj => exact samePruned_solid_obj rfl _
  | @obj xs nodup fields_keyed ih =>
    cases hw with
    | null => exact samePruned_null_right (.obj nodup fields_keyed)
    | bool | int | float | str | arr => exact samePruned_obj_solid rfl _
    | @obj ys nodup' fields_keyed' =>
      have hkey (k : String) : Option.Rel (fun v w => pyEq v w = true)
          ((pruneFields xs).lookup k) ((pruneFields ys).lookup k) ↔
          ∀ ks, pyEq (readAt (k :: ks) (.obj xs)) (readAt (k :: ks) (.obj ys)) = true := by
        simp only [lookup_pruneFields nodup, lookup_pruneFields nodup', bind_prune, readAt_cons]
        have hys := keyed_getD (.obj nodup' fields_keyed') k
        cases hv : xs.lookup k with
        | none => exact samePruned_null_left hys
        | some v => exact ih (k, v) ((lookup_eq_some_iff nodup).mp hv) hys
      rw [samePruned_obj_iff, pyEq_obj_iff ((keys_pruneFields_sublist xs).nodup nodup)
        ((keys_pruneFields_sublist ys).nodup nodup')]
      simp only [hkey]
      refine ⟨fun h ks => ?_, fun h k ks => h (k :: ks)⟩
      cases ks with
      | nil => rfl
      | cons k ks => exact h k ks

theorem pyEq_getD {xs ys : Object} (hx : Keyed (.obj xs)) (hy : Keyed (.obj ys))
    (h : pyEq (.obj xs) (.obj ys) = true) (k : String) :
    pyEq ((xs.lookup k).getD .null) ((ys.lookup k).getD .null) = true := by
  have hk := (pyEq_obj_iff hx.nodup hy.nodup).mp h k
  generalize xs.lookup k = v at hk
  generalize ys.lookup k = w at hk
  cases hk with
  | none => rfl
  | some heq => exact heq

theorem readAt_of_pyEq {v w : Json} (hv : Keyed v) (hw : Keyed w) (h : pyEq v w = true)
    (ks : List String) : pyEq (readAt ks v) (readAt ks w) = true := by
  induction ks generalizing v w with
  | nil =>
    cases v with
    | obj xs =>
      cases w with
      | obj ys => rfl
      | null | bool | int | float | str | arr => cases h
    | null | bool | int | float | str | arr =>
      cases w with
      | obj ys =>
        rw [not_pyEq_obj (by simp) ys] at h
        cases h
      | null | bool | int | float | str | arr => exact h
  | cons k ks ih =>
    cases v with
    | obj xs =>
      cases w with
      | obj ys =>
        rw [readAt_cons, readAt_cons]
        exact ih (keyed_getD hv k) (keyed_getD hw k) (pyEq_getD hv hw h k)
      | null | bool | int | float | str | arr => cases h
    | null | bool | int | float | str | arr =>
      cases w with
      | obj ys =>
        rw [not_pyEq_obj (by simp) ys] at h
        cases h
      | null | bool | int | float | str | arr => rfl

section Trees
variable {a b : Object} (ha : Keyed (.obj a)) (hb : Keyed (.obj b)) (hca : Clean (.obj a))
  (hcb : Clean (.obj b))
include ha hb hca hcb

theorem readAt_pathName {ks : List String} {v : Json}
    (h : leafAt ks (.obj a) = some v ∨ leafAt ks (.obj b) = some v) :
    readAt ks (.obj a) = (lastLeaf a (pathName ks)).getD .null ∧
      readAt ks (.obj b) = (lastLeaf b (pathName ks)).getD .null := by
  have hks : ks ≠ [] := by
    rintro rfl
    obtain h | h := h <;> cases h
  have hkeys : ∀ k ∈ ks, CleanKey k := h.elim (cleanKey_of_leafAt hca) (cleanKey_of_leafAt hcb)
  rw [lastLeaf_pathName ha hca hks hkeys, lastLeaf_pathName hb hcb hks hkeys]
  exact ⟨rfl, rfl⟩

/-- **Where no key has a dot**, trees look alike if and only if they differ in nulls and empty
objects alone. -/
theorem lookAlike_iff : LookAlike a b ↔
    pyEq (.obj (pruneFields a)) (.obj (pruneFields b)) = true := by
  rw [← samePruned_obj_iff, samePruned_iff ha hb]
  constructor
  · intro h ks
    cases hleaf : leafAt ks (.obj a) with
    | some v =>
      obtain ⟨hreada, hreadb⟩ := readAt_pathName ha hb hca hcb (.inl hleaf)
      rw [hreada, hreadb]
      exact h (pathName ks)
    | none =>
      cases hleafb : leafAt ks (.obj b) with
      | some v =>
        obtain ⟨hreada, hreadb⟩ := readAt_pathName ha hb hca hcb (.inr hleafb)
        rw [hreada, hreadb]
        exact h (pathName ks)
      | none =>
        rw [readAt, readAt, hleaf, hleafb]
        rfl
  · intro h name
    cases hlast : lastLeaf a name with
    | some v =>
      obtain ⟨ks, rfl, hleaf⟩ := exists_of_lastLeaf ha hlast
      obtain ⟨hreada, hreadb⟩ := readAt_pathName ha hb hca hcb (.inl hleaf)
      rw [← hlast, ← hreada, ← hreadb]
      exact h ks
    | none =>
      cases hlastb : lastLeaf b name with
      | some v =>
        obtain ⟨ks, rfl, hleaf⟩ := exists_of_lastLeaf hb hlastb
        obtain ⟨hreada, hreadb⟩ := readAt_pathName ha hb hca hcb (.inr hleaf)
        rw [← hlast, ← hlastb, ← hreada, ← hreadb]
        exact h ks
      | none => rfl

theorem lookAlike_of_pyEq (h : pyEq (.obj a) (.obj b) = true) : LookAlike a b := by
  rw [lookAlike_iff ha hb hca hcb, ← samePruned_obj_iff, samePruned_iff ha hb]
  exact readAt_of_pyEq ha hb h

end Trees

/-- **The diff is complete** if and only if equal trees, and only these, look alike; where no key has
a dot, if and only if the trees do not differ in nulls and empty objects alone. -/
theorem changed_iff_differ_iff (f : Format) (a b : Object) :
    (Complete f a b ↔ (LookAlike a b ↔ pyEq (.obj a) (.obj b) = true)) ∧
      (Keyed (.obj a) → Keyed (.obj b) → Clean (.obj a) → Clean (.obj b) →
        (Complete f a b ↔ (pyEq (.obj (pruneFields a)) (.obj (pruneFields b)) = true →
          pyEq (.obj a) (.obj b) = true))) := by
  refine ⟨complete_iff_lookAlike f a b, fun ha hb hca hcb => ?_⟩
  rw [complete_iff_lookAlike, ← lookAlike_iff ha hb hca hcb]
  exact ⟨Iff.mp, fun h => ⟨h, lookAlike_of_pyEq ha hb hca hcb⟩⟩

/-! ### A difference that no row shows -/

/-- Values are printed alike. -/
def plain : Format where
  fixed4g _ := "0"
  repr _ := "v"

/-- A budget that is unset, where other parameters have none. -/
def unset : Object := [("budget", .null)]

/-- A level among the parameters of the model. -/
def nested : Object := [("model", .obj [("level", .int 2)])]

/-- **Trees that differ** in a null look alike. -/
theorem not_complete : ¬∀ (f : Format) (a b : Object), Keyed (.obj a) → Keyed (.obj b) →
    ((∃ row ∈ computeProposalDiff f a b, row.changed = true) ↔ pyEq (.obj a) (.obj b) = false) := by
  intro h
  have hunset : Keyed (.obj unset) := .obj (by decide) (by simpa [unset] using Keyed.null)
  have hempty : Keyed (.obj []) := .obj (by decide) (by simp)
  have hchanged := (h plain unset [] hunset hempty).mpr (by decide)
  revert hchanged
  decide +kernel

/-- A level is shown. -/
theorem complete_nested : Keyed (.obj nested) ∧ Clean (.obj nested) ∧
    (Complete plain nested [] ↔ (pyEq (.obj (pruneFields nested)) (.obj (pruneFields [])) = true →
      pyEq (.obj nested) (.obj []) = true)) := by
  have hlevel : Keyed (.obj [("level", .int 2)]) := .obj (by decide) (by simpa using Keyed.int 2)
  have hkeyed : Keyed (.obj nested) := .obj (by decide) (by simpa [nested] using hlevel)
  have hkey (k : String) (h : k ∈ ["model", "level"]) : CleanKey k := by
    obtain rfl | rfl := by simpa using h
    all_goals exact ⟨by decide, by decide⟩
  have hcleanLevel : Clean (.obj [("level", .int 2)]) :=
    .obj (by simpa using hkey "level" (by simp)) (by simpa using Clean.scalar rfl)
  have hclean : Clean (.obj nested) :=
    .obj (by simpa [nested] using hkey "model" (by simp)) (by simpa [nested] using hcleanLevel)
  exact ⟨hkeyed, hclean, (changed_iff_differ_iff plain nested []).2 hkeyed
    (.obj (by decide) (by simp)) hclean (.obj (by simp) (by simp))⟩

end Selfevals.Reporter.ProposalDiff
