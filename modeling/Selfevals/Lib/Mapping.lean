import Mathlib.Data.List.Sort
import Mathlib.Tactic

/-!
# Dicts that keep their insertion order, and sorted lists

A `Dict` lists its items in the order their keys were first set, each key once. Two dicts are the
`Same` when every key reads alike; `perm_items` turns that into a rearrangement of the items, so
whatever sums over a dict cannot tell the two apart. `tally` is the loop that adds values up by key.

* `lookup_setItem` : what a key reads after one assignment;
* `traverse_mapValues` : a dict written value by value reads back as it was;
* `mem_firstSeen`, `nodup_firstSeen` : the values of a list, each once;
* `sorted_congr` : nor does the order of what is sorted.
-/

namespace Selfevals.Lib.Mapping

variable {κ α β : Type*} [DecidableEq κ]

/-! ### Items -/

/-- `d[k] = v` on the items of a dict: in place where the key stands, else at the end. -/
def setItem (k : κ) (v : α) : List (κ × α) → List (κ × α)
  | [] => [(k, v)]
  | (k', v') :: items => if k' = k then (k, v) :: items else (k', v') :: setItem k v items

theorem lookup_setItem (k : κ) (v : α) (items : List (κ × α)) (k' : κ) :
    (setItem k v items).lookup k' = if k' = k then some v else items.lookup k' := by
  induction items with
  | nil =>
    by_cases h : k' = k
    · simp [setItem, h]
    · have hne : (k' == k) = false := by simpa using h
      simp [setItem, List.lookup_cons, h, hne]
  | cons item items ih =>
    obtain ⟨j, w⟩ := item
    by_cases hj : j = k
    · subst hj
      by_cases h : k' = j
      · simp [setItem, h]
      · have hne : (k' == j) = false := by simpa using h
        simp [setItem, List.lookup_cons, h, hne]
    · by_cases h : k' = j
      · subst h
        simp [setItem, hj]
      · have hne : (k' == j) = false := by simpa using h
        simp [setItem, List.lookup_cons, hj, hne, ih]

theorem setItem_of_not_mem {k : κ} {v : α} {items : List (κ × α)} (h : k ∉ items.map Prod.fst) :
    setItem k v items = items ++ [(k, v)] := by
  induction items with
  | nil => rfl
  | cons item items ih =>
    rw [List.map_cons, List.mem_cons, not_or] at h
    rw [setItem, if_neg fun heq => h.1 heq.symm, ih h.2, List.cons_append]

theorem map_fst_setItem (k : κ) (v : α) (items : List (κ × α)) :
    (setItem k v items).map Prod.fst =
      if k ∈ items.map Prod.fst then items.map Prod.fst else items.map Prod.fst ++ [k] := by
  induction items with
  | nil => simp [setItem]
  | cons item items ih =>
    obtain ⟨j, w⟩ := item
    by_cases hj : j = k
    · simp [setItem, hj]
    · have hne : k ≠ j := fun h => hj h.symm
      by_cases hk : k ∈ items.map Prod.fst
      · rw [if_pos hk] at ih
        rw [if_pos (by simpa using Or.inr hk), setItem, if_neg hj, List.map_cons, ih]
        rfl
      · rw [if_neg hk] at ih
        rw [if_neg (by simpa [hne] using hk), setItem, if_neg hj, List.map_cons, ih]
        rfl

theorem nodup_setItem {items : List (κ × α)} (h : (items.map Prod.fst).Nodup) (k : κ) (v : α) :
    ((setItem k v items).map Prod.fst).Nodup := by
  rw [map_fst_setItem]
  split_ifs with hk
  · exact h
  · exact List.nodup_append.mpr ⟨h, by simp, by
      intro a ha b hb hab
      rw [List.mem_singleton] at hb
      exact hk (hb ▸ hab ▸ ha)⟩

theorem foldl_setItem {items new : List (κ × α)}
    (h : (items.map Prod.fst ++ new.map Prod.fst).Nodup) :
    new.foldl (fun d item => setItem item.1 item.2 d) items = items ++ new := by
  induction new generalizing items with
  | nil => simp
  | cons item new ih =>
    have hnew : item.1 ∉ items.map Prod.fst := fun hmem =>
      List.disjoint_of_nodup_append h hmem (List.mem_map_of_mem List.mem_cons_self)
    have hset : setItem item.1 item.2 items = items ++ [item] := setItem_of_not_mem hnew
    rw [List.foldl_cons, hset, ih (by simpa using h), List.append_assoc]
    rfl

/-! ### Dicts -/

/-- A dict: its items in insertion order, no key twice. -/
structure Dict (κ α : Type*) where
  items : List (κ × α)
  nodup : (items.map Prod.fst).Nodup
deriving Repr

namespace Dict

/-- The dict without items. -/
def empty : Dict κ α := ⟨[], List.nodup_nil⟩

/-- `d.get(k)`. -/
def get? (d : Dict κ α) (k : κ) : Option α := d.items.lookup k

/-- The keys, in order. -/
def keys (d : Dict κ α) : List κ := d.items.map Prod.fst

/-- The values, in order. -/
def values (d : Dict κ α) : List α := d.items.map Prod.snd

/-- `d[k] = v`. -/
def set (d : Dict κ α) (k : κ) (v : α) : Dict κ α :=
  ⟨setItem k v d.items, nodup_setItem d.nodup k v⟩

omit [DecidableEq κ] in
@[ext] theorem ext {d d' : Dict κ α} (h : d.items = d'.items) : d = d' := by
  cases d
  cases d'
  cases h
  rfl

@[simp] theorem get?_empty (k : κ) : (empty : Dict κ α).get? k = none := rfl

theorem get?_set (d : Dict κ α) (k : κ) (v : α) (k' : κ) :
    (d.set k v).get? k' = if k' = k then some v else d.get? k' :=
  lookup_setItem k v d.items k'

@[simp] theorem get?_set_self (d : Dict κ α) (k : κ) (v : α) : (d.set k v).get? k = some v := by
  rw [get?_set, if_pos rfl]

theorem mem_items_iff (d : Dict κ α) (k : κ) (v : α) : (k, v) ∈ d.items ↔ d.get? k = some v := by
  obtain ⟨items, hnodup⟩ := d
  show (k, v) ∈ items ↔ items.lookup k = some v
  induction items with
  | nil => simp
  | cons item items ih =>
    obtain ⟨j, w⟩ := item
    rw [List.map_cons, List.nodup_cons] at hnodup
    have htail := ih hnodup.2
    by_cases hk : k = j
    · subst hk
      have hout : (k, v) ∉ items := fun h => hnodup.1 (List.mem_map.mpr ⟨(k, v), h, rfl⟩)
      simp [hout, eq_comm]
    · have hne : (k == j) = false := by simpa using hk
      simp [List.lookup_cons, hne, hk, htail]

theorem mem_keys_iff (d : Dict κ α) (k : κ) : k ∈ d.keys ↔ (d.get? k).isSome := by
  constructor
  · intro h
    obtain ⟨⟨j, v⟩, hmem, rfl⟩ := List.mem_map.mp h
    rw [(d.mem_items_iff j v).mp hmem]
    rfl
  · intro h
    obtain ⟨v, hv⟩ := Option.isSome_iff_exists.mp h
    exact List.mem_map_of_mem ((d.mem_items_iff k v).mpr hv)

omit [DecidableEq κ] in
theorem nodup_items (d : Dict κ α) : d.items.Nodup := d.nodup.of_map _

/-! ### Equality as maps -/

/-- Python's `==` on dicts: every key reads alike, in whatever order the keys were set. -/
def Same (d d' : Dict κ α) : Prop := ∀ k, d.get? k = d'.get? k

@[refl] theorem Same.refl (d : Dict κ α) : d.Same d := fun _ => rfl

theorem Same.perm_items {d d' : Dict κ α} (h : d.Same d') : d.items.Perm d'.items := by
  refine (List.perm_ext_iff_of_nodup d.nodup_items d'.nodup_items).mpr fun ⟨k, v⟩ => ?_
  rw [mem_items_iff, mem_items_iff, h k]

theorem Same.perm_keys {d d' : Dict κ α} (h : d.Same d') : d.keys.Perm d'.keys :=
  h.perm_items.map Prod.fst

/-! ### Comprehensions -/

/-- `{k: w for k, v in d.items() if …}`, with `f k v = some w` for what is kept. -/
def filterMap (f : κ → α → Option β) (d : Dict κ α) : Dict κ β where
  items := d.items.filterMap fun item => (f item.1 item.2).map fun w => (item.1, w)
  nodup := by
    have hsub : ((d.items.filterMap fun item => (f item.1 item.2).map fun w => (item.1, w)).map
        Prod.fst).Sublist (d.items.map Prod.fst) := by
      generalize d.items = items
      induction items with
      | nil => simp
      | cons item items ih =>
        cases h : f item.1 item.2 with
        | none =>
          simp only [List.filterMap_cons, h, Option.map_none, List.map_cons]
          exact ih.trans (List.sublist_cons_self _ _)
        | some w =>
          simp only [List.filterMap_cons, h, Option.map_some, List.map_cons]
          exact ih.cons_cons _
    exact hsub.nodup d.nodup

theorem get?_filterMap (f : κ → α → Option β) (d : Dict κ α) (k : κ) :
    (d.filterMap f).get? k = (d.get? k).bind (f k) := by
  refine Option.ext fun w => ?_
  rw [← mem_items_iff, Option.bind_eq_some_iff]
  constructor
  · intro h
    obtain ⟨⟨j, v⟩, hmem, hw⟩ := List.mem_filterMap.mp h
    obtain ⟨w', hf, heq⟩ := Option.map_eq_some_iff.mp hw
    cases heq
    exact ⟨v, (d.mem_items_iff _ _).mp hmem, hf⟩
  · rintro ⟨v, hv, hf⟩
    exact List.mem_filterMap.mpr ⟨(k, v), (d.mem_items_iff k v).mpr hv, by simp [hf]⟩

theorem Same.filterMap {d d' : Dict κ α} (h : d.Same d') {f g : κ → α → Option β}
    (hfg : ∀ k v, f k v = g k v) : (d.filterMap f).Same (d'.filterMap g) := by
  intro k
  rw [get?_filterMap, get?_filterMap, h k, funext (hfg k)]

/-- `{k: f(v) for k, v in d.items()}`. -/
def mapValues (f : α → β) (d : Dict κ α) : Dict κ β := d.filterMap fun _ v => some (f v)

/-- `{k: f(v) for k, v in d.items()}` where `f` may raise: all values or none. -/
def traverse (f : α → Option β) (d : Dict κ α) : Option (Dict κ β) :=
  if d.values.all fun v => (f v).isSome then some (d.filterMap fun _ v => f v) else none

omit [DecidableEq κ] in
theorem traverse_mapValues {f : α → β} {g : β → Option α} (h : ∀ v, g (f v) = some v)
    (d : Dict κ α) : (d.mapValues f).traverse g = some d := by
  have hall : (d.mapValues f).values.all fun v => (g v).isSome := by
    simp [mapValues, filterMap, values, h]
  rw [traverse, if_pos hall]
  congr 1
  ext1
  simp [mapValues, filterMap, h]

/-- `{k: f(k) for k in ks}`. -/
def ofKeys (f : κ → α) (ks : List κ) : Dict κ α := ks.foldl (fun d k => d.set k (f k)) empty

theorem get?_ofKeys (f : κ → α) (ks : List κ) (k : κ) :
    (ofKeys f ks).get? k = if k ∈ ks then some (f k) else none := by
  have hfold : ∀ (ks : List κ) (d : Dict κ α), (ks.foldl (fun d k => d.set k (f k)) d).get? k =
      if k ∈ ks then some (f k) else d.get? k := by
    intro ks
    induction ks with
    | nil => simp
    | cons j ks ih =>
      intro d
      rw [List.foldl_cons, ih, get?_set]
      by_cases hj : k = j
      · subst hj; simp
      · simp [hj]
  rw [ofKeys, hfold, get?_empty]

/-- `{k: v for k, v in items}`: of two values of one key, the later. -/
def ofItems (items : List (κ × α)) :
    Dict κ α := items.foldl (fun d item => d.set item.1 item.2) empty

theorem ofItems_items (d : Dict κ α) : ofItems d.items = d := by
  have hfold : ∀ (items : List (κ × α)) (d' : Dict κ α),
      (items.foldl (fun d item => d.set item.1 item.2) d').items =
        items.foldl (fun d item => setItem item.1 item.2 d) d'.items := by
    intro items
    induction items with
    | nil => exact fun _ => rfl
    | cons item items ih => exact fun d' => ih _
  ext1
  have hnodup : ((empty : Dict κ α).items.map Prod.fst ++ d.items.map Prod.fst).Nodup := d.nodup
  rw [ofItems, hfold, foldl_setItem hnodup]
  exact List.nil_append _

theorem ofItems_same {d : Dict κ α} {items : List (κ × α)} (h : items.Perm d.items) :
    (ofItems items).Same d := by
  have hnodup : (items.map Prod.fst).Nodup := (h.map Prod.fst).nodup_iff.mpr d.nodup
  have hitems : (ofItems items).items = items := congrArg Dict.items (ofItems_items ⟨items, hnodup⟩)
  intro k
  refine Option.ext fun v => ?_
  rw [← mem_items_iff, ← mem_items_iff, hitems, h.mem_iff]

theorem mem_keys_ofItems {items : List (κ × α)} {k : κ} :
    k ∈ (ofItems items).keys ↔ k ∈ items.map Prod.fst := by
  have hfold : ∀ (items : List (κ × α)) (d : Dict κ α),
      k ∈ (items.foldl (fun d item => d.set item.1 item.2) d).keys ↔
        k ∈ d.keys ∨ k ∈ items.map Prod.fst := by
    intro items
    induction items with
    | nil => simp
    | cons item items ih =>
      intro d
      have hset : k ∈ (d.set item.1 item.2).keys ↔ k ∈ d.keys ∨ k = item.1 := by
        rw [mem_keys_iff, get?_set, mem_keys_iff]
        split_ifs with hk <;> simp [hk]
      rw [List.foldl_cons, ih, hset, List.map_cons, List.mem_cons, or_assoc]
  rw [ofItems, hfold]
  simp [keys, empty]

/-! ### Adding up by key -/

/-- The values listed under a key. -/
def under (k : κ) (items : List (κ × α)) : List α :=
  (items.filter fun item => item.1 = k).map Prod.snd

theorem under_perm {items items' : List (κ × α)} (h : items.Perm items') (k : κ) :
    (under k items).Perm (under k items') :=
  (h.filter _).map _

section Tally
variable [AddCommMonoid α]

/-- `d[k] = d.get(k, 0) + v`. -/
def add (d : Dict κ α) (k : κ) (v : α) : Dict κ α := d.set k ((d.get? k).getD 0 + v)

/-- The values of a list of items, added up by key in the order they come. -/
def tally (items : List (κ × α)) : Dict κ α :=
  items.foldl (fun d item => d.add item.1 item.2) empty

theorem get?_foldl_add (items : List (κ × α)) (d : Dict κ α) (k : κ) :
    (items.foldl (fun d item => d.add item.1 item.2) d).get? k =
      if under k items = [] then d.get? k
      else some ((d.get? k).getD 0 + (under k items).sum) := by
  induction items generalizing d with
  | nil => simp [under]
  | cons item items ih =>
    obtain ⟨j, v⟩ := item
    rw [List.foldl_cons, ih]
    by_cases hj : j = k
    · subst hj
      have hcons : under j ((j, v) :: items) = v :: under j items := by simp [under]
      rw [hcons]
      by_cases hnil : under j items = []
      · simp [hnil, add]
      · simp [hnil, add, add_assoc]
    · have hskip : under k ((j, v) :: items) = under k items := by simp [under, hj]
      have hne : k ≠ j := fun h => hj h.symm
      rw [hskip, add, get?_set, if_neg hne]

/-- **A key's total** is the sum of the values added under it, and a key is there when it had one.
-/
theorem get?_tally (items : List (κ × α)) (k : κ) :
    (tally items).get? k = if under k items = [] then none else some (under k items).sum := by
  rw [tally, get?_foldl_add]
  simp

theorem sum_values_add (d : Dict κ α) (k : κ) (v : α) :
    (d.add k v).values.sum = d.values.sum + v := by
  have hsum : ∀ items : List (κ × α),
      ((setItem k ((items.lookup k).getD 0 + v) items).map Prod.snd).sum =
        (items.map Prod.snd).sum + v := by
    intro items
    induction items with
    | nil => simp [setItem]
    | cons item items ih =>
      obtain ⟨j, w⟩ := item
      by_cases hj : j = k
      · subst hj
        simp [setItem, add_right_comm]
      · have hne : (k == j) = false := by simpa using fun h : k = j => hj h.symm
        simp [setItem, hj, List.lookup_cons, hne, ih, add_assoc]
  exact hsum d.items

/-- **The totals add up** to all that was added. -/
theorem sum_values_tally (items : List (κ × α)) :
    (tally items).values.sum = (items.map Prod.snd).sum := by
  have hfold : ∀ d : Dict κ α,
      (items.foldl (fun d item => d.add item.1 item.2) d).values.sum =
        d.values.sum + (items.map Prod.snd).sum := by
    induction items with
    | nil => simp
    | cons item items ih =>
      intro d
      rw [List.foldl_cons, ih, sum_values_add, List.map_cons, List.sum_cons, add_assoc]
  rw [tally, hfold empty]
  simp [values, empty]

/-- **The order in which values are added does not show** in the totals. -/
theorem tally_same {items items' : List (κ × α)} (h : items.Perm items') :
    (tally items).Same (tally items') := by
  intro k
  have hk := under_perm h k
  rw [get?_tally, get?_tally, hk.sum_eq]
  exact if_congr ⟨fun hn => (hn ▸ hk).nil_eq.symm, fun hn => (hn ▸ hk).eq_nil⟩ rfl rfl

end Tally

/-! ### Gathering by key -/

/-- `d.setdefault(k, []).append(v)` for each item. -/
def gather (items : List (κ × α)) : Dict κ (List α) :=
  items.foldl (fun d item => d.set item.1 ((d.get? item.1).getD [] ++ [item.2])) empty

/-- **What is gathered under a key** are its values, in order; a key is there when it had one. -/
theorem get?_gather (items : List (κ × α)) (k : κ) :
    (gather items).get? k = if under k items = [] then none else some (under k items) := by
  have hfold : ∀ d : Dict κ (List α),
      (items.foldl (fun d item => d.set item.1 ((d.get? item.1).getD [] ++ [item.2])) d).get? k =
        if under k items = [] then d.get? k
        else some ((d.get? k).getD [] ++ under k items) := by
    induction items with
    | nil => simp [under]
    | cons item items ih =>
      obtain ⟨j, v⟩ := item
      intro d
      rw [List.foldl_cons, ih]
      by_cases hj : j = k
      · subst hj
        have hcons : under j ((j, v) :: items) = v :: under j items := by simp [under]
        rw [hcons]
        by_cases hnil : under j items = []
        · simp [hnil]
        · simp [hnil]
      · have hskip : under k ((j, v) :: items) = under k items := by simp [under, hj]
        have hne : k ≠ j := fun h => hj h.symm
        rw [hskip, get?_set, if_neg hne]
  rw [gather, hfold empty]
  simp

/-- A `Counter` of a list. -/
def count (ks : List κ) : Dict κ ℕ := tally (ks.map fun k => (k, 1))

theorem count_same {ks ks' : List κ} (h : ks.Perm ks') : (count ks).Same (count ks') :=
  tally_same (h.map _)

theorem sum_values_count (ks : List κ) : (count ks).values.sum = ks.length := by
  rw [count, sum_values_tally, List.map_map]
  simp [Function.comp_def]

theorem under_map_one (k : κ) (ks : List κ) :
    under k (ks.map fun k => (k, 1)) = List.replicate (ks.count k) 1 := by
  induction ks with
  | nil => rfl
  | cons j ks ih =>
    by_cases hj : j = k
    · subst hj
      rw [List.count_cons_self, List.replicate_succ, ← ih]
      simp [under]
    · rw [List.count_cons_of_ne hj, ← ih]
      simp [under, hj]

/-- **A count is exact**, and a key is there when it came. -/
theorem get?_count (ks : List κ) (k : κ) :
    (count ks).get? k = if k ∈ ks then some (ks.count k) else none := by
  rw [count, get?_tally, under_map_one, List.sum_replicate, smul_eq_mul, mul_one]
  by_cases hk : k ∈ ks
  · rw [if_pos hk, if_neg (by simpa [List.replicate_eq_nil_iff, List.count_eq_zero] using hk)]
  · rw [if_neg hk, if_pos (by simpa [List.replicate_eq_nil_iff, List.count_eq_zero] using hk)]

end Dict

/-! ### Counting under keys -/

theorem sum_countP_keys {ι β : Type*} [DecidableEq β] (f : ι → β) {ks : List β} (hks : ks.Nodup)
    {xs : List ι} (h : ∀ x ∈ xs, f x ∈ ks) :
    (ks.map fun k => xs.countP fun x => f x = k).sum = xs.length := by
  induction xs with
  | nil => simp
  | cons x xs ih =>
    obtain ⟨hx, hxs⟩ := List.forall_mem_cons.mp h
    have hone : (ks.map fun k => if f x = k then 1 else 0).sum = 1 := by
      have hcount : (ks.map fun k => if f x = k then 1 else 0).sum = ks.count (f x) := by
        clear h hx hxs ih hks
        induction ks with
        | nil => rfl
        | cons k ks ih =>
          rw [List.map_cons, List.sum_cons, ih, List.count_cons, add_comm]
          simp only [beq_iff_eq, eq_comm (a := k)]
      rw [hcount, List.count_eq_one_of_mem hks hx]
    simp only [List.countP_cons, decide_eq_true_eq, List.sum_map_add]
    rw [ih hxs, hone, List.length_cons]

/-! ### First appearance -/

/-- The values of a list, each once, in the order they are first seen. -/
def firstSeen (xs : List κ) : List κ :=
  xs.foldl (fun seen x => if x ∈ seen then seen else seen ++ [x]) []

theorem mem_firstSeen {xs : List κ} {x : κ} : x ∈ firstSeen xs ↔ x ∈ xs := by
  have hfold : ∀ (ys seen : List κ),
      x ∈ ys.foldl (fun seen y => if y ∈ seen then seen else seen ++ [y]) seen ↔
        x ∈ seen ∨ x ∈ ys := by
    intro ys
    induction ys with
    | nil => simp
    | cons y ys ih =>
      intro seen
      rw [List.foldl_cons, ih, List.mem_cons]
      split_ifs with hy
      · constructor
        · rintro (h | h)
          · exact .inl h
          · exact .inr (.inr h)
        · rintro (h | rfl | h)
          · exact .inl h
          · exact .inl hy
          · exact .inr h
      · rw [List.mem_append, List.mem_singleton, or_assoc]
  rw [firstSeen, hfold]
  simp

theorem nodup_firstSeen (xs : List κ) : (firstSeen xs).Nodup := by
  have hfold : ∀ (ys seen : List κ), seen.Nodup →
      (ys.foldl (fun seen y => if y ∈ seen then seen else seen ++ [y]) seen).Nodup := by
    intro ys
    induction ys with
    | nil => exact fun seen h => h
    | cons y ys ih =>
      intro seen h
      rw [List.foldl_cons]
      refine ih _ ?_
      split_ifs with hy
      · exact h
      · refine List.nodup_append.mpr ⟨h, List.nodup_singleton y, fun a ha b hb hab => hy ?_⟩
        rw [List.mem_singleton] at hb
        exact hb ▸ hab ▸ ha
  exact hfold xs [] List.nodup_nil

/-! ### `sorted` -/

section Sorted
variable [LinearOrder α]

/-- `sorted(xs)`. -/
def sorted (xs : List α) : List α := xs.insertionSort (· ≤ ·)

theorem sorted_congr {xs ys : List α} (h : xs.Perm ys) : sorted xs = sorted ys := by
  refine List.Perm.eq_of_pairwise' (List.pairwise_insertionSort _ _)
    (List.pairwise_insertionSort _ _) ?_
  exact (List.perm_insertionSort _ xs).trans (h.trans (List.perm_insertionSort _ ys).symm)

theorem sorted_perm (xs : List α) : (sorted xs).Perm xs := List.perm_insertionSort _ xs

theorem sorted_eq_iff {xs ys : List α} : sorted xs = sorted ys ↔ xs.Perm ys :=
  ⟨fun h => (sorted_perm xs).symm.trans (h ▸ sorted_perm ys), sorted_congr⟩

/-- `sorted(set(xs))`. -/
def sortedSet (xs : List α) : List α := sorted xs.dedup

@[simp] theorem mem_sortedSet {xs : List α} {x : α} : x ∈ sortedSet xs ↔ x ∈ xs :=
  (sorted_perm _).mem_iff.trans List.mem_dedup

theorem sortedSet_congr {xs ys : List α} (h : xs.Perm ys) : sortedSet xs = sortedSet ys :=
  sorted_congr h.dedup

end Sorted

end Selfevals.Lib.Mapping
