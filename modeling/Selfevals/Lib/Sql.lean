import Mathlib.Data.List.Sort
import Selfevals.Lib.JsonValue

/-!
# Relational rows

What a row holds (`SqlValue`), how the values of a program go into a column and come back
(`SqlCodec`), what `ORDER BY` does to the rows of a query and `UPDATE … WHERE` to those of a table.
The database keeps every value as it was given; an instant is kept as an integer.

* `orderBy_of_pairwise`: rows that are in order already stay where they are.
* `filter_orderBy`: the rows of one group come out in their own order, however the groups are mixed.
-/

namespace Selfevals.Lib.Sql

open Lib.JsonValue

/-- A value of a column. -/
inductive SqlValue
  | null
  | bool (b : Bool)
  | int (n : ℤ)
  | double (q : ℚ)
  | text (s : String)
  | textArray (items : List String)
  | intArray (items : List ℤ)
  | jsonb (value : Json)

/-- A type whose values are stored in a column, and read back from it. -/
class SqlCodec (α : Type) where
  encode : α → SqlValue
  decode : SqlValue → Option α
  decode_encode : ∀ a, decode (encode a) = some a

open SqlCodec (encode decode decode_encode)

attribute [simp] SqlCodec.decode_encode

instance : SqlCodec Bool where
  encode := .bool
  decode
    | .bool b => some b
    | _ => none
  decode_encode _ := rfl

instance : SqlCodec ℕ where
  encode n := .int n
  decode
    | .int (.ofNat n) => some n
    | _ => none
  decode_encode _ := rfl

instance : SqlCodec ℤ where
  encode := .int
  decode
    | .int n => some n
    | _ => none
  decode_encode _ := rfl

instance : SqlCodec ℚ where
  encode := .double
  decode
    | .double q => some q
    | _ => none
  decode_encode _ := rfl

instance : SqlCodec String where
  encode := .text
  decode
    | .text s => some s
    | _ => none
  decode_encode _ := rfl

instance : SqlCodec (List String) where
  encode := .textArray
  decode
    | .textArray items => some items
    | _ => none
  decode_encode _ := rfl

instance : SqlCodec (List ℤ) where
  encode := .intArray
  decode
    | .intArray items => some items
    | _ => none
  decode_encode _ := rfl

instance : SqlCodec Object where
  encode fields := .jsonb (.obj fields)
  decode
    | .jsonb (.obj fields) => some fields
    | _ => none
  decode_encode _ := rfl

theorem eq_text_of_decode {v : SqlValue} {s : String} (h : decode v = some s) : v = .text s := by
  cases v <;> simp [decode] at h
  rw [h]

theorem eq_int_of_decode {v : SqlValue} {n : ℤ} (h : decode v = some n) : v = .int n := by
  cases v <;> simp [decode] at h
  rw [h]

/-- A value that a nullable column tells apart from `NULL`. -/
class NotNull (α : Type) [SqlCodec α] : Prop where
  encode_ne_null : ∀ a : α, encode a ≠ .null

instance : NotNull Bool := ⟨fun _ => by simp [encode]⟩
instance : NotNull ℕ := ⟨fun _ => by simp [encode]⟩
instance : NotNull ℤ := ⟨fun _ => by simp [encode]⟩
instance : NotNull ℚ := ⟨fun _ => by simp [encode]⟩
instance : NotNull String := ⟨fun _ => by simp [encode]⟩
instance : NotNull Object := ⟨fun _ => by simp [encode]⟩

/-- A nullable column. -/
instance {α : Type} [SqlCodec α] [NotNull α] : SqlCodec (Option α) where
  encode
    | none => .null
    | some a => encode a
  decode v :=
    match v with
    | .null => some none
    | v => (decode v).map some
  decode_encode
    | none => rfl
    | some a => by
      have hne := NotNull.encode_ne_null a
      have hdec := decode_encode a
      cases hv : encode a with
      | null => exact absurd hv hne
      | _ => rw [hv] at hdec; simp [hv, hdec]

/-! ### `ORDER BY` -/

section OrderBy
variable {α κ : Type*} [LinearOrder κ]

/-- The rows of a query, in the order of a key; rows with one key keep the order they are in. -/
def orderBy (key : α → κ) (rows : List α) : List α :=
  rows.insertionSort fun a b => key a ≤ key b

theorem orderBy_perm (key : α → κ) (rows : List α) : (orderBy key rows).Perm rows :=
  List.perm_insertionSort _ rows

theorem orderBy_of_pairwise {key : α → κ} {rows : List α}
    (h : rows.Pairwise fun a b => key a ≤ key b) : orderBy key rows = rows :=
  h.insertionSort_eq

theorem pairwise_lt_zipIdx (items : List α) : items.zipIdx.Pairwise fun a b => a.2 < b.2 := by
  have h : (items.zipIdx.map Prod.snd).Pairwise (· < ·) := by
    rw [List.zipIdx_map_snd]
    exact List.pairwise_lt_range'
  exact List.pairwise_map.mp h

theorem pairwise_zipIdx (items : List α) : items.zipIdx.Pairwise fun a b => a.2 ≤ b.2 :=
  (pairwise_lt_zipIdx items).imp fun h => h.le

theorem mapM_map_some {β : Type*} {items : List α} {f : α → β} {g : β → Option α}
    (h : ∀ a ∈ items, g (f a) = some a) : (items.map f).mapM g = some items := by
  induction items with
  | nil => rfl
  | cons a items ih =>
    rw [List.forall_mem_cons] at h
    rw [List.map_cons, List.mapM_cons, h.1, ih h.2]
    rfl

theorem mapM_zipIdx {β : Type*} {items : List α} {f : α × ℕ → β} {g : β → Option α}
    (h : ∀ p ∈ items.zipIdx, g (f p) = some p.1) : (items.zipIdx.map f).mapM g = some items := by
  have hgen : ∀ (items : List α) (pos : ℕ), (∀ p ∈ items.zipIdx pos, g (f p) = some p.1) →
      ((items.zipIdx pos).map f).mapM g = some items := by
    intro items
    induction items with
    | nil => exact fun _ _ => rfl
    | cons a items ih =>
      intro pos h
      rw [List.zipIdx_cons, List.forall_mem_cons] at h
      rw [List.zipIdx_cons, List.map_cons, List.mapM_cons, h.1, ih _ h.2]
      rfl
  exact hgen items 0 h

theorem filter_orderBy {key : α → κ} {rows : List α} {p : α → Bool}
    (h : (rows.filter p).Pairwise fun a b => key a ≤ key b) :
    (orderBy key rows).filter p = rows.filter p := by
  have hsub : (rows.filter p).Sublist (orderBy key rows) :=
    List.sublist_insertionSort h List.filter_sublist
  have hfilter : (rows.filter p).Sublist ((orderBy key rows).filter p) := by
    have := hsub.filter p
    rwa [List.filter_filter, List.filter_congr fun a _ => Bool.and_self (p a)] at this
  have hlen : (rows.filter p).length = ((orderBy key rows).filter p).length :=
    ((orderBy_perm key rows).filter p).length_eq.symm
  exact (hfilter.eq_of_length hlen).symm

/-- What `ORDER BY key` may return: the rows, in the order of the key; the database is free in the
order of rows with one key. -/
def IsOrdering (key : α → κ) (rows listed : List α) : Prop :=
  listed.Perm rows ∧ listed.Pairwise fun a b => key a ≤ key b

theorem isOrdering_orderBy (key : α → κ) {rows rows' : List α} (h : rows'.Perm rows) :
    IsOrdering key rows (orderBy key rows') := by
  have : IsTrans α fun a b => key a ≤ key b := ⟨fun _ _ _ => le_trans⟩
  have : Std.Total fun a b : α => key a ≤ key b := ⟨fun _ _ => le_total _ _⟩
  exact ⟨(orderBy_perm key rows').trans h, List.pairwise_insertionSort _ _⟩

theorem eq_of_perm_of_pairwise {key : α → κ} {listed out : List α} (hperm : listed.Perm out)
    (hle : listed.Pairwise fun a b => key a ≤ key b) (hlt : out.Pairwise fun a b => key a < key b) :
    listed = out := by
  have hkeys : (out.map key).Nodup :=
    List.pairwise_map.mpr (hlt.imp fun hab => ne_of_lt hab)
  refine List.Perm.eq_of_pairwise (fun a b ha hb hab hba => ?_) hle (hlt.imp le_of_lt) hperm
  exact List.inj_on_of_nodup_map hkeys (hperm.mem_iff.mp ha) hb (le_antisymm hab hba)

theorem orderBy_congr {key : α → κ} (hkey : key.Injective) {rows rows' : List α}
    (h : rows.Perm rows') :
    orderBy key rows = orderBy key rows' := by
  have hperm : (orderBy key rows).Perm (orderBy key rows') :=
    (orderBy_perm key rows).trans (h.trans (orderBy_perm key rows').symm)
  exact List.Perm.eq_of_pairwise (fun a b _ _ hab hba => hkey (le_antisymm hab hba))
    (isOrdering_orderBy key (List.Perm.refl rows)).2
      (isOrdering_orderBy key (List.Perm.refl rows')).2 hperm

theorem not_pair_sublist_swap {l : List α} (h : l.Nodup) {a b : α} (hab : [a, b].Sublist l) :
    ¬ [b, a].Sublist l := by
  intro hba
  obtain ⟨l₁, l₂, rfl, ha, hb⟩ := List.cons_sublist_iff.mp hab
  obtain ⟨m₁, m₂, heq, hb', ha'⟩ := List.cons_sublist_iff.mp hba
  rw [List.singleton_sublist] at hb ha'
  have hdisj := List.disjoint_of_nodup_append h
  have hdisj' := List.disjoint_of_nodup_append (heq ▸ h)
  obtain ⟨k, rfl, -⟩ | ⟨k, rfl, -⟩ := List.append_eq_append_iff.mp heq
  · exact hdisj' (List.mem_append_left k ha) ha'
  · exact hdisj (List.mem_append_left k hb') hb

/-- **Any row with a least key may come first** of those that are selected. -/
theorem exists_ordering_head {key : α → κ} {rows : List α} {p : α → Bool} {x : α} (hx : x ∈ rows)
    (hp : p x = true) (hleast : ∀ y ∈ rows, p y = true → key x ≤ key y) :
    ∃ listed, IsOrdering key rows listed ∧ (listed.filter p).head? = some x := by
  classical
  refine ⟨_, isOrdering_orderBy key (List.perm_cons_erase hx).symm, ?_⟩
  have hrest : ∀ y ∈ orderBy key (rows.erase x), y ∈ rows := fun y hy =>
    List.mem_of_mem_erase ((orderBy_perm key _).mem_iff.mp hy)
  -- what is in front of `x` has a smaller key, and is not selected
  have hfront : ((orderBy key (rows.erase x)).takeWhile fun y => decide ¬key x ≤ key y).filter p =
      [] := by
    refine List.filter_eq_nil_iff.mpr fun y hy hpy => ?_
    have hle := hleast y (hrest y ((List.takeWhile_sublist _).subset hy)) hpy
    exact of_decide_eq_true (List.all_eq_true.mp List.all_takeWhile y hy) hle
  show ((List.orderedInsert (fun a b =>
    key a ≤ key b) x (orderBy key (rows.erase x))).filter p).head? = _
  rw [List.orderedInsert_eq_take_drop, List.filter_append, hfront, List.nil_append,
    List.filter_cons_of_pos hp, List.head?_cons]

/-- **What is selected from every ordering is one list** if and only if its keys are strictly
increasing. -/
theorem filter_ordering_eq_iff {key : α → κ} {rows out : List α} {p : α → Bool}
    (hrows : rows.Nodup) :
    (∀ listed, IsOrdering key rows listed → listed.filter p = out) ↔
      out.Perm (rows.filter p) ∧ out.Pairwise fun a b => key a < key b := by
  classical
  constructor
  · intro h
    have hfirst := isOrdering_orderBy key (List.Perm.refl rows)
    obtain rfl := h _ hfirst
    have hnodup : ((orderBy key rows).filter p).Nodup := (hfirst.1.nodup_iff.mpr hrows).filter p
    refine ⟨hfirst.1.filter p, List.pairwise_iff_forall_sublist.mpr fun {a b} hab => ?_⟩
    have hle : key a ≤ key b := (hfirst.2.filter p).forall_sublist hab
    refine lt_of_le_of_ne hle fun hkey => ?_
    -- the ordering in which `b` comes first
    have hmem : ∀ x ∈ [a, b], x ∈ rows ∧ p x = true := fun x hx => by
      obtain ⟨hx, hp⟩ := List.mem_filter.mp (hab.subset hx)
      exact ⟨hfirst.1.mem_iff.mp hx, hp⟩
    obtain ⟨ha, hpa⟩ := hmem a (by simp)
    obtain ⟨hb, hpb⟩ := hmem b (by simp)
    have hne : a ≠ b := by simpa using hnodup.sublist hab
    have hpair : [b, a].Sublist (b :: rows.erase b) :=
      List.Sublist.cons_cons b (List.singleton_sublist.mpr ((List.mem_erase_of_ne hne).mpr ha))
    have hsecond := isOrdering_orderBy key (List.perm_cons_erase hb).symm
    have hsub := (List.pair_sublist_insertionSort (r := fun a b => key a ≤ key b) hkey.ge
      hpair).filter p
    rw [List.filter_cons_of_pos hpb, List.filter_cons_of_pos hpa, List.filter_nil] at hsub
    rw [← h _ hsecond] at hab hnodup
    exact not_pair_sublist_swap hnodup hab hsub
  · rintro ⟨hperm, hlt⟩ listed ⟨hlisted, hle⟩
    exact eq_of_perm_of_pairwise ((hlisted.filter p).trans hperm.symm) (hle.filter p) hlt

end OrderBy

/-! ### `UPDATE … WHERE` -/

section Update
variable {α β : Type*} {rows : List α}

/-- The rows after `UPDATE … SET … WHERE …`. -/
def updateWhere (p : α → Bool) (set : α → α) (rows : List α) : List α :=
  rows.map fun r => if p r then set r else r

theorem mem_updateWhere {p : α → Bool} {set : α → α} {r' : α} :
    r' ∈ updateWhere p set rows ↔ (∃ r ∈ rows, p r = true ∧ set r = r') ∨
      (r' ∈ rows ∧ p r' = false) := by
  rw [updateWhere, List.mem_map]
  constructor
  · rintro ⟨r, hr, rfl⟩
    by_cases hp : p r
    · exact Or.inl ⟨r, hr, hp, by rw [if_pos hp]⟩
    · rw [if_neg hp]
      exact Or.inr ⟨hr, by simpa using hp⟩
  · rintro (⟨r, hr, hp, rfl⟩ | ⟨hr, hp⟩)
    · exact ⟨r, hr, by rw [if_pos hp]⟩
    · exact ⟨r', hr, by simp [hp]⟩

theorem map_updateWhere {p : α → Bool} {set : α → α} {col : α → β}
    (h : ∀ r, col (set r) = col r) (rows : List α) :
    (updateWhere p set rows).map col = rows.map col := by
  rw [updateWhere, List.map_map]
  refine List.map_congr_left fun r _ => ?_
  show col (if p r then set r else r) = col r
  split_ifs
  · exact h r
  · rfl

theorem countP_updateWhere_lt {p q : α → Bool} {set : α → α} (hset : ∀ r, q (set r) = false)
    {r : α} (hr : r ∈ rows) (hp : p r = true) (hq : q r = true) :
    (updateWhere p set rows).countP q < rows.countP q := by
  have hle : ∀ rows : List α, (updateWhere p set rows).countP q ≤ rows.countP q := by
    intro rows
    rw [updateWhere, List.countP_map]
    refine List.countP_mono_left fun x _ hx => ?_
    by_cases hpx : p x
    · simp [Function.comp, hpx, hset] at hx
    · simpa [Function.comp, hpx] using hx
  obtain ⟨before, after, rfl⟩ := List.append_of_mem hr
  have hb := hle before
  have ha := hle after
  have hone : q (if p r then set r else r) = false := by rw [if_pos hp, hset]
  simp only [updateWhere, List.map_append, List.map_cons, List.countP_append, List.countP_cons,
    hone, hq] at hb ha ⊢
  simp only [Bool.false_eq_true, if_false, if_true]
  omega

theorem sum_updateWhere_le {p : α → Bool} {set : α → α} {weight : α → ℕ}
    (hset : ∀ r ∈ rows, p r = true → weight (set r) ≤ weight r) :
    ((updateWhere p set rows).map weight).sum ≤ (rows.map weight).sum := by
  rw [updateWhere, List.map_map]
  refine List.sum_le_sum fun r hr => ?_
  by_cases hp : p r = true
  · simpa [Function.comp, hp] using hset r hr hp
  · simp [Function.comp, hp]

theorem sum_updateWhere_lt {p : α → Bool} {set : α → α} {weight : α → ℕ}
    (hset : ∀ r ∈ rows, p r = true → weight (set r) ≤ weight r) {r : α} (hr : r ∈ rows)
    (hp : p r = true) (hlt : weight (set r) < weight r) :
    ((updateWhere p set rows).map weight).sum < (rows.map weight).sum := by
  obtain ⟨before, after, rfl⟩ := List.append_of_mem hr
  have hb : ((updateWhere p set before).map weight).sum ≤ (before.map weight).sum :=
    sum_updateWhere_le fun x hx => hset x (List.mem_append_left _ hx)
  have ha : ((updateWhere p set after).map weight).sum ≤ (after.map weight).sum :=
    sum_updateWhere_le fun x hx => hset x (List.mem_append_right _ (List.mem_cons_of_mem _ hx))
  simp only [updateWhere, List.map_append, List.map_cons, List.sum_append, List.sum_cons,
    if_pos hp] at hb ha ⊢
  omega

/-- The rows after `INSERT … ON CONFLICT (key) DO UPDATE`. -/
def upsertOn [DecidableEq β] (key : α → β) (rows : List α) (row : α) : List α :=
  if key row ∈ rows.map key then updateWhere (fun r => key r = key row) (fun _ => row) rows
  else rows ++ [row]

theorem upsertOn_of_new [DecidableEq β] {key : α → β} {row : α} (h : key row ∉ rows.map key) :
    upsertOn key rows row = rows ++ [row] := if_neg h

theorem eq_of_key {key : α → β} (h : (rows.map key).Nodup) {r r' : α} (hr : r ∈ rows)
    (hr' : r' ∈ rows) (hkey : key r = key r') : r = r' :=
  List.inj_on_of_nodup_map h hr hr' hkey

end Update

end Selfevals.Lib.Sql
