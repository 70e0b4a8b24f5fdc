import Selfevals.Lib.Result
import Selfevals.Lib.Sql

/-!
# A database with keys and checks

Rows hold a value under each column. A schema says of each table which columns are a key and what is
checked of a row; a `Db` is rows that pass, and a statement that would leave rows that do not is
refused. `NULL` passes every check but `NOT NULL`, and is equal to nothing.

* `rows_insertAll`, `insertAll_of_accepts`: what a list of inserts leaves, and when all of them
  pass.
-/

namespace Selfevals.Lib.Relational

open Lib.Sql

variable {T C : Type}

/-! ### Rows -/

/-- What a row holds under each column. -/
abbrev Row (C : Type) := C → SqlValue

/-- The row that `INSERT` makes of the values; a column that is not named is `NULL`. -/
def ofValues [BEq C] (columns : List C) (values : List SqlValue) : Row C := fun c =>
  ((columns.zip values).lookup c).getD .null

/-- `SELECT columns`. -/
def project (columns : List C) (row : Row C) : List SqlValue := columns.map row

/-- **Columns are read as they were written**, after the first `n`. -/
theorem project_drop [DecidableEq C] (n : ℕ) {columns : List C} {values : List SqlValue}
    (hnodup : columns.Nodup) (hlen : columns.length = values.length) :
    project (columns.drop n) (ofValues columns values) = values.drop n := by
  induction columns generalizing n values with
  | nil =>
    obtain rfl := List.eq_nil_of_length_eq_zero hlen.symm
    simp [project]
  | cons c columns ih =>
    obtain _ | ⟨v, values⟩ := values
    · simp at hlen
    rw [List.nodup_cons] at hnodup
    have hhead : ofValues (c :: columns) (v :: values) c = v := by simp [ofValues]
    have htail : ∀ d ∈ columns,
        ofValues (c :: columns) (v :: values) d = ofValues columns values d := by
      intro d hd
      have hne : (d == c) = false := beq_false_of_ne fun heq => hnodup.1 (heq ▸ hd)
      simp [ofValues, List.lookup_cons, hne]
    have hrest : ∀ n, project (columns.drop n) (ofValues (c :: columns) (v :: values)) =
        values.drop n := by
      intro n
      rw [← ih n hnodup.2 (by simpa using hlen)]
      exact List.map_congr_left fun d hd => htail d (List.mem_of_mem_drop hd)
    obtain _ | n := n
    · have hall := hrest 0
      rw [List.drop_zero, List.drop_zero] at hall
      show ofValues (c :: columns) (v :: values) c :: project columns _ = v :: values
      rw [hhead, hall]
    · exact hrest n

/-- A value of a row that was fetched, by its place. -/
def cell {α : Type} [SqlCodec α] (r : List SqlValue) (i : ℕ) : Option α :=
  SqlCodec.decode (r.toArray[i]?.getD .null)

theorem bind_of_eq_some {α β : Type} {x : Option α} {a : α} (h : x = some a) (f : α → Option β) :
    (x >>= f) = f a := by
  rw [h]
  rfl

/-- The number in a column that rows are ordered by. -/
def intAt (c : C) (row : Row C) : ℤ :=
  match row c with
  | .int n => n
  | _ => 0

/-- The text in a column that rows are ordered by. -/
def textAt (c : C) (row : Row C) : String :=
  match row c with
  | .text s => s
  | _ => ""

/-- **Rows written with their positions are read back in their order.** -/
theorem mapM_orderBy_zipIdx {α : Type} {items : List α} {f : α × ℕ → Row C} {c : C}
    {columns : List C} {g : List SqlValue → Option α} (hpos : ∀ p, f p c = .int p.2)
    (hread : ∀ p ∈ items.zipIdx, g (project columns (f p)) = some p.1) :
    ((orderBy (intAt c) (items.zipIdx.map f)).map (project columns)).mapM g = some items := by
  have hint : ∀ p, intAt c (f p) = p.2 := fun p => by simp [intAt, hpos]
  have horder : (items.zipIdx.map f).Pairwise fun a b => intAt c a ≤ intAt c b := by
    refine List.pairwise_map.mpr ((pairwise_zipIdx items).imp fun {a b} hab => ?_)
    rw [hint, hint]
    exact Int.ofNat_le.mpr hab
  rw [orderBy_of_pairwise horder, List.map_map]
  exact mapM_zipIdx hread

/-- **Rows are read as the items they were written from**, in the order of a column. -/
theorem mapM_orderBy_map {α κ : Type} [LinearOrder κ] {items : List α} {f : α → Row C}
    {key : Row C → κ} {columns : List C} {g : List SqlValue → Option α}
    (hread : ∀ a ∈ items, g (project columns (f a)) = some a) :
    ((orderBy key (items.map f)).map (project columns)).mapM g =
      some (orderBy (fun a => key (f a)) items) := by
  have hsort : orderBy key (items.map f) = (orderBy (fun a => key (f a)) items).map f :=
    (List.map_insertionSort _ _ f items fun _ _ _ _ => Iff.rfl).symm
  rw [hsort, List.map_map]
  refine mapM_map_some fun a ha => hread a ?_
  exact (orderBy_perm _ items).mem_iff.mp ha

/-- `a = b`, for the types keys are made of. -/
def sqlEq : SqlValue → SqlValue → Bool
  | .int m, .int n => m == n
  | .text s, .text t => s == t
  | _, _ => false

theorem sqlEq_symm (v w : SqlValue) : sqlEq v w = sqlEq w v := by
  cases v <;> cases w <;> simp [sqlEq, Bool.beq_comm]

@[simp] theorem sqlEq_text (s t : String) : sqlEq (.text s) (.text t) = (s == t) := rfl

@[simp] theorem sqlEq_int (m n : ℤ) : sqlEq (.int m) (.int n) = (m == n) := rfl

theorem eq_of_sqlEq {v w : SqlValue} (h : sqlEq v w = true) : v = w := by
  cases v <;> cases w <;> simp_all [sqlEq]

/-- Two rows have one key. -/
def sameKey (key : List C) (r r' : Row C) : Bool := key.all fun c => sqlEq (r c) (r' c)

theorem sameKey_symm (key : List C) (r r' : Row C) : sameKey key r r' = sameKey key r' r :=
  List.all_congr rfl fun c => sqlEq_symm (r c) (r' c)

theorem sameKey_eq_false {key : List C} {r r' : Row C} {c : C} (hc : c ∈ key)
    (h : sqlEq (r c) (r' c) = false) : sameKey key r r' = false :=
  List.all_eq_false.mpr ⟨c, hc, by simp [h]⟩

theorem pairwise_positions {α : Type} {items : List α} {f : α × ℕ → Row C} {c : C} {key : List C}
    (hc : c ∈ key) (hpos : ∀ p, f p c = .int p.2) :
    (items.zipIdx.map f).Pairwise fun r r' => sameKey key r r' = false := by
  refine List.pairwise_map.mpr ((pairwise_lt_zipIdx items).imp fun {a b} hab => ?_)
  refine sameKey_eq_false hc ?_
  rw [hpos, hpos, sqlEq_int]
  exact beq_false_of_ne fun heq => hab.ne (Int.ofNat_inj.mp heq)

/-- A row has a text under a column. -/
def hasText (c : C) (s : String) (row : Row C) : Bool := sqlEq (row c) (.text s)

theorem hasText_iff {c : C} {s : String} {row : Row C} : hasText c s row = true ↔ row c = .text s :=
  ⟨eq_of_sqlEq, fun h => by simp [hasText, h]⟩

/-! ### Schemas -/

/-- A constraint on one row. -/
inductive Check (C : Type)
  | notNull (c : C)
  | oneOf (c : C) (values : List String)
  | atLeast (c : C) (n : ℤ)

/-- The row meets the constraint. -/
def Check.holds (row : Row C) : Check C → Bool
  | .notNull c =>
    match row c with
    | .null => false
    | _ => true
  | .oneOf c values =>
    match row c with
    | .null => true
    | .text s => values.contains s
    | _ => false
  | .atLeast c n =>
    match row c with
    | .null => true
    | .int m => n ≤ m
    | _ => false

/-- The constraints of each table, and its keys. -/
structure Schema (T C : Type) where
  checks : T → List (Check C)
  /-- The primary key and the `UNIQUE` columns. -/
  keys : T → List (List C)

variable {S : Schema T C} {t : T} {rows : List (Row C)}

/-- The rows may stand in the table. -/
def Schema.Accepts (S : Schema T C) (t : T) (rows : List (Row C)) : Prop :=
  (∀ row ∈ rows, (S.checks t).all (·.holds row) = true) ∧
    ∀ key ∈ S.keys t, rows.Pairwise fun r r' => sameKey key r r' = false
deriving Decidable

theorem accepts_nil : S.Accepts t [] := ⟨by simp, by simp⟩

theorem Schema.Accepts.sublist {rows' : List (Row C)} (h : S.Accepts t rows)
    (hsub : rows'.Sublist rows) : S.Accepts t rows' :=
  ⟨fun row hrow => h.1 row (hsub.subset hrow), fun key hkey => (h.2 key hkey).sublist hsub⟩

/-- **The rows of one owner may be replaced**: where every key names the owner, they clash with no
row of another. -/
theorem accepts_replaced {owner : C} {id : String} {old new : List (Row C)} (hold : S.Accepts t old)
    (hnew : S.Accepts t new) (hkeys : ∀ key ∈ S.keys t, owner ∈ key)
    (hown : ∀ row ∈ new, hasText owner id row = true) :
    S.Accepts t (old.filter (fun row => !hasText owner id row) ++ new) := by
  have hrest := hold.sublist (List.filter_sublist (p := fun row => !hasText owner id row))
  refine ⟨fun row hrow => ?_, fun key hkey => ?_⟩
  · obtain hrow | hrow := List.mem_append.mp hrow
    · exact hrest.1 row hrow
    · exact hnew.1 row hrow
  · refine List.pairwise_append.mpr ⟨hrest.2 key hkey, hnew.2 key hkey, fun r hr r' hr' => ?_⟩
    have hother := (List.mem_filter.mp hr).2
    have hcell : r' owner = .text id := hasText_iff.mp (hown r' hr')
    refine sameKey_eq_false (hkeys key hkey) ?_
    rw [hcell]
    simpa [hasText] using hother

/-! ### Statements -/

/-- Rows for each table, all of them accepted. -/
structure Db (S : Schema T C) where
  rows : T → List (Row C)
  accepted : ∀ t, S.Accepts t (rows t)

/-- A key or a check that a statement would violate, in a table. -/
structure Violation (T : Type) where
  table : T
deriving DecidableEq, Repr

namespace Db

/-- Tables without rows. -/
def empty : Db S := ⟨fun _ => [], fun _ => accepts_nil⟩

/-- The database with other rows in the tables of a deletion. -/
def keepWhere (keep : T → Row C → Bool) (db : Db S) : Db S where
  rows t := (db.rows t).filter (keep t)
  accepted t := (db.accepted t).sublist List.filter_sublist

variable [DecidableEq T]

/-- `DELETE FROM table WHERE …`. -/
def deleteWhere (db : Db S) (table : T) (p : Row C → Bool) : Db S :=
  db.keepWhere fun t row => !(decide (t = table) && p row)

theorem rows_deleteWhere (db : Db S) (table : T) (p : Row C → Bool) (t : T) :
    (db.deleteWhere table p).rows t =
      if t = table then (db.rows t).filter fun row => !p row else db.rows t := by
  show (db.rows t).filter _ = _
  split_ifs with heq
  · simp [heq]
  · simp [heq]

/-- A statement that would leave these rows in a table. -/
def setRows (db : Db S) (t : T) (rows : List (Row C)) : Except (Violation T) (Db S) :=
  if h : S.Accepts t rows then
    .ok {
      rows := Function.update db.rows t rows
      accepted := fun t' => by
        by_cases ht : t' = t
        · subst ht
          rwa [Function.update_self]
        · rw [Function.update_of_ne ht]
          exact db.accepted t' }
  else .error ⟨t⟩

theorem setRows_eq_ok {db db' : Db S} (h : db.setRows t rows = .ok db') :
    S.Accepts t rows ∧ db'.rows = Function.update db.rows t rows := by
  unfold setRows at h
  split_ifs at h with hacc
  obtain rfl := Except.ok.inj h
  exact ⟨hacc, rfl⟩

theorem setRows_of_accepts (db : Db S) (h : S.Accepts t rows) :
    ∃ db', db.setRows t rows = .ok db' ∧ db'.rows = Function.update db.rows t rows :=
  ⟨_, dif_pos h, rfl⟩

/-! ### `INSERT` -/

variable [DecidableEq C]

/-- `INSERT INTO table (columns) VALUES (values)`. -/
structure Insert (T C : Type) where
  table : T
  columns : List C
  values : List SqlValue

/-- The row that an `INSERT` writes. -/
def Insert.row (ins : Insert T C) : Row C := ofValues ins.columns ins.values

/-- An `INSERT`, or the constraint that it violates. -/
def insert (db : Db S) (ins : Insert T C) : Except (Violation T) (Db S) :=
  db.setRows ins.table (db.rows ins.table ++ [ins.row])

/-- One insert after another; the first that is refused ends the transaction. -/
def insertAll (db : Db S) (inserts : List (Insert T C)) : Except (Violation T) (Db S) :=
  inserts.foldlM insert db

/-- The rows a list of inserts adds to a table. -/
def added (t : T) (inserts : List (Insert T C)) : List (Row C) :=
  (inserts.filter (·.table = t)).map (·.row)

theorem added_cons (t : T) (ins : Insert T C) (inserts : List (Insert T C)) :
    added t (ins :: inserts) = (if ins.table = t then [ins.row] else []) ++ added t inserts := by
  unfold added
  split_ifs with h <;> simp [h]

theorem added_append (t : T) (xs ys : List (Insert T C)) :
    added t (xs ++ ys) = added t xs ++ added t ys := by
  simp [added]

theorem added_flatMap {α : Type} (t : T) (items : List α) (f : α → List (Insert T C)) :
    added t (items.flatMap f) = items.flatMap fun a => added t (f a) := by
  simp [added, List.filter_flatMap, List.map_flatMap]

theorem mem_added {t : T} {inserts : List (Insert T C)} {row : Row C} :
    row ∈ added t inserts ↔ ∃ ins ∈ inserts, ins.table = t ∧ ins.row = row := by
  simp [added, and_assoc]

theorem added_eq_nil {t : T} {inserts : List (Insert T C)} (h : ∀ ins ∈ inserts, ins.table ≠ t) :
    added t inserts = [] := by
  unfold added
  rw [List.filter_eq_nil_iff.mpr fun ins hins => by simpa using h ins hins]
  rfl

theorem added_eq_map {t : T} {inserts : List (Insert T C)} (h : ∀ ins ∈ inserts, ins.table = t) :
    added t inserts = inserts.map (·.row) := by
  unfold added
  rw [List.filter_eq_self.mpr fun ins hins => by simpa using h ins hins]

theorem added_of_table {t₀ : T} {inserts : List (Insert T C)} (h : ∀ ins ∈ inserts, ins.table = t₀)
    (t : T) : added t inserts = if t = t₀ then inserts.map (·.row) else [] := by
  split_ifs with ht
  · exact added_eq_map fun ins hins => (h ins hins).trans ht.symm
  · exact added_eq_nil fun ins hins heq => ht (heq.symm.trans (h ins hins))

/-- **What a list of inserts leaves.** -/
theorem insertAll_of_accepts (db : Db S) (inserts : List (Insert T C))
    (h : ∀ t, S.Accepts t (db.rows t ++ added t inserts)) :
    ∃ db', db.insertAll inserts = .ok db' ∧ ∀ t, db'.rows t = db.rows t ++ added t inserts := by
  induction inserts generalizing db with
  | nil => exact ⟨db, rfl, fun t => by simp [added]⟩
  | cons ins inserts ih =>
    have hfirst : S.Accepts ins.table (db.rows ins.table ++ [ins.row]) := by
      refine (h ins.table).sublist (List.Sublist.append_left ?_ _)
      rw [added_cons, if_pos rfl]
      exact List.sublist_append_left _ _
    obtain ⟨db₁, hins, hrows⟩ := setRows_of_accepts db hfirst
    have hrows₁ : ∀ t, db₁.rows t = db.rows t ++ if ins.table = t then [ins.row] else [] := by
      intro t
      rw [hrows]
      by_cases ht : ins.table = t
      · subst ht
        rw [Function.update_self, if_pos rfl]
      · rw [Function.update_of_ne (Ne.symm ht), if_neg ht, List.append_nil]
    obtain ⟨db', hall, hrows'⟩ := ih db₁ fun t => by
      have := h t
      rwa [added_cons, ← List.append_assoc, ← hrows₁] at this
    refine ⟨db', ?_, fun t => ?_⟩
    · unfold insertAll
      rw [List.foldlM_cons]
      show (db.insert ins >>= fun db => db.insertAll inserts) = _
      rw [insert, hins]
      exact hall
    · rw [hrows', hrows₁, added_cons, List.append_assoc]

theorem rows_insertAll {db db' : Db S} {inserts : List (Insert T C)}
    (h : db.insertAll inserts = .ok db') (t : T) :
    db'.rows t = db.rows t ++ added t inserts := by
  induction inserts generalizing db with
  | nil =>
    obtain rfl := Except.ok.inj h
    simp [added]
  | cons ins inserts ih =>
    obtain ⟨db₁, hins, hall⟩ := Result.bind_eq_ok.mp (show
      (db.insert ins >>= fun db => db.insertAll inserts) = .ok db' by
        simpa [insertAll] using h)
    obtain ⟨-, hrows⟩ := setRows_eq_ok hins
    rw [ih hall, hrows, added_cons]
    by_cases ht : ins.table = t
    · subst ht
      rw [Function.update_self, if_pos rfl, List.append_assoc]
    · rw [Function.update_of_ne (Ne.symm ht), if_neg ht, List.nil_append]

/-! ### `INSERT … ON CONFLICT` -/

/-- The row after `DO UPDATE SET`. -/
def updated (columns : List C) (row new : Row C) : Row C := fun c =>
  if c ∈ columns then new c else row c

/-- The rows after `INSERT … ON CONFLICT (id) DO UPDATE SET columns`. -/
def upsertRows (idColumn : C) (columns : List C) (rows : List (Row C)) (new : Row C) :
    List (Row C) :=
  if rows.any fun row => sqlEq (row idColumn) (new idColumn) then
    rows.map fun row =>
      if sqlEq (row idColumn) (new idColumn) then updated columns row new else row
  else rows ++ [new]

end Db

section Upsert
variable [DecidableEq C] {idColumn : C} {columns : List C} {rows : List (Row C)} {new : Row C}
  {id : String}

theorem updated_of_not_mem {c : C} (hc : c ∉ columns) (row new : Row C) :
    Db.updated columns row new c = row c := if_neg hc

theorem hasText_updated (hid : idColumn ∉ columns) (row new : Row C) (s : String) :
    hasText idColumn s (Db.updated columns row new) = hasText idColumn s row := by
  unfold hasText
  rw [updated_of_not_mem hid]

theorem upsertRows_of_stored (hnew : new idColumn = .text id)
    (h : rows.filter (hasText idColumn id) ≠ []) :
    Db.upsertRows idColumn columns rows new =
      rows.map fun row => if hasText idColumn id row then Db.updated columns row new else row := by
  unfold Db.upsertRows
  rw [hnew, if_pos]
  · rfl
  · obtain ⟨row, hrow⟩ := List.exists_mem_of_ne_nil _ h
    exact List.any_eq_true.mpr ⟨row, List.mem_filter.mp hrow⟩

theorem upsertRows_of_new (hnew : new idColumn = .text id)
    (h : rows.filter (hasText idColumn id) = []) :
    Db.upsertRows idColumn columns rows new = rows ++ [new] := by
  unfold Db.upsertRows
  rw [hnew, if_neg]
  intro hany
  obtain ⟨row, hrow, hid⟩ := List.any_eq_true.mp hany
  exact List.filter_eq_nil_iff.mp h row hrow hid

/-- **What is stored under each id after an upsert.** -/
theorem filter_upsertRows (hid : idColumn ∉ columns) (hnew : new idColumn = .text id) (s : String) :
    (Db.upsertRows idColumn columns rows new).filter (hasText idColumn s) =
      if s = id then
        if rows.filter (hasText idColumn id) = [] then [new]
        else (rows.filter (hasText idColumn id)).map fun row => Db.updated columns row new
      else rows.filter (hasText idColumn s) := by
  have hkey : hasText idColumn s new = decide (s = id) := by
    unfold hasText
    rw [hnew, sqlEq_text, Bool.eq_iff_iff, beq_iff_eq, decide_eq_true_iff, eq_comm]
  by_cases hstored : rows.filter (hasText idColumn id) = []
  · rw [upsertRows_of_new hnew hstored, List.filter_append, List.filter_singleton, hkey]
    by_cases hs : s = id
    · subst hs
      simp [hstored]
    · simp [hs]
  · rw [upsertRows_of_stored hnew hstored, List.filter_map]
    have hcomp : (hasText idColumn s ∘ fun row =>
        if hasText idColumn id row then Db.updated columns row new else row) =
        hasText idColumn s := by
      funext row
      rw [Function.comp_apply]
      split_ifs
      · exact hasText_updated hid row new s
      · rfl
    rw [hcomp]
    by_cases hs : s = id
    · subst hs
      rw [if_pos rfl, if_neg hstored]
      exact List.map_congr_left fun row hrow => if_pos (List.mem_filter.mp hrow).2
    · rw [if_neg hs]
      refine (List.map_congr_left fun row hrow => if_neg fun hrow' => hs ?_).trans (List.map_id _)
      have hboth := (hasText_iff.mp (List.mem_filter.mp hrow).2).symm.trans (hasText_iff.mp hrow')
      exact SqlValue.text.inj hboth

end Upsert

/-! ### The rows of one owner -/

/-- **The rows of each owner after those of one are replaced.** -/
theorem filter_replaced {owner : C} {id : String} {old new : List (Row C)}
    (hown : ∀ row ∈ new, hasText owner id row = true) (s : String) :
    (old.filter (fun row => !hasText owner id row) ++ new).filter (hasText owner s) =
      if s = id then new else old.filter (hasText owner s) := by
  have hother : ∀ row :
    Row C, s ≠ id → hasText owner s row = true → hasText owner id row = false := by
    intro row hs hrow
    by_contra hid
    rw [Bool.not_eq_false] at hid
    exact hs (SqlValue.text.inj ((hasText_iff.mp hrow).symm.trans (hasText_iff.mp hid)))
  rw [List.filter_append, List.filter_filter]
  split_ifs with hs
  · subst hs
    rw [List.filter_eq_self.mpr hown, List.filter_eq_nil_iff.mpr fun row _ => by simp,
      List.nil_append]
  · have hnew : new.filter (hasText owner s) = [] := by
      refine List.filter_eq_nil_iff.mpr fun row hrow hrow' => ?_
      have := hother row hs hrow'
      simp [hown row hrow] at this
    rw [hnew, List.append_nil]
    refine List.filter_congr fun row _ => ?_
    cases hrow : hasText owner s row with
    | false => rfl
    | true => simp [hother row hs hrow]

section Progress
variable [DecidableEq T] [DecidableEq C] {main : T} {owner : C} {id : String} {db₀ db : Db S}
  {cleared : T → Prop} [DecidablePred cleared] {done : List (Db.Insert T C)}

/-- How far the tables besides `main` are written anew for an owner: its rows are gone from some,
and some are inserted. -/
def Progress (main : T) (owner : C) (id : String) (db₀ db : Db S) (cleared : T → Prop)
    [DecidablePred cleared] (done : List (Db.Insert T C)) : Prop :=
  ∀ t, t ≠ main → db.rows t =
    (if cleared t then (db₀.rows t).filter fun row => !hasText owner id row else db₀.rows t) ++
      Db.added t done

theorem Progress.clear (h : Progress main owner id db₀ db cleared done) (table : T)
    (hdone : Db.added table done = []) (hnot : ¬cleared table) :
    Progress main owner id db₀ (db.deleteWhere table (hasText owner id))
      (fun t => cleared t ∨ t = table) done := by
  intro t ht
  rw [Db.rows_deleteWhere, h t ht]
  by_cases heq : t = table
  · subst heq
    rw [if_pos rfl, if_neg hnot, if_pos (Or.inr rfl), hdone, List.append_nil, List.append_nil]
  · rw [if_neg heq]
    simp only [heq, or_false]

theorem Progress.append (h : Progress main owner id db₀ db cleared done) {db' : Db S}
    {part : List (Db.Insert T C)} (hins : db.insertAll part = .ok db') :
    Progress main owner id db₀ db' cleared (done ++ part) := by
  intro t ht
  rw [Db.rows_insertAll hins, h t ht, Db.added_append, List.append_assoc]

theorem Progress.insert (h : Progress main owner id db₀ db cleared done)
    (part : List (Db.Insert T C))
    (hpart : ∀ t, Db.added t part ≠ [] → t ≠ main ∧ cleared t ∧ Db.added t done = [] ∧
      S.Accepts t (Db.added t part) ∧ (∀ key ∈ S.keys t, owner ∈ key) ∧
      ∀ row ∈ Db.added t part, hasText owner id row = true) :
    ∃ db', db.insertAll part = .ok db' ∧ db'.rows main = db.rows main ∧
      Progress main owner id db₀ db' cleared (done ++ part) := by
  have hacc : ∀ t, S.Accepts t (db.rows t ++ Db.added t part) := by
    intro t
    by_cases hnil : Db.added t part = []
    · rw [hnil, List.append_nil]
      exact db.accepted t
    · obtain ⟨hne, hcleared, hdone, hnew, hkeys, hown⟩ := hpart t hnil
      rw [h t hne, if_pos hcleared, hdone, List.append_nil]
      exact accepts_replaced (db₀.accepted t) hnew hkeys hown
  obtain ⟨db', hdb', hrows⟩ := Db.insertAll_of_accepts db part hacc
  refine ⟨db', hdb', ?_, h.append hdb'⟩
  rw [hrows]
  by_contra hnil
  exact (hpart main fun hempty => hnil (by rw [hempty, List.append_nil])).1 rfl

end Progress

/-! ### The rows of one item -/

/-- **The rows of one item**, among those of items with distinct keys. -/
theorem filter_flatMap_key {α ρ : Type} {items : List α} {k : α → String} {f : α → List ρ}
    {key : String → ρ → Bool} (hnodup : (items.map k).Nodup)
    (hown : ∀ a ∈ items, ∀ s, ∀ row ∈ f a, key s row = (k a == s)) {a : α} (ha : a ∈ items) :
    (items.flatMap f).filter (key (k a)) = f a := by
  induction items with
  | nil => simp at ha
  | cons b items ih =>
    rw [List.map_cons, List.nodup_cons] at hnodup
    have hrest : ∀ a ∈ items, ∀ s, ∀ row ∈ f a, key s row = (k a == s) := fun a ha =>
      hown a (List.mem_cons_of_mem _ ha)
    have hb := hown b List.mem_cons_self
    rw [List.flatMap_cons, List.filter_append]
    obtain rfl | ha := List.mem_cons.mp ha
    · have hself : (f a).filter (key (k a)) = f a := by
        refine List.filter_eq_self.mpr fun row hrow => ?_
        rw [hb _ row hrow]
        simp
      have hothers : (items.flatMap f).filter (key (k a)) = [] := by
        refine List.filter_eq_nil_iff.mpr fun row hrow => ?_
        obtain ⟨a', ha', hrow⟩ := List.mem_flatMap.mp hrow
        have hne : k a' ≠ k a := fun heq => hnodup.1 (heq ▸ List.mem_map_of_mem ha')
        rw [hrest a' ha' _ row hrow]
        simpa using hne
      rw [hself, hothers, List.append_nil]
    · have hne : k b ≠ k a := fun heq => hnodup.1 (heq ▸ List.mem_map_of_mem ha)
      have hfirst : (f b).filter (key (k a)) = [] := by
        refine List.filter_eq_nil_iff.mpr fun row hrow => ?_
        rw [hb _ row hrow]
        simpa using hne
      rw [hfirst, List.nil_append, ih hnodup.2 hrest ha]

end Selfevals.Lib.Relational
