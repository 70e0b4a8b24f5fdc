import Selfevals.Lib.JsonValue

/-!
# Records and their documents

A record type is described by its fields: under which key each is found, the type it is read at, and
what it is when the key is missing. The description dumps a record to an object, every field under
its key, and reads one from an object that has no other key.

* `Fields.read_dump` : a record comes back from its dump.
-/

namespace Selfevals.Lib.Records

open Selfevals.Lib.JsonValue

/-- A type whose values have documents; none of them is `null`. -/
class Document (α : Type) where
  dump : α → Json
  read : Json → Option α
  read_dump : ∀ a, read (dump a) = some a
  dump_ne_null : ∀ a, dump a ≠ .null

open Document (dump read read_dump dump_ne_null)

attribute [simp] Document.read_dump

instance : Document String where
  dump := .str
  read := Json.asStr
  read_dump _ := rfl
  dump_ne_null _ := nofun

instance : Document Object where
  dump := .obj
  read
    | .obj o => some o
    | _ => none
  read_dump _ := rfl
  dump_ne_null _ := nofun

section Items
variable {α : Type} [Document α]

theorem mapM_read_dump (items : List α) : (items.map dump).mapM (read (α := α)) = some items := by
  induction items with
  | nil => rfl
  | cons a items ih => simp [ih]

instance : Document (List α) where
  dump items := .arr (items.map dump)
  read
    | .arr items => items.mapM read
    | _ => none
  read_dump := mapM_read_dump
  dump_ne_null _ := nofun

/-- A `dict` from strings. -/
structure Items (α : Type) where
  items : List (String × α)
deriving DecidableEq, Repr

/-- The value of an item is read. -/
def readItem (item : String × Json) : Option (String × α) := (read item.2).map (item.1, ·)

instance : Document (Items α) where
  dump d := .obj (d.items.map fun item => (item.1, dump item.2))
  read
    | .obj o => (o.mapM readItem).map .mk
    | _ => none
  read_dump d := by
    have hitems : (d.items.map fun item => (item.1, dump item.2)).mapM (readItem (α := α)) =
        some d.items := by
      induction d.items with
      | nil => rfl
      | cons item items ih => simp [readItem, ih]
    show ((d.items.map fun item => (item.1, dump item.2)).mapM readItem).map _ = _
    rw [hitems]
    rfl
  dump_ne_null _ := nofun

/-- `null`, or a value. -/
def dumpOpt (a : Option α) : Json := (a.map dump).getD .null

/-- A value that may be null. -/
def readOpt : Json → Option (Option α)
  | .null => some none
  | j => (read j).map some

@[simp] theorem readOpt_dumpOpt (a : Option α) : readOpt (dumpOpt a) = some a := by
  cases a with
  | none => rfl
  | some a =>
    show readOpt (dump a) = _
    unfold readOpt
    split
    · next h => exact absurd h (dump_ne_null a)
    · rw [read_dump]
      rfl

end Items

/-! ### Fields -/

/-- The fields of the records `σ`: how those of a value `β` that is made of them are read. -/
inductive Fields (σ : Type) : Type → Type 1
  | pure {β : Type} (make : β) : Fields σ β
  /-- One more field, by its key, with what a missing key reads as. -/
  | field {α β : Type} (rest : Fields σ (α → β)) (key : String) (print : α → Json)
    (parse : Json → Option α) (back : ∀ a, parse (print a) = some a) (get : σ → α)
    (missing : Option α) : Fields σ β

namespace Fields
variable {σ α β : Type}

/-- A field without a default. -/
def req [Document α] (rest : Fields σ (α → β)) (key : String) (get : σ → α) : Fields σ β :=
  .field rest key dump read read_dump get none

/-- A field with a default. -/
def dft [Document α] (rest : Fields σ (α → β)) (key : String) (get : σ → α) (default : α) :
    Fields σ β :=
  .field rest key dump read read_dump get (some default)

/-- A field that may be `null`, as it is by default. -/
def opt [Document α] (rest : Fields σ (Option α → β)) (key : String) (get : σ → Option α) :
    Fields σ β :=
  .field rest key dumpOpt readOpt readOpt_dumpOpt get (some none)

/-- The keys, the last one first. -/
def keys {β : Type} : Fields σ β → List String
  | .pure _ => []
  | .field rest key .. => key :: rest.keys

/-- What the fields of a record write. -/
def dumpAll {β : Type} : Fields σ β → σ → Object
  | .pure _, _ => []
  | .field rest key print _ _ get _, s => rest.dumpAll s ++ [(key, print (get s))]

/-- What the fields of a record read. -/
def readAll {β : Type} : Fields σ β → Object → Option β
  | .pure make, _ => some make
  | .field rest key _ parse _ _ missing, o => do
    let make ← rest.readAll o
    let a ← match o.lookup key with
      | some j => parse j
      | none => missing
    return make a

section
variable [Document α] {key : String}

@[simp] theorem keys_req (F : Fields σ (α → β)) (get : σ → α) :
    (F.req key get).keys = key :: F.keys := rfl

@[simp] theorem keys_dft (F : Fields σ (α → β)) (get : σ → α) (default : α) :
    (F.dft key get default).keys = key :: F.keys := rfl

@[simp] theorem keys_opt (F : Fields σ (Option α → β)) (get : σ → Option α) :
    (F.opt key get).keys = key :: F.keys := rfl

@[simp] theorem dumpAll_req (F : Fields σ (α → β)) (get : σ → α) (s : σ) :
    (F.req key get).dumpAll s = F.dumpAll s ++ [(key, dump (get s))] := rfl

@[simp] theorem dumpAll_dft (F : Fields σ (α → β)) (get : σ → α) (default : α) (s : σ) :
    (F.dft key get default).dumpAll s = F.dumpAll s ++ [(key, dump (get s))] := rfl

@[simp] theorem dumpAll_opt (F : Fields σ (Option α → β)) (get : σ → Option α) (s : σ) :
    (F.opt key get).dumpAll s = F.dumpAll s ++ [(key, dumpOpt (get s))] := rfl

end

/-- What the fields of a record make. -/
def remake {β : Type} : Fields σ β → σ → β
  | .pure make, _ => make
  | .field rest _ _ _ _ get _, s => rest.remake s (get s)

theorem keys_dumpAll {β : Type} (F : Fields σ β) (s : σ) :
    (F.dumpAll s).map Prod.fst = F.keys.reverse := by
  induction F with
  | pure => rfl
  | field rest key _ _ _ _ _ ih => simp [dumpAll, keys, ih]

theorem isSome_lookup_dumpAll {β : Type} {F : Fields σ β} {key : String} (h : key ∈ F.keys)
    (s : σ) : ((F.dumpAll s).lookup key).isSome := by
  rw [← List.mem_reverse, ← keys_dumpAll F s] at h
  obtain ⟨p, hp, rfl⟩ := List.mem_map.mp h
  rw [Option.isSome_iff_ne_none, ne_eq, List.lookup_eq_none_iff]
  intro hnone
  exact absurd rfl (bne_iff_ne.mp (hnone p hp))

theorem lookup_dumpAll_eq_none {β : Type} {F : Fields σ β} {s : σ} {key : String}
    (h : key ∉ F.keys) : (F.dumpAll s).lookup key = none := by
  rw [List.lookup_eq_none_iff]
  intro p hp
  have hmem : p.1 ∈ F.keys := by
    rw [← List.mem_reverse, ← keys_dumpAll F s]
    exact List.mem_map_of_mem hp
  exact bne_iff_ne.mpr fun heq : key = p.1 => h (heq ▸ hmem)

theorem readAll_dumpAll {β : Type} {F : Fields σ β} (hnodup : F.keys.Nodup) (s : σ)
    (more : Object) : F.readAll (F.dumpAll s ++ more) = some (F.remake s) := by
  induction F generalizing more with
  | pure => simp [readAll, remake]
  | field rest key print parse back get missing ih =>
    obtain ⟨hnew, hrest⟩ := List.nodup_cons.mp hnodup
    have hlookup : (rest.dumpAll s ++ ((key, print (get s)) :: more)).lookup key =
        some (print (get s)) := by
      rw [List.lookup_append, lookup_dumpAll_eq_none hnew]
      simp
    rw [dumpAll, List.append_assoc, List.singleton_append, readAll, ih hrest, hlookup]
    simp [back, remake]

/-- Reading refuses a key that is no field's. -/
def read (F : Fields σ σ) (o : Object) : Option σ :=
  if o.all fun item => F.keys.contains item.1 then F.readAll o else none

theorem read_dump {F : Fields σ σ} (hnodup : F.keys.Nodup) (hremake : ∀ s, F.remake s = s)
    (s : σ) : F.read (F.dumpAll s) = some s := by
  have hkeys : (F.dumpAll s).all fun item => F.keys.contains item.1 := by
    rw [List.all_eq_true]
    intro item hitem
    have hmem := List.mem_map_of_mem (f := Prod.fst) hitem
    rw [keys_dumpAll, List.mem_reverse] at hmem
    simpa using hmem
  unfold read
  rw [if_pos hkeys]
  have hback := readAll_dumpAll hnodup s []
  rwa [List.append_nil, hremake] at hback

/-- Records as the values of fields: the keys are distinct, and the fields make the record. -/
@[reducible] def document (F : Fields σ σ) (hnodup : F.keys.Nodup := by exact of_decide_eq_true rfl)
    (hremake : ∀ s, F.remake s = s := by exact fun _ => rfl) : Document σ where
  dump s := .obj (F.dumpAll s)
  read
    | .obj o => F.read o
    | _ => none
  read_dump := F.read_dump hnodup hremake
  dump_ne_null _ := nofun

end Fields

end Selfevals.Lib.Records
