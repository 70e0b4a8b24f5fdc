import Selfevals.Lib.Encodings
import Selfevals.Lib.FileTree
import Selfevals.Lib.PyStr
import Selfevals.Lib.Run

/-!
# The object store on the file system

An object lies at `{workspace_id}/{prefix2}/{content_hash_hex}.bin` under the root of the store, and
its pointer names the workspace and the hash. The ids `.` and `..` are accepted, and lead out of the
directory of a workspace.

* `parsePointer_pointerTo`: a pointer parses to what it was made of.
* `Proper.pathFor`, `pathFor_depth`: where the objects of a workspace lie, and where those of `.`
  and `..`.
-/

namespace Selfevals.Storage.ObjectStore

open Lib.Encodings Lib.FileTree Lib.Run

abbrev Path := List String
abbrev Disk := Tree String Bytes

/-! ### Ids and pointers -/

/-- `[A-Za-z0-9._-]`. -/
def isWorkspaceChar (c : Char) : Bool := c.isAlphanum || c == '.' || c == '_' || c == '-'

/-- `_validate_workspace_id`. -/
def validWorkspaceId (workspaceId : String) : Bool :=
  !workspaceId.toList.isEmpty && workspaceId.toList.all isWorkspaceChar

def pointerScheme : String := "oss://"

/-- The text of a pointer. -/
def pointerTo (workspaceId contentHash : String) : String :=
  pointerScheme ++ workspaceId ++ "/" ++ contentHash

/-- `make_pointer`; `none` for a `ValueError`. -/
def makePointer (workspaceId contentHash : String) : Option String :=
  if validWorkspaceId workspaceId && "sha256:".toList.isPrefixOf contentHash.toList &&
      contentHash.toList.length == 71 then
    some (pointerTo workspaceId contentHash)
  else none

/-- `sha256:[0-9a-f]{64}`. -/
def isContentHash (contentHash : List Char) : Bool :=
  "sha256:".toList.isPrefixOf contentHash && (contentHash.drop 7).length == 64 &&
    (contentHash.drop 7).all isHexChar

/-- `parse_pointer`: the workspace and the hash; `none` for a `ValueError`. -/
def parsePointer (pointer : String) : Option (String × String) :=
  if pointerScheme.toList.isPrefixOf pointer.toList then
    let rest := pointer.toList.drop 6
    let workspaceId := rest.takeWhile isWorkspaceChar
    match rest.dropWhile isWorkspaceChar with
    | '/' :: contentHash =>
      -- `$` matches before a newline at the end as well
      let contentHash :=
        if contentHash.getLast? = some '\n' then contentHash.dropLast else contentHash
      if !workspaceId.isEmpty && isContentHash contentHash then
        some (String.ofList workspaceId, String.ofList contentHash)
      else none
    | _ => none
  else none

/-! ### The calls -/

/-- What the store raises. -/
inductive Failure
  | value
  | integrityViolation
  | notFound
  | hashMismatch
  | os
deriving DecidableEq, Repr

section Calls
variable (sha256 : Bytes → Digest) (root : Path)

/-- `bytes_hash`. -/
def bytesHash (data : Bytes) : String := "sha256:" ++ (sha256 data).hex

/-- Where a path leads. -/
def resolve (parts : Path) : Path :=
  parts.foldl (fun path part =>
    if part = "." then path else if part = ".." then path.dropLast else path ++ [part]) root

/-- `content_hash.split(":", 1)[1]`. -/
def hexPart (contentHash : String) : String :=
  ((Lib.PyStr.partition ':' contentHash).map Prod.snd).getD ""

/-- Where an object lies under the root. -/
def objectParts (workspaceId hex : String) : Path :=
  [workspaceId, String.ofList (hex.toList.take 2), hex ++ ".bin"]

/-- `_path_for`; `none` for a `ValueError`. -/
def pathFor (workspaceId contentHash : String) : Option Path :=
  if validWorkspaceId workspaceId then
    let path := resolve root (objectParts workspaceId (hexPart contentHash))
    if root <+: path then some path else none
  else none

/-- `put`. -/
def put (disk : Disk) (workspaceId key : String) (data : Bytes) : Except Failure String × Disk :=
  if !validWorkspaceId workspaceId || key = "" then (.error .value, disk)
  else
    let contentHash := bytesHash sha256 data
    let pointer := match makePointer workspaceId contentHash with
      | some pointer => .ok pointer
      | none => .error .value
    match pathFor root workspaceId contentHash with
    | none => (.error .value, disk)
    | some path =>
      match mkdirs disk path.dropLast with
      | none => (.error .os, disk)
      | some disk =>
        match disk path with
        | none => (pointer, writeFile disk path data)
        | some .dir => (.error .os, disk)
        | some (.file existing) =>
          if existing ≠ data then (.error .integrityViolation, disk) else (pointer, disk)

/-- `get`. -/
def get (disk : Disk) (pointer : String) : Except Failure Bytes :=
  match parsePointer pointer with
  | none => .error .value
  | some (workspaceId, contentHash) =>
    match pathFor root workspaceId contentHash with
    | none => .error .value
    | some path =>
      match disk path with
      | none => .error .notFound
      | some .dir => .error .os
      | some (.file data) =>
        if bytesHash sha256 data ≠ contentHash then .error .hashMismatch else .ok data

/-- `delete`. -/
def delete (disk : Disk) (pointer : String) : Except Failure Unit × Disk :=
  match parsePointer pointer with
  | none => (.error .value, disk)
  | some (workspaceId, contentHash) =>
    match pathFor root workspaceId contentHash with
    | none => (.error .value, disk)
    | some path =>
      match disk path with
      | none => (.error .notFound, disk)
      | some .dir => (.error .os, disk)
      | some (.file _) => (.ok (), unlink disk path)

/-- `clear_workspace`. -/
def clearWorkspace (disk : Disk) (workspaceId : String) : Except Failure Unit × Disk :=
  if !validWorkspaceId workspaceId then (.error .value, disk)
  else if workspaceId = ".." then
    -- the path goes through the root; the directory above it is emptied, and not found when it is
    -- to be removed at last
    match disk root with
    | some .dir =>
      (.error .os,
        fun path => if root.dropLast <+: path ∧ path ≠ root.dropLast then none else disk path)
    | _ => (.ok (), disk)
  else
    let dir := resolve root [workspaceId]
    match disk dir with
    | none => (.ok (), disk)
    | some (.file _) => (.error .os, disk)
    | some .dir => (.ok (), rmtree disk dir)

end Calls

/-! ### Histories -/

/-- The disk, and what was put under each pointer that has not been deleted or cleared since. -/
structure History where
  disk : Disk
  live : String → Option Bytes := fun _ => none

/-- The calls of a store. -/
inductive Op
  | put (workspaceId key : String) (data : Bytes)
  | get (pointer : String)
  | delete (pointer : String)
  | clearWorkspace (workspaceId : String)

/-- The workspace id that a call is on. -/
def Op.workspace : Op → Option String
  | .put workspaceId _ _ => some workspaceId
  | .get _ => none
  | .delete pointer => (parsePointer pointer).map Prod.fst
  | .clearWorkspace workspaceId => some workspaceId

section Histories
variable (sha256 : Bytes → Digest) (root : Path)

/-- A new store, on a disk that holds other things outside its root. -/
def init (others : Disk) : History where
  disk path := if path <+: root then some .dir else if root <+: path then none else others path

/-- A call and what it leaves. -/
def step (s : History) : Op → Option History
  | .put workspaceId key data =>
    match put sha256 root s.disk workspaceId key data with
    | (.ok pointer, disk) => some { disk, live := Function.update s.live pointer (some data) }
    | (.error _, disk) => some { s with disk }
  | .get _ => some s
  | .delete pointer => some {
      disk := (delete root s.disk pointer).2
      live := Function.update s.live pointer none }
  | .clearWorkspace workspaceId => some {
      disk := (clearWorkspace root s.disk workspaceId).2
      live := fun pointer =>
        if (parsePointer pointer).map Prod.fst = some workspaceId then none else s.live pointer }

/-- **What one call is to do**, and to leave alone. -/
structure Isolated (s : History) (op : Op) (s' : History) : Prop where
  puts : ∀ workspaceId key data,
    op = .put workspaceId key data → validWorkspaceId workspaceId = true →
    key ≠ "" → ∃ pointer, (put sha256 root s.disk workspaceId key data).1 = .ok pointer
  /-- What was put is read, until it is deleted or cleared. -/
  serves : ∀ pointer data, s'.live pointer = some data → get sha256 root s'.disk pointer = .ok data
  /-- What the pointers of other workspaces read is as before. -/
  others : ∀ pointer workspaceId contentHash,
    parsePointer pointer = some (workspaceId, contentHash) →
    op.workspace ≠ some workspaceId →
    (get sha256 root s'.disk pointer).toOption = (get sha256 root s.disk pointer).toOption
  /-- The files outside the directory of the workspace are as before. -/
  files : ∀ path,
    (∀ workspaceId, op.workspace = some workspaceId → ¬root ++ [workspaceId] <+: path) →
    file s'.disk path = file s.disk path

/-- What a call must meet: nothing is put under `.` or `..`, no stored object is deleted through its
pointer with a newline behind it, and `.` and `..` are cleared only where they lead to no file. -/
def Kept (s : History) : Op → Prop
  | .put workspaceId key _ => key ≠ "" → workspaceId ≠ "." ∧ workspaceId ≠ ".."
  | .get _ => True
  | .delete pointer => ∀ workspaceId contentHash,
      parsePointer pointer = some (workspaceId, contentHash) →
      pointer = pointerTo workspaceId contentHash ∨
        s.live (pointerTo workspaceId contentHash) = none
  | .clearWorkspace workspaceId =>
      (workspaceId = "." → ∀ path, root <+: path → file s.disk path = none) ∧
      (workspaceId = ".." → s.disk root = some .dir →
        ∀ path, root.dropLast <+: path → path ≠ root.dropLast → file s.disk path = none)

end Histories

/-! ### Pointers -/

section Pointers
variable {workspaceId workspaceId' contentHash pointer : String}

/-- An id that names a directory of its own. -/
structure Proper (workspaceId : String) : Prop where
  valid : validWorkspaceId workspaceId = true
  ne_dots : workspaceId ≠ "." ∧ workspaceId ≠ ".."

def hashOf (g : Digest) : String := "sha256:" ++ g.hex

theorem toList_hashOf (g : Digest) : (hashOf g).toList = "sha256:".toList ++ g.hex.toList :=
  String.toList_append

theorem isContentHash_hashOf (g : Digest) : isContentHash (hashOf g).toList = true := by
  have hdrop : (hashOf g).toList.drop 7 = g.hex.toList := by
    rw [toList_hashOf]
    exact List.drop_left' (by decide)
  have hunder : "sha256:".toList.isPrefixOf (hashOf g).toList = true := by
    rw [toList_hashOf, List.isPrefixOf_iff_prefix]
    exact List.prefix_append _ _
  simp only [isContentHash, hdrop, hunder, g.length_hex, Bool.true_and, beq_self_eq_true]
  exact List.all_eq_true.mpr g.hex_chars

theorem exists_of_isContentHash {cs : List Char} (h : isContentHash cs = true) :
    ∃ g : Digest, String.ofList cs = hashOf g := by
  simp only [isContentHash, Bool.and_eq_true, List.isPrefixOf_iff_prefix, beq_iff_eq,
    List.all_eq_true] at h
  obtain ⟨⟨⟨rest, rfl⟩, hlength⟩, hchars⟩ := h
  have hdrop : ("sha256:".toList ++ rest).drop 7 = rest := List.drop_left' (by decide)
  rw [hdrop] at hlength hchars
  refine ⟨⟨String.ofList rest, by rw [String.toList_ofList, hlength], ?_⟩, ?_⟩
  · rw [String.toList_ofList]
    exact hchars
  · rw [hashOf, String.ofList_append]
    rfl

theorem hexPart_hashOf (g : Digest) : hexPart (hashOf g) = g.hex := by
  have hmem : ':' ∈ (hashOf g).toList := by simp [toList_hashOf]
  rw [hexPart, Lib.PyStr.partition, if_pos hmem, toList_hashOf]
  simp

theorem validWorkspaceId_iff : validWorkspaceId workspaceId = true ↔
    workspaceId.toList ≠ [] ∧ ∀ c ∈ workspaceId.toList, isWorkspaceChar c = true := by
  simp [validWorkspaceId]

theorem getLast?_hashOf (g : Digest) : (hashOf g).toList.getLast? ≠ some '\n' := by
  rw [toList_hashOf]
  intro h
  obtain ⟨init, hinit⟩ := List.getLast?_eq_some_iff.mp h
  have hne : g.hex.toList ≠ [] := by
    intro hnil
    have hlength := g.length_hex
    rw [hnil] at hlength
    cases hlength
  rw [List.getLast?_append_of_ne_nil _ hne] at h
  have hhex := g.hex_chars _ (List.mem_of_getLast? h)
  revert hhex
  decide

theorem parsePointer_pointerTo (h : validWorkspaceId workspaceId = true) (g : Digest) :
    parsePointer (pointerTo workspaceId (hashOf g)) = some (workspaceId, hashOf g) := by
  obtain ⟨hne, hchars⟩ := validWorkspaceId_iff.mp h
  have htext : (pointerTo workspaceId (hashOf g)).toList =
      pointerScheme.toList ++ (workspaceId.toList ++ '/' :: (hashOf g).toList) := by
    simp [pointerTo]
  have hscheme :
    pointerScheme.toList.isPrefixOf (pointerTo workspaceId (hashOf g)).toList = true := by
    rw [htext, List.isPrefixOf_iff_prefix]
    exact List.prefix_append _ _
  have hrest : (pointerTo workspaceId (hashOf g)).toList.drop 6 =
      workspaceId.toList ++ '/' :: (hashOf g).toList := by
    rw [htext]
    exact List.drop_left' (by decide)
  have htake : (workspaceId.toList ++ '/' :: (hashOf g).toList).takeWhile isWorkspaceChar =
      workspaceId.toList := by
    rw [List.takeWhile_append_of_pos hchars,
      List.takeWhile_cons_of_neg (by decide), List.append_nil]
  have hdrop : (workspaceId.toList ++ '/' :: (hashOf g).toList).dropWhile isWorkspaceChar =
      '/' :: (hashOf g).toList := by
    rw [List.dropWhile_append_of_pos hchars, List.dropWhile_cons_of_neg (by decide)]
  have hnonempty : workspaceId.toList.isEmpty = false := by simpa using hne
  rw [parsePointer, if_pos hscheme]
  simp only [hrest, htake, hdrop, getLast?_hashOf, if_false, hnonempty, isContentHash_hashOf,
    Bool.not_false, Bool.and_self, if_true, String.ofList_toList]

theorem parsePointer_eq_some (h : parsePointer pointer = some (workspaceId, contentHash)) :
    validWorkspaceId workspaceId = true ∧ ∃ g, contentHash = hashOf g := by
  unfold parsePointer at h
  split_ifs at h with hscheme
  dsimp only at h
  split at h
  · next hash hslash =>
    generalize (if hash.getLast? = some '\n' then hash.dropLast else hash) = hash' at h
    split_ifs at h with hvalid
    obtain ⟨rfl, rfl⟩ := Prod.mk.inj (Option.some.inj h)
    rw [Bool.and_eq_true] at hvalid
    refine ⟨?_, exists_of_isContentHash hvalid.2⟩
    rw [validWorkspaceId, String.toList_ofList, hvalid.1, Bool.true_and]
    exact List.all_takeWhile
  · cases h

theorem pointerTo_injective {g g' : Digest} (h : validWorkspaceId workspaceId = true)
    (h' : validWorkspaceId workspaceId' = true)
    (heq : pointerTo workspaceId (hashOf g) = pointerTo workspaceId' (hashOf g')) :
    workspaceId = workspaceId' ∧ hashOf g = hashOf g' := by
  have hparse := parsePointer_pointerTo h g
  rw [heq, parsePointer_pointerTo h' g'] at hparse
  obtain ⟨hws, hhash⟩ := Prod.mk.inj (Option.some.inj hparse)
  exact ⟨hws.symm, hhash.symm⟩

theorem makePointer_hashOf (h : validWorkspaceId workspaceId = true) (g : Digest) :
    makePointer workspaceId (hashOf g) = some (pointerTo workspaceId (hashOf g)) := by
  have hunder : "sha256:".toList.isPrefixOf (hashOf g).toList = true := by
    rw [toList_hashOf, List.isPrefixOf_iff_prefix]
    exact List.prefix_append _ _
  have hlength : (hashOf g).toList.length = 71 := by
    rw [toList_hashOf, List.length_append, g.length_hex]
    rfl
  simp only [makePointer, h, hunder, hlength, beq_self_eq_true, Bool.and_self, if_true]

theorem hex_eq_of_hashOf_eq {g g' : Digest} (h : hashOf g = hashOf g') : g.hex = g'.hex := by
  rw [← hexPart_hashOf g, h, hexPart_hashOf]

end Pointers

/-! ### Where an object lies -/

section Paths
variable {root path : Path} {workspaceId : String}

theorem ne_of_length {a b : String} (h : a.toList.length ≠ b.toList.length) : a ≠ b :=
  fun heq => h (by rw [heq])

/-- The directory and the name below that of a workspace. -/
def objectTail (g : Digest) : Path := (objectParts "" g.hex).tail

theorem objectParts_eq (workspaceId : String) (g : Digest) :
    objectParts workspaceId g.hex = workspaceId :: objectTail g := rfl

theorem ne_dots_of_mem_objectTail {g : Digest} {part : String} (h : part ∈ objectTail g) :
    part ≠ "." ∧ part ≠ ".." := by
  obtain ⟨a, b, rest, hhex⟩ : ∃ a b rest, g.hex.toList = a :: b :: rest := by
    match hlist : g.hex.toList, g.length_hex with
    | a :: b :: rest, _ => exact ⟨a, b, rest, rfl⟩
  have ha : a ≠ '.' := by
    rintro rfl
    have hhexchar := g.hex_chars '.' (by simp [hhex])
    revert hhexchar
    decide
  have hlength : (g.hex ++ ".bin").toList.length = 68 := by
    rw [String.toList_append, List.length_append, g.length_hex]
    rfl
  simp only [objectTail, objectParts, List.tail_cons, List.mem_cons, List.not_mem_nil,
    or_false] at h
  obtain rfl | rfl := h
  · refine ⟨ne_of_length (by simp [hhex]), fun heq => ha ?_⟩
    have hchars := congrArg String.toList heq
    rw [String.toList_ofList, hhex] at hchars
    exact (List.cons.inj hchars).1
  · exact ⟨ne_of_length (by rw [hlength]; decide), ne_of_length (by rw [hlength]; decide)⟩

theorem resolve_objectTail (path : Path) (g : Digest) :
    resolve path (objectTail g) = path ++ objectTail g := by
  have hstay : ∀ (parts path : Path), (∀ part ∈ parts, part ≠ "." ∧ part ≠ "..") →
      resolve path parts = path ++ parts := by
    intro parts
    induction parts with
    | nil => simp [resolve]
    | cons part parts ih =>
      intro path hparts
      obtain ⟨hdot, hdots⟩ := hparts part List.mem_cons_self
      have hrest := ih (path ++ [part]) fun p hp => hparts p (List.mem_cons_of_mem part hp)
      rw [List.append_assoc] at hrest
      rw [← List.singleton_append, ← hrest]
      simp [resolve, hdot, hdots]
  exact hstay _ path fun part => ne_dots_of_mem_objectTail

theorem resolve_objectParts (root : Path) (workspaceId : String) (g : Digest) :
    resolve root (objectParts workspaceId g.hex) =
      resolve root [workspaceId] ++ objectTail g := by
  rw [objectParts_eq, ← resolve_objectTail]
  rfl

theorem Proper.resolve (h : Proper workspaceId) (root : Path) :
    resolve root [workspaceId] = root ++ [workspaceId] := by
  simp [ObjectStore.resolve, h.ne_dots]

theorem Proper.pathFor (h : Proper workspaceId) (root : Path) (g : Digest) :
    pathFor root workspaceId (hashOf g) = some (root ++ workspaceId :: objectTail g) := by
  have hpath : ObjectStore.resolve root (objectParts workspaceId g.hex) =
      root ++ workspaceId :: objectTail g := by
    rw [resolve_objectParts, h.resolve, List.append_assoc]
    rfl
  simp [ObjectStore.pathFor, h.valid, hexPart_hashOf, hpath]

theorem pathFor_depth (hvalid : validWorkspaceId workspaceId = true) (h : ¬Proper workspaceId)
    {g : Digest}
    (hpath : pathFor root workspaceId (hashOf g) = some path) :
    ∃ parts, path = root ++ parts ∧ parts <:+ objectTail g := by
  simp only [pathFor, hvalid, if_true, hexPart_hashOf] at hpath
  split_ifs at hpath with hunder
  obtain rfl := Option.some.inj hpath
  obtain ⟨parts, hparts⟩ := hunder
  refine ⟨parts, hparts.symm, ?_⟩
  have hsuffix : parts <:+ ObjectStore.resolve root (objectParts workspaceId g.hex) :=
    ⟨root, hparts⟩
  have hlength := congrArg List.length hparts
  rw [resolve_objectParts] at hsuffix
  rw [resolve_objectParts, List.length_append, List.length_append] at hlength
  have htail : (objectTail g).length = 2 := rfl
  have hdir : (ObjectStore.resolve root [workspaceId]).length ≤ root.length := by
    by_cases hdot : workspaceId = "."
    · simp [ObjectStore.resolve, hdot]
    · have hdots : workspaceId = ".." := by
        by_contra hne
        exact h ⟨hvalid, hdot, hne⟩
      simp [ObjectStore.resolve, hdots]
  exact List.suffix_of_suffix_length_le hsuffix (List.suffix_append _ _) (by omega)

theorem objectTail_injective {g g' : Digest} (h : objectTail g = objectTail g') :
    hashOf g = hashOf g' := by
  have hname : g.hex ++ ".bin" = g'.hex ++ ".bin" := by
    simp only [objectTail, objectParts, List.tail_cons, List.cons.injEq] at h
    exact h.2.1
  rw [hashOf, hashOf, String.append_left_inj _ |>.mp hname]

end Paths

end Selfevals.Storage.ObjectStore
