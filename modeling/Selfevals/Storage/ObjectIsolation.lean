import Selfevals.Storage.ObjectStore

/-!
# When the object store keeps the workspaces apart
-/

namespace Selfevals.Storage.ObjectStore

open Lib.Encodings Lib.FileTree Lib.Run

/-! ### What is kept -/

/-- What holds as long as every call meets its condition: the files under the root are the objects
of the live pointers, whose data come from `D`. -/
structure Inv (sha256 : Bytes → Digest) (root : Path) (D : Set Bytes) (s : History) : Prop where
  above : ∀ path, path <+: root → file s.disk path = none
  depth : ∀ parts, s.disk (root ++ parts) = some .dir → parts.length ≤ 2
  objects : ∀ parts data, file s.disk (root ++ parts) = some data → ∃ workspaceId g,
    Proper workspaceId ∧ parts = workspaceId :: objectTail g ∧
      s.live (pointerTo workspaceId (hashOf g)) = some data ∧
      s.disk (root ++ [workspaceId]) = some .dir ∧ s.disk root = some .dir
  live : ∀ pointer data, s.live pointer = some data → data ∈ D ∧ ∃ workspaceId,
    Proper workspaceId ∧ pointer = pointerTo workspaceId (hashOf (sha256 data)) ∧
      file s.disk (root ++ workspaceId :: objectTail (sha256 data)) = some data

section Read
variable {sha256 : Bytes → Digest} {root : Path} {D : Set Bytes} {s s' : History}
  {workspaceId contentHash pointer : String} {g : Digest}

theorem Inv.file_length (h : Inv sha256 root D s) {parts : Path} {data : Bytes}
    (hfile : file s.disk (root ++ parts) = some data) : parts.length = 3 := by
  obtain ⟨workspaceId, g, -, rfl, -⟩ := h.objects parts data hfile
  rfl

theorem Inv.file_eq_live (h : Inv sha256 root D s) (hproper : Proper workspaceId) (g : Digest) :
    file s.disk (root ++ workspaceId :: objectTail g) =
      s.live (pointerTo workspaceId (hashOf g)) := by
  refine Option.ext fun data => ⟨fun hfile => ?_, fun hlive => ?_⟩
  · obtain ⟨workspaceId', g', -, hparts, hlive, -⟩ := h.objects _ _ hfile
    obtain ⟨rfl, htail⟩ := List.cons.inj hparts
    rwa [objectTail_injective htail]
  · obtain ⟨-, workspaceId', hproper', hpointer, hfile⟩ := h.live _ _ hlive
    obtain ⟨rfl, hhash⟩ := pointerTo_injective hproper.valid hproper'.valid hpointer
    have htail : objectTail g = objectTail (sha256 data) := by
      rw [objectTail, hex_eq_of_hashOf_eq hhash]
      rfl
    rwa [htail]

theorem Inv.live_eq_none (h : Inv sha256 root D s) (hvalid : validWorkspaceId workspaceId = true)
    (hproper : ¬Proper workspaceId) (g : Digest) :
    s.live (pointerTo workspaceId (hashOf g)) = none := by
  by_contra hne
  obtain ⟨data, hlive⟩ := Option.ne_none_iff_exists'.mp hne
  obtain ⟨-, workspaceId', hproper', hpointer, -⟩ := h.live _ _ hlive
  obtain ⟨rfl, -⟩ := pointerTo_injective hvalid hproper'.valid hpointer
  exact hproper hproper'

/-- **What lies where a pointer leads** is what was put under it. -/
theorem Inv.bind_pathFor (h : Inv sha256 root D s) (hvalid : validWorkspaceId workspaceId = true)
    (g : Digest) : (pathFor root workspaceId (hashOf g)).bind (file s.disk) =
      s.live (pointerTo workspaceId (hashOf g)) := by
  by_cases hproper : Proper workspaceId
  · rw [hproper.pathFor, Option.bind_some, h.file_eq_live hproper]
  · rw [h.live_eq_none hvalid hproper]
    cases hpath : pathFor root workspaceId (hashOf g) with
    | none => rfl
    | some path =>
      obtain ⟨parts, rfl, hsuffix⟩ := pathFor_depth hvalid hproper hpath
      rw [Option.bind_some]
      by_contra hne
      obtain ⟨data, hfile⟩ := Option.ne_none_iff_exists'.mp hne
      have hlength := h.file_length hfile
      have hle := hsuffix.length_le
      have htail : (objectTail g).length = 2 := rfl
      omega

theorem get_toOption (sha256 : Bytes → Digest) (root : Path) (disk : Disk) (pointer : String) :
    (get sha256 root disk pointer).toOption = (parsePointer pointer).bind fun parsed =>
      ((pathFor root parsed.1 parsed.2).bind (file disk)).filter fun data =>
        bytesHash sha256 data = parsed.2 := by
  unfold get
  cases parsePointer pointer with
  | none => rfl
  | some parsed =>
    obtain ⟨workspaceId, contentHash⟩ := parsed
    simp only [Option.bind_some]
    cases pathFor root workspaceId contentHash with
    | none => rfl
    | some path =>
      simp only [Option.bind_some, file]
      cases disk path with
      | none => rfl
      | some node =>
        cases node with
        | dir => rfl
        | file data =>
          by_cases hhash : bytesHash sha256 data = contentHash
          · simp [hhash, Except.toOption, Option.filter]
          · simp [hhash, Except.toOption, Option.filter]

/-- **A pointer reads what was put under it.** -/
theorem read_eq (h : Inv sha256 root D s) (pointer : String) :
    (get sha256 root s.disk pointer).toOption =
      (parsePointer pointer).bind fun parsed => s.live (pointerTo parsed.1 parsed.2) := by
  rw [get_toOption]
  refine Option.bind_congr' rfl fun parsed hparsed => ?_
  obtain ⟨hvalid, g, hhash⟩ := parsePointer_eq_some hparsed
  rw [hhash, h.bind_pathFor hvalid]
  cases hlive : s.live (pointerTo parsed.1 (hashOf g)) with
  | none => rfl
  | some data =>
    obtain ⟨-, workspaceId', hproper', hpointer, -⟩ := h.live _ _ hlive
    obtain ⟨-, hsame⟩ := pointerTo_injective hvalid hproper'.valid hpointer
    have hmatches : bytesHash sha256 data = hashOf g := hsame.symm
    simp [hmatches]

theorem isolated_of_inv {op : Op} (h : Inv sha256 root D s) (h' : Inv sha256 root D s')
    (hputs : ∀ workspaceId key data, op = .put workspaceId key data →
      validWorkspaceId workspaceId = true → key ≠ "" →
      ∃ pointer, (put sha256 root s.disk workspaceId key data).1 = .ok pointer)
    (hothers : ∀ workspaceId g,
      validWorkspaceId workspaceId = true → op.workspace ≠ some workspaceId →
      s'.live (pointerTo workspaceId (hashOf g)) = s.live (pointerTo workspaceId (hashOf g)))
    (hfiles : ∀ path,
      (∀ workspaceId, op.workspace = some workspaceId → ¬root ++ [workspaceId] <+: path) →
      file s'.disk path = file s.disk path) : Isolated sha256 root s op s' where
  puts := hputs
  serves pointer data hlive := by
    have hread := read_eq h' pointer
    obtain ⟨-, workspaceId, hproper, hpointer, -⟩ := h'.live pointer data hlive
    rw [hpointer, parsePointer_pointerTo hproper.valid, Option.bind_some, ← hpointer,
      hlive] at hread
    cases hget : get sha256 root s'.disk pointer with
    | error failure => simp [hget, Except.toOption] at hread
    | ok data' =>
      rw [hget] at hread
      obtain rfl := Option.some.inj hread
      rfl
  others pointer workspaceId contentHash hparsed hne := by
    obtain ⟨hvalid, g, rfl⟩ := parsePointer_eq_some hparsed
    rw [read_eq h, read_eq h', hparsed, Option.bind_some, Option.bind_some]
    exact hothers workspaceId g hvalid hne
  files := hfiles

end Read

/-! ### Something is put -/

section Put
variable {sha256 : Bytes → Digest} {root : Path} {D : Set Bytes} {s : History}
  {workspaceId key : String} {data : Bytes}

/-- What a put under an id of its own leaves on the disk. -/
structure Written (root : Path) (disk : Disk) (workspaceId : String) (path : Path) (data : Bytes)
    (disk' : Disk) : Prop where
  file : ∀ q, file disk' q = if q = path then some data else file disk q
  depth : ∀ parts, disk' (root ++ parts) = some .dir →
    disk (root ++ parts) = some .dir ∨ parts.length ≤ 2
  dir : disk' (root ++ [workspaceId]) = some .dir ∧ disk' root = some .dir
  kept : ∀ q, disk q = some .dir → disk' q = some .dir

theorem Inv.free (h : Inv sha256 root D s) {parts q : Path} (hparts : parts.length ≤ 2)
    (hq : q <+: root ++ parts) : file s.disk q = none := by
  obtain ⟨rest, hrest⟩ := hq
  obtain ⟨q', hq', -⟩ | ⟨q', hq', hparts'⟩ := List.append_eq_append_iff.mp hrest
  · exact h.above q ⟨q', hq'.symm⟩
  · by_contra hne
    obtain ⟨data, hfile⟩ := Option.ne_none_iff_exists'.mp hne
    rw [hq'] at hfile
    have hlength := h.file_length hfile
    have hle := congrArg List.length hparts'
    rw [List.length_append] at hle
    omega

/-- **A put under an id of its own** writes the object, and gives its pointer. -/
theorem put_proper (h : Inv sha256 root D s) (hinj : Set.InjOn sha256 D)
    (hproper : Proper workspaceId) (hkey : key ≠ "") (hdata : data ∈ D) :
    ∃ disk, put sha256 root s.disk workspaceId key data =
        (.ok (pointerTo workspaceId (hashOf (sha256 data))), disk) ∧
      Written root s.disk workspaceId (root ++
        workspaceId :: objectTail (sha256 data)) data disk := by
  have hpath : pathFor root workspaceId (bytesHash sha256 data) =
      some (root ++ workspaceId :: objectTail (sha256 data)) := hproper.pathFor root (sha256 data)
  have hpointer : makePointer workspaceId (bytesHash sha256 data) =
      some (pointerTo workspaceId (hashOf (sha256 data))) := makePointer_hashOf hproper.valid _
  obtain ⟨dir, name, htail⟩ : ∃ dir name, objectTail (sha256 data) = [dir, name] := ⟨_, _, rfl⟩
  have hparent : (root ++ workspaceId :: objectTail (sha256 data)).dropLast =
      root ++ [workspaceId, dir] := by
    rw [htail, List.dropLast_append_of_ne_nil (by simp)]
    rfl
  obtain ⟨disk, hdisk⟩ : ∃ disk, mkdirs s.disk (root ++ [workspaceId, dir]) = some disk :=
    ⟨_, mkdirs_eq_some.mpr ⟨fun q hq => h.free (by simp) hq, rfl⟩⟩
  have hfile : ∀ q, file disk q = file s.disk q := file_mkdirs hdisk
  have hdepth : ∀ parts, disk (root ++ parts) = some .dir →
      s.disk (root ++ parts) = some .dir ∨ parts.length ≤ 2 := fun parts hdir =>
    (dir_of_mkdirs hdisk hdir).imp_right fun hunder =>
      ((List.prefix_append_right_inj root).mp hunder).length_le
  have hdirs : disk (root ++ [workspaceId]) = some .dir ∧ disk root = some .dir :=
    ⟨dir_mkdirs hdisk ⟨[dir], by simp⟩, dir_mkdirs hdisk (List.prefix_append _ _)⟩
  simp only [put, hproper.valid, hkey, Bool.not_true, decide_false, Bool.or_self,
    Bool.false_eq_true, if_false, hpath, hpointer, hparent, hdisk]
  generalize hlies : root ++ workspaceId :: objectTail (sha256 data) = path at *
  cases hnode : disk path with
  | none =>
    refine ⟨_, rfl, fun q => ?_, fun parts hdir => ?_, ⟨?_, ?_⟩, fun q hdir => ?_⟩
    · rw [file_writeFile, hfile]
    · by_cases hq : root ++ parts = path
      · simp [writeFile, hq] at hdir
      · exact hdepth parts (by simpa [writeFile, hq] using hdir)
    · have hne : root ++ [workspaceId] ≠ path := fun heq => by simp [← hlies, htail] at heq
      simp [writeFile, hne, hdirs.1]
    · have hne : root ≠ path := fun heq => by simp [← hlies] at heq
      simp [writeFile, hne, hdirs.2]
    · have hdir' := dir_of_dir_mkdirs hdisk hdir
      have hne : q ≠ path := by
        rintro rfl
        rw [hnode] at hdir'
        cases hdir'
      simp [writeFile, hne, hdir']
  | some node =>
    cases node with
    | dir =>
      rw [← hlies] at hnode
      have hlong : (workspaceId :: objectTail (sha256 data)).length = 3 := rfl
      obtain hold | hle := hdepth _ hnode
      · have hle := h.depth _ hold
        omega
      · omega
    | file existing =>
      have hlive : s.live (pointerTo workspaceId (hashOf (sha256 data))) = some existing := by
        rw [← h.file_eq_live hproper, hlies, ← hfile, file_eq_some, hnode]
      obtain ⟨hmem, workspaceId', hproper', heq, -⟩ := h.live _ _ hlive
      have hhex := hex_eq_of_hashOf_eq (pointerTo_injective hproper.valid hproper'.valid heq).2
      obtain rfl : data = existing := hinj hdata hmem (Digest.ext hhex)
      simp only [ne_eq, not_true_eq_false, if_false]
      refine ⟨disk, rfl, fun q => ?_, hdepth, hdirs, fun q => dir_of_dir_mkdirs hdisk⟩
      rw [hfile]
      split_ifs with hq
      · rw [hq, ← hfile, file_eq_some, hnode]
      · rfl

theorem inv_written (h : Inv sha256 root D s) (hinj : Set.InjOn sha256 D)
    (hproper : Proper workspaceId)
    (hdata : data ∈ D) {s' : History} (hdisk : Written root s.disk workspaceId
      (root ++ workspaceId :: objectTail (sha256 data)) data s'.disk)
    (hput : s'.live =
      Function.update s.live (pointerTo workspaceId (hashOf (sha256 data))) (some data)) :
    Inv sha256 root D s' where
  above path hpath := by
    have hne : path ≠ root ++ workspaceId :: objectTail (sha256 data) := by
      rintro rfl
      have hle := hpath.length_le
      rw [List.length_append, List.length_cons] at hle
      omega
    rw [hdisk.file, if_neg hne]
    exact h.above path hpath
  depth parts hdir := (hdisk.depth parts hdir).elim (h.depth parts) id
  objects parts existing hfile := by
    rw [hdisk.file] at hfile
    split_ifs at hfile with hnew
    · obtain rfl := Option.some.inj hfile
      obtain rfl := List.append_cancel_left hnew
      exact ⟨workspaceId, sha256 data, hproper, rfl, by rw [hput, Function.update_self], hdisk.dir⟩
    · obtain ⟨workspaceId', g, hproper', rfl, hlive, hdir, hroot⟩ := h.objects parts existing hfile
      refine ⟨workspaceId', g, hproper', rfl, ?_, hdisk.kept _ hdir, hdisk.kept _ hroot⟩
      rw [hput, Function.update_of_ne, hlive]
      intro heq
      obtain ⟨rfl, hhash⟩ := pointerTo_injective hproper'.valid hproper.valid heq
      refine hnew ?_
      rw [objectTail, hex_eq_of_hashOf_eq hhash]
      rfl
  live pointer existing hlive := by
    rw [hput] at hlive
    by_cases hnew : pointer = pointerTo workspaceId (hashOf (sha256 data))
    · rw [hnew, Function.update_self] at hlive
      obtain rfl := Option.some.inj hlive
      refine ⟨hdata, workspaceId, hproper, hnew, ?_⟩
      rw [hdisk.file, if_pos rfl]
    · rw [Function.update_of_ne hnew] at hlive
      obtain ⟨hmem, workspaceId', hproper', hpointer, hfile⟩ := h.live pointer existing hlive
      refine ⟨hmem, workspaceId', hproper', hpointer, ?_⟩
      rw [hdisk.file]
      split_ifs with hsame
      · obtain ⟨-, htail⟩ := List.cons.inj (List.append_cancel_left hsame)
        have hhex := hex_eq_of_hashOf_eq (objectTail_injective htail)
        rw [hinj hdata hmem (Digest.ext hhex.symm)]
      · exact hfile

/-- **A put under `.` or `..`** fails, or writes outside the directory of the workspace. -/
theorem not_isolated_put (h : Inv sha256 root D s) {s' : History}
    (hvalid : validWorkspaceId workspaceId = true) (hkey : key ≠ "") (hproper : ¬Proper workspaceId)
    (hs : step sha256 root s (.put workspaceId key data) = some s') :
    ¬Isolated sha256 root s (.put workspaceId key data) s' := by
  intro hisolated
  obtain ⟨pointer, hput⟩ := hisolated.puts workspaceId key data rfl hvalid hkey
  obtain ⟨disk, hdisk⟩ :
    ∃ disk, put sha256 root s.disk workspaceId key data = (.ok pointer, disk) :=
    ⟨_, Prod.ext hput rfl⟩
  simp only [step, hdisk, Option.some.injEq] at hs
  simp only [put, hvalid, hkey, Bool.not_true, decide_false, Bool.or_self, Bool.false_eq_true,
    if_false] at hdisk
  cases hpath : pathFor root workspaceId (bytesHash sha256 data) with
  | none => simp [hpath] at hdisk
  | some path =>
    obtain ⟨parts, rfl, hsuffix⟩ := pathFor_depth (g := sha256 data) hvalid hproper hpath
    have hle : parts.length ≤ 2 := hsuffix.length_le
    have hnone : file s.disk (root ++ parts) = none := h.free hle (List.prefix_refl _)
    rw [hpath] at hdisk
    cases hmkdirs : mkdirs s.disk (root ++ parts).dropLast with
    | none => simp [hmkdirs] at hdisk
    | some made =>
      simp only [hmkdirs] at hdisk
      cases hnode : made (root ++ parts) with
      | none =>
        rw [hnode] at hdisk
        obtain ⟨-, hwritten⟩ := Prod.mk.inj hdisk
        have hfile := hisolated.files (root ++ parts) fun workspaceId' hsome hunder => by
          obtain rfl := Option.some.inj hsome
          rw [List.prefix_append_right_inj] at hunder
          have hmem := hsuffix.subset (hunder.subset (List.mem_singleton_self workspaceId))
          exact hproper ⟨hvalid, ne_dots_of_mem_objectTail hmem⟩
        rw [← hs, hnone] at hfile
        dsimp only at hfile
        rw [← hwritten, file_writeFile, if_pos rfl] at hfile
        cases hfile
      | some node =>
        cases node with
        | dir => simp [hnode] at hdisk
        | file existing =>
          have hfile := file_mkdirs hmkdirs (root ++ parts)
          rw [file_eq_some.mpr hnode, hnone] at hfile
          cases hfile

theorem put_spec (h : Inv sha256 root D s) (hinj : Set.InjOn sha256 D) (hdata : data ∈ D)
    {s' : History}
    (hs : step sha256 root s (.put workspaceId key data) = some s') :
    (Isolated sha256 root s (.put workspaceId key data) s' ↔
      Kept root s (.put workspaceId key data)) ∧
      (Kept root s (.put workspaceId key data) → Inv sha256 root D s') := by
  by_cases hrefused : validWorkspaceId workspaceId = false ∨ key = ""
  · have hput : put sha256 root s.disk workspaceId key data = (.error .value, s.disk) := by
      obtain hvalid | hkey := hrefused
      · simp [put, hvalid]
      · simp [put, hkey]
    simp only [step, hput, Option.some.injEq] at hs
    subst hs
    refine ⟨iff_of_true (isolated_of_inv h h ?_ (fun _ _ _ _ => rfl) fun _ _ => rfl) ?_, fun _ => h⟩
    · rintro workspaceId' key' data' heq hvalid' hkey'
      obtain ⟨rfl, rfl, rfl⟩ := Op.put.inj heq
      obtain hvalid | hkey := hrefused
      · rw [hvalid] at hvalid'
        cases hvalid'
      · exact absurd hkey hkey'
    · intro hkey
      obtain hvalid | hempty := hrefused
      · refine ⟨?_, ?_⟩
        · rintro rfl
          revert hvalid
          decide
        · rintro rfl
          revert hvalid
          decide
      · exact absurd hempty hkey
  · obtain ⟨hvalid, hkey⟩ := not_or.mp hrefused
    have hvalid : validWorkspaceId workspaceId = true := by simpa using hvalid
    by_cases hproper : Proper workspaceId
    · obtain ⟨disk, hput, hwritten⟩ := put_proper h hinj hproper hkey hdata
      simp only [step, hput, Option.some.injEq] at hs
      subst hs
      have hinv : Inv sha256 root D ⟨disk, _⟩ := inv_written h hinj hproper hdata hwritten rfl
      refine ⟨iff_of_true (isolated_of_inv h hinv ?_ ?_ ?_) fun _ => hproper.2, fun _ => hinv⟩
      · rintro workspaceId' key' data' heq - -
        obtain ⟨rfl, rfl, rfl⟩ := Op.put.inj heq
        exact ⟨_, congrArg Prod.fst hput⟩
      · intro workspaceId' g hvalid' hne
        refine Function.update_of_ne (fun heq => hne ?_) _ _
        rw [(pointerTo_injective hvalid' hvalid heq).1]
        rfl
      · intro path houtside
        refine (hwritten.file path).trans (if_neg ?_)
        rintro rfl
        refine houtside workspaceId rfl ?_
        exact (List.prefix_append_right_inj root).mpr ⟨_, rfl⟩
    · have hnot : ¬Kept root s (.put workspaceId key data) := fun hkept =>
        hproper ⟨hvalid, hkept hkey⟩
      exact ⟨iff_of_false (not_isolated_put h hvalid hkey hproper hs) hnot, fun hkept =>
        absurd hkept hnot⟩

end Put

/-! ### An object is deleted -/

section Delete
variable {sha256 : Bytes → Digest} {root : Path} {D : Set Bytes} {s : History} {pointer : String}

theorem delete_of_none {disk : Disk} (h : ((parsePointer pointer).bind fun parsed =>
    (pathFor root parsed.1 parsed.2).bind (file disk)) = none) : (delete root disk pointer).2 =
      disk := by
  unfold delete
  cases hparse : parsePointer pointer with
  | none => rfl
  | some parsed =>
    obtain ⟨workspaceId, contentHash⟩ := parsed
    dsimp only
    cases hpath : pathFor root workspaceId contentHash with
    | none => rfl
    | some path =>
      simp only [hparse, Option.bind_some, hpath, file] at h
      dsimp only
      cases hnode : disk path with
      | none => rfl
      | some node =>
        cases node with
        | dir => rfl
        | file data => simp [hnode] at h

theorem delete_absent (h : Inv sha256 root D s)
    (habsent : ((parsePointer pointer).bind fun parsed =>
      s.live (pointerTo parsed.1 parsed.2)) = none) :
    step sha256 root s (.delete pointer) = some s := by
  have hdisk : (delete root s.disk pointer).2 = s.disk := by
    refine delete_of_none (Eq.trans (Option.bind_congr' rfl fun parsed hparsed => ?_) habsent)
    obtain ⟨hvalid, g, hhash⟩ := parsePointer_eq_some hparsed
    rw [hhash, h.bind_pathFor hvalid]
  have hlive : Function.update s.live pointer none = s.live := by
    rw [Function.update_eq_self_iff]
    by_contra hne
    obtain ⟨data, hdata⟩ := Option.ne_none_iff_exists'.mp (Ne.symm hne)
    obtain ⟨-, workspaceId, hproper, hpointer, -⟩ := h.live pointer data hdata
    rw [hpointer, parsePointer_pointerTo hproper.valid, Option.bind_some, ← hpointer,
      hdata] at habsent
    cases habsent
  simp only [step, hdisk, hlive]

theorem inv_delete (h : Inv sha256 root D s) {workspaceId : String} {g : Digest}
    (hproper : Proper workspaceId) {s' : History}
    (hdisk : s'.disk = unlink s.disk (root ++ workspaceId :: objectTail g))
    (hlive : s'.live = Function.update s.live (pointerTo workspaceId (hashOf g)) none) :
    Inv sha256 root D s' where
  above path hpath := by
    rw [hdisk, file_unlink, h.above path hpath, ite_self]
  depth parts hdir := by
    refine h.depth parts ?_
    rw [hdisk, unlink] at hdir
    by_cases hq : root ++ parts = root ++ workspaceId :: objectTail g
    · simp [hq] at hdir
    · rwa [Function.update_of_ne hq] at hdir
  objects parts data hfile := by
    rw [hdisk, file_unlink] at hfile
    split_ifs at hfile with hq
    obtain ⟨workspaceId', g', hproper', rfl, hold, hdir, hroot⟩ := h.objects parts data hfile
    have hne : root ++ [workspaceId'] ≠ root ++ workspaceId :: objectTail g := fun heq => by
      cases List.append_cancel_left heq
    have hne' : root ≠ root ++ workspaceId :: objectTail g := fun heq => by simp at heq
    refine ⟨workspaceId', g', hproper', rfl, ?_, ?_, ?_⟩
    · rw [hlive, Function.update_of_ne, hold]
      intro heq
      obtain ⟨rfl, hhash⟩ := pointerTo_injective hproper'.valid hproper.valid heq
      refine hq ?_
      rw [objectTail, hex_eq_of_hashOf_eq hhash]
      rfl
    · rw [hdisk, unlink, Function.update_of_ne hne, hdir]
    · rw [hdisk, unlink, Function.update_of_ne hne', hroot]
  live pointer data hdata := by
    rw [hlive] at hdata
    have hne : pointer ≠ pointerTo workspaceId (hashOf g) := by
      rintro rfl
      rw [Function.update_self] at hdata
      cases hdata
    rw [Function.update_of_ne hne] at hdata
    obtain ⟨hmem, workspaceId', hproper', hpointer, hfile⟩ := h.live pointer data hdata
    refine ⟨hmem, workspaceId', hproper', hpointer, ?_⟩
    rw [hdisk, file_unlink, if_neg, hfile]
    intro heq
    obtain ⟨rfl, htail⟩ := List.cons.inj (List.append_cancel_left heq)
    rw [hpointer, objectTail_injective htail] at hne
    exact hne rfl

theorem delete_spec (h : Inv sha256 root D s) {s' : History}
    (hs : step sha256 root s (.delete pointer) = some s') :
    (Isolated sha256 root s (.delete pointer) s' ↔ Kept root s (.delete pointer)) ∧
      (Kept root s (.delete pointer) → Inv sha256 root D s') := by
  cases hread : (parsePointer pointer).bind fun parsed => s.live (pointerTo parsed.1 parsed.2) with
  | none =>
    obtain rfl := Option.some.inj ((delete_absent h hread).symm.trans hs)
    refine ⟨iff_of_true (isolated_of_inv h h (by simp) (fun _ _ _ _ => rfl) fun _ _ => rfl) ?_,
      fun _ => h⟩
    intro workspaceId contentHash hparse
    rw [hparse] at hread
    exact .inr hread
  | some data =>
    obtain ⟨⟨workspaceId, contentHash⟩, hparse, hlive⟩ := Option.bind_eq_some_iff.mp hread
    obtain ⟨hvalid, g, rfl⟩ := parsePointer_eq_some hparse
    obtain ⟨-, workspaceId', hproper, hpointer, -⟩ := h.live _ data hlive
    obtain ⟨rfl, -⟩ := pointerTo_injective hvalid hproper.valid hpointer
    have hfile := h.file_eq_live hproper g
    have hnode := file_eq_some.mp (hfile.trans hlive)
    have hdelete : (delete root s.disk pointer).2 =
        unlink s.disk (root ++ workspaceId :: objectTail g) := by
      simp only [delete, hparse, hproper.pathFor, hnode]
    simp only [step, hdelete, Option.some.injEq] at hs
    subst hs
    have hkept : Kept root s (.delete pointer) ↔ pointer = pointerTo workspaceId (hashOf g) := by
      constructor
      · intro hkept
        refine (hkept workspaceId (hashOf g) hparse).resolve_right fun hnone => ?_
        rw [show s.live (pointerTo workspaceId (hashOf g)) = some data from hlive] at hnone
        cases hnone
      · intro heq workspaceId' contentHash' hparse'
        obtain ⟨rfl, rfl⟩ := Prod.mk.inj (Option.some.inj (hparse.symm.trans hparse'))
        exact .inl heq
    rw [hkept]
    by_cases heq : pointer = pointerTo workspaceId (hashOf g)
    · have hinv : Inv sha256 root D ⟨unlink s.disk (root ++ workspaceId :: objectTail g),
          Function.update s.live pointer none⟩ := inv_delete h hproper rfl (by rw [heq])
      refine ⟨iff_of_true (isolated_of_inv h hinv (by simp) ?_ ?_) heq, fun _ => hinv⟩
      · intro workspaceId' g' hvalid' hne
        refine Function.update_of_ne (fun hsame => hne ?_) _ _
        rw [heq] at hsame
        rw [(pointerTo_injective hvalid' hvalid hsame).1, Op.workspace, hparse]
        rfl
      · intro path houtside
        refine (file_unlink _ _ _).trans (if_neg ?_)
        rintro rfl
        refine houtside workspaceId (by rw [Op.workspace, hparse]; rfl) ?_
        exact (List.prefix_append_right_inj root).mpr ⟨_, rfl⟩
    · -- the object is gone, and nothing was said about its pointer
      refine ⟨iff_of_false (fun hisolated => ?_) heq, fun heq' => absurd heq' heq⟩
      have hkeeps : Function.update s.live pointer none (pointerTo workspaceId (hashOf g)) =
          some data := by
        rw [Function.update_of_ne (Ne.symm heq)]
        exact hlive
      have hserved := congrArg Except.toOption (hisolated.serves _ _ hkeeps)
      rw [get_toOption, parsePointer_pointerTo hvalid, Option.bind_some, hproper.pathFor,
        Option.bind_some, file_unlink, if_pos rfl] at hserved
      cases hserved

end Delete

/-! ### A workspace is cleared -/

section Clear
variable {sha256 : Bytes → Digest} {root : Path} {D : Set Bytes} {s s' : History}
  {workspaceId : String}

/-- Only the files of the workspace are gone. -/
structure Cleared (root : Path) (s : History) (workspaceId : String) (s' : History) : Prop where
  files : ∀ q, file s'.disk q = if root ++ [workspaceId] <+: q then none else file s.disk q
  dir : ∀ q, s'.disk q = some .dir → s.disk q = some .dir
  kept : ∀ other parts data, file s'.disk (root ++ other :: parts) = some data →
    s'.disk (root ++ [other]) = s.disk (root ++ [other]) ∧ s'.disk root = s.disk root
  live : ∀ pointer, s'.live pointer =
    if (parsePointer pointer).map Prod.fst = some workspaceId then none else s.live pointer

theorem prefix_iff {other : String} {parts : Path} :
    root ++ [workspaceId] <+: root ++ other :: parts ↔ workspaceId = other := by
  rw [List.prefix_append_right_inj, List.cons_prefix_cons]
  exact and_iff_left List.nil_prefix

theorem Cleared.inv (h : Inv sha256 root D s) (hcleared : Cleared root s workspaceId s') :
    Inv sha256 root D s' where
  above path hpath := by
    rw [hcleared.files, h.above path hpath, ite_self]
  depth parts hdir := h.depth parts (hcleared.dir _ hdir)
  objects parts data hfile := by
    have hold := hfile
    rw [hcleared.files] at hold
    split_ifs at hold with hgone
    obtain ⟨other, g, hproper, rfl, hlive, hdir, hroot⟩ := h.objects parts data hold
    obtain ⟨hdir', hroot'⟩ := hcleared.kept other _ data hfile
    refine ⟨other, g, hproper, rfl, ?_, hdir'.trans hdir, hroot'.trans hroot⟩
    rw [hcleared.live, parsePointer_pointerTo hproper.valid]
    refine (if_neg fun hsame => hgone ?_).trans hlive
    exact prefix_iff.mpr (Option.some.inj hsame).symm
  live pointer data hlive := by
    rw [hcleared.live] at hlive
    split_ifs at hlive with hgone
    obtain ⟨hmem, other, hproper, rfl, hfile⟩ := h.live pointer data hlive
    refine ⟨hmem, other, hproper, rfl, ?_⟩
    rw [hcleared.files, if_neg, hfile]
    intro hunder
    refine hgone ?_
    rw [parsePointer_pointerTo hproper.valid, prefix_iff.mp hunder]
    rfl

theorem Cleared.isolated (h : Inv sha256 root D s) (hcleared : Cleared root s workspaceId s') :
    Isolated sha256 root s (.clearWorkspace workspaceId) s' := by
  refine isolated_of_inv h (hcleared.inv h)
    (by simp) (fun other g hvalid hne => ?_) fun path hpath => ?_
  · rw [hcleared.live, parsePointer_pointerTo hvalid]
    exact if_neg fun hsame => hne (congrArg some (Option.some.inj hsame).symm)
  · rw [hcleared.files, if_neg (hpath workspaceId rfl)]

theorem Inv.file_eq_none (h : Inv sha256 root D s) (hproper : ¬Proper workspaceId) {q : Path}
    (hq : root ++ [workspaceId] <+: q) : file s.disk q = none := by
  by_contra hne
  obtain ⟨data, hfile⟩ := Option.ne_none_iff_exists'.mp hne
  obtain ⟨rest, rfl⟩ := hq
  rw [List.append_assoc] at hfile
  obtain ⟨other, g, hother, heq, -⟩ := h.objects _ data hfile
  obtain ⟨rfl, -⟩ := List.cons.inj heq
  exact hproper hother

theorem cleared_proper (h : Inv sha256 root D s) (hproper : Proper workspaceId)
    (hs : step sha256 root s (.clearWorkspace workspaceId) = some s') :
    Cleared root s workspaceId s' := by
  obtain rfl := Option.some.inj hs
  have hdepth : file s.disk (root ++ [workspaceId]) = none := h.free (by simp) (List.prefix_refl _)
  have hclear : (clearWorkspace root s.disk workspaceId).2 =
      if s.disk (root ++ [workspaceId]) = none then s.disk
      else rmtree s.disk (root ++ [workspaceId]) := by
    simp only [clearWorkspace, hproper.valid, hproper.ne_dots.2, hproper.resolve, Bool.not_true,
      Bool.false_eq_true, if_false]
    cases hnode : s.disk (root ++ [workspaceId]) with
    | none => rfl
    | some node =>
      cases node with
      | dir => rfl
      | file data =>
        rw [file_eq_some.mpr hnode] at hdepth
        cases hdepth
  have hroot : ¬root ++ [workspaceId] <+: root := fun hunder => by
    have hle := hunder.length_le
    rw [List.length_append, List.length_singleton] at hle
    omega
  refine ⟨fun q => ?_, fun q => ?_, fun other parts data hfile => ?_, fun _ => rfl⟩
  · dsimp only
    rw [hclear]
    by_cases hnone : s.disk (root ++ [workspaceId]) = none
    · rw [if_pos hnone]
      split_ifs with hq
      · by_contra hne
        obtain ⟨data, hfile⟩ := Option.ne_none_iff_exists'.mp hne
        obtain ⟨rest, rfl⟩ := hq
        rw [List.append_assoc] at hfile
        obtain ⟨other, g, -, heq, -, hdir, -⟩ := h.objects _ data hfile
        obtain ⟨rfl, -⟩ := List.cons.inj heq
        rw [hnone] at hdir
        cases hdir
      · rfl
    · rw [if_neg hnone, file_rmtree]
  · dsimp only
    rw [hclear]
    split_ifs with hnone
    · exact id
    · unfold rmtree
      split_ifs <;> simp
  · dsimp only at hfile ⊢
    rw [hclear] at hfile ⊢
    split_ifs at hfile ⊢ with hnone
    · exact ⟨rfl, rfl⟩
    · rw [file_rmtree] at hfile
      split_ifs at hfile with hq
      have hother : ¬root ++ [workspaceId] <+: root ++ [other] := fun hunder =>
        hq (prefix_iff.mpr (prefix_iff.mp hunder))
      exact ⟨if_neg hother, if_neg hroot⟩

theorem cleared_of_same (h : Inv sha256 root D s) (hproper : ¬Proper workspaceId)
    (hs : step sha256 root s (.clearWorkspace workspaceId) = some s')
    (hfiles : ∀ q, file s'.disk q = file s.disk q)
    (hdir : ∀ q, s'.disk q = some .dir → s.disk q = some .dir)
    (hkept : s'.disk = s.disk ∨ ∀ other parts, file s.disk (root ++ other :: parts) = none) :
    Cleared root s workspaceId s' := by
  refine ⟨fun q => ?_, hdir, fun other parts data hfile => ?_, ?_⟩
  · rw [hfiles]
    split_ifs with hq
    · exact h.file_eq_none hproper hq
    · rfl
  · obtain hsame | hnone := hkept
    · rw [hsame]
      exact ⟨rfl, rfl⟩
    · rw [hfiles, hnone] at hfile
      cases hfile
  · obtain rfl := Option.some.inj hs
    exact fun _ => rfl

theorem dot_not_proper : ¬Proper "." := fun h => h.ne_dots.1 rfl

theorem dots_not_proper : ¬Proper ".." := fun h => h.ne_dots.2 rfl

theorem not_prefix_dots (h : Inv sha256 root D s) (hproper : ¬Proper workspaceId) {path : Path}
    (hfile : file s.disk path ≠ none) : ¬root ++ [workspaceId] <+: path := fun hunder =>
  hfile (h.file_eq_none hproper hunder)

/-- **Clearing `.`** removes every file of the store. -/
theorem clear_dot (h : Inv sha256 root D s)
    (hs : step sha256 root s (.clearWorkspace ".") = some s') :
    (Isolated sha256 root s (.clearWorkspace ".") s' ↔ Kept root s (.clearWorkspace ".")) ∧
      (Kept root s (.clearWorkspace ".") → Inv sha256 root D s') := by
  have hclear : (clearWorkspace root s.disk ".").2 =
      if s.disk root = none then s.disk else rmtree s.disk root := by
    have hvalid : validWorkspaceId "." = true := by decide
    have hresolve : resolve root ["."] = root := by simp [resolve]
    have habove := h.above root (List.prefix_refl _)
    simp only [clearWorkspace, hvalid, hresolve, Bool.not_true, Bool.false_eq_true, if_false,
      show ("." : String) ≠ ".." by decide]
    cases hnode : s.disk root with
    | none => rfl
    | some node =>
      cases node with
      | dir => rfl
      | file data =>
        rw [file_eq_some.mpr hnode] at habove
        cases habove
  have hdisk : s'.disk = if s.disk root = none then s.disk else rmtree s.disk root := by
    obtain rfl := Option.some.inj hs
    exact hclear
  have hkept :
    Kept root s (.clearWorkspace ".") ↔ ∀ path, root <+: path → file s.disk path = none :=
    ⟨fun hkept => hkept.1 rfl, fun hnone => ⟨fun _ => hnone, fun heq => absurd heq (by decide)⟩⟩
  rw [hkept]
  by_cases hnone : ∀ path, root <+: path → file s.disk path = none
  · have hcleared : Cleared root s "." s' := by
      refine cleared_of_same h dot_not_proper hs (fun q => ?_) (fun q =>
        ?_) (.inr fun other parts =>
        hnone _ (List.prefix_append _ _))
      · rw [hdisk]
        split_ifs
        · rfl
        · rw [file_rmtree]
          split_ifs with hq
          · exact (hnone q hq).symm
          · rfl
      · rw [hdisk]
        split_ifs
        · exact id
        · unfold rmtree
          split_ifs <;> simp
    exact ⟨iff_of_true (hcleared.isolated h) hnone, fun _ => hcleared.inv h⟩
  · refine ⟨iff_of_false (fun hisolated => hnone fun path hpath => ?_) hnone,
      fun h => absurd h hnone⟩
    by_contra hfile
    obtain ⟨data, hdata⟩ := Option.ne_none_iff_exists'.mp hfile
    have hsame := hisolated.files path fun workspaceId hsome => by
      obtain rfl := Option.some.inj hsome
      exact not_prefix_dots h dot_not_proper hfile
    obtain ⟨parts, rfl⟩ := hpath
    obtain ⟨-, -, -, -, -, -, hroot⟩ := h.objects parts data hdata
    rw [hdisk, if_neg (by simp [hroot]), file_rmtree, if_pos (List.prefix_append _ _),
      hdata] at hsame
    cases hsame

/-- **Clearing `..`** removes every file below the directory above the root. -/
theorem clear_dots (h : Inv sha256 root D s)
    (hs : step sha256 root s (.clearWorkspace "..") = some s') :
    (Isolated sha256 root s (.clearWorkspace "..") s' ↔ Kept root s (.clearWorkspace "..")) ∧
      (Kept root s (.clearWorkspace "..") → Inv sha256 root D s') := by
  have hvalid : validWorkspaceId ".." = true := by decide
  by_cases hroot : s.disk root = some .dir
  · have hdisk : s'.disk = fun path =>
        if root.dropLast <+: path ∧ path ≠ root.dropLast then none else s.disk path := by
      obtain rfl := Option.some.inj hs
      simp only [clearWorkspace, hvalid, hroot, Bool.not_true, Bool.false_eq_true, if_false,
        if_true]
    have hfile : ∀ q, file s'.disk q =
        if root.dropLast <+: q ∧ q ≠ root.dropLast then none else file s.disk q := by
      intro q
      rw [hdisk]
      unfold file
      dsimp only
      split_ifs <;> rfl
    have hkept : Kept root s (.clearWorkspace "..") ↔
        ∀ path, root.dropLast <+: path → path ≠ root.dropLast → file s.disk path = none :=
      ⟨fun hkept => hkept.2 rfl hroot, fun hnone =>
        ⟨fun heq => absurd heq (by decide), fun _ _ => hnone⟩⟩
    rw [hkept]
    by_cases hnone : ∀ path, root.dropLast <+: path → path ≠ root.dropLast → file s.disk path = none
    · have hcleared : Cleared root s ".." s' := by
        refine cleared_of_same h dots_not_proper hs (fun q => ?_) (fun q => ?_)
          (.inr fun other parts => hnone _ ?_ ?_)
        · rw [hfile]
          split_ifs with hq
          · exact (hnone q hq.1 hq.2).symm
          · rfl
        · rw [hdisk]
          dsimp only
          split_ifs <;> simp
        · have hparent := List.dropLast_prefix root
          exact hparent.trans (List.prefix_append _ _)
        · intro heq
          have hlength := congrArg List.length heq
          rw [List.length_append, List.length_cons, List.length_dropLast] at hlength
          omega
      exact ⟨iff_of_true (hcleared.isolated h) hnone, fun _ => hcleared.inv h⟩
    · refine ⟨iff_of_false (fun hisolated => hnone fun path hpath hne => ?_) hnone, fun h =>
        absurd h hnone⟩
      by_contra hsome
      have hsame := hisolated.files path fun workspaceId heq => by
        obtain rfl := Option.some.inj heq
        exact not_prefix_dots h dots_not_proper hsome
      rw [hfile, if_pos ⟨hpath, hne⟩] at hsame
      exact hsome hsame.symm
  · have hdisk : s'.disk = s.disk := by
      obtain rfl := Option.some.inj hs
      simp only [clearWorkspace, hvalid, Bool.not_true, Bool.false_eq_true, if_false, if_true]
    have hcleared : Cleared root s ".." s' := by
      refine cleared_of_same h dots_not_proper hs (fun q => ?_) (fun q => ?_) (.inl hdisk)
      · rw [hdisk]
      · rw [hdisk]
        exact id
    exact ⟨iff_of_true (hcleared.isolated h) ⟨fun heq => absurd heq (by decide), fun _ hdir =>
      absurd hdir hroot⟩, fun _ => hcleared.inv h⟩

theorem clear_spec (h : Inv sha256 root D s)
    (hs : step sha256 root s (.clearWorkspace workspaceId) = some s') :
    (Isolated sha256 root s (.clearWorkspace workspaceId) s' ↔
        Kept root s (.clearWorkspace workspaceId)) ∧
      (Kept root s (.clearWorkspace workspaceId) → Inv sha256 root D s') := by
  by_cases hdot : workspaceId = "."
  · subst hdot
    exact clear_dot h hs
  by_cases hdots : workspaceId = ".."
  · subst hdots
    exact clear_dots h hs
  have hcleared : Cleared root s workspaceId s' := by
    by_cases hvalid : validWorkspaceId workspaceId = true
    · exact cleared_proper h ⟨hvalid, hdot, hdots⟩ hs
    · have hdisk : s'.disk = s.disk := by
        obtain rfl := Option.some.inj hs
        simp [clearWorkspace, hvalid]
      refine cleared_of_same h (fun hproper => hvalid hproper.valid) hs (fun q => ?_) (fun q => ?_)
        (.inl hdisk)
      · rw [hdisk]
      · rw [hdisk]
        exact id
  exact ⟨iff_of_true (hcleared.isolated h) ⟨fun heq => absurd heq hdot,
    fun heq => absurd heq hdots⟩,
    fun _ => hcleared.inv h⟩

end Clear

/-! ### Histories -/

section Histories
variable {sha256 : Bytes → Digest} {root : Path}

theorem inv_init (root : Path) (others : Disk) (D : Set Bytes) :
    Inv sha256 root D (init root others) where
  above path hpath := by simp [file, init, hpath]
  depth parts hdir := by
    simp only [init] at hdir
    split_ifs at hdir with hunder hbelow
    · have hle := hunder.length_le
      rw [List.length_append] at hle
      omega
    · exact absurd (List.prefix_append _ _) hbelow
  objects parts data hfile := by
    simp only [file, init, List.prefix_append, if_true] at hfile
    split_ifs at hfile
  live _ _ h := nomatch h

/-- The data that are put. -/
def dataOf (ops : List Op) :
    Set Bytes := {data | ∃ workspaceId key, .put workspaceId key data ∈ ops}

theorem exists_exec (ops : List Op) (s : History) :
    ∃ t, exec (step sha256 root) s ops = some t := by
  induction ops generalizing s with
  | nil => exact ⟨s, rfl⟩
  | cons op ops ih =>
    obtain ⟨s', hs⟩ : ∃ s', step sha256 root s op = some s' := by
      cases op with
      | put workspaceId key data =>
        cases hput : put sha256 root s.disk workspaceId key data with
        | mk result disk =>
          cases result with
          | ok pointer => exact ⟨_, by simp only [step, hput]; rfl⟩
          | error failure => exact ⟨_, by simp only [step, hput]; rfl⟩
      | get pointer | delete pointer | clearWorkspace workspaceId => exact ⟨_, rfl⟩
    obtain ⟨t, ht⟩ := ih s'
    exact ⟨t, exec_cons_eq_some.mpr ⟨s', hs, ht⟩⟩

/-- **Every call of a history does what it is to do**, and leaves the other workspaces and files
alone, exactly if every call meets its condition; SHA-256 is to tell the data that are put apart. -/
theorem objects_isolated_iff (sha256 : Bytes → Digest) (root : Path) (others : Disk) (ops : List Op)
    (hinj : Set.InjOn sha256 (dataOf ops)) :
    (∀ pre op post s s', ops = pre ++ op :: post →
        exec (step sha256 root) (init root others) pre = some s → step sha256 root s op = some s' →
        Isolated sha256 root s op s') ↔
      Guarded (step sha256 root) (Kept root) (init root others) ops := by
  have hdata : Guarded (step sha256 root) (fun _ op => ∀ workspaceId key data,
      op = .put workspaceId key data → data ∈ dataOf ops) (init root others) ops := by
    refine guarded_iff.mpr ?_
    rintro pre op post s hsplit - workspaceId key data rfl
    exact ⟨workspaceId, key, by simp [hsplit]⟩
  obtain ⟨t, hrun⟩ : ∃ t, exec (step sha256 root) (init root others) ops = some t :=
    exists_exec ops _
  refine steps_iff_guarded (J := Inv sha256 root (dataOf ops)) ?_ (inv_init root others _) hdata
    hrun
  intro s op s' hinv hput hs
  cases op with
  | put workspaceId key data => exact put_spec hinv hinj (hput workspaceId key data rfl) hs
  | get pointer =>
    obtain rfl := Option.some.inj hs
    exact ⟨iff_of_true
      (isolated_of_inv hinv hinv (by simp) (fun _ _ _ _ => rfl) fun _ _ => rfl) trivial,
      fun _ => hinv⟩
  | delete pointer => exact delete_spec hinv hs
  | clearWorkspace workspaceId => exact clear_spec hinv hs

/-- SHA-256 of the two bytes of `hi`. -/
def digestOfHi : Digest where
  hex := "8f434346648f6b96df89dda901c5176b10a6d83961dd3c1ac88b59b2dc327aa4"
  length_hex := by decide
  hex_chars := List.all_eq_true.mp (by decide)

/-- Something is put, and the workspace is cleared. -/
def putAndCleared : List Op := [.put "ws_a" "greeting" [104, 105], .clearWorkspace "ws_a"]

theorem injOn_dataOf_pair (op : Op) (hop : ∀ workspaceId key data, op ≠ .put workspaceId key data) :
    Set.InjOn (fun _ => digestOfHi) (dataOf [.put "ws_a" "greeting" [104, 105], op]) := by
  have honly : ∀ data ∈ dataOf [.put "ws_a" "greeting" [104, 105], op], data = [104, 105] := by
    rintro data ⟨workspaceId, key, hmem⟩
    obtain heq | hmem := List.mem_cons.mp hmem
    · exact (Op.put.inj heq).2.2
    · exact absurd (List.mem_singleton.mp hmem).symm (hop _ _ _)
  intro data hdata data' hdata' _
  rw [honly data hdata, honly data' hdata']

theorem isolated_putAndCleared : Set.InjOn (fun _ => digestOfHi) (dataOf putAndCleared) ∧
    ∀ pre op post s s', putAndCleared = pre ++ op :: post →
      exec (step (fun _ => digestOfHi) ["srv", "objects"])
        (init ["srv", "objects"] fun _ => none) pre = some s →
      step (fun _ => digestOfHi) ["srv", "objects"] s op = some s' →
      Isolated (fun _ => digestOfHi) ["srv", "objects"] s op s' := by
  have hinj := injOn_dataOf_pair (.clearWorkspace "ws_a") (by simp)
  refine ⟨hinj, (objects_isolated_iff (fun _ => digestOfHi) ["srv", "objects"] (fun _ => none)
    putAndCleared hinj).mpr ?_⟩
  exact ⟨fun _ => by decide, fun _ _ =>
    ⟨⟨fun h => absurd h (by decide), fun h => absurd h (by decide)⟩, fun _ _ => trivial⟩⟩

/-- **Clearing the workspace `.`** loses what is in the others. -/
theorem not_isolated_dot :
    ¬∀ (sha256 : Bytes → Digest) (root : Path) (others : Disk) (ops : List Op),
    Set.InjOn sha256 (dataOf ops) → ∀ pre op post s s', ops = pre ++ op :: post →
      exec (step sha256 root) (init root others) pre = some s → step sha256 root s op = some s' →
      Isolated sha256 root s op s' := by
  intro h
  have hinj := injOn_dataOf_pair (.clearWorkspace ".") (by simp)
  have hdata : [104, 105] ∈ dataOf [.put "ws_a" "greeting" [104, 105], .clearWorkspace "."] :=
    ⟨"ws_a", "greeting", List.mem_cons_self⟩
  have hproper : Proper "ws_a" := ⟨by decide, by decide⟩
  have hinit : Inv (fun _ => digestOfHi) ["srv", "objects"]
      (dataOf [.put "ws_a" "greeting" [104, 105], .clearWorkspace "."])
      (init ["srv", "objects"] fun _ => none) := inv_init _ _ _
  have hkey : "greeting" ≠ "" := by decide
  obtain ⟨disk, hput, hwritten⟩ := put_proper hinit hinj hproper hkey hdata
  obtain ⟨s, hs⟩ : ∃ s, step (fun _ => digestOfHi) ["srv", "objects"]
      (init ["srv", "objects"] fun _ => none) (.put "ws_a" "greeting" [104, 105]) = some s :=
    ⟨_, by simp only [step, hput]; rfl⟩
  have hinv := ((put_spec hinit hinj hdata hs).2 fun _ => by decide)
  obtain ⟨s', hs'⟩ : ∃ s', step (fun _ => digestOfHi) ["srv", "objects"] s (.clearWorkspace ".") =
      some s' := ⟨_, rfl⟩
  have hisolated := h (fun _ => digestOfHi) ["srv", "objects"] (fun _ => none)
    [.put "ws_a" "greeting" [104, 105], .clearWorkspace "."] hinj
    [.put "ws_a" "greeting" [104, 105]] (.clearWorkspace ".") [] s s' rfl
    (exec_cons_eq_some.mpr ⟨s, hs, rfl⟩) hs'
  have hnone := ((clear_dot hinv hs').1.mp hisolated).1 rfl
    (["srv", "objects"] ++ "ws_a" :: objectTail digestOfHi) (List.prefix_append _ _)
  have hdisk : s.disk = disk := by
    simp only [step, hput, Option.some.injEq] at hs
    rw [← hs]
  rw [hdisk, hwritten.file, if_pos rfl] at hnone
  cases hnone

end Histories

end Selfevals.Storage.ObjectStore
