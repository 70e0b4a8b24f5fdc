import Mathlib.Tactic

/-!
# File trees

A tree of directories and files, by the path from its root. `file` reads a file; each operation has
a lemma that says what every file holds after it.
-/

namespace Selfevals.Lib.FileTree

inductive Node (δ : Type*)
  | dir
  | file (data : δ)

/-- What is at each path, if anything is. -/
abbrev Tree (ν δ : Type*) := List ν → Option (Node δ)

variable {ν δ : Type*}

/-- The data of the file at a path; `none` where there is no file. -/
def file (t : Tree ν δ) (p : List ν) : Option δ :=
  match t p with
  | some (.file data) => some data
  | _ => none

theorem file_eq_some {t : Tree ν δ} {p : List ν} {data : δ} :
    file t p = some data ↔ t p = some (.file data) := by
  unfold file
  split
  · next data' h => simp [h]
  · next h => exact iff_of_false (by simp) (h data)

variable [DecidableEq ν]

/-- `mkdir(parents=True, exist_ok=True)`; `none` where a file is in the way. -/
def mkdirs (t : Tree ν δ) (p : List ν) : Option (Tree ν δ) :=
  if p.inits.any fun q => (file t q).isSome then none
  else some fun q => if q <+: p ∧ (t q).isNone then some .dir else t q

/-- The file at a path is written. -/
def writeFile (t : Tree ν δ) (p : List ν) (data : δ) : Tree ν δ :=
  Function.update t p (some (.file data))

/-- What is at a path is gone. -/
def unlink (t : Tree ν δ) (p : List ν) : Tree ν δ := Function.update t p none

/-- Removes what is at a path and below it. -/
def rmtree (t : Tree ν δ) (p : List ν) : Tree ν δ := fun q => if p <+: q then none else t q

section Lemmas
variable {t t' : Tree ν δ} {p q : List ν} {data : δ}

theorem mkdirs_eq_some : mkdirs t p = some t' ↔ (∀ q, q <+: p → file t q = none) ∧
    t' = fun q => if q <+: p ∧ (t q).isNone then some .dir else t q := by
  unfold mkdirs
  by_cases h : (p.inits.any fun q => (file t q).isSome) = true
  · rw [if_pos h]
    refine iff_of_false (by simp) fun ⟨hfree, _⟩ => ?_
    obtain ⟨q, hq, hfile⟩ := List.any_eq_true.mp h
    simp [hfree q (List.mem_inits q p |>.mp hq)] at hfile
  · rw [if_neg h, Option.some.injEq, eq_comm]
    refine (and_iff_right fun q hq => ?_).symm
    by_contra hfile
    exact h (List.any_eq_true.mpr ⟨q, (List.mem_inits q p).mpr hq,
      Option.isSome_iff_ne_none.mpr hfile⟩)

theorem file_mkdirs (h : mkdirs t p = some t') (q : List ν) : file t' q = file t q := by
  obtain ⟨-, rfl⟩ := mkdirs_eq_some.mp h
  unfold file
  dsimp only
  split_ifs with hnew
  · rw [Option.isNone_iff_eq_none.mp hnew.2]
  · rfl

theorem dir_mkdirs (h : mkdirs t p = some t') (hq : q <+: p) : t' q = some .dir := by
  obtain ⟨hfree, rfl⟩ := mkdirs_eq_some.mp h
  dsimp only
  cases hold : t q with
  | none => simp [hq]
  | some node =>
    cases node with
    | dir => simp
    | file data =>
      have hfile := hfree q hq
      rw [file_eq_some.mpr hold] at hfile
      cases hfile

theorem dir_of_mkdirs (h : mkdirs t p = some t') (hq : t' q = some .dir) :
    t q = some .dir ∨ q <+: p := by
  obtain ⟨-, rfl⟩ := mkdirs_eq_some.mp h
  dsimp only at hq
  split_ifs at hq with hnew
  · exact .inr hnew.1
  · exact .inl hq

theorem dir_of_dir_mkdirs (h : mkdirs t p = some t') (hq : t q = some .dir) : t' q = some .dir := by
  obtain ⟨-, rfl⟩ := mkdirs_eq_some.mp h
  simp [hq]

theorem file_writeFile (t : Tree ν δ) (p : List ν) (data : δ) (q : List ν) :
    file (writeFile t p data) q = if q = p then some data else file t q := by
  unfold file writeFile
  by_cases h : q = p
  · simp [h]
  · rw [Function.update_of_ne h, if_neg h]

theorem file_unlink (t : Tree ν δ) (p q : List ν) :
    file (unlink t p) q = if q = p then none else file t q := by
  unfold file unlink
  by_cases h : q = p
  · simp [h]
  · rw [Function.update_of_ne h, if_neg h]

theorem file_rmtree (t : Tree ν δ) (p q : List ν) :
    file (rmtree t p) q = if p <+: q then none else file t q := by
  unfold file rmtree
  split_ifs <;> rfl

end Lemmas

end Selfevals.Lib.FileTree
