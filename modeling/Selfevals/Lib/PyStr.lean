import Mathlib.Tactic

/-!
# Python's `str`

`isSpace` is `str.isspace` of one character, `strip` is `str.strip()`, and `partition` splits a
string at the first occurrence of a separator, `rpartition` at the last and `splitOn` at every one.
-/

namespace Selfevals.Lib.PyStr

/-- The white space that `str.strip()` drops. -/
def isSpace (c : Char) : Bool :=
  (9 ≤ c.toNat && c.toNat ≤ 13) || (0x1C ≤ c.toNat && c.toNat ≤ 0x20) ||
    [0x85, 0xA0, 0x1680, 0x2028, 0x2029, 0x202F, 0x205F, 0x3000].contains c.toNat ||
    (0x2000 ≤ c.toNat && c.toNat ≤ 0x200A)

/-- `s.strip()`. -/
def strip (s : String) : String :=
  String.ofList ((s.toList.dropWhile isSpace).reverse.dropWhile isSpace).reverse

/-- `s.partition(sep)`: what stands before and after the separator, where `sep in s`. -/
def partition (sep : Char) (s : String) : Option (String × String) :=
  if sep ∈ s.toList then
    some (String.ofList (s.toList.takeWhile (· ≠ sep)),
      String.ofList ((s.toList.dropWhile (· ≠ sep)).drop 1))
  else none

/-- `s.rpartition(sep)`, likewise at the last occurrence. -/
def rpartition (sep : Char) (s : String) : Option (String × String) :=
  if sep ∈ s.toList then
    some (String.ofList ((s.toList.reverse.dropWhile (· ≠ sep)).drop 1).reverse,
      String.ofList (s.toList.reverse.takeWhile (· ≠ sep)).reverse)
  else none

/-- `s.split(sep)`. -/
def splitOn (sep : Char) (s : String) : List String := (s.toList.splitOn sep).map String.ofList

/-- `f"{s}{sep}{t}"`. -/
def joined (sep : Char) (s t : String) : String := s ++ String.singleton sep ++ t

@[simp] theorem toList_joined (sep : Char) (s t : String) :
    (joined sep s t).toList = s.toList ++ sep :: t.toList := by
  simp [joined]

example : partition ':' "pkg.agent:run" = some ("pkg.agent", "run") := by decide

theorem rpartition_joined {sep : Char} {s t : String} (h : sep ∉ t.toList) :
    rpartition sep (joined sep s t) = some (s, t) := by
  have hmem : sep ∈ s.toList ++ sep :: t.toList := by simp
  have hchars : ∀ c ∈ t.toList.reverse, decide (c ≠ sep) = true := by
    intro c hc
    have hne : c ≠ sep := fun heq => h (heq ▸ List.mem_reverse.mp hc)
    simpa using hne
  rw [rpartition, toList_joined, if_pos hmem, List.reverse_append, List.reverse_cons,
    List.append_assoc,
    List.dropWhile_append_of_pos hchars, List.takeWhile_append_of_pos hchars]
  simp

theorem splitOn_eq_singleton {sep : Char} {s : String} (h : sep ∉ s.toList) :
    splitOn sep s = [s] := by
  rw [splitOn, List.splitOn_eq_singleton h]
  simp

theorem splitOn_joined {sep : Char} {s t : String} (h : sep ∉ s.toList) :
    splitOn sep (joined sep s t) = s :: splitOn sep t := by
  rw [splitOn, toList_joined, List.splitOn_append_cons_self_of_not_mem h, List.map_cons,
    String.ofList_toList]
  rfl

theorem not_mem_of_mem_splitOn {sep : Char} {s part : String} (h : part ∈ splitOn sep s) :
    sep ∉ part.toList := by
  obtain ⟨cs, hcs, rfl⟩ := List.mem_map.mp h
  rw [String.toList_ofList]
  clear h
  generalize s.toList = rest at hcs
  induction rest generalizing cs with
  | nil =>
    rw [List.splitOn_nil, List.mem_singleton] at hcs
    simp [hcs]
  | cons c rest ih =>
    rw [List.splitOn_cons_eq_if_modifyHead] at hcs
    split_ifs at hcs with hc
    · obtain rfl | hcs := List.mem_cons.mp hcs
      · simp
      · exact ih cs hcs
    · cases hrest : rest.splitOn sep with
      | nil => simp at hrest
      | cons first others =>
        rw [hrest, List.modifyHead_cons] at hcs
        obtain rfl | hcs := List.mem_cons.mp hcs
        · have hfirst := ih first (by simp [hrest])
          have hne : sep ≠ c := fun heq => hc (by simp [heq])
          simp [hne, hfirst]
        · exact ih cs (by simp [hrest, hcs])

end Selfevals.Lib.PyStr
