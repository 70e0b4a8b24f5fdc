import Selfevals.Graders.Classification
import Selfevals.Lib.JsonPath

/-!
# What a selector selects

`select` walks a path in a loop: at first from one value to the next, and once it has entered a list
over all its items at once. In this second mode it asserts that it holds a list.
-/

namespace Selfevals.Graders.SelectLoop

open Graders.Classification (steps projectStep selectFrom)
open Graders.Select Lib.JsonPath Lib.JsonValue Lib.PyStr

/-! ### The loop -/

/-- The container that a step enters. -/
def container (current : Json) (key : String) : Json :=
  match current with
  | .obj fields => if key ≠ "" then dictGet fields key else current
  | _ => current

/-- The loop of `select`, with its two variables; `none` is the `AssertionError`. -/
def walk (current : Json) (projecting : Bool) : List (String × Bool) → Option Json
  | [] => some current
  | (key, isProjection) :: rest =>
    if projecting then
      match current with
      | .arr items => walk (.arr (projectStep items (key, isProjection))) true rest
      | _ => none
    else if !isProjection then
      walk (match current with | .obj fields => dictGet fields key | _ => .null) false rest
    else
      match container current key with
      | .arr items => walk (.arr items) true rest
      | _ => some .null

/-- `select(root, path)`. -/
def select (root : Json) (path : String) : Option Json := walk root false (steps path)

theorem walk_true (path : List (String × Bool)) (items : List Json) :
    walk (.arr items) true path = some (.arr (path.foldl projectStep items)) := by
  induction path generalizing items with
  | nil => rfl
  | cons step path ih => exact ih (projectStep items step)

theorem selectFrom_each (current : Json) (key : String) (path : List (String × Bool)) :
    selectFrom current ((key, true) :: path) =
      match items? (container current key) with
      | some items => .arr (path.foldl projectStep items)
      | none => .null := by
  have hcontainer : selectFrom current ((key, true) :: path) =
      match container current key with
      | .arr items => .arr (path.foldl projectStep items)
      | _ => .null := by
    cases current <;> rfl
  rw [hcontainer]
  cases container current key <;> rfl

/-- **The loop never fails**, and selects what the recursion does. -/
theorem walk_false (path : List (String × Bool)) (current : Json) :
    walk current false path = some (selectFrom current path) := by
  induction path generalizing current with
  | nil => rfl
  | cons step path ih =>
    obtain ⟨key, isProjection⟩ := step
    cases isProjection with
    | false => cases current <;> exact ih _
    | true =>
      rw [selectFrom_each]
      unfold walk
      cases container current key <;> first | exact walk_true path _ | rfl

/-! ### The steps of a path -/

/-- A step of the walk as a step of a path. -/
def toStep : String × Bool → Step
  | (key, false) => .key key
  | (key, true) => .each key

theorem key_ne_of_mem_steps {path : String} (hpath : validatePath path = .ok ())
    {step : String × Bool} (h : step ∈ steps path) : step.1 ≠ "" := by
  obtain ⟨raw, hraw, rfl⟩ := List.mem_map.mp h
  have hok := (validatePath_ok_iff path).mp hpath raw hraw
  dsimp only
  split_ifs with hsuffix
  · rintro hempty
    obtain ⟨start, hstart⟩ := List.isSuffixOf_iff_suffix.mp hsuffix
    have hnil : start = [] := by
      have htake : raw.toList.take (raw.toList.length - 2) = start := by
        rw [← hstart]
        simp
      rw [← htake]
      simpa using hempty
    rw [hnil, List.nil_append] at hstart
    obtain rfl : raw = "[]" := String.toList_injective hstart.symm
    exact absurd hok (by decide)
  · rintro rfl
    exact absurd hok (by decide)

theorem projectStep_flatMap (items : List Json) (step : String × Bool) :
    projectStep items step = items.flatMap fun element => projectStep [element] step := by
  unfold projectStep
  dsimp only
  split
  · rw [List.filterMap_eq_flatMap_toList, List.flatMap_assoc]
    refine List.flatMap_congr fun element _ => ?_
    rw [List.filterMap_eq_flatMap_toList, List.flatMap_singleton]
  · rw [List.filterMap_eq_flatMap_toList]
    refine List.flatMap_congr fun element _ => ?_
    rw [List.filterMap_eq_flatMap_toList, List.flatMap_singleton]

theorem projectStep_singleton {step : String × Bool} (hkey : step.1 ≠ "") (element : Json) :
    projectStep [element] step = (toStep step).reach element := by
  obtain ⟨key, isProjection⟩ := step
  cases element with
  | obj fields =>
    cases isProjection with
    | false =>
      by_cases hnull : (dictGet fields key).isNull = true
      · simp [projectStep, toStep, Step.reach, valueAt, hkey, hnull]
      · simp [projectStep, toStep, Step.reach, valueAt, hkey, hnull]
    | true =>
      cases hvalue : dictGet fields key <;>
        simp [projectStep, toStep, Step.reach, valueAt, items?, hkey, hvalue, Json.isNull]
  | _ => cases isProjection <;> simp [projectStep, toStep, Step.reach, valueAt, items?, Json.isNull]

/-- **In a list**, the loop selects all that the rest of the path reaches. -/
theorem foldl_projectStep {path : List (String × Bool)} (hkeys : ∀ step ∈ path, step.1 ≠ "")
    (items : List Json) :
    path.foldl projectStep items = items.flatMap (spread (path.map toStep)) := by
  rw [← foldl_flatMap_reach, List.foldl_map]
  refine List.foldl_ext _ _ _ fun found step hstep => ?_
  rw [projectStep_flatMap]
  exact List.flatMap_congr fun element _ => projectStep_singleton (hkeys step hstep) element

theorem items?_container {key : String} (hkey : key ≠ "") (current : Json) :
    items? (container current key) = (items? current).or (items? (valueAt key current)) := by
  cases current <;> simp [container, items?, valueAt, hkey]

/-- **The walk selects what the path stands for** exactly where it does not ask a list for a key. -/
theorem selectFrom_eq_denote_iff {path : List (String × Bool)} (hkeys : ∀ step ∈ path, step.1 ≠ "")
    (current : Json) : selectFrom current path = denote (path.map toStep) current ↔
      ¬AsksList (path.map toStep) current := by
  induction path generalizing current with
  | nil => exact iff_of_true rfl id
  | cons step path ih =>
    obtain ⟨key, isProjection⟩ := step
    obtain ⟨hkey, hrest⟩ := List.forall_mem_cons.mp hkeys
    cases isProjection with
    | false => cases current <;> exact ih hrest _
    | true =>
      rw [selectFrom_each, items?_container hkey, List.map_cons]
      by_cases hlist : (items? current).isSome = true
      · have hnull := denote_each_of_items hlist key (path.map toStep)
        obtain ⟨items, hitems⟩ := Option.isSome_iff_exists.mp hlist
        refine iff_of_false ?_ (not_not_intro hlist)
        rw [hitems, toStep, hnull]
        exact Json.noConfusion
      · rw [Option.not_isSome_iff_eq_none.mp hlist, Option.none_or]
        refine iff_of_true ?_ hlist
        rw [toStep, denote]
        cases items? (valueAt key current) with
        | none => rfl
        | some items => exact congrArg Json.arr (foldl_projectStep hrest items)

/-- **What a selector selects**: for a valid path the loop never fails, and it selects what the path
stands for exactly where the path's first list is not asked of a list. -/
theorem select_denotes_iff {path : String} (hpath : validatePath path = .ok ()) (root : Json) :
    select root path = some (denote ((steps path).map toStep) root) ↔
      ¬AsksList ((steps path).map toStep) root := by
  rw [select, walk_false, Option.some_inj]
  exact selectFrom_eq_denote_iff (fun _ => key_ne_of_mem_steps hpath) root

/-- The keys of the items of an object's list. -/
theorem select_items_key :
    select (.obj [("items", .arr [.obj [("k", .str "x")], .int 5, .obj []])]) "items[].k" =
      some (denote ((steps "items[].k").map toStep)
        (.obj [("items", .arr [.obj [("k", .str "x")], .int 5, .obj []])])) :=
  (select_denotes_iff ((validatePath_ok_iff _).mpr (by decide +kernel)) _).mpr (by decide +kernel)

/-- A list has no key `items`, but the items of the list itself are selected. -/
theorem not_denotes_list :
    ¬∀ path, validatePath path = .ok () → ∀ root : Json,
      select root path = some (denote ((steps path).map toStep) root) := by
  intro h
  have hselect : select (.arr [.obj [("k", .str "x")]]) "items[].k" = some (.arr [.str "x"]) := by
    decide +kernel
  have hdenote :
    denote ((steps "items[].k").map toStep) (.arr [.obj [("k", .str "x")]]) = .null := by
    decide +kernel
  have hsame := h "items[].k" ((validatePath_ok_iff _).mpr (by decide +kernel))
    (.arr [.obj [("k", .str "x")]])
  rw [hselect, hdenote] at hsame
  exact absurd hsame (by simp)

end Selfevals.Graders.SelectLoop
