import Selfevals.Lib.JsonValue

/-!
# Paths into JSON values

A path is a list of steps: to the value of a key, or to each item of the list under a key. `spread`
is all that a path reaches from a value; a step that a value does not allow reaches nothing.
`denote` is what a path stands for: one value as long as it has only keys, and from its first list
on the list of all that the rest reaches.
-/

namespace Selfevals.Lib.JsonPath

open Lib.JsonValue

/-- A step of a path: a key, or every item of a list. -/
inductive Step
  | key (name : String)
  | each (name : String)
deriving DecidableEq

/-- The value of an object's key; `null` is no value. -/
def valueAt (name : String) : Json → Json
  | .obj fields => dictGet fields name
  | _ => .null

/-- The items of a list. -/
def items? : Json → Option (List Json)
  | .arr items => some items
  | _ => none

/-- What one step reaches from a value. -/
def Step.reach : Step → Json → List Json
  | .key name, v => if (valueAt name v).isNull then [] else [valueAt name v]
  | .each name, v => (items? (valueAt name v)).getD []

/-- What a path reaches from a value. -/
def spread : List Step → Json → List Json
  | [], v => [v]
  | step :: rest, v => (step.reach v).flatMap (spread rest)

/-- What a path stands for at a value. -/
def denote : List Step → Json → Json
  | [], v => v
  | .key name :: rest, v => denote rest (valueAt name v)
  | .each name :: rest, v =>
    match items? (valueAt name v) with
    | some items => .arr (items.flatMap (spread rest))
    | none => .null

/-- The first list of the path is asked of a value that is a list itself, and so has no keys. -/
def AsksList : List Step → Json → Prop
  | [], _ => False
  | .key name :: rest, v => AsksList rest (valueAt name v)
  | .each _ :: _, v => (items? v).isSome = true

def decAsksList : ∀ path v, Decidable (AsksList path v)
  | [], _ => isFalse id
  | .key name :: rest, v => decAsksList rest (valueAt name v)
  | .each _ :: _, v => inferInstanceAs (Decidable ((items? v).isSome = true))

instance (path : List Step) (v : Json) : Decidable (AsksList path v) := decAsksList path v

/-- **Level by level.** The steps can be taken one by one over all items. -/
theorem foldl_flatMap_reach (path : List Step) (items : List Json) :
    path.foldl (fun items step => items.flatMap step.reach) items =
      items.flatMap (spread path) := by
  induction path generalizing items with
  | nil => simp [spread]
  | cons step path ih =>
    rw [List.foldl_cons, ih, List.flatMap_assoc]
    rfl

theorem denote_each_of_items {v : Json} (h : (items? v).isSome = true) (name : String)
    (rest : List Step) : denote (.each name :: rest) v = .null := by
  cases v with
  | arr items => rfl
  | _ => exact absurd h (by simp [items?])

end Selfevals.Lib.JsonPath
