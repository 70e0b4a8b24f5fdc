import Mathlib.Tactic

/-!
# JSON values

A JSON document as Python holds it: integers and floats are told apart, and an object keeps the
order of its keys. `Json.get?` is the lookup of a key in an object; `dictGet`, `dictGetD` and
`setDefault` are the methods of a `dict`, and `optField` is a key that is written when there is a
value for it.

* `lookup_optField` : what an object with optional fields reads;
* `mapM_asStr` : a list of strings reads back from its items.
-/

namespace Selfevals.Lib.JsonValue

/-- A JSON value; a number is an integer or a float. -/
inductive Json
  | null
  | bool (b : Bool)
  | int (n : ℤ)
  | float (q : ℚ)
  | str (s : String)
  | arr (items : List Json)
  | obj (fields : List (String × Json))
deriving Repr

/-- A `dict[str, Any]`. -/
abbrev Object := List (String × Json)

namespace Json

mutual

/-- Whether two values are equal. -/
def decEq : ∀ a b : Json, Decidable (a = b)
  | .null, .null => isTrue rfl
  | .bool a, .bool b => decidable_of_iff (a = b) (by simp)
  | .int a, .int b => decidable_of_iff (a = b) (by simp)
  | .float a, .float b => decidable_of_iff (a = b) (by simp)
  | .str a, .str b => decidable_of_iff (a = b) (by simp)
  | .arr a, .arr b =>
    have := decEqItems a b
    decidable_of_iff (a = b) (by simp)
  | .obj a, .obj b =>
    have := decEqFields a b
    decidable_of_iff (a = b) (by simp)
  | .null, .bool _ | .null, .int _ | .null, .float _ | .null, .str _ | .null, .arr _ | .null, .obj _
  | .bool _, .null | .bool _, .int _ | .bool _, .float _ | .bool _, .str _ | .bool _, .arr _
  | .bool _, .obj _ | .int _, .null | .int _, .bool _ | .int _, .float _ | .int _, .str _
  | .int _, .arr _ | .int _, .obj _ | .float _, .null | .float _, .bool _ | .float _, .int _
  | .float _, .str _ | .float _, .arr _ | .float _, .obj _ | .str _, .null | .str _, .bool _
  | .str _, .int _ | .str _, .float _ | .str _, .arr _ | .str _, .obj _ | .arr _, .null
  | .arr _, .bool _ | .arr _, .int _ | .arr _, .float _ | .arr _, .str _ | .arr _, .obj _
  | .obj _, .null | .obj _, .bool _ | .obj _, .int _ | .obj _, .float _ | .obj _, .str _
  | .obj _, .arr _ => isFalse (by simp)

def decEqItems : ∀ a b : List Json, Decidable (a = b)
  | [], [] => isTrue rfl
  | [], _ :: _ | _ :: _, [] => isFalse (by simp)
  | x :: xs, y :: ys =>
    have := decEq x y
    have := decEqItems xs ys
    decidable_of_iff (x = y ∧ xs = ys) (by simp)

def decEqFields : ∀ a b : List (String × Json), Decidable (a = b)
  | [], [] => isTrue rfl
  | [], _ :: _ | _ :: _, [] => isFalse (by simp)
  | (k, x) :: xs, (l, y) :: ys =>
    have := decEq x y
    have := decEqFields xs ys
    decidable_of_iff ((k = l ∧ x = y) ∧ xs = ys) (by simp)

end

instance : DecidableEq Json := decEq

/-- The value under a key of an object. -/
def get? (key : String) : Json → Option Json
  | .obj fields => fields.lookup key
  | _ => none

/-- `type(v).__name__`. -/
def typeName : Json → String
  | .null => "NoneType"
  | .bool _ => "bool"
  | .int _ => "int"
  | .float _ => "float"
  | .str _ => "str"
  | .arr _ => "list"
  | .obj _ => "dict"

/-- `v is None`. -/
def isNull : Json → Bool
  | .null => true
  | _ => false

/-- `bool(v)`. -/
def truthy : Json → Bool
  | .null => false
  | .bool b => b
  | .int n => n ≠ 0
  | .float q => q ≠ 0
  | .str s => s ≠ ""
  | .arr items => !items.isEmpty
  | .obj fields => !fields.isEmpty

/-- `v or w`. -/
def orElse (v w : Json) : Json := if v.truthy then v else w

/-- A list or a dict, which no set can be asked for. -/
def unhashable : Json → Bool
  | .arr _ | .obj _ => true
  | _ => false

/-- The string, if the value is one. -/
def asStr : Json → Option String
  | .str s => some s
  | _ => none

theorem mapM_asStr (ss : List String) : (ss.map Json.str).mapM asStr = some ss := by
  induction ss with
  | nil => rfl
  | cons s ss ih => simp [asStr, ih]

end Json

/-! ### Objects -/

/-- `d.get(key)`: a missing key reads as `None`. -/
def dictGet (d : Object) (key : String) : Json := (d.lookup key).getD .null

/-- `d.get(key, default)`. -/
def dictGetD (d : Object) (key : String) (default : Json) : Json := (d.lookup key).getD default

/-- `d.setdefault(key, value)`. -/
def setDefault (d : Object) (key : String) (value : Json) : Object :=
  if (d.lookup key).isSome then d else d ++ [(key, value)]

theorem setDefault_of_isSome {d : Object} {key : String} (h : (d.lookup key).isSome)
    (value : Json) : setDefault d key value = d :=
  if_pos h

/-- The field that is written when there is a value for it. -/
def optField (key : String) (value : Option Json) : Object :=
  match value with
  | none => []
  | some v => [(key, v)]

@[simp] theorem lookup_optField (key : String) (value : Option Json) (key' : String) :
    (optField key value).lookup key' = if key' = key then value else none := by
  cases value with
  | none => simp [optField]
  | some v =>
    by_cases h : key' = key
    · simp [optField, h]
    · have hne : (key' == key) = false := by simpa using h
      simp [optField, List.lookup_cons, h, hne]

end Selfevals.Lib.JsonValue
