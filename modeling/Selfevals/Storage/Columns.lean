import Selfevals.Lib.Sql
import Selfevals.Schemas.Base
import Selfevals.Schemas.Enums

/-!
# What the mappers share

An enumeration goes into a column as its value, a list of them as an array of values; `sharedValues`
are the values of the columns every entity table begins with.
-/

namespace Selfevals.Storage.Columns

open Lib.Sql Schemas.Base Schemas.Enums
open SqlCodec (encode decode)

/-- An enumeration is stored as its value. -/
instance {α : Type} [Coded α] : SqlCodec α where
  encode a := .text (Coded.value a)
  decode
    | .text s => Coded.ofValue s
    | _ => none
  decode_encode a := Coded.ofValue_value a

instance {α : Type} [Coded α] : NotNull α := ⟨fun _ => by simp [encode]⟩

instance {α : Type} [Coded α] : SqlCodec (List α) where
  encode items := .textArray (items.map Coded.value)
  decode
    | .textArray items => items.mapM Coded.ofValue
    | _ => none
  decode_encode items := by
    induction items with
    | nil => rfl
    | cons a items ih =>
      dsimp only at ih ⊢
      rw [List.map_cons, List.mapM_cons, Coded.ofValue_value, ih]
      rfl

/-- `shared_values`. -/
def sharedValues (e : BaseEntity) : List SqlValue :=
  [encode e.id, encode e.workspaceId, encode e.version, encode e.createdAt, encode e.updatedAt,
    encode e.deletedAt]

end Selfevals.Storage.Columns
