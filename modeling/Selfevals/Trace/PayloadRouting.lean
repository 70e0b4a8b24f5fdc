import Selfevals.Lib.CanonicalJson
import Selfevals.Storage.ObjectIsolation

/-!
# The payload router

`routeValue` keeps a small payload inline and puts a large one into the object store. A text is
measured, hashed and stored as its bytes; every other value as its canonical JSON.

* `encode_congr`: the bytes of one JSON value do not depend on the order of its keys.
* `same_of_encode_eq`: equal values with the same bytes are one JSON value.
-/

namespace Selfevals.Trace.PayloadRouting

open Lib.CanonicalJson Lib.Encodings Lib.JsonEquality Lib.JsonNumbers Lib.JsonStrings Lib.JsonText
  Lib.JsonValue Storage.ObjectStore

/-- Where a payload is kept. -/
inductive PayloadDecision
  | inline
  | pointer
deriving DecidableEq, Repr

structure RoutedPayload (α : Type) where
  decision : PayloadDecision
  inlineValue : Option α
  pointer : Option String
  contentHash : String
  byteSize : ℕ

def defaultInlineThresholdBytes : ℕ := 4 * 1024

/-- A router writes for one workspace, whose id is not empty. -/
structure PayloadRouter where
  workspaceId : String
  threshold : ℕ := defaultInlineThresholdBytes
  workspaceId_ne : workspaceId ≠ ""

section Routing
variable (floats : FloatText) (sha256 : Bytes → Digest) (root : Path)

/-- `_encode`; `none` for a `ValueError`. -/
def encode : Json → Option Bytes
  | .str s => some (utf8 s)
  | v => (dumps floats .compact (sortKeys v)).map fun text => utf8 (String.ofList text)

/-- `_route_bytes`. -/
def routeBytes {α : Type} (router : PayloadRouter) (disk : Disk) (key : String) (original : α)
    (encoded : Bytes) : Except Failure (RoutedPayload α) × Disk :=
  if encoded.length ≤ router.threshold then
    (.ok {
      decision := .inline
      inlineValue := some original
      pointer := none
      contentHash := bytesHash sha256 encoded
      byteSize := encoded.length }, disk)
  else
    match put sha256 root disk router.workspaceId key encoded with
    | (.error failure, disk) => (.error failure, disk)
    | (.ok pointer, disk) =>
      (.ok {
        decision := .pointer
        inlineValue := none
        pointer := some pointer
        contentHash := bytesHash sha256 encoded
        byteSize := encoded.length }, disk)

/-- `route_value`. -/
def routeValue (router : PayloadRouter) (disk : Disk) (key : String) (value : Json) :
    Except Failure (RoutedPayload Json) × Disk :=
  match encode floats value with
  | none => (.error .value, disk)
  | some encoded => routeBytes sha256 root router disk key value encoded

end Routing

section Decoding
variable {floats : FloatText} {v w : Json} {data : Bytes}

/-- The bytes are read as the value: as a text where it is one, and else by `json.loads`. -/
def Decodes (floats : FloatText) (v : Json) (data : Bytes) : Prop :=
  match v with
  | .str s => decodeUtf8 data = some s
  | v => ∃ text w, decodeUtf8 data = some text ∧ loads floats text.toList = some w ∧
      same w v = true

/-- Whether the payload is a text. -/
def isText : Json → Bool
  | .str _ => true
  | .null | .bool _ | .int _ | .float _ | .arr _ | .obj _ => false

theorem exists_of_isText (h : isText v = true) : ∃ s, v = .str s := by
  cases v with
  | str s => exact ⟨s, rfl⟩
  | null | bool | int | float | arr | obj => cases h

theorem encode_of_not_isText (h : isText v = false) : encode floats v =
    (dumps floats .compact (sortKeys v)).map fun text => utf8 (String.ofList text) := by
  cases v with
  | str s => cases h
  | null | bool | int | float | arr | obj => rfl

theorem decodes_iff_of_not_isText (h : isText v = false) : Decodes floats v data ↔
    ∃ text w, decodeUtf8 data = some text ∧ loads floats text.toList = some w ∧
      same w v = true := by
  cases v with
  | str s => cases h
  | null | bool | int | float | arr | obj => rfl

theorem isText_sortKeys (v : Json) : isText (sortKeys v) = isText v := by cases v <;> rfl

theorem encode_isSome_iff (floats : FloatText) (hv : Keyed v) :
    (encode floats v).isSome = (isText v || printable v) := by
  cases htext : isText v with
  | true =>
    obtain ⟨s, rfl⟩ := exists_of_isText htext
    rfl
  | false =>
    rw [encode_of_not_isText htext, Option.isSome_map, dumps, printable_sortKeys hv, Bool.false_or]
    split_ifs with hprint
    · exact hprint.symm
    · exact (Bool.eq_false_iff.mpr hprint).symm

theorem exists_of_encode (h : encode floats v = some data) (htext : isText v = false) :
    ∃ text, dumps floats .compact (sortKeys v) = some text ∧
      data = utf8 (String.ofList text) := by
  rw [encode_of_not_isText htext, Option.map_eq_some_iff] at h
  obtain ⟨text, hdumps, rfl⟩ := h
  exact ⟨text, hdumps, rfl⟩

/-- **The bytes of a payload are read as that payload.** -/
theorem decodes_encode (hv : Keyed v) (h : encode floats v = some data) :
    Decodes floats v data := by
  cases htext : isText v with
  | true =>
    obtain ⟨s, rfl⟩ := exists_of_isText htext
    obtain rfl := Option.some.inj h
    exact decodeUtf8_utf8 s
  | false =>
    obtain ⟨text, hdumps, rfl⟩ := exists_of_encode h htext
    refine (decodes_iff_of_not_isText htext).mpr
      ⟨String.ofList text, sortKeys v, decodeUtf8_utf8 _, ?_, same_sortKeys hv⟩
    rw [String.toList_ofList]
    exact loads_dumps floats .compact (keyed_sortKeys hv) hdumps

theorem encode_congr (hv : Keyed v) (hw : Keyed w) (h : same v w = true) :
    encode floats v = encode floats w := by
  have hsorted := (same_iff hv hw).mp h
  have htext : isText v = isText w := by
    rw [← isText_sortKeys v, hsorted, isText_sortKeys]
  cases hcase : isText w with
  | true =>
    obtain ⟨s, rfl⟩ := exists_of_isText hcase
    obtain ⟨t, rfl⟩ := exists_of_isText htext
    exact congrArg (encode floats) hsorted
  | false =>
    rw [hcase] at htext
    rw [encode_of_not_isText htext, encode_of_not_isText hcase, hsorted]

theorem isText_of_pyEq (h : pyEq v w = true) : isText v = isText w := by
  cases v with
  | str s =>
    cases w with
    | str t => rfl
    | null | bool | int | float | arr | obj => simp [pyEq, scalarEq, number] at h
  | null | bool | int | float | arr | obj =>
    cases w with
    | str t => simp [pyEq, scalarEq, number] at h
    | null | bool | int | float | arr | obj => rfl

theorem same_of_encode_eq (hv : Keyed v) (hw : Keyed w) (heq : pyEq v w = true)
    (h : encode floats v = some data) (h' : encode floats w = some data) :
    same v w = true := by
  refine (same_iff hv hw).mpr ?_
  have hkind := isText_of_pyEq heq
  cases htext : isText v with
  | true =>
    obtain ⟨s, rfl⟩ := exists_of_isText htext
    obtain ⟨t, rfl⟩ := exists_of_isText (hkind ▸ htext)
    have hst : s = t := by simpa [pyEq, scalarEq] using heq
    rw [hst]
  | false =>
    obtain ⟨text, hdumps, hdata⟩ := exists_of_encode h htext
    obtain ⟨text', hdumps', hdata'⟩ := exists_of_encode h' (hkind ▸ htext)
    obtain rfl : text = text' := String.ofList_injective (utf8_injective (hdata ▸ hdata'))
    have hread := loads_dumps floats .compact (keyed_sortKeys hv) hdumps
    rw [loads_dumps floats .compact (keyed_sortKeys hw) hdumps'] at hread
    exact (Option.some.inj hread).symm

/-- **How many bytes a JSON value has.** -/
theorem length_encode (hv : Keyed v) (htext : isText v = false) (h : encode floats v = some data) :
    data.length = size floats v := by
  obtain ⟨text, hdumps, rfl⟩ := exists_of_encode h htext
  have hlength := length_dumps floats .compact (keyed_sortKeys hv) hdumps
  have hascii : ∀ c ∈ text, c.toNat < 128 := by
    unfold dumps at hdumps
    split_ifs at hdumps
    obtain rfl := Option.some.inj hdumps
    intro c hc
    exact of_decide_eq_true (isAscii_render floats .compact (keyed_sortKeys hv) c hc)
  rw [length_utf8_of_ascii hascii, hlength, size_sortKeys floats hv]
  simp [Style.blanks]

end Decoding

end Selfevals.Trace.PayloadRouting
