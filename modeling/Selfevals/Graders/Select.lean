import Selfevals.Repo.Loader.Models

/-!
# Path selectors

The grammar of the paths by which a grader names a slice of an output: segments between dots, each a
bare key with an optional `[]`. `validatePath` is the check at construction.
-/

namespace Selfevals.Graders.Select

open Lib.PyStr Repo.Loader.Models

/-- `_SEGMENT_RE`; its `$` also matches before a final line feed. -/
def segmentOk (segment : String) : Bool :=
  let cs := segment.toList
  let key := cs.takeWhile fun c => c ≠ '.' && c ≠ '[' && c ≠ ']'
  let rest := cs.drop key.length
  !key.isEmpty && (rest == [] || rest == ['[', ']'] || rest == ['[', ']', '\n'])

/-- The segments of a path; the root has none. -/
def segments (path : String) : List String :=
  let stripped := strip path
  if stripped = "" ∨ stripped = "." then [] else splitOn '.' stripped

/-- The `ValueError` of one segment. -/
def checkSegment (path segment : String) : Except (List Part) Unit :=
  if segment = "" then
    .error [.text "path ", .repr (.str path),
      .text " has an empty segment (a stray or leading/trailing '.')"]
  else if segmentOk segment then .ok ()
  else
    .error [.text "path ", .repr (.str path), .text ": segment ", .repr (.str segment),
      .text (" is malformed; a segment is a bare " ++
        "key optionally suffixed with '[]' (e.g. 'items' or 'items[]')")]

/-- `validate_path`. -/
def validatePath (path : String) : Except (List Part) Unit :=
  (segments path).forM (checkSegment path)

theorem validatePath_ok_iff (path : String) :
    validatePath path = .ok () ↔ ∀ segment ∈ segments path, segmentOk segment = true := by
  have hempty : segmentOk "" = false := by decide
  have hcheck : ∀ segment, checkSegment path segment = .ok () ↔ segmentOk segment = true := by
    intro segment
    unfold checkSegment
    split_ifs with hnil hok
    · rw [hnil, hempty]
      simp
    · simp [hok]
    · simp [hok]
  unfold validatePath
  induction segments path with
  | nil => exact ⟨fun _ => by simp, fun _ => rfl⟩
  | cons segment rest ih =>
    rw [List.forall_mem_cons]
    refine Iff.trans ?_ (and_congr (hcheck segment) ih)
    show (checkSegment path segment >>= fun _ => rest.forM (checkSegment path)) = _ ↔ _
    cases checkSegment path segment with
    | error e => exact ⟨fun h => (nomatch h), fun h => (nomatch h.1)⟩
    | ok u => exact ⟨fun h => ⟨rfl, h⟩, fun h => h.2⟩

example : segmentOk "items[]" = true ∧ segmentOk "items[0]" = false := by decide

end Selfevals.Graders.Select
