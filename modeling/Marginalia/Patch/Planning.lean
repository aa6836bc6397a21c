import Marginalia.Patch.Decision
import Marginalia.Patch.Deletion

/-! The plan for a file: every comment is decided, deletions are widened and joined, and no two steps
may overlap before or after that. -/

namespace Marginalia.Patch

open Marginalia.Text

variable {α : Type}

/-- Whether a finding that touches the file is about the place. -/
def isDrifted (drift : List (Finding α)) (fileId : String) (place : Place) : Bool :=
  drift.any fun finding => finding.touches fileId && finding.mentions place

/-- The comments of a file, ascending by their places. -/
def ownComments (fileId : String) (comments : List (Judged α)) : List (Judged α) :=
  (comments.filter fun judged => judged.comment.fileId == fileId).mergeSort fun a b =>
    ((compare a.comment.start b.comment.start).then (compare a.comment.stop b.comment.stop)).isLE

/-- The decision about a comment that does not end beyond the text. -/
def decideWithin (policy : Policy) (drift : List (Finding α)) (fileId : String) (limit : Nat)
    (judged : Judged α) : Except Fault Step :=
  let place := judged.comment.place
  if limit < place.stop then .error (.invalidSpan place)
  else .ok (decide policy (isDrifted drift fileId place) judged)

/-- Refuses steps of which one begins before its predecessor ends. -/
def ensureDisjoint (fileId : String) : List Step → Except Fault Unit
  | a :: b :: rest =>
    if b.place.start < a.place.stop then
      .error (.overlappingActions { a.place with fileId := fileId } b.place)
    else ensureDisjoint fileId (b :: rest)
  | _ => .ok ()

/-- The plan for the comments of a file. Findings and comments of other files play no part. -/
def planFor (policy : Policy) (fileId source : String) (comments : List (Judged α))
    (drift : List (Finding α)) : Except Fault Plan := do
  let text := source.toList
  let decided ← (ownComments fileId comments).mapM (decideWithin policy drift fileId (size text))
  ensureDisjoint fileId decided
  let steps ← merge text (← decided.mapM (widen text))
  ensureDisjoint fileId steps
  .ok ⟨fileId, steps⟩

end Marginalia.Patch
