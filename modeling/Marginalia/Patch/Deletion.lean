import Marginalia.Patch.Plan
import Marginalia.Text.Offset
import Marginalia.Unicode.Blank

/-! Deletions leave no blank lines: a comment alone on its line takes the line with it, a comment at
the end of a line takes the blanks before it, and deletions that only blanks separate are one. -/

namespace Marginalia.Patch

open Marginalia.Text

def isGap (c : Char) : Bool := c == ' ' || c == '\t'

/-- Whether a text that is read away from a comment is at a line end. -/
def atLineEnd : List Char → Bool
  | [] => true
  | c :: _ => c == '\n'

/-- What stands before a place on its line, from the place back: the blanks and what they follow. -/
def headOf (source : List Char) (place : Place) : List Char × List Char :=
  let back := (before source place.start).reverse
  (back.takeWhile isGap, back.dropWhile isGap)

/-- What stands after a place: the blanks and what follows them. An end inside a character has the
rest of that character after it. -/
def tailOf (source : List Char) (place : Place) : List Char × List Char :=
  let rest := after source place.stop
  if isBoundary source place.stop then
    (rest.takeWhile fun c => isGap c || c == '\r', rest.dropWhile fun c => isGap c || c == '\r')
  else ([], '\ufffd' :: rest)

/-- The place of a deletion with what goes with it. -/
def widened (source : List Char) (place : Place) : Place :=
  let (lead, front) := headOf source place
  let (trail, back) := tailOf source place
  if atLineEnd back then
    -- Nothing follows on the line. If nothing precedes either, the whole line goes.
    { place with
      start := place.start - lead.length
      stop := if atLineEnd front then min (place.stop + trail.length + 1) (size source)
        else place.stop }
  else place

/-- A deletion with what goes with it; other steps stay. A deletion from beyond the text cannot be
read. -/
def widen (source : List Char) (step : Step) : Except Fault Step :=
  if step.deletes then
    if size source < step.place.start then .error .cutCharacter
    else .ok { step with place := widened source step.place }
  else .ok step

/-- The text between two deletions, when it can be read. -/
def gapBetween (source : List Char) (a b : Place) : Except Fault (List Char) :=
  if a.stop ≤ b.start && isBoundary source a.stop && isBoundary source b.start then
    .ok (slice source a.stop b.start)
  else .error .cutCharacter

def joined (a b : Step) : Step :=
  { a with
    place := { a.place with stop := b.place.stop }
    category := if a.category = b.category then a.category else none
    reason := if a.reason = b.reason then a.reason else "merged_delete" }

/-- The rest of the steps after `last`, deletions that only blanks separate joined. -/
def mergeAfter (source : List Char) (last : Step) : List Step → Except Fault (List Step)
  | [] => .ok [last]
  | step :: rest =>
    if last.deletes && step.deletes then do
      if (← gapBetween source last.place step.place).all Unicode.isBlank then
        mergeAfter source (joined last step) rest
      else .ok (last :: (← mergeAfter source step rest))
    else do .ok (last :: (← mergeAfter source step rest))

def merge (source : List Char) : List Step → Except Fault (List Step)
  | [] => .ok []
  | step :: rest => mergeAfter source step rest

end Marginalia.Patch
