import Marginalia.Patch.Plan
import Marginalia.Text.Offset

/-! Plans carried out: in a text, every place that a plan edits is replaced, the last place first. -/

namespace Marginalia.Patch

open Marginalia.Text

/-- The text that takes the place of a range. -/
structure Edit where
  place : Place
  text : List Char
  deriving DecidableEq, Repr

/-- What a step puts in its place; `none` when it leaves the text alone. -/
def replacementOf? (step : Step) : Except EditFault (Option (List Char)) :=
  match step.treatment with
  | .keep | .flag => .ok none
  | .delete => .ok (some [])
  | .rewrite => match step.replacement with
    | some text => .ok (some text.toList)
    | none => .error (.noReplacement step.place)

/-- Refuses a place that is no range of characters of the text. -/
def checkPlace (source : List Char) (place : Place) : Except EditFault Unit :=
  if place.stop < place.start then .error (.inverted place)
  else if size source < place.stop then .error (.beyondEnd place (size source))
  else if isBoundary source place.start && isBoundary source place.stop then .ok ()
  else .error (.splitsCharacter place)

def editOf? (source : List Char) (step : Step) : Except EditFault (Option Edit) := do
  match ← replacementOf? step with
  | none => .ok none
  | some text =>
    checkPlace source step.place
    .ok (some ⟨step.place, text⟩)

def editLe (a b : Edit) : Bool :=
  ((compare a.place.start b.place.start).then (compare a.place.stop b.place.stop)).isLE

/-- Refuses edits of which one begins before its predecessor ends. -/
def checkDisjoint : List Edit → Except EditFault Unit
  | a :: b :: rest =>
    if b.place.start < a.place.stop then .error (.overlap a.place b.place)
    else checkDisjoint (b :: rest)
  | _ => .ok ()

/-- A text with the characters in the place of an edit replaced. -/
def Edit.made (edit : Edit) (text : List Char) : List Char :=
  before text edit.place.start ++ edit.text ++ after text edit.place.stop

/-- A text with ascending edits made. The last is made first, so that the offsets of the others
stay valid. -/
def edited (source : List Char) (edits : List Edit) : List Char := edits.foldr Edit.made source

def editsOf (source : List Char) (steps : List Step) : Except EditFault (List Edit) := do
  let edits := ((← steps.mapM (editOf? source)).filterMap id).mergeSort editLe
  checkDisjoint edits
  .ok edits

/-- The text after a plan: all of its edits are made, or none. -/
def apply (source : String) (plan : Plan) : Except Fault String :=
  match editsOf source.toList plan.steps with
  | .ok edits => .ok (String.ofList (edited source.toList edits))
  | .error cause => .error (.edit plan.fileId cause)

end Marginalia.Patch
