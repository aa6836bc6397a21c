import Marginalia.Unicode.Case

/-! The parts of an identifier: what stands between low lines, hyphens and the capitals that follow a
small letter or a digit. -/

namespace Marginalia.Code

open Marginalia.Unicode

/-- Whether a capital after this character begins a new part. -/
def endsPart (c : Char) : Bool := isLowerLetter c || c.isDigit

/-- The part in hand, if it has begun. -/
def pending (part : List Char) : List (List Char) := if part.isEmpty then [] else [part]

/-- Splits the rest of an identifier, given the part in hand and whether a capital would end it. -/
def splitAfter (part : List Char) (breakable : Bool) : List Char → List (List Char)
  | [] => pending part
  | c :: rest =>
    if c == '_' || c == '-' then pending part ++ splitAfter [] false rest
    else if isUpperLetter c && breakable && !part.isEmpty then
      part :: splitAfter (lowerChar c) (endsPart c) rest
    else splitAfter (part ++ lowerChar c) (endsPart c) rest

def identifierParts (identifier : String) : List String :=
  (splitAfter [] false identifier.toList).map String.ofList

end Marginalia.Code
