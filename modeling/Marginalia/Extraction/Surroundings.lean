import Marginalia.Extraction.Found

/-! The code around comments: the source without the comments themselves. -/

namespace Marginalia.Extraction

open Marginalia.Text

/-- The pieces of a range that stand outside of the given ranges, which ascend. -/
def outside (source : List Char) (cursor stop : Nat) : List (Nat × Nat) → List Char
  | [] => if cursor < stop then slice source cursor stop else []
  | (a, b) :: rest =>
    if b ≤ cursor || stop ≤ a then outside source cursor stop rest
    else
      (if cursor < a then slice source cursor a else [])
        ++ outside source (max cursor (min b stop)) stop rest

/-- The code of a range, without comments and without blanks around it. -/
def codeBetween (source : List Char) (comments : List (Nat × Nat)) (start stop : Nat) :
    List Char :=
  trim (outside source start stop comments)

/-- The code of a line and where the line begins. -/
def codeOfLine (source : List Char) (comments : List (Nat × Nat)) (line : Nat) :
    List Char × Nat :=
  let (start, stop) := lineBounds source line
  (codeBetween source comments start stop, start)

/-- The first line with code among some lines, given how many they are. -/
def nextCode (source : List Char) (comments : List (Nat × Nat)) : Nat → Nat → List Char × Nat
  | _, 0 => ([], size source)
  | line, count + 1 =>
    let (code, start) := codeOfLine source comments line
    if code.isEmpty then nextCode source comments (line + 1) count else (code, start)

/-- The line that a comment documents, and where it begins: the line of its definition, the code
before it on its own line, or the next line with code. -/
def documentedLine (source : List Char) (comments : List (Nat × Nat)) (found : Found) :
    List Char × Nat :=
  match found.owner with
  | some owner => codeOfLine source comments (lineOf source owner)
  | none =>
    let (start, _) := lineBounds source (lineOf source found.start)
    let lead := codeBetween source comments start found.start
    if lead.isEmpty then
      let next := lineOf source found.stop + 1
      nextCode source comments next (lineCount source - next)
    else (lead, start)

end Marginalia.Extraction
