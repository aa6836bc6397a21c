import Marginalia.Text.Trim
import Marginalia.Unicode.Case
import Marginalia.Unicode.Letter
import Marginalia.Unicode.WordBreak

/-! The words of prose in lower case, without punctuation and possessive endings. -/

namespace Marginalia.Prose

open Marginalia.Text Marginalia.Unicode

/-- Words whose ending in an apostrophe and s contracts "is" or "us". -/
def contracting : List String :=
  ["here", "there", "where", "that", "what", "who", "how", "it", "he", "she", "let"]

/-- The segments of a text that hold a letter or numeral. -/
def rawWords (text : List Char) : List (List Char) :=
  (segments text).filter (·.any isLetterOrNumeral)

/-- A word in lower case. A contraction keeps its apostrophe; otherwise a possessive ending and all
other apostrophes go. -/
def normalWord (word : List Char) : List Char :=
  let lowered := (lower word).map fun c => if c == '\u2019' then '\'' else c
  match dropSuffix? lowered ['\'', 's'] with
  | some stem =>
    if contracting.any (·.toList == stem) then lowered else stem.filter (· != '\'')
  | none => lowered.filter (· != '\'')

def wordChars (text : List Char) : List (List Char) :=
  ((rawWords text).map normalWord).filter fun word => !word.isEmpty

def words (text : String) : List String := (wordChars text.toList).map String.ofList

def spaced (text : String) : String := String.intercalate " " (words text)

end Marginalia.Prose
