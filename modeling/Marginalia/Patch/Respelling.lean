import Marginalia.Code.Shape
import Marginalia.Unicode.Letter
import Marginalia.Verdict

/-! Misspelled words in a comment replaced by their corrections, capitals kept. -/

namespace Marginalia.Patch

open Marginalia.Unicode

/-- A replacement in the capitals of what it replaces: all capitals, a first capital, or none. -/
def matchCase (original replacement : List Char) : List Char :=
  let bytes := (original.map Char.utf8Size).foldr (· + ·) 0
  if 1 < bytes && original.all fun c => !isLowerLetter c then upper replacement
  else match original, replacement with
    | c :: _, first :: rest => if isUpperLetter c then upperChar first ++ rest else replacement
    | _, _ => replacement

def respellWord (typos : List Typo) (word : List Char) : List Char :=
  match typos.find? (·.found == String.ofList (lower word)) with
  | some typo => matchCase word typo.suggestion.toList
  | none => word

/-- Replaces in the rest of a text, given the letters in hand, nearest first. -/
def respellAfter (typos : List Typo) (letters : List Char) : List Char → List Char
  | [] => if letters.isEmpty then [] else respellWord typos letters.reverse
  | c :: rest =>
    if isLetter c then respellAfter typos (c :: letters) rest
    else if letters.isEmpty then c :: respellAfter typos [] rest
    else respellWord typos letters.reverse ++ c :: respellAfter typos [] rest

def respell (typos : List Typo) (text : String) : String :=
  String.ofList (respellAfter typos [] text.toList)

end Marginalia.Patch
