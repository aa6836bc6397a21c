import Marginalia.Code.Shape
import Marginalia.Likeness.Alignment
import Marginalia.Spelling.Inflection
import Marginalia.Spelling.WordList

/-! A dictionary: ranked words, and the correction of words that are one edit away from them. -/

namespace Marginalia.Spelling

open Marginalia.Code (lowered)

/-- Words in lower case with their ranks, zero for the most common one, and the same words by their
lengths. -/
structure Dictionary where
  ranks : List (String × Nat)
  byLength : List (Nat × List String)
  deriving DecidableEq, Repr

/-- Misspellings that are corrected however far they are from the intended word. -/
def knownMisspellings : List (String × String) := [
  ("teh", "the"), ("taht", "that"), ("recieve", "receive"), ("seperate", "separate"),
  ("definately", "definitely"), ("occured", "occurred"), ("neccessary", "necessary"),
  ("untill", "until"), ("begining", "beginning"), ("beleive", "believe"), ("thier", "their"),
  ("wierd", "weird"), ("wich", "which"), ("becuase", "because"), ("successfull", "successful"),
  ("apparantly", "apparently"), ("immediatly", "immediately"), ("occurence", "occurrence"),
  ("reccomend", "recommend"), ("refrence", "reference"), ("calender", "calendar"),
  ("enviroment", "environment"), ("availble", "available"), ("developement", "development"),
  ("fucntion", "function"), ("retrun", "return"), ("vairable", "variable"),
  ("paramter", "parameter"), ("arguement", "argument")]

/-- The shortest word that is compared with the listed ones. -/
def leastCorrected : Nat := 6

/-- The words by their lengths with one more word, after those of its length. -/
def filed (word : String) : List (Nat × List String) → List (Nat × List String)
  | [] => [(word.length, [word])]
  | (length, words) :: rest =>
    if length = word.length then (length, words ++ [word]) :: rest
    else (length, words) :: filed word rest

namespace Dictionary

def rank? (d : Dictionary) (word : String) : Option Nat := d.ranks.lookup word

/-- The listed words of a length, the most common first. -/
def ofLength (d : Dictionary) (length : Nat) : List String := (d.byLength.lookup length).getD []

/-- A word is added in lower case with the next rank, unless it is listed. -/
def insert (d : Dictionary) (word : String) : Dictionary :=
  let word := lowered word
  if (d.rank? word).isSome then d
  else ⟨(word, d.ranks.length) :: d.ranks, filed word d.byLength⟩

/-- More words, ranked last. -/
def extend (d : Dictionary) (words : List String) : Dictionary := words.foldl insert d

def ofList (words : List String) : Dictionary := (⟨[], []⟩ : Dictionary).extend words

def builtin : Dictionary := ofList wordList

def size (d : Dictionary) : Nat := d.ranks.length

/-- Whether a word is listed, in any mix of capitals. -/
def contains (d : Dictionary) (word : String) : Bool := (d.rank? (lowered word)).isSome

/-- Whether a word or a base of it is listed; `none` when a base would end inside a character. -/
def isKnown? (d : Dictionary) (word : String) : Option Bool :=
  if d.contains word then some true
  else (bases? (lowered word).toList).map fun bases =>
    bases.any fun base => (d.rank? (String.ofList base)).isSome

/-- The listed words whose lengths differ by at most one from a length, with their ranks. -/
def candidates (d : Dictionary) (length : Nat) : List (String × Nat) :=
  ([length - 1, length, length + 1].flatMap d.ofLength).filterMap fun word =>
    (d.rank? word).map fun rank => (word, rank)

/-- The more common of two words, the first one when there is no other. -/
def moreCommon (best : Option (String × Nat)) (candidate : String × Nat) : Option (String × Nat) :=
  match best with
  | some (_, rank) => if candidate.2 < rank then some candidate else best
  | none => some candidate

/-- The most common listed word one edit away from a word, among those of similar length. -/
def closest (d : Dictionary) (word : String) : Option String :=
  (((d.candidates word.length).filter fun (candidate, _) =>
    alignmentDistance word candidate == 1).foldl moreCommon none).map (·.1)

/-- The correction of a misspelled word: the known one, or the most common listed word one edit away
from a word of six letters or more that is not known. -/
def correction (d : Dictionary) (word : String) : Option String :=
  let word := lowered word
  match knownMisspellings.lookup word with
  | some known => some known
  | none =>
    if !word.toList.all Char.isAlpha || word.length < leastCorrected
        || d.isKnown? word != some false then none
    else d.closest word

/-- The correction of a word, or the word in lower case. -/
def normalize (d : Dictionary) (word : String) : String :=
  (d.correction word).getD (lowered word)

end Dictionary

end Marginalia.Spelling
