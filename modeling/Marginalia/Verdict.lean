import Marginalia.Comment

/-! Verdicts on comments: what a comment is worth and why. -/

namespace Marginalia

/-- What a comment is worth, in the order of reports. -/
inductive Category where
  | placeholder
  | filler
  | redundant
  | misleading
  | typoNoise
  | informative
  deriving DecidableEq, Repr

namespace Category

def all : List Category :=
  [placeholder, filler, redundant, misleading, typoNoise, informative]

def name : Category → String
  | placeholder => "placeholder"
  | filler => "filler"
  | redundant => "redundant"
  | misleading => "misleading"
  | typoNoise => "typo_noise"
  | informative => "informative"

/-- Markers without documentation of their own. -/
def isHollow (c : Category) : Bool := c == placeholder

/-- Comments that say something about behaviour. -/
def isSubstantive (c : Category) : Bool := c == informative || c == misleading

theorem mem_all (c : Category) : c ∈ all := by cases c <;> decide

end Category

/-- A misspelled word and what it should be. -/
structure Typo where
  found : String
  suggestion : String
  deriving DecidableEq, Repr

/-- A category with the confidence in it, the rules that fired, and the misspellings found. -/
structure Verdict (α : Type) where
  category : Category
  confidence : α
  evidence : List String
  typos : List Typo
  deriving DecidableEq, Repr

structure Judged (α : Type) where
  comment : Comment
  verdict : Verdict α
  deriving DecidableEq, Repr

end Marginalia
