/-! A search for several patterns at once, overlapping ones too. Texts and patterns are bytes. -/

namespace Marginalia.Text

/-- The number of a pattern and the bytes of a text where it occurs. -/
structure Occurrence where
  pattern : Nat
  start : Nat
  stop : Nat
  deriving DecidableEq, Repr

/-- A way to find the occurrences of patterns in a text. -/
abbrev Search := List (List UInt8) → List UInt8 → List Occurrence

/-- The patterns, numbered and reversed, that end a text, given its bytes from the last one back: the
longer first. -/
def endingAt (reversed : List (List UInt8 × Nat)) (read : List UInt8) : List Occurrence :=
  ((reversed.filter fun (pattern, _) => pattern.isPrefixOf read).mergeSort
    fun (p, _) (q, _) => q.length ≤ p.length).map fun (pattern, number) =>
      ⟨number, read.length - pattern.length, read.length⟩

/-- The occurrences that end in the rest of a text, after the bytes already read. -/
def occurrencesAfter (reversed : List (List UInt8 × Nat)) (read : List UInt8) :
    List UInt8 → List Occurrence
  | [] => []
  | byte :: rest => endingAt reversed (byte :: read) ++ occurrencesAfter reversed (byte :: read) rest

/-- All occurrences of patterns that are not empty, by their ends; at one end the longer first. -/
def occurrences : Search := fun patterns text =>
  occurrencesAfter (patterns.zipIdx.map fun (pattern, number) => (pattern.reverse, number)) [] text

end Marginalia.Text
