import Marginalia.Code.Shape

/-! Whether a word of prose names what an identifier names. -/

namespace Marginalia.Code

/-- Endings that a stem goes without, tried in this order. -/
def suffixes : List String :=
  ["ations", "ation", "ings", "ing", "edly", "ed", "es", "ly", "er", "s"]

/-- What an ending leaves of a word, if that is long enough for a stem. -/
def stemBefore? (word suffix : String) : Option String :=
  if suffix.toList.isSuffixOf word.toList && suffix.length + 3 ≤ word.length then
    some (String.ofList (word.toList.take (word.length - suffix.length)))
  else none

/-- A word without the first ending that leaves three characters or more. -/
def stem (word : String) : String := (suffixes.findSome? (stemBefore? word)).getD word

def sharedStart : List Char → List Char → Nat
  | x :: xs, y :: ys => if x == y then sharedStart xs ys + 1 else 0
  | _, _ => 0

/-- Whether a word names the same thing as one identifier part. -/
def restates (word identifier : String) : Bool :=
  word == identifier
  || stem identifier == stem word
  || 6 ≤ sharedStart word.toList identifier.toList
  || (4 ≤ identifier.length && word.length ≤ identifier.length + 3
      && identifier.toList.isPrefixOf word.toList)

def restatesAny (word : String) (names : List String) : Bool :=
  names.contains word || names.any (restates word)

end Marginalia.Code
