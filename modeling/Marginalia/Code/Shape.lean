import Marginalia.Code.Identifier
import Marginalia.Code.Token

/-! Normal forms of code: tokens with literals generalized, their shape with identifiers generalized
too, and the vocabulary of a piece of code. -/

namespace Marginalia.Code

open Marginalia.Unicode

/-- Keywords of the supported languages, which a shape keeps. -/
def keywords : List String := [
  "if", "else", "elif", "for", "while", "do", "loop", "return", "function", "def", "class",
  "struct", "enum", "impl", "trait", "fn", "let", "const", "var", "mut", "pub", "static", "match",
  "switch", "case", "default", "break", "continue", "import", "from", "export", "package", "func",
  "go", "defer", "async", "await", "yield", "new", "delete", "this", "self", "super", "try",
  "catch", "finally", "throw", "raise", "except", "with", "as", "in", "not", "and", "or", "is",
  "lambda", "pass", "null", "nil", "none", "undefined", "typeof", "instanceof", "void",
  "interface", "type", "where", "use", "mod", "crate", "unsafe", "namespace", "template",
  "typename", "public", "private", "protected", "virtual", "override"]

def lowered (text : String) : String := String.ofList (lower text.toList)

/-- Whether a word is a keyword, in any mix of capitals. -/
def isKeyword (word : String) : Bool := keywords.contains (lowered word)

def isTruthValue (word : String) : Bool := ["true", "false", "True", "False"].contains word

def quotedForm : String := "<str>"

def numberForm : String := "<num>"

def truthForm : String := "<bool>"

def identifierForm : String := "<id>"

/-- A token with a literal generalized and a word in lower case. -/
def normalForm : Token → String
  | .word text => if isTruthValue text then truthForm else lowered text
  | .number => numberForm
  | .quoted => quotedForm
  | .mark c => String.singleton c

def normalTokens (code : String) : List String := (tokens code).map normalForm

/-- A normal form with an identifier generalized. -/
def shapeForm (form : String) : String :=
  if form.toList.head?.any startsWord && !isKeyword form then identifierForm else form

/-- The shape of normal forms: keywords and punctuation stay, identifiers do not. -/
def shape (forms : List String) : List String := forms.map shapeForm

/-- The words among the tokens of a piece of code, as written. -/
def wordsOf (code : String) : List String :=
  (tokens code).filterMap fun
    | .word text => some text
    | _ => none

/-- The parts of the identifiers of a piece of code, each once. -/
def parts (code : String) : List String := ((wordsOf code).flatMap identifierParts).eraseDups

/-- The identifiers of a piece of code in lower case and their parts, each once. -/
def vocabulary (code : String) : List String :=
  ((wordsOf code).flatMap fun word => lowered word :: identifierParts word).eraseDups

end Marginalia.Code
