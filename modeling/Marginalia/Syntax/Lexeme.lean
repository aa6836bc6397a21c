import Marginalia.Unicode.Letter
import Marginalia.Syntax.Separator

/-! Scanners of lexemes. A scanner says how many characters at the beginning of a text are one
lexeme, or that none is there. -/

namespace Marginalia.Syntax.Lexeme

open Marginalia.Unicode

abbrev Scanner := List Char → Option Nat

def beginsName (c : Char) : Bool := isLetter c || c == '_' || c == '$'

def continuesName (c : Char) : Bool :=
  isLetterOrNumeral c || c == '_' || c == '$' || c == '\u200c' || c == '\u200d'

def nameOf : List Char → List Char
  | [] => []
  | c :: cs => if beginsName c then c :: cs.takeWhile continuesName else []

/-- The length of a lexeme: the whole of it, if it is there. -/
def nonempty (n : Nat) : Option Nat := if n = 0 then none else some n

/-- The characters of a text up to the closing mark, with it; a backslash hides the character after
it when `escapes` holds. -/
def throughMark (closing : List Char) (escapes : Bool) : Bool → List Char → Option Nat
  | _, [] => none
  | hidden, c :: cs =>
    if !hidden && (afterOpening? closing (c :: cs)).isSome then some closing.length
    else (throughMark closing escapes (escapes && !hidden && c == '\\') cs).map (· + 1)

def delimited (opening closing : String) (escapes : Bool) : Scanner := fun text =>
  (afterOpening? opening.toList text).bind fun rest =>
    (throughMark closing.toList escapes false rest).map (opening.length + ·)

def firstOf (scanners : List Scanner) : Scanner := fun text =>
  scanners.findSome? fun scanner => scanner text

/-- A lexeme after a text that may be missing. -/
def after (lead : String) (scanner : Scanner) : Scanner := fun text =>
  (afterOpening? lead.toList text).bind fun rest =>
    (scanner rest).map (lead.length + ·)

/-- Whether a point or another mark inside a number belongs to it: before a digit, and a point also
where neither a name nor another point follows. -/
def markBelongs (mark : Char) : Option Char → Bool
  | none => mark == '.'
  | some next =>
    if mark == '.' then next.isDigit || (next != '.' && !beginsName next)
    else isLetterOrNumeral next

/-- How many characters of a number follow its character `last`. A sign belongs to an exponent. -/
def numberTail (marks : List Char) (hex : Bool) (last : Char) : List Char → Nat
  | [] => 0
  | c :: cs =>
    if isLetterOrNumeral c || c == '_'
        || ((c == '+' || c == '-') && !hex && (last == 'e' || last == 'E')
          && cs.head?.any Char.isDigit)
        || (marks.contains c && markBelongs c cs.head?) then
      1 + numberTail marks hex c cs
    else 0

/-- A number. Points and the given marks may stand inside it. -/
def number (marks : List Char) : Scanner
  | '0' :: 'x' :: cs => some (2 + numberTail marks true 'x' cs)
  | '0' :: 'X' :: cs => some (2 + numberTail marks true 'x' cs)
  | '.' :: d :: cs => if d.isDigit then some (2 + numberTail marks false d cs) else none
  | c :: cs => if c.isDigit then some (1 + numberTail marks false c cs) else none
  | [] => none

end Marginalia.Syntax.Lexeme
