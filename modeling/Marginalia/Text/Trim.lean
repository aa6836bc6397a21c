import Marginalia.Unicode.Blank

/-! Blanks at the ends of a text, and its lines. -/

namespace Marginalia.Text

open Marginalia.Unicode

def trimStart (text : List Char) : List Char := text.dropWhile isBlank

def trimEnd (text : List Char) : List Char := (text.reverse.dropWhile isBlank).reverse

def trim (text : List Char) : List Char := trimEnd (trimStart text)

def dropPrefix? (text opening : List Char) : Option (List Char) :=
  if opening.isPrefixOf text then some (text.drop opening.length) else none

def dropSuffix? (text ending : List Char) : Option (List Char) :=
  if ending.isSuffixOf text then some (text.take (text.length - ending.length)) else none

/-- The line in hand, nearest character first, without the carriage return of its line end. -/
def closeLine : List Char → List Char
  | '\r' :: line => line.reverse
  | line => line.reverse

/-- Splits the rest of a text into lines, given the line in hand, nearest character first. -/
def linesAfter (line : List Char) : List Char → List (List Char)
  | [] => if line.isEmpty then [] else [line.reverse]
  | '\n' :: rest => closeLine line :: linesAfter [] rest
  | c :: rest => linesAfter (c :: line) rest

/-- The lines of a text. A line feed, with a carriage return before it, ends a line; after the last
one no empty line follows. -/
def lines (text : List Char) : List (List Char) := linesAfter [] text

def join (separator : List Char) (texts : List (List Char)) : List Char :=
  (texts.intersperse separator).flatten

end Marginalia.Text
