import Marginalia.Text.Trim

/-! The body of a comment: its text without delimiters, gutters and line layout. -/

namespace Marginalia.Prose

open Marginalia.Text

/-- The lines that hold text, joined by single spaces. -/
def joinLines (lines : List (List Char)) : List Char :=
  join [' '] (lines.filter fun line => !line.isEmpty)

/-- The text between a triple quote and the same triple quote at the end. -/
def tripleQuoted? (text : List Char) : Option (List Char) :=
  [['"', '"', '"'], ['\'', '\'', '\'']].findSome? fun quote =>
    if text.length < 6 then none
    else (dropPrefix? text quote).bind (dropSuffix? · quote)

/-- A line of a block comment without its star gutter. -/
def gutterless (line : List Char) : List Char :=
  match trim line with
  | '*' :: rest => trim rest
  | line => line

/-- A line of a line comment without its marker. -/
def unmarked (line : List Char) : List Char :=
  match trim line with
  | '/' :: '/' :: rest => trim (rest.dropWhile fun c => c == '/' || c == '!')
  | '#' :: rest => trim (rest.dropWhile fun c => c == '#' || c == '!')
  | line => line

/-- The body of a comment given without blanks at its ends. -/
def bodyOfTrimmed (text : List Char) : List Char :=
  match tripleQuoted? text with
  | some inner => joinLines ((lines inner).map trim)
  | none =>
    match text with
    | '/' :: '*' :: rest =>
      let inner := (dropSuffix? rest ['*', '/']).getD rest
      joinLines ((lines (inner.dropWhile fun c => c == '*' || c == '!')).map gutterless)
    | _ => joinLines ((lines text).map unmarked)

def bodyChars (raw : List Char) : List Char := bodyOfTrimmed (trim raw)

/-- The body of a comment: a docstring, a block or line comments without what marks them. -/
def body (raw : String) : String := String.ofList (bodyChars raw.toList)

end Marginalia.Prose
