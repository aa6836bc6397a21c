import Marginalia.Unicode.Blank
import Marginalia.Unicode.Letter

/-! Tokens of a piece of code in any of the supported languages. The lexer is an automaton that reads
one character at a time, so that lexing a text is lexing its parts one after another. -/

namespace Marginalia.Code

open Marginalia.Unicode

/-- A word as written, a number, a quoted text, or any other character. -/
inductive Token where
  | word (text : String)
  | number
  | quoted
  | mark (c : Char)
  deriving DecidableEq, Repr

/-- What the lexer is inside of: a word is kept with its nearest character first. -/
inductive Inside where
  | gap
  | word (read : List Char)
  | number
  | quoted (quote : Char)
  | escape (quote : Char)
  deriving DecidableEq, Repr

def isQuote (c : Char) : Bool := c == '"' || c == '\'' || c == '\x60'

def startsWord (c : Char) : Bool := isLetter c || c == '_' || c == '$'

def continuesWord (c : Char) : Bool := isLetterOrNumeral c || c == '_' || c == '$'

def continuesNumber (c : Char) : Bool := c.isAlphanum || c == '.' || c == '_'

/-- The first character of what follows a gap or a finished token. -/
def enter (c : Char) : Inside × List Token :=
  if isBlank c then (.gap, [])
  else if isQuote c then (.quoted c, [])
  else if c.isDigit then (.number, [])
  else if startsWord c then (.word [c], [])
  else (.gap, [.mark c])

def wordToken (read : List Char) : Token := .word (String.ofList read.reverse)

/-- One character: where it leads and the tokens that it completes. -/
def step : Inside → Char → Inside × List Token
  | .gap, c => enter c
  | .word read, c =>
    if continuesWord c then (.word (c :: read), [])
    else ((enter c).1, wordToken read :: (enter c).2)
  | .number, c =>
    if continuesNumber c then (.number, []) else ((enter c).1, .number :: (enter c).2)
  | .quoted quote, c =>
    if c == quote then (.gap, [.quoted])
    else if c == '\\' then (.escape quote, [])
    else (.quoted quote, [])
  | .escape quote, _ => (.quoted quote, [])

/-- The token that the end of the text completes; an open quote counts as closed. -/
def finish : Inside → List Token
  | .gap => []
  | .word read => [wordToken read]
  | .number => [.number]
  | .quoted _ | .escape _ => [.quoted]

def tokensFrom (inside : Inside) : List Char → List Token
  | [] => finish inside
  | c :: rest => (step inside c).2 ++ tokensFrom (step inside c).1 rest

def tokens (code : String) : List Token := tokensFrom .gap code.toList

end Marginalia.Code
