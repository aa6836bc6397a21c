/-! Spots in a document's text: what follows, and on which line and column that is. -/

namespace Marginalia.Document

def isBreak (c : Char) : Bool :=
  c == '\n' || c == '\r' || c == '\x85' || c == '\u2028' || c == '\u2029'

def isGap (c : Char) : Bool := c == ' ' || c == '\t'

/-- Whether a text begins with a gap or an end of line, or is empty. -/
def atGap : List Char → Bool
  | [] => true
  | c :: _ => isGap c || isBreak c

def atBreak : List Char → Bool
  | [] => true
  | c :: _ => isBreak c

/-- What an end of line stands for. -/
def breakText (c : Char) : Char := if c == '\u2028' || c == '\u2029' then c else '\n'

structure Spot where
  rest : List Char
  /-- How many characters come before it. -/
  index : Nat
  line : Nat
  column : Nat
  deriving Repr

namespace Spot

def begin (text : List Char) : Spot := ⟨text, 0, 0, 0⟩

def pass (s : Spot) (count : Nat) : Spot :=
  { s with rest := s.rest.drop count, index := s.index + count, column := s.column + count }

def passLine (s : Spot) : Spot :=
  match s.rest with
  | '\r' :: '\n' :: rest => ⟨rest, s.index + 2, s.line + 1, 0⟩
  | c :: rest => if isBreak c then ⟨rest, s.index + 1, s.line + 1, 0⟩ else s
  | [] => s

def passWhile (s : Spot) (accepts : Char → Bool) : Spot :=
  s.pass (s.rest.takeWhile accepts).length

/-- Whether a line of three such marks begins here. -/
def atMarks (s : Spot) (mark : Char) : Bool :=
  s.column == 0 && match s.rest with
    | a :: b :: c :: rest => a == mark && b == mark && c == mark && atGap rest
    | _ => false

/-- Whether a document begins or ends here. -/
def atBoundary (s : Spot) : Bool := s.atMarks '-' || s.atMarks '.'

end Spot

end Marginalia.Document
