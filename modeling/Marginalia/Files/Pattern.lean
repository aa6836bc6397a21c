/-! Patterns of paths, matched byte by byte: what a pattern consists of and which texts it matches.
A star and a question mark stand for any bytes, slashes included. -/

namespace Marginalia.Files

inductive Piece where
  | byte (b : UInt8)
  /-- One byte. -/
  | any
  /-- Any number of bytes. -/
  | run
  /-- One byte that is in one of the ranges, or in none. -/
  | oneOf (negated : Bool) (ranges : List (UInt8 × UInt8))
  /-- One of several sequences; when there are none, nothing. -/
  | choice (branches : List (List Piece))
  /-- Two stars and a slash at the beginning: directories, or none. -/
  | leadingDirs
  /-- A slash and two stars at the end: everything below. -/
  | allBelow
  /-- Two stars between slashes: directories, or none. -/
  | dirsBetween

abbrev Pattern := List Piece

namespace Pattern

def slash : UInt8 := 47

/-- The ends of a list: itself, without its first element, and so on to the empty list. -/
def ends {α : Type} : List α → List (List α)
  | [] => [[]]
  | x :: xs => (x :: xs) :: ends xs

/-- What remains after a slash, for every slash. -/
def afterSlashes : List UInt8 → List (List UInt8)
  | [] => []
  | b :: rest => if b = slash then rest :: afterSlashes rest else afterSlashes rest

def afterByte (accepts : UInt8 → Bool) : List UInt8 → List (List UInt8)
  | [] => []
  | b :: rest => if accepts b then [rest] else []

/-- The ends of one text, each once. -/
def distinct (rests : List (List UInt8)) : List (List UInt8) :=
  rests.foldr (fun rest seen =>
    if seen.any (·.length == rest.length) then seen else rest :: seen) []

mutual

/-- What may remain of a text after a part. -/
def pieceRests : Piece → List UInt8 → List (List UInt8)
  | .byte b, text => afterByte (· == b) text
  | .any, text => afterByte (fun _ => true) text
  | .run, text => ends text
  | .oneOf negated ranges, text =>
    afterByte (fun b => (ranges.any fun range => range.1 ≤ b && b ≤ range.2) != negated) text
  | .choice [], text => [text]
  | .choice branches, text => branchRests branches text
  | .leadingDirs, text => text :: afterSlashes text
  | .allBelow, text => (afterByte (· == slash) text).flatMap ends
  | .dirsBetween, text =>
    (afterByte (· == slash) text).flatMap fun rest => rest :: afterSlashes rest

/-- What may remain of a text after one of several sequences. -/
def branchRests : List (List Piece) → List UInt8 → List (List UInt8)
  | [], _ => []
  | branch :: others, text => rests branch [text] ++ branchRests others text

/-- What may remain of one of several texts after a sequence. -/
def rests : List Piece → List (List UInt8) → List (List UInt8)
  | [], texts => texts
  | piece :: others, texts => rests others (distinct (texts.flatMap (pieceRests piece)))

end

def accepts (pattern : Pattern) (text : List UInt8) : Bool :=
  match pattern with
  | [.leadingDirs] => true
  | _ => (rests pattern [text]).any (·.isEmpty)

end Pattern

end Marginalia.Files
