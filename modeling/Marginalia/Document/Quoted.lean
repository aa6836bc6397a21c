import Marginalia.Document.Spot

/-! Scalars of a document's text: plain ones, quoted ones, and blocks of lines. A scalar over several
lines is folded: one end of line becomes a space, more of them lose the first. -/

namespace Marginalia.Document

/-- Blanks and ends of lines that were passed since the last word. -/
structure Fold where
  /-- Gaps before the first end of line, last first. -/
  gaps : List Char
  /-- Whether a line ended. -/
  broken : Bool
  /-- The first end of line; none after one that a backslash hides. -/
  first : List Char
  /-- The other ends of lines, last first. -/
  others : List Char

namespace Fold

def empty : Fold := ⟨[], false, [], []⟩

/-- After a line whose end is hidden. -/
def hidden : Fold := ⟨[], true, [], []⟩

def isEmpty (f : Fold) : Bool := f.gaps.isEmpty && !f.broken

def gap (f : Fold) (c : Char) : Fold := if f.broken then f else { f with gaps := c :: f.gaps }

def newline (f : Fold) (c : Char) : Fold :=
  if f.broken then { f with others := breakText c :: f.others }
  else ⟨[], true, [breakText c], []⟩

/-- What stands for the blanks between two words. -/
def text (f : Fold) : List Char :=
  if !f.broken then f.gaps.reverse
  else match f.first with
    | ['\n'] => if f.others.isEmpty then [' '] else f.others.reverse
    | first => first ++ f.others.reverse

end Fold

/-- Words read so far, last character first, with the blanks after them and a further character. -/
def extend (done : List Char) (fold : Fold) (c : Char) : List Char :=
  c :: (fold.text.reverse ++ done)

/-! ### Escapes -/

/-- The character of a letter after a backslash. -/
def escape? (c : Char) : Option Char :=
  match c with
  | '0' => some '\x00'
  | 'a' => some '\x07'
  | 'b' => some '\x08'
  | 't' => some '\t'
  | '\t' => some '\t'
  | 'n' => some '\n'
  | 'v' => some '\x0b'
  | 'f' => some '\x0c'
  | 'r' => some '\r'
  | 'e' => some '\x1b'
  | ' ' => some ' '
  | '"' => some '"'
  | '/' => some '/'
  | '\\' => some '\\'
  | 'N' => some '\x85'
  | '_' => some '\xa0'
  | 'L' => some '\u2028'
  | 'P' => some '\u2029'
  | _ => none

/-- How many hexadecimal digits follow a letter after a backslash. -/
def escapeDigits? (c : Char) : Option Nat :=
  match c with
  | 'x' => some 2
  | 'u' => some 4
  | 'U' => some 8
  | _ => none

def hexValue? (c : Char) : Option Nat :=
  if '0' ≤ c && c ≤ '9' then some (c.toNat - '0'.toNat)
  else if 'a' ≤ c && c ≤ 'f' then some (c.toNat - 'a'.toNat + 10)
  else if 'A' ≤ c && c ≤ 'F' then some (c.toNat - 'A'.toNat + 10)
  else none

def hexNumber? (digits : List Char) : Option Nat :=
  digits.foldlM (fun n c => (hexValue? c).map fun d => 16 * n + d) 0

def charOf? (n : Nat) : Option Char := if n.isValidChar then some (Char.ofNat n) else none

/-- The character that an escape after its backslash stands for, and how long the escape is. -/
def escaped? : List Char → Option (Char × Nat)
  | [] => none
  | c :: rest =>
    match escape? c with
    | some d => some (d, 1)
    | none => do
      let count ← escapeDigits? c
      let digits := rest.take count
      if digits.length < count then none
      else pure (← charOf? (← hexNumber? digits), count + 1)

/-! ### Scalars -/

/-- The rest of a quoted scalar; `single` for single quotes, in which two stand for one. -/
def quoted? (single : Bool) : Nat → List Char → Fold → Spot → Option (List Char × Spot)
  | 0, _, _, _ => none
  | fuel + 1, done, fold, spot =>
    match spot.rest with
    | [] => none
    | c :: rest =>
      if spot.atBoundary then none
      else if isGap c then quoted? single fuel done (fold.gap c) (spot.pass 1)
      else if isBreak c then quoted? single fuel done (fold.newline c) spot.passLine
      else if single && c == '\'' then
        if rest.head? == some '\'' then
          quoted? single fuel (extend done fold '\'') .empty (spot.pass 2)
        else some ((fold.text.reverse ++ done).reverse, spot.pass 1)
      else if !single && c == '"' then some ((fold.text.reverse ++ done).reverse, spot.pass 1)
      else if !single && c == '\\' then
        if !rest.isEmpty && atBreak rest then
          quoted? single fuel (fold.text.reverse ++ done) .hidden (spot.pass 1).passLine
        else
          match escaped? rest with
          | none => none
          | some (d, count) =>
            quoted? single fuel (extend done fold d) .empty (spot.pass (count + 1))
      else quoted? single fuel (extend done fold c) .empty (spot.pass 1)

/-- Marks between the items of collections in brackets. -/
def isFlowMark (c : Char) : Bool := c == ',' || c == '[' || c == ']' || c == '\x7b' || c == '\x7d'

/-- The rest of a plain scalar in lines of at least some indentation; `inside` for one in brackets.
Also says whether a line ended after it. -/
def plain? (inside : Bool) (indent : Int) :
    Nat → List Char → Fold → Spot → Option (List Char × Bool × Spot)
  | 0, _, _, _ => none
  | fuel + 1, done, fold, spot =>
    let ended := some (done.reverse, fold.broken, spot)
    match spot.rest with
    | [] => ended
    | c :: rest =>
      if isGap c then
        if fold.broken && (spot.column : Int) < indent && c == '\t' then none
        else plain? inside indent fuel done (fold.gap c) (spot.pass 1)
      else if isBreak c then plain? inside indent fuel done (fold.newline c) spot.passLine
      else if spot.atBoundary then ended
      else if !fold.isEmpty && (c == '#' || (!inside && (spot.column : Int) < indent)) then ended
      else if inside && c == ':' && rest.head?.any fun d => isFlowMark d || d == '?' then none
      else if (c == ':' && atGap rest) || (inside && isFlowMark c) then ended
      else plain? inside indent fuel (extend done fold c) .empty (spot.pass 1)

/-- What becomes of the ends of lines after a block of lines. -/
inductive Chomping where
  | strip
  | clip
  | keep
  deriving DecidableEq

/-- The header of a block: what to do at its end, and its indentation if it is given. -/
def blockHeader? : List Char → Option (Chomping × Nat × Nat)
  | '0' :: _ => none
  | '+' :: d :: _ => after .keep d
  | '-' :: d :: _ => after .strip d
  | ['+'] => some (.keep, 0, 1)
  | ['-'] => some (.strip, 0, 1)
  | d :: '+' :: _ => if d.isDigit then some (.keep, d.toNat - 48, 2) else some (.clip, 0, 0)
  | d :: '-' :: _ => if d.isDigit then some (.strip, d.toNat - 48, 2) else some (.clip, 0, 0)
  | d :: _ => if d.isDigit then some (.clip, d.toNat - 48, 1) else some (.clip, 0, 0)
  | [] => some (.clip, 0, 0)
where
  after (chomping : Chomping) (d : Char) : Option (Chomping × Nat × Nat) :=
    if d == '0' then none
    else if d.isDigit then some (chomping, d.toNat - 48, 2)
    else some (chomping, 0, 1)

/-- Passes empty lines of a block: the ends of lines, last first, the deepest column that blanks
reached, and where the next line begins. A tab is no indentation. -/
def passEmpty? (indent : Nat) :
    Nat → List Char → Nat → Spot → Option (List Char × Nat × Spot)
  | 0, _, _, _ => none
  | fuel + 1, breaks, deepest, spot =>
    let before := fun (s : Spot) => indent == 0 || s.column < indent
    let blanks := (spot.rest.takeWhile (· == ' ')).length
    let spot := spot.pass (if indent == 0 then blanks else min blanks (indent - spot.column))
    let deepest := max deepest spot.column
    match spot.rest with
    | c :: _ =>
      if c == '\t' && before spot then none
      else if isBreak c then passEmpty? indent fuel (breakText c :: breaks) deepest spot.passLine
      else some (breaks, deepest, spot)
    | [] => some (breaks, deepest, spot)

/-- The lines of a block. `done` is what was read, last character first; `ending` the end of the line
before and `empty` those of empty lines after it. -/
def blockLines? (literal : Bool) (indent : Nat) :
    Nat → List Char → List Char → List Char → Bool → Spot →
      Option (List Char × List Char × List Char × Spot)
  | 0, _, _, _, _, _ => none
  | fuel + 1, done, ending, empty, blank, spot =>
    if spot.column != indent || spot.rest.isEmpty then some (done, ending, empty, spot)
    else
      let nowBlank := (spot.rest.head?.any isGap)
      let folded := !literal && ending == ['\n'] && !blank && !nowBlank
      let joint := if folded then (if empty.isEmpty then [' '] else []) else ending
      let line := spot.rest.takeWhile fun c => !isBreak c
      let done := line.reverse ++ (empty ++ (joint.reverse ++ done))
      let spot := spot.pass line.length
      let ending := (spot.rest.head?.map breakText).toList
      match passEmpty? indent fuel [] 0 spot.passLine with
      | none => none
      | some (empty, _, spot) => blockLines? literal indent fuel done ending empty nowBlank spot

/-- A block of lines after its mark, inside a collection of some indentation. -/
def block? (literal : Bool) (around : Int) (fuel : Nat) (spot : Spot) :
    Option (List Char × Spot) := do
  let (chomping, given, count) ← blockHeader? spot.rest
  let spot := (spot.pass count).passWhile isGap
  let spot := if spot.rest.head? == some '#' then spot.passWhile fun c => !isBreak c else spot
  if !atBreak spot.rest then none
  else
    let spot := spot.passLine
    let fixed : Nat := if given == 0 then 0 else ((max around 0) + given).toNat
    let (breaks, deepest, spot) ← passEmpty? fixed fuel [] 0 spot
    let indent : Nat :=
      if fixed == 0 then max (max deepest (around + 1).toNat) 1 else fixed
    let (done, ending, empty, spot) ← blockLines? literal indent fuel [] [] breaks false spot
    let done := match chomping with
      | .strip => done
      | .clip => ending.reverse ++ done
      | .keep => empty ++ (ending.reverse ++ done)
    pure (done.reverse, spot)

end Marginalia.Document
