import Marginalia.Syntax.Tree
import Marginalia.Unicode.Blank

/-! What stands between tokens: blanks, ends of lines and comments. -/

namespace Marginalia.Syntax

inductive CommentEnd where
  /-- Before one of these characters, unless a backslash stands before it and `joins` holds. -/
  | line (ends : List Char) (joins : Bool)
  /-- After a mark; inside of `nests`, comments open and close in pairs. -/
  | closing (text : String) (nests : Bool)
  deriving Repr

structure CommentForm where
  kind : NodeKind
  opening : String
  ending : CommentEnd
  deriving Repr

/-- A comment or an end of line between two tokens. -/
inductive Separator where
  /-- A comment and the indentation of its line. -/
  | comment (tree : Tree) (column : Nat) (broken : Bool)
  /-- An end of line, and where. -/
  | newline (offset : Nat)
  deriving Repr

namespace Separator

def comment? : Separator → Option Tree
  | comment tree _ _ => some tree
  | newline _ => none

def isNewline : Separator → Bool
  | comment .. => false
  | newline _ => true

def breaks : Separator → Bool
  | comment _ _ broken => broken
  | newline _ => true

end Separator

/-- The rest of a text after an opening that it begins with. -/
def afterOpening? : List Char → List Char → Option (List Char)
  | [], rest => some rest
  | _ :: _, [] => none
  | o :: os, c :: cs => if o = c then afterOpening? os cs else none

/-- How many characters come before the end of the line; `joined` says that a backslash that joins
lines came before. -/
def lineLength (ends : List Char) (joins joined : Bool) : List Char → Nat
  | [] => 0
  | c :: rest =>
    if ends.contains c && !joined then 0
    else 1 + lineLength ends joins (joins && (c == '\\' || (joined && c == '\r'))) rest

/-- How many characters a closed comment takes after its opening, given how deep it is nested; all of
them if it is not closed. -/
def closedLength (opening closing : List Char) (nests : Bool) : Nat → Nat → List Char → Nat
  | 0, _, _ => 0
  | _ + 1, _, [] => 0
  | fuel + 1, depth, c :: cs =>
    match afterOpening? closing (c :: cs) with
    | some rest =>
      if depth = 0 then closing.length
      else closing.length + closedLength opening closing nests fuel (depth - 1) rest
    | none =>
      match if nests then afterOpening? opening (c :: cs) else none with
      | some rest => opening.length + closedLength opening closing nests fuel (depth + 1) rest
      | none => 1 + closedLength opening closing nests fuel depth cs

def CommentForm.length? (form : CommentForm) (text : List Char) : Option Nat :=
  let opening := form.opening.toList
  (afterOpening? opening text).map fun rest =>
    match form.ending with
    | .line ends joins => opening.length + lineLength ends joins false rest
    | .closing closing nests =>
      opening.length + closedLength opening closing.toList nests (rest.length + 1) 0 rest

/-- The comment that a text begins with: its kind and its length in characters. -/
def comment? (forms : List CommentForm) (text : List Char) : Option (NodeKind × Nat) :=
  forms.findSome? fun form => (form.length? text).map fun n => (form.kind, n)

/-- Blanks between tokens; marks of byte order and joiners without width are among them. -/
def isSpace (c : Char) : Bool :=
  Unicode.isBlank c || c == '\ufeff' || c == '\u2060' || c == '\u200b'

/-- The rest of a text after an end of line that is hidden behind a backslash. -/
def afterJoin? : List Char → Option (List Char × Nat)
  | '\\' :: '\n' :: rest => some (rest, 2)
  | '\\' :: '\r' :: '\n' :: rest => some (rest, 3)
  | _ => none

def bytes (text : List Char) : Nat := (text.map Char.utf8Size).foldr (· + ·) 0

/-- Where a token begins: what separates it from the one before, the text from there on, its offset,
and the indentation of its line. -/
structure Opening where
  gap : List Separator
  rest : List Char
  offset : Nat
  column : Nat

/-- Skips what stands between tokens. `fresh` says that only blanks came before on the line. -/
def opening (forms : List CommentForm) :
    Nat → List Separator → List Char → Nat → Nat → Bool → Opening
  | 0, gap, text, offset, column, _ => ⟨gap.reverse, text, offset, column⟩
  | _ + 1, gap, [], offset, _, _ => ⟨gap.reverse, [], offset, 0⟩
  | fuel + 1, gap, c :: cs, offset, column, fresh =>
    if c = '\n' then opening forms fuel (.newline offset :: gap) cs (offset + 1) 0 true
    else if isSpace c then
      let column :=
        if !fresh then column
        else if c = ' ' then column + 1
        else if c = '\t' then column + 8
        else if c = '\r' || c = '\x0c' then 0
        else column
      opening forms fuel gap cs (offset + c.utf8Size) column fresh
    else
      match comment? forms (c :: cs) with
      | some (kind, n) =>
        let text := (c :: cs).take n
        let stop := offset + bytes text
        let tree := Tree.leaf kind offset stop
        opening forms fuel (.comment tree column (text.contains '\n') :: gap) ((c :: cs).drop n)
          stop column false
      | none =>
        match afterJoin? (c :: cs) with
        | some (rest, n) => opening forms fuel gap rest (offset + n) column fresh
        | none => ⟨gap.reverse, c :: cs, offset, column⟩

end Marginalia.Syntax
