import Marginalia.Syntax.Lexeme

/-! Grammars: rules over tokens, with a type of names so that every reference is defined. Choices are
ordered: the first alternative that applies is taken. -/

namespace Marginalia.Syntax

/-- What decides whether a line may end where a token is expected, and what a brace opens. -/
structure Mode where
  /-- An end of line may end the construct. -/
  lineBound : Bool
  /-- An opening brace belongs to a body, not to a value. -/
  narrow : Bool
  deriving DecidableEq, Repr

/-- Where a text is read: after a token and before the next one. -/
structure Cursor where
  /-- The text from the end of the last token on, and its offset. -/
  tail : List Char
  tailOffset : Nat
  /-- What separates the last token from the next one. -/
  gap : List Separator
  /-- The text from the next token on, and its offset. -/
  rest : List Char
  offset : Nat
  /-- The indentation of the line of the next token. -/
  column : Nat
  /-- The name or the mark that comes next; empty for others. -/
  word : String
  /-- The indentations of the open suites, innermost first. -/
  suites : List Nat
  mode : Mode

namespace Cursor

def atEnd (c : Cursor) : Bool := c.rest.isEmpty

def broken (c : Cursor) : Bool := c.gap.any Separator.breaks

def newline (c : Cursor) : Bool := c.gap.any Separator.isNewline

/-- The indentation of the innermost suite. -/
def margin (c : Cursor) : Nat := c.suites.headD 0

end Cursor

/-- Rules, with references by name. -/
inductive Rule (ν : Type) where
  /-- The name or mark that comes next. -/
  | text (word : String)
  /-- Characters that come next, whatever follows them. -/
  | piece (chars : String)
  /-- A name that is no reserved word. -/
  | name
  /-- A name. -/
  | anyWord
  /-- A lexeme that comes next. -/
  | scan (kind : NodeKind) (scanner : Lexeme.Scanner)
  /-- A lexeme directly after the last token. -/
  | raw (scanner : Lexeme.Scanner)
  | ref (name : ν)
  | seq (rules : List (Rule ν))
  | any (rules : List (Rule ν))
  | many (rule : Rule ν)
  /-- Succeeds where a rule applies and reads nothing. -/
  | ahead (rule : Rule ν)
  /-- Succeeds where a rule does not apply and reads nothing. -/
  | absent (rule : Rule ν)
  | whenever (condition : Cursor → Bool)
  | node (kind : NodeKind) (rule : Rule ν)
  /-- A rule and then any number of endings; each ending makes one node with all before it. -/
  | chain (base ending : Rule ν)
  /-- Operands between operators, the loosest operators first, and for every level of operators
  endings without an operand. -/
  | climb (operand : Rule ν) (levels : List (Rule ν × Rule ν))
  | under (change : Mode → Mode) (rule : Rule ν)
  /-- A semicolon or the end of the line. -/
  | terminator
  /-- The end of the line, with the comments before it. -/
  | lineEnd
  /-- The beginning of a deeper suite on a new line. -/
  | indent
  /-- The end of a suite, with the comments that still belong to it. -/
  | dedent

structure Grammar (ν : Type) where
  comments : List CommentForm
  /-- Marks, longer ones before their beginnings. -/
  marks : List String
  /-- Words that are no names. -/
  reserved : List String
  rule : ν → Rule ν
  start : ν
  /-- The names of rules that read what is no construct of the language. -/
  repairs : ν → Bool

namespace Rule

variable {ν : Type}

instance : Coe String (Rule ν) := ⟨text⟩

instance : Coe ν (Rule ν) := ⟨ref⟩

def nothing : Rule ν := seq []

def never : Rule ν := any []

def opt (rule : Rule ν) : Rule ν := any [rule, nothing]

/-- Rules in order under one node. -/
def construct (rules : List (Rule ν)) : Rule ν := node .construct (seq rules)

/-- Items between separators; the separator may follow the last item. -/
def separated (separator item : Rule ν) : Rule ν :=
  opt (seq [item, many (seq [separator, item]), opt separator])

def list (item : Rule ν) : Rule ν := separated "," item

/-- Succeeds unless the next token is on a new line that may end the construct. -/
def inline : Rule ν := whenever fun c => !(c.mode.lineBound && c.newline)

def unbroken : Rule ν := whenever fun c => !c.broken

/-- Ends of lines mean nothing inside. -/
def free (rule : Rule ν) : Rule ν := under (fun _ => ⟨false, false⟩) rule

/-- Ends of lines end constructs inside. -/
def bound (rule : Rule ν) : Rule ν := under (fun _ => ⟨true, false⟩) rule

/-- Opening braces belong to bodies inside. -/
def narrow (rule : Rule ν) : Rule ν := under (fun m => { m with narrow := true }) rule

end Rule

/-- A grammar that reads constructs of the language only. -/
def Grammar.withoutRepairs {ν : Type} (g : Grammar ν) : Grammar ν :=
  { g with rule := fun name => if g.repairs name then .never else g.rule name }

end Marginalia.Syntax
