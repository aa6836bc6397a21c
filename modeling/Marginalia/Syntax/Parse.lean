import Marginalia.Syntax.Rule

/-! Reading a text by a grammar. -/

namespace Marginalia.Syntax

/-- The name or the mark that a text begins with. -/
def wordOf (marks : List String) (text : List Char) : String :=
  match Lexeme.nameOf text with
  | [] => (marks.find? fun m => (afterOpening? m.toList text).isSome).getD ""
  | letters => String.ofList letters

namespace Cursor

variable {ν : Type}

/-- The cursor after a token that ends at an offset, given the text after it. -/
def settle (g : Grammar ν) (c : Cursor) (tail : List Char) (offset : Nat) (fresh : Bool) : Cursor :=
  let next := opening g.comments (tail.length + 1) [] tail offset c.column fresh
  { c with
    tail := tail
    tailOffset := offset
    gap := next.gap
    rest := next.rest
    offset := next.offset
    column := next.column
    word := wordOf g.marks next.rest }

def begin (g : Grammar ν) (text : List Char) : Cursor :=
  settle g ⟨text, 0, [], text, 0, 0, "", [0], ⟨false, false⟩⟩ text 0 true

def comments (c : Cursor) : List Tree := c.gap.filterMap Separator.comment?

/-- Reads the next token, of so many characters. -/
def take (g : Grammar ν) (c : Cursor) (kind : NodeKind) (count : Nat) : List Tree × Cursor :=
  let stop := c.offset + bytes (c.rest.take count)
  (c.comments ++ [.leaf kind c.offset stop], c.settle g (c.rest.drop count) stop false)

/-- Reads characters directly after the last token. -/
def takeRaw (g : Grammar ν) (c : Cursor) (count : Nat) : List Tree × Cursor :=
  let stop := c.tailOffset + bytes (c.tail.take count)
  ([.leaf .mark c.tailOffset stop], c.settle g (c.tail.drop count) stop false)

/-- Reads the separators before the first end of line. -/
def takeLine (c : Cursor) : List Tree × Cursor :=
  ((c.gap.takeWhile fun s => !s.isNewline).filterMap Separator.comment?,
    { c with gap := c.gap.dropWhile fun s => !s.isNewline })

/-- Whether a separator belongs to the innermost suite: comments that are indented less do not. -/
def inSuite (c : Cursor) : Separator → Bool
  | .comment _ column _ => c.margin ≤ column
  | .newline _ => true

def leaveSuite (c : Cursor) : List Tree × Cursor :=
  ((c.gap.takeWhile c.inSuite).filterMap Separator.comment?,
    { c with gap := c.gap.dropWhile c.inSuite, suites := c.suites.tail })

def passes (c d : Cursor) : Bool :=
  d.tailOffset < c.tailOffset || c.gap.length < d.gap.length

end Cursor

/-- What reading by a rule gives: trees and where it ended. -/
abbrev Reading := Option (List Tree × Cursor)

/-- Reads the end of a statement: a semicolon, or the end of the line, which then is a token. -/
def readTerminator {ν : Type} (g : Grammar ν) (c : Cursor) : Reading :=
  if c.word == ";" then some (c.take g .mark 1)
  else
    let (comments, after) := c.takeLine
    match after.gap with
    | .newline offset :: gap =>
      some (comments ++ [.leaf .mark offset (offset + 1)], { after with gap := gap })
    | _ => none

mutual

def read {ν : Type} (g : Grammar ν) : Nat → Rule ν → Cursor → Reading
  | 0, _, _ => none
  | _ + 1, .text word, c =>
    if c.word == word && !word.isEmpty then some (c.take g .mark word.length) else none
  | _ + 1, .piece chars, c =>
    if (afterOpening? chars.toList c.rest).isSome then some (c.take g .mark chars.length) else none
  | _ + 1, .name, c =>
    if (Lexeme.nameOf c.rest).isEmpty || g.reserved.contains c.word then none
    else some (c.take g .construct c.word.length)
  | _ + 1, .anyWord, c =>
    if (Lexeme.nameOf c.rest).isEmpty then none else some (c.take g .construct c.word.length)
  | _ + 1, .scan kind scanner, c => (scanner c.rest).map (c.take g kind)
  | _ + 1, .raw scanner, c => (scanner c.tail).map (c.takeRaw g)
  | n + 1, .ref name, c => read g n (g.rule name) c
  | n + 1, .seq rules, c => readAll g n rules c
  | n + 1, .any rules, c => readFirst g n rules c
  | n + 1, .many rule, c => some (readMany g n rule c)
  | n + 1, .ahead rule, c => (read g n rule c).map fun _ => ([], c)
  | n + 1, .absent rule, c =>
    match read g n rule c with
    | some _ => none
    | none => some ([], c)
  | _ + 1, .whenever condition, c => if condition c then some ([], c) else none
  | n + 1, .node kind rule, c =>
    (read g n rule c).map fun (trees, after) => (Tree.gather kind trees, after)
  | n + 1, .chain base ending, c =>
    (read g n base c).map fun (trees, after) => readEndings g n ending trees after
  | n + 1, .climb operand [], c => read g n operand c
  | n + 1, .climb operand ((operators, ending) :: tighter), c =>
    read g n
      (.chain (.climb operand tighter)
        (.any [.seq [operators, .climb operand tighter], ending])) c
  | n + 1, .under change rule, c =>
    (read g n rule { c with mode := change c.mode }).map fun (trees, after) =>
      (trees, { after with mode := c.mode })
  | _ + 1, .terminator, c => readTerminator g c
  | _ + 1, .lineEnd, c => if c.newline || c.atEnd then some c.takeLine else none
  | _ + 1, .indent, c =>
    if c.newline && c.margin < c.column then some ([], { c with suites := c.column :: c.suites })
    else none
  | _ + 1, .dedent, c =>
    if c.column < c.margin || c.atEnd then some c.leaveSuite else none

def readAll {ν : Type} (g : Grammar ν) : Nat → List (Rule ν) → Cursor → Reading
  | 0, _, _ => none
  | _ + 1, [], c => some ([], c)
  | n + 1, rule :: rules, c =>
    match read g n rule c with
    | none => none
    | some (trees, next) =>
      (readAll g n rules next).map fun (others, after) => (trees ++ others, after)

def readFirst {ν : Type} (g : Grammar ν) : Nat → List (Rule ν) → Cursor → Reading
  | 0, _, _ => none
  | _ + 1, [], _ => none
  | n + 1, rule :: rules, c =>
    match read g n rule c with
    | some reading => some reading
    | none => readFirst g n rules c

/-- Reads by a rule as often as it applies and goes on. -/
def readMany {ν : Type} (g : Grammar ν) : Nat → Rule ν → Cursor → List Tree × Cursor
  | 0, _, c => ([], c)
  | n + 1, rule, c =>
    match read g n rule c with
    | none => ([], c)
    | some (trees, next) =>
      if next.passes c then
        let (others, after) := readMany g n rule next
        (trees ++ others, after)
      else (trees, next)

/-- Reads endings as often as one applies and goes on; each makes a node with all before it. -/
def readEndings {ν : Type} (g : Grammar ν) :
    Nat → Rule ν → List Tree → Cursor → List Tree × Cursor
  | 0, _, trees, c => (trees, c)
  | n + 1, ending, trees, c =>
    match read g n ending c with
    | none => (trees, c)
    | some (others, next) =>
      if next.passes c then
        readEndings g n ending (Tree.gather .construct (trees ++ others)) next
      else (trees, c)

end

/-- How deep rules may nest between two characters. -/
def depthPerCharacter : Nat := 200

/-- What a grammar reads of a text from its beginning on. -/
def readFromStart {ν : Type} (g : Grammar ν) (text : List Char) : List Tree × Cursor :=
  (read g (depthPerCharacter * (text.length + 1)) (g.rule g.start) (Cursor.begin g text)).getD
    ([], Cursor.begin g text)

/-- The tree of a text: what the grammar reads of it, and the comments after that. Repairs are made
only when there is something in the text that is no construct of the language. -/
def parse {ν : Type} (g : Grammar ν) (text : String) : Tree :=
  let chars := text.toList
  let plain := readFromStart g.withoutRepairs chars
  let (trees, last) := if plain.2.atEnd then plain else readFromStart g chars
  .node .module 0 (bytes chars) (trees ++ last.comments)

end Marginalia.Syntax
