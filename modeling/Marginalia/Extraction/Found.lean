import Marginalia.Syntax.Tree
import Marginalia.Text.Line
import Marginalia.Text.Trim

/-! Comments found in a syntax tree: comment nodes, and strings that document a definition. -/

namespace Marginalia.Extraction

open Marginalia.Syntax

/-- Which nodes are comments, and whether strings may document. -/
structure Conventions where
  commentKinds : List NodeKind
  docstrings : Bool
  deriving DecidableEq, Repr

def Conventions.isComment (conventions : Conventions) (tree : Tree) : Bool :=
  conventions.commentKinds.contains tree.kind

/-- A comment in a tree, before the code around it is read. -/
structure Found where
  start : Nat
  stop : Nat
  /-- Whether it is a string and no comment. -/
  docstring : Bool
  /-- Where the definition that a docstring documents begins. -/
  owner : Option Nat
  /-- The block of code around it. -/
  context : Option (Nat × Nat)
  deriving DecidableEq, Repr

/-- Where a node stands: the nodes around it, innermost first, and its siblings, those before it
nearest first. -/
structure Position where
  ancestors : List Tree
  preceding : List Tree
  following : List Tree

/-- The code at the top level that a node belongs to: the statement that it documents with the
statements next to that one. A node that is code itself is a neighbour too. -/
def neighbourhood (source : List Char) (conventions : Conventions) (tree : Tree)
    (position : Position) : Option (Nat × Nat) :=
  let isCode (tree : Tree) : Bool := tree.isNamed && !conventions.isComment tree
  let own := [tree].filter isCode
  let earlier := position.preceding.filter isCode
  let later := position.following.filter isCode
  match earlier.head? with
  | some previous =>
    -- A comment at the end of a line documents that line, any other what is below it.
    if Text.lineOf source previous.stop == Text.lineOf source tree.start then
      some ((earlier.tail.headD previous).start, ((own ++ later).headD previous).stop)
    else below (own ++ earlier) later
  | none => below own later
where
  /-- The statement after the node with its neighbours. -/
  below (earlier : List Tree) : List Tree → Option (Nat × Nat)
    | [] => none
    | next :: rest => some ((earlier.headD next).start, (rest.headD next).stop)

/-- The block that a node stands in: the node around it, or at the top level its neighbourhood. -/
def contextOf (source : List Char) (conventions : Conventions) (tree : Tree)
    (position : Position) : Option (Nat × Nat) :=
  match position.ancestors with
  | [] => none
  | [_] => neighbourhood source conventions tree position
  | parent :: _ :: _ => some (parent.start, parent.stop)

/-- Whether a statement is nothing but a string. -/
def isBareString (tree : Tree) : Bool :=
  tree.kind == .expressionStatement
    && match tree.namedChildren with
      | [child] => child.kind == .string
      | _ => false

def isFirstStatement (parent tree : Tree) : Bool :=
  ((parent.namedChildren.find? fun child => child.kind != .comment).map Tree.start)
    == some tree.start

/-- The definition that a statement documents as a docstring: `none` for a statement that is none,
`some none` for a docstring of the whole module. -/
def documented? (tree : Tree) : List Tree → Option (Option Tree)
  | parent :: rest =>
    if isBareString tree && isFirstStatement parent tree then
      match parent.kind, rest with
      | .module, _ => some none
      | .block, definition :: _ =>
        if definition.kind == .functionDefinition || definition.kind == .classDefinition then
          some (some definition)
        else none
      | _, _ => none
    else none
  | [] => none

def docstring? (source : List Char) (conventions : Conventions) (tree : Tree)
    (position : Position) : Option Found :=
  if conventions.docstrings then
    (documented? tree position.ancestors).map fun definition =>
      { start := tree.start
        stop := tree.stop
        docstring := true
        owner := definition.map Tree.start
        context := match definition with
          | some d => some (d.start, d.stop)
          | none => contextOf source conventions tree position }
  else none

/-- A comment at a position, without the blanks at its end; a comment of blanks alone is none. -/
def comment? (source : List Char) (conventions : Conventions) (tree : Tree)
    (position : Position) : Option Found :=
  let text := Text.trimEnd (Text.slice source tree.start tree.stop)
  if text.isEmpty then none
  else some {
    start := tree.start
    stop := tree.start + Text.size text
    docstring := false
    owner := none
    context := contextOf source conventions tree position }

mutual

def findIn (source : List Char) (conventions : Conventions) (ancestors preceding following : List Tree) :
    Tree → List Found
  | .node kind start stop children =>
    let tree := Syntax.Tree.node kind start stop children
    let position : Position := ⟨ancestors, preceding, following⟩
    if conventions.isComment tree then (comment? source conventions tree position).toList
    else match docstring? source conventions tree position with
      | some found => [found]
      | none => findAmong source conventions (tree :: ancestors) [] children

/-- The comments of some trees, given those before them. -/
def findAmong (source : List Char) (conventions : Conventions) (ancestors preceding : List Tree) :
    List Tree → List Found
  | [] => []
  | tree :: rest =>
    findIn source conventions ancestors preceding rest tree
      ++ findAmong source conventions ancestors (tree :: preceding) rest

end

/-- Drops what begins where its predecessor does. -/
def dropRepeated : List Found → List Found
  | a :: b :: rest => if a.start = b.start then dropRepeated (a :: rest) else a :: dropRepeated (b :: rest)
  | rest => rest

def findAll (source : List Char) (conventions : Conventions) (tree : Tree) : List Found :=
  dropRepeated ((findIn source conventions [] [] [] tree).mergeSort fun a b => a.start ≤ b.start)

end Marginalia.Extraction
