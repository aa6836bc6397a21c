/-! Syntax trees: nodes of a kind over a range of bytes. The trees keep what locating comments and
their surroundings needs, and call every other construct just that. -/

namespace Marginalia.Syntax

inductive NodeKind where
  | comment
  | lineComment
  | blockComment
  /-- A whole source. -/
  | module
  /-- A suite of statements. -/
  | block
  | functionDefinition
  | classDefinition
  | expressionStatement
  /-- A string literal. -/
  | string
  /-- Any other construct that has a name in its grammar. -/
  | construct
  /-- A keyword or a mark, which has no name. -/
  | mark
  deriving DecidableEq, Repr

namespace NodeKind

def isComment : NodeKind → Bool
  | comment | lineComment | blockComment => true
  | _ => false

def isNamed (kind : NodeKind) : Bool := kind != mark

end NodeKind

/-- A node, the range of bytes that it covers, and its children in order. -/
inductive Tree where
  | node (kind : NodeKind) (start stop : Nat) (children : List Tree)
  deriving Repr

namespace Tree

def kind : Tree → NodeKind
  | node k _ _ _ => k

def start : Tree → Nat
  | node _ s _ _ => s

def stop : Tree → Nat
  | node _ _ e _ => e

def children : Tree → List Tree
  | node _ _ _ cs => cs

def leaf (kind : NodeKind) (start stop : Nat) : Tree := node kind start stop []

def isComment (t : Tree) : Bool := t.kind.isComment

def isNamed (t : Tree) : Bool := t.kind.isNamed

def namedChildren (t : Tree) : List Tree := t.children.filter isNamed

/-- Trees put under one node. Comments before the first other tree stay outside, so that a node
begins and ends with what belongs to it. -/
def gather (kind : NodeKind) (trees : List Tree) : List Tree :=
  let lead := trees.takeWhile isComment
  match trees.dropWhile isComment with
  | [] => trees
  | first :: rest =>
    lead ++ [node kind first.start ((first :: rest).getLast (by simp)).stop (first :: rest)]

end Tree

end Marginalia.Syntax
