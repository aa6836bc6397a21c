import Marginalia.Comment
import Marginalia.Extraction.Surroundings

/-! Extraction: the comments of a source, each with its place, its text and the code around it. -/

namespace Marginalia.Extraction

open Marginalia.Text Marginalia.Syntax

/-- A docstring, or a text that begins as a block comment does, is a block. -/
def styleOf (docstring : Bool) (raw : List Char) : Style :=
  if docstring then .block
  else match raw with
    | '/' :: '*' :: _ => .block
    | _ => .line

def located (fileId : String) (source : List Char) (ranges : List (Nat × Nat)) (found : Found) :
    Comment :=
  let raw := slice source found.start found.stop
  let (code, anchor) := documentedLine source ranges found
  let (block, blockStart) := match found.context with
    | some (start, stop) => (codeBetween source ranges start stop, start)
    | none => ([], 0)
  { fileId := fileId
    start := found.start
    stop := found.stop
    line := lineOf source found.start + 1
    style := styleOf found.docstring raw
    raw := String.ofList raw
    code := String.ofList code
    anchor := anchor
    block := String.ofList block
    blockStart := blockStart }

/-- The comments of a source, given its tree, ascending. -/
def extract (conventions : Conventions) (fileId source : String) (tree : Tree) :
    Except Fault (List Comment) :=
  let text := source.toList
  let found := findAll text conventions tree
  let ranges := found.map fun f => (f.start, f.stop)
  found.mapM fun f =>
    let comment := located fileId text ranges f
    (comment.check).map fun _ => comment

end Marginalia.Extraction
