import Marginalia.Code.Shape
import Marginalia.Digest
import Marginalia.Finding
import Marginalia.Prose.Body
import Marginalia.Prose.Words
import Marginalia.Spelling.Dictionary

/-! Comments prepared for comparison with each other. -/

namespace Marginalia.Drift

open Marginalia.Code Marginalia.Spelling

/-- A comment with the normal forms of its code and its words without misspellings. -/
structure Candidate (α : Type) where
  /-- Its position among all comments. -/
  index : Nat
  judged : Judged α
  /-- Tokens of the line that it documents. -/
  lineTokens : List String
  /-- Tokens of the block around it. -/
  blockTokens : List String
  /-- Its words, each once. -/
  words : List String
  /-- The digest of the shape of the line. -/
  bucket : UInt64
  deriving DecidableEq, Repr

/-- The words of a comment, each once, with misspellings corrected. -/
def commentWords (dictionary : Dictionary) (raw : String) : List String :=
  ((Prose.words (Prose.body raw)).map dictionary.normalize).eraseDups

/-- The text that decides the bucket of a line. -/
def bucketText (lineTokens : List String) : String := String.intercalate " " (shape lineTokens)

def Candidate.ofJudged {α : Type} (dictionary : Dictionary) (judged : Judged α) (index : Nat) :
    Candidate α :=
  let lineTokens := normalTokens judged.comment.code
  { index := index
    judged := judged
    lineTokens := lineTokens
    blockTokens := normalTokens judged.comment.context.1
    words := commentWords dictionary judged.comment.raw
    bucket := Digest.ofText (bucketText lineTokens) }

/-- The code site of a comment: its file and where the line that it documents begins. -/
def Candidate.site {α : Type} (c : Candidate α) : String × Nat :=
  (c.judged.comment.fileId, c.judged.comment.anchor)

/-- The comments that document code, prepared in their order. -/
def candidates {α : Type} (dictionary : Dictionary) (comments : List (Judged α)) :
    List (Candidate α) :=
  (comments.zipIdx.map fun (judged, index) => .ofJudged dictionary judged index).filter
    fun c => !c.lineTokens.isEmpty

end Marginalia.Drift
