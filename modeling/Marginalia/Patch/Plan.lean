import Marginalia.Finding

/-! Plans: for every comment of a file one decision, and for every decision the place that it
concerns. -/

namespace Marginalia.Patch

inductive Treatment where
  | keep
  | delete
  | rewrite
  | flag
  deriving DecidableEq, Repr

namespace Treatment

def all : List Treatment := [keep, delete, rewrite, flag]

def name : Treatment → String
  | keep => "keep"
  | delete => "delete"
  | rewrite => "rewrite"
  | flag => "flag"

def edits : Treatment → Bool
  | delete | rewrite => true
  | keep | flag => false

end Treatment

/-- A decision about one comment, or about a run of comments deleted together. -/
structure Step where
  place : Place
  treatment : Treatment
  /-- The new text of a rewritten comment. -/
  replacement : Option String
  /-- The category, unless comments of several are deleted together. -/
  category : Option Category
  /-- What decided. -/
  reason : String
  /-- The line of the first comment. -/
  line : Nat
  deriving DecidableEq, Repr

def Step.deletes (s : Step) : Bool := s.treatment == .delete

/-- The steps for a file, ascending by their places. -/
structure Plan where
  fileId : String
  steps : List Step
  deriving DecidableEq, Repr

namespace Plan

def count (plan : Plan) (treatment : Treatment) : Nat :=
  plan.steps.countP (·.treatment == treatment)

def hasEdits (plan : Plan) : Bool := plan.steps.any (·.treatment.edits)

end Plan

end Marginalia.Patch
