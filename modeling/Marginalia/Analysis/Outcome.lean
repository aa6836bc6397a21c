import Marginalia.Drift.Detection
import Marginalia.Patch.Plan

/-! Outcomes: what an analysis finds in each file and across files. -/

namespace Marginalia.Analysis

/-- What was found in one file. -/
structure FileOutcome (α : Type) where
  fileId : String
  /-- The judged comments, in the order of the text. -/
  comments : List (Judged α)
  /-- The plan, which a failed file lacks. -/
  plan : Option Patch.Plan
  /-- The comments that were skipped. -/
  warnings : List Warning
  /-- Why the file failed. -/
  error : Option String
  deriving DecidableEq, Repr

namespace FileOutcome

variable {α : Type}

def failed (fileId error : String) : FileOutcome α := ⟨fileId, [], none, [], some error⟩

def isFailure (outcome : FileOutcome α) : Bool := outcome.error.isSome

end FileOutcome

/-- What was found, files in the order in which they were given. -/
structure Outcome (α : Type) where
  files : List (FileOutcome α)
  drift : Drift.DriftReport α
  /-- Time ran out before all files were analysed. -/
  curtailed : Bool

namespace Outcome

variable {α : Type}

def comments (outcome : Outcome α) : List (Judged α) := outcome.files.flatMap (·.comments)

def failures (outcome : Outcome α) : List (FileOutcome α) :=
  outcome.files.filter FileOutcome.isFailure

def steps (outcome : Outcome α) : List Patch.Step :=
  (outcome.files.filterMap (·.plan)).flatMap (·.steps)

end Outcome

end Marginalia.Analysis
