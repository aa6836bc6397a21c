import Marginalia.Analysis.Outcome

/-! Reports: an outcome arranged by file, with counts over all files. -/

namespace Marginalia

open Patch

variable {α : Type}

structure FileReport (α : Type) where
  fileId : String
  steps : List Step
  /-- The findings with a place in the file. -/
  findings : List (Finding α)
  /-- A bucket with comments of the file was cut short. -/
  truncated : Bool
  warnings : List Warning
  error : Option String
  deriving DecidableEq, Repr

/-- Counts over all files. Categories and treatments that do not occur are not listed. -/
structure Summary where
  files : Nat
  failures : Nat
  comments : Nat
  /-- How many comments have a category, in the order of categories. -/
  categories : List (Category × Nat)
  /-- How many steps have a treatment, in the order of first occurrence. -/
  treatments : List (Treatment × Nat)
  findings : Nat
  deriving DecidableEq, Repr

structure Report (α : Type) where
  summary : Summary
  files : List (FileReport α)
  findings : List (Finding α)
  /-- The warnings that concern the run. -/
  warnings : List Warning
  curtailed : Bool
  deriving DecidableEq, Repr

namespace Report

/-- The categories of comments, each once and with their number. -/
def categoryCounts (comments : List (Judged α)) : List (Category × Nat) :=
  let categories := comments.map (·.verdict.category)
  (Category.all.filter categories.contains).map fun category =>
    (category, categories.count category)

def treatmentCounts (steps : List Step) : List (Treatment × Nat) :=
  let treatments := steps.map (·.treatment)
  treatments.eraseDups.map fun treatment => (treatment, treatments.count treatment)

def summaryOf (outcome : Analysis.Outcome α) : Summary where
  files := outcome.files.length
  failures := outcome.failures.length
  comments := outcome.comments.length
  categories := categoryCounts outcome.comments
  treatments := treatmentCounts outcome.steps
  findings := outcome.drift.findings.length

/-- What is reported about a file; comments that are kept only when they are asked for. -/
def fileReport (drift : Drift.DriftReport α) (includeKept : Bool)
    (file : Analysis.FileOutcome α) : FileReport α where
  fileId := file.fileId
  steps := (file.plan.toList.flatMap (·.steps)).filter fun step =>
    includeKept || step.treatment != .keep
  findings := drift.findings.filter (·.touches file.fileId)
  truncated := drift.warnings.any (·.concerns file.fileId)
  warnings := file.warnings
  error := file.error

def ofOutcome (outcome : Analysis.Outcome α) (includeKept : Bool) : Report α where
  summary := summaryOf outcome
  files := outcome.files.map (fileReport outcome.drift includeKept)
  findings := outcome.drift.findings
  warnings := outcome.drift.warnings
  curtailed := outcome.curtailed

end Report

end Marginalia
