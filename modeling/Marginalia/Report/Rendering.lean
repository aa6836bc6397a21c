import Marginalia.Decimal.Fixed
import Marginalia.Document.Json
import Marginalia.Document.Yaml
import Marginalia.Report.Basic
import Marginalia.Settings.Basic

/-! Reports as documents and as text. -/

namespace Marginalia

open Document Patch

variable {α : Type}

/-- A field that is left out when it has no value. -/
def optionalText (name : String) (value : Option String) : List (String × Value α) :=
  value.toList.map fun text => (name, .text text)

def Place.toValue (place : Place) : Value α :=
  .record [("file_id", .text place.fileId), ("start", .nat place.start), ("end", .nat place.stop)]

def Patch.Step.toValue (step : Step) : Value α :=
  .record ([("span", step.place.toValue), ("action", .text step.treatment.name)]
    ++ optionalText "replacement_text" step.replacement
    ++ optionalText "category" (step.category.map Category.name)
    ++ [("reason", .text step.reason), ("line", .nat step.line)])

def DriftKind.name : DriftKind → String
  | inconsistent => "inconsistent"
  | stale => "stale"

def Finding.toValue (finding : Finding α) : Value α :=
  .record [
    ("span_a", finding.first.toValue),
    ("span_b", finding.second.toValue),
    ("code_similarity", .decimal finding.codeLikeness),
    ("comment_similarity", .decimal finding.commentLikeness),
    ("kind", .text finding.kind.name)]

def Warning.toValue : Warning → Value α
  | truncated bucket size compared files => .record [
      ("kind", .text "drift_detection_truncated"),
      ("bucket", .text bucket),
      ("size", .nat size),
      ("compared", .nat compared),
      ("files", .list (files.map .text))]
  | empty fileId start line => .record [
      ("kind", .text "empty_comment"),
      ("file_id", .text fileId),
      ("start", .nat start),
      ("line", .nat line)]

def FileReport.toValue (report : FileReport α) : Value α :=
  .record ([
    ("file_id", .text report.fileId),
    ("actions", .list (report.steps.map Step.toValue)),
    ("drift_findings", .list (report.findings.map Finding.toValue)),
    ("truncated", .bool report.truncated),
    ("warnings", .list (report.warnings.map Warning.toValue))]
    ++ optionalText "error" report.error)

def Summary.toValue (summary : Summary) : Value α :=
  .record [
    ("files_analyzed", .nat summary.files),
    ("files_failed", .nat summary.failures),
    ("comments", .nat summary.comments),
    ("categories", .record (summary.categories.map fun (c, count) => (c.name, .nat count))),
    ("actions", .record (summary.treatments.map fun (t, count) => (t.name, .nat count))),
    ("drift_findings", .nat summary.findings)]

/-- What tells one run from another: a name and a time, as text. -/
structure Stamp where
  runId : String
  time : String
  deriving DecidableEq, Repr

namespace Report

def toValue (stamp : Stamp) (report : Report α) : Value α :=
  .record [
    ("run_id", .text stamp.runId),
    ("generated_at", .text stamp.time),
    ("summary", report.summary.toValue),
    ("files", .list (report.files.map FileReport.toValue)),
    ("drift_findings", .list (report.findings.map Finding.toValue)),
    ("warnings", .list (report.warnings.map Warning.toValue)),
    ("partial", .bool report.curtailed)]

/-! ### Lines of text -/

def likenesses (finding : Finding Float) : String :=
  "(code " ++ Decimal.fixed 2 finding.codeLikeness ++ ", comment " ++
    Decimal.fixed 2 finding.commentLikeness ++ ")"

def kindTitle : DriftKind → String
  | .inconsistent => "Inconsistent"
  | .stale => "Stale"

def categoryText (step : Step) : String := (step.category.map Category.name).getD "mixed"

def stepLine (fileId : String) (step : Step) : String :=
  fileId ++ ":" ++ toString step.line ++ ": " ++ step.treatment.name ++ " " ++
    categoryText step ++ " (" ++ step.reason ++ ")"

/-- The lines about a file: its error alone, or its steps and warnings. -/
def fileLines (file : FileReport α) : List String :=
  match file.error with
  | some error => [file.fileId ++ ": error: " ++ error]
  | none =>
    file.steps.map (stepLine file.fileId) ++
      file.warnings.map fun warning => file.fileId ++ ": warning: " ++ warning.text

def findingLine (finding : Finding Float) : String :=
  "drift " ++ kindTitle finding.kind ++ ": " ++ finding.first.text ++ " <> " ++
    finding.second.text ++ " " ++ likenesses finding

def headLine (report : Report α) : String :=
  toString report.summary.files ++ " files, " ++ toString report.summary.comments ++
    " comments, " ++ toString report.summary.findings ++ " drift findings" ++
    (if report.curtailed then " (partial)" else "")

def lines (report : Report Float) : List String :=
  headLine report :: (report.files.flatMap fileLines ++ report.findings.map findingLine ++
    report.warnings.map fun warning => "warning: " ++ warning.text)

/-- The text of a report, with its stamp where the format has one. -/
def render (format : ReportFormat) (stamp : Stamp) (report : Report Float) : String :=
  match format with
  | .json => Json.render (report.toValue stamp)
  | .yaml => Yaml.render (report.toValue stamp)
  | .text => String.join (report.lines.map (· ++ "\n"))

end Report

end Marginalia
