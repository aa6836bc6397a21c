import Marginalia.Analysis.Rewriting
import Marginalia.Commit
import Marginalia.Language
import Marginalia.Report.Rendering
import Marginalia.Settings.Document
import Marginalia.Terminal.Table

/-! What commands show on a terminal, line by line. -/

namespace Marginalia.Command

open Terminal Patch

/-! ### Analyses -/

def summaryRows (summary : Summary) : List (List String) :=
  [["Files analyzed", toString summary.files],
    ["Files failed", toString summary.failures],
    ["Comments", toString summary.comments],
    ["Drift findings", toString summary.findings]]
  ++ (summary.categories.map fun (category, count) => ["  " ++ category.name, toString count])
  ++ summary.treatments.map fun (treatment, count) =>
      ["  " ++ treatment.name ++ " actions", toString count]

def summaryLines (report : Report Float) : List String :=
  [if report.curtailed then title .yellow "⚠️  Analysis timed out; results are partial"
    else title .brightGreen "✅ Analysis Complete", ""]
  ++ plainTable ["metric", "value"] (summaryRows report.summary) ++ [""]

def treatmentPaint : Treatment → Paint
  | .delete => .red
  | .rewrite => .cyan
  | .flag => .yellow
  | .keep => .dimmed

def stepRow (fileId : String) (step : Step) : List Cell :=
  [⟨fileId ++ ":" ++ toString step.line, none⟩,
    ⟨step.treatment.name, some (treatmentPaint step.treatment)⟩,
    ⟨Report.categoryText step, none⟩,
    ⟨step.reason, none⟩]

def stepLines (report : Report Float) : List String :=
  match report.files.flatMap fun file => file.steps.map (stepRow file.fileId) with
  | [] => [Paint.brightGreen.on "No comments need attention.", ""]
  | rows =>
    title .brightBlue "📝 Planned actions" ::
      tableLines ["location", "action", "category", "reason"] rows ++ [""]

def kindPaint : DriftKind → Paint
  | .stale => .yellow
  | .inconsistent => .red

def findingLine (finding : Finding Float) : String :=
  "   " ++ (kindPaint finding.kind).on finding.kind.name ++ " " ++
    Paint.cyan.on finding.first.text ++ " <> " ++ Paint.cyan.on finding.second.text ++ " " ++
    Report.likenesses finding

def findingLines (findings : List (Finding Float)) : List String :=
  if findings.isEmpty then []
  else title .brightBlue "🔀 Comment drift" :: findings.map findingLine ++ [""]

def failureLines (files : List (FileReport Float)) : List String :=
  match files.filterMap fun file => file.error.map fun error => "   " ++ file.fileId ++ ": " ++ error with
  | [] => []
  | lines => title .red "❌ Files not analyzed" :: lines ++ [""]

def reportLines (report : Report Float) : List String :=
  summaryLines report ++ stepLines report ++ findingLines report.findings
    ++ failureLines report.files
    ++ (report.warnings ++ report.files.flatMap (·.warnings)).map fun warning =>
      Paint.yellow.on "warning:" ++ " " ++ warning.text

/-- The files that rewriting would change. -/
def previewLines (files : List Analysis.Rewritten) : List String :=
  match files.filter (·.changed) with
  | [] => [Paint.brightGreen.on "No files would change."]
  | changed =>
    (title .brightBlue "🔍 Dry run:" ++ " " ++
      Paint.bold.on (toString changed.length ++ " files would be rewritten")) ::
      changed.map fun file => "   " ++ Paint.cyan.on file.fileId

/-! ### Commits -/

def suspectLines (suspect : Commit.Suspect) : List String :=
  ("  " ++ Paint.yellow.on suspect.hash ++ " " ++ suspect.subject) ::
    suspect.reasons.map ("    - " ++ ·) ++ [""]

def scanLines (suspects : List Commit.Suspect) (count : Nat) : List String :=
  ["Scanning last " ++ toString count ++ " commits...", ""] ++
    match suspects with
    | [] =>
      [Paint.brightGreen.on ("No issues found in the last " ++ toString count ++ " commits.")]
    | suspects =>
      [title .yellow ("Found " ++ toString suspects.length ++ " suspicious commits:"), ""]
        ++ suspects.flatMap suspectLines
        ++ ["Consider rewording these commits with: git rebase -i"]

/-! ### Settings and languages -/

def settingsRows (path : String) (processors : Nat) (s : Settings Float) : List (List String) :=
  [["file", path],
    ["analysis.max_concurrency", toString (s.analysis.concurrency.getD processors)],
    ["analysis.total_timeout_seconds", (s.analysis.timeout.map toString).getD "none"],
    ["drift.enabled", toString s.drift.enabled],
    ["drift.code_similarity_threshold", Decimal.fixed 2 s.drift.codeThreshold],
    ["drift.comment_similarity_threshold", Decimal.fixed 2 s.drift.commentThreshold],
    ["policy.delete_filler", toString s.policy.deleteFiller],
    ["policy.delete_redundant", toString s.policy.deleteRedundant],
    ["policy.delete_placeholder", toString s.policy.deletePlaceholder],
    ["policy.flag_drift", toString s.policy.flagDrift],
    ["policy.fix_typos", toString s.policy.fixTypos]]

def settingsLines (path : String) (processors : Nat) (s : Settings Float) : List String :=
  plainTable ["setting", "value"] (settingsRows path processors s)

def writtenLines (path : String) : List String :=
  [title .brightGreen "✅ Configuration saved to:" ++ " " ++ Paint.cyan.on path,
    "",
    title .brightBlue "📝 Next steps:",
    "   1. Edit the policy section to choose what gets deleted",
    "   2. Run analysis with: " ++
      Paint.cyan.on ("commentary analyze --config " ++ path ++ " <paths>"),
    ""]
  ++ plainTable ["option", "alias"]
    (Policy.optionNames.map fun (name, other) => ["policy." ++ name, other])

def maturityText : Language.Maturity → String
  | .stable => "✅ Stable"
  | .beta => "🚧 Beta"

def languageRow (p : Language.Profile) : List String :=
  [p.name, String.intercalate ", " (p.extensions.map ("." ++ ·)), maturityText p.maturity, p.notes]

def languageLines : List String :=
  [title .brightBlue "🔤 Supported Programming Languages",
    "   Found " ++ toString Language.all.length ++ " supported languages",
    ""]
  ++ plainTable ["language", "extension", "status", "comments"]
    (Language.all.map fun language => languageRow language.profile)

end Marginalia.Command
