import Marginalia.Analysis.Outcome
import Marginalia.Analysis.Source
import Marginalia.Extraction.Comments
import Marginalia.Judging.Rules
import Marginalia.Patch.Planning
import Marginalia.Settings.Check

/-! Runs: every file is examined by itself, drift is detected once all are, and then every file gets
its plan. A fault of one file fails that file only. -/

namespace Marginalia.Analysis

variable {α : Type} [Score α]

/-- What a run needs besides files. -/
structure Analyst (α : Type) where
  settings : Settings α
  judge : Judging.Judge α
  /-- The syntax tree of a source. -/
  tree : Language → String → Syntax.Tree

def Analyst.ofSettings (settings : Settings α) : Except Fault (Analyst α) := do
  settings.check
  .ok ⟨settings, .ofSettings settings.classifier, Language.tree⟩

namespace Analyst

/-- The outcome of a file whose examination gave a fault: a failure, unless the fault concerns more
than the file. -/
def isolated (fileId : String) : Except Fault (FileOutcome α) → Except Fault (FileOutcome α)
  | .ok outcome => .ok outcome
  | .error fault =>
    if fault.fileScoped then .ok (.failed fileId fault.message) else .error fault

/-- A comment with its verdict, or the warning that it is empty. -/
def judged (analyst : Analyst α) (comment : Comment) : Except Fault (Judged α ⊕ Warning) :=
  match analyst.judge.classify comment with
  | .ok verdict => .ok (.inl ⟨comment, verdict⟩)
  | .error (.emptyComment ..) => .ok (.inr (.empty comment.fileId comment.start comment.line))
  | .error fault => .error fault

def examine (analyst : Analyst α) (source : Source) : Except Fault (FileOutcome α) :=
  isolated source.fileId do
    let language ← Language.named source.language
    let comments ← Extraction.extract language.profile.conventions source.fileId source.text
      (analyst.tree language source.text)
    let results ← comments.mapM analyst.judged
    .ok {
      fileId := source.fileId
      comments := results.filterMap Sum.getLeft?
      plan := none
      warnings := results.filterMap Sum.getRight?
      error := none }

/-- The outcome of a file before drift is known. -/
def examinePending (analyst : Analyst α) : Pending → Except Fault (FileOutcome α)
  | .loaded source => analyst.examine source
  | .unreadable fileId error => .ok (.failed fileId error)

/-- The drift among the comments of the files that did not fail. -/
def driftAmong (analyst : Analyst α) (files : List (FileOutcome α)) : Drift.DriftReport α :=
  Drift.detect analyst.settings.drift analyst.judge.dictionary
    ((files.filter fun file => !file.isFailure).flatMap (·.comments))

/-- An outcome with its plan. A file that failed or has no source gets none. -/
def withPlan (analyst : Analyst α) (drift : List (Finding α)) (file : FileOutcome α) :
    Pending → Except Fault (FileOutcome α)
  | .unreadable .. => .ok file
  | .loaded source =>
    if file.isFailure then .ok file
    else match Patch.planFor analyst.settings.policy file.fileId source.text file.comments drift with
      | .ok plan => .ok { file with plan := some plan }
      | .error fault =>
        if fault.fileScoped then .ok { file with error := some fault.message } else .error fault

/-- The outcome of a run from those of its files, of which some may be missing. -/
def conclude (analyst : Analyst α) (pending : List Pending)
    (examined : List (Option (FileOutcome α))) : Except Fault (Outcome α) := do
  let files := (pending.zip examined).map fun (file, outcome) =>
    outcome.getD (.failed file.fileId "abandoned: total timeout elapsed")
  let drift := analyst.driftAmong files
  let planned ← (files.zip pending).mapM fun (file, source) =>
    analyst.withPlan drift.findings file source
  .ok ⟨planned, drift, examined.any Option.isNone⟩

/-- The outcome of a run that examines one file after another. -/
def run (analyst : Analyst α) (pending : List Pending) : Except Fault (Outcome α) := do
  analyst.conclude pending (← pending.mapM fun file => do
    .ok (some (← analyst.examinePending file)))

/-- Results by number, from results in any order. -/
def inSlots {β : Type} (total : Nat) (completed : List (Nat × β)) : List (Option β) :=
  completed.foldl (fun slots (index, result) => slots.set index (some result))
    (List.replicate total none)

def analyze (analyst : Analyst α) (sources : List Source) : Except Fault (Outcome α) :=
  analyst.run (sources.map .loaded)

end Analyst

end Marginalia.Analysis
