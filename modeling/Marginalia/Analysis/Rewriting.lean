import Marginalia.Analysis.Outcome
import Marginalia.Analysis.Source
import Marginalia.Patch.Splice

/-! Rewriting: the plans of an outcome carried out on the sources. -/

namespace Marginalia.Analysis

variable {α : Type}

/-- The text of a file after its plan. -/
structure Rewritten where
  fileId : String
  path : Option String
  text : String
  /-- The text is another one than before. -/
  changed : Bool
  deriving DecidableEq, Repr

/-- A file with a plan, rewritten from the first source that has its name. -/
def rewriteFile (sources : List Source) (fileId : String) (plan : Patch.Plan) :
    Except Fault Rewritten :=
  match sources.find? (·.fileId == fileId) with
  | none => .error (.noSource fileId)
  | some source => do
    let text ← Patch.apply source.text plan
    .ok ⟨fileId, source.path, text, text != source.text⟩

def rewrite (sources : List Source) (outcome : Outcome α) : Except Fault (List Rewritten) :=
  (outcome.files.filterMap fun file => file.plan.map (file.fileId, ·)).mapM fun (fileId, plan) =>
    rewriteFile sources fileId plan

/-- The sources with the texts after rewriting: of several for one file the last counts. -/
def advance (sources : List Source) (rewritten : List Rewritten) : List Source :=
  sources.map fun source =>
    match rewritten.reverse.find? (·.fileId == source.fileId) with
    | some file => { source with text := file.text }
    | none => source

end Marginalia.Analysis
