import Marginalia.Fault
import Marginalia.Settings.Basic

/-! Settings that make sense: limits are positive, thresholds lie between nought and one, and the two
safety options of the policy are on. The first fault counts. -/

namespace Marginalia

def checkPositive (value : Nat) (field : String) : Except Fault Unit :=
  if value = 0 then .error (.notPositive field) else .ok ()

def checkPositiveWhenSet (value : Option Nat) (field : String) : Except Fault Unit :=
  if value = some 0 then .error (.notPositiveWhenSet field) else .ok ()

def checkUnit {α : Type} [Score α] (value : α) (field : String) : Except Fault Unit :=
  if Score.zero ≤ value ∧ value ≤ Score.one then .ok () else .error (.notUnit field)

variable {α : Type} [Score α]

def AnalysisSettings.check (s : AnalysisSettings) : Except Fault Unit := do
  match s.concurrency with
  | some limit => checkPositive limit "analysis.max_concurrency"
  | none => pure ()
  checkPositiveWhenSet s.timeout "analysis.total_timeout_seconds"

def ClassifierSettings.check (s : ClassifierSettings α) : Except Fault Unit :=
  checkUnit s.redundancy "classifier.redundant_jaccard"

def DriftSettings.check (s : DriftSettings α) : Except Fault Unit := do
  checkUnit s.codeThreshold "drift.code_similarity_threshold"
  checkUnit s.commentThreshold "drift.comment_similarity_threshold"
  checkPositive s.bucketLimit "drift.max_bucket_size"

def Policy.check (p : Policy) : Except Fault Unit :=
  if !p.flagMisleading then .error (.mandatory "flag_misleading")
  else if !p.preserveInformative then .error (.mandatory "preserve_informative")
  else .ok ()

def Settings.check (s : Settings α) : Except Fault Unit := do
  s.analysis.check
  s.classifier.check
  s.drift.check
  s.policy.check

end Marginalia
