import Marginalia.Verdict

/-! What an analysis reports besides verdicts: comments that drifted apart, and warnings. -/

namespace Marginalia

/-- How two comments on like code disagree: both explain, or one lost its explanation. -/
inductive DriftKind where
  | inconsistent
  | stale
  deriving DecidableEq, Repr

/-- Two comments on like code that say different things, the earlier place first. -/
structure Finding (α : Type) where
  first : Place
  second : Place
  codeLikeness : α
  commentLikeness : α
  kind : DriftKind
  deriving DecidableEq, Repr

namespace Finding

variable {α : Type}

def mentions (f : Finding α) (place : Place) : Bool := f.first == place || f.second == place

def touches (f : Finding α) (fileId : String) : Bool :=
  f.first.fileId == fileId || f.second.fileId == fileId

end Finding

/-- A condition that does not stop an analysis. -/
inductive Warning where
  /-- A bucket of like code held more comments than are compared. -/
  | truncated (bucket : String) (size compared : Nat) (files : List String)
  /-- A comment without text was skipped. -/
  | empty (fileId : String) (start line : Nat)
  deriving DecidableEq, Repr

namespace Warning

def concerns (w : Warning) (fileId : String) : Bool :=
  match w with
  | truncated _ _ _ files => files.contains fileId
  | empty file _ _ => file == fileId

def text : Warning → String
  | truncated bucket size compared _ =>
    s!"drift detection truncated: bucket {bucket} has {size} candidates, compared {compared}"
  | empty fileId _ line => s!"empty comment skipped at {fileId}:{line}"

end Warning

end Marginalia
