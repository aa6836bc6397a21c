import Marginalia.Judging.Features

/-! The rules of judging, in order of priority: the first that fires gives the category, and all that
fire are evidence. -/

namespace Marginalia.Judging

/-- A rule: its confidence when it fires. -/
structure Rule (α : Type) where
  name : String
  category : Category
  fires : Features α → ClassifierSettings α → Option α

variable {α : Type} [Score α]

def confident (condition : Bool) (confidence : α) : Option α :=
  if condition then some confidence else none

/-- Half, and half of the part of the words that narrative phrases cover, but not above 0.95. -/
def framingConfidence (features : Features α) : α :=
  Score.least (0.5 + 0.5 * Score.ratio features.fillerWords (max features.words.length 1)) 0.95

def rules : List (Rule α) := [
  { name := "placeholder_marker"
    category := .placeholder
    fires := fun features _ => confident features.placeholder 0.95 },
  { name := "narrative_framing"
    category := .filler
    fires := fun features settings =>
      confident (!features.fillerHits.isEmpty && features.novelTerms.length ≤ settings.novelLimit)
        (framingConfidence features) },
  { name := "restates_code"
    category := .redundant
    fires := fun features settings =>
      confident (settings.redundancy ≤ features.restatement)
        (Score.clamp features.restatement 0.6 0.95) },
  { name := "unverified_claim"
    category := .misleading
    fires := fun features _ => confident (!features.claims.isEmpty && !features.codeChecks) 0.5 },
  { name := "misspelling"
    category := .typoNoise
    fires := fun features _ => confident (!features.typos.isEmpty) 0.8 },
  { name := "novel_information"
    category := .informative
    fires := fun features _ => confident (!features.novelTerms.isEmpty) 0.7 }]

/-- The evidence when no rule fires. -/
def noRule : String := "default_informative"

def firing (settings : ClassifierSettings α) (features : Features α) : List (Rule α × α) :=
  rules.filterMap fun rule => (rule.fires features settings).map fun confidence => (rule, confidence)

def verdictOf (settings : ClassifierSettings α) (features : Features α) : Verdict α :=
  match firing settings features with
  | [] =>
    { category := .informative
      confidence := Score.clamp 0.4 Score.zero Score.one
      evidence := [noRule]
      typos := features.typos }
  | (rule, confidence) :: rest =>
    { category := rule.category
      confidence := Score.clamp confidence Score.zero Score.one
      evidence := rule.name :: rest.map (·.1.name)
      typos := features.typos }

def Judge.classify (judge : Judge α) (comment : Comment) : Except Fault (Verdict α) := do
  .ok (verdictOf judge.settings (← judge.features comment))

end Marginalia.Judging
