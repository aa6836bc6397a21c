import Marginalia.Drift.Candidate
import Marginalia.Drift.Groups
import Marginalia.Likeness.EditDistance
import Marginalia.Likeness.Jaccard
import Marginalia.Settings.Basic

/-! Drift: comments on nearly equal code that say different things. Comments are taken together by the
shape of the line that they document, then by code site; two sites are compared when line and block
are alike, and their comments are aligned before they are compared. -/

namespace Marginalia.Drift

structure DriftReport (α : Type) where
  findings : List (Finding α)
  warnings : List Warning
  deriving DecidableEq, Repr

def DriftReport.truncated {α : Type} (report : DriftReport α) : Bool :=
  report.warnings.any fun
    | .truncated .. => true
    | .empty .. => false

variable {α : Type} [Score α]

/-- The likeness of two code sites, the lesser of line and block, when both reach the threshold.
Blocks whose lengths differ too much are not compared. -/
def codeLikeness (threshold : α) (a b : Candidate α) : Option α :=
  let line : α := sequenceLikeness a.lineTokens b.lineTokens
  let short := min a.blockTokens.length b.blockTokens.length
  let long := max a.blockTokens.length b.blockTokens.length
  if line < threshold then none
  else if 0 < long ∧ Score.ratio short long < threshold then none
  else
    let block : α := sequenceLikeness a.blockTokens b.blockTokens
    if threshold ≤ block then some (Score.least line block) else none

def wordLikeness (a b : Candidate α) : α := jaccard a.words b.words

/-- The candidate most like the given one, the first of several; `best` if no other is more so. -/
def closestFrom (c best : Candidate α) : List (Candidate α) → Candidate α
  | [] => best
  | d :: rest =>
    closestFrom c (if wordLikeness c best < wordLikeness c d then d else best) rest

def closest? (c : Candidate α) : List (Candidate α) → Option (Candidate α)
  | [] => none
  | d :: rest => some (closestFrom c d rest)

def samePair (p q : Candidate α × Candidate α) : Bool :=
  p.1.index == q.1.index && p.2.index == q.2.index

/-- Each comment of a site with the closest one of the other site, both ways, each pair once. -/
def aligned (siteA siteB : List (Candidate α)) : List (Candidate α × Candidate α) :=
  ((siteA.filterMap fun a => (closest? a siteB).map fun b => (a, b))
    ++ (siteB.filterMap fun b => (closest? b siteA).map fun a => (a, b))).eraseDupsBy samePair

/-- The kind of a disagreement; two hollow comments disagree about nothing. -/
def kind? (a b : Category) : Option DriftKind :=
  if a.isHollow && b.isHollow then none
  else if (a.isHollow && b.isSubstantive) || (b.isHollow && a.isSubstantive) then some .stale
  else some .inconsistent

structure Comparison (α : Type) where
  left : Candidate α
  right : Candidate α
  /-- The likeness of the code of the sites. -/
  codeLikeness : α
  deriving DecidableEq, Repr

/-- Whether two comparisons are of the same two comments, in either order. -/
def sameComments (p q : Comparison α) : Bool :=
  min p.left.index p.right.index == min q.left.index q.right.index
    && max p.left.index p.right.index == max q.left.index q.right.index

/-- The comparisons of two code sites. Sites of one block are not compared. -/
def siteComparisons (threshold : α) (siteA siteB : List (Candidate α)) : List (Comparison α) :=
  match siteA, siteB with
  | a :: _, b :: _ =>
    if a.judged.comment.sharesBlock b.judged.comment then []
    else match codeLikeness threshold a b with
      | none => []
      | some likeness => (aligned siteA siteB).map fun (a, b) => ⟨a, b, likeness⟩
  | _, _ => []

def bucketComparisons (threshold : α) (members : List (Candidate α)) : List (Comparison α) :=
  (pairs ((grouped Candidate.site members).map (·.2))).flatMap fun (a, b) =>
    siteComparisons threshold a b

/-- The comparisons of all buckets, each cut short to a limit, without those of two comments that were
compared before. -/
def comparisons (threshold : α) (limit : Nat) (buckets : List (UInt64 × List (Candidate α))) :
    List (Comparison α) :=
  (buckets.flatMap fun (_, members) =>
    bucketComparisons threshold (members.take limit)).eraseDupsBy sameComments

/-- The finding of a comparison, unless the words of the two comments are alike. -/
def finding? (threshold : α) (p : Comparison α) : Option (Finding α) :=
  let a := p.left.judged
  let b := p.right.judged
  let likeness := wordLikeness p.left p.right
  if threshold ≤ likeness then none
  else (kind? a.verdict.category b.verdict.category).map fun kind =>
    let inOrder := a.comment.place.le b.comment.place
    { first := if inOrder then a.comment.place else b.comment.place
      second := if inOrder then b.comment.place else a.comment.place
      codeLikeness := p.codeLikeness
      commentLikeness := likeness
      kind := kind }

/-- The order of findings: by first place, then by second. -/
def findingLe (f g : Finding α) : Bool :=
  ((Place.order f.first g.first).then (Place.order f.second g.second)).isLE

def filesOf (members : List (Candidate α)) : List String :=
  ((members.map fun c => c.judged.comment.fileId).mergeSort fun a b => (compare a b).isLE).eraseDups

def bucketWarning? (limit : Nat) (bucket : UInt64) (members : List (Candidate α)) :
    Option Warning :=
  if limit < members.length then
    some (.truncated (Digest.hex bucket) members.length limit (filesOf members))
  else none

def detect (settings : DriftSettings α) (dictionary : Spelling.Dictionary)
    (comments : List (Judged α)) : DriftReport α :=
  if settings.enabled then
    let buckets := grouped Candidate.bucket (candidates dictionary comments)
    { findings :=
        ((comparisons settings.codeThreshold settings.bucketLimit buckets).filterMap
          (finding? settings.commentThreshold)).mergeSort findingLe
      warnings := buckets.filterMap fun (bucket, members) =>
        bucketWarning? settings.bucketLimit bucket members }
  else ⟨[], []⟩

end Marginalia.Drift
