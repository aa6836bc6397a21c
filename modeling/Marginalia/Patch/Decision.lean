import Marginalia.Patch.Plan
import Marginalia.Patch.Respelling
import Marginalia.Settings.Basic

/-! The decision about a comment, from its verdict, the policy and whether it drifted. -/

namespace Marginalia.Patch

/-- Whether a policy deletes a category, and the reason that it then gives. -/
def deletion? (policy : Policy) : Category → Option String
  | .filler => if policy.deleteFiller then some "delete_filler" else none
  | .redundant => if policy.deleteRedundant then some "delete_redundant" else none
  | .placeholder => if policy.deletePlaceholder then some "delete_placeholder" else none
  | _ => none

/-- The treatment of a category, before spelling is looked at. -/
def treatmentOf (policy : Policy) (drifted : Bool) (category : Category) : Treatment × String :=
  if drifted && policy.flagDrift then (.flag, "drift")
  else match category with
    | .misleading => (.flag, "unverified_claim")
    | .informative => (.keep, "preserve_informative")
    | other => match deletion? policy other with
      | some reason => (.delete, reason)
      | none => (.keep, "policy_keep")

/-- The step for a comment: a comment that is kept is respelled when the policy says so. -/
def decide {α : Type} (policy : Policy) (drifted : Bool) (judged : Judged α) : Step :=
  let (treatment, reason) := treatmentOf policy drifted judged.verdict.category
  let typos := judged.verdict.typos
  let respelled := treatment == .keep && policy.fixTypos && !typos.isEmpty
  { place := judged.comment.place
    treatment := if respelled then .rewrite else treatment
    replacement := if respelled then some (respell typos judged.comment.raw) else none
    category := some judged.verdict.category
    reason := if respelled then "fix_typos" else reason
    line := judged.comment.line }

end Marginalia.Patch
