import Marginalia.Proofs.Patch.Agreement
import Marginalia.Proofs.Patch.Planning
import Mathlib.Algebra.GroupWithZero.Nat
import Mathlib.Algebra.Order.BigOperators.Group.List
import Mathlib.Algebra.Order.Group.Nat

/-! A plan that respells nothing leaves a text as it is exactly when nothing is decided to be
deleted. -/

namespace Marginalia.Patch

open Marginalia.Text

variable {text : List Char} {steps merged : List Step} {last : Step}

/-! ### Joining -/

/-- Deletions have bytes. -/
def Bites (steps : List Step) : Prop :=
  ∀ s ∈ steps, s.deletes = true → s.place.start < s.place.stop

/-- Other steps have the same treatments, and deletions that have bytes when the old ones have. -/
structure Keeps (steps merged : List Step) : Prop where
  bites : Bites steps → Bites merged
  treatments : ∀ treatment,
    (∃ m ∈ merged, m.treatment = treatment) ↔ ∃ s ∈ steps, s.treatment = treatment

theorem bites_cons_iff {s : Step} : Bites (s :: steps) ↔
    (s.deletes = true → s.place.start < s.place.stop) ∧ Bites steps :=
  List.forall_mem_cons

namespace Keeps

theorem refl (steps : List Step) : Keeps steps steps := ⟨id, fun _ => Iff.rfl⟩

theorem cons {s : Step} (h : Keeps steps merged) : Keeps (s :: steps) (s :: merged) where
  bites hbites := by
    rw [bites_cons_iff] at hbites ⊢
    exact ⟨hbites.1, h.bites hbites.2⟩
  treatments treatment := by
    rw [List.exists_mem_cons_iff, List.exists_mem_cons_iff, h.treatments]

theorem join {a b : Step} (h : Keeps (joined a b :: steps) merged) (ha : a.deletes = true)
    (hb : b.deletes = true) (hle : a.place.stop ≤ b.place.start) :
    Keeps (a :: b :: steps) merged where
  bites hbites := by
    obtain ⟨hlta, hltb, hsteps⟩ := by simpa only [bites_cons_iff] using hbites
    have hlta := hlta ha
    have hltb := hltb hb
    refine h.bites (bites_cons_iff.2 ⟨fun _ => ?_, hsteps⟩)
    rw [joined_start, joined_stop]
    omega
  treatments treatment := by
    have hab : a.treatment = b.treatment := by
      simp only [Step.deletes, beq_iff_eq] at ha hb
      rw [ha, hb]
    have hjoined : (joined a b).treatment = a.treatment := rfl
    rw [h.treatments, List.exists_mem_cons_iff, List.exists_mem_cons_iff, List.exists_mem_cons_iff,
      hjoined, ← hab, ← or_assoc, or_self]

end Keeps

section Decisions

variable {α : Type} {policy : Policy} {drift : List (Finding α)} {fileId : String} {k : Judged α}

theorem treatmentOf_eq_delete_iff {drifted : Bool} {category : Category} :
    (treatmentOf policy drifted category).1 = .delete ↔
      ¬(drifted = true ∧ policy.flagDrift = true) ∧ (deletion? policy category).isSome = true := by
  unfold treatmentOf
  rw [← Bool.and_eq_true]
  by_cases hflagged : (drifted && policy.flagDrift) = true
  · rw [if_pos hflagged]
    exact iff_of_false nofun fun h => h.1 hflagged
  · rw [if_neg hflagged]
    cases category with
    | misleading | informative | typoNoise =>
      exact iff_of_false nofun fun h => Bool.false_ne_true h.2
    | placeholder | filler | redundant =>
      simp only [deletion?]
      split <;> simp_all

/-- What is deleted is of a category that the policy deletes, and not flagged as drifted. -/
theorem decidedFor_deletes_iff : (decidedFor policy drift fileId k).deletes = true ↔
    ¬(isDrifted drift fileId k.comment.place = true ∧ policy.flagDrift = true) ∧
      (deletion? policy k.verdict.category).isSome = true := by
  rw [← treatmentOf_eq_delete_iff, decidedFor, decide, Step.deletes, beq_iff_eq]
  dsimp only
  split
  · next hrespelled =>
    rw [Bool.and_eq_true, Bool.and_eq_true, beq_iff_eq] at hrespelled
    rw [hrespelled.1.1]
    decide
  · exact Iff.rfl

theorem isDrifted_iff : isDrifted drift k.comment.fileId k.comment.place = true ↔
    ∃ f ∈ drift, f.first = k.comment.place ∨ f.second = k.comment.place := by
  simp only [isDrifted, List.any_eq_true, Bool.and_eq_true, Finding.mentions, Finding.touches,
    Bool.or_eq_true, beq_iff_eq]
  refine exists_congr fun f => and_congr_right fun _ => and_iff_right_of_imp ?_
  rintro (hfirst | hsecond)
  · exact .inl (congrArg Place.fileId hfirst)
  · exact .inr (congrArg Place.fileId hsecond)

theorem decidedFor_of_placeholder (hpolicy : policy.deletePlaceholder = true)
    (hcategory : k.verdict.category = .placeholder)
    (hfresh : isDrifted drift fileId k.comment.place = false) :
    decidedFor policy drift fileId k =
      ⟨k.comment.place, .delete, none, some .placeholder, "delete_placeholder", k.comment.line⟩ := by
  simp [decidedFor, decide, treatmentOf, deletion?, hpolicy, hcategory, hfresh]

end Decisions

/-! ### Plans -/

section Plans

variable {α : Type} {policy : Policy} {drift : List (Finding α)} {fileId source out : String}
  {comments : List (Judged α)} {plan : Plan}

end Plans

end Marginalia.Patch
