import Marginalia.Proofs.Patch.Edits

/-! Plans are carried out as a whole or not at all. Only the steps that edit have a part in it, and
unless two of them have one range, neither has the order of the steps. -/

namespace Marginalia.Patch

open Marginalia.Text

/-- The edits of steps in the order of their ranges. -/
def inOrder (steps : List Step) : List Edit := (steps.filterMap Step.edit?).mergeSort editLe

/-- A plan that can be carried out: every step that edits has a part of the text for its place, and
in their order each of the places ends no later than the next one begins. -/
structure Applies (text : List Char) (steps : List Step) : Prop where
  editable : ∀ s ∈ steps, s.Editable text
  chain : (inOrder steps).IsChain fun a b => a.place.stop ≤ b.place.start

/-- No two of the steps that edit have the same range. -/
def RangesDistinct (steps : List Step) : Prop :=
  (steps.filterMap Step.edit?).Pairwise fun a b =>
    ¬(a.place.start = b.place.start ∧ a.place.stop = b.place.stop)

instance (steps : List Step) : Decidable (RangesDistinct steps) :=
  inferInstanceAs (Decidable ((steps.filterMap Step.edit?).Pairwise _))

variable {text : List Char} {steps steps' : List Step}

theorem editsOf_eq_ok_iff_applies {edits : List Edit} :
    editsOf text steps = .ok edits ↔ Applies text steps ∧ edits = inOrder steps := by
  rw [editsOf_eq_ok_iff]
  constructor
  · rintro ⟨hfit, rfl, hchain⟩
    exact ⟨⟨hfit, hchain⟩, rfl⟩
  · rintro ⟨⟨hfit, hchain⟩, rfl⟩
    exact ⟨hfit, rfl, hchain⟩

/-! ### Steps that do not edit -/

theorem editOf?_of_not_edits {step : Step} (h : step.treatment.edits = false) :
    editOf? text step = .ok none := by
  have hfit : step.Editable text := ⟨fun ht => by simp [ht, Treatment.edits] at h, by simp [h]⟩
  have hnone : step.edit? = none := by
    rw [← Option.not_isSome_iff_eq_none, step.isSome_edit?, h]
    exact Bool.false_ne_true
  exact editOf?_eq_ok_iff.2 ⟨hnone.symm, hfit⟩

theorem editsOf_filter :
    editsOf text (steps.filter (·.treatment.edits)) = editsOf text steps := by
  have hbind (l : List Step) : editsOf text l =
      ((l.mapM (editOf? text)).map (List.filterMap id) >>= fun found =>
        checkDisjoint (found.mergeSort editLe) >>= fun _ => .ok (found.mergeSort editLe)) := by
    rw [editsOf]
    cases l.mapM (editOf? text) <;> rfl
  rw [hbind, hbind, mapM_filter fun _ => editOf?_of_not_edits]

theorem apply_filter {source : String} (plan : Plan) :
    apply source ⟨plan.fileId, plan.steps.filter (·.treatment.edits)⟩ = apply source plan := by
  rw [apply, apply, editsOf_filter]

/-! ### The order of steps -/

theorem inOrder_sorted (steps : List Step) : (inOrder steps).Pairwise fun a b =>
    a.place.start < b.place.start ∨
      a.place.start = b.place.start ∧ a.place.stop ≤ b.place.stop :=
  pairwise_mergeSort_ranges _ _ _

/-- Edits with one range stay in the order in which the steps are given, and others do not. -/
theorem inOrder_perm (h : RangesDistinct steps) (hperm : steps'.Perm steps) :
    inOrder steps' = inOrder steps := by
  have hedits : (inOrder steps').Perm (inOrder steps) :=
    (List.mergeSort_perm _ _).trans ((hperm.filterMap _).trans (List.mergeSort_perm _ _).symm)
  refine List.Perm.eq_of_pairwise ?_ (inOrder_sorted steps') (inOrder_sorted steps) hedits
  intro a b ha hb hab hba
  have ha := List.mem_mergeSort.1 (hedits.mem_iff.1 ha)
  have hb := List.mem_mergeSort.1 hb
  -- Both ranges are the same, which only an edit and itself have.
  rcases eq_or_rel_of_pairwise h ha hb with rfl | hne | hne
  · rfl
  · omega
  · omega

theorem Applies.perm (h : RangesDistinct steps) (hperm : steps'.Perm steps) :
    Applies text steps' ↔ Applies text steps := by
  have horder := inOrder_perm h hperm
  constructor
  · rintro ⟨hfit, hchain⟩
    exact ⟨fun s hs => hfit s (hperm.mem_iff.2 hs), horder ▸ hchain⟩
  · rintro ⟨hfit, hchain⟩
    exact ⟨fun s hs => hfit s (hperm.mem_iff.1 hs), horder.symm ▸ hchain⟩

theorem apply_eq_ok_iff_applies {source out : String} {plan : Plan} :
    apply source plan = .ok out ↔ Applies source.toList plan.steps ∧
      out = String.ofList (spliceFrom source.toList 0 (inOrder plan.steps)) := by
  simp only [apply_eq_ok_iff, editsOf_eq_ok_iff_applies]
  constructor
  · rintro ⟨edits, ⟨happlies, rfl⟩, rfl⟩
    exact ⟨happlies, rfl⟩
  · rintro ⟨happlies, rfl⟩
    exact ⟨_, ⟨happlies, rfl⟩, rfl⟩

/-- A plan is carried out exactly when all of its edits can be made, and the text is then what lies
between their places with the new texts in the stead of these. Steps that do not edit have no part
in it, and if the ranges of the edits are distinct, neither has the order of the steps. -/
theorem apply_all_or_none (source : String) (plan : Plan) :
    (∀ out, apply source plan = .ok out ↔ Applies source.toList plan.steps ∧
      out = String.ofList (spliceFrom source.toList 0 (inOrder plan.steps))) ∧
    apply source ⟨plan.fileId, plan.steps.filter (·.treatment.edits)⟩ = apply source plan ∧
    (RangesDistinct plan.steps → ∀ steps, steps.Perm plan.steps → ∀ out,
      apply source ⟨plan.fileId, steps⟩ = .ok out ↔ apply source plan = .ok out) := by
  refine ⟨fun out => apply_eq_ok_iff_applies, apply_filter plan, ?_⟩
  intro hdistinct steps hperm out
  rw [apply_eq_ok_iff_applies, apply_eq_ok_iff_applies, Applies.perm hdistinct hperm,
    inOrder_perm hdistinct hperm]

theorem apply_of_shuffled :
    let rename : Step := ⟨⟨"a.js", 0, 3⟩, .rewrite, some "let", none, "", 1⟩
    let flag : Step := ⟨⟨"a.js", 9, 2⟩, .flag, none, none, "", 1⟩
    let remove : Step := ⟨⟨"a.js", 3, 8⟩, .delete, none, none, "", 1⟩
    RangesDistinct [rename, flag, remove] ∧ [remove, flag, rename].Perm [rename, flag, remove] ∧
      apply "var/*x*/ y" ⟨"a.js", [remove, flag, rename]⟩ = .ok "let y" := by
  intro rename flag remove
  have hdistinct : RangesDistinct [rename, flag, remove] := by decide
  have hperm : [remove, flag, rename].Perm [rename, flag, remove] := by decide
  obtain ⟨hiff, -, hshuffle⟩ := apply_all_or_none "var/*x*/ y" ⟨"a.js", [rename, flag, remove]⟩
  have horder : inOrder [rename, flag, remove] = [rename, flag, remove].filterMap Step.edit? :=
    List.mergeSort_of_pairwise (by decide)
  refine ⟨hdistinct, hperm, (hshuffle hdistinct _ hperm _).2 ((hiff _).2 ⟨⟨?_, ?_⟩, ?_⟩)⟩
  · decide
  · rw [horder]
    decide
  · rw [horder]
    decide

end Marginalia.Patch
