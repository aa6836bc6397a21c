import Marginalia.Patch.Splice
import Marginalia.Proofs.Text.Cells
import Mathlib.Data.List.Chain

/-! The edits of steps. They are found when every step that edits has a part of the text for its
place and, in their order, each ends before the next one begins. Made in place, the last one first,
they give the text between their places with the new texts in the stead of these. -/

namespace Marginalia

open Marginalia.Text

/-- A place that cuts out a part of a text, perhaps an empty one. -/
structure Place.Cuts (text : List Char) (place : Place) : Prop where
  ordered : place.start ≤ place.stop
  within : place.stop ≤ size text
  start_boundary : isBoundary text place.start = true
  stop_boundary : isBoundary text place.stop = true

instance (text : List Char) (place : Place) : Decidable (place.Cuts text) :=
  decidable_of_iff (place.start ≤ place.stop ∧ place.stop ≤ size text ∧
      isBoundary text place.start = true ∧ isBoundary text place.stop = true)
    ⟨fun ⟨h1, h2, h3, h4⟩ => ⟨h1, h2, h3, h4⟩, fun ⟨h1, h2, h3, h4⟩ => ⟨h1, h2, h3, h4⟩⟩

namespace Patch

/-- A step that can be carried out. -/
structure Step.Editable (text : List Char) (step : Step) : Prop where
  replacement : step.treatment = .rewrite → step.replacement.isSome = true
  cuts : step.treatment.edits = true → step.place.Cuts text

instance (text : List Char) (step : Step) : Decidable (step.Editable text) :=
  decidable_of_iff ((step.treatment = .rewrite → step.replacement.isSome = true) ∧
      (step.treatment.edits = true → step.place.Cuts text))
    ⟨fun ⟨h1, h2⟩ => ⟨h1, h2⟩, fun ⟨h1, h2⟩ => ⟨h1, h2⟩⟩

/-- The edit that a step makes. -/
def Step.edit? (step : Step) : Option Edit :=
  match step.treatment with
  | .keep | .flag => none
  | .delete => some ⟨step.place, []⟩
  | .rewrite => some ⟨step.place, (step.replacement.getD "").toList⟩

/-- The text from an offset on, with the texts of ascending edits in the stead of their places. -/
def spliceFrom (source : List Char) (offset : Nat) : List Edit → List Char
  | [] => after source offset
  | edit :: rest =>
    slice source offset edit.place.start ++ edit.text ++ spliceFrom source edit.place.stop rest

/-- Edits that can be made one after the other: each has a part of the text for its place and ends
before the next one begins. -/
structure EditsFit (text : List Char) (edits : List Edit) : Prop where
  cuts : ∀ edit ∈ edits, edit.place.Cuts text
  chain : edits.IsChain fun a b => a.place.stop ≤ b.place.start

variable {text : List Char} {steps : List Step} {edits : List Edit}

theorem EditsFit.cons {edit : Edit} (h : EditsFit text (edit :: edits)) :
    edit.place.Cuts text ∧ EditsFit text edits ∧
      ∀ next ∈ edits.head?, edit.place.stop ≤ next.place.start := by
  obtain ⟨hnext, hrest⟩ := List.isChain_cons.1 h.chain
  exact ⟨h.cuts edit List.mem_cons_self,
    ⟨fun e he => h.cuts e (List.mem_cons_of_mem edit he), hrest⟩, hnext⟩

theorem Step.isSome_edit? (step : Step) : step.edit?.isSome = step.treatment.edits := by
  rw [Step.edit?]
  cases step.treatment <;> rfl

theorem Step.place_of_edit? {step : Step} {edit : Edit} (h : step.edit? = some edit) :
    edit.place = step.place := by
  rw [Step.edit?] at h
  cases ht : step.treatment with
  | keep | flag => simp [ht] at h
  | delete | rewrite =>
    simp only [ht, Option.some.injEq] at h
    rw [← h]

/-! ### Checks -/

theorem checkPlace_eq_ok_iff {place : Place} :
    checkPlace text place = .ok () ↔ place.Cuts text := by
  rw [checkPlace]
  constructor
  · intro h
    split at h
    · contradiction
    · next hordered =>
      split at h
      · contradiction
      · next hwithin =>
        split at h
        · next hb =>
          obtain ⟨hstart, hstop⟩ := Bool.and_eq_true_iff.1 hb
          exact ⟨Nat.le_of_not_lt hordered, Nat.le_of_not_lt hwithin, hstart, hstop⟩
        · contradiction
  · rintro ⟨hordered, hwithin, hstart, hstop⟩
    rw [if_neg (Nat.not_lt.2 hordered), if_neg (Nat.not_lt.2 hwithin), hstart, hstop]
    rfl

theorem checked_eq_ok_iff {place : Place} {edit? found : Option Edit} :
    (do checkPlace text place; .ok edit? : Except EditFault (Option Edit)) = .ok found ↔
      found = edit? ∧ place.Cuts text := by
  rw [bind_eq_ok_iff]
  constructor
  · rintro ⟨⟨⟩, hcheck, h⟩
    cases h
    exact ⟨rfl, checkPlace_eq_ok_iff.1 hcheck⟩
  · rintro ⟨rfl, hcuts⟩
    exact ⟨(), checkPlace_eq_ok_iff.2 hcuts, rfl⟩

/-- Which edit a step makes does not depend on the text. -/
theorem editOf?_eq_ok_iff {step : Step} {found : Option Edit} :
    editOf? text step = .ok found ↔ found = step.edit? ∧ step.Editable text := by
  rw [editOf?, replacementOf?, Step.edit?]
  cases ht : step.treatment with
  | keep | flag =>
    have hfit : step.Editable text := ⟨by simp [ht], by simp [ht, Treatment.edits]⟩
    simp [hfit, bind, Except.bind, eq_comm]
  | delete =>
    have hfit : step.Editable text ↔ step.place.Cuts text :=
      ⟨fun h => h.cuts (by rw [ht]; rfl), fun h => ⟨by simp [ht], fun _ => h⟩⟩
    rw [hfit]
    exact checked_eq_ok_iff
  | rewrite =>
    cases hr : step.replacement with
    | none =>
      have hfit : ¬step.Editable text := fun h => by simpa [hr] using h.replacement ht
      simp [hfit, bind, Except.bind]
    | some new =>
      have hfit : step.Editable text ↔ step.place.Cuts text :=
        ⟨fun h => h.cuts (by rw [ht]; rfl), fun h => ⟨fun _ => by simp [hr], fun _ => h⟩⟩
      rw [hfit]
      exact checked_eq_ok_iff

theorem checkDisjoint_eq_ok_iff : checkDisjoint edits = .ok () ↔
    edits.IsChain fun a b => a.place.stop ≤ b.place.start := by
  induction edits with
  | nil => simp [checkDisjoint]
  | cons edit rest ih =>
    cases rest with
    | nil => simp [checkDisjoint]
    | cons next rest =>
      rw [checkDisjoint, List.isChain_cons_cons, ← ih]
      by_cases h : next.place.start < edit.place.stop
      · rw [if_pos h]
        simp [Nat.not_le.2 h]
      · rw [if_neg h]
        simp [Nat.le_of_not_lt h]

theorem editsOf_eq_ok_iff : editsOf text steps = .ok edits ↔
    (∀ s ∈ steps, s.Editable text) ∧ edits = (steps.filterMap Step.edit?).mergeSort editLe ∧
      edits.IsChain fun a b => a.place.stop ≤ b.place.start := by
  simp only [editsOf, bind_eq_ok_iff, mapM_eq_ok_iff_map fun _ _ => editOf?_eq_ok_iff]
  constructor
  · rintro ⟨found, ⟨rfl, hfit⟩, ⟨⟩, hdisjoint, h⟩
    cases h
    rw [List.filterMap_map] at hdisjoint ⊢
    exact ⟨hfit, rfl, checkDisjoint_eq_ok_iff.1 hdisjoint⟩
  · rintro ⟨hfit, rfl, hchain⟩
    refine ⟨_, ⟨rfl, hfit⟩, (), ?_, ?_⟩
    · rw [List.filterMap_map]
      exact checkDisjoint_eq_ok_iff.2 hchain
    · rw [List.filterMap_map]
      rfl

theorem editsOf_eq_ok (h : editsOf text steps = .ok edits) :
    edits = (steps.filterMap Step.edit?).mergeSort editLe ∧ EditsFit text edits := by
  obtain ⟨hfit, rfl, hchain⟩ := editsOf_eq_ok_iff.1 h
  refine ⟨rfl, fun edit he => ?_, hchain⟩
  obtain ⟨step, hs, hedit⟩ := List.mem_filterMap.1 (List.mem_mergeSort.1 he)
  rw [Step.place_of_edit? hedit]
  exact (hfit step hs).cuts (by rw [← step.isSome_edit?, hedit]; rfl)

/-! ### Edits in place -/

/-- An edit made in a text that was changed only after the place of the edit. -/
theorem Edit.made_eq {edit : Edit} (h : edit.place.Cuts text) (rest : List Char) :
    edit.made (before text edit.place.stop ++ rest) =
      before text edit.place.start ++ edit.text ++ rest := by
  obtain ⟨hordered, -, hstart, hstop⟩ := h
  obtain ⟨a, b, c, rfl, ha, hab⟩ := exists_append_of_isBoundary₂ hstart hstop hordered
  rw [made, ← ha, ← hab, before_append (a ++ b), after_append, List.append_assoc a,
    List.append_assoc a, before_append, before_append]

/-- What edits from an offset on leave before it is the text as it was, so that every edit finds its
place where the text had it. -/
theorem edited_eq {offset : Nat} (h : EditsFit text edits) (ho : isBoundary text offset = true)
    (hle : ∀ edit ∈ edits.head?, offset ≤ edit.place.start) :
    edited text edits = before text offset ++ spliceFrom text offset edits := by
  induction edits generalizing offset with
  | nil => exact (before_append_after text offset).symm
  | cons edit rest ih =>
    obtain ⟨hcut, hrest, hnext⟩ := h.cons
    have hfront := before_append_slice ho hcut.start_boundary (hle edit rfl)
    calc edited text (edit :: rest)
        = edit.made (edited text rest) := rfl
      _ = before text edit.place.start ++ edit.text ++ spliceFrom text edit.place.stop rest := by
        rw [ih hrest hcut.stop_boundary hnext, Edit.made_eq hcut]
      _ = before text offset ++ spliceFrom text offset (edit :: rest) := by
        rw [← hfront, spliceFrom]
        simp only [List.append_assoc]

/-- An edit finds its place in a text in which the edits after it are made already. -/
theorem EditsFit.cuts_edited {edit : Edit} (h : EditsFit text (edit :: edits)) :
    edit.place.Cuts (edited text edits) := by
  obtain ⟨⟨hordered, -, hstart, hstop⟩, hrest, hnext⟩ := h.cons
  rw [edited_eq hrest hstop hnext]
  obtain ⟨a, b, c, rfl, ha, hab⟩ := exists_append_of_isBoundary₂ hstart hstop hordered
  rw [← hab, before_append (a ++ b)]
  refine ⟨hordered, ?_, ?_, ?_⟩
  · rw [← hab, size_append (a ++ b)]
    exact Nat.le_add_right _ _
  · rw [← ha, List.append_assoc]
    exact isBoundary_append a _
  · rw [← hab]
    exact isBoundary_append (a ++ b) _

theorem apply_eq_ok_iff {source out : String} {plan : Plan} : apply source plan = .ok out ↔
    ∃ edits, editsOf source.toList plan.steps = .ok edits ∧
      String.ofList (spliceFrom source.toList 0 edits) = out := by
  rw [apply]
  cases hedits : editsOf source.toList plan.steps with
  | error fault => simp
  | ok edits =>
    obtain ⟨-, hfit⟩ := editsOf_eq_ok hedits
    have hsplice := edited_eq hfit (isBoundary_zero _) fun _ _ => Nat.zero_le _
    rw [before_zero, List.nil_append] at hsplice
    simp [hsplice]

theorem apply_nil (fileId source : String) : apply source ⟨fileId, []⟩ = .ok source := by
  rw [apply_eq_ok_iff]
  exact ⟨[], editsOf_eq_ok_iff.2 (by simp), by rw [spliceFrom, after_zero, String.ofList_toList]⟩

end Patch

end Marginalia
