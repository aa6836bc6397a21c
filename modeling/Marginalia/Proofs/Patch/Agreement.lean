import Marginalia.Proofs.Patch.Edits

/-! Two texts under one plan. Their edits are the same, and the plan makes the same of both exactly
when the texts agree outside of the places that it edits. -/

namespace Marginalia.Patch

open Marginalia.Text

/-- Two texts agree from an offset on, but for the places of edits. -/
def AgreeFrom (a b : List Char) (offset : Nat) : List Edit → Prop
  | [] => after a offset = after b offset
  | edit :: rest =>
    slice a offset edit.place.start = slice b offset edit.place.start ∧
      AgreeFrom a b edit.place.stop rest

/-- Two texts that both can be edited by steps agree outside of the places edited. -/
def AgreeOutside (a b : List Char) (steps : List Step) : Prop :=
  ∃ edits, editsOf a steps = .ok edits ∧ editsOf b steps = .ok edits ∧ AgreeFrom a b 0 edits

variable {a b : List Char} {edits : List Edit}

theorem spliceFrom_eq_iff {offset : Nat} (ha : EditsFit a edits) (hb : EditsFit b edits)
    (hao : isBoundary a offset = true) (hbo : isBoundary b offset = true)
    (hle : ∀ edit ∈ edits.head?, offset ≤ edit.place.start) :
    spliceFrom a offset edits = spliceFrom b offset edits ↔ AgreeFrom a b offset edits := by
  induction edits generalizing offset with
  | nil => exact Iff.rfl
  | cons edit rest ih =>
    obtain ⟨⟨-, -, hastart, hastop⟩, harest, hnext⟩ := ha.cons
    obtain ⟨⟨-, -, hbstart, hbstop⟩, hbrest, -⟩ := hb.cons
    have hoffset := hle edit rfl
    have hiff := ih harest hbrest hastop hbstop hnext
    have hsize : size (slice a offset edit.place.start) =
        size (slice b offset edit.place.start) := by
      rw [size_slice hao hastart hoffset, size_slice hbo hbstart hoffset]
    -- The boundaries are the same in both texts, so what stays before the edit has one size.
    rw [spliceFrom, spliceFrom, AgreeFrom, ← hiff, List.append_assoc, List.append_assoc]
    constructor
    · intro h
      obtain ⟨hslice, h⟩ := append_inj_of_size h hsize
      exact ⟨hslice, List.append_cancel_left h⟩
    · rintro ⟨hslice, h⟩
      rw [hslice, h]

/-- A plan makes the same of two texts exactly when these agree outside of the places that it
edits. -/
theorem apply_eq_iff_agreeOutside {source other out : String} {plan : Plan}
    (h : apply source plan = .ok out) :
    apply other plan = .ok out ↔ AgreeOutside source.toList other.toList plan.steps := by
  obtain ⟨edits, hedits, rfl⟩ := apply_eq_ok_iff.1 h
  obtain ⟨heq, hsource⟩ := editsOf_eq_ok hedits
  rw [apply_eq_ok_iff]
  constructor
  · rintro ⟨edits', hedits', hout⟩
    obtain ⟨heq', hother⟩ := editsOf_eq_ok hedits'
    obtain rfl : edits' = edits := heq'.trans heq.symm
    have hsplice := String.ofList_injective hout
    refine ⟨edits', hedits, hedits', ?_⟩
    exact (spliceFrom_eq_iff hsource hother (isBoundary_zero _) (isBoundary_zero _)
      fun _ _ => Nat.zero_le _).1 hsplice.symm
  · rintro ⟨edits', hedits', hother, hagree⟩
    obtain rfl : edits = edits' := Except.ok.inj (hedits.symm.trans hedits')
    obtain ⟨-, hplaces⟩ := editsOf_eq_ok hother
    refine ⟨edits, hother, ?_⟩
    rw [(spliceFrom_eq_iff hsource hplaces (isBoundary_zero _) (isBoundary_zero _)
      fun _ _ => Nat.zero_le _).2 hagree]

end Marginalia.Patch
