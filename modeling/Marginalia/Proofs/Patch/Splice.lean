import Marginalia.Proofs.Patch.Edits
import Marginalia.Proofs.Patch.Images

/-! A plan whose steps fit the text and ascend is carried out, and the result is the images of the
characters of the text, in order. -/

namespace Marginalia.Patch

open Marginalia.Text

variable {text : List Char} {steps : List Step}

theorem Step.Fits.editable {step : Step} (h : step.Fits text) : step.Editable text :=
  ⟨h.replacement, fun _ => ⟨Nat.le_of_lt h.start_lt_stop, le_size_of_isBoundary h.stop_boundary,
    h.start_boundary, h.stop_boundary⟩⟩

theorem edits_pairwise (h : Ascending steps) :
    (steps.filterMap Step.edit?).Pairwise fun a b => a.place.stop ≤ b.place.start := by
  rw [List.pairwise_filterMap]
  refine h.imp fun hab a ha b hb => ?_
  rw [Step.place_of_edit? ha, Step.place_of_edit? hb]
  exact hab

theorem editLe_of_stop_le {a b : Edit} (ha : a.place.start < a.place.stop)
    (h : a.place.stop ≤ b.place.start) : editLe a b = true := by
  have : compare a.place.start b.place.start = .lt := Nat.compare_eq_lt.2 (by omega)
  rw [editLe, this]
  rfl

theorem editsOf_eq (hfit : ∀ s ∈ steps, s.Fits text) (h : Ascending steps) :
    editsOf text steps = .ok (steps.filterMap Step.edit?) := by
  have hedits := edits_pairwise h
  have hsorted : (steps.filterMap Step.edit?).mergeSort editLe = steps.filterMap Step.edit? := by
    refine List.mergeSort_of_pairwise (hedits.imp_of_mem fun {a b} ha _ hab => ?_)
    obtain ⟨s, hs, ha⟩ := List.mem_filterMap.1 ha
    have hlt := (hfit s hs).start_lt_stop
    rw [← Step.place_of_edit? ha] at hlt
    exact editLe_of_stop_le hlt hab
  rw [editsOf_eq_ok_iff, hsorted]
  exact ⟨fun s hs => (hfit s hs).editable, rfl, hedits.isChain⟩

theorem Step.edit?_eq_some {step : Step} {edit : Edit} (h : step.edit? = some edit)
    (text : List Char) : edit.text = step.result text := by
  rw [Step.edit?] at h
  rw [Step.result]
  split at h <;> simp_all
  · rw [← h]
  · rw [← h]

theorem image_of_edit?_eq_none {step : Step} (h : step.edit? = none) (c : Cell) :
    step.image c = [c.char] := by
  rw [Step.edit?] at h
  rw [Step.image]
  split at h <;> simp_all

theorem image_cons_of_edit?_eq_none {step : Step} (h : Ascending (step :: steps))
    (he : step.edit? = none) (c : Cell) : image (step :: steps) c = image steps c := by
  obtain ⟨hnext, -⟩ := List.pairwise_cons.1 h
  by_cases hc : step.place.holds c.start = true
  · rw [image_of_mem h.apart List.mem_cons_self hc, image_of_edit?_eq_none he]
    refine (image_of_forall fun s hs => ?_).symm
    exact Place.Apart.not_holds (.inl (hnext s hs)) hc
  · exact image_cons_of_not (Bool.not_eq_true _ ▸ hc)

/-- The text from an offset on with the edits of steps made is the images of its characters. -/
theorem spliceFrom_eq (hfit : ∀ s ∈ steps, s.Fits text) (h : Ascending steps) {offset : Nat}
    (ho : isBoundary text offset = true) (hle : ∀ s ∈ steps, offset ≤ s.place.start) :
    spliceFrom text offset (steps.filterMap Step.edit?) = madeOf steps text offset (size text) := by
  induction steps generalizing offset with
  | nil =>
    have hend := isBoundary_size text
    have hsize := le_size_of_isBoundary ho
    rw [madeOf_eq_slice ho hend hsize fun c _ => image_of_forall (by simp), slice_size ho]
    rfl
  | cons s rest ih =>
    have hs := hfit s List.mem_cons_self
    have hlt := hs.start_lt_stop
    have hoff := hle s List.mem_cons_self
    have hrest := fun r hr => hfit r (List.mem_cons_of_mem s hr)
    obtain ⟨hnext, hasc⟩ := List.pairwise_cons.1 h
    cases he : s.edit? with
    | none =>
      rw [List.filterMap_cons_none he, ih hrest hasc ho fun r hr => by have := hnext r hr; omega]
      exact madeOf_congr fun c _ => (image_cons_of_edit?_eq_none h he c).symm
    | some e =>
      have hplace := Step.place_of_edit? he
      have hsize := le_size_of_isBoundary hs.stop_boundary
      have hlead : madeOf (s :: rest) text offset s.place.start =
          slice text offset s.place.start := by
        refine madeOf_eq_slice ho hs.start_boundary hoff fun c hc => image_of_forall fun r hr => ?_
        have hc := (mem_cellsIn.1 hc).2.2
        have hr : s.place.start ≤ r.place.start := by
          rcases List.mem_cons.1 hr with rfl | hr
          · exact Nat.le_refl _
          · have := hnext r hr
            omega
        rw [Place.holds_eq_false_iff]
        omega
      have htail : madeOf (s :: rest) text s.place.stop (size text) =
          madeOf rest text s.place.stop (size text) := by
        refine madeOf_congr fun c hc => image_cons_of_not ?_
        have hc := (mem_cellsIn.1 hc).2.1
        rw [Place.holds_eq_false_iff]
        omega
      rw [List.filterMap_cons_some he, spliceFrom, hplace, ih hrest hasc hs.stop_boundary hnext,
        Step.edit?_eq_some he text, ← madeOf_of_mem h.apart List.mem_cons_self hs, ← hlead, ← htail,
        madeOf_append _ _ hoff (Nat.le_of_lt hlt), madeOf_append _ _ (by omega) hsize]

theorem apply_eq {fileId source : String} (hfit : ∀ s ∈ steps, s.Fits source.toList)
    (h : Ascending steps) :
    apply source ⟨fileId, steps⟩ = .ok (String.ofList (patched steps source.toList)) := by
  rw [apply_eq_ok_iff, ← madeOf_whole]
  refine ⟨_, editsOf_eq hfit h, ?_⟩
  rw [spliceFrom_eq hfit h (isBoundary_zero _) fun _ _ => Nat.zero_le _]

end Marginalia.Patch
