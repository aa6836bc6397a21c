import Marginalia.Patch.Plan
import Marginalia.Proofs.Text.Cells
import Mathlib.Data.List.Basic

/-! What steps make of a text, character by character: each character has an image, and the images
in order are the text after the steps. In which order the steps are given plays no part. -/

namespace Marginalia

/-- Whether a place holds the byte at an offset. -/
def Place.holds (place : Place) (offset : Nat) : Bool := place.start ≤ offset && offset < place.stop

/-- Of two places in one text, one ends before the other begins. -/
def Place.Apart (a b : Place) : Prop := a.stop ≤ b.start ∨ b.stop ≤ a.start

instance (a b : Place) : Decidable (a.Apart b) :=
  inferInstanceAs (Decidable (a.stop ≤ b.start ∨ b.stop ≤ a.start))

@[simp] theorem Place.holds_iff {place : Place} {offset : Nat} :
    place.holds offset = true ↔ place.start ≤ offset ∧ offset < place.stop := by
  simp [Place.holds]

theorem Place.holds_eq_false_iff {place : Place} {offset : Nat} :
    place.holds offset = false ↔ offset < place.start ∨ place.stop ≤ offset := by
  rw [← Bool.not_eq_true, Place.holds_iff]
  omega

theorem Place.Apart.symm {a b : Place} (h : a.Apart b) : b.Apart a := Or.symm h

theorem Place.Apart.not_holds {a b : Place} (h : a.Apart b) {offset : Nat}
    (ha : a.holds offset = true) : b.holds offset = false := by
  rw [Place.holds_iff] at ha
  rw [Place.holds_eq_false_iff]
  rcases h with h | h <;> omega

namespace Patch

open Marginalia.Text

/-- What a step makes of a character in its place: a comment that is kept stays as it is, one that
is deleted goes, and the new text of a rewritten one stands for its first character. -/
def Step.image (step : Step) (c : Cell) : List Char :=
  match step.treatment with
  | .keep | .flag => [c.char]
  | .delete => []
  | .rewrite => if c.start = step.place.start then (step.replacement.getD "").toList else []

/-- What steps make of a character: it stays unless it stands in the place of one. -/
def image (steps : List Step) (c : Cell) : List Char :=
  match steps.find? (·.place.holds c.start) with
  | some step => step.image c
  | none => [c.char]

/-- What steps make of the characters that begin in a range. -/
def madeOf (steps : List Step) (text : List Char) (start stop : Nat) : List Char :=
  (cellsIn text start stop).flatMap (image steps)

/-- A text after steps. -/
def patched (steps : List Step) (text : List Char) : List Char :=
  (cells text).flatMap (image steps)

/-- Every step ends before the next one begins. -/
def Ascending (steps : List Step) : Prop :=
  steps.Pairwise fun a b => a.place.stop ≤ b.place.start

/-- A step whose place is a piece of the text, and which has a new text if it rewrites. -/
structure Step.Fits (text : List Char) (step : Step) : Prop where
  start_lt_stop : step.place.start < step.place.stop
  start_boundary : isBoundary text step.place.start = true
  stop_boundary : isBoundary text step.place.stop = true
  replacement : step.treatment = .rewrite → step.replacement.isSome = true

theorem Ascending.apart {steps : List Step} (h : Ascending steps) :
    steps.Pairwise fun a b => a.place.Apart b.place :=
  h.imp .inl

/-! ### Images -/

theorem eq_of_holds {steps : List Step} (h : steps.Pairwise fun a b => a.place.Apart b.place)
    {a b : Step} (ha : a ∈ steps) (hb : b ∈ steps) {offset : Nat}
    (hao : a.place.holds offset = true) (hbo : b.place.holds offset = true) : a = b := by
  rcases eq_or_rel_of_pairwise h ha hb with rfl | h1 | h1
  · rfl
  · simp [h1.not_holds hao] at hbo
  · simp [h1.not_holds hbo] at hao

theorem image_of_mem {steps : List Step} (h : steps.Pairwise fun a b => a.place.Apart b.place)
    {step : Step} (hs : step ∈ steps) {c : Cell} (hc : step.place.holds c.start = true) :
    image steps c = step.image c := by
  rw [image]
  cases hf : steps.find? (·.place.holds c.start) with
  | none => exact absurd hc (by simpa using List.find?_eq_none.1 hf step hs)
  | some other =>
    have hother : other.place.holds c.start = true := by simpa using List.find?_some hf
    rw [eq_of_holds h (List.mem_of_find?_eq_some hf) hs hother hc]

theorem image_of_forall {steps : List Step} {c : Cell}
    (h : ∀ s ∈ steps, s.place.holds c.start = false) : image steps c = [c.char] := by
  have : steps.find? (·.place.holds c.start) = none :=
    List.find?_eq_none.2 fun s hs => by simp [h s hs]
  rw [image, this]

theorem image_cons_of_not {step : Step} {steps : List Step} {c : Cell}
    (h : step.place.holds c.start = false) : image (step :: steps) c = image steps c := by
  simp [image, h]

theorem image_perm {steps steps' : List Step} (hp : steps.Perm steps')
    (h : steps.Pairwise fun a b => a.place.Apart b.place) (c : Cell) :
    image steps c = image steps' c := by
  have h' : steps'.Pairwise fun a b => a.place.Apart b.place :=
    hp.pairwise h fun hab => hab.symm
  by_cases hc : ∃ s ∈ steps, s.place.holds c.start = true
  · obtain ⟨s, hs, hc⟩ := hc
    rw [image_of_mem h hs hc, image_of_mem h' (hp.mem_iff.1 hs) hc]
  · have hn : ∀ s ∈ steps, s.place.holds c.start = false := fun s hs => by
      rw [← Bool.not_eq_true]
      exact fun hh => hc ⟨s, hs, hh⟩
    rw [image_of_forall hn, image_of_forall fun s hs => hn s (hp.mem_iff.2 hs)]

theorem madeOf_append (steps : List Step) (text : List Char) {start middle stop : Nat}
    (h1 : start ≤ middle) (h2 : middle ≤ stop) :
    madeOf steps text start middle ++ madeOf steps text middle stop =
      madeOf steps text start stop := by
  rw [madeOf, madeOf, madeOf, ← List.flatMap_append, cellsIn_append text h1 h2]

theorem madeOf_whole (steps : List Step) (text : List Char) :
    madeOf steps text 0 (size text) = patched steps text := by
  rw [madeOf, cellsIn_whole, patched]

theorem madeOf_congr {steps steps' : List Step} {text : List Char} {start stop : Nat}
    (h : ∀ c ∈ cellsIn text start stop, image steps c = image steps' c) :
    madeOf steps text start stop = madeOf steps' text start stop :=
  List.flatMap_congr h

theorem madeOf_eq_slice {steps : List Step} {text : List Char} {start stop : Nat}
    (hs : isBoundary text start = true) (he : isBoundary text stop = true) (h : start ≤ stop)
    (hc : ∀ c ∈ cellsIn text start stop, image steps c = [c.char]) :
    madeOf steps text start stop = slice text start stop := by
  rw [← map_char_cellsIn hs he h, madeOf, List.map_eq_flatMap]
  exact List.flatMap_congr hc

/-- What a step makes of the text in its place. -/
def Step.result (text : List Char) (step : Step) : List Char :=
  match step.treatment with
  | .keep | .flag => slice text step.place.start step.place.stop
  | .delete => []
  | .rewrite => (step.replacement.getD "").toList

theorem Treatment.eq_of_edits {treatment : Treatment} (h : treatment.edits = false) :
    treatment = .keep ∨ treatment = .flag := by
  cases treatment with
  | keep => exact .inl rfl
  | flag => exact .inr rfl
  | delete | rewrite => contradiction

theorem Step.deletes_of_not_edits {step : Step} (h : step.treatment.edits = false) :
    step.deletes = false := by
  rw [Step.deletes]
  rcases Treatment.eq_of_edits h with ht | ht <;> rw [ht] <;> rfl

theorem Step.result_of_not_edits {step : Step} {text : List Char}
    (h : step.treatment.edits = false) :
    step.result text = slice text step.place.start step.place.stop := by
  rw [Step.result]
  rcases Treatment.eq_of_edits h with ht | ht <;> rw [ht]

theorem madeOf_of_mem {steps : List Step} (h : steps.Pairwise fun a b => a.place.Apart b.place)
    {step : Step} (hs : step ∈ steps) {text : List Char} (hfit : step.Fits text) :
    madeOf steps text step.place.start step.place.stop = step.result text := by
  have hlt := hfit.start_lt_stop
  have himage : madeOf steps text step.place.start step.place.stop =
      (cellsIn text step.place.start step.place.stop).flatMap step.image :=
    List.flatMap_congr fun c hc => image_of_mem h hs (Place.holds_iff.2 (mem_cellsIn.1 hc).2)
  have hkeep : (cellsIn text step.place.start step.place.stop).flatMap (fun c => [c.char]) =
      slice text step.place.start step.place.stop := by
    rw [← List.map_eq_flatMap]
    exact map_char_cellsIn hfit.start_boundary hfit.stop_boundary (Nat.le_of_lt hlt)
  rw [himage, Step.result]
  cases ht : step.treatment with
  | keep | flag =>
    have : step.image = fun c => [c.char] := funext fun c => by simp [Step.image, ht]
    rw [this]
    exact hkeep
  | delete => simp [Step.image, ht]
  | rewrite =>
    -- The first character gives the new text, and the others, which begin later, nothing.
    have hend := le_size_of_isBoundary hfit.stop_boundary
    obtain ⟨c, hc, hcs⟩ := exists_cell_start hfit.start_boundary (by omega)
    have hcstop := stop_le_of_isBoundary hc hfit.stop_boundary (by omega)
    have hcell := c.start_lt_stop
    have hlater : (cellsIn text c.stop step.place.stop).flatMap step.image = [] := by
      rw [List.flatMap_eq_nil_iff]
      intro d hd
      have := (mem_cellsIn.1 hd).2.1
      have hne : d.start ≠ step.place.start := by omega
      simp [Step.image, ht, hne]
    rw [← hcs, ← cellsIn_append text (Nat.le_of_lt hcell) hcstop, List.flatMap_append,
      cellsIn_cell hc, hlater]
    simp [Step.image, ht, hcs]

end Patch

end Marginalia
