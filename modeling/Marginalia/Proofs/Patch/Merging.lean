import Marginalia.Patch.Deletion
import Marginalia.Proofs.Patch.Images

/-! Deletions that only blanks separate become one. The steps that delete nothing stay, the steps
still ascend, and what is deleted afterwards is what was deleted before and the blanks between. -/

namespace Marginalia.Patch

open Marginalia.Text

/-- Two deletions with only blanks between. -/
structure Joins (text : List Char) (a b : Step) : Prop where
  left : a.deletes = true
  right : b.deletes = true
  blanks : AllBetween Unicode.isBlank text a.place.stop b.place.start

instance (text : List Char) (a b : Step) : Decidable (Joins text a b) :=
  decidable_of_iff (a.deletes = true ∧ b.deletes = true ∧
      AllBetween Unicode.isBlank text a.place.stop b.place.start)
    ⟨fun ⟨h1, h2, h3⟩ => ⟨h1, h2, h3⟩, fun ⟨h1, h2, h3⟩ => ⟨h1, h2, h3⟩⟩

/-- Steps and what they are after joining. -/
inductive Merges (text : List Char) : List Step → List Step → Prop
  | nil : Merges text [] []
  | pass {step : Step} {rest merged : List Step} :
      (∀ next ∈ rest.head?, ¬Joins text step next) → Merges text rest merged →
      Merges text (step :: rest) (step :: merged)
  | join {a b : Step} {rest merged : List Step} : Joins text a b →
      Merges text (joined a b :: rest) merged → Merges text (a :: b :: rest) merged

/-- Whether an offset is in the place of a deletion. -/
def Deletes (steps : List Step) (offset : Nat) : Prop :=
  ∃ s ∈ steps, s.deletes = true ∧ s.place.holds offset = true

instance (steps : List Step) (offset : Nat) : Decidable (Deletes steps offset) :=
  inferInstanceAs (Decidable (∃ s ∈ steps, s.deletes = true ∧ s.place.holds offset = true))

/-- Whether an offset is between two neighbours with only blanks between. -/
def Bridges (text : List Char) : List Step → Nat → Prop
  | a :: b :: rest, offset =>
    Joins text a b ∧ a.place.stop ≤ offset ∧ offset < b.place.start ∨
      Bridges text (b :: rest) offset
  | _, _ => False

variable {text : List Char} {steps merged : List Step}

@[simp] theorem joined_deletes (a b : Step) : (joined a b).deletes = a.deletes := rfl

@[simp] theorem joined_start (a b : Step) : (joined a b).place.start = a.place.start := rfl

@[simp] theorem joined_stop (a b : Step) : (joined a b).place.stop = b.place.stop := rfl

theorem Joins.joined_iff {a b c : Step} (h : Joins text a b) :
    Joins text (joined a b) c ↔ Joins text b c :=
  ⟨fun h' => ⟨h.right, h'.right, h'.blanks⟩, fun h' => ⟨h.left, h'.right, h'.blanks⟩⟩

theorem ascending_joined {a b : Step} {rest : List Step} (h : Ascending (a :: b :: rest)) :
    Ascending (joined a b :: rest) := by
  obtain ⟨-, h⟩ := List.pairwise_cons.1 h
  obtain ⟨hb, hrest⟩ := List.pairwise_cons.1 h
  exact List.pairwise_cons.2 ⟨hb, hrest⟩

theorem fits_joined {a b : Step} (ha : a.Fits text) (hb : b.Fits text)
    (hab : a.place.stop ≤ b.place.start) (hj : Joins text a b) : (joined a b).Fits text where
  start_lt_stop := by
    have := ha.start_lt_stop
    have := hb.start_lt_stop
    simp only [joined_start, joined_stop]
    omega
  start_boundary := ha.start_boundary
  stop_boundary := hb.stop_boundary
  replacement := fun h => by
    have := hj.left
    simp only [joined] at h
    simp [Step.deletes, h] at this

theorem fits_join {a b : Step} {rest : List Step} (hfit : ∀ s ∈ a :: b :: rest, s.Fits text)
    (h : Ascending (a :: b :: rest)) (hj : Joins text a b) :
    ∀ s ∈ joined a b :: rest, s.Fits text := by
  intro s hs
  rcases List.mem_cons.1 hs with rfl | hs
  · exact fits_joined (hfit a (by simp)) (hfit b (by simp))
      ((List.pairwise_cons.1 h).1 b (by simp)) hj
  · exact hfit s (by simp [hs])

theorem holds_joined {a b : Step} (ha : a.place.start < a.place.stop)
    (hb : b.place.start < b.place.stop) (hab : a.place.stop ≤ b.place.start) (offset : Nat) :
    (joined a b).place.holds offset = true ↔ a.place.holds offset = true ∨
      (a.place.stop ≤ offset ∧ offset < b.place.start) ∨ b.place.holds offset = true := by
  simp only [Place.holds_iff, joined_start, joined_stop]
  omega

theorem deletes_cons {s : Step} {offset : Nat} : Deletes (s :: steps) offset ↔
    (s.deletes = true ∧ s.place.holds offset = true) ∨ Deletes steps offset := by
  simp [Deletes]

theorem image_of_deletes (h : steps.Pairwise fun a b => a.place.Apart b.place) {c : Cell}
    (hd : Deletes steps c.start) : image steps c = [] := by
  obtain ⟨s, hs, hsd, hholds⟩ := hd
  rw [image_of_mem h hs hholds]
  simp only [Step.deletes, beq_iff_eq] at hsd
  simp [Step.image, hsd]

theorem bridges_joined {a b : Step} {rest : List Step} (hj : Joins text a b) {offset : Nat} :
    Bridges text (joined a b :: rest) offset ↔ Bridges text (b :: rest) offset := by
  cases rest with
  | nil => exact Iff.rfl
  | cons c rest => rw [Bridges, Bridges, hj.joined_iff, joined_stop]

theorem bridges_of_not_joins {s : Step} (h : ∀ next ∈ steps.head?, ¬Joins text s next)
    {offset : Nat} : Bridges text (s :: steps) offset ↔ Bridges text steps offset := by
  cases steps with
  | nil => exact Iff.rfl
  | cons next rest => simp [Bridges, h next (by simp)]

/-! ### The function and the relation -/

theorem gapBetween_eq {a b : Place} (ha : isBoundary text a.stop = true)
    (hb : isBoundary text b.start = true) (h : a.stop ≤ b.start) :
    gapBetween text a b = .ok (slice text a.stop b.start) := by
  rw [gapBetween, if_pos (by simp [ha, hb, h])]

theorem merges_mergeAfter {last : Step} {rest : List Step} (hfit : ∀ s ∈ last :: rest, s.Fits text)
    (h : Ascending (last :: rest)) :
    ∃ merged, mergeAfter text last rest = .ok merged ∧ Merges text (last :: rest) merged := by
  -- A joined deletion goes on as the last step, so the last step varies in the induction.
  induction rest generalizing last with
  | nil => exact ⟨[last], rfl, .pass (by simp) .nil⟩
  | cons step rest ih =>
    have hlast := hfit last (by simp)
    have hstep := hfit step (by simp)
    have hle : last.place.stop ≤ step.place.start := (List.pairwise_cons.1 h).1 step (by simp)
    obtain ⟨merged, hmerged, hrel⟩ := @ih step
      (fun s hs => hfit s (List.mem_cons_of_mem last hs)) (List.pairwise_cons.1 h).2
    rw [mergeAfter]
    by_cases hd : last.deletes = true ∧ step.deletes = true
    · have hall := all_slice_iff (p := Unicode.isBlank) hlast.stop_boundary hstep.start_boundary hle
      rw [if_pos (by simp [hd]), gapBetween_eq hlast.stop_boundary hstep.start_boundary hle]
      simp only [bind, Except.bind]
      by_cases hb : (slice text last.place.stop step.place.start).all Unicode.isBlank = true
      · have hj : Joins text last step := ⟨hd.1, hd.2, hall.1 hb⟩
        rw [if_pos hb]
        obtain ⟨merged, hmerged, hrel⟩ :=
          @ih (joined last step) (fits_join hfit h hj) (ascending_joined h)
        exact ⟨merged, hmerged, .join hj hrel⟩
      · rw [if_neg hb, hmerged]
        refine ⟨last :: merged, rfl, .pass ?_ hrel⟩
        rintro next hnext hj
        obtain rfl : step = next := by simpa using hnext
        exact hb (hall.2 hj.blanks)
    · rw [if_neg (by simpa using hd), hmerged]
      refine ⟨last :: merged, rfl, .pass ?_ hrel⟩
      rintro next hnext hj
      obtain rfl : step = next := by simpa using hnext
      exact hd ⟨hj.left, hj.right⟩

theorem merges_merge (hfit : ∀ s ∈ steps, s.Fits text) (h : Ascending steps) :
    ∃ merged, merge text steps = .ok merged ∧ Merges text steps merged := by
  cases steps with
  | nil => exact ⟨[], rfl, .nil⟩
  | cons step rest => exact merges_mergeAfter hfit h

namespace Merges

/-! ### What joining keeps -/

theorem fits (hm : Merges text steps merged) (hfit : ∀ s ∈ steps, s.Fits text)
    (h : Ascending steps) : ∀ m ∈ merged, m.Fits text := by
  induction hm with
  | nil => simp
  | @pass step rest merged _ _ ih =>
    intro m hmem
    rcases List.mem_cons.1 hmem with rfl | hmem
    · exact hfit m List.mem_cons_self
    · exact ih (fun s hs => hfit s (List.mem_cons_of_mem step hs)) (List.pairwise_cons.1 h).2 m hmem
  | join hj _ ih => exact ih (fits_join hfit h hj) (ascending_joined h)

/-- Every step after joining begins where a step began before. -/
theorem exists_start (hm : Merges text steps merged) :
    ∀ m ∈ merged, ∃ s ∈ steps, m.place.start = s.place.start := by
  induction hm with
  | nil => simp
  | @pass step rest merged _ _ ih =>
    intro m hmem
    rcases List.mem_cons.1 hmem with rfl | hmem
    · exact ⟨m, List.mem_cons_self, rfl⟩
    · obtain ⟨s, hs, heq⟩ := ih m hmem
      exact ⟨s, List.mem_cons_of_mem step hs, heq⟩
  | @join a b rest merged _ _ ih =>
    intro m hmem
    obtain ⟨s, hs, heq⟩ := ih m hmem
    rcases List.mem_cons.1 hs with rfl | hs
    · exact ⟨a, by simp, heq⟩
    · exact ⟨s, by simp [hs], heq⟩

theorem ascending (hm : Merges text steps merged) (h : Ascending steps) : Ascending merged := by
  induction hm with
  | nil => exact h
  | @pass step rest merged _ hrest ih =>
    obtain ⟨hnext, hasc⟩ := List.pairwise_cons.1 h
    refine List.pairwise_cons.2 ⟨fun m hmem => ?_, ih hasc⟩
    obtain ⟨s, hs, heq⟩ := hrest.exists_start m hmem
    rw [heq]
    exact hnext s hs
  | join _ _ ih => exact ih (ascending_joined h)

theorem mem_iff (hm : Merges text steps merged) {s : Step} (hs : s.deletes = false) :
    s ∈ merged ↔ s ∈ steps := by
  induction hm with
  | nil => exact Iff.rfl
  | pass _ _ ih => rw [List.mem_cons, List.mem_cons, ih]
  | @join a b rest merged hj _ ih =>
    have ha : s ≠ a := by
      rintro rfl
      simp [hj.left] at hs
    have hb : s ≠ b := by
      rintro rfl
      simp [hj.right] at hs
    have hab : s ≠ joined a b := by
      rintro rfl
      simp [hj.left] at hs
    simp [ih, ha, hb, hab]

theorem exists_within (hm : Merges text steps merged) (hfit : ∀ s ∈ steps, s.Fits text)
    (h : Ascending steps) : ∀ s ∈ steps, ∃ m ∈ merged, m.treatment = s.treatment ∧
      m.place.start ≤ s.place.start ∧ s.place.stop ≤ m.place.stop := by
  induction hm with
  | nil => simp
  | @pass step rest merged _ _ ih =>
    intro s hs
    rcases List.mem_cons.1 hs with rfl | hs
    · exact ⟨s, List.mem_cons_self, rfl, Nat.le_refl _, Nat.le_refl _⟩
    · obtain ⟨m, hmem, hm⟩ :=
        ih (fun s hs => hfit s (List.mem_cons_of_mem step hs)) (List.pairwise_cons.1 h).2 s hs
      exact ⟨m, List.mem_cons_of_mem step hmem, hm⟩
  | @join a b rest merged hj _ ih =>
    have hwithin := ih (fits_join hfit h hj) (ascending_joined h)
    have hab := (List.pairwise_cons.1 h).1 b (by simp)
    have ha := (hfit a (by simp)).start_lt_stop
    have hb := (hfit b (by simp)).start_lt_stop
    obtain ⟨m, hmem, ht, hs, he⟩ := hwithin (joined a b) List.mem_cons_self
    rw [joined_start] at hs
    rw [joined_stop] at he
    intro s hmem'
    rw [List.mem_cons, List.mem_cons] at hmem'
    rcases hmem' with rfl | rfl | hmem'
    · exact ⟨m, hmem, ht, hs, by omega⟩
    · have htreat : a.treatment = s.treatment := by
        have h1 := hj.left
        have h2 := hj.right
        simp only [Step.deletes, beq_iff_eq] at h1 h2
        rw [h1, h2]
      exact ⟨m, hmem, ht.trans htreat, by omega, he⟩
    · exact hwithin s (List.mem_cons_of_mem _ hmem')

/-- What is deleted after joining: what was before, and the blanks between neighbours. -/
theorem deletes_iff (hm : Merges text steps merged) (hfit : ∀ s ∈ steps, s.Fits text)
    (h : Ascending steps) {offset : Nat} :
    Deletes merged offset ↔ Deletes steps offset ∨ Bridges text steps offset := by
  induction hm with
  | nil => simp [Deletes, Bridges]
  | @pass step rest merged hnot _ ih =>
    rw [deletes_cons, deletes_cons, bridges_of_not_joins hnot,
      ih (fun s hs => hfit s (List.mem_cons_of_mem step hs)) (List.pairwise_cons.1 h).2, or_assoc]
  | @join a b rest merged hj _ ih =>
    have hab := (List.pairwise_cons.1 h).1 b (by simp)
    have hholds := holds_joined (hfit a (by simp)).start_lt_stop (hfit b (by simp)).start_lt_stop
      hab offset
    -- The gap between the two is in the joined place on one side and a bridge on the other.
    rw [ih (fits_join hfit h hj) (ascending_joined h), deletes_cons, bridges_joined hj,
      deletes_cons, deletes_cons, Bridges, joined_deletes, hholds]
    simp only [hj.left, hj.right, hj, true_and]
    grind

end Merges

end Marginalia.Patch
