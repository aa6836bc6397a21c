import Marginalia.Proofs.Patch.Planning
import Marginalia.Proofs.Patch.Splice

/-! What the plan for comments covers. It keeps every step that deletes nothing, it deletes what is
to be deleted, and besides that only blanks: of the line ends just those that `Taken` describes. -/

namespace Marginalia.Patch

open Marginalia.Text

/-- Whether the line end at an offset goes with deletions: it stands between two that only blanks
separate, or it ends the line on which one stands alone. -/
def Taken (text : List Char) (steps : List Step) (offset : Nat) : Prop :=
  (∃ a ∈ steps, ∃ b ∈ steps, Joins text a b ∧ a.place.stop ≤ offset ∧ offset < b.place.start) ∨
    ∃ d ∈ steps, d.deletes = true ∧ (∃ s, LeadsFrom text d.place s) ∧ TrailsTo text d.place offset

instance (text : List Char) (steps : List Step) (offset : Nat) :
    Decidable (Taken text steps offset) :=
  inferInstanceAs (Decidable ((∃ a ∈ steps, ∃ b ∈ steps, Joins text a b ∧ a.place.stop ≤ offset ∧
    offset < b.place.start) ∨ ∃ d ∈ steps, d.deletes = true ∧ (∃ s, LeadsFrom text d.place s) ∧
      TrailsTo text d.place offset))

/-- Whether an offset is in the place of a step that changes the text. -/
def Edits (steps : List Step) (offset : Nat) : Prop :=
  ∃ s ∈ steps, s.treatment.edits = true ∧ s.place.holds offset = true

variable {text : List Char} {steps merged : List Step}

instance (steps : List Step) (offset : Nat) : Decidable (Edits steps offset) :=
  inferInstanceAs
    (Decidable (∃ s ∈ steps, s.treatment.edits = true ∧ s.place.holds offset = true))

/-- Whether the place of a step holds another place. -/
def Step.covers (step : Step) (place : Place) : Bool :=
  step.place.start ≤ place.start && place.stop ≤ step.place.stop

theorem Step.covers_iff {step : Step} {place : Place} :
    step.covers place = true ↔ step.place.start ≤ place.start ∧ place.stop ≤ step.place.stop := by
  simp [Step.covers]

theorem Edits.of_deletes {offset : Nat} (h : Deletes steps offset) : Edits steps offset := by
  obtain ⟨s, hs, hsd, hholds⟩ := h
  simp only [Step.deletes, beq_iff_eq] at hsd
  exact ⟨s, hs, by rw [hsd]; rfl, hholds⟩

theorem image_of_not_edits (h : steps.Pairwise fun a b => a.place.Apart b.place) {c : Cell}
    (hc : ¬Edits steps c.start) : image steps c = [c.char] := by
  by_cases hs : ∃ s ∈ steps, s.place.holds c.start = true
  · obtain ⟨s, hs, hholds⟩ := hs
    rw [image_of_mem h hs hholds, Step.image]
    cases ht : s.treatment with
    | keep | flag => rfl
    | delete | rewrite => exact absurd ⟨s, hs, by rw [ht]; rfl, hholds⟩ hc
  · refine image_of_forall fun s hmem => ?_
    rw [← Bool.not_eq_true]
    exact fun hholds => hs ⟨s, hmem, hholds⟩

/-! ### Neighbours -/

theorem exists_of_bridges {offset : Nat} (h : Bridges text steps offset) :
    ∃ a ∈ steps, ∃ b ∈ steps, Joins text a b ∧ a.place.stop ≤ offset ∧ offset < b.place.start := by
  induction steps with
  | nil => simp [Bridges] at h
  | cons a rest ih =>
    cases rest with
    | nil => simp [Bridges] at h
    | cons b rest =>
      rw [Bridges] at h
      rcases h with ⟨hj, h1, h2⟩ | h
      · exact ⟨a, by simp, b, by simp, hj, h1, h2⟩
      · obtain ⟨x, hx, y, hy, hxy⟩ := ih h
        exact ⟨x, List.mem_cons_of_mem a hx, y, List.mem_cons_of_mem a hy, hxy⟩

/-- Ascending steps of which each holds a character that is no blank are neighbours when only blanks
separate them. -/
theorem bridges_of_joins (hfit : ∀ s ∈ steps, s.Fits text) (h : Ascending steps)
    (hsolid : ∀ s ∈ steps, ∃ c ∈ cells text, s.place.holds c.start = true ∧
      Unicode.isBlank c.char = false) {a b : Step} (ha : a ∈ steps) (hb : b ∈ steps)
    (hj : Joins text a b) {offset : Nat} (h1 : a.place.stop ≤ offset)
    (h2 : offset < b.place.start) : Bridges text steps offset := by
  induction steps with
  | nil => simp at ha
  | cons x rest ih =>
    obtain ⟨hx, hrest⟩ := List.pairwise_cons.1 h
    have hxfit := (hfit x List.mem_cons_self).start_lt_stop
    have hafit := (hfit a ha).start_lt_stop
    have hb' : b ∈ rest := by
      rcases List.mem_cons.1 hb with rfl | hb
      · rcases List.mem_cons.1 ha with rfl | ha
        · omega
        · have := hx a ha
          omega
      · exact hb
    cases rest with
    | nil => simp at hb'
    | cons y rest =>
      rw [Bridges]
      rcases List.mem_cons.1 ha with rfl | ha
      · rcases List.mem_cons.1 hb' with rfl | hby
        · exact .inl ⟨hj, h1, h2⟩
        · -- A step between the two would hold a character that is a blank and is none.
          obtain ⟨c, hc, hholds, hblank⟩ := hsolid y (by simp)
          have hay := hx y (by simp)
          have hyb := (List.pairwise_cons.1 hrest).1 b hby
          rw [Place.holds_iff] at hholds
          have := hj.blanks c hc (by omega) (by omega)
          rw [hblank] at this
          contradiction
      · exact .inr (ih (fun s hs => hfit s (List.mem_cons_of_mem x hs)) hrest
          (fun s hs => hsolid s (List.mem_cons_of_mem x hs)) ha hb')

/-- A step in a solid place holds a character that is no blank when it is widened, too. -/
theorem Stands.exists_solid (h : Stands text steps) : ∀ w ∈ steps.map (widenStep text),
    ∃ c ∈ cells text, w.place.holds c.start = true ∧ Unicode.isBlank c.char = false := by
  intro w hw
  obtain ⟨s, hs, rfl⟩ := List.mem_map.1 hw
  obtain ⟨c, hc, hstart, hblank⟩ := (h.solid s hs).exists_first
  have hext := extends_widenStep (h.fits s hs)
  have := (h.fits s hs).start_lt_stop
  have := hext.start_le
  have := hext.le_stop
  exact ⟨c, hc, Place.holds_iff.2 ⟨by omega, by omega⟩, hblank⟩

/-! ### Steps that are carried out -/

/-- Steps that carry out decisions: the decisions widened and joined. -/
structure Carries (text : List Char) (steps merged : List Step) : Prop where
  stands : Stands text steps
  merges : Merges text (steps.map (widenStep text)) merged

namespace Carries

theorem fits (h : Carries text steps merged) : ∀ s ∈ merged, s.Fits text :=
  h.merges.fits h.stands.fits_widened h.stands.ascending_widened

theorem ascending (h : Carries text steps merged) : Ascending merged :=
  h.merges.ascending h.stands.ascending_widened

theorem mem_iff (h : Carries text steps merged) {s : Step} (hs : s.deletes = false) :
    s ∈ merged ↔ s ∈ steps := by
  rw [h.merges.mem_iff hs, List.mem_map]
  constructor
  · rintro ⟨d, hd, rfl⟩
    rw [widenStep_deletes] at hs
    rwa [widenStep_of_not hs]
  · exact fun hmem => ⟨s, hmem, widenStep_of_not hs⟩

/-- The place of a decision is in that of a step that does the same. -/
theorem exists_within (h : Carries text steps merged) {s : Step} (hs : s ∈ steps) :
    ∃ m ∈ merged, m.treatment = s.treatment ∧ m.place.start ≤ s.place.start ∧
      s.place.stop ≤ m.place.stop := by
  obtain ⟨m, hm, ht, h1, h2⟩ := h.merges.exists_within h.stands.fits_widened
    h.stands.ascending_widened (widenStep text s) (List.mem_map_of_mem hs)
  have hext := extends_widenStep (h.stands.fits s hs)
  have := hext.start_le
  have := hext.le_stop
  exact ⟨m, hm, by rw [ht, widenStep_treatment], by omega, by omega⟩

/-- The place of a step holds that of a decision. -/
theorem exists_held (h : Carries text steps merged) {m : Step} (hm : m ∈ merged) :
    ∃ s ∈ steps, m.place.start ≤ s.place.start ∧ s.place.stop ≤ m.place.stop := by
  obtain ⟨w, hw, hstart⟩ := h.merges.exists_start m hm
  obtain ⟨m', hm', -, h1, h2⟩ := h.merges.exists_within h.stands.fits_widened
    h.stands.ascending_widened w hw
  have hwlt := (h.stands.fits_widened w hw).start_lt_stop
  have hmlt := (h.fits m hm).start_lt_stop
  -- The step begins where a widened decision does, so it is the one around that decision.
  obtain rfl : m = m' := eq_of_holds h.ascending.apart hm hm'
    (Place.holds_iff.2 ⟨Nat.le_refl _, hmlt⟩) (Place.holds_iff.2 ⟨by omega, by omega⟩)
  obtain ⟨s, hs, rfl⟩ := List.mem_map.1 hw
  have hext := extends_widenStep (h.stands.fits s hs)
  have := hext.start_le
  have := hext.le_stop
  exact ⟨s, hs, by omega, by omega⟩

theorem deletes_of_mem (h : Carries text steps merged) {s : Step} (hs : s ∈ steps)
    (hd : s.deletes = true) {offset : Nat} (ho : s.place.holds offset = true) :
    Deletes merged offset := by
  obtain ⟨m, hm, ht, h1, h2⟩ := h.exists_within hs
  rw [Place.holds_iff] at ho
  refine ⟨m, hm, ?_, Place.holds_iff.2 ⟨by omega, by omega⟩⟩
  rw [Step.deletes, ht]
  exact hd

theorem deletes_of_widened (h : Carries text steps merged) {s : Step} (hs : s ∈ steps)
    (hd : s.deletes = true) {offset : Nat} (ho : (widenStep text s).place.holds offset = true) :
    Deletes merged offset := by
  rw [h.merges.deletes_iff h.stands.fits_widened h.stands.ascending_widened]
  exact .inl ⟨widenStep text s, List.mem_map_of_mem hs, by rwa [widenStep_deletes], ho⟩

/-- What is deleted: the places of deletions, what these take with them, and blanks between two. -/
theorem deletes_cases (h : Carries text steps merged) {offset : Nat} (hd : Deletes merged offset) :
    (∃ s ∈ steps, s.deletes = true ∧ (widenStep text s).place.holds offset = true) ∨
      ∃ a ∈ steps, ∃ b ∈ steps,
        Joins text a b ∧ a.place.stop ≤ offset ∧ offset < b.place.start := by
  rw [h.merges.deletes_iff h.stands.fits_widened h.stands.ascending_widened] at hd
  rcases hd with ⟨w, hw, hwd, hwh⟩ | hb
  · obtain ⟨s, hs, rfl⟩ := List.mem_map.1 hw
    rw [widenStep_deletes] at hwd
    exact .inl ⟨s, hs, hwd, hwh⟩
  · obtain ⟨a', ha', b', hb', hj, h1, h2⟩ := exists_of_bridges hb
    obtain ⟨a, ha, rfl⟩ := List.mem_map.1 ha'
    obtain ⟨b, hb, rfl⟩ := List.mem_map.1 hb'
    have hexta := extends_widenStep (h.stands.fits a ha)
    have hextb := extends_widenStep (h.stands.fits b hb)
    have hja := hj.left
    have hjb := hj.right
    rw [widenStep_deletes] at hja hjb
    have := hexta.le_stop
    have := hextb.start_le
    exact .inr ⟨a, ha, b, hb,
      ⟨hja, hjb, (hexta.blanks.trans hj.blanks).trans hextb.leadBlanks⟩, by omega, by omega⟩

/-- What is between two deletions with only blanks between is deleted. -/
theorem deletes_between (h : Carries text steps merged) {a b : Step} (ha : a ∈ steps)
    (hb : b ∈ steps) (hj : Joins text a b) {offset : Nat} (h1 : a.place.stop ≤ offset)
    (h2 : offset < b.place.start) : Deletes merged offset := by
  have hexta := extends_widenStep (h.stands.fits a ha)
  have hextb := extends_widenStep (h.stands.fits b hb)
  have hstart := hexta.start_le
  have hstop := hextb.le_stop
  have halt := (h.stands.fits a ha).start_lt_stop
  have hblt := (h.stands.fits b hb).start_lt_stop
  by_cases hoa : offset < (widenStep text a).place.stop
  · exact h.deletes_of_widened ha hj.left (Place.holds_iff.2 ⟨by omega, hoa⟩)
  by_cases hob : (widenStep text b).place.start ≤ offset
  · exact h.deletes_of_widened hb hj.right (Place.holds_iff.2 ⟨hob, by omega⟩)
  have hjoins : Joins text (widenStep text a) (widenStep text b) :=
    ⟨by rw [widenStep_deletes, hj.left], by rw [widenStep_deletes, hj.right],
      hj.blanks.mono hexta.le_stop hextb.start_le⟩
  rw [h.merges.deletes_iff h.stands.fits_widened h.stands.ascending_widened]
  exact .inr (bridges_of_joins h.stands.fits_widened h.stands.ascending_widened
    h.stands.exists_solid (List.mem_map_of_mem ha) (List.mem_map_of_mem hb) hjoins (by omega)
    (by omega))

/-- Besides what is to be deleted, only blanks go. -/
theorem blank_of_deletes (h : Carries text steps merged) {c : Cell} (hc : c ∈ cells text)
    (hd : Deletes merged c.start) :
    Deletes steps c.start ∨ Unicode.isBlank c.char = true := by
  rcases h.deletes_cases hd with ⟨s, hs, hsd, hholds⟩ | ⟨a, _, b, _, hj, h1, h2⟩
  · have hext := extends_widenStep (h.stands.fits s hs)
    rw [Place.holds_iff] at hholds
    by_cases h1 : c.start < s.place.start
    · exact .inr (hext.leadBlanks c hc hholds.1 h1)
    · by_cases h2 : c.start < s.place.stop
      · exact .inl ⟨s, hs, hsd, Place.holds_iff.2 ⟨by omega, h2⟩⟩
      · exact .inr (hext.blanks c hc (by omega) hholds.2)
  · exact .inr (hj.blanks c hc h1 h2)

/-- The steps leave alone what is apart from every decision, if it begins and ends with characters
that are no blanks. -/
theorem apart (h : Carries text steps merged) {place : Place} (hsolid : Solid text place)
    (hapart : ∀ s ∈ steps, s.place.Apart place) : ∀ m ∈ merged, m.place.Apart place := by
  intro m hm
  cases hmd : m.deletes with
  | false => exact hapart m ((h.mem_iff hmd).1 hm)
  | true =>
    have hlt := hsolid.start_lt_stop
    -- A character of the place that is no blank is not deleted.
    have hkept : ∀ c ∈ cells text, place.start ≤ c.start → c.start < place.stop →
        Unicode.isBlank c.char = false → m.place.holds c.start = false := by
      intro c hc h1 h2 hblank
      rw [← Bool.not_eq_true]
      intro hholds
      rcases h.blank_of_deletes hc ⟨m, hm, hmd, hholds⟩ with ⟨s, hs, -, hsh⟩ | hb
      · have := (hapart s hs).not_holds hsh
        rw [Place.holds_eq_false_iff] at this
        omega
      · rw [hblank] at hb
        contradiction
    obtain ⟨c, hc, hcstart, hcblank⟩ := hsolid.exists_first
    obtain ⟨d, hd, hdstop⟩ := exists_cell_stop hsolid.stop_boundary (by omega)
    have hdblank := hsolid.last d hd hdstop
    have hdlt := d.start_lt_stop
    have hdstart := start_of_isBoundary hd hsolid.start_boundary (by omega)
    have hfirst := hkept c hc (by omega) (by omega) hcblank
    have hlast := hkept d hd hdstart (by omega) hdblank
    rw [Place.holds_eq_false_iff] at hfirst hlast
    have hfit := h.fits m hm
    have hmlt := hfit.start_lt_stop
    obtain ⟨s, hs, hms, hsm⟩ := h.exists_held hm
    have hslt := (h.stands.fits s hs).start_lt_stop
    have hsapart := hapart s hs
    rw [Place.Apart] at hsapart ⊢
    by_cases hstart : m.place.start < place.stop
    · have := start_of_isBoundary hd hfit.start_boundary (by omega)
      omega
    · omega

/-- The place of a decision is in that of exactly one step. -/
theorem countP_covers (h : Carries text steps merged) {s : Step} (hs : s ∈ steps) :
    merged.countP (·.covers s.place) = 1 := by
  obtain ⟨m, hm, -, h1, h2⟩ := h.exists_within hs
  have hlt := (h.stands.fits s hs).start_lt_stop
  refine countP_eq_one (h.ascending.imp fun {a b} hab => ?_) hm (Step.covers_iff.2 ⟨h1, h2⟩)
  rintro ⟨ha, hb⟩
  rw [Step.covers_iff] at ha hb
  omega

/-- Of the line ends outside of all deletions, just those go that are taken. -/
theorem deletes_newline_iff (h : Carries text steps merged) {c : Cell} (hc : c ∈ cells text)
    (hn : c.char = '\n') (hout : ¬Deletes steps c.start) :
    Deletes merged c.start ↔ Taken text steps c.start := by
  constructor
  · intro hd
    rcases h.deletes_cases hd with ⟨s, hs, hsd, hholds⟩ | hj
    · have hfit := h.stands.fits s hs
      have hext := extends_widenStep hfit
      rw [Place.holds_iff] at hholds
      -- A deletion grows over gaps before it, of which none is a newline.
      by_cases h1 : c.start < s.place.start
      · have := hext.gaps c hc hholds.1 h1
        rw [hn, isGap_newline] at this
        contradiction
      · have h2 : s.place.stop ≤ c.start := by
          by_cases h2 : c.start < s.place.stop
          · exact absurd ⟨s, hs, hsd, Place.holds_iff.2 ⟨by omega, h2⟩⟩ hout
          · omega
        exact .inr ⟨s, hs, hsd, ((widens_widenStep hfit hsd).newline_iff hc hn h2).1 hholds.2⟩
    · exact .inl hj
  · rintro (⟨a, ha, b, hb, hj, h1, h2⟩ | ⟨s, hs, hsd, hline, htrail⟩)
    · exact h.deletes_between ha hb hj h1 h2
    · have hfit := h.stands.fits s hs
      have hext := extends_widenStep hfit
      have hlt := ((widens_widenStep hfit hsd).newline_iff hc hn htrail.stop_le).2 ⟨hline, htrail⟩
      have := hext.start_le
      have := htrail.stop_le
      have := hfit.start_lt_stop
      exact h.deletes_of_widened hs hsd (Place.holds_iff.2 ⟨by omega, hlt⟩)

theorem image_of_edits (h : Carries text steps merged) {s : Step} (hs : s ∈ steps)
    (hedits : s.treatment.edits = true) {c : Cell} (hholds : s.place.holds c.start = true) :
    image merged c = s.image c := by
  cases ht : s.treatment with
  | keep => simp [ht, Treatment.edits] at hedits
  | flag => simp [ht, Treatment.edits] at hedits
  | delete =>
    have hsd : s.deletes = true := by simp [Step.deletes, ht]
    rw [image_of_deletes h.ascending.apart (h.deletes_of_mem hs hsd hholds), Step.image, ht]
  | rewrite =>
    have hmem : s ∈ merged := (h.mem_iff (by simp [Step.deletes, ht])).2 hs
    exact image_of_mem h.ascending.apart hmem hholds

theorem image_of_not_edits (h : Carries text steps merged) {c : Cell}
    (hc : ¬Edits steps c.start) (hd : ¬Deletes merged c.start) : image merged c = [c.char] := by
  refine Patch.image_of_not_edits h.ascending.apart ?_
  rintro ⟨m, hm, hedits, hholds⟩
  have hmd : m.deletes = false := by
    rw [← Bool.not_eq_true]
    exact fun hmd => hd ⟨m, hm, hmd, hholds⟩
  exact hc ⟨m, (h.mem_iff hmd).1 hm, hedits, hholds⟩

/-- A character becomes what the decisions make of it, or else it is a blank and goes. -/
theorem image_cases (h : Carries text steps merged) {c : Cell} (hc : c ∈ cells text) :
    image merged c = image steps c ∨
      Unicode.isBlank c.char = true ∧ image steps c = [c.char] ∧ image merged c = [] := by
  by_cases hs : Edits steps c.start
  · obtain ⟨s, hs, hedits, hholds⟩ := hs
    left
    rw [h.image_of_edits hs hedits hholds, image_of_mem h.stands.ascending.apart hs hholds]
  · have hstays := Patch.image_of_not_edits h.stands.ascending.apart hs
    by_cases hd : Deletes merged c.start
    · right
      refine ⟨?_, hstays, image_of_deletes h.ascending.apart hd⟩
      rcases h.blank_of_deletes hc hd with hdel | hblank
      · exact absurd (Edits.of_deletes hdel) hs
      · exact hblank
    · left
      rw [h.image_of_not_edits hs hd, hstays]

end Carries

/-- The plan for well-placed comments carries out what is decided on them, and can be applied. -/
theorem exists_carries {α : Type} {source fileId : String} {comments : List (Judged α)}
    (h : WellPlaced source.toList fileId comments) (policy : Policy) (drift : List (Finding α)) :
    ∃ merged, planFor policy fileId source comments drift = .ok ⟨fileId, merged⟩ ∧
      Carries source.toList (decided policy drift fileId (ownComments fileId comments)) merged ∧
      apply source ⟨fileId, merged⟩ = .ok (String.ofList (patched merged source.toList)) := by
  obtain ⟨merged, hplan, hmerges⟩ := planFor_eq h policy drift
  have hcarries : Carries source.toList
      (decided policy drift fileId (ownComments fileId comments)) merged :=
    ⟨stands_decided h policy drift, hmerges⟩
  exact ⟨merged, hplan, hcarries, apply_eq hcarries.fits hcarries.ascending⟩

/-- The plan for a lone comment is the decision about it, widened. -/
theorem planFor_lone {α : Type} {source fileId : String} {k : Judged α}
    (hown : k.comment.fileId = fileId) (hsolid : Solid source.toList k.comment.place)
    (policy : Policy) (drift : List (Finding α)) :
    ∃ step, step = widenStep source.toList (decidedFor policy drift fileId k) ∧
      planFor policy fileId source [k] drift = .ok ⟨fileId, [step]⟩ ∧
      apply source ⟨fileId, [step]⟩ = .ok (String.ofList (patched [step] source.toList)) := by
  have hplaced : WellPlaced source.toList fileId [k] :=
    ⟨by simpa using hown, by simpa using hsolid, List.pairwise_singleton _ _⟩
  obtain ⟨merged, hplan, hcarries, happly⟩ := exists_carries hplaced policy drift
  have hmerges := hcarries.merges
  rw [ownComments_eq (by simpa using hown) (List.pairwise_singleton _ _)] at hmerges
  have hmerged : merged = [widenStep source.toList (decidedFor policy drift fileId k)] := by
    cases hmerges with
    | pass _ hrest =>
      cases hrest
      rfl
  subst hmerged
  exact ⟨_, rfl, hplan, happly⟩

end Marginalia.Patch
