import Marginalia.Proofs.Patch.Decisions
import Marginalia.Proofs.Patch.LineEnds

/-! What deletions leave of a line that holds nothing but blanks and deleted comments. A comment that
has the line to itself takes all of it. Several on one line take what is between them, but the blanks
before the first one go only with a deletion before the line, and what follows the last one, the line
end with it, only with a deletion after the line. -/

namespace Marginalia.Patch

open Marginalia.Text

/-- A step that deletes within a line. -/
structure DeletesIn (steps : List Step) (start stop : Nat) (step : Step) : Prop where
  mem : step ∈ steps
  deletes : step.deletes = true
  start_le : start ≤ step.place.start
  stop_le : step.place.stop ≤ stop

/-- A line of blanks and deletions, at least one of these. A carriage return may stand before the end
of it. -/
structure DeletedLine (text : List Char) (steps : List Step) (start stop : Nat) : Prop where
  lineStart : LineStart text start
  lineEnd : LineEnd text stop
  single : ∀ c ∈ cells text, start ≤ c.start → c.start < stop → c.char ≠ '\n'
  filled : ∃ d ∈ steps, DeletesIn steps start stop d
  only : ∀ c ∈ cells text, start ≤ c.start → c.start < stop →
    isGap c.char = true ∨ c.char = '\r' ∧ c.stop = stop ∨
      ∃ d ∈ steps, DeletesIn steps start stop d ∧ d.place.holds c.start = true

/-- The first and the last deletion of a line. -/
structure Ends (text : List Char) (steps : List Step) (start stop : Nat) (first last : Step) :
    Prop where
  line : DeletedLine text steps start stop
  left : DeletesIn steps start stop first
  right : DeletesIn steps start stop last
  first_le : ∀ d, DeletesIn steps start stop d → d = first ∨ first.place.stop ≤ d.place.start
  le_last : ∀ d, DeletesIn steps start stop d → d = last ∨ d.place.stop ≤ last.place.start

/-- Whether only blanks separate a step from a deletion before it. -/
def Led (text : List Char) (steps : List Step) (step : Step) : Prop :=
  ∃ a ∈ steps, Joins text a step ∧ a.place.stop ≤ step.place.start

/-- Whether only blanks separate a step from a deletion after it. -/
def Trailed (text : List Char) (steps : List Step) (step : Step) : Prop :=
  ∃ b ∈ steps, Joins text step b ∧ step.place.stop ≤ b.place.start

instance (steps : List Step) (start stop : Nat) (step : Step) :
    Decidable (DeletesIn steps start stop step) :=
  decidable_of_iff (step ∈ steps ∧ step.deletes = true ∧ start ≤ step.place.start ∧
      step.place.stop ≤ stop)
    ⟨fun ⟨h1, h2, h3, h4⟩ => ⟨h1, h2, h3, h4⟩, fun ⟨h1, h2, h3, h4⟩ => ⟨h1, h2, h3, h4⟩⟩

instance (text : List Char) (steps : List Step) (start stop : Nat) :
    Decidable (DeletedLine text steps start stop) :=
  decidable_of_iff (LineStart text start ∧ LineEnd text stop ∧
      (∀ c ∈ cells text, start ≤ c.start → c.start < stop → c.char ≠ '\n') ∧
      (∃ d ∈ steps, DeletesIn steps start stop d) ∧
      ∀ c ∈ cells text, start ≤ c.start → c.start < stop →
        isGap c.char = true ∨ c.char = '\r' ∧ c.stop = stop ∨
          ∃ d ∈ steps, DeletesIn steps start stop d ∧ d.place.holds c.start = true)
    ⟨fun ⟨h1, h2, h3, h4, h5⟩ => ⟨h1, h2, h3, h4, h5⟩,
      fun ⟨h1, h2, h3, h4, h5⟩ => ⟨h1, h2, h3, h4, h5⟩⟩

instance (text : List Char) (steps : List Step) (step : Step) : Decidable (Led text steps step) :=
  inferInstanceAs
    (Decidable (∃ a ∈ steps, Joins text a step ∧ a.place.stop ≤ step.place.start))

instance (text : List Char) (steps : List Step) (step : Step) :
    Decidable (Trailed text steps step) :=
  inferInstanceAs
    (Decidable (∃ b ∈ steps, Joins text step b ∧ step.place.stop ≤ b.place.start))

/-- What is left of a line whose first and last deletions are given. -/
def lineLeft (text : List Char) (steps : List Step) (start stop : Nat) (first last : Step) :
    List Char :=
  (if first = last ∨ Led text steps first then [] else slice text start first.place.start) ++
    if first = last ∨ Trailed text steps last then []
    else slice text last.place.stop (min (stop + 1) (size text))

variable {text : List Char} {steps merged : List Step} {start stop : Nat} {first last : Step}

/-! ### Blanks around places -/

theorem LeadsFrom.stop_le {place other : Place} {s : Nat} (h : LeadsFrom text place s)
    (hsolid : Solid text other) (hle : other.stop ≤ place.start) : other.stop ≤ s :=
  hsolid.stop_le h.lineStart.isBoundary
    (h.gaps.imp fun _ hc => isBlank_of_isTrail (isTrail_of_isGap hc)) hle

theorem TrailsTo.le_start {place other : Place} {e : Nat} (h : TrailsTo text place e)
    (hsolid : Solid text other) (hle : place.stop ≤ other.start) :
    min (e + 1) (size text) ≤ other.start :=
  hsolid.le_start h.blanks hle

/-- A solid place does not end with a newline. -/
theorem Solid.stop_le_newline {place : Place} (h : Solid text place) {n : Cell}
    (hn : n ∈ cells text) (hchar : n.char = '\n') (hle : place.stop ≤ n.stop) :
    place.stop ≤ n.start := by
  by_cases hlt : n.start < place.stop
  · have := stop_le_of_isBoundary hn h.stop_boundary hlt
    have := h.last n hn (by omega)
    rw [hchar] at this
    cases this
  · omega

/-- A place that has a line to itself takes it with its end. -/
theorem Widens.eq_of_alone {place wide : Place} {s e : Nat} (h : Widens text place wide)
    (hs : LeadsFrom text place s) (he : TrailsTo text place e) :
    wide.start = s ∧ wide.stop = min (e + 1) (size text) := by
  cases h with
  | alone hs' he' => exact ⟨hs'.unique hs, by rw [he'.unique he]⟩
  | trailing _ _ _ hnone => exact absurd hs (hnone s)
  | inline hnone => exact absurd he (hnone e)

theorem Widens.exists_trails {place wide : Place} (h : Widens text place wide)
    (hlt : wide.start < place.start) : ∃ e, TrailsTo text place e := by
  cases h with
  | alone _ he => exact ⟨_, he⟩
  | trailing _ _ _ _ he => exact ⟨_, he⟩
  | inline => exact absurd hlt (Nat.lt_irrefl _)

theorem Widens.exists_leads {place wide : Place} (h : Widens text place wide)
    (hlt : place.stop < wide.stop) : ∃ s, LeadsFrom text place s := by
  cases h with
  | alone hs _ => exact ⟨_, hs⟩
  | trailing => exact absurd hlt (Nat.lt_irrefl _)
  | inline => exact absurd hlt (Nat.lt_irrefl _)

theorem Stands.eq_or_apart (h : Stands text steps) {a b : Step} (ha : a ∈ steps) (hb : b ∈ steps) :
    a = b ∨ a.place.stop ≤ b.place.start ∨ b.place.stop ≤ a.place.start :=
  eq_or_rel_of_pairwise h.ascending ha hb

/-! ### The first and the last deletion -/

theorem DeletedLine.exists_ends (h : DeletedLine text steps start stop)
    (hstands : Stands text steps) : ∃ first last, Ends text steps start stop first last := by
  obtain ⟨first, -, hfirst, hleast⟩ := exists_least hstands.ascending h.filled
  obtain ⟨last, -, hlast, hgreatest⟩ := exists_greatest hstands.ascending h.filled
  exact ⟨first, last, h, hfirst, hlast, fun d hd => hleast d hd.mem hd,
    fun d hd => hgreatest d hd.mem hd⟩

namespace Ends

theorem start_le_stop (h : Ends text steps start stop first last) (hstands : Stands text steps) :
    first.place.start ≤ last.place.start ∧ first.place.stop ≤ last.place.stop := by
  have := (hstands.fits first h.left.mem).start_lt_stop
  have := (hstands.fits last h.right.mem).start_lt_stop
  rcases h.first_le last h.right with rfl | hle
  · exact ⟨Nat.le_refl _, Nat.le_refl _⟩
  · omega

theorem leads (h : Ends text steps start stop first last)
    (hstands : Stands text steps) : LeadsFrom text first.place start := by
  refine ⟨h.line.lineStart, h.left.start_le, fun c hc h1 h2 => ?_⟩
  have hlt := (hstands.fits first h.left.mem).start_lt_stop
  have hstop := h.left.stop_le
  have hcstop := stop_le_of_isBoundary hc (hstands.solid first h.left.mem).start_boundary h2
  rcases h.line.only c hc h1 (by omega) with hgap | ⟨-, hcr⟩ | ⟨d, -, hd, hholds⟩
  · exact hgap
  · omega
  · rw [Place.holds_iff] at hholds
    rcases h.first_le d hd with rfl | hle
    · omega
    · omega

theorem trails (h : Ends text steps start stop first last)
    (hstands : Stands text steps) : TrailsTo text last.place stop := by
  refine ⟨h.line.lineEnd, h.right.stop_le, fun c hc h1 h2 => ?_⟩
  have hlt := (hstands.fits last h.right.mem).start_lt_stop
  have hstart := h.right.start_le
  rcases h.line.only c hc (by omega) h2 with hgap | ⟨hcr, -⟩ | ⟨d, -, hd, hholds⟩
  · exact isTrail_of_isGap hgap
  · rw [hcr]
    rfl
  · rw [Place.holds_iff] at hholds
    rcases h.le_last d hd with rfl | hle
    · omega
    · omega

/-- A first deletion that trails to a line end is the only one of its line. -/
theorem eq_of_trails (h : Ends text steps start stop first last)
    (hstands : Stands text steps) {e : Nat} (he : TrailsTo text first.place e) : first = last := by
  have hfirst := (hstands.fits first h.left.mem).start_lt_stop
  have hlast := (hstands.fits last h.right.mem).start_lt_stop
  have hstart := h.left.start_le
  have hstop := h.right.stop_le
  have hsize := le_size_of_isBoundary h.line.lineEnd.isBoundary
  rcases h.first_le last h.right with heq | hle
  · exact heq.symm
  · have hmin := he.le_start (hstands.solid last h.right.mem) hle
    rcases he.lineEnd with rfl | ⟨n, hn, hchar, rfl⟩
    · omega
    · have := he.stop_le
      have := stop_le_of_mem hn
      have := n.start_lt_stop
      exact absurd hchar (h.line.single n hn (by omega) (by omega))

/-- A last deletion that leads from a line start is the only one of its line. -/
theorem eq_of_leads (h : Ends text steps start stop first last)
    (hstands : Stands text steps) {s : Nat} (hs : LeadsFrom text last.place s) : first = last := by
  have hfirst := (hstands.fits first h.left.mem).start_lt_stop
  have hlast := (hstands.fits last h.right.mem).start_lt_stop
  have hstart := h.left.start_le
  have hstop := h.right.stop_le
  rcases h.le_last first h.left with heq | hle
  · exact heq
  · have hles := hs.stop_le (hstands.solid first h.left.mem) hle
    have hsle := hs.le_start
    rcases hs.lineStart with rfl | ⟨n, hn, hchar, rfl⟩
    · omega
    · have := n.start_lt_stop
      by_cases hbefore : n.start < start
      · have := stop_le_of_isBoundary hn h.line.lineStart.isBoundary hbefore
        omega
      · exact absurd hchar (h.line.single n hn (by omega) (by omega))

/-- A line is gone with its end when its only deletion has it to itself, or when nothing stays on
either side of the deletions. -/
theorem lineLeft_eq_nil_iff (h : Ends text steps start stop first last)
    (hstands : Stands text steps) : lineLeft text steps start stop first last = [] ↔
      first = last ∨ (Led text steps first ∨ first.place.start = start) ∧
        (Trailed text steps last ∨ last.place.stop = min (stop + 1) (size text)) := by
  have hlead := h.leads hstands
  have htrail := h.trails hstands
  have hstop := htrail.stop_le
  have hsize := le_size_of_isBoundary htrail.lineEnd.isBoundary
  have hbefore := slice_eq_nil_iff hlead.lineStart.isBoundary
    (hstands.solid first h.left.mem).start_boundary hlead.le_start
  have hafter := slice_eq_nil_iff (hstands.solid last h.right.mem).stop_boundary
    htrail.lineEnd.isBoundary_next (by omega)
  rw [lineLeft, List.append_eq_nil_iff, ite_eq_left_iff, ite_eq_left_iff, hbefore, hafter,
    eq_comm (a := start)]
  tauto

end Ends

/-! ### What goes with the deletions of a line -/

namespace Carries

theorem madeOf_eq_nil (h : Carries text steps merged) {low high : Nat}
    (hgo : ∀ offset, low ≤ offset → offset < high → Deletes merged offset) :
    madeOf merged text low high = [] := by
  rw [madeOf, List.flatMap_eq_nil_iff]
  intro c hc
  obtain ⟨-, h1, h2⟩ := mem_cellsIn.1 hc
  exact image_of_deletes h.ascending.apart (hgo c.start h1 h2)

/-- Characters outside of decisions that are not deleted stay. -/
theorem madeOf_eq_slice (h : Carries text steps merged) {low high : Nat}
    (hlow : isBoundary text low = true) (hhigh : isBoundary text high = true) (hle : low ≤ high)
    (hout : ∀ offset, low ≤ offset → offset < high → ∀ s ∈ steps, s.place.holds offset = false)
    (hstay : ∀ c ∈ cells text, low ≤ c.start → c.start < high → ¬Deletes merged c.start) :
    madeOf merged text low high = slice text low high := by
  refine Patch.madeOf_eq_slice hlow hhigh hle fun c hc => ?_
  obtain ⟨hc, h1, h2⟩ := mem_cellsIn.1 hc
  refine h.image_of_not_edits ?_ (hstay c hc h1 h2)
  rintro ⟨s, hs, -, hholds⟩
  rw [hout c.start h1 h2 s hs] at hholds
  cases hholds

variable (h : Carries text steps merged) (hends : Ends text steps start stop first last)
include h hends

/-- No decision is about what is before the first deletion of a line. -/
theorem not_holds_lead {offset : Nat} (h1 : start ≤ offset) (h2 : offset < first.place.start) :
    ∀ s ∈ steps, s.place.holds offset = false := by
  intro s hs
  have hlt := (h.stands.fits first hends.left.mem).start_lt_stop
  rw [Place.holds_eq_false_iff]
  rcases h.stands.eq_or_apart hs hends.left.mem with rfl | hle | hle
  · omega
  · have := (hends.leads h.stands).stop_le (h.stands.solid s hs) hle
    omega
  · omega

/-- No decision is about what is after the last deletion of a line. -/
theorem not_holds_tail {offset : Nat} (h1 : last.place.stop ≤ offset)
    (h2 : offset < min (stop + 1) (size text)) : ∀ s ∈ steps, s.place.holds offset = false := by
  intro s hs
  have hlt := (h.stands.fits last hends.right.mem).start_lt_stop
  rw [Place.holds_eq_false_iff]
  rcases h.stands.eq_or_apart hs hends.right.mem with rfl | hle | hle
  · omega
  · omega
  · have := (hends.trails h.stands).le_start (h.stands.solid s hs) hle
    omega

/-- What is between the first and the last deletion of a line goes with them. -/
theorem deletes_inside {offset : Nat} (h1 : first.place.start ≤ offset)
    (h2 : offset < last.place.stop) : Deletes merged offset := by
  have hstart := hends.left.start_le
  have hstop := hends.right.stop_le
  by_cases hin : ∃ d ∈ steps, DeletesIn steps start stop d ∧ d.place.holds offset = true
  · obtain ⟨d, hd, hdin, hholds⟩ := hin
    exact h.deletes_of_mem hd hdin.deletes hholds
  have hout : ∀ d, DeletesIn steps start stop d →
      d.place.stop ≤ offset ∨ offset < d.place.start := by
    intro d hd
    by_cases hholds : d.place.holds offset = true
    · exact absurd ⟨d, hd.mem, hd, hholds⟩ hin
    · rw [Place.holds_iff] at hholds
      omega
  -- The last deletion of the line before the offset and the first one after it are neighbours.
  obtain ⟨a, ha, ⟨hain, hac⟩, hnearest⟩ := exists_greatest h.stands.ascending
    (p := fun d => DeletesIn steps start stop d ∧ d.place.stop ≤ offset)
    ⟨first, hends.left.mem, hends.left, (hout first hends.left).resolve_right (by omega)⟩
  obtain ⟨b, hb, ⟨hbin, hcb⟩, hnext⟩ := exists_least h.stands.ascending
    (p := fun d => DeletesIn steps start stop d ∧ offset < d.place.start)
    ⟨last, hends.right.mem, hends.right, (hout last hends.right).resolve_left (by omega)⟩
  have hafit := (h.stands.fits a ha).start_lt_stop
  have hbfit := (h.stands.fits b hb).start_lt_stop
  have hbstop := hbin.stop_le
  have hastart := hain.start_le
  refine h.deletes_between ha hb ⟨hain.deletes, hbin.deletes, fun c' hc' h1' h2' => ?_⟩ hac hcb
  rcases hends.line.only c' hc' (by omega) (by omega) with hgap | ⟨hcr, -⟩ | ⟨d, hd, hdin, hholds⟩
  · exact isBlank_of_isTrail (isTrail_of_isGap hgap)
  · rw [hcr]
    rfl
  · rw [Place.holds_iff] at hholds
    rcases hout d hdin with hdc | hcd
    · rcases hnearest d hd ⟨hdin, hdc⟩ with rfl | hle <;> omega
    · rcases hnext d hd ⟨hdin, hcd⟩ with rfl | hle <;> omega

/-- The blanks before the first deletion of a line go when it has the line to itself or only blanks
separate it from a deletion before. -/
theorem deletes_lead (hgo : first = last ∨ Led text steps first) {offset : Nat}
    (h1 : start ≤ offset) (h2 : offset < first.place.start) : Deletes merged offset := by
  have hlead := hends.leads h.stands
  rcases hgo with rfl | ⟨a, ha, hj, hle⟩
  · have hfit := h.stands.fits first hends.left.mem
    obtain ⟨hstart, hstop⟩ := (widens_widenStep hfit hends.left.deletes).eq_of_alone hlead
      (hends.trails h.stands)
    have := (extends_widenStep hfit).le_stop
    have := hfit.start_lt_stop
    exact h.deletes_of_widened hends.left.mem hends.left.deletes
      (Place.holds_iff.2 ⟨by omega, by omega⟩)
  · have := hlead.stop_le (h.stands.solid a ha) hle
    exact h.deletes_between ha hends.left.mem hj (by omega) h2

/-- What follows the last deletion of a line goes, the line end with it, when it has the line to itself
or only blanks separate it from a deletion after. -/
theorem deletes_tail (hgo : first = last ∨ Trailed text steps last) {offset : Nat}
    (h1 : last.place.stop ≤ offset) (h2 : offset < min (stop + 1) (size text)) :
    Deletes merged offset := by
  have htrail := hends.trails h.stands
  rcases hgo with rfl | ⟨b, hb, hj, hle⟩
  · have hfit := h.stands.fits first hends.left.mem
    obtain ⟨hstart, hstop⟩ := (widens_widenStep hfit hends.left.deletes).eq_of_alone
      (hends.leads h.stands) htrail
    have := (extends_widenStep hfit).start_le
    have := hfit.start_lt_stop
    exact h.deletes_of_widened hends.left.mem hends.left.deletes
      (Place.holds_iff.2 ⟨by omega, by omega⟩)
  · have := htrail.le_start (h.stands.solid b hb) hle
    exact h.deletes_between hends.right.mem hb hj h1 (by omega)

/-- The blanks before the first deletion of a line go in no other way. -/
theorem led_of_deletes {c : Cell} (hc : c ∈ cells text) (h1 : start ≤ c.start)
    (h2 : c.start < first.place.start) (hd : Deletes merged c.start) :
    first = last ∨ Led text steps first := by
  have hlead := hends.leads h.stands
  have hsolid := h.stands.solid first hends.left.mem
  have hfirst := hsolid.start_lt_stop
  rcases h.deletes_cases hd with ⟨d, hdm, hdd, hholds⟩ | ⟨a, ha, b, hb, hj, hac, hcb⟩
  · left
    have hfit := h.stands.fits d hdm
    have hwidens := widens_widenStep hfit hdd
    have hext := extends_widenStep hfit
    rw [Place.holds_iff] at hholds
    rcases h.stands.eq_or_apart hdm hends.left.mem with rfl | hle | hle
    · obtain ⟨e, he⟩ := hwidens.exists_trails (by omega)
      exact hends.eq_of_trails h.stands he
    · -- A deletion before the line that reaches into it would end after a newline in the line.
      have hstop := hlead.stop_le (h.stands.solid d hdm) hle
      have hwide := hsolid.le_start hext.blanks hle
      rcases hext.last (by omega) with hsize | ⟨n, hn, hchar, hnstop⟩
      · have := hsolid.stop_le_size
        omega
      · have hcn := start_of_isBoundary hn (isBoundary_start hc) (by omega)
        have := n.start_lt_stop
        have := hlead.gaps n hn (by omega) (by omega)
        rw [hchar, isGap_newline] at this
        contradiction
    · have := hsolid.le_start hext.leadBlanks (by omega)
      omega
  · right
    have hbstart := hsolid.le_start hj.blanks (by omega)
    have hbfit := (h.stands.fits b hb).start_lt_stop
    rcases h.stands.eq_or_apart hb hends.left.mem with rfl | hle | hle
    · exact ⟨a, ha, hj, by omega⟩
    · have := hlead.stop_le (h.stands.solid b hb) hle
      omega
    · omega

/-- What follows the last deletion of a line goes in no other way. -/
theorem trailed_of_deletes {c : Cell} (hc : c ∈ cells text) (h1 : last.place.stop ≤ c.start)
    (h2 : c.start < min (stop + 1) (size text)) (hd : Deletes merged c.start) :
    first = last ∨ Trailed text steps last := by
  have htrail := hends.trails h.stands
  have hsolid := h.stands.solid last hends.right.mem
  have hlast := hsolid.start_lt_stop
  rcases h.deletes_cases hd with ⟨d, hdm, hdd, hholds⟩ | ⟨a, ha, b, hb, hj, hac, hcb⟩
  · left
    have hfit := h.stands.fits d hdm
    have hlt := hfit.start_lt_stop
    have hwidens := widens_widenStep hfit hdd
    have hext := extends_widenStep hfit
    rw [Place.holds_iff] at hholds
    rcases h.stands.eq_or_apart hdm hends.right.mem with rfl | hle | hle
    · obtain ⟨s, hs⟩ := hwidens.exists_leads (by omega)
      exact hends.eq_of_leads h.stands hs
    · have := hsolid.stop_le hfit.stop_boundary hext.blanks (by omega)
      omega
    · -- A deletion after the line that reaches into it would have the line end for a gap.
      have hdstart := htrail.le_start (h.stands.solid d hdm) hle
      rcases htrail.lineEnd.min_cases with ⟨hmin, -⟩ | ⟨n, hn, hchar, hnstart, hnstop⟩
      · have := (h.stands.solid d hdm).stop_le_size
        omega
      · have hcn := start_of_isBoundary hn (isBoundary_start hc) (by omega)
        have := n.start_lt_stop
        have := hext.gaps n hn (by omega) (by omega)
        rw [hchar, isGap_newline] at this
        contradiction
  · right
    have hafit := h.stands.fits a ha
    have hlt := hafit.start_lt_stop
    have hastop := hsolid.stop_le hafit.stop_boundary hj.blanks (by omega)
    rcases h.stands.eq_or_apart ha hends.right.mem with rfl | hle | hle
    · exact ⟨b, hb, hj, by omega⟩
    · omega
    · have := htrail.le_start (h.stands.solid a ha) hle
      omega

theorem madeOf_line : madeOf merged text start (min (stop + 1) (size text)) =
    lineLeft text steps start stop first last := by
  have hlead := hends.leads h.stands
  have htrail := hends.trails h.stands
  obtain ⟨hle, hle'⟩ := hends.start_le_stop h.stands
  have hfit := h.stands.fits first hends.left.mem
  have hfit' := h.stands.fits last hends.right.mem
  have hlt := hfit.start_lt_stop
  have hlt' := hfit'.start_lt_stop
  have hstop := htrail.stop_le
  have hsize := le_size_of_isBoundary htrail.lineEnd.isBoundary
  have hinside : madeOf merged text first.place.start last.place.stop = [] :=
    h.madeOf_eq_nil fun o h1 h2 => h.deletes_inside hends h1 h2
  have hboundary := htrail.lineEnd.isBoundary_next
  rw [← madeOf_append merged text hlead.le_start (by omega),
    ← madeOf_append merged text (show first.place.start ≤ last.place.stop by omega) (by omega),
    hinside, List.nil_append, lineLeft]
  congr 1
  · split
    · next hgo => exact h.madeOf_eq_nil fun o h1 h2 => h.deletes_lead hends hgo h1 h2
    · next hstay =>
      exact h.madeOf_eq_slice hlead.lineStart.isBoundary hfit.start_boundary hlead.le_start
        (fun o h1 h2 => h.not_holds_lead hends h1 h2)
        fun c hc h1 h2 hd => hstay (h.led_of_deletes hends hc h1 h2 hd)
  · split
    · next hgo => exact h.madeOf_eq_nil fun o h1 h2 => h.deletes_tail hends hgo h1 h2
    · next hstay =>
      exact h.madeOf_eq_slice hfit'.stop_boundary hboundary (by omega)
        (fun o h1 h2 => h.not_holds_tail hends h1 h2)
        fun c hc h1 h2 hd => hstay (h.trailed_of_deletes hends hc h1 h2 hd)

/-- The line end before a line of deletions goes when only blanks separate the first one from a
deletion before, or when it ends a line that a deletion has to itself. -/
theorem taken_before_iff {n : Cell} (hn : n ∈ cells text) (hchar : n.char = '\n')
    (hstop : n.stop = start) : Taken text steps n.start ↔ Led text steps first ∨
      ∃ d ∈ steps, d.deletes = true ∧ (∃ s, LeadsFrom text d.place s) ∧
        TrailsTo text d.place n.start := by
  have hlead := hends.leads h.stands
  have hsolid := h.stands.solid first hends.left.mem
  have hnlt := n.start_lt_stop
  have hle := hlead.le_start
  refine or_congr_left ⟨?_, ?_⟩
  · rintro ⟨a, ha, b, hb, hj, han, hnb⟩
    have hbstart := hsolid.le_start hj.blanks (by omega)
    have hbfit := h.stands.fits b hb
    have hlt := hbfit.start_lt_stop
    have hstart := stop_le_of_isBoundary hn hbfit.start_boundary hnb
    rcases h.stands.eq_or_apart hb hends.left.mem with rfl | hba | hab
    · exact ⟨a, ha, hj, by omega⟩
    · have := hlead.stop_le (h.stands.solid b hb) hba
      omega
    · have := hsolid.start_lt_stop
      omega
  · rintro ⟨a, ha, hj, hle'⟩
    have hastop := hlead.stop_le (h.stands.solid a ha) hle'
    exact ⟨a, ha, first, hends.left.mem, hj,
      (h.stands.solid a ha).stop_le_newline hn hchar (by omega), by omega⟩

theorem image_before {n : Cell} (hn : n ∈ cells text) (hchar : n.char = '\n')
    (hstop : n.stop = start) :
    image merged n = if Taken text steps n.start then [] else ['\n'] := by
  have hlead := hends.leads h.stands
  have hle := hlead.le_start
  have hnlt := n.start_lt_stop
  have hout : ∀ s ∈ steps, s.place.holds n.start = false := by
    intro s hs
    rw [Place.holds_eq_false_iff]
    have hfirst := (h.stands.fits first hends.left.mem).start_lt_stop
    rcases h.stands.eq_or_apart hs hends.left.mem with rfl | hle' | hle'
    · omega
    · have hsstop := hlead.stop_le (h.stands.solid s hs) hle'
      have := (h.stands.solid s hs).stop_le_newline hn hchar (by omega)
      omega
    · omega
  have hiff := h.deletes_newline_iff hn hchar fun ⟨s, hs, _, hholds⟩ => by
    rw [hout s hs] at hholds
    cases hholds
  split
  · next htaken => exact image_of_deletes h.ascending.apart (hiff.2 htaken)
  · next hstays =>
    rw [h.image_of_not_edits ?_ (mt hiff.1 hstays), hchar]
    rintro ⟨s, hs, -, hholds⟩
    rw [hout s hs] at hholds
    cases hholds

end Carries

/-! ### Texts -/

variable {α : Type} {source fileId : String} {comments : List (Judged α)}

/-- A line of blanks and deleted comments. A comment that has the line to itself takes the line with
its end. Of a line with several comments, the blanks before the first one stay, unless only blanks
separate it from a deletion before the line, and so does what follows the last one, the line end with
it, unless only blanks separate it from a deletion after the line. The line end before the line goes
with a deletion that leads to it, and else only with a line of its own. -/
theorem deleted_line_left (h : WellPlaced source.toList fileId (ofFile fileId comments))
    (policy : Policy) (drift : List (Finding α)) (hline : DeletedLine source.toList
      (decided policy drift fileId (ownComments fileId comments)) start stop) :
    ∃ plan first last, planFor policy fileId source comments drift = .ok plan ∧
      Ends source.toList (decided policy drift fileId (ownComments fileId comments)) start stop
        first last ∧
      apply source plan = .ok (String.ofList (madeOf plan.steps source.toList 0 start ++
        lineLeft source.toList (decided policy drift fileId (ownComments fileId comments)) start stop
          first last ++
        madeOf plan.steps source.toList (min (stop + 1) (size source.toList))
          (size source.toList))) ∧
      (lineLeft source.toList (decided policy drift fileId (ownComments fileId comments)) start stop
          first last = [] ↔ first = last ∨
        (Led source.toList (decided policy drift fileId (ownComments fileId comments)) first ∨
            first.place.start = start) ∧
          (Trailed source.toList (decided policy drift fileId (ownComments fileId comments)) last ∨
            last.place.stop = min (stop + 1) (size source.toList))) ∧
      ∀ n ∈ cells source.toList, n.char = '\n' → n.stop = start →
        (image plan.steps n = ['\n'] ∨ image plan.steps n = []) ∧
        (image plan.steps n = [] ↔
          Led source.toList (decided policy drift fileId (ownComments fileId comments)) first ∨
          ∃ d ∈ decided policy drift fileId (ownComments fileId comments), d.deletes = true ∧
            (∃ s, LeadsFrom source.toList d.place s) ∧
              TrailsTo source.toList d.place n.start) := by
  obtain ⟨merged, hplan, hcarries, happly⟩ := exists_carries h policy drift
  rw [planFor_ofFile] at hplan
  rw [ownComments_ofFile] at hcarries
  obtain ⟨first, last, hends⟩ := hline.exists_ends hcarries.stands
  have hleft := hends.left
  have hsize := le_size_of_isBoundary hline.lineEnd.isBoundary
  have hfit := (hcarries.stands.fits first hleft.mem).start_lt_stop
  have := hleft.start_le
  have := hleft.stop_le
  refine ⟨⟨fileId, merged⟩, first, last, hplan, hends, ?_,
    hends.lineLeft_eq_nil_iff hcarries.stands, fun n hn hchar hstop => ?_⟩
  · rw [happly, ← madeOf_whole, ← hcarries.madeOf_line hends,
      madeOf_append _ _ (Nat.zero_le _) (by omega),
      madeOf_append _ _ (Nat.zero_le _) (by omega)]
  · have himage := hcarries.image_before hends hn hchar hstop
    rw [← hcarries.taken_before_iff hends hn hchar hstop]
    split at himage
    · next htaken => exact ⟨.inr himage, iff_of_true himage htaken⟩
    · next hstays => exact ⟨.inl himage, iff_of_false (by simp [himage]) hstays⟩

/-- An indented comment alone on its line is gone with a carriage return and a newline after it. -/
theorem deleted_line_left_of_own_line :
    WellPlaced "a;\r\n  // x\r\nb;\n".toList "a.js"
        (ofFile "a.js" [placed "a.js" 6 "// x" .filler []]) ∧
      DeletedLine "a;\r\n  // x\r\nb;\n".toList
        (decided ⟨true, true, true, true, true, true, true⟩ [] "a.js"
          (ownComments "a.js" [placed "a.js" 6 "// x" .filler []])) 4 11 ∧
      ∃ plan, planFor ⟨true, true, true, true, true, true, true⟩ "a.js" "a;\r\n  // x\r\nb;\n"
          [placed "a.js" 6 "// x" .filler []] [] = .ok plan ∧
        apply "a;\r\n  // x\r\nb;\n" plan =
          .ok (String.ofList (madeOf plan.steps "a;\r\n  // x\r\nb;\n".toList 0 4 ++ [] ++
            madeOf plan.steps "a;\r\n  // x\r\nb;\n".toList 12 15)) := by
  have hown : ownComments "a.js" [placed "a.js" 6 "// x" .filler []] =
      [placed "a.js" 6 "// x" .filler []] := ownComments_eq (by decide) (by decide)
  have hplaced : WellPlaced "a;\r\n  // x\r\nb;\n".toList "a.js"
      (ofFile "a.js" [placed "a.js" 6 "// x" .filler []]) := by decide
  have hline : DeletedLine "a;\r\n  // x\r\nb;\n".toList
      (decided ⟨true, true, true, true, true, true, true⟩ [] "a.js"
        (ownComments "a.js" [placed "a.js" 6 "// x" .filler []])) 4 11 := by
    rw [hown]
    decide
  obtain ⟨plan, first, last, hplan, hends, happly, hnil, -⟩ :=
    deleted_line_left hplaced ⟨true, true, true, true, true, true, true⟩ [] hline
  have hsame : first = last := by
    have hfirst := hends.left.mem
    have hlast := hends.right.mem
    rw [hown, decided, List.map_singleton, List.mem_singleton] at hfirst hlast
    rw [hfirst, hlast]
  rw [hnil.2 (.inl hsame)] at happly
  exact ⟨hplaced, hline, plan, hplan, happly⟩

/-- Two deleted comments on the first line of a text leave it empty: the first one takes nothing, for
the second one stands after it, and the second one takes what is before it only. -/
theorem empty_line_left_by_two_comments :
    WellPlaced "/* a */ /* b */\nrun();\n".toList "a.js"
        [placed "a.js" 0 "/* a */" .filler [], placed "a.js" 8 "/* b */" .filler []] ∧
      DeletedLine "/* a */ /* b */\nrun();\n".toList
        (decided ⟨true, true, true, true, true, true, true⟩ [] "a.js"
          [placed "a.js" 0 "/* a */" .filler [], placed "a.js" 8 "/* b */" .filler []]) 0 15 ∧
      (planFor ⟨true, true, true, true, true, true, true⟩ "a.js" "/* a */ /* b */\nrun();\n"
          [placed "a.js" 0 "/* a */" .filler [], placed "a.js" 8 "/* b */" .filler []] []).bind
        (apply "/* a */ /* b */\nrun();\n") = .ok "\nrun();\n" := by
  refine ⟨by decide, by decide, ?_⟩
  rw [planFor, ownComments_eq (by decide) (by decide)]
  decide +kernel

end Marginalia.Patch
