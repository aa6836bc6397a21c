import Marginalia.Patch.Deletion
import Marginalia.Proofs.Text.Cells

/-! What a deletion takes with it. A comment alone on its line takes the blanks before it, those
after it and the line end; a comment at the end of a line takes the blanks before it; any other
comment takes nothing. -/

namespace Marginalia.Patch

open Marginalia.Text

/-- Spaces, tabs and carriage returns, which may stand between a comment and the end of its line. -/
def isTrail (c : Char) : Bool := isGap c || c == '\r'

/-- Whether a line begins at an offset. -/
def LineStart (text : List Char) (offset : Nat) : Prop :=
  offset = 0 ∨ ∃ c ∈ cells text, c.char = '\n' ∧ c.stop = offset

/-- Whether a line ends at an offset. -/
def LineEnd (text : List Char) (offset : Nat) : Prop :=
  offset = size text ∨ ∃ c ∈ cells text, c.char = '\n' ∧ c.start = offset

/-- Between the start of its line and a place there are only gaps. -/
structure LeadsFrom (text : List Char) (place : Place) (offset : Nat) : Prop where
  lineStart : LineStart text offset
  le_start : offset ≤ place.start
  gaps : AllBetween isGap text offset place.start

/-- Between a place and the end of its line there are only gaps and carriage returns. -/
structure TrailsTo (text : List Char) (place : Place) (offset : Nat) : Prop where
  lineEnd : LineEnd text offset
  stop_le : place.stop ≤ offset
  trails : AllBetween isTrail text place.stop offset

instance (text : List Char) (offset : Nat) : Decidable (LineStart text offset) :=
  inferInstanceAs (Decidable (offset = 0 ∨ ∃ c ∈ cells text, c.char = '\n' ∧ c.stop = offset))

instance (text : List Char) (offset : Nat) : Decidable (LineEnd text offset) :=
  inferInstanceAs
    (Decidable (offset = size text ∨ ∃ c ∈ cells text, c.char = '\n' ∧ c.start = offset))

instance (text : List Char) (place : Place) (offset : Nat) :
    Decidable (LeadsFrom text place offset) :=
  decidable_of_iff (LineStart text offset ∧ offset ≤ place.start ∧
      AllBetween isGap text offset place.start)
    ⟨fun ⟨h1, h2, h3⟩ => ⟨h1, h2, h3⟩, fun ⟨h1, h2, h3⟩ => ⟨h1, h2, h3⟩⟩

instance (text : List Char) (place : Place) : Decidable (∃ offset, LeadsFrom text place offset) :=
  decidable_of_iff (∃ offset, offset < place.start + 1 ∧ LeadsFrom text place offset)
    ⟨fun ⟨s, _, h⟩ => ⟨s, h⟩, fun ⟨s, h⟩ => ⟨s, Nat.lt_succ_of_le h.le_start, h⟩⟩

instance (text : List Char) (place : Place) (offset : Nat) :
    Decidable (TrailsTo text place offset) :=
  decidable_of_iff (LineEnd text offset ∧ place.stop ≤ offset ∧
      AllBetween isTrail text place.stop offset)
    ⟨fun ⟨h1, h2, h3⟩ => ⟨h1, h2, h3⟩, fun ⟨h1, h2, h3⟩ => ⟨h1, h2, h3⟩⟩

theorem isGap_newline : isGap '\n' = false := by decide

theorem isTrail_newline : isTrail '\n' = false := by decide

theorem isTrail_of_isGap {c : Char} (h : isGap c = true) : isTrail c = true := by
  simp [isTrail, h]

theorem isBlank_of_isTrail {c : Char} (h : isTrail c = true) : Unicode.isBlank c = true := by
  simp only [isTrail, isGap, Bool.or_eq_true, beq_iff_eq] at h
  rcases h with (rfl | rfl) | rfl <;> decide

theorem size_eq_length {l : List Char} (h : ∀ c ∈ l, isTrail c = true) : size l = l.length := by
  induction l with
  | nil => rfl
  | cons c rest ih =>
    have hc : c.utf8Size = 1 := by
      have := h c List.mem_cons_self
      simp only [isTrail, isGap, Bool.or_eq_true, beq_iff_eq] at this
      rcases this with (rfl | rfl) | rfl <;> decide
    rw [size, ih fun d hd => h d (List.mem_cons_of_mem c hd), hc, List.length_cons, Nat.add_comm]

variable {text : List Char} {place : Place}

/-! ### The blanks around a place -/

theorem headOf_spec (h : isBoundary text place.start = true) :
    ∃ front lead rest, text = front ++ lead ++ rest ∧ size (front ++ lead) = place.start ∧
      headOf text place = (lead.reverse, front.reverse) ∧ (∀ c ∈ lead, isGap c = true) ∧
      ∀ c ∈ front.getLast?, isGap c = false := by
  obtain ⟨a, rest, rfl, ha⟩ := exists_append_of_isBoundary h
  have hsplit : (a.reverse.dropWhile isGap).reverse ++ (a.reverse.takeWhile isGap).reverse = a := by
    rw [← List.reverse_append, List.takeWhile_append_dropWhile, List.reverse_reverse]
  refine ⟨(a.reverse.dropWhile isGap).reverse, (a.reverse.takeWhile isGap).reverse, rest,
    by rw [hsplit], by rw [hsplit, ha], ?_, ?_, ?_⟩
  · rw [headOf, ← ha, before_append]
    simp
  · intro c hc
    have := List.all_takeWhile (p := isGap) (l := a.reverse)
    rw [List.all_eq_true] at this
    exact this c (List.mem_reverse.1 hc)
  · intro c hc
    rw [List.getLast?_reverse] at hc
    exact eq_false_of_mem_head?_dropWhile hc

theorem tailOf_spec (h : isBoundary text place.stop = true) :
    ∃ rest trail back, text = rest ++ trail ++ back ∧ size rest = place.stop ∧
      tailOf text place = (trail, back) ∧ (∀ c ∈ trail, isTrail c = true) ∧
      ∀ c ∈ back.head?, isTrail c = false := by
  obtain ⟨rest, a, rfl, ha⟩ := exists_append_of_isBoundary h
  refine ⟨rest, a.takeWhile isTrail, a.dropWhile isTrail, ?_, ha, ?_, ?_, ?_⟩
  · rw [List.append_assoc, List.takeWhile_append_dropWhile]
  · rw [tailOf, if_pos h, ← ha, after_append]
    rfl
  · intro c hc
    have := List.all_takeWhile (p := isTrail) (l := a)
    rw [List.all_eq_true] at this
    exact this c hc
  · exact fun c hc => eq_false_of_mem_head?_dropWhile hc

/-! ### Lines -/

theorem LineStart.isBoundary {offset : Nat} (h : LineStart text offset) :
    isBoundary text offset = true := by
  rcases h with rfl | ⟨c, hc, -, rfl⟩
  · exact isBoundary_zero text
  · exact isBoundary_stop hc

theorem LineEnd.isBoundary {offset : Nat} (h : LineEnd text offset) :
    isBoundary text offset = true := by
  rcases h with rfl | ⟨c, hc, -, rfl⟩
  · exact isBoundary_size text
  · exact isBoundary_start hc

theorem start_of_isBoundary {c : Cell} {offset : Nat} (hc : c ∈ cells text)
    (h : isBoundary text offset = true) (hlt : offset < c.stop) : offset ≤ c.start := by
  by_cases hcs : c.start < offset
  · have := stop_le_of_isBoundary hc h hcs
    omega
  · omega

/-- No character between a place and the start of its line is a newline. -/
theorem LeadsFrom.newline {offset : Nat} (h : LeadsFrom text place offset) {c : Cell}
    (hc : c ∈ cells text) (hn : c.char = '\n') (hlt : c.start < place.start) : c.stop ≤ offset := by
  by_cases hs : offset ≤ c.start
  · have := h.gaps c hc hs hlt
    rw [hn, isGap_newline] at this
    contradiction
  · exact stop_le_of_isBoundary hc h.lineStart.isBoundary (by omega)

theorem LeadsFrom.unique {s s' : Nat} (h : LeadsFrom text place s) (h' : LeadsFrom text place s') :
    s = s' := by
  have hle : ∀ {s s'}, LeadsFrom text place s → LeadsFrom text place s' → s' ≤ s := by
    intro s s' h h'
    rcases h'.lineStart with rfl | ⟨c, hc, hn, rfl⟩
    · exact Nat.zero_le s
    · have := c.start_lt_stop
      have := h'.le_start
      exact h.newline hc hn (by omega)
  exact Nat.le_antisymm (hle h' h) (hle h h')

/-- No character between a place and the end of its line is a newline. -/
theorem TrailsTo.newline {offset : Nat} (h : TrailsTo text place offset) {c : Cell}
    (hc : c ∈ cells text) (hn : c.char = '\n') (hle : place.stop ≤ c.start) : offset ≤ c.start := by
  by_cases hs : c.start < offset
  · have := h.trails c hc hle hs
    rw [hn, isTrail_newline] at this
    contradiction
  · omega

theorem TrailsTo.unique {e e' : Nat} (h : TrailsTo text place e) (h' : TrailsTo text place e') :
    e = e' := by
  have hle : ∀ {e e'}, TrailsTo text place e → TrailsTo text place e' → e ≤ e' := by
    intro e e' h h'
    rcases h'.lineEnd with rfl | ⟨c, hc, hn, rfl⟩
    · exact le_size_of_isBoundary h.lineEnd.isBoundary
    · exact h.newline hc hn h'.stop_le
  exact Nat.le_antisymm (hle h h') (hle h' h)

/-- No line start leads to a place past a character that is neither a gap nor a newline: it would
come after that character, and a gap would be its newline. -/
theorem not_leadsFrom {c : Cell} (hc : c ∈ cells text) (hgap : isGap c.char = false)
    (hn : c.char ≠ '\n') (hlt : c.start < place.start)
    (hgaps : AllBetween isGap text c.stop place.start) (s : Nat) : ¬LeadsFrom text place s := by
  intro h
  have hs : s ≤ c.start := by
    rcases h.lineStart with rfl | ⟨d, hd, hchar, rfl⟩
    · exact Nat.zero_le _
    · have := h.le_start
      have := d.start_lt_stop
      rcases eq_or_stop_le hc hd with rfl | h1 | h1
      · exact absurd hchar hn
      · have := hgaps d hd h1 (by omega)
        rw [hchar, isGap_newline] at this
        contradiction
      · exact h1
  have := h.gaps c hc hs hlt
  rw [hgap] at this
  contradiction

/-- Where the gaps before a place begin. If that is no start of a line, none leads to the place. -/
theorem lead_spec (h : isBoundary text place.start = true) :
    ∃ s, place.start - (headOf text place).1.length = s ∧ s ≤ place.start ∧
      isBoundary text s = true ∧ AllBetween isGap text s place.start ∧
      (atLineEnd (headOf text place).2 = true → LineStart text s) ∧
      (atLineEnd (headOf text place).2 = false → ∀ s', ¬LeadsFrom text place s') := by
  obtain ⟨front, lead, rest, htext, hstart, hhead, hgap, hlast⟩ := headOf_spec h
  have hlead : size lead = lead.length := size_eq_length fun c hc => isTrail_of_isGap (hgap c hc)
  have hsub : place.start - lead.length = size front := by
    rw [← hstart, size_append]
    omega
  have hfront : isBoundary text (size front) = true := by
    rw [htext, List.append_assoc]
    exact isBoundary_append _ _
  have hle : size front ≤ place.start := by omega
  have hgaps : AllBetween isGap text (size front) place.start := by
    rw [← all_slice_iff hfront h hle, htext, ← hstart, slice_append, List.all_eq_true]
    exact hgap
  rw [hhead]
  refine ⟨size front, by simpa using hsub, hle, hfront, hgaps, fun hat => ?_, fun hat s' h' => ?_⟩
  · rcases List.eq_nil_or_concat front with rfl | ⟨front, c, rfl⟩
    · exact .inl rfl
    · have hc : c = '\n' := by simpa [atLineEnd] using hat
      refine .inr ⟨⟨size front, c⟩, ?_, hc, by simp [Cell.stop, size_append, size]⟩
      rw [htext]
      simpa using mem_cells_append front c (lead ++ rest)
  · rcases List.eq_nil_or_concat front with rfl | ⟨front, c, rfl⟩
    · simp [atLineEnd] at hat
    · have hc : c ≠ '\n' := by simpa [atLineEnd] using hat
      have hcgap : isGap c = false := hlast c (by simp)
      have hmem : (⟨size front, c⟩ : Cell) ∈ cells text := by
        rw [htext]
        simpa using mem_cells_append front c (lead ++ rest)
      have hstop : (⟨size front, c⟩ : Cell).stop = size (front ++ [c]) := by
        simp [Cell.stop, size_append, size]
      have hlt : size front < Cell.stop ⟨size front, c⟩ := Cell.start_lt_stop ⟨_, c⟩
      rw [List.concat_eq_append] at hle hgaps
      exact not_leadsFrom hmem hcgap hc (by simp only; omega) (hstop ▸ hgaps) s' h'

/-- A place trails to no line end past a character that is neither a trailing blank nor a newline. -/
theorem not_trailsTo {c : Cell} (hc : c ∈ cells text) (htrail : isTrail c.char = false)
    (hn : c.char ≠ '\n') (hle : place.stop ≤ c.start)
    (htrails : AllBetween isTrail text place.stop c.start) (e : Nat) : ¬TrailsTo text place e := by
  intro h
  have he : c.start < e := by
    rcases h.lineEnd with rfl | ⟨d, hd, hchar, rfl⟩
    · have := stop_le_of_mem hc
      have := c.start_lt_stop
      omega
    · have := d.start_lt_stop
      rcases eq_or_stop_le hc hd with rfl | h1 | h1
      · exact absurd hchar hn
      · have := c.start_lt_stop
        omega
      · have := htrails d hd h.stop_le (by omega)
        rw [hchar, isTrail_newline] at this
        contradiction
  have := h.trails c hc hle he
  rw [htrail] at this
  contradiction

/-- Where the gaps and carriage returns after a place end. If that is no end of a line, the place
does not trail to one. -/
theorem trail_spec (h : isBoundary text place.stop = true) :
    ∃ e, place.stop + (tailOf text place).1.length = e ∧ place.stop ≤ e ∧
      isBoundary text e = true ∧ AllBetween isTrail text place.stop e ∧
      (atLineEnd (tailOf text place).2 = true → LineEnd text e) ∧
      (atLineEnd (tailOf text place).2 = false → ∀ e', ¬TrailsTo text place e') := by
  obtain ⟨rest, trail, back, htext, hstop, htail, htrail, hfirst⟩ := tailOf_spec h
  have hsize : size (rest ++ trail) = place.stop + trail.length := by
    rw [size_append, size_eq_length htrail, hstop]
  have hend : isBoundary text (size (rest ++ trail)) = true := htext ▸ isBoundary_append _ _
  have hle : place.stop ≤ size (rest ++ trail) := by omega
  have htrails : AllBetween isTrail text place.stop (size (rest ++ trail)) := by
    rw [← all_slice_iff h hend hle, htext, ← hstop, slice_append, List.all_eq_true]
    exact htrail
  rw [htail]
  refine ⟨size (rest ++ trail), hsize.symm, hle, hend, htrails, fun hat => ?_, fun hat e' h' => ?_⟩
  · cases back with
    | nil => exact .inl (by rw [htext, List.append_nil])
    | cons c back =>
      have hc : c = '\n' := by simpa [atLineEnd] using hat
      exact .inr ⟨⟨size (rest ++ trail), c⟩, htext ▸ mem_cells_append _ c back, hc, rfl⟩
  · cases back with
    | nil => simp [atLineEnd] at hat
    | cons c back =>
      have hc : c ≠ '\n' := by simpa [atLineEnd] using hat
      have hctrail : isTrail c = false := hfirst c (by simp)
      have hmem : (⟨size (rest ++ trail), c⟩ : Cell) ∈ cells text :=
        htext ▸ mem_cells_append _ c back
      exact not_trailsTo hmem hctrail hc hle htrails e' h'

/-! ### Widened places -/

/-- What becomes of the place of a deletion. -/
inductive Widens (text : List Char) (place : Place) : Place → Prop
  /-- Alone on its line, it takes the line with its end. -/
  | alone {s e : Nat} : LeadsFrom text place s → TrailsTo text place e →
      Widens text place { place with start := s, stop := min (e + 1) (size text) }
  /-- At the end of a line, it takes the gaps before it. -/
  | trailing {s e : Nat} : s ≤ place.start → isBoundary text s = true →
      AllBetween isGap text s place.start → (∀ s', ¬LeadsFrom text place s') →
      TrailsTo text place e → Widens text place { place with start := s }
  | inline : (∀ e, ¬TrailsTo text place e) → Widens text place place

theorem widens_widened (hs : isBoundary text place.start = true)
    (he : isBoundary text place.stop = true) : Widens text place (widened text place) := by
  obtain ⟨s, hsub, hsle, hsb, hgaps, hline, hnone⟩ := lead_spec hs
  obtain ⟨e, hadd, hele, heb, htrails, heline, henone⟩ := trail_spec he
  cases hback : atLineEnd (tailOf text place).2 with
  | false =>
    simp only [widened, hback, Bool.false_eq_true, if_false]
    exact .inline (henone hback)
  | true =>
    have hto : TrailsTo text place e := ⟨heline hback, hele, htrails⟩
    cases hfront : atLineEnd (headOf text place).2 with
    | false =>
      simp only [widened, hback, hfront, Bool.false_eq_true, if_true, if_false, hsub]
      exact .trailing hsle hsb hgaps (hnone hfront) hto
    | true =>
      simp only [widened, hback, hfront, if_true, hsub, hadd]
      exact .alone ⟨hline hfront, hsle, hgaps⟩ hto

theorem LineEnd.min_cases {e : Nat} (h : LineEnd text e) :
    min (e + 1) (size text) = size text ∧ e = size text ∨
      ∃ c ∈ cells text, c.char = '\n' ∧ c.start = e ∧ c.stop = min (e + 1) (size text) := by
  rcases h with rfl | ⟨c, hc, hn, rfl⟩
  · exact .inl ⟨by omega, rfl⟩
  · have hstop : c.stop = c.start + 1 := by rw [Cell.stop, hn]; rfl
    have := stop_le_of_mem hc
    exact .inr ⟨c, hc, hn, rfl, by omega⟩

theorem LineEnd.isBoundary_next {e : Nat} (h : LineEnd text e) :
    Text.isBoundary text (min (e + 1) (size text)) = true := by
  rcases h.min_cases with ⟨hmin, -⟩ | ⟨c, hc, -, -, hmin⟩
  · rw [hmin, isBoundary_size]
  · rw [← hmin, isBoundary_stop hc]

/-- The line end after a place is a blank, too. -/
theorem TrailsTo.blanks {e : Nat} (h : TrailsTo text place e) :
    AllBetween Unicode.isBlank text place.stop (min (e + 1) (size text)) := by
  intro c hc h1 h2
  by_cases hce : c.start < e
  · exact isBlank_of_isTrail (h.trails c hc h1 hce)
  · rcases h.lineEnd.min_cases with ⟨-, he⟩ | ⟨n, hn, hchar, hne, -⟩
    · have := stop_le_of_mem hc
      have := c.start_lt_stop
      omega
    · rw [cell_eq_of_start hc hn (by omega), hchar]
      decide

/-- A place reaches into the blanks around it: before it over gaps, after it up to a line end. -/
structure Extends (text : List Char) (place wide : Place) : Prop where
  start_le : wide.start ≤ place.start
  le_stop : place.stop ≤ wide.stop
  start_boundary : isBoundary text wide.start = true
  stop_boundary : isBoundary text wide.stop = true
  gaps : AllBetween isGap text wide.start place.start
  blanks : AllBetween Unicode.isBlank text place.stop wide.stop
  last : place.stop < wide.stop →
    wide.stop = size text ∨ ∃ c ∈ cells text, c.char = '\n' ∧ c.stop = wide.stop

theorem Extends.refl (hs : isBoundary text place.start = true)
    (he : isBoundary text place.stop = true) : Extends text place place where
  start_le := Nat.le_refl _
  le_stop := Nat.le_refl _
  start_boundary := hs
  stop_boundary := he
  gaps := fun c _ h1 h2 => absurd h2 (by omega)
  blanks := fun c _ h1 h2 => absurd h2 (by omega)
  last := fun h => absurd h (Nat.lt_irrefl _)

theorem Extends.leadBlanks {wide : Place} (h : Extends text place wide) :
    AllBetween Unicode.isBlank text wide.start place.start :=
  h.gaps.imp fun _ hc => isBlank_of_isTrail (isTrail_of_isGap hc)

theorem extends_line {s e : Nat} (hs : LeadsFrom text place s) (he : TrailsTo text place e) :
    Extends text place { place with start := s, stop := min (e + 1) (size text) } := by
  have hsize := le_size_of_isBoundary he.lineEnd.isBoundary
  have hstop := he.stop_le
  refine ⟨hs.le_start, by simp only; omega, hs.lineStart.isBoundary, he.lineEnd.isBoundary_next,
    hs.gaps, he.blanks, fun _ => ?_⟩
  rcases he.lineEnd.min_cases with ⟨h, -⟩ | ⟨c, hc, hn, -, h⟩
  · exact .inl h
  · exact .inr ⟨c, hc, hn, h⟩

variable {wide : Place}

theorem Widens.extends (hs : isBoundary text place.start = true)
    (he : isBoundary text place.stop = true) (h : Widens text place wide) :
    Extends text place wide := by
  cases h with
  | alone hlead htrail => exact extends_line hlead htrail
  | trailing hle hb hg _ _ =>
    exact { Extends.refl hs he with start_le := hle, start_boundary := hb, gaps := hg }
  | inline => exact Extends.refl hs he

/-- A newline after a place goes with it exactly when it ends a line that the place has alone. -/
theorem Widens.newline_iff (h : Widens text place wide) {c : Cell} (hc : c ∈ cells text)
    (hn : c.char = '\n') (hle : place.stop ≤ c.start) :
    c.start < wide.stop ↔ (∃ s, LeadsFrom text place s) ∧ TrailsTo text place c.start := by
  cases h with
  | @alone s e hlead htrail =>
    have hec := htrail.newline hc hn hle
    have hsize := stop_le_of_mem hc
    have hlt := c.start_lt_stop
    constructor
    · intro hlt
      have he : e = c.start := by simp only at hlt; omega
      exact ⟨⟨s, hlead⟩, he ▸ htrail⟩
    · rintro ⟨-, htrail'⟩
      have := htrail.unique htrail'
      simp only
      omega
  | trailing _ _ _ hnone =>
    refine ⟨fun h => absurd h (by simp only; omega), ?_⟩
    rintro ⟨⟨s, hs⟩, -⟩
    exact absurd hs (hnone s)
  | inline hnone =>
    refine ⟨fun h => absurd h (by omega), ?_⟩
    rintro ⟨-, htrail⟩
    exact absurd htrail (hnone _)

/-! ### Solid places -/

/-- A piece of the text that begins and ends with characters that are no blanks, as comments do. -/
structure Solid (text : List Char) (place : Place) : Prop where
  start_lt_stop : place.start < place.stop
  start_boundary : isBoundary text place.start = true
  stop_boundary : isBoundary text place.stop = true
  first : ∀ c ∈ cells text, c.start = place.start → Unicode.isBlank c.char = false
  last : ∀ c ∈ cells text, c.stop = place.stop → Unicode.isBlank c.char = false

instance (text : List Char) (place : Place) : Decidable (Solid text place) :=
  decidable_of_iff (place.start < place.stop ∧ isBoundary text place.start = true ∧
      isBoundary text place.stop = true ∧
      (∀ c ∈ cells text, c.start = place.start → Unicode.isBlank c.char = false) ∧
      ∀ c ∈ cells text, c.stop = place.stop → Unicode.isBlank c.char = false)
    ⟨fun ⟨h1, h2, h3, h4, h5⟩ => ⟨h1, h2, h3, h4, h5⟩,
      fun ⟨h1, h2, h3, h4, h5⟩ => ⟨h1, h2, h3, h4, h5⟩⟩

theorem Solid.stop_le_size (h : Solid text place) : place.stop ≤ size text :=
  le_size_of_isBoundary h.stop_boundary

theorem Solid.exists_first (h : Solid text place) :
    ∃ c ∈ cells text, c.start = place.start ∧ Unicode.isBlank c.char = false := by
  have := h.start_lt_stop
  have := h.stop_le_size
  obtain ⟨c, hc, hstart⟩ := exists_cell_start h.start_boundary (by omega)
  exact ⟨c, hc, hstart, h.first c hc hstart⟩

theorem Solid.le_start (h : Solid text place) {x y : Nat}
    (hb : AllBetween Unicode.isBlank text x y) (hx : x ≤ place.start) : y ≤ place.start := by
  by_cases hy : place.start < y
  · obtain ⟨c, hc, hstart, hfirst⟩ := h.exists_first
    have := hb c hc (by omega) (by omega)
    rw [hfirst] at this
    contradiction
  · omega

theorem Solid.stop_le (h : Solid text place) {x y : Nat} (hxb : isBoundary text x = true)
    (hb : AllBetween Unicode.isBlank text x y) (hy : place.stop ≤ y) : place.stop ≤ x := by
  by_cases hx : x < place.stop
  · obtain ⟨c, hc, hstop⟩ := exists_cell_stop h.stop_boundary (by omega)
    have := start_of_isBoundary hc hxb (by omega)
    have := c.start_lt_stop
    have := hb c hc (by omega) (by omega)
    rw [h.last c hc hstop] at this
    contradiction
  · omega

/-- Solid places stay in order when they reach into the blanks around them: a line end that the
first one takes is no gap before the second one. -/
theorem Extends.stop_le_start {a b a' b' : Place} (ha : Solid text a) (hb : Solid text b)
    (hab : a.stop ≤ b.start) (ha' : Extends text a a') (hb' : Extends text b b') :
    a'.stop ≤ b'.start := by
  have h1 : a'.stop ≤ b.start := hb.le_start ha'.blanks hab
  have h2 : a.stop ≤ b'.start := ha.stop_le hb'.start_boundary hb'.leadBlanks hab
  by_cases hlt : b'.start < a'.stop
  · rcases ha'.last (by omega) with h | ⟨c, hc, hn, hstop⟩
    · have := hb.start_lt_stop
      have := hb.stop_le_size
      omega
    · have := c.start_lt_stop
      have := start_of_isBoundary hc hb'.start_boundary (by omega)
      have := hb'.gaps c hc (by omega) (by omega)
      rw [hn, isGap_newline] at this
      contradiction
  · omega

end Marginalia.Patch
