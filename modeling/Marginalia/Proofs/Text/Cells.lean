import Marginalia.Proofs.Sequence
import Marginalia.Text.Offset

/-! The characters of a text with the offsets at which they begin. An offset is a boundary exactly
when it cuts the text in two, and the characters between two boundaries are those of the slice. -/

namespace Marginalia.Text

/-- A character of a text and the offset at which it begins. -/
structure Cell where
  start : Nat
  char : Char
  deriving DecidableEq, Repr

namespace Cell

/-- The offset after a character. -/
def stop (c : Cell) : Nat := c.start + c.char.utf8Size

theorem start_lt_stop (c : Cell) : c.start < c.stop :=
  Nat.lt_add_of_pos_right c.char.utf8Size_pos

end Cell

/-- The characters of a text that begins at an offset. -/
def cellsFrom (offset : Nat) : List Char → List Cell
  | [] => []
  | c :: rest => ⟨offset, c⟩ :: cellsFrom (offset + c.utf8Size) rest

def cells (text : List Char) : List Cell := cellsFrom 0 text

/-- The characters that begin in a range. -/
def cellsIn (text : List Char) (start stop : Nat) : List Cell :=
  (cells text).filter fun c => start ≤ c.start && c.start < stop

theorem mem_cellsIn {text : List Char} {start stop : Nat} {c : Cell} :
    c ∈ cellsIn text start stop ↔ c ∈ cells text ∧ start ≤ c.start ∧ c.start < stop := by
  simp [cellsIn]

/-- Every character that begins in a range is of a kind. -/
def AllBetween (p : Char → Bool) (text : List Char) (start stop : Nat) : Prop :=
  ∀ c ∈ cells text, start ≤ c.start → c.start < stop → p c.char = true

instance (p : Char → Bool) (text : List Char) (start stop : Nat) :
    Decidable (AllBetween p text start stop) :=
  inferInstanceAs (Decidable (∀ c ∈ cells text, _))

theorem AllBetween.mono {p : Char → Bool} {text : List Char} {start stop start' stop' : Nat}
    (h : AllBetween p text start stop) (hs : start ≤ start') (he : stop' ≤ stop) :
    AllBetween p text start' stop' :=
  fun c hc h1 h2 => h c hc (by omega) (by omega)

theorem AllBetween.imp {p q : Char → Bool} {text : List Char} {start stop : Nat}
    (h : AllBetween p text start stop) (hpq : ∀ c, p c = true → q c = true) :
    AllBetween q text start stop :=
  fun c hc h1 h2 => hpq _ (h c hc h1 h2)

theorem AllBetween.trans {p : Char → Bool} {text : List Char} {start middle stop : Nat}
    (h1 : AllBetween p text start middle) (h2 : AllBetween p text middle stop) :
    AllBetween p text start stop := by
  intro c hc hs he
  by_cases hm : c.start < middle
  · exact h1 c hc hs hm
  · exact h2 c hc (by omega) he

/-! ### Cells -/

theorem cellsFrom_append (offset : Nat) (a b : List Char) :
    cellsFrom offset (a ++ b) = cellsFrom offset a ++ cellsFrom (offset + size a) b := by
  induction a generalizing offset with
  | nil => simp [cellsFrom, size]
  | cons c rest ih => simp [cellsFrom, size, ih, Nat.add_assoc]

@[simp] theorem map_char_cellsFrom (offset : Nat) (text : List Char) :
    (cellsFrom offset text).map Cell.char = text := by
  induction text generalizing offset with
  | nil => rfl
  | cons c rest ih => simp [cellsFrom, ih]

theorem start_le_of_mem {offset : Nat} {text : List Char} {c : Cell}
    (h : c ∈ cellsFrom offset text) : offset ≤ c.start := by
  induction text generalizing offset with
  | nil => simp [cellsFrom] at h
  | cons d rest ih =>
    rcases List.mem_cons.1 h with rfl | h
    · exact Nat.le_refl _
    · have := ih h
      omega

theorem stop_le_of_mem {offset : Nat} {text : List Char} {c : Cell}
    (h : c ∈ cellsFrom offset text) : c.stop ≤ offset + size text := by
  induction text generalizing offset with
  | nil => simp [cellsFrom] at h
  | cons d rest ih =>
    rcases List.mem_cons.1 h with rfl | h
    · simp only [Cell.stop, size]
      omega
    · have := ih h
      simp only [size]
      omega

theorem cellsFrom_pairwise (offset : Nat) (text : List Char) :
    (cellsFrom offset text).Pairwise fun c d => c.stop ≤ d.start := by
  induction text generalizing offset with
  | nil => exact List.Pairwise.nil
  | cons c rest ih => exact List.Pairwise.cons (fun d hd => start_le_of_mem hd) (ih _)

theorem eq_or_stop_le {text : List Char} {c d : Cell} (hc : c ∈ cells text) (hd : d ∈ cells text) :
    c = d ∨ c.stop ≤ d.start ∨ d.stop ≤ c.start := by
  exact eq_or_rel_of_pairwise (cellsFrom_pairwise 0 text) hc hd

theorem stop_le_start {text : List Char} {c d : Cell} (hc : c ∈ cells text) (hd : d ∈ cells text)
    (h : c.start < d.start) : c.stop ≤ d.start := by
  have := d.start_lt_stop
  rcases eq_or_stop_le hc hd with rfl | h1 | h1 <;> omega

theorem cell_eq_of_start {text : List Char} {c d : Cell} (hc : c ∈ cells text)
    (hd : d ∈ cells text) (h : c.start = d.start) : c = d := by
  have := c.start_lt_stop
  have := d.start_lt_stop
  rcases eq_or_stop_le hc hd with rfl | h1 | h1
  · rfl
  · omega
  · omega

/-! ### Boundaries -/

@[simp] theorem isBoundary_zero (text : List Char) : isBoundary text 0 = true := by
  cases text <;> rfl

theorem isBoundary_append (a b : List Char) : isBoundary (a ++ b) (size a) = true := by
  induction a with
  | nil => simp [size]
  | cons c rest ih => simp [isBoundary, size, ih]

theorem exists_append_of_isBoundary {text : List Char} {offset : Nat}
    (h : isBoundary text offset = true) : ∃ a b, text = a ++ b ∧ size a = offset :=
  ⟨before text offset, after text offset, (before_append_after text offset).symm, size_before h⟩

theorem le_size_of_isBoundary {text : List Char} {offset : Nat}
    (h : isBoundary text offset = true) : offset ≤ size text := by
  obtain ⟨a, b, rfl, rfl⟩ := exists_append_of_isBoundary h
  simp [size_append]

theorem exists_append_of_isBoundary₂ {text : List Char} {start stop : Nat}
    (hs : isBoundary text start = true) (he : isBoundary text stop = true) (h : start ≤ stop) :
    ∃ a b c, text = a ++ b ++ c ∧ size a = start ∧ size (a ++ b) = stop := by
  obtain ⟨a, r, rfl, rfl⟩ := exists_append_of_isBoundary hs
  obtain ⟨p, c, hp, rfl⟩ := exists_append_of_isBoundary he
  rcases List.append_eq_append_iff.1 hp with ⟨b, rfl, rfl⟩ | ⟨b, rfl, rfl⟩
  · exact ⟨a, b, c, by simp, rfl, rfl⟩
  · have hb : size b = 0 := by
      rw [size_append] at h
      omega
    exact ⟨p ++ b, [], r, by simp, rfl, by simp [size_append, hb]⟩

theorem exists_append_of_mem {text : List Char} {c : Cell} (h : c ∈ cells text) :
    ∃ a b, text = a ++ c.char :: b ∧ size a = c.start := by
  suffices ∀ offset text, c ∈ cellsFrom offset text →
      ∃ a b, text = a ++ c.char :: b ∧ offset + size a = c.start by
    obtain ⟨a, b, ht, ha⟩ := this 0 text h
    exact ⟨a, b, ht, by omega⟩
  intro offset text h
  induction text generalizing offset with
  | nil => simp [cellsFrom] at h
  | cons d rest ih =>
    rcases List.mem_cons.1 h with rfl | h
    · exact ⟨[], rest, rfl, rfl⟩
    · obtain ⟨a, b, rfl, ha⟩ := ih _ h
      exact ⟨d :: a, b, rfl, by simp only [size]; omega⟩

theorem isBoundary_start {text : List Char} {c : Cell} (h : c ∈ cells text) :
    isBoundary text c.start = true := by
  obtain ⟨a, b, rfl, ha⟩ := exists_append_of_mem h
  exact ha ▸ isBoundary_append a _

theorem isBoundary_stop {text : List Char} {c : Cell} (h : c ∈ cells text) :
    isBoundary text c.stop = true := by
  obtain ⟨a, b, rfl, ha⟩ := exists_append_of_mem h
  have := isBoundary_append (a ++ [c.char]) b
  simpa [size_append, size, ha, Cell.stop] using this

/-- No boundary cuts a character. -/
theorem stop_le_of_isBoundary {text : List Char} {c : Cell} {offset : Nat} (hc : c ∈ cells text)
    (h : isBoundary text offset = true) (hlt : c.start < offset) : c.stop ≤ offset := by
  obtain ⟨a, b, rfl, rfl⟩ := exists_append_of_isBoundary h
  rw [cells, cellsFrom_append, List.mem_append, Nat.zero_add] at hc
  rcases hc with hc | hc
  · simpa using stop_le_of_mem hc
  · have := start_le_of_mem hc
    omega

theorem mem_cells_append (a : List Char) (c : Char) (b : List Char) :
    ⟨size a, c⟩ ∈ cells (a ++ c :: b) := by
  simp [cells, cellsFrom_append, cellsFrom]

theorem exists_cell_start {text : List Char} {offset : Nat} (h : isBoundary text offset = true)
    (hlt : offset < size text) : ∃ c ∈ cells text, c.start = offset := by
  obtain ⟨a, b, rfl, rfl⟩ := exists_append_of_isBoundary h
  cases b with
  | nil => simp at hlt
  | cons d b => exact ⟨⟨size a, d⟩, mem_cells_append a d b, rfl⟩

theorem exists_cell_stop {text : List Char} {offset : Nat} (h : isBoundary text offset = true)
    (hlt : 0 < offset) : ∃ c ∈ cells text, c.stop = offset := by
  obtain ⟨a, b, rfl, rfl⟩ := exists_append_of_isBoundary h
  rcases List.eq_nil_or_concat a with rfl | ⟨a, d, rfl⟩
  · simp [size] at hlt
  · exact ⟨⟨size a, d⟩, by simp [cells, cellsFrom_append, cellsFrom],
      by simp [Cell.stop, size_append, size]⟩

@[simp] theorem before_append (a b : List Char) : before (a ++ b) (size a) = a := by
  induction a with
  | nil => simp [size]
  | cons c rest ih =>
    have := c.utf8Size_pos
    simp only [List.cons_append, before, size, Nat.add_sub_cancel_left, ih]
    rw [if_neg (by omega)]

@[simp] theorem after_append (a b : List Char) : after (a ++ b) (size a) = b := by
  induction a with
  | nil => simp [size]
  | cons c rest ih =>
    have := c.utf8Size_pos
    simp only [List.cons_append, after, size, Nat.add_sub_cancel_left, ih]
    rw [if_neg (by omega)]

theorem slice_append (a b c : List Char) : slice (a ++ b ++ c) (size a) (size (a ++ b)) = b := by
  rw [slice, List.append_assoc, after_append, size_append, Nat.add_sub_cancel_left, before_append]

theorem before_append_slice {text : List Char} {start stop : Nat}
    (hs : isBoundary text start = true) (he : isBoundary text stop = true) (h : start ≤ stop) :
    before text start ++ slice text start stop = before text stop := by
  obtain ⟨a, b, c, rfl, rfl, rfl⟩ := exists_append_of_isBoundary₂ hs he h
  rw [slice_append, before_append, List.append_assoc, before_append]

theorem slice_append_after {text : List Char} {start stop : Nat}
    (hs : isBoundary text start = true) (he : isBoundary text stop = true) (h : start ≤ stop) :
    slice text start stop ++ after text stop = after text start := by
  obtain ⟨a, b, c, rfl, rfl, rfl⟩ := exists_append_of_isBoundary₂ hs he h
  rw [slice_append, after_append, List.append_assoc, after_append]

/-! ### Ranges of characters -/

theorem cellsIn_append (text : List Char) {start middle stop : Nat} (h1 : start ≤ middle)
    (h2 : middle ≤ stop) :
    cellsIn text start middle ++ cellsIn text middle stop = cellsIn text start stop := by
  simp only [cellsIn]
  have hsorted : (cells text).Pairwise fun c d => c.stop ≤ d.start := cellsFrom_pairwise 0 text
  generalize cells text = l at hsorted
  induction hsorted with
  | nil => rfl
  | @cons c rest hc _ ih =>
    by_cases hm : c.start < middle
    · have h3 : c.start < stop := by omega
      by_cases hs : start ≤ c.start <;> simp [hm, h3, hs, Nat.not_le.2 hm, ← ih]
    · have hrest : rest.filter (fun d => start ≤ d.start && d.start < middle) = [] := by
        rw [List.filter_eq_nil_iff]
        intro d hd
        have := hc d hd
        have := c.start_lt_stop
        simp
        omega
      have hm' : middle ≤ c.start := by omega
      have hs : start ≤ c.start := by omega
      rw [hrest, List.nil_append] at ih
      simp [hm, hm', hs, hrest, List.filter_cons, ih]

theorem cellsIn_whole (text : List Char) : cellsIn text 0 (size text) = cells text := by
  rw [cellsIn, List.filter_eq_self]
  intro c hc
  have := stop_le_of_mem hc
  have := c.start_lt_stop
  simp
  omega

theorem cellsIn_eq {text : List Char} {start stop : Nat} (hs : isBoundary text start = true)
    (he : isBoundary text stop = true) (h : start ≤ stop) :
    cellsIn text start stop = cellsFrom start (slice text start stop) := by
  obtain ⟨a, b, c, rfl, rfl, rfl⟩ := exists_append_of_isBoundary₂ hs he h
  rw [slice_append, cellsIn, cells, cellsFrom_append, cellsFrom_append, List.filter_append,
    List.filter_append]
  have ha : (cellsFrom 0 a).filter (fun d => size a ≤ d.start && d.start < size (a ++ b)) = [] := by
    rw [List.filter_eq_nil_iff]
    intro d hd
    have := stop_le_of_mem hd
    have := d.start_lt_stop
    simp
    omega
  have hb : (cellsFrom (0 + size a) b).filter
      (fun d => size a ≤ d.start && d.start < size (a ++ b)) = cellsFrom (size a) b := by
    rw [Nat.zero_add, List.filter_eq_self]
    intro d hd
    have := start_le_of_mem hd
    have := stop_le_of_mem hd
    have := d.start_lt_stop
    simp [size_append]
    omega
  have hc : (cellsFrom (0 + size (a ++ b)) c).filter
      (fun d => size a ≤ d.start && d.start < size (a ++ b)) = [] := by
    rw [List.filter_eq_nil_iff]
    intro d hd
    have := start_le_of_mem hd
    simp
    omega
  rw [ha, hb, hc, List.nil_append, List.append_nil]

theorem cellsIn_cell {text : List Char} {c : Cell} (h : c ∈ cells text) :
    cellsIn text c.start c.stop = [c] := by
  obtain ⟨a, b, ht, ha⟩ := exists_append_of_mem h
  have hstop : size (a ++ [c.char]) = c.stop := by simp [size_append, size, Cell.stop, ha]
  have hslice := slice_append a [c.char] b
  rw [List.append_assoc, List.singleton_append, ← ht, ha, hstop] at hslice
  rw [cellsIn_eq (isBoundary_start h) (isBoundary_stop h) (Nat.le_of_lt c.start_lt_stop), hslice]
  rfl

theorem map_char_cellsIn {text : List Char} {start stop : Nat} (hs : isBoundary text start = true)
    (he : isBoundary text stop = true) (h : start ≤ stop) :
    (cellsIn text start stop).map Cell.char = slice text start stop := by
  rw [cellsIn_eq hs he h, map_char_cellsFrom]

theorem size_slice {text : List Char} {start stop : Nat} (hs : isBoundary text start = true)
    (he : isBoundary text stop = true) (h : start ≤ stop) :
    size (slice text start stop) = stop - start := by
  obtain ⟨a, b, c, rfl, rfl, rfl⟩ := exists_append_of_isBoundary₂ hs he h
  rw [slice_append, size_append]
  omega

theorem slice_eq_nil_iff {text : List Char} {start stop : Nat} (hs : isBoundary text start = true)
    (he : isBoundary text stop = true) (h : start ≤ stop) :
    slice text start stop = [] ↔ start = stop := by
  have hsize := size_slice hs he h
  constructor
  · intro hnil
    rw [hnil, size] at hsize
    omega
  · rintro rfl
    simp [slice]

/-- Texts in two pieces of which the first ones take the same bytes are cut at the same place. -/
theorem append_inj_of_size {a b x y : List Char} (h : a ++ x = b ++ y) (hsize : size a = size b) :
    a = b ∧ x = y := by
  have hempty : ∀ l : List Char, size l = 0 → l = [] := by
    intro l hl
    cases l with
    | nil => rfl
    | cons c rest =>
      have := c.utf8Size_pos
      rw [size] at hl
      omega
  rcases List.append_eq_append_iff.1 h with ⟨l, rfl, rfl⟩ | ⟨l, rfl, rfl⟩
  · rw [size_append] at hsize
    obtain rfl := hempty l (by omega)
    simp
  · rw [size_append] at hsize
    obtain rfl := hempty l (by omega)
    simp

theorem slice_size {text : List Char} {start : Nat} (h : isBoundary text start = true) :
    slice text start (size text) = after text start := by
  obtain ⟨a, b, rfl, rfl⟩ := exists_append_of_isBoundary h
  have := slice_append a b []
  rw [List.append_nil] at this
  rw [this, after_append]

theorem all_slice_iff {p : Char → Bool} {text : List Char} {start stop : Nat}
    (hs : isBoundary text start = true) (he : isBoundary text stop = true) (h : start ≤ stop) :
    (slice text start stop).all p = true ↔ AllBetween p text start stop := by
  rw [← map_char_cellsIn hs he h, List.all_map, List.all_eq_true]
  exact ⟨fun hall c hc h1 h2 => hall c (mem_cellsIn.2 ⟨hc, h1, h2⟩),
    fun hall c hc => hall c (mem_cellsIn.1 hc).1 (mem_cellsIn.1 hc).2.1 (mem_cellsIn.1 hc).2.2⟩

end Marginalia.Text
