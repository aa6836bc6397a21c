import Marginalia.Proofs.Text.Bytes
import Marginalia.Proofs.Text.Cells
import Marginalia.Text.Line

/-! Lines by their numbers and by their offsets. Halving finds where the offsets of an ascending list
pass another one, so the line of an offset is told by the newlines before it; a line's number and its
bounds determine each other, and the lines with the newlines between them are the text. -/

namespace Marginalia.Text

variable {text : List Char} {line offset : Nat}

/-! ### Halving -/

section Partition

variable {α : Type} {p : α → Bool} {entries : Array α} {front back : List α}

/-- The range that is halved always holds the place where the test begins to fail. -/
theorem partitionWithin_eq (hentries : entries.toList = front ++ back)
    (hfront : ∀ x ∈ front, p x = true) (hback : ∀ x ∈ back, p x = false) {low high : Nat}
    (h : high ≤ entries.size) (hlow : low ≤ front.length) (hhigh : front.length ≤ high) :
    partitionWithin p entries low high h = front.length := by
  fun_induction partitionWithin p entries low high h with
  | case1 low high h hlt middle hmiddle hpass ih =>
    -- An entry that passes is none of those behind.
    refine ih (Nat.lt_of_not_le fun hle => ?_) hhigh
    have hmem : entries[middle] ∈ back := by
      rw [← Array.getElem_toList]
      simp only [hentries, List.getElem_append_right hle, List.getElem_mem]
    rw [hback _ hmem] at hpass
    cases hpass
  | case2 low high h hlt middle hmiddle hfail ih =>
    refine ih hlow (Nat.le_of_not_lt fun hlt => hfail (hfront _ ?_))
    rw [← Array.getElem_toList]
    simp only [hentries, List.getElem_append_left hlt, List.getElem_mem]
  | case3 low high h hle => omega

theorem partitionPoint_eq (hentries : entries.toList = front ++ back)
    (hfront : ∀ x ∈ front, p x = true) (hback : ∀ x ∈ back, p x = false) :
    partitionPoint p entries = front.length := by
  have hsize : front.length ≤ entries.size := by
    rw [← Array.length_toList, hentries, List.length_append]
    exact Nat.le_add_right _ _
  exact partitionWithin_eq hentries hfront hback _ (Nat.zero_le _) hsize

end Partition

/-! ### Newlines -/

section Newlines

variable {source : List UInt8}

theorem newlineStops_append (offset : Nat) (a b : List UInt8) :
    newlineStops offset (a ++ b) = newlineStops offset a ++ newlineStops (offset + a.length) b := by
  simp only [newlineStops, List.zipIdx_append, List.filter_append, List.map_append]

theorem newlineStops_newline (offset : Nat) (rest : List UInt8) :
    newlineStops offset (newline :: rest) = (offset + 1) :: newlineStops (offset + 1) rest := rfl

theorem length_newlineStops (offset : Nat) (source : List UInt8) :
    (newlineStops offset source).length = source.count newline := by
  rw [newlineStops, List.length_map, ← List.countP_eq_length_filter]
  conv_rhs => rw [← List.zipIdx_map_fst offset source, List.count, List.countP_map]
  rfl

/-- A newline ends after the offset where the bytes begin, and with the bytes at the latest. -/
theorem bounds_of_mem_newlineStops {stop : Nat} (h : stop ∈ newlineStops offset source) :
    offset < stop ∧ stop ≤ offset + source.length := by
  obtain ⟨⟨byte, start⟩, hmem, rfl⟩ := List.mem_map.1 h
  obtain ⟨hleast, hmost, -⟩ := List.mem_zipIdx (List.mem_of_mem_filter hmem)
  exact ⟨Nat.lt_succ_of_le hleast, hmost⟩

end Newlines

theorem bytes_append (a b : List Char) : bytes (a ++ b) = bytes a ++ bytes b :=
  List.flatMap_append

theorem length_bytes (text : List Char) : (bytes text).length = size text := by
  induction text with
  | nil => rfl
  | cons c rest ih =>
    rw [← List.singleton_append, bytes_append, List.length_append, ih]
    simp [bytes, size, String.length_utf8EncodeChar]

theorem newline_mem_bytes_iff : newline ∈ bytes text ↔ '\n' ∈ text :=
  mem_bytes_iff (c := '\n') (by decide)

theorem count_newline_bytes (text : List Char) : (bytes text).count newline = text.count '\n' := by
  induction text with
  | nil => rfl
  | cons c rest ih =>
    rw [← List.singleton_append, bytes_append, List.count_append, ih, List.count_append]
    congr 1
    by_cases hc : c = '\n'
    · subst hc
      rfl
    · have hchar : '\n' ∉ [c] := fun h => hc (List.mem_singleton.1 h).symm
      have hbyte : newline ∉ bytes [c] := fun h => hchar (newline_mem_bytes_iff.1 h)
      rw [List.count_eq_zero_of_not_mem hchar, List.count_eq_zero_of_not_mem hbyte]

/-! ### The line of an offset -/

/-- Up to an offset one more line begins than newlines stand before it. -/
theorem partitionPoint_lineStarts (text : List Char) (offset : Nat) :
    partitionPoint (· ≤ offset) (lineStarts text) =
      ((bytes text).take offset).count newline + 1 := by
  have hstarts : (lineStarts text).toList =
      (0 :: newlineStops 0 ((bytes text).take offset)) ++
        newlineStops (0 + ((bytes text).take offset).length) ((bytes text).drop offset) := by
    rw [List.cons_append, ← newlineStops_append, List.take_append_drop]
    rfl
  rw [partitionPoint_eq hstarts, List.length_cons, length_newlineStops]
  · intro start hstart
    rcases List.mem_cons.1 hstart with rfl | hstart
    · simp
    · have hmost := (bounds_of_mem_newlineStops hstart).2
      rw [List.length_take] at hmost
      simp only [decide_eq_true_eq]
      omega
  · intro start hstart
    obtain ⟨hleast, hmost⟩ := bounds_of_mem_newlineStops hstart
    rw [List.length_take] at hleast hmost
    rw [List.length_drop] at hmost
    simp only [decide_eq_false_iff_not]
    omega

theorem lineOf_eq_count (text : List Char) (offset : Nat) :
    lineOf text offset = ((bytes text).take offset).count newline := by
  rw [lineOf, partitionPoint_lineStarts, Nat.add_sub_cancel]

theorem lineOf_append (a b : List Char) : lineOf (a ++ b) (size a) = a.count '\n' := by
  rw [lineOf_eq_count, bytes_append, ← length_bytes, List.take_left, count_newline_bytes]

theorem lineOf_le (text : List Char) {start stop : Nat} (h : start ≤ stop) :
    lineOf text start ≤ lineOf text stop := by
  rw [lineOf_eq_count, lineOf_eq_count]
  exact (List.take_sublist_take_left h).count_le _

theorem lineCount_eq (text : List Char) : lineCount text = text.count '\n' + 1 := by
  rw [lineCount, lineStarts, List.size_toArray, List.length_cons, length_newlineStops,
    count_newline_bytes]

theorem lineOf_lt_lineCount (text : List Char) (offset : Nat) :
    lineOf text offset < lineCount text := by
  rw [lineOf_eq_count, lineCount_eq, ← count_newline_bytes]
  exact Nat.lt_succ_of_le ((List.take_sublist _ _).count_le _)

/-! ### The bounds of a line -/

/-- Every line but the first begins after a newline, the one of its number. -/
theorem lineStarts_of_append (a b : List Char) :
    (lineStarts (a ++ '\n' :: b))[a.count '\n' + 1]? = some (size a + 1) := by
  have hbytes : bytes (a ++ '\n' :: b) = bytes a ++ newline :: bytes b := bytes_append _ _
  have hcount : (newlineStops 0 (bytes a)).length = a.count '\n' := by
    rw [length_newlineStops, count_newline_bytes]
  rw [lineStarts, List.getElem?_toArray, List.getElem?_cons_succ, hbytes, newlineStops_append,
    ← hcount, List.getElem?_append_right (Nat.le_refl _), Nat.sub_self, newlineStops_newline,
    List.getElem?_cons_zero, length_bytes, Nat.zero_add]

theorem lineStarts_of_le (h : lineCount text ≤ line) : (lineStarts text)[line]? = none :=
  Array.getElem?_eq_none h

theorem lineBounds_of_start {start : Nat} (h : (lineStarts text)[line]? = some start) :
    lineBounds text line = (start, match (lineStarts text)[line + 1]? with
      | some next => next - 1
      | none => size text) := by
  rw [lineBounds, Array.getD_eq_getD_getElem?, h]
  rfl

theorem lineBounds_of_le (h : lineCount text ≤ line) :
    lineBounds text line = (size text, size text) := by
  rw [lineBounds, lineStarts_of_le (Nat.le_succ_of_le h), Array.getD_eq_getD_getElem?,
    lineStarts_of_le h]
  rfl

/-- A text is cut at each of its newlines by how many come before. -/
theorem exists_append_of_lt_count {text : List Char} {number : Nat} (h : number < text.count '\n') :
    ∃ a b, text = a ++ '\n' :: b ∧ a.count '\n' = number := by
  induction text generalizing number with
  | nil => simp at h
  | cons c rest ih =>
    by_cases hc : c = '\n'
    · subst hc
      cases number with
      | zero => exact ⟨[], rest, rfl, rfl⟩
      | succ number =>
        obtain ⟨a, b, rfl, ha⟩ := ih (by simpa using h)
        exact ⟨'\n' :: a, b, rfl, by simp [ha]⟩
    · obtain ⟨a, b, rfl, ha⟩ := ih (by simpa [hc] using h)
      exact ⟨c :: a, b, rfl, by simp [hc, ha]⟩

/-- What stands before a line has as many newlines as there are lines before it, one of them at its
end. -/
theorem exists_lineStart (h : line < lineCount text) :
    ∃ a b, text = a ++ b ∧ (lineStarts text)[line]? = some (size a) ∧ a.count '\n' = line ∧
      (a = [] ∨ ∃ most, a = most ++ ['\n']) := by
  cases line with
  | zero => exact ⟨[], text, rfl, rfl, rfl, .inl rfl⟩
  | succ line =>
    rw [lineCount_eq] at h
    obtain ⟨most, b, rfl, hcount⟩ := exists_append_of_lt_count (Nat.lt_of_succ_lt_succ h)
    refine ⟨most ++ ['\n'], b, by simp, ?_, by simp [hcount], .inr ⟨most, rfl⟩⟩
    rw [← hcount, lineStarts_of_append, size_append]
    rfl

theorem count_append_of_notMem {before inner : List Char} (h : '\n' ∉ inner) :
    (before ++ inner).count '\n' = before.count '\n' := by
  rw [List.count_append, List.count_eq_zero_of_not_mem h, Nat.add_zero]

/-- A text that is cut around a line: `before` ends with the newline before the line, and `after`
begins with the line's own. -/
structure CutAround (text : List Char) (line : Nat) (before inner after : List Char) : Prop where
  text_eq : text = before ++ inner ++ after
  bounds_eq : lineBounds text line = (size before, size (before ++ inner))
  count_before : before.count '\n' = line
  begins : before = [] ∨ ∃ most, before = most ++ ['\n']
  notMem_inner : '\n' ∉ inner
  ends : after = [] ∨ ∃ rest, after = '\n' :: rest

theorem CutAround.count_line {before inner after : List Char}
    (h : CutAround text line before inner after) : (before ++ inner).count '\n' = line :=
  (count_append_of_notMem h.notMem_inner).trans h.count_before

theorem exists_cutAround (h : line < lineCount text) :
    ∃ before inner after, CutAround text line before inner after := by
  obtain ⟨before, more, htext, hstart, hcount, hbegins⟩ := exists_lineStart h
  by_cases hmem : '\n' ∈ more
  · obtain ⟨inner, rest, rfl, hinner⟩ := List.eq_append_cons_of_mem hmem
    have hnext : (lineStarts text)[line + 1]? = some (size (before ++ inner) + 1) := by
      rw [← hcount, ← count_append_of_notMem hinner, htext, ← List.append_assoc]
      exact lineStarts_of_append _ _
    refine ⟨before, inner, '\n' :: rest, by rw [htext, List.append_assoc], ?_, hcount, hbegins,
      hinner, .inr ⟨rest, rfl⟩⟩
    rw [lineBounds_of_start hstart, hnext]
    rfl
  · have hlast : lineCount text = line + 1 := by
      rw [lineCount_eq, htext, count_append_of_notMem hmem, hcount]
    refine ⟨before, more, [], by rw [htext, List.append_nil], ?_, hcount, hbegins, hmem, .inl rfl⟩
    rw [lineBounds_of_start hstart, lineStarts_of_le (Nat.le_of_eq hlast), htext]

/-- What stands before a line is on a line before. -/
theorem lineOf_lt (h : line < lineCount text) (hlt : offset < (lineBounds text line).1) :
    lineOf text offset < line := by
  obtain ⟨before, inner, after, hcut⟩ := exists_cutAround h
  rw [hcut.bounds_eq] at hlt
  rcases hcut.begins with rfl | ⟨most, rfl⟩
  · exact absurd hlt (Nat.not_lt_zero _)
  · have hle : offset ≤ size most := by
      rw [size_append] at hlt
      exact Nat.le_of_lt_succ hlt
    have hmost : lineOf text (size most) = most.count '\n' := by
      rw [hcut.text_eq, List.append_assoc, List.append_assoc, lineOf_append]
    have hline := hcut.count_before
    rw [List.count_append, List.count_singleton_self] at hline
    have hmono := lineOf_le text hle
    omega

/-- What stands after a line and its newline is on a line after. -/
theorem lt_lineOf (h : line < lineCount text) (hoffset : offset ≤ size text)
    (hlt : (lineBounds text line).2 < offset) : line < lineOf text offset := by
  obtain ⟨before, inner, after, hcut⟩ := exists_cutAround h
  rw [hcut.bounds_eq] at hlt
  rcases hcut.ends with rfl | ⟨rest, rfl⟩
  · rw [hcut.text_eq, List.append_nil] at hoffset
    exact absurd hlt (Nat.not_lt_of_le hoffset)
  · have hle : size (before ++ inner ++ ['\n']) ≤ offset := by
      rw [size_append]
      exact hlt
    have hnext : lineOf text (size (before ++ inner ++ ['\n'])) = line + 1 := by
      rw [hcut.text_eq, ← List.singleton_append, ← List.append_assoc, lineOf_append,
        List.count_append, hcut.count_line, List.count_singleton_self]
    have hmono := lineOf_le text hle
    omega

/-- A line begins and ends on the line of its number. -/
theorem lineOf_lineBounds (h : line < lineCount text) :
    lineOf text (lineBounds text line).1 = line ∧ lineOf text (lineBounds text line).2 = line := by
  obtain ⟨before, inner, after, hcut⟩ := exists_cutAround h
  rw [hcut.bounds_eq, hcut.text_eq]
  constructor
  · rw [List.append_assoc, lineOf_append, hcut.count_before]
  · rw [lineOf_append, hcut.count_line]

/-- The offsets within the bounds of a line, its end included, are on the line. -/
theorem lineOf_of_within (h : line < lineCount text) (hs : (lineBounds text line).1 ≤ offset)
    (he : offset ≤ (lineBounds text line).2) : lineOf text offset = line := by
  obtain ⟨hstart, hstop⟩ := lineOf_lineBounds h
  have hleast := lineOf_le text hs
  have hmost := lineOf_le text he
  rw [hstart] at hleast
  rw [hstop] at hmost
  exact Nat.le_antisymm hmost hleast

theorem within_lineOf (h : offset ≤ size text) :
    (lineBounds text (lineOf text offset)).1 ≤ offset ∧
      offset ≤ (lineBounds text (lineOf text offset)).2 := by
  have hline := lineOf_lt_lineCount text offset
  refine ⟨Nat.le_of_not_lt fun hlt => ?_, Nat.le_of_not_lt fun hlt => ?_⟩
  · exact Nat.lt_irrefl _ (lineOf_lt hline hlt)
  · exact Nat.lt_irrefl _ (lt_lineOf hline h hlt)

/-! ### Lines in order -/

/-- The bytes of a line. -/
def lineBytes (text : List Char) (line : Nat) : List UInt8 :=
  (bytes text).extract (lineBounds text line).1 (lineBounds text line).2

theorem CutAround.lineBytes_eq {before inner after : List Char}
    (h : CutAround text line before inner after) : lineBytes text line = bytes inner := by
  have hbytes : bytes text = bytes before ++ (bytes inner ++ bytes after) := by
    rw [h.text_eq, List.append_assoc, bytes_append, bytes_append]
  rw [lineBytes, h.bounds_eq, List.extract_eq_take_drop, hbytes, ← length_bytes, List.drop_left,
    size_append, length_bytes, Nat.add_sub_cancel_left, ← length_bytes, List.take_left]

theorem newline_notMem_lineBytes (h : line < lineCount text) : newline ∉ lineBytes text line := by
  obtain ⟨before, inner, after, hcut⟩ := exists_cutAround h
  rw [hcut.lineBytes_eq]
  exact fun hmem => hcut.notMem_inner (newline_mem_bytes_iff.1 hmem)

theorem lineBounds_le (h : line < lineCount text) :
    (lineBounds text line).1 ≤ (lineBounds text line).2 := by
  obtain ⟨before, inner, after, hcut⟩ := exists_cutAround h
  rw [hcut.bounds_eq, size_append]
  exact Nat.le_add_right _ _

/-- After the newline of a line the next line begins. -/
theorem lineBounds_succ (h : line + 1 < lineCount text) :
    (bytes text)[(lineBounds text line).2]? = some newline ∧
      (lineBounds text (line + 1)).1 = (lineBounds text line).2 + 1 := by
  obtain ⟨before, inner, after, hcut⟩ := exists_cutAround (Nat.lt_of_succ_lt h)
  rw [hcut.bounds_eq]
  rcases hcut.ends with rfl | ⟨rest, rfl⟩
  · rw [lineCount_eq, hcut.text_eq, List.append_nil, hcut.count_line] at h
    exact absurd h (Nat.lt_irrefl _)
  · constructor
    · rw [hcut.text_eq, bytes_append, ← length_bytes (before ++ inner),
        List.getElem?_append_right (Nat.le_refl _), Nat.sub_self]
      rfl
    · have hnext := lineStarts_of_append (before ++ inner) rest
      rw [hcut.count_line, ← hcut.text_eq] at hnext
      rw [lineBounds_of_start hnext]

theorem lineBounds_last (h : line + 1 = lineCount text) :
    (lineBounds text line).2 = (bytes text).length := by
  rw [lineBounds, lineStarts_of_le (Nat.le_of_eq h.symm), length_bytes]

/-- Ranges that make up some bytes from an offset on: after each comes one newline, then the next
begins, and the last ends with the bytes. -/
inductive Tiles (source : List UInt8) : Nat → List (Nat × Nat) → Prop
  | last {start : Nat} : start ≤ source.length → Tiles source start [(start, source.length)]
  | cons {start stop : Nat} {ranges : List (Nat × Nat)} : start ≤ stop →
      source[stop]? = some newline → Tiles source (stop + 1) ranges →
      Tiles source start ((start, stop) :: ranges)

theorem Tiles.intercalate {source : List UInt8} {start : Nat} {ranges : List (Nat × Nat)}
    (h : Tiles source start ranges) :
    [newline].intercalate (ranges.map fun range => source.extract range.1 range.2) =
      source.drop start := by
  induction h with
  | last =>
    rw [List.map_singleton, List.intercalate_singleton, List.extract_eq_take_drop,
      ← List.length_drop, List.take_length]
  | @cons start stop ranges hle hend hrest ih =>
    have hcut : source.extract start stop ++ source.drop stop = source.drop start := by
      rw [List.extract_eq_take_drop, ← Nat.add_sub_of_le hle, ← List.drop_drop,
        Nat.add_sub_of_le hle, List.take_append_drop]
    have hnewline : source.drop stop = newline :: source.drop (stop + 1) := by
      obtain ⟨hlt, hget⟩ := List.getElem?_eq_some_iff.1 hend
      rw [List.drop_eq_getElem_cons hlt, hget]
    obtain ⟨next, more, rfl⟩ : ∃ next more, ranges = next :: more := by
      cases hrest with
      | last => exact ⟨_, _, rfl⟩
      | cons => exact ⟨_, _, rfl⟩
    rw [List.map_cons] at ih
    rw [List.map_cons, List.map_cons, List.intercalate_cons_cons, ih, List.append_assoc,
      List.singleton_append, ← hnewline, hcut]

/-- The lines from one on make up the text from where it begins. -/
theorem tiles_lines_from (text : List Char) (line more : Nat)
    (h : line + more + 1 = lineCount text) :
    Tiles (bytes text) (lineBounds text line).1
      ((List.range' line (more + 1)).map (lineBounds text)) := by
  -- `more` counts the lines after the one that the range begins with.
  induction more generalizing line with
  | zero =>
    have hle := lineBounds_le (show line < lineCount text by omega)
    have hstop := lineBounds_last h
    rw [show (List.range' line (0 + 1)).map (lineBounds text) =
      [((lineBounds text line).1, (lineBounds text line).2)] from rfl, hstop]
    exact .last (hstop ▸ hle)
  | succ more ih =>
    obtain ⟨hend, hnext⟩ := lineBounds_succ (show line + 1 < lineCount text by omega)
    have hrest := ih (line + 1) (by omega)
    rw [hnext] at hrest
    rw [List.range'_succ, List.map_cons]
    exact .cons (lineBounds_le (by omega)) hend hrest

/-- The lines of a text make it up. -/
theorem tiles_lines (text : List Char) :
    Tiles (bytes text) 0 ((List.range (lineCount text)).map (lineBounds text)) := by
  have h := lineCount_eq text
  rw [List.range_eq_range', h]
  exact tiles_lines_from text 0 _ (by omega)

/-- The line of an offset and the bounds of a line invert each other: an offset is on the line that
as many newlines come before, its bounds hold the offset and no newline, and all offsets that they
hold are on that line. The lines in order, with one newline after each but the last, are the text. -/
theorem lineOf_inverts_lineBounds (text : List Char) :
    (∀ offset ≤ (bytes text).length,
      lineOf text offset = ((bytes text).take offset).count newline ∧
        lineOf text offset < lineCount text ∧
        (lineBounds text (lineOf text offset)).1 ≤ offset ∧
        offset ≤ (lineBounds text (lineOf text offset)).2 ∧
        newline ∉ lineBytes text (lineOf text offset)) ∧
      (∀ line < lineCount text, ∀ offset, (lineBounds text line).1 ≤ offset →
        offset ≤ (lineBounds text line).2 → lineOf text offset = line) ∧
      Tiles (bytes text) 0 ((List.range (lineCount text)).map (lineBounds text)) ∧
      [newline].intercalate ((List.range (lineCount text)).map (lineBytes text)) = bytes text := by
  refine ⟨fun offset hoffset => ?_, fun line hline offset hs he => lineOf_of_within hline hs he,
    tiles_lines text, ?_⟩
  · have hline := lineOf_lt_lineCount text offset
    rw [length_bytes] at hoffset
    obtain ⟨hs, he⟩ := within_lineOf hoffset
    exact ⟨lineOf_eq_count text offset, hline, hs, he, newline_notMem_lineBytes hline⟩
  · have hjoined := (tiles_lines text).intercalate
    rw [List.map_map, List.drop_zero] at hjoined
    exact hjoined

/-- Offsets within a character, at a newline, after one and at the end, and a line without bytes. -/
theorem lines_of_accented_text :
    let text := "é\n\nx\n".toList
    Tiles (bytes text) 0 [(0, 2), (3, 3), (4, 5), (6, 6)] ∧
      lineOf text 1 = 0 ∧ lineOf text 2 = 0 ∧ lineOf text 3 = 1 ∧ lineOf text 6 = 3 ∧
      newline ∉ lineBytes text (lineOf text 2) := by
  intro text
  obtain ⟨hoffsets, hlines, htiles, -⟩ := lineOf_inverts_lineBounds text
  have hranges : (List.range (lineCount text)).map (lineBounds text) =
      [(0, 2), (3, 3), (4, 5), (6, 6)] := by decide +kernel
  rw [hranges] at htiles
  refine ⟨htiles, (hoffsets 1 (by decide +kernel)).1.trans (by decide +kernel), ?_, ?_, ?_,
    (hoffsets 2 (by decide +kernel)).2.2.2.2⟩
  · exact hlines 0 (by decide +kernel) 2 (by decide +kernel) (by decide +kernel)
  · exact hlines 1 (by decide +kernel) 3 (by decide +kernel) (by decide +kernel)
  · exact (hoffsets 6 (by decide +kernel)).1.trans (by decide +kernel)

end Marginalia.Text
