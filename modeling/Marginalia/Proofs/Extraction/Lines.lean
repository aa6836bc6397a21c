import Marginalia.Proofs.Patch.Widening
import Marginalia.Proofs.Text.Lines

/-! Lines by their numbers. A line begins at the start of the text or after a newline and ends before
the next newline or with the text, and the characters between are those that the number is counted
for. -/

namespace Marginalia.Extraction

open Marginalia.Text Marginalia.Patch

variable {text : List Char} {line start stop : Nat} {c : Cell}

/-! ### The line of an offset -/

theorem lineOf_mono (hs : isBoundary text start = true) (he : isBoundary text stop = true)
    (h : start ≤ stop) : lineOf text start ≤ lineOf text stop := by
  obtain ⟨a, b, rest, rfl, rfl, rfl⟩ := exists_append_of_isBoundary₂ hs he h
  rw [lineOf_append, List.append_assoc, lineOf_append, List.count_append]
  exact Nat.le_add_right _ _

/-! ### The bounds of a line -/

/-- A line by its number: where it begins, and where it ends without its newline. -/
structure IsLine (text : List Char) (line start stop : Nat) : Prop where
  lineStart : LineStart text start
  lineEnd : LineEnd text stop
  lineOf_start : lineOf text start = line
  lineOf_stop : lineOf text stop = line

theorem isLine_lineBounds (h : line < lineCount text) :
    IsLine text line (lineBounds text line).1 (lineBounds text line).2 := by
  obtain ⟨hstart, hstop⟩ := lineOf_lineBounds h
  obtain ⟨before, inner, after, hcut⟩ := exists_cutAround h
  rw [hcut.bounds_eq] at hstart hstop ⊢
  refine ⟨?_, ?_, hstart, hstop⟩
  · rcases hcut.begins with rfl | ⟨most, rfl⟩
    · exact .inl rfl
    · refine .inr ⟨⟨size most, '\n'⟩, ?_, rfl, by simp [Cell.stop, size_append, size]⟩
      rw [hcut.text_eq, List.append_assoc, List.append_assoc]
      exact mem_cells_append _ _ _
  · rcases hcut.ends with rfl | ⟨rest, rfl⟩
    · exact .inl (by rw [hcut.text_eq, List.append_nil])
    · exact .inr ⟨⟨size (before ++ inner), '\n'⟩, hcut.text_eq ▸ mem_cells_append _ _ _, rfl, rfl⟩

/-- Lines are cut at boundaries. -/
theorem isBoundary_lineBounds (text : List Char) (line : Nat) :
    isBoundary text (lineBounds text line).1 = true ∧
      isBoundary text (lineBounds text line).2 = true := by
  rcases Nat.lt_or_ge line (lineCount text) with hline | hline
  · have hbounds := isLine_lineBounds hline
    exact ⟨hbounds.lineStart.isBoundary, hbounds.lineEnd.isBoundary⟩
  · rw [lineBounds_of_le hline]
    exact ⟨isBoundary_size text, isBoundary_size text⟩

/-- A character that is no newline is on a line exactly when it stands between its bounds. -/
theorem within_iff_lineOf (h : line < lineCount text) (hc : c ∈ cells text) (hchar : c.char ≠ '\n') :
    (lineBounds text line).1 ≤ c.start ∧ c.start < (lineBounds text line).2 ↔
      lineOf text c.start = line := by
  have hlt : c.start < size text :=
    Nat.lt_of_lt_of_le c.start_lt_stop (le_size_of_isBoundary (isBoundary_stop hc))
  constructor
  · rintro ⟨hs, he⟩
    exact lineOf_of_within h hs (Nat.le_of_lt he)
  · rintro rfl
    obtain ⟨hs, he⟩ := within_lineOf (Nat.le_of_lt hlt)
    refine ⟨hs, Nat.lt_of_le_of_ne he fun hend => ?_⟩
    rcases (isLine_lineBounds h).lineEnd with hsize | ⟨n, hn, hnewline, hstart⟩
    · exact Nat.ne_of_lt hlt (hend.trans hsize)
    · rw [cell_eq_of_start hc hn (hend.trans hstart.symm)] at hchar
      exact hchar hnewline

end Marginalia.Extraction
