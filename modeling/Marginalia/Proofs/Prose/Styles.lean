import Marginalia.Proofs.Prose.Body
import Marginalia.Proofs.Text.Trim

/-! The styles of comments. Lines of prose can be written as line comments, as a block with or without
a gutter of stars, or as a docstring; the body of what is written is the lines again, whatever the
style and the indentation.

The three ways to a body read a text line by line and drop the empty lines, so all that is told of
them follows from one equation: the lines of two texts with a line end between them are those of the
one and those of the other. -/

namespace Marginalia.Prose

open Marginalia.Code Marginalia.Text Marginalia.Unicode

/-! ### Lines of prose and how they are written -/

/-- A star or an exclamation mark, which the opening of a block takes with it. -/
def isOpening (c : Char) : Bool := c == '*' || c == '!'

/-- A line that is no more than a line and that a block does not begin with its own marks. What else
it holds, even what opens or closes a comment, plays no part. -/
structure IsProse (line : List Char) : Prop where
  not_blank : trim line ≠ []
  one_line : '\n' ∉ line
  begins : (trim line).head?.any isOpening = false

instance (line : List Char) : Decidable (IsProse line) :=
  decidable_of_iff (trim line ≠ [] ∧ '\n' ∉ line ∧ (trim line).head?.any isOpening = false)
    ⟨fun h => ⟨h.1, h.2.1, h.2.2⟩, fun h => ⟨h.1, h.2, h.3⟩⟩

/-- Lines one below the other, each after a lead of one kind. -/
inductive Rows (Lead : List Char → Prop) : List (List Char) → List Char → Prop where
  | last {lead line : List Char} (hlead : Lead lead) : Rows Lead [line] (lead ++ line)
  | more {lead line rest : List Char} {lines : List (List Char)} (hlead : Lead lead)
      (hrest : Rows Lead lines rest) : Rows Lead (line :: lines) (lead ++ line ++ '\n' :: rest)

/-- A marker and a space, indented. -/
def Marked (marker lead : List Char) : Prop :=
  ∃ indentation, Blanks indentation ∧ lead = indentation ++ (marker ++ [' '])

/-- Indentation, with a star and a space after it or without. -/
def Gutter (lead : List Char) : Prop :=
  ∃ indentation, Blanks indentation ∧ (lead = indentation ∨ lead = indentation ++ ['*', ' '])

/-- The comments with the given lines: a marker on each line, a block, or a docstring. Blanks and
line ends may stand between the delimiters and the lines, and around the whole. -/
inductive Written (lines : List (List Char)) : List Char → Prop where
  | lineComments {marker text : List Char}
      (hmarker : marker ∈ [['/', '/'], ['/', '/', '/'], ['#']])
      (hrows : Rows (Marked marker) lines text) : Written lines text
  | block {front opening gap text gap' back : List Char} (hfront : Blanks front)
      (hopening : opening ∈ [['/', '*'], ['/', '*', '*']]) (hgap : Blanks gap)
      (hrows : Rows Gutter lines text) (hgap' : Blanks gap') (hback : Blanks back) :
      Written lines (front ++ (opening ++ (gap ++ (text ++ gap')) ++ ['*', '/']) ++ back)
  | docstring {front quote gap text gap' back : List Char} (hfront : Blanks front)
      (hquote : quote ∈ [['"', '"', '"'], ['\'', '\'', '\'']]) (hgap : Blanks gap)
      (hrows : Rows Blanks lines text) (hgap' : Blanks gap') (hback : Blanks back) :
      Written lines (front ++ (quote ++ (gap ++ (text ++ gap')) ++ quote) ++ back)

/-! ### Texts read line by line -/

/-- What a step makes of the lines of a text, without empty lines. -/
def linesBy (step : List Char → List Char) (text : List Char) : List (List Char) :=
  ((lines text).map step).filter fun line => !line.isEmpty

/-- A step on lines that does not see the blanks at their ends. -/
structure IgnoresEnds (step : List Char → List Char) : Prop where
  nil : step [] = []
  ends : ∀ {a b}, trim a = trim b → step a = step b

theorem ignoresEnds_trim : IgnoresEnds trim := ⟨rfl, id⟩

theorem ignoresEnds_gutterless : IgnoresEnds gutterless :=
  ⟨rfl, fun h => by rw [gutterless, gutterless, h]⟩

theorem ignoresEnds_unmarked : IgnoresEnds unmarked :=
  ⟨rfl, fun h => by rw [unmarked, unmarked, h]⟩

theorem trim_closeLine (a : List Char) : trim (closeLine a.reverse) = trim a := by
  rw [closeLine_eq]
  cases hdropped : dropPrefix? a.reverse ['\r'] with
  | none => rw [Option.getD_none, List.reverse_reverse]
  | some line =>
    have ha : a = line.reverse ++ ['\r'] := by
      simpa using congrArg List.reverse (dropPrefix?_eq_some_iff.1 hdropped)
    have hreturn : Blanks ['\r'] := by decide
    rw [ha, trim_append_blanks hreturn]
    rfl

namespace IgnoresEnds

variable {step : List Char → List Char} (hstep : IgnoresEnds step) {a b blanks text : List Char}

include hstep

theorem linesBy_single (h : '\n' ∉ a) :
    linesBy step a = [step a].filter fun line => !line.isEmpty := by
  rw [linesBy, lines_of_not_mem h]
  cases a with
  | nil => simp [hstep.nil]
  | cons c a => rfl

/-- The one equation: a text is read line by line. -/
theorem linesBy_append (a b : List Char) :
    linesBy step (a ++ '\n' :: b) = linesBy step a ++ linesBy step b := by
  have hone {a : List Char} (h : '\n' ∉ a) (b : List Char) :
      linesBy step (a ++ '\n' :: b) = linesBy step a ++ linesBy step b := by
    rw [hstep.linesBy_single h, linesBy, lines_append h, List.map_cons,
      hstep.ends (trim_closeLine a), ← List.singleton_append, List.filter_append, linesBy]
  induction a using lines_induction with
  | single a h => exact hone h b
  | more a rest h ih =>
    rw [List.append_assoc, List.cons_append, hone h, ih, hone h, List.append_assoc]

theorem linesBy_blanks (h : Blanks blanks) : linesBy step blanks = [] := by
  induction blanks using lines_induction with
  | single a hline =>
    have hempty : step a = [] := (hstep.ends (trim_of_blanks h)).trans hstep.nil
    rw [hstep.linesBy_single hline, hempty]
    rfl
  | more a rest hline ih =>
    obtain ⟨ha, hrest⟩ := List.forall_mem_append.1 h
    have hempty : step a = [] := (hstep.ends (trim_of_blanks ha)).trans hstep.nil
    rw [hstep.linesBy_append, ih (List.forall_mem_cons.1 hrest).2, hstep.linesBy_single hline, hempty]
    rfl

/-- A line that differs in the blanks at its ends only is read alike, whatever follows it. -/
theorem linesBy_congr (ha : '\n' ∉ a) (hb : '\n' ∉ b) (h : trim a = trim b) :
    linesBy step a = linesBy step b := by
  rw [hstep.linesBy_single ha, hstep.linesBy_single hb, hstep.ends h]

theorem linesBy_blanks_append (h : Blanks blanks) (text : List Char) :
    linesBy step (blanks ++ text) = linesBy step text := by
  have hone {blanks : List Char} (h : Blanks blanks) (hline : '\n' ∉ blanks) :
      linesBy step (blanks ++ text) = linesBy step text := by
    have hlead {a : List Char} (ha : '\n' ∉ a) :
        linesBy step (blanks ++ a) = linesBy step a :=
      hstep.linesBy_congr (by simp [hline, ha]) ha (trim_blanks_append h a)
    induction text using lines_induction with
    | single a ha => exact hlead ha
    | more a b ha _ => rw [← List.append_assoc, hstep.linesBy_append, hlead ha, hstep.linesBy_append]
  induction blanks using lines_induction with
  | single blanks hline => exact hone h hline
  | more first rest hline ih =>
    obtain ⟨hfirst, hrest⟩ := List.forall_mem_append.1 h
    rw [List.append_assoc, List.cons_append, hstep.linesBy_append, hstep.linesBy_blanks hfirst,
      List.nil_append, ih (List.forall_mem_cons.1 hrest).2]

theorem linesBy_append_blanks (h : Blanks blanks) (text : List Char) :
    linesBy step (text ++ blanks) = linesBy step text := by
  have hone {blanks : List Char} (h : Blanks blanks) (hline : '\n' ∉ blanks) :
      linesBy step (text ++ blanks) = linesBy step text := by
    induction text using lines_induction with
    | single a ha => exact hstep.linesBy_congr (by simp [hline, ha]) ha (trim_append_blanks h a)
    | more a b _ ih =>
      rw [List.append_assoc, List.cons_append, hstep.linesBy_append, ih, hstep.linesBy_append]
  induction blanks using lines_induction with
  | single blanks hline => exact hone h hline
  | more first rest hline _ =>
    obtain ⟨hfirst, hrest⟩ := List.forall_mem_append.1 h
    rw [← List.append_assoc, hstep.linesBy_append, hone hfirst hline,
      hstep.linesBy_blanks (List.forall_mem_cons.1 hrest).2, List.append_nil]

/-- Rows are read as their lines where one row is. -/
theorem linesBy_rows {Lead : List Char → Prop} {lines : List (List Char)}
    (hrow : ∀ lead line, Lead lead → IsProse line → linesBy step (lead ++ line) = [trim line])
    (hprose : ∀ line ∈ lines, IsProse line) (h : Rows Lead lines text) :
    linesBy step text = lines.map trim := by
  induction h with
  | last hlead => exact hrow _ _ hlead (hprose _ List.mem_cons_self)
  | more hlead _ ih =>
    obtain ⟨hline, hlines⟩ := List.forall_mem_cons.1 hprose
    rw [hstep.linesBy_append, hrow _ _ hlead hline, ih hlines]
    rfl

end IgnoresEnds

/-! ### One row -/

variable {line lead marker : List Char}

theorem filter_trim (h : IsProse line) :
    [trim line].filter (fun line => !line.isEmpty) = [trim line] :=
  List.filter_cons_of_pos (by simpa using h.not_blank)

theorem linesBy_trim_row (hlead : Blanks lead) (h : IsProse line) :
    linesBy trim (lead ++ line) = [trim line] := by
  rw [ignoresEnds_trim.linesBy_blanks_append hlead, ignoresEnds_trim.linesBy_single h.one_line,
    filter_trim h]

theorem gutterless_star (line : List Char) : gutterless ('*' :: ' ' :: line) = trim line := by
  have hstar : isBlank '*' = false := by decide
  have hspace : Blanks [' '] := by decide
  rw [gutterless, trim_cons hstar]
  exact (trim_trimEnd _).trans (trim_blanks_append hspace line)

theorem gutterless_prose (h : IsProse line) : gutterless line = trim line := by
  rw [gutterless]
  split
  · next rest hstar =>
    have hbegins := h.begins
    rw [hstar] at hbegins
    cases hbegins
  · rfl

theorem linesBy_gutterless_row (hlead : Gutter lead) (h : IsProse line) :
    linesBy gutterless (lead ++ line) = [trim line] := by
  have hgutter := ignoresEnds_gutterless
  obtain ⟨indentation, hblanks, rfl | rfl⟩ := hlead
  · rw [hgutter.linesBy_blanks_append hblanks, hgutter.linesBy_single h.one_line, gutterless_prose h,
      filter_trim h]
  · have hline : '\n' ∉ '*' :: ' ' :: line := by simpa using h.one_line
    rw [List.append_assoc, hgutter.linesBy_blanks_append hblanks]
    rw [List.cons_append, List.cons_append, List.nil_append, hgutter.linesBy_single hline,
      gutterless_star, filter_trim h]

theorem dropWhile_trimEnd_space {p : Char → Bool} (hp : p ' ' = false) (line : List Char) :
    (trimEnd (' ' :: line)).dropWhile p = trimEnd (' ' :: line) := by
  obtain ⟨back, -, hsplit, -⟩ := exists_trimEnd_append (' ' :: line)
  cases hkept : trimEnd (' ' :: line) with
  | nil => rfl
  | cons c rest =>
    rw [hkept, List.cons_append] at hsplit
    obtain ⟨rfl, -⟩ := List.cons.inj hsplit
    exact List.dropWhile_cons_of_neg (by simp [hp])

theorem unmarked_marker (h : marker ∈ [['/', '/'], ['/', '/', '/'], ['#']]) (line : List Char) :
    unmarked (marker ++ ' ' :: line) = trim line := by
  have hslash : isBlank '/' = false := by decide
  have hhash : isBlank '#' = false := by decide
  have hspace : Blanks [' '] := by decide
  have hkept : trim (trimEnd (' ' :: line)) = trim line :=
    (trim_trimEnd _).trans (trim_blanks_append hspace line)
  simp only [List.mem_cons, List.not_mem_nil, or_false] at h
  rcases h with rfl | rfl | rfl
  · simp only [List.cons_append, List.nil_append, unmarked, trim_cons hslash, trimEnd_cons hslash]
    rw [dropWhile_trimEnd_space (by decide), hkept]
  · simp only [List.cons_append, List.nil_append, unmarked, trim_cons hslash, trimEnd_cons hslash]
    rw [List.dropWhile_cons_of_pos (by decide), dropWhile_trimEnd_space (by decide), hkept]
  · simp only [List.cons_append, List.nil_append, unmarked, trim_cons hhash]
    rw [dropWhile_trimEnd_space (by decide), hkept]

theorem linesBy_unmarked_row (hmarker : marker ∈ [['/', '/'], ['/', '/', '/'], ['#']])
    (hlead : Marked marker lead) (h : IsProse line) :
    linesBy unmarked (lead ++ line) = [trim line] := by
  have hstep := ignoresEnds_unmarked
  obtain ⟨indentation, hblanks, rfl⟩ := hlead
  have hmarked : '\n' ∉ marker ++ ' ' :: line := by
    simp only [List.mem_cons, List.not_mem_nil, or_false] at hmarker
    rcases hmarker with rfl | rfl | rfl <;> simpa using h.one_line
  have htext : indentation ++ (marker ++ [' ']) ++ line =
      indentation ++ (marker ++ ' ' :: line) := by simp
  rw [htext, hstep.linesBy_blanks_append hblanks, hstep.linesBy_single hmarked,
    unmarked_marker hmarker, filter_trim h]

/-! ### The rows of a block after its opening -/

theorem isOpening_of_isBlank {c : Char} (h : isBlank c = true) : isOpening c = false := by
  rw [← Bool.not_eq_true]
  intro hopening
  rw [isOpening, Bool.or_eq_true, beq_iff_eq, beq_iff_eq] at hopening
  rcases hopening with rfl | rfl <;> cases h

theorem IsProse.exists_cons (h : IsProse line) : ∃ c rest, line = c :: rest ∧ isOpening c = false := by
  cases line with
  | nil => exact absurd rfl h.not_blank
  | cons c rest =>
    refine ⟨c, rest, rfl, ?_⟩
    cases hblank : isBlank c with
    | true => exact isOpening_of_isBlank hblank
    | false =>
      have hbegins := h.begins
      rwa [trim_cons hblank] at hbegins

/-- An opening can take the star of the first row with it, and nothing else. -/
theorem exists_gutter (hlead : Gutter lead) (h : IsProse line) :
    ∃ lead', Gutter lead' ∧
      ∀ rest, (lead ++ line ++ rest).dropWhile isOpening = lead' ++ line ++ rest := by
  have hkept {c : Char} (hc : isOpening c = false) (text : List Char) :
      (c :: text).dropWhile isOpening = c :: text :=
    List.dropWhile_cons_of_neg (by simp [hc])
  obtain ⟨c, text, rfl, hc⟩ := h.exists_cons
  obtain ⟨indentation, hblanks, hlead⟩ := hlead
  cases indentation with
  | nil =>
    rcases hlead with rfl | rfl
    · exact ⟨[], ⟨[], hblanks, .inl rfl⟩, fun rest => hkept hc _⟩
    · have hspace : Blanks [' '] := by decide
      exact ⟨[' '], ⟨[' '], hspace, .inl rfl⟩, fun rest => rfl⟩
  | cons d indentation =>
    have hd := isOpening_of_isBlank (hblanks d List.mem_cons_self)
    refine ⟨lead, ⟨_, hblanks, hlead⟩, fun rest => ?_⟩
    rcases hlead with rfl | rfl <;> exact hkept hd _

theorem Rows.exists_dropWhile {lines : List (List Char)} {text : List Char} (h : Rows Gutter lines text)
    (hprose : ∀ line ∈ lines, IsProse line) : ∃ kept, Rows Gutter lines kept ∧
      ∀ rest, (text ++ rest).dropWhile isOpening = kept ++ rest := by
  cases h with
  | @last lead line hlead =>
    obtain ⟨lead', hlead', hkept⟩ := exists_gutter hlead (hprose _ List.mem_cons_self)
    exact ⟨lead' ++ line, .last hlead', hkept⟩
  | @more lead line more lines hlead hrest =>
    obtain ⟨lead', hlead', hkept⟩ := exists_gutter hlead (hprose _ List.mem_cons_self)
    refine ⟨lead' ++ line ++ '\n' :: more, .more hlead' hrest, fun rest => ?_⟩
    rw [List.append_assoc, hkept, ← List.append_assoc]

theorem linesBy_block {lines : List (List Char)} {gap text gap' : List Char}
    (hprose : ∀ line ∈ lines, IsProse line) (hgap : Blanks gap) (hrows : Rows Gutter lines text)
    (hgap' : Blanks gap') :
    linesBy gutterless ((gap ++ (text ++ gap')).dropWhile isOpening) = lines.map trim := by
  have hstep := ignoresEnds_gutterless
  have hread {text : List Char} (hrows : Rows Gutter lines text) :
      linesBy gutterless (text ++ gap') = lines.map trim := by
    rw [hstep.linesBy_append_blanks hgap']
    exact hstep.linesBy_rows (fun _ _ => linesBy_gutterless_row) hprose hrows
  cases gap with
  | nil =>
    obtain ⟨kept, hkept, hdropped⟩ := hrows.exists_dropWhile hprose
    rw [List.nil_append, hdropped, hread hkept]
  | cons c gap =>
    have hc := isOpening_of_isBlank (hgap c List.mem_cons_self)
    rw [List.cons_append, List.dropWhile_cons_of_neg (by simp [hc]), ← List.cons_append,
      hstep.linesBy_blanks_append hgap, hread hrows]

/-! ### Delimiters -/

theorem tripleQuoted?_eq_none {c : Char} (h : c ≠ '"' ∧ c ≠ '\'') (text : List Char) :
    tripleQuoted? (c :: text) = none := by
  simp [tripleQuoted?, dropPrefix?, h.1.symm, h.2.symm]

theorem tripleQuoted?_quoted {quote : List Char}
    (h : quote ∈ [['"', '"', '"'], ['\'', '\'', '\'']]) (inner : List Char) :
    tripleQuoted? (quote ++ inner ++ quote) = some inner := by
  have hlength : quote.length = 3 := by
    simp only [List.mem_cons, List.not_mem_nil, or_false] at h
    rcases h with rfl | rfl <;> rfl
  have hsome := (quoted?_eq_some_iff hlength).2 (Eq.refl (quote ++ inner ++ quote))
  simp only [List.mem_cons, List.not_mem_nil, or_false] at h
  rcases h with rfl | rfl
  · rw [tripleQuoted?, List.findSome?_cons, hsome]
  · rw [tripleQuoted?, List.findSome?_cons, List.findSome?_cons, hsome]
    simp [dropPrefix?]

/-! ### Bodies -/

variable {lines : List (List Char)} {text : List Char}

theorem linesBy_of_trimmed {step : List Char → List Char} (hstep : IgnoresEnds step)
    (text : List Char) : linesBy step (trim text) = linesBy step text := by
  obtain ⟨front, back, hfront, hback, htext⟩ := exists_trim_between text
  conv_rhs => rw [← htext, hstep.linesBy_append_blanks hback, hstep.linesBy_blanks_append hfront]

/-- A text between delimiters keeps them when the blanks around it go. -/
theorem trim_delimited {front opening inner closing back : List Char} (hfront : Blanks front)
    (hback : Blanks back) (hopening : ∃ c rest, opening = c :: rest ∧ isBlank c = false)
    (hclosing : ∃ rest c, closing = rest ++ [c] ∧ isBlank c = false) :
    trim (front ++ (opening ++ inner ++ closing) ++ back) = opening ++ inner ++ closing := by
  obtain ⟨c, rest, rfl, hc⟩ := hopening
  obtain ⟨most, d, rfl, hd⟩ := hclosing
  rw [trim_append_blanks hback, trim_blanks_append hfront]
  have hends := trim_of_ends hc hd (rest ++ inner ++ most)
  simpa using hends

/-- The text of rows of line comments begins, after the indentation, with the marker. -/
theorem Rows.exists_marker {marker : List Char} (h : Rows (Marked marker) lines text) :
    ∃ indentation rest, Blanks indentation ∧ text = indentation ++ (marker ++ rest) := by
  cases h with
  | @last lead line hlead =>
    obtain ⟨indentation, hblanks, rfl⟩ := hlead
    exact ⟨indentation, ' ' :: line, hblanks, by simp⟩
  | @more lead line more _ hlead _ =>
    obtain ⟨indentation, hblanks, rfl⟩ := hlead
    exact ⟨indentation, ' ' :: (line ++ '\n' :: more), hblanks, by simp⟩

theorem bodyChars_lineComments {marker : List Char} (hprose : ∀ line ∈ lines, IsProse line)
    (hmarker : marker ∈ [['/', '/'], ['/', '/', '/'], ['#']])
    (hrows : Rows (Marked marker) lines text) :
    bodyChars text = join [' '] (lines.map trim) := by
  have hslash : isBlank '/' = false := by decide
  have hhash : isBlank '#' = false := by decide
  have hread : linesBy unmarked (trim text) = lines.map trim := by
    rw [linesBy_of_trimmed ignoresEnds_unmarked]
    exact ignoresEnds_unmarked.linesBy_rows (fun _ _ => linesBy_unmarked_row hmarker) hprose hrows
  -- What is left of the text begins with the marker, so it is no docstring and no block.
  have hstyle : tripleQuoted? (trim text) = none ∧ dropPrefix? (trim text) ['/', '*'] = none := by
    obtain ⟨indentation, rest, hblanks, rfl⟩ := hrows.exists_marker
    rw [trim_blanks_append hblanks]
    simp only [List.mem_cons, List.not_mem_nil, or_false] at hmarker
    rcases hmarker with rfl | rfl | rfl
    · rw [List.cons_append, List.cons_append, trim_cons hslash, trimEnd_cons hslash]
      exact ⟨tripleQuoted?_eq_none (by decide) _, by simp [dropPrefix?]⟩
    · rw [List.cons_append, List.cons_append, trim_cons hslash, trimEnd_cons hslash]
      exact ⟨tripleQuoted?_eq_none (by decide) _, by simp [dropPrefix?]⟩
    · rw [List.cons_append, trim_cons hhash]
      exact ⟨tripleQuoted?_eq_none (by decide) _, by simp [dropPrefix?]⟩
  rw [bodyChars, bodyOfTrimmed_eq, hstyle.1, hstyle.2]
  exact congrArg (join [' ']) hread

/-- The body of a block is read after its opening, with the stars that follow that. -/
theorem bodyOfTrimmed_block {stars : List Char} (hstars : ∀ c ∈ stars, isOpening c = true)
    (inner : List Char) : bodyOfTrimmed (['/', '*'] ++ (stars ++ inner ++ ['*', '/'])) =
      join [' '] (linesBy gutterless (inner.dropWhile isOpening)) := by
  have hquoted : tripleQuoted? (['/', '*'] ++ (stars ++ inner ++ ['*', '/'])) = none :=
    tripleQuoted?_eq_none (by decide) _
  have hopening := dropPrefix?_eq_some_iff.2 (Eq.refl (['/', '*'] ++ (stars ++ inner ++ ['*', '/'])))
  have hclosing := dropSuffix?_eq_some_iff.2 (Eq.refl (stars ++ inner ++ ['*', '/']))
  rw [bodyOfTrimmed_eq, hquoted, hopening]
  dsimp only
  rw [hclosing, Option.getD_some]
  change joinLines ((Text.lines ((stars ++ inner).dropWhile isOpening)).map gutterless) = _
  rw [List.dropWhile_append_of_pos hstars]
  rfl

/-- The body of lines that are written as a comment are the lines, joined by spaces. -/
theorem bodyChars_of_written (hprose : ∀ line ∈ lines, IsProse line) (h : Written lines text) :
    bodyChars text = join [' '] (lines.map trim) := by
  cases h with
  | lineComments hmarker hrows => exact bodyChars_lineComments hprose hmarker hrows
  | @block front opening gap text gap' back hfront hopening hgap hrows hgap' hback =>
    obtain ⟨stars, rfl, hstars⟩ : ∃ stars, opening = ['/', '*'] ++ stars ∧
        ∀ c ∈ stars, isOpening c = true := by
      simp only [List.mem_cons, List.not_mem_nil, or_false] at hopening
      rcases hopening with rfl | rfl
      · exact ⟨[], rfl, by simp⟩
      · exact ⟨['*'], rfl, by simp [isOpening]⟩
    have hopened : ∃ c rest, ['/', '*'] ++ stars = c :: rest ∧ isBlank c = false :=
      ⟨'/', '*' :: stars, rfl, by decide⟩
    have hclosed : ∃ rest c, ['*', '/'] = rest ++ [c] ∧ isBlank c = false :=
      ⟨['*'], '/', rfl, by decide⟩
    rw [bodyChars, trim_delimited hfront hback hopened hclosed, List.append_assoc,
      List.append_assoc, ← List.append_assoc stars, bodyOfTrimmed_block hstars,
      linesBy_block hprose hgap hrows hgap']
  | @docstring front quote gap text gap' back hfront hquote hgap hrows hgap' hback =>
    have hends : (∃ c rest, quote = c :: rest ∧ isBlank c = false) ∧
        ∃ rest c, quote = rest ++ [c] ∧ isBlank c = false := by
      have hdouble : isBlank '"' = false := by decide
      have hsingle : isBlank '\'' = false := by decide
      simp only [List.mem_cons, List.not_mem_nil, or_false] at hquote
      rcases hquote with rfl | rfl
      · exact ⟨⟨_, _, rfl, hdouble⟩, ['"', '"'], '"', rfl, hdouble⟩
      · exact ⟨⟨_, _, rfl, hsingle⟩, ['\'', '\''], '\'', rfl, hsingle⟩
    have hread : linesBy trim (gap ++ (text ++ gap')) = lines.map trim := by
      rw [ignoresEnds_trim.linesBy_blanks_append hgap, ignoresEnds_trim.linesBy_append_blanks hgap']
      exact ignoresEnds_trim.linesBy_rows (fun _ _ => linesBy_trim_row) hprose hrows
    rw [bodyChars, trim_delimited hfront hback hends.1 hends.2, bodyOfTrimmed_eq,
      tripleQuoted?_quoted hquote]
    exact congrArg (join [' ']) hread

/-! ### Comments -/

/-- The body of a comment does not depend on its style: it is the trimmed lines, joined by single
spaces. -/
theorem body_of_comment {lines : List String} {raw : String}
    (hprose : ∀ line ∈ lines, IsProse line.toList)
    (h : Written (lines.map String.toList) raw.toList) :
    body raw = " ".intercalate (lines.map fun line => String.ofList (trim line.toList)) := by
  have hbody := bodyChars_of_written (List.forall_mem_map.2 hprose) h
  rw [← String.toList_inj, body, String.toList_ofList, hbody, String.toList_intercalate,
    List.map_map, List.map_map]
  simp [Function.comp_def, join, List.intercalate]

/-- The same two lines in three styles, with different indentations. -/
theorem body_of_two_lines :
    body "  // Opens it.\n  //   May fail.  " =
        "Opens it. May fail." ∧
      body "\t/**\n\t * Opens it.\n\t *   May fail.  \n\t */" =
        "Opens it. May fail." ∧
      body "'''Opens it.\n      May fail.  \n  '''" =
        "Opens it. May fail." := by
  let lines := ["Opens it.", "  May fail.  "]
  have hprose : ∀ line ∈ lines, IsProse line.toList := by decide
  have hcomments : Written (lines.map String.toList)
      "  // Opens it.\n  //   May fail.  ".toList :=
    @Written.lineComments _ ['/', '/'] _ (by decide)
      (@Rows.more _ [' ', ' ', '/', '/', ' '] _ _ _ ⟨[' ', ' '], by decide, rfl⟩
        (@Rows.last _ [' ', ' ', '/', '/', ' '] _ ⟨[' ', ' '], by decide, rfl⟩))
  have hblock : Written (lines.map String.toList)
      "\t/**\n\t * Opens it.\n\t *   May fail.  \n\t */".toList :=
    @Written.block _ ['\t'] ['/', '*', '*'] ['\n'] _ ['\n', '\t', ' '] [] (by decide) (by decide)
      (by decide)
      (.more ⟨['\t', ' '], by decide, .inr rfl⟩ (.last ⟨['\t', ' '], by decide, .inr rfl⟩))
      (by decide) (by decide)
  have hdocstring : Written (lines.map String.toList)
      "'''Opens it.\n      May fail.  \n  '''".toList :=
    @Written.docstring _ [] ['\'', '\'', '\''] [] _ ['\n', ' ', ' '] [] (by decide) (by decide)
      (by decide)
      (@Rows.more _ [] _ _ _ (by decide) (@Rows.last _ [' ', ' ', ' ', ' '] _ (by decide)))
      (by decide) (by decide)
  have hjoined : " ".intercalate (lines.map fun line => String.ofList (trim line.toList)) =
      "Opens it. May fail." := by decide
  rw [← hjoined]
  exact ⟨body_of_comment hprose hcomments, body_of_comment hprose hblock,
    body_of_comment hprose hdocstring⟩

end Marginalia.Prose
