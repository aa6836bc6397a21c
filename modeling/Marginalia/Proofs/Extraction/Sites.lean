import Marginalia.Proofs.Extraction.Surroundings

/-! The code that comments stand at. The code of a range is the source without its comments, and the
comments that are stacked above a line of code share it: two of them have the same code at the same
place exactly when there is no code on the lines from the one to the other. -/

namespace Marginalia.Extraction

open Marginalia.Code Marginalia.Text Marginalia.Patch Marginalia.Unicode

variable {text : List Char} {ranges : List (Nat × Nat)} {line start stop offset count : Nat}

/-! ### The source without comments -/

/-- The code of a range is what is left of its characters without those that stand in a comment, in
their order and without the blanks at the ends, wherever the comments begin and end. -/
theorem codeBetween_without_comments (h : Cut text ranges) (hs : isBoundary text start = true)
    (he : isBoundary text stop = true) (hle : start ≤ stop) :
    (cellsIn text start stop).map Cell.char = slice text start stop ∧
      codeBetween text ranges start stop =
        trim (((cellsIn text start stop).filter fun c =>
          ∀ r ∈ ranges, ¬(r.1 ≤ c.start ∧ c.start < r.2)).map Cell.char) := by
  refine ⟨map_char_cellsIn hs he hle, ?_⟩
  have hout (c : Cell) : ¬Within ranges c.start ↔
      ∀ r ∈ ranges, ¬(r.1 ≤ c.start ∧ c.start < r.2) := by simp [Within]
  simp only [codeBetween_eq h hs he, codeOutside, cellsOutside, hout]

/-- A range that begins in one comment and ends in another. -/
theorem code_between_two_comments :
    codeBetween "é = 1; /* ö */ y = 2; // two".toList [(8, 16), (24, 30)] 11 27 =
      "y = 2;".toList := by
  have hcut : Cut "é = 1; /* ö */ y = 2; // two".toList [(8, 16), (24, 30)] :=
    ⟨by decide, by decide, by decide⟩
  have hs : isBoundary "é = 1; /* ö */ y = 2; // two".toList 11 = true := by decide
  have he : isBoundary "é = 1; /* ö */ y = 2; // two".toList 27 = true := by decide
  exact (codeBetween_without_comments hcut hs he (by decide)).2.trans (by decide)

/-! ### Lines with code -/

/-- Whether a line has a character that is code: no blank, and in no comment. -/
def HasCode (text : List Char) (ranges : List (Nat × Nat)) (line : Nat) : Prop :=
  ∃ c ∈ cells text, lineOf text c.start = line ∧ isBlank c.char = false ∧ ¬Within ranges c.start

instance (text : List Char) (ranges : List (Nat × Nat)) (line : Nat) :
    Decidable (HasCode text ranges line) :=
  inferInstanceAs (Decidable (∃ c ∈ cells text,
    lineOf text c.start = line ∧ isBlank c.char = false ∧ ¬Within ranges c.start))

theorem HasCode.lt_lineCount (h : HasCode text ranges line) : line < lineCount text := by
  obtain ⟨c, -, rfl, -⟩ := h
  exact lineOf_lt_lineCount text c.start

theorem ne_newline_of_isBlank_eq_false {c : Char} (h : isBlank c = false) : c ≠ '\n' := by
  rintro rfl
  cases h

theorem cell_lt_size {c : Cell} (hc : c ∈ cells text) : c.start < size text :=
  Nat.lt_of_lt_of_le c.start_lt_stop (le_size_of_isBoundary (isBoundary_stop hc))

theorem codeOutside_ne_nil_iff : codeOutside text ranges start stop ≠ [] ↔
    ∃ c ∈ cells text, (start ≤ c.start ∧ c.start < stop) ∧ isBlank c.char = false ∧
      ¬Within ranges c.start := by
  rw [codeOutside, Ne, trim_eq_nil_iff, Blanks, List.forall_mem_map]
  simp only [cellsOutside, List.mem_filter, mem_cellsIn, decide_eq_true_eq]
  constructor
  · intro h
    push Not at h
    obtain ⟨c, ⟨⟨hc, hin⟩, hout⟩, hchar⟩ := h
    exact ⟨c, hc, hin, by simpa using hchar, hout⟩
  · rintro ⟨c, hc, hin, hchar, hout⟩ h
    rw [h c ⟨⟨hc, hin⟩, hout⟩] at hchar
    cases hchar

/-- A line is read as having code exactly when it has. -/
theorem codeOfLine_ne_nil_iff (h : Cut text ranges) (hline : line < lineCount text) :
    (codeOfLine text ranges line).1 ≠ [] ↔ HasCode text ranges line := by
  have hbounds := isLine_lineBounds hline
  have hcode : (codeOfLine text ranges line).1 =
      codeOutside text ranges (lineBounds text line).1 (lineBounds text line).2 :=
    codeBetween_eq h hbounds.lineStart.isBoundary hbounds.lineEnd.isBoundary
  rw [hcode, codeOutside_ne_nil_iff]
  refine exists_congr fun c => and_congr_right fun hc => and_congr_left fun ⟨hchar, _⟩ => ?_
  exact within_iff_lineOf hline hc (ne_newline_of_isBlank_eq_false hchar)

/-- Before an offset there is code on its line exactly when some is read. -/
theorem codeBefore_ne_nil_iff (h : Cut text ranges) (hoffset : isBoundary text offset = true) :
    codeBetween text ranges (lineBounds text (lineOf text offset)).1 offset ≠ [] ↔
      ∃ c ∈ cells text, (lineOf text c.start = lineOf text offset ∧ c.start < offset) ∧
        isBlank c.char = false ∧ ¬Within ranges c.start := by
  have hbounds := isLine_lineBounds (lineOf_lt_lineCount text offset)
  rw [codeBetween_eq h hbounds.lineStart.isBoundary hoffset, codeOutside_ne_nil_iff]
  refine exists_congr fun c => and_congr_right fun hc => and_congr_left fun _ =>
    and_congr_left fun hlt => ?_
  have hcell := isBoundary_start hc
  constructor
  · intro hs
    have h1 := lineOf_mono hbounds.lineStart.isBoundary hcell hs
    rw [hbounds.lineOf_start] at h1
    exact Nat.le_antisymm (lineOf_mono hcell hoffset (Nat.le_of_lt hlt)) h1
  · intro hsame
    exact Nat.le_of_not_lt fun hlt =>
      Nat.ne_of_lt (lineOf_lt (lineOf_lt_lineCount text offset) hlt) hsame

/-- A line with code does not begin at the end of the text. -/
theorem HasCode.start_lt_size (h : HasCode text ranges line) :
    (codeOfLine text ranges line).2 < size text := by
  have hcount := h.lt_lineCount
  obtain ⟨c, hc, hline, hchar, -⟩ := h
  obtain ⟨hs, -⟩ := (within_iff_lineOf hcount hc (ne_newline_of_isBlank_eq_false hchar)).2 hline
  exact Nat.lt_of_le_of_lt hs (cell_lt_size hc)

/-! ### The next line with code -/

/-- What the search from a line finds: the first line with code from there on, or that there is none. -/
inductive Next (text : List Char) (ranges : List (Nat × Nat)) (line : Nat) : List Char × Nat → Prop where
  | none (hnone : ∀ k, line ≤ k → ¬HasCode text ranges k) : Next text ranges line ([], size text)
  | line {k : Nat} (hle : line ≤ k) (hcode : HasCode text ranges k)
      (hfirst : ∀ j, line ≤ j → j < k → ¬HasCode text ranges j) :
      Next text ranges line (codeOfLine text ranges k)

namespace Next

variable {a b : Nat} {site other : List Char × Nat}

/-- Lines without code can go before. -/
theorem extend (hsite : Next text ranges b site) (hle : a ≤ b)
    (hno : ∀ k, a ≤ k → k < b → ¬HasCode text ranges k) : Next text ranges a site := by
  have hbelow {k : Nat} (hk : ∀ j, b ≤ j → j < k → ¬HasCode text ranges j) (j : Nat) (h1 : a ≤ j)
      (h2 : j < k) : ¬HasCode text ranges j := by
    by_cases hj : j < b
    · exact hno j h1 hj
    · exact hk j (by omega) h2
  cases hsite with
  | none hnone => exact .none fun k hk => hbelow (fun j hj _ => hnone j hj) k hk (Nat.lt_succ_self k)
  | line hk hcode hfirst => exact .line (Nat.le_trans hle hk) hcode (hbelow hfirst)

theorem unique (hsite : Next text ranges line site) (hother : Next text ranges line other) :
    site = other := by
  cases hsite with
  | none hnone =>
    cases hother with
    | none => rfl
    | line hk hcode _ => exact absurd hcode (hnone _ hk)
  | @line k hk hcode hfirst =>
    cases hother with
    | none hnone => exact absurd hcode (hnone _ hk)
    | @line j hj hcode' hfirst' =>
      obtain hlt | rfl | hlt := Nat.lt_trichotomy k j
      · exact absurd hcode (hfirst' k hk hlt)
      · rfl
      · exact absurd hcode' (hfirst j hj hlt)

/-- Where two searches meet, the one that began before saw no code until the other began. -/
theorem no_code_between (hsite : Next text ranges a site) (hother : Next text ranges b other)
    (h : site.2 = other.2) : ∀ k, a ≤ k → k < b → ¬HasCode text ranges k := by
  cases hsite with
  | none hnone => exact fun k hk _ => hnone k hk
  | @line k hk hcode hfirst =>
    suffices b ≤ k from fun j h1 h2 => hfirst j h1 (Nat.lt_of_lt_of_le h2 this)
    cases hother with
    | none => exact absurd h (Nat.ne_of_lt hcode.start_lt_size)
    | @line j hj hcode' _ =>
      have hstart : (lineBounds text k).1 = (lineBounds text j).1 := h
      have hline := (isLine_lineBounds hcode.lt_lineCount).lineOf_start
      rw [hstart, (isLine_lineBounds hcode'.lt_lineCount).lineOf_start] at hline
      exact hline ▸ hj

/-- A search ends at the start of a line or at the end of the text, there without code. -/
theorem anchor (h : Cut text ranges) (hsite : Next text ranges line site) :
    (LineStart text site.2 ∨ site.2 = size text) ∧ (site.2 = size text ↔ site.1 = []) := by
  cases hsite with
  | none => exact ⟨.inr rfl, fun _ => rfl, fun _ => rfl⟩
  | @line k _ hcode _ =>
    have hne := (codeOfLine_ne_nil_iff h hcode.lt_lineCount).2 hcode
    have hlt := hcode.start_lt_size
    exact ⟨.inl (isLine_lineBounds hcode.lt_lineCount).lineStart,
      fun hsize => absurd hsize (Nat.ne_of_lt hlt), fun hnil => absurd hnil hne⟩

end Next

theorem next_nextCode (h : Cut text ranges) (hcount : line + count = lineCount text) :
    Next text ranges line (nextCode text ranges line count) := by
  induction count generalizing line with
  | zero =>
    refine .none fun k hk hcode => ?_
    have := hcode.lt_lineCount
    omega
  | succ count ih =>
    have hiff := codeOfLine_ne_nil_iff h (show line < lineCount text by omega)
    simp only [nextCode]
    split
    · next hempty =>
      refine (ih (by omega)).extend (Nat.le_succ line) fun k h1 h2 hcode => ?_
      obtain rfl : k = line := by omega
      exact hiff.2 hcode (List.isEmpty_iff.1 hempty)
    · next hcode =>
      refine .line (Nat.le_refl _) (hiff.1 fun hnil => hcode (by rw [hnil]; rfl)) fun j h1 h2 => ?_
      omega

/-! ### Sites -/

/-- A comment that documents no definition, with no code before it on the line where it begins. -/
structure Freestanding (text : List Char) (ranges : List (Nat × Nat)) (found : Found) : Prop where
  mem : (found.start, found.stop) ∈ ranges
  ownerless : found.owner = none
  alone : ¬∃ c ∈ cells text, (lineOf text c.start = lineOf text found.start ∧ c.start < found.start) ∧
    isBlank c.char = false ∧ ¬Within ranges c.start

theorem Freestanding.next (h : Cut text ranges) {found : Found}
    (hfound : Freestanding text ranges found) :
    Next text ranges (lineOf text found.stop + 1) (documentedLine text ranges found) := by
  have hstart := (h.boundary _ hfound.mem).1
  have hlead : codeBetween text ranges (lineBounds text (lineOf text found.start)).1 found.start =
      [] := by
    by_contra hne
    exact hfound.alone ((codeBefore_ne_nil_iff h hstart).1 hne)
  have hline := lineOf_lt_lineCount text found.stop
  rw [documentedLine, hfound.ownerless]
  simp only [hlead, List.isEmpty_nil, if_true]
  exact next_nextCode h (by omega)

/-- What a comment without a definition stands at begins a line, with code, or is the end of the text,
without. -/
theorem anchor_of_ownerless (h : Cut text ranges) {found : Found}
    (hmem : (found.start, found.stop) ∈ ranges) (hownerless : found.owner = none) :
    (LineStart text (documentedLine text ranges found).2 ∨
        (documentedLine text ranges found).2 = size text) ∧
      ((documentedLine text ranges found).2 = size text ↔
        (documentedLine text ranges found).1 = []) := by
  have hstart := (h.boundary _ hmem).1
  have hbounds := isLine_lineBounds (lineOf_lt_lineCount text found.start)
  have hline := lineOf_lt_lineCount text found.stop
  rw [documentedLine, hownerless]
  simp only
  split
  · exact (next_nextCode h (by omega)).anchor h
  · next hlead =>
    have hne : codeBetween text ranges (lineBounds text (lineOf text found.start)).1 found.start ≠
        [] := fun hnil => hlead (by rw [hnil]; rfl)
    have hcode := hne
    rw [codeBetween_eq h hbounds.lineStart.isBoundary hstart, codeOutside_ne_nil_iff] at hcode
    obtain ⟨c, hc, ⟨hle, -⟩, -⟩ := hcode
    have hlt := Nat.lt_of_le_of_lt hle (cell_lt_size hc)
    exact ⟨.inl hbounds.lineStart, fun hsize => absurd hsize (Nat.ne_of_lt hlt),
      fun hnil => absurd hnil hne⟩

/-- Comments that are stacked share the code they stand at, and where it is, exactly when no line
after the last one of the first has code, up to the last one of the second. -/
theorem sites_of_comments (h : Cut text ranges) :
    (∀ x y : Found, Freestanding text ranges x → Freestanding text ranges y → x.stop ≤ y.start →
      (documentedLine text ranges x = documentedLine text ranges y ↔
        ∀ line, lineOf text x.stop < line → line ≤ lineOf text y.stop →
          ¬HasCode text ranges line)) ∧
    ∀ found : Found, (found.start, found.stop) ∈ ranges → found.owner = none →
      (LineStart text (documentedLine text ranges found).2 ∨
          (documentedLine text ranges found).2 = size text) ∧
        ((documentedLine text ranges found).2 = size text ↔
          (documentedLine text ranges found).1 = []) := by
  refine ⟨fun x y hx hy hxy => ?_, fun found hmem hownerless => anchor_of_ownerless h hmem hownerless⟩
  have hlines : lineOf text x.stop ≤ lineOf text y.stop :=
    lineOf_mono (h.boundary _ hx.mem).2 (h.boundary _ hy.mem).2
      (Nat.le_trans hxy (Nat.le_of_lt (h.lt _ hy.mem)))
  constructor
  · intro heq line hlt hle
    exact (hx.next h).no_code_between (hy.next h) (congrArg Prod.snd heq) line hlt
      (Nat.lt_succ_of_le hle)
  · intro hno
    refine (hx.next h).unique ((hy.next h).extend (Nat.succ_le_succ hlines) fun k h1 h2 => ?_)
    exact hno k h1 (Nat.le_of_lt_succ h2)

/-- Two comments above a line of code, and one after it. -/
theorem sites_of_three_comments :
    let text := "# one\n# two\n\nx = 1\n# three\ny = 2\n".toList
    let ranges := [(0, 5), (6, 11), (19, 26)]
    let comment (start stop : Nat) : Found := ⟨start, stop, false, none, none⟩
    documentedLine text ranges (comment 0 5) = documentedLine text ranges (comment 6 11) ∧
      documentedLine text ranges (comment 6 11) ≠ documentedLine text ranges (comment 19 26) ∧
      LineStart text (documentedLine text ranges (comment 19 26)).2 := by
  intro text ranges comment
  have hcut : Cut text ranges := ⟨by decide, by decide, by decide⟩
  have hone : Freestanding text ranges (comment 0 5) := ⟨by decide, rfl, by decide⟩
  have htwo : Freestanding text ranges (comment 6 11) := ⟨by decide, rfl, by decide⟩
  have hthree : Freestanding text ranges (comment 19 26) := ⟨by decide, rfl, by decide⟩
  obtain ⟨hsites, hanchors⟩ := sites_of_comments hcut
  refine ⟨(hsites _ _ hone htwo (by decide)).2 fun line h1 h2 => ?_, fun heq => ?_, ?_⟩
  · have hlines : lineOf text 5 = 0 ∧ lineOf text 11 = 1 := by decide
    obtain rfl : line = 1 := by
      have h1 : lineOf text 5 < line := h1
      have h2 : line ≤ lineOf text 11 := h2
      omega
    decide
  · exact (hsites _ _ htwo hthree (by decide)).1 heq 3 (by decide) (by decide) (by decide)
  · exact (hanchors _ hthree.mem rfl).1.resolve_right (by decide)

end Marginalia.Extraction
