import Marginalia.Proofs.Unicode.Runs
import Marginalia.Prose.Body
import Marginalia.Unicode.Letter

/-! What marks a comment is no letter: replacing letters by letters and taking the body of a comment
can change places. -/

namespace Marginalia.Prose

open Marginalia.Text Marginalia.Unicode

/-- A text in which no character is a letter. -/
def Marks (text : List Char) : Prop := ∀ c ∈ text, isLetter c = false

instance (text : List Char) : Decidable (Marks text) :=
  decidable_of_iff (text.all (fun c => !isLetter c) = true) (by simp [Marks])

/-- Replaces letters by letters, between two marks as if nothing else were there. -/
structure KeepsMarks (f : List Char → List Char) : Prop where
  nil : f [] = []
  cut : ∀ {c}, isLetter c = false → ∀ a b, f (a ++ c :: b) = f a ++ c :: f b
  letters : ∀ l, l ≠ [] → (∀ c ∈ l, isLetter c = true) → f l ≠ [] ∧ ∀ c ∈ f l, isLetter c = true

/-- A text is one of letters only, or begins with letters before a mark. -/
theorem marks_induction {P : List Char → Prop} (letters : ∀ l, (∀ c ∈ l, isLetter c = true) → P l)
    (mark : ∀ l c rest, (∀ d ∈ l, isLetter d = true) → isLetter c = false → P rest →
      P (l ++ c :: rest)) (text : List Char) : P text := by
  -- On the text, after the letters that were read since the last mark.
  have hall (l : List Char) (hl : ∀ c ∈ l, isLetter c = true) : P (l ++ text) := by
    induction text generalizing l with
    | nil => exact letters _ (by simpa using hl)
    | cons c rest ih =>
      cases hc : isLetter c with
      | true =>
        have := ih (l ++ [c]) (List.forall_mem_append.2 ⟨hl, by simpa using hc⟩)
        simpa using this
      | false => exact mark l c rest hl hc (ih [] (by simp))
  exact hall [] (by simp)

namespace KeepsMarks

variable {f : List Char → List Char} (hf : KeepsMarks f)

include hf

/-- The same replacement in texts that are read backwards. -/
theorem reversed : KeepsMarks fun text => (f text.reverse).reverse where
  nil := by simp [hf.nil]
  cut := fun hc a b => by simp [hf.cut hc]
  letters := fun l hne hl => by
    obtain ⟨hfne, hfl⟩ := hf.letters l.reverse (by simpa using hne) (by simpa using hl)
    exact ⟨by simpa using hfne, by simpa using hfl⟩

theorem cons {c : Char} (hc : isLetter c = false) (text : List Char) :
    f (c :: text) = c :: f text := by
  simpa [hf.nil] using hf.cut hc [] text

theorem append_left {marks : List Char} (h : Marks marks) (text : List Char) :
    f (marks ++ text) = marks ++ f text := by
  induction marks with
  | nil => rfl
  | cons c marks ih =>
    obtain ⟨hc, hmarks⟩ := List.forall_mem_cons.1 h
    rw [List.cons_append, hf.cons hc, ih hmarks, List.cons_append]

theorem append {marks : List Char} (h : Marks marks) (text : List Char) :
    f (text ++ marks) = f text ++ marks := by
  have hmarks : Marks marks.reverse := fun c hc => h c (List.mem_reverse.1 hc)
  simpa using congrArg List.reverse (hf.reversed.append_left hmarks text.reverse)

/-- Where a text begins with a letter, so does the other. -/
theorem exists_cons {c : Char} (hc : isLetter c = true) (text : List Char) :
    ∃ d rest, f (c :: text) = d :: rest ∧ isLetter d = true := by
  have hlead (l : List Char) (hne : l ≠ []) (hl : ∀ d ∈ l, isLetter d = true)
      (more : List Char) : ∃ d rest, f l ++ more = d :: rest ∧ isLetter d = true := by
    obtain ⟨hfne, hfl⟩ := hf.letters l hne hl
    obtain ⟨d, rest, hd⟩ := List.exists_cons_of_ne_nil hfne
    exact ⟨d, rest ++ more, by rw [hd, List.cons_append], hfl d (by simp [hd])⟩
  generalize htext : c :: text = whole
  induction whole using marks_induction with
  | letters l hl => simpa using hlead l (by simp [← htext]) hl []
  | mark l d rest hl hd _ =>
    rw [hf.cut hd]
    refine hlead l ?_ hl _
    rintro rfl
    obtain ⟨rfl, -⟩ := List.cons.inj htext
    rw [hd] at hc
    cases hc

theorem eq_nil_iff {text : List Char} : f text = [] ↔ text = [] := by
  refine ⟨fun h => ?_, fun h => by rw [h, hf.nil]⟩
  cases text with
  | nil => rfl
  | cons c rest =>
    cases hc : isLetter c with
    | true =>
      obtain ⟨d, more, hd, -⟩ := hf.exists_cons hc rest
      rw [hd] at h
      cases h
    | false =>
      rw [hf.cons hc] at h
      cases h

/-- A mark at the beginning was there before. -/
theorem eq_cons {c : Char} (hc : isLetter c = false) {text rest : List Char}
    (h : f text = c :: rest) : ∃ more, text = c :: more ∧ rest = f more := by
  cases text with
  | nil =>
    rw [hf.nil] at h
    cases h
  | cons d more =>
    cases hd : isLetter d with
    | true =>
      obtain ⟨e, _, he, hletter⟩ := hf.exists_cons hd more
      rw [he] at h
      rw [(List.cons.inj h).1, hc] at hletter
      cases hletter
    | false =>
      rw [hf.cons hd] at h
      obtain ⟨rfl, rfl⟩ := List.cons.inj h
      exact ⟨more, rfl, rfl⟩

theorem eq_append_left {marks : List Char} (hmarks : Marks marks) {text rest : List Char}
    (h : f text = marks ++ rest) : ∃ more, text = marks ++ more ∧ rest = f more := by
  induction marks generalizing text with
  | nil => exact ⟨text, rfl, h.symm⟩
  | cons c marks ih =>
    obtain ⟨hc, hmarks⟩ := List.forall_mem_cons.1 hmarks
    obtain ⟨more, rfl, hmore⟩ := hf.eq_cons hc h
    obtain ⟨last, rfl, hrest⟩ := ih hmarks hmore.symm
    exact ⟨last, rfl, hrest⟩

theorem eq_append {marks : List Char} (hmarks : Marks marks) {text rest : List Char}
    (h : f text = rest ++ marks) : ∃ more, text = more ++ marks ∧ rest = f more := by
  have hmarks : Marks marks.reverse := fun c hc => hmarks c (List.mem_reverse.1 hc)
  have h : (f text.reverse.reverse).reverse = marks.reverse ++ rest.reverse := by simp [h]
  obtain ⟨more, hmore, hrest⟩ := hf.reversed.eq_append_left hmarks h
  refine ⟨more.reverse, ?_, List.reverse_inj.1 hrest⟩
  simpa using congrArg List.reverse hmore

/-- A mark was there before. -/
theorem mem_of_mem {c : Char} (hc : isLetter c = false) {text : List Char} (h : c ∈ f text) :
    c ∈ text := by
  have hletters (l : List Char) (hl : ∀ d ∈ l, isLetter d = true) : c ∉ f l := by
    intro hmem
    have hne : l ≠ [] := by
      rintro rfl
      rw [hf.nil] at hmem
      cases hmem
    rw [(hf.letters l hne hl).2 c hmem] at hc
    cases hc
  induction text using marks_induction with
  | letters l hl => exact absurd h (hletters l hl)
  | mark l d rest hl hd ih =>
    rw [hf.cut hd, List.mem_append, List.mem_cons] at h
    rcases h with h | rfl | h
    · exact absurd h (hletters l hl)
    · simp
    · simp [ih h]

/-- What is framed by marks is framed after the replacement. -/
theorem framed {front back : List Char} (hfront : Marks front) (hback : Marks back)
    {inner? : List Char → Option (List Char)}
    (hinner : ∀ text inner, inner? text = some inner ↔ text = front ++ inner ++ back)
    (text : List Char) : inner? (f text) = (inner? text).map f := by
  have happend (inner : List Char) : f (front ++ inner ++ back) = front ++ f inner ++ back := by
    rw [hf.append hback, hf.append_left hfront]
  cases h : inner? text with
  | some inner =>
    rw [(hinner text inner).1 h, happend]
    exact (hinner _ _).2 rfl
  | none =>
    rw [Option.map_none, Option.eq_none_iff_forall_ne_some]
    intro inner hsome
    obtain ⟨more, rfl, hmore⟩ := hf.eq_append hback ((hinner _ _).1 hsome)
    obtain ⟨last, rfl, -⟩ := hf.eq_append_left hfront hmore.symm
    rw [(hinner _ last).2 rfl] at h
    cases h

end KeepsMarks

/-! ### Prefixes and suffixes -/

theorem dropPrefix?_eq_some_iff {text opening rest : List Char} :
    dropPrefix? text opening = some rest ↔ text = opening ++ rest := by
  rw [dropPrefix?]
  constructor
  · intro h
    split at h
    · next hopening =>
      obtain ⟨more, rfl⟩ := List.isPrefixOf_iff_prefix.1 hopening
      rw [← Option.some.inj h, List.drop_left]
    · cases h
  · rintro rfl
    rw [if_pos (List.isPrefixOf_iff_prefix.2 (List.prefix_append ..)), List.drop_left]

theorem dropSuffix?_eq_some_iff {text ending rest : List Char} :
    dropSuffix? text ending = some rest ↔ text = rest ++ ending := by
  have htake (more : List Char) : (more ++ ending).take ((more ++ ending).length - ending.length) =
      more := by
    rw [List.length_append, Nat.add_sub_cancel, List.take_left]
  rw [dropSuffix?]
  constructor
  · intro h
    split at h
    · next hending =>
      obtain ⟨more, rfl⟩ := List.isSuffixOf_iff_suffix.1 hending
      rw [← Option.some.inj h, htake]
    · cases h
  · rintro rfl
    rw [if_pos (List.isSuffixOf_iff_suffix.2 (List.suffix_append ..)), htake]

theorem quoted?_eq_some_iff {quote : List Char} (hquote : quote.length = 3)
    {text inner : List Char} :
    (if text.length < 6 then none else (dropPrefix? text quote).bind (dropSuffix? · quote)) =
      some inner ↔ text = quote ++ inner ++ quote := by
  constructor
  · intro h
    split at h
    · cases h
    · obtain ⟨rest, hrest, hinner⟩ := Option.bind_eq_some_iff.1 h
      rw [dropPrefix?_eq_some_iff.1 hrest, dropSuffix?_eq_some_iff.1 hinner, List.append_assoc]
  · rintro rfl
    rw [if_neg (by simp only [List.length_append]; omega)]
    exact Option.bind_eq_some_iff.2 ⟨inner ++ quote,
      dropPrefix?_eq_some_iff.2 (List.append_assoc ..), dropSuffix?_eq_some_iff.2 rfl⟩

theorem gutterless_eq (line : List Char) :
    gutterless line = ((dropPrefix? (trim line) ['*']).map trim).getD (trim line) := by
  rw [gutterless]
  split
  · next rest h =>
    have hrest : dropPrefix? ('*' :: rest) ['*'] = some rest := dropPrefix?_eq_some_iff.2 rfl
    rw [h, hrest]
    rfl
  · next h =>
    cases hdropped : dropPrefix? (trim line) ['*'] with
    | none => rfl
    | some rest => exact absurd (dropPrefix?_eq_some_iff.1 hdropped) (h rest)

theorem unmarked_eq (line : List Char) :
    unmarked line = match dropPrefix? (trim line) ['/', '/'], dropPrefix? (trim line) ['#'] with
      | some rest, _ => trim (rest.dropWhile fun c => c == '/' || c == '!')
      | none, some rest => trim (rest.dropWhile fun c => c == '#' || c == '!')
      | none, none => trim line := by
  rw [unmarked]
  split
  · next rest h =>
    have hrest : dropPrefix? ('/' :: '/' :: rest) ['/', '/'] = some rest :=
      dropPrefix?_eq_some_iff.2 rfl
    rw [h, hrest]
  · next rest h =>
    have hrest : dropPrefix? ('#' :: rest) ['#'] = some rest := dropPrefix?_eq_some_iff.2 rfl
    rw [h, hrest]
    rfl
  · next h1 h2 =>
    cases hslashes : dropPrefix? (trim line) ['/', '/'] with
    | some rest => exact absurd (dropPrefix?_eq_some_iff.1 hslashes) (h1 rest)
    | none =>
      cases hhash : dropPrefix? (trim line) ['#'] with
      | some rest => exact absurd (dropPrefix?_eq_some_iff.1 hhash) (h2 rest)
      | none => rfl

theorem closeLine_eq (line : List Char) :
    closeLine line = ((dropPrefix? line ['\r']).getD line).reverse := by
  rw [closeLine.eq_def]
  split
  · next rest =>
    have hrest : dropPrefix? ('\r' :: rest) ['\r'] = some rest := dropPrefix?_eq_some_iff.2 rfl
    rw [hrest]
    rfl
  · next h =>
    cases hdropped : dropPrefix? line ['\r'] with
    | none => rfl
    | some rest => exact absurd (dropPrefix?_eq_some_iff.1 hdropped) (h rest)

theorem bodyOfTrimmed_eq (text : List Char) :
    bodyOfTrimmed text = match tripleQuoted? text, dropPrefix? text ['/', '*'] with
      | some inner, _ => joinLines ((lines inner).map trim)
      | none, some rest =>
        joinLines ((lines (((dropSuffix? rest ['*', '/']).getD rest).dropWhile fun c =>
          c == '*' || c == '!')).map gutterless)
      | none, none => joinLines ((lines text).map unmarked) := by
  rw [bodyOfTrimmed.eq_def]
  cases tripleQuoted? text with
  | some inner => rfl
  | none =>
    cases hdropped : dropPrefix? text ['/', '*'] with
    | some rest =>
      obtain rfl := dropPrefix?_eq_some_iff.1 hdropped
      rfl
    | none =>
      dsimp only
      split
      · next rest =>
        have hrest : dropPrefix? ('/' :: '*' :: rest) ['/', '*'] = some rest :=
          dropPrefix?_eq_some_iff.2 rfl
        rw [hdropped] at hrest
        cases hrest
      · rfl

/-! ### Lines -/

theorem linesAfter_append {a : List Char} (h : '\n' ∉ a) (line rest : List Char) :
    linesAfter line (a ++ rest) = linesAfter (a.reverse ++ line) rest := by
  induction a generalizing line with
  | nil => rfl
  | cons c a ih =>
    rw [List.mem_cons, not_or] at h
    rw [List.cons_append, linesAfter.eq_3 _ _ _ (Ne.symm h.1), ih h.2]
    simp

theorem lines_of_not_mem {a : List Char} (h : '\n' ∉ a) :
    lines a = if a.isEmpty then [] else [a] := by
  have := linesAfter_append h [] []
  rw [List.append_nil, List.append_nil] at this
  rw [lines, this, linesAfter]
  simp

theorem lines_append {a : List Char} (h : '\n' ∉ a) (b : List Char) :
    lines (a ++ '\n' :: b) = closeLine a.reverse :: lines b := by
  rw [lines, linesAfter_append h, List.append_nil]
  rfl

/-- A text is a single line, or has a line before its first line end. -/
theorem lines_induction {P : List Char → Prop} (single : ∀ a, '\n' ∉ a → P a)
    (more : ∀ a b, '\n' ∉ a → P b → P (a ++ '\n' :: b)) (text : List Char) : P text := by
  induction hn : text.length using Nat.strongRecOn generalizing text with
  | ind n ih =>
    by_cases h : '\n' ∈ text
    · obtain ⟨a, b, rfl, ha⟩ := List.eq_append_cons_of_mem h
      have hshort : b.length < n := by
        rw [← hn, List.length_append, List.length_cons]
        omega
      exact more a b ha (ih _ hshort b rfl)
    · exact single text h

/-! ### The steps to a body -/

namespace KeepsMarks

variable {f : List Char → List Char} (hf : KeepsMarks f)

include hf

theorem dropWhile {p : Char → Bool} (hp : ∀ c, p c = true → isLetter c = false)
    (text : List Char) : (f text).dropWhile p = f (text.dropWhile p) := by
  induction text with
  | nil => rw [hf.nil]; exact hf.nil.symm
  | cons c rest ih =>
    rw [List.dropWhile_cons]
    split
    · next hc => rw [hf.cons (hp c hc), List.dropWhile_cons_of_pos hc, ih]
    · next hc =>
      cases hletter : isLetter c with
      | false => rw [hf.cons hletter, List.dropWhile_cons_of_neg hc]
      | true =>
        obtain ⟨d, more, hd, hdletter⟩ := hf.exists_cons hletter rest
        rw [hd, List.dropWhile_cons_of_neg]
        intro hpd
        rw [hp d hpd] at hdletter
        cases hdletter

theorem trim (text : List Char) : Text.trim (f text) = f (Text.trim text) := by
  have hblank (c : Char) (h : isBlank c = true) : isLetter c = false := isLetter_of_isBlank h
  have hreversed := hf.reversed.dropWhile hblank (trimStart text).reverse
  rw [List.reverse_reverse] at hreversed
  rw [Text.trim, trimStart, hf.dropWhile hblank]
  change ((f (trimStart text)).reverse.dropWhile isBlank).reverse = _
  rw [hreversed, List.reverse_reverse]
  rfl

theorem dropPrefix? {opening : List Char} (h : Marks opening) (text : List Char) :
    Text.dropPrefix? (f text) opening = (Text.dropPrefix? text opening).map f := by
  have hback : Marks [] := List.forall_mem_nil _
  exact hf.framed h hback (fun _ _ => by rw [dropPrefix?_eq_some_iff, List.append_nil]) text

theorem dropSuffix? {ending : List Char} (h : Marks ending) (text : List Char) :
    Text.dropSuffix? (f text) ending = (Text.dropSuffix? text ending).map f := by
  have hfront : Marks [] := List.forall_mem_nil _
  exact hf.framed hfront h (fun _ _ => dropSuffix?_eq_some_iff) text

theorem closeLine (line : List Char) :
    Text.closeLine (f line).reverse = f (Text.closeLine line.reverse) := by
  have hreturn : Marks ['\r'] := by decide
  have hdropped := hf.reversed.dropPrefix? hreturn line.reverse
  rw [List.reverse_reverse] at hdropped
  rw [closeLine_eq, closeLine_eq, hdropped]
  cases Text.dropPrefix? line.reverse ['\r'] <;> simp

theorem lines (text : List Char) : Text.lines (f text) = (Text.lines text).map f := by
  have hbreak : isLetter '\n' = false := by decide
  induction text using lines_induction with
  | single a h =>
    have hfn : '\n' ∉ f a := fun hmem => h (hf.mem_of_mem hbreak hmem)
    have hempty : (f a).isEmpty = a.isEmpty := by
      rw [Bool.eq_iff_iff, List.isEmpty_iff, List.isEmpty_iff, hf.eq_nil_iff]
    rw [lines_of_not_mem hfn, lines_of_not_mem h, hempty]
    split <;> rfl
  | more a b ha ih =>
    have hfa : '\n' ∉ f a := fun hmem => ha (hf.mem_of_mem hbreak hmem)
    rw [hf.cut hbreak, lines_append hfa, lines_append ha, hf.closeLine, ih]
    rfl

theorem joinLines (texts : List (List Char)) :
    Prose.joinLines (texts.map f) = f (Prose.joinLines texts) := by
  have hspace : isLetter ' ' = false := by decide
  have hkept : ((fun line => !line.isEmpty) ∘ f) = fun line => !line.isEmpty := by
    funext line
    rw [Function.comp, Bool.eq_iff_iff]
    simp [hf.eq_nil_iff]
  rw [Prose.joinLines, Prose.joinLines, List.filter_map, hkept]
  generalize texts.filter _ = kept
  induction kept with
  | nil => exact hf.nil.symm
  | cons line more ih =>
    cases more with
    | nil => simp [join]
    | cons next more =>
      simp only [join, List.map_cons, List.intersperse_cons_cons, List.flatten_cons,
        List.singleton_append] at ih ⊢
      rw [hf.cut hspace, ← ih]

theorem gutterless (line : List Char) : Prose.gutterless (f line) = f (Prose.gutterless line) := by
  have hstar : Marks ['*'] := by decide
  rw [gutterless_eq, gutterless_eq, hf.trim, hf.dropPrefix? hstar]
  cases Text.dropPrefix? (Text.trim line) ['*'] with
  | none => rfl
  | some rest => exact hf.trim rest

theorem unmarked (line : List Char) : Prose.unmarked (f line) = f (Prose.unmarked line) := by
  have hslashes : Marks ['/', '/'] := by decide
  have hhash : Marks ['#'] := by decide
  have heither (marker c : Char) (hmarker : isLetter marker = false)
      (h : (c == marker || c == '!') = true) : isLetter c = false := by
    rw [Bool.or_eq_true, beq_iff_eq, beq_iff_eq] at h
    rcases h with rfl | rfl
    · exact hmarker
    · decide
  rw [unmarked_eq, unmarked_eq, hf.trim, hf.dropPrefix? hslashes, hf.dropPrefix? hhash]
  cases Text.dropPrefix? (Text.trim line) ['/', '/'] with
  | some rest =>
    change Text.trim ((f rest).dropWhile _) = _
    rw [hf.dropWhile (heither '/' · (by decide)), hf.trim]
  | none =>
    cases Text.dropPrefix? (Text.trim line) ['#'] with
    | some rest =>
      change Text.trim ((f rest).dropWhile _) = _
      rw [hf.dropWhile (heither '#' · (by decide)), hf.trim]
    | none => rfl

theorem tripleQuoted? (text : List Char) :
    Prose.tripleQuoted? (f text) = (Prose.tripleQuoted? text).map f := by
  have hdouble : Marks ['"', '"', '"'] := by decide
  have hsingle : Marks ['\'', '\'', '\''] := by decide
  have hbranch (quote : List Char) (hquote : Marks quote) (hlength : quote.length = 3) :=
    hf.framed hquote hquote (fun _ _ => quoted?_eq_some_iff hlength) text
  rw [Prose.tripleQuoted?, Prose.tripleQuoted?, List.findSome?_cons, List.findSome?_cons,
    List.findSome?_cons, List.findSome?_cons, hbranch _ hdouble rfl, hbranch _ hsingle rfl]
  cases (if text.length < 6 then none else
    (Text.dropPrefix? text ['"', '"', '"']).bind (Text.dropSuffix? · ['"', '"', '"'])) with
  | some inner => rfl
  | none =>
    cases (if text.length < 6 then none else
      (Text.dropPrefix? text ['\'', '\'', '\'']).bind
        (Text.dropSuffix? · ['\'', '\'', '\''])) <;> rfl

/-- The body of a comment with its letters replaced is its body with the letters replaced. -/
theorem bodyChars (raw : List Char) : Prose.bodyChars (f raw) = f (Prose.bodyChars raw) := by
  have hopening : Marks ['/', '*'] := by decide
  have hclosing : Marks ['*', '/'] := by decide
  have hgutter (c : Char) (h : (c == '*' || c == '!') = true) : isLetter c = false := by
    rw [Bool.or_eq_true, beq_iff_eq, beq_iff_eq] at h
    rcases h with rfl | rfl <;> decide
  have hlines {step : List Char → List Char} (hstep : ∀ line, step (f line) = f (step line))
      (text : List Char) : Prose.joinLines ((Text.lines (f text)).map step) =
        f (Prose.joinLines ((Text.lines text).map step)) := by
    rw [hf.lines, ← hf.joinLines, List.map_map, List.map_map]
    exact congrArg (fun g => Prose.joinLines ((Text.lines text).map g)) (funext hstep)
  rw [Prose.bodyChars, Prose.bodyChars, hf.trim, bodyOfTrimmed_eq, bodyOfTrimmed_eq,
    hf.tripleQuoted?, hf.dropPrefix? hopening]
  cases Prose.tripleQuoted? (Text.trim raw) with
  | some inner => exact hlines hf.trim inner
  | none =>
    cases Text.dropPrefix? (Text.trim raw) ['/', '*'] with
    | some rest =>
      have hinner : (Text.dropSuffix? (f rest) ['*', '/']).getD (f rest) =
          f ((Text.dropSuffix? rest ['*', '/']).getD rest) := by
        rw [hf.dropSuffix? hclosing]
        cases Text.dropSuffix? rest ['*', '/'] <;> rfl
      simp only [Option.map_none, Option.map_some]
      rw [hinner, hf.dropWhile hgutter]
      exact hlines hf.gutterless _
    | none => exact hlines hf.unmarked _

end KeepsMarks

end Marginalia.Prose
