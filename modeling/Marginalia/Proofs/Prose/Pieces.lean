import Marginalia.Proofs.Prose.Spaces

/-! Word boundaries of a text in which letters stand in the place of letters: each segment of the one
text is a segment of the other, piece by piece. -/

namespace Marginalia.Prose

open Marginalia.Unicode
open BreakClass (ofChar)

/-- A letter, also to word boundaries, which take it for nothing else, and in lower case. -/
structure Lettered (c : Char) : Prop where
  alphabetic : isLetter c = true
  letter : ofChar c = .letter
  plain : onRun c.toNat pictographRuns = false
  lower : (lowerChar c).all isLetter = true

instance (c : Char) : Decidable (Lettered c) :=
  decidable_of_iff (isLetter c = true ∧ ofChar c = .letter ∧ onRun c.toNat pictographRuns = false ∧
      (lowerChar c).all isLetter = true)
    ⟨fun ⟨h1, h2, h3, h4⟩ => ⟨h1, h2, h3, h4⟩, fun ⟨h1, h2, h3, h4⟩ => ⟨h1, h2, h3, h4⟩⟩

/-- A text of two or more letters. -/
structure LettersOnly (text : List Char) : Prop where
  two_le : 2 ≤ text.length
  letters : ∀ c ∈ text, Lettered c

instance (text : List Char) : Decidable (LettersOnly text) :=
  decidable_of_iff (2 ≤ text.length ∧ text.all (fun c => decide (Lettered c)) = true)
    ⟨fun ⟨h1, h2⟩ => ⟨h1, by simpa using h2⟩, fun ⟨h1, h2⟩ => ⟨h1, by simpa using h2⟩⟩

theorem LettersOnly.ne_nil {text : List Char} (h : LettersOnly text) : text ≠ [] := by
  rintro rfl
  exact absurd h.two_le (by decide)

/-- A piece of a text: a character that stays, or letters with those that take their place. -/
inductive Piece where
  | mark (c : Char)
  | run (letters replacement : List Char)
  deriving DecidableEq, Repr

namespace Piece

/-- A piece as it is written. -/
def old : Piece → List Char
  | mark c => [c]
  | run letters _ => letters

/-- A piece with its letters replaced. -/
def new : Piece → List Char
  | mark c => [c]
  | run _ replacement => replacement

/-- Two or more letters are replaced by two or more. -/
def Sound : Piece → Prop
  | mark _ => True
  | run letters replacement => LettersOnly letters ∧ LettersOnly replacement

end Piece

/-- The text that pieces are written as. -/
def olds (pieces : List Piece) : List Char := pieces.flatMap Piece.old

/-- The text that pieces make when their letters are replaced. -/
def news (pieces : List Piece) : List Char := pieces.flatMap Piece.new

@[simp] theorem olds_nil : olds [] = [] := rfl

@[simp] theorem news_nil : news [] = [] := rfl

@[simp] theorem olds_cons (p : Piece) (pieces : List Piece) :
    olds (p :: pieces) = p.old ++ olds pieces := rfl

@[simp] theorem news_cons (p : Piece) (pieces : List Piece) :
    news (p :: pieces) = p.new ++ news pieces := rfl

@[simp] theorem olds_append (a b : List Piece) : olds (a ++ b) = olds a ++ olds b :=
  List.flatMap_append

@[simp] theorem news_append (a b : List Piece) : news (a ++ b) = news a ++ news b :=
  List.flatMap_append

/-! ### Texts alike to word boundaries -/

/-- Texts that differ in runs of letters. -/
inductive Alike : List Classed → List Classed → Prop where
  | nil : Alike [] []
  | same (x : Classed) {a b : List Classed} : Alike a b → Alike (x :: a) (x :: b)
  | letters {l m a b : List Classed} : l ≠ [] → m ≠ [] → (∀ x ∈ l, x.2 = .letter) →
      (∀ x ∈ m, x.2 = .letter) → Alike a b → Alike (l ++ a) (m ++ b)

namespace Alike

variable {a b : List Classed}

/-- The first characters are of one class. Behind letters nothing is said. -/
theorem head (h : Alike a b) : (a = [] ∧ b = []) ∨
    ∃ x y more rest, a = x :: more ∧ b = y :: rest ∧ x.2 = y.2 ∧
      (x.2 = .letter ∨ Alike more rest) := by
  cases h with
  | nil => exact .inl ⟨rfl, rfl⟩
  | same x h => exact .inr ⟨x, x, _, _, rfl, rfl, rfl, .inr h⟩
  | @letters l m _ _ hl hm hlall hmall h =>
    obtain ⟨x, l, rfl⟩ := List.exists_cons_of_ne_nil hl
    obtain ⟨y, m, rfl⟩ := List.exists_cons_of_ne_nil hm
    have hx := hlall x List.mem_cons_self
    have hy := hmall y List.mem_cons_self
    exact .inr ⟨x, y, _, _, rfl, rfl, hx.trans hy.symm, .inl hx⟩

theorem head?_class (h : Alike a b) : a.head?.map (·.2) = b.head?.map (·.2) := by
  rcases h.head with ⟨rfl, rfl⟩ | ⟨x, y, _, _, rfl, rfl, hxy, -⟩
  · rfl
  · exact congrArg some hxy

theorem solid_letters {l : List Classed} (hl : l ≠ []) (hall : ∀ x ∈ l, x.2 = .letter)
    (a : List Classed) : Unicode.solid (l ++ a) = l ++ a := by
  obtain ⟨x, l, rfl⟩ := List.exists_cons_of_ne_nil hl
  have hx : x.2.attaches = false := by rw [hall x List.mem_cons_self]; rfl
  rw [Unicode.solid, List.cons_append, List.dropWhile_cons, hx]
  rfl

theorem solid (h : Alike a b) : Alike (Unicode.solid a) (Unicode.solid b) := by
  induction h with
  | nil => exact .nil
  | same x h ih =>
    rw [Unicode.solid, Unicode.solid, List.dropWhile_cons, List.dropWhile_cons]
    split
    · exact ih
    · exact .same x h
  | letters hl hm hlall hmall h _ =>
    rw [solid_letters hl hlall, solid_letters hm hmall]
    exact .letters hl hm hlall hmall h

/-- How many regional indicators stand at the beginning. -/
def regionals (text : List Classed) : Nat :=
  ((text.filter (!·.2.attaches)).takeWhile (·.2 == .regional)).length

theorem regionals_letters {l : List Classed} (hl : l ≠ []) (hall : ∀ x ∈ l, x.2 = .letter)
    (a : List Classed) : regionals (l ++ a) = 0 := by
  obtain ⟨x, l, rfl⟩ := List.exists_cons_of_ne_nil hl
  have hx := hall x List.mem_cons_self
  simp [regionals, hx, BreakClass.attaches]

theorem regionals_eq (h : Alike a b) : regionals a = regionals b := by
  induction h with
  | nil => rfl
  | same x _ ih =>
    rw [regionals, regionals, List.filter_cons, List.filter_cons]
    split
    · rw [List.takeWhile_cons, List.takeWhile_cons]
      split
      · exact congrArg (· + 1) ih
      · rfl
    · exact ih
  | letters hl hm hlall hmall _ _ =>
    rw [regionals_letters hl hlall, regionals_letters hm hmall]

end Alike

/-- What is before a letter on the left, or after one on the right, does not matter to a gap. -/
theorem joined_congr {beforeLeft beforeLeft' afterRight afterRight' : Option BreakClass}
    {left right : BreakClass} (hleft : left = .letter ∨ beforeLeft = beforeLeft')
    (hright : right = .letter ∨ afterRight = afterRight') :
    BreakClass.joined beforeLeft left right afterRight =
      BreakClass.joined beforeLeft' left right afterRight' := by
  have hquote : (BreakClass.letter == .doubleQuote) = false := rfl
  have hhebrew : (BreakClass.letter == .hebrew) = false := rfl
  have hnumeral : (BreakClass.letter == .numeral) = false := rfl
  have hletters : BreakClass.letter.joinsLetters = false := rfl
  have hnumerals : BreakClass.letter.joinsNumerals = false := rfl
  simp only [BreakClass.joined]
  rcases hleft with rfl | rfl <;> rcases hright with rfl | rfl <;>
    simp only [hquote, hhebrew, hnumeral, hletters, hnumerals, Bool.and_false, Bool.false_and]

/-- Texts that are alike around a gap keep together or part there alike. -/
theorem holdsTogether_congr {before before' after after' : List Classed} {x y : Classed}
    (hbefore : Alike before before') (hclass : x.2 = y.2)
    (hpictograph : onRun x.1.toNat pictographRuns = onRun y.1.toNat pictographRuns)
    (hafter : x.2 = .letter ∨ Alike after after') :
    holdsTogether before x after = holdsTogether before' y after' := by
  have hsolid := hbefore.solid.head
  have hregionals := hbefore.regionals_eq
  obtain ⟨rfl, rfl⟩ | ⟨⟨p, touching⟩, ⟨q, _⟩, more, rest, rfl, rfl, rfl, -⟩ := hbefore.head
  · rfl
  simp only [Alike.regionals] at hregionals
  obtain ⟨hnil, hnil'⟩ | ⟨⟨s, left⟩, ⟨t, _⟩, further, further', hcons, hcons', rfl, hfurther⟩ :=
    hsolid
  · simp only [holdsTogether, hclass, hpictograph, hnil, hnil']
  · have hjoined := joined_congr (hfurther.imp_right fun h => h.solid.head?_class)
      (hafter.imp_right fun h => h.solid.head?_class)
    simp only [holdsTogether, hpictograph, hcons, hcons', hregionals, hclass] at hjoined ⊢
    rw [hjoined]

/-! ### Segments -/

/-- A letter keeps together with the letter before it. -/
theorem holdsTogether_letter {p c : Char} (hp : Lettered p) (hc : Lettered c)
    (before after : List Classed) :
    holdsTogether (classed p :: before) (classed c) after = true := by
  simp [holdsTogether, classed, hp.letter, hc.letter, hc.plain, solid, BreakClass.attaches,
    BreakClass.isLineEnd, BreakClass.joined, BreakClass.isLetter]

theorem segmentsAfter_letters {p : Char} {l : List Char} (hp : Lettered p)
    (hl : ∀ c ∈ l, Lettered c) (segment : List Char) (before rest : List Classed) :
    segmentsAfter (p :: segment) (classed p :: before) (l.map classed ++ rest) =
      segmentsAfter (l.reverse ++ p :: segment) ((l.map classed).reverse ++ classed p :: before)
        rest := by
  induction l generalizing p segment before with
  | nil => rfl
  | cons c l ih =>
    obtain ⟨hc, hl⟩ := List.forall_mem_cons.1 hl
    rw [List.map_cons, List.cons_append, segmentsAfter, if_pos (holdsTogether_letter hp hc _ _)]
    change segmentsAfter (c :: p :: segment) _ _ = _
    rw [ih hc hl]
    simp

/-- A single character, or letters, join the segment in hand or begin the next one together. -/
theorem segmentsAfter_append {x : Char} {l : List Char} (h : l = [] ∨ ∀ c ∈ x :: l, Lettered c)
    (segment : List Char) (before rest : List Classed) :
    segmentsAfter segment before ((x :: l).map classed ++ rest) =
      if holdsTogether before (classed x) (l.map classed ++ rest) then
        segmentsAfter ((x :: l).reverse ++ segment) (((x :: l).map classed).reverse ++ before) rest
      else if segment.isEmpty then
        segmentsAfter (x :: l).reverse (((x :: l).map classed).reverse ++ before) rest
      else segment.reverse ::
        segmentsAfter (x :: l).reverse (((x :: l).map classed).reverse ++ before) rest := by
  have hrest (segment : List Char) :
      segmentsAfter (x :: segment) (classed x :: before) (l.map classed ++ rest) =
        segmentsAfter ((x :: l).reverse ++ segment) (((x :: l).map classed).reverse ++ before)
          rest := by
    rcases h with rfl | h
    · rfl
    · obtain ⟨hx, hl⟩ := List.forall_mem_cons.1 h
      rw [segmentsAfter_letters hx hl]
      simp
  have hnil := hrest []
  rw [List.append_nil] at hnil
  rw [List.map_cons, List.cons_append, segmentsAfter]
  change (if _ then segmentsAfter (x :: segment) _ _ else if _ then segmentsAfter [x] _ _
    else _ :: segmentsAfter [x] _ _) = _
  rw [hrest, hnil]
  rfl

theorem Piece.Sound.exists_cons {p : Piece} (h : p.Sound) : ∃ x l y m, p.old = x :: l ∧
    p.new = y :: m ∧ (l = [] ∧ m = [] ∧ x = y ∨
      (∀ c ∈ x :: l, Lettered c) ∧ ∀ c ∈ y :: m, Lettered c) := by
  cases p with
  | mark c => exact ⟨c, [], c, [], rfl, rfl, .inl ⟨rfl, rfl, rfl⟩⟩
  | run letters replacement =>
    obtain ⟨hletters, hreplacement⟩ := h
    obtain ⟨x, l, rfl⟩ := List.exists_cons_of_ne_nil hletters.ne_nil
    obtain ⟨y, m, rfl⟩ := List.exists_cons_of_ne_nil hreplacement.ne_nil
    exact ⟨x, l, y, m, rfl, rfl, .inr ⟨hletters.letters, hreplacement.letters⟩⟩

theorem letter_of_mem_map {l : List Char} (h : ∀ c ∈ l, Lettered c) :
    ∀ x ∈ l.map classed, x.2 = .letter := by
  intro x hx
  obtain ⟨c, hc, rfl⟩ := List.mem_map.1 hx
  exact (h c hc).letter

/-- A sound piece stands before alike texts as it stands after them. -/
theorem Alike.append_piece {p : Piece} (h : p.Sound) {a b : List Classed} (hab : Alike a b) :
    Alike (p.old.map classed ++ a) (p.new.map classed ++ b) ∧
      Alike ((p.old.map classed).reverse ++ a) ((p.new.map classed).reverse ++ b) := by
  cases p with
  | mark c => exact ⟨.same _ hab, .same _ hab⟩
  | run letters replacement =>
    obtain ⟨hletters, hreplacement⟩ := h
    have hold := letter_of_mem_map hletters.letters
    have hnew := letter_of_mem_map hreplacement.letters
    have hne : letters.map classed ≠ [] := by simpa using hletters.ne_nil
    have hne' : replacement.map classed ≠ [] := by simpa using hreplacement.ne_nil
    exact ⟨.letters hne hne' hold hnew hab,
      .letters (List.reverse_ne_nil_iff.2 hne) (List.reverse_ne_nil_iff.2 hne')
        (fun x hx => hold x (List.mem_reverse.1 hx)) (fun x hx => hnew x (List.mem_reverse.1 hx))
        hab⟩

theorem alike_of_sound {pieces : List Piece} (h : ∀ p ∈ pieces, p.Sound) :
    Alike ((olds pieces).map classed) ((news pieces).map classed) := by
  induction pieces with
  | nil => exact .nil
  | cons p pieces ih =>
    obtain ⟨hp, hpieces⟩ := List.forall_mem_cons.1 h
    rw [olds_cons, news_cons, List.map_append, List.map_append]
    exact (Alike.append_piece hp (ih hpieces)).1

theorem isEmpty_of_sound {pieces : List Piece} (h : ∀ p ∈ pieces, p.Sound) :
    (olds pieces).reverse.isEmpty = pieces.isEmpty ∧
      (news pieces).reverse.isEmpty = pieces.isEmpty := by
  cases pieces with
  | nil => exact ⟨rfl, rfl⟩
  | cons p pieces =>
    obtain ⟨x, l, y, m, hold, hnew, -⟩ := (h p List.mem_cons_self).exists_cons
    simp [hold, hnew]

/-- What is decided about the first character of a piece is decided about that of what it becomes. -/
theorem holdsTogether_piece {x y : Char} {l m : List Char}
    (hpiece : l = [] ∧ m = [] ∧ x = y ∨ (∀ c ∈ x :: l, Lettered c) ∧ ∀ c ∈ y :: m, Lettered c)
    {before before' after after' : List Classed} (hbefore : Alike before before')
    (hafter : Alike after after') :
    holdsTogether before (classed x) (l.map classed ++ after) =
      holdsTogether before' (classed y) (m.map classed ++ after') := by
  rcases hpiece with ⟨rfl, rfl, rfl⟩ | ⟨hl, hm⟩
  · exact holdsTogether_congr hbefore rfl rfl (.inr hafter)
  · have hx := hl x List.mem_cons_self
    have hy := hm y List.mem_cons_self
    exact holdsTogether_congr hbefore (hx.letter.trans hy.letter.symm)
      (hx.plain.trans hy.plain.symm) (.inl hx.letter)

theorem exists_groups_after {pieces hand : List Piece} (hpieces : ∀ p ∈ pieces, p.Sound)
    (hhand : ∀ p ∈ hand, p.Sound) {before before' : List Classed} (h : Alike before before') :
    ∃ groups : List (List Piece), groups.flatten = hand ++ pieces ∧
      segmentsAfter (olds hand).reverse before ((olds pieces).map classed) = groups.map olds ∧
      segmentsAfter (news hand).reverse before' ((news pieces).map classed) = groups.map news := by
  -- On the pieces that are left. Those in hand are written as the segment in hand in both texts,
  -- so what is decided about the first character of a piece is decided about its pieces.
  induction pieces generalizing hand before before' with
  | nil =>
    obtain ⟨hold, hnew⟩ := isEmpty_of_sound hhand
    rw [olds_nil, news_nil, List.map_nil, segmentsAfter, segmentsAfter, hold, hnew]
    cases hand with
    | nil => exact ⟨[], rfl, rfl, rfl⟩
    | cons p hand => exact ⟨[p :: hand], by simp, by simp, by simp⟩
  | cons p pieces ih =>
    obtain ⟨hp, hpieces⟩ := List.forall_mem_cons.1 hpieces
    obtain ⟨x, l, y, m, hold, hnew, hpiece⟩ := hp.exists_cons
    have hnext := (h.append_piece hp).2
    have hdecision := holdsTogether_piece hpiece h (alike_of_sound hpieces)
    have hl : l = [] ∨ ∀ c ∈ x :: l, Lettered c := hpiece.imp (·.1) (·.1)
    have hm : m = [] ∨ ∀ c ∈ y :: m, Lettered c := hpiece.imp (·.2.1) (·.2)
    rw [olds_cons, news_cons, hold, hnew, List.map_append, List.map_append,
      segmentsAfter_append hl, segmentsAfter_append hm, ← hdecision]
    rw [hold, hnew] at hnext
    have hone : ∀ q ∈ [p], q.Sound := by simpa using hp
    split
    · obtain ⟨groups, hflatten, hsegments, hsegments'⟩ :=
        ih hpieces (List.forall_mem_append.2 ⟨hhand, hone⟩) hnext
      refine ⟨groups, by simpa using hflatten, ?_, ?_⟩
      · simpa [hold] using hsegments
      · simpa [hnew] using hsegments'
    · obtain ⟨groups, hflatten, hsegments, hsegments'⟩ := ih hpieces hone hnext
      have hempty := isEmpty_of_sound hhand
      rw [hempty.1, hempty.2]
      cases hand with
      | nil =>
        refine ⟨groups, hflatten, ?_, ?_⟩
        · simpa [hold] using hsegments
        · simpa [hnew] using hsegments'
      | cons q hand =>
        refine ⟨(q :: hand) :: groups, by simp [hflatten], ?_, ?_⟩
        · simpa [hold] using hsegments
        · simpa [hnew] using hsegments'

/-- Where letters stand in the place of letters, the boundaries around them stay. -/
theorem exists_groups {pieces : List Piece} (h : ∀ p ∈ pieces, p.Sound) :
    ∃ groups : List (List Piece), groups.flatten = pieces ∧
      segments (olds pieces) = groups.map olds ∧ segments (news pieces) = groups.map news :=
  exists_groups_after h (List.forall_mem_nil _) .nil

end Marginalia.Prose
