import Marginalia.Code.Token
import Marginalia.Proofs.Sequence
import Marginalia.Proofs.Unicode.Runs

/-! Code as it is written: tokens spelled in any way, with blanks around them in any amount. Main
statement: the lexer gives back the tokens, whatever their spelling and the layout. -/

namespace Marginalia.Code

open Marginalia.Unicode

/-! ### Spelling and layout -/

/-- What may stand between two quotes: a character that is neither a backslash nor the quote, or a
backslash and any character. -/
inductive QuotedItem (quote : Char) : List Char → Prop where
  | plain {c : Char} (hbackslash : c ≠ '\\') (hquote : c ≠ quote) : QuotedItem quote [c]
  | hidden (c : Char) : QuotedItem quote ['\\', c]

/-- The ways to spell a token. -/
inductive Spells : Token → List Char → Prop where
  | word {c : Char} {letters : List Char} (hfirst : isLetter c = true ∨ c = '_' ∨ c = '$')
      (hletters : ∀ d ∈ letters, isLetterOrNumeral d = true ∨ d = '_' ∨ d = '$') :
      Spells (.word (String.ofList (c :: letters))) (c :: letters)
  | number {c : Char} {digits : List Char} (hfirst : c.isDigit = true)
      (hdigits : ∀ d ∈ digits, d.isAlphanum = true ∨ d = '.' ∨ d = '_') :
      Spells .number (c :: digits)
  | quoted {quote : Char} (items : List (List Char))
      (hquote : quote = '"' ∨ quote = '\'' ∨ quote = '\x60')
      (hitems : ∀ item ∈ items, QuotedItem quote item) :
      Spells .quoted (quote :: items.flatten ++ [quote])
  | mark {c : Char} (hblank : isBlank c = false) (hquote : c ≠ '"' ∧ c ≠ '\'' ∧ c ≠ '\x60')
      (hdigit : c.isDigit = false) (hletter : isLetter c = false) (hname : c ≠ '_' ∧ c ≠ '$') :
      Spells (.mark c) [c]

/-- A text of blanks. -/
def Blanks (text : List Char) : Prop := ∀ c ∈ text, isBlank c = true

instance (text : List Char) : Decidable (Blanks text) :=
  decidable_of_iff (text.all isBlank = true) List.all_eq_true

/-- The texts of some tokens: each token spelled, with at least one blank between neighbours and any
blanks at both ends. -/
inductive LaidOut : List Token → List Char → Prop where
  | nil {blanks : List Char} (h : Blanks blanks) : LaidOut [] blanks
  | last {token : Token} {text : List Char} (lead trail : List Char) (hlead : Blanks lead)
      (htext : Spells token text) (htrail : Blanks trail) :
      LaidOut [token] (lead ++ text ++ trail)
  | more {token next : Token} {tokens : List Token} {text rest : List Char}
      (lead gap : List Char) (hlead : Blanks lead) (htext : Spells token text)
      (hgap : Blanks gap) (hne : gap ≠ []) (hrest : LaidOut (next :: tokens) rest) :
      LaidOut (token :: next :: tokens) (lead ++ text ++ gap ++ rest)

/-! ### Classes of characters -/

theorem startsWord_iff {c : Char} :
    startsWord c = true ↔ isLetter c = true ∨ c = '_' ∨ c = '$' := by
  simp [startsWord, or_assoc]

theorem continuesWord_iff {c : Char} :
    continuesWord c = true ↔ isLetterOrNumeral c = true ∨ c = '_' ∨ c = '$' := by
  simp [continuesWord, or_assoc]

theorem continuesNumber_iff {c : Char} :
    continuesNumber c = true ↔ c.isAlphanum = true ∨ c = '.' ∨ c = '_' := by
  simp [continuesNumber, or_assoc]

theorem isQuote_iff {c : Char} : isQuote c = true ↔ c = '"' ∨ c = '\'' ∨ c = '\x60' := by
  simp [isQuote, or_assoc]

/-- A blank is part of no token. -/
theorem classes_of_isBlank {c : Char} (h : isBlank c = true) :
    isQuote c = false ∧ c.isDigit = false ∧ startsWord c = false ∧ continuesWord c = false ∧
      continuesNumber c = false := by
  obtain ⟨hquote, hdigit, hname, hnumber⟩ := forall_of_onRun (P := fun c => isQuote c = false ∧
    c.isDigit = false ∧ (c == '_' || c == '$') = false ∧ continuesNumber c = false) h (by decide)
  rw [startsWord, continuesWord, Bool.or_assoc, Bool.or_assoc, isLetter_of_isBlank h,
    isLetterOrNumeral_of_isBlank h, hname]
  exact ⟨hquote, hdigit, rfl, rfl, hnumber⟩

theorem isBlank_eq_false {c : Char}
    (h : isQuote c = true ∨ c.isDigit = true ∨ startsWord c = true) :
    isBlank c = false := by
  rw [← Bool.not_eq_true]
  intro hblank
  obtain ⟨hquote, hdigit, hstarts, -⟩ := classes_of_isBlank hblank
  simp [hquote, hdigit, hstarts] at h

/-- A quote begins nothing but a quoted text. -/
theorem classes_of_isQuote {c : Char} (h : isQuote c = true) :
    c.isDigit = false ∧ startsWord c = false := by
  rcases isQuote_iff.1 h with rfl | rfl | rfl <;> decide

theorem startsWord_of_isDigit {c : Char} (h : c.isDigit = true) : startsWord c = false := by
  have hrun : onRun c.toNat [(48, 57, 1)] = true := by
    rw [Char.isDigit, Bool.and_eq_true, decide_eq_true_eq, decide_eq_true_eq] at h
    obtain ⟨hfirst, hlast⟩ : 48 ≤ c.toNat ∧ c.toNat ≤ 57 := h
    simp [onRun, hlast, Nat.not_lt.2 hfirst, Nat.mod_one]
  exact forall_of_onRun (P := fun c => startsWord c = false) hrun (by decide)

/-! ### Steps of the lexer -/

theorem enter_blank {c : Char} (h : isBlank c = true) : enter c = (.gap, []) := by
  rw [enter, if_pos h]

theorem enter_quote {c : Char} (h : isQuote c = true) : enter c = (.quoted c, []) := by
  simp [enter, isBlank_eq_false (.inl h), h]

theorem enter_digit {c : Char} (h : c.isDigit = true) : enter c = (.number, []) := by
  have hquote : isQuote c = false := by
    rw [← Bool.not_eq_true]
    intro hquote
    simp [(classes_of_isQuote hquote).1] at h
  simp [enter, isBlank_eq_false (.inr (.inl h)), hquote, h]

theorem enter_word {c : Char} (h : startsWord c = true) : enter c = (.word [c], []) := by
  have hquote : isQuote c = false := by
    rw [← Bool.not_eq_true]
    intro hquote
    simp [(classes_of_isQuote hquote).2] at h
  have hdigit : c.isDigit = false := by
    rw [← Bool.not_eq_true]
    intro hdigit
    simp [startsWord_of_isDigit hdigit] at h
  simp [enter, isBlank_eq_false (.inr (.inr h)), hquote, hdigit, h]

theorem enter_mark_iff {c : Char} : enter c = (.gap, [.mark c]) ↔
    isBlank c = false ∧ isQuote c = false ∧ c.isDigit = false ∧ startsWord c = false := by
  constructor
  · intro h
    unfold enter at h
    split at h
    · cases h
    · next hblank =>
      split at h
      · cases h
      · next hquote =>
        split at h
        · cases h
        · next hdigit =>
          split at h
          · cases h
          · next hstarts =>
            simp only [Bool.not_eq_true] at hblank hquote hdigit hstarts
            exact ⟨hblank, hquote, hdigit, hstarts⟩
  · rintro ⟨hblank, hquote, hdigit, hstarts⟩
    simp [enter, hblank, hquote, hdigit, hstarts]

/-- Whether a character goes on with what the lexer is inside of. -/
def Inside.continuesWith : Inside → Char → Bool
  | .gap, _ => false
  | .word _, c => continuesWord c
  | .number, c => continuesNumber c
  | .quoted _, _ | .escape _, _ => true

theorem step_of_not_continuesWith {inside : Inside} {c : Char}
    (h : inside.continuesWith c = false) :
    step inside c = ((enter c).1, finish inside ++ (enter c).2) := by
  cases inside with
  | gap => rfl
  | word read => rw [step, if_neg (by simpa [Inside.continuesWith] using h)]; rfl
  | number => rw [step, if_neg (by simpa [Inside.continuesWith] using h)]; rfl
  | quoted quote => simp [Inside.continuesWith] at h
  | escape quote => simp [Inside.continuesWith] at h

/-! ### Runs of the lexer -/

variable {rest : List Char}

theorem tokensFrom_of_not_continuesWith {inside : Inside}
    (h : ∀ c ∈ rest.head?, inside.continuesWith c = false) :
    tokensFrom inside rest = finish inside ++ tokensFrom .gap rest := by
  cases rest with
  | nil => exact (List.append_nil _).symm
  | cons c rest =>
    rw [tokensFrom, step_of_not_continuesWith (h c rfl), tokensFrom, List.append_assoc]
    rfl

/-- Where a token before a text may end: the text is over or begins with a blank. -/
def Ends (text : List Char) : Prop := ∀ c ∈ text.head?, isBlank c = true

theorem tokensFrom_blanks {blanks : List Char} (h : Blanks blanks) :
    tokensFrom .gap (blanks ++ rest) = tokensFrom .gap rest := by
  induction blanks with
  | nil => rfl
  | cons c blanks ih =>
    obtain ⟨hc, h⟩ := List.forall_mem_cons.1 h
    simp only [List.cons_append, tokensFrom, step, enter_blank hc, List.nil_append, ih h]

theorem tokensFrom_only_blanks {blanks : List Char} (h : Blanks blanks) :
    tokensFrom .gap blanks = [] := by
  rw [← List.append_nil blanks, tokensFrom_blanks h]
  rfl

theorem tokensFrom_word {letters : List Char} (h : ∀ d ∈ letters, continuesWord d = true)
    (hends : ∀ d ∈ rest.head?, continuesWord d = false) (read : List Char) :
    tokensFrom (.word read) (letters ++ rest) =
      wordToken (letters.reverse ++ read) :: tokensFrom .gap rest := by
  induction letters generalizing read with
  | nil => exact tokensFrom_of_not_continuesWith hends
  | cons d letters ih =>
    obtain ⟨hd, h⟩ := List.forall_mem_cons.1 h
    simp only [List.cons_append, tokensFrom, step, hd, if_true, List.nil_append, ih h,
      List.reverse_cons, List.append_assoc]

theorem tokensFrom_number {digits : List Char} (h : ∀ d ∈ digits, continuesNumber d = true)
    (hends : ∀ d ∈ rest.head?, continuesNumber d = false) :
    tokensFrom .number (digits ++ rest) = .number :: tokensFrom .gap rest := by
  induction digits with
  | nil => exact tokensFrom_of_not_continuesWith hends
  | cons d digits ih =>
    obtain ⟨hd, h⟩ := List.forall_mem_cons.1 h
    simp only [List.cons_append, tokensFrom, step, hd, if_true, List.nil_append, ih h]

theorem tokensFrom_item {quote : Char} {item : List Char} (h : QuotedItem quote item)
    (hquote : quote ≠ '\\') :
    tokensFrom (.quoted quote) (item ++ rest) = tokensFrom (.quoted quote) rest := by
  cases h with
  | plain hbackslash hne => simp [tokensFrom, step, hbackslash, hne]
  | hidden c => simp [tokensFrom, step, hquote.symm]

theorem tokensFrom_quoted {quote : Char} {items : List (List Char)}
    (h : ∀ item ∈ items, QuotedItem quote item) (hquote : quote ≠ '\\') :
    tokensFrom (.quoted quote) (items.flatten ++ quote :: rest) =
      .quoted :: tokensFrom .gap rest := by
  induction items with
  | nil => simp [tokensFrom, step]
  | cons item items ih =>
    obtain ⟨hitem, h⟩ := List.forall_mem_cons.1 h
    rw [List.flatten_cons, List.append_assoc, tokensFrom_item hitem hquote, ih h]

/-! ### Texts of tokens -/

theorem tokensFrom_spells {token : Token} {text : List Char} (h : Spells token text)
    (hends : Ends rest) : tokensFrom .gap (text ++ rest) = token :: tokensFrom .gap rest := by
  cases h with
  | @word c letters hfirst hletters =>
    have hletters : ∀ d ∈ letters, continuesWord d = true := fun d hd =>
      continuesWord_iff.2 (hletters d hd)
    simp only [List.cons_append, tokensFrom, step, enter_word (startsWord_iff.2 hfirst),
      List.nil_append,
      tokensFrom_word hletters fun d hd => (classes_of_isBlank (hends d hd)).2.2.2.1]
    simp [wordToken]
  | @number c digits hfirst hdigits =>
    have hdigits : ∀ d ∈ digits, continuesNumber d = true := fun d hd =>
      continuesNumber_iff.2 (hdigits d hd)
    simp only [List.cons_append, tokensFrom, step, enter_digit hfirst, List.nil_append,
      tokensFrom_number hdigits fun d hd => (classes_of_isBlank (hends d hd)).2.2.2.2]
  | @quoted quote items hquote hitems =>
    have hbackslash : quote ≠ '\\' := by rcases hquote with rfl | rfl | rfl <;> decide
    simp only [List.cons_append, List.append_assoc, tokensFrom, step,
      enter_quote (isQuote_iff.2 hquote), List.nil_append, tokensFrom_quoted hitems hbackslash]
  | @mark c hblank hquote hdigit hletter hname =>
    have hisQuote : isQuote c = false := by simp [isQuote, hquote]
    have hstarts : startsWord c = false := by simp [startsWord, hletter, hname]
    have henter := enter_mark_iff.2 ⟨hblank, hisQuote, hdigit, hstarts⟩
    simp only [List.cons_append, List.nil_append, tokensFrom, step, henter]

theorem Blanks.ends {text : List Char} (h : Blanks text) (hne : text ≠ []) :
    Ends (text ++ rest) := by
  cases text with
  | nil => exact absurd rfl hne
  | cons c text =>
    intro d hd
    obtain rfl : c = d := Option.some.inj hd
    exact h c List.mem_cons_self

/-- Reading undoes writing: the tokens of a text are those that it was made of, however they are
spelled and laid out. -/
theorem tokens_of_laidOut {written : List Token} {code : String}
    (h : LaidOut written code.toList) : tokens code = written := by
  rw [tokens]
  generalize code.toList = text at h
  induction h with
  | nil hblanks => exact tokensFrom_only_blanks hblanks
  | last lead trail hlead htext htrail =>
    have hends : Ends trail := fun c hc => htrail c (List.mem_of_mem_head? hc)
    rw [List.append_assoc, tokensFrom_blanks hlead, tokensFrom_spells htext hends,
      tokensFrom_only_blanks htrail]
  | more lead gap hlead htext hgap hne _ ih =>
    rw [List.append_assoc, List.append_assoc, tokensFrom_blanks hlead,
      tokensFrom_spells htext (hgap.ends hne), tokensFrom_blanks hgap, ih]

/-- A name with a letter, a sign and a numeral, a text that hides its quote and holds another one, a
mark and a number, between blanks of several kinds. -/
theorem tokens_of_name_text_mark_number :
    LaidOut [.word "é$1", .quoted, .mark '+', .number] "\u00a0é$1\t\"\\\"'\"\r\n+ 3.x_ ".toList ∧
      tokens "\u00a0é$1\t\"\\\"'\"\r\n+ 3.x_ " = [.word "é$1", .quoted, .mark '+', .number] := by
  have hname : Spells (.word "é$1") ['é', '$', '1'] :=
    .word (.inl (by decide)) (List.forall_mem_cons.2 ⟨.inr (.inr rfl),
      List.forall_mem_singleton.2 (.inl (by decide))⟩)
  have hquoted : Spells .quoted ['"', '\\', '"', '\'', '"'] :=
    .quoted [['\\', '"'], ['\'']] (.inl rfl) (by
      rintro item (_ | ⟨_, _ | ⟨_, ⟨⟩⟩⟩)
      · exact .hidden '"'
      · exact .plain (by decide) (by decide))
  have hmark : Spells (.mark '+') ['+'] :=
    .mark (by decide) (by decide) (by decide) (by decide) (by decide)
  have hnumber : Spells .number ['3', '.', 'x', '_'] :=
    .number (by decide) (List.forall_mem_cons.2 ⟨.inr (.inl rfl), List.forall_mem_cons.2
      ⟨.inl (by decide), List.forall_mem_singleton.2 (.inr (.inr rfl))⟩⟩)
  have h : LaidOut [.word "é$1", .quoted, .mark '+', .number]
      "\u00a0é$1\t\"\\\"'\"\r\n+ 3.x_ ".toList :=
    .more ['\u00a0'] ['\t'] (by decide) hname (by decide) (by decide)
      (.more [] ['\r', '\n'] (by decide) hquoted (by decide) (by decide)
        (.more [] [' '] (by decide) hmark (by decide) (by decide)
          (.last [] [' '] (by decide) hnumber (by decide))))
  exact ⟨h, tokens_of_laidOut h⟩

end Marginalia.Code
