import Marginalia.Proofs.Code.Layout
import Mathlib.Data.List.Induction

/-! Two pieces of code, one written right behind the other. If the last token of the first one runs
on into the second one, the tokens of both are others than those of the two, and else they are the
same. -/

namespace Marginalia.Code

open Marginalia.Unicode

/-- The last token of a piece of code and the character after it spell one token. -/
def RunsOn (front back : List Char) : Prop :=
  ∃ lead run token, front = lead ++ run ∧ Spells token run ∧
    tokensFrom .gap front = tokensFrom .gap lead ++ [token] ∧
    ∃ c ∈ back.head?, ∃ longer, Spells longer (run ++ [c])

namespace Inside

/-- What the lexer is inside of after a text. -/
def after : Inside → List Char → Inside
  | inside, [] => inside
  | inside, c :: rest => after (step inside c).1 rest

/-- The tokens that a text completes. -/
def completed : Inside → List Char → List Token
  | _, [] => []
  | inside, c :: rest => (step inside c).2 ++ completed (step inside c).1 rest

/-- Outside of quotes. -/
def isPlain : Inside → Bool
  | .gap | .word _ | .number => true
  | .quoted _ | .escape _ => false

end Inside

variable {inside : Inside} {text front back : List Char} {c : Char}

/-! ### Parts of a text -/

theorem tokensFrom_append (inside : Inside) (front back : List Char) :
    tokensFrom inside (front ++ back) =
      inside.completed front ++ tokensFrom (inside.after front) back := by
  induction front generalizing inside with
  | nil => rfl
  | cons c front ih =>
    rw [List.cons_append, tokensFrom, ih, Inside.completed, Inside.after, List.append_assoc]

theorem tokensFrom_eq_completed (inside : Inside) (text : List Char) :
    tokensFrom inside text = inside.completed text ++ finish (inside.after text) := by
  rw [← tokensFrom, ← tokensFrom_append, List.append_nil]

theorem completed_append (inside : Inside) (front back : List Char) :
    inside.completed (front ++ back) =
      inside.completed front ++ (inside.after front).completed back := by
  induction front generalizing inside with
  | nil => rfl
  | cons c front ih =>
    rw [List.cons_append, Inside.completed, ih, Inside.completed, Inside.after, List.append_assoc]

theorem after_append (inside : Inside) (front back : List Char) :
    inside.after (front ++ back) = (inside.after front).after back := by
  induction front generalizing inside with
  | nil => rfl
  | cons c front ih => exact ih _

/-! ### Without quotes -/

theorem isPlain_enter (h : isQuote c = false) : (enter c).1.isPlain = true := by
  unfold enter
  split
  · rfl
  · rw [if_neg (by simp [h])]
    split
    · rfl
    · split <;> rfl

theorem step_of_continuesWith (hplain : inside.isPlain = true)
    (h : inside.continuesWith c = true) :
    (step inside c).1.isPlain = true ∧ (step inside c).2 = [] := by
  cases inside with
  | gap | quoted quote | escape quote => contradiction
  | word read | number =>
    rw [Inside.continuesWith] at h
    simp [step, h, Inside.isPlain]

theorem isPlain_after (h : ∀ c ∈ text, isQuote c = false) (hplain : inside.isPlain = true) :
    (inside.after text).isPlain = true := by
  induction text generalizing inside with
  | nil => exact hplain
  | cons c rest ih =>
    obtain ⟨hc, hrest⟩ := List.forall_mem_cons.1 h
    refine ih hrest ?_
    cases hcont : inside.continuesWith c with
    | false =>
      rw [step_of_not_continuesWith hcont]
      exact isPlain_enter hc
    | true => exact (step_of_continuesWith hplain hcont).1

/-! ### The first token -/

/-- Whether a token can begin with a character. -/
def Token.beginsWith : Token → Char → Prop
  | .word text, c => text.toList.head? = some c
  | .number, c => c.isDigit = true
  | .quoted, c => isQuote c = true
  | .mark d, c => c = d

theorem Token.beginsWith_both {token : Token} {d : Char} (hc : token.beginsWith c)
    (hd : token.beginsWith d) :
    c = d ∨ c.isDigit = true ∧ d.isDigit = true ∨ isQuote c = true ∧ isQuote d = true := by
  cases token with
  | word text => exact .inl (Option.some.inj (hc.symm.trans hd))
  | number => exact .inr (.inl ⟨hc, hd⟩)
  | quoted => exact .inr (.inr ⟨hc, hd⟩)
  | mark e => exact .inl (hc.trans hd.symm)

theorem tokensFrom_word_run (read text : List Char) : tokensFrom (.word read) text =
    wordToken ((text.takeWhile continuesWord).reverse ++ read) ::
      tokensFrom .gap (text.dropWhile continuesWord) := by
  rw [← tokensFrom_word (List.all_eq_true.1 List.all_takeWhile) fun c hc =>
    eq_false_of_mem_head?_dropWhile hc, List.takeWhile_append_dropWhile]

theorem tokensFrom_number_run (text : List Char) : tokensFrom .number text =
    .number :: tokensFrom .gap (text.dropWhile continuesNumber) := by
  rw [← tokensFrom_number (List.all_eq_true.1 List.all_takeWhile) fun c hc =>
    eq_false_of_mem_head?_dropWhile hc, List.takeWhile_append_dropWhile]

theorem exists_first_token (hblank : isBlank c = false) (hquote : isQuote c = false)
    (rest : List Char) :
    ∃ token others, tokensFrom .gap (c :: rest) = token :: others ∧ token.beginsWith c := by
  by_cases hdigit : c.isDigit = true
  · rw [tokensFrom, step, enter_digit hdigit, tokensFrom_number_run]
    exact ⟨_, _, rfl, hdigit⟩
  by_cases hstarts : startsWord c = true
  · rw [tokensFrom, step, enter_word hstarts, tokensFrom_word_run]
    refine ⟨_, _, rfl, ?_⟩
    simp [wordToken, Token.beginsWith]
  · rw [Bool.not_eq_true] at hdigit hstarts
    rw [tokensFrom, step, enter_mark_iff.2 ⟨hblank, hquote, hdigit, hstarts⟩]
    exact ⟨_, _, rfl, rfl⟩

/-! ### Going on -/

theorem classes_of_continuesNumber (h : continuesNumber c = true) :
    isBlank c = false ∧ isQuote c = false := by
  constructor
  · rw [← Bool.not_eq_true]
    intro hblank
    simp [(classes_of_isBlank hblank).2.2.2.2] at h
  · rw [← Bool.not_eq_true]
    intro hquote
    rcases isQuote_iff.1 hquote with rfl | rfl | rfl <;> contradiction

theorem classes_of_continuesWord (h : continuesWord c = true) :
    isBlank c = false ∧ isQuote c = false := by
  constructor
  · rw [← Bool.not_eq_true]
    intro hblank
    simp [(classes_of_isBlank hblank).2.2.2.1] at h
  · rw [← Bool.not_eq_true]
    intro hquote
    rcases isQuote_iff.1 hquote with rfl | rfl | rfl <;> revert h <;> decide

/-- Characters of a number before a text that does not go on with one are a token or more, or they
change the first token of the text. -/
theorem tokensFrom_number_chars_ne {run : List Char} (hne : run ≠ [])
    (hrun : ∀ d ∈ run, continuesNumber d = true)
    (hback : ∀ d ∈ back.head?, continuesNumber d = false) :
    tokensFrom .gap (run ++ back) ≠ tokensFrom .gap back := by
  intro heq
  obtain ⟨c, rest, rfl⟩ := List.exists_cons_of_ne_nil hne
  have hc := hrun c List.mem_cons_self
  obtain ⟨hblank, hquote⟩ := classes_of_continuesNumber hc
  have hplain : (Inside.after .gap (c :: rest)).isPlain = true :=
    isPlain_after (fun d hd => (classes_of_continuesNumber (hrun d hd)).2) rfl
  by_cases hcont : ∀ d ∈ back.head?, (Inside.after .gap (c :: rest)).continuesWith d = false
  · rw [tokensFrom_append, tokensFrom_of_not_continuesWith hcont, ← List.append_assoc,
      ← tokensFrom_eq_completed, List.append_left_eq_self] at heq
    obtain ⟨token, others, hfirst, -⟩ := exists_first_token hblank hquote rest
    rw [hfirst] at heq
    contradiction
  · -- The characters end as a word, which a character goes on with that no number goes on with.
    simp only [Classical.not_forall, Bool.not_eq_false] at hcont
    obtain ⟨d, hd, hcont⟩ := hcont
    have hnumber := hback d hd
    have hword : continuesWord d = true := by
      cases hafter : Inside.after .gap (c :: rest) with
      | word read => simpa [hafter, Inside.continuesWith] using hcont
      | number => simp [hafter, Inside.continuesWith, hnumber] at hcont
      | gap => simp [hafter, Inside.continuesWith] at hcont
      | quoted quote | escape quote => simp [hafter, Inside.isPlain] at hplain
    obtain ⟨hblank', hquote'⟩ := classes_of_continuesWord hword
    obtain ⟨back, rfl⟩ := List.head?_eq_some_iff.1 hd
    obtain ⟨token, others, hfirst, hbegins⟩ :=
      exists_first_token hblank hquote (rest ++ d :: back)
    obtain ⟨token', others', hfirst', hbegins'⟩ := exists_first_token hblank' hquote' back
    rw [List.cons_append, hfirst, hfirst'] at heq
    obtain ⟨rfl, -⟩ := List.cons.inj heq
    rcases Token.beginsWith_both hbegins hbegins' with rfl | ⟨-, hdigit⟩ | ⟨-, h⟩
    · simp [hc] at hnumber
    · simp [continuesNumber, Char.isAlphanum, hdigit] at hnumber
    · simp [hquote'] at h

/-- The lexer takes a text up as it would behind a gap exactly when the text does not go on with
what the lexer is inside of. -/
theorem tokensFrom_eq_iff (hplain : inside.isPlain = true) :
    tokensFrom inside text = finish inside ++ tokensFrom .gap text ↔
      ∀ c ∈ text.head?, inside.continuesWith c = false := by
  refine ⟨fun heq c hc => ?_, tokensFrom_of_not_continuesWith⟩
  rw [← Bool.not_eq_true]
  intro hcont
  obtain ⟨rest, rfl⟩ := List.head?_eq_some_iff.1 hc
  cases inside with
  | gap | quoted quote | escape quote => contradiction
  | word read =>
    -- The word is longer by a character at least.
    rw [Inside.continuesWith] at hcont
    rw [tokensFrom_word_run, List.takeWhile_cons_of_pos hcont] at heq
    have hfirst := (List.cons.inj heq).1
    simp [wordToken] at hfirst
  | number =>
    rw [Inside.continuesWith] at hcont
    have hrun : (c :: rest).takeWhile continuesNumber ≠ [] := by
      rw [List.takeWhile_cons_of_pos hcont]
      exact List.cons_ne_nil _ _
    have hsame : tokensFrom .gap ((c :: rest).takeWhile continuesNumber ++
        (c :: rest).dropWhile continuesNumber) =
          tokensFrom .gap ((c :: rest).dropWhile continuesNumber) := by
      rw [tokensFrom_number_run] at heq
      rw [List.takeWhile_append_dropWhile]
      exact (List.cons.inj heq).2.symm
    exact tokensFrom_number_chars_ne hrun (List.all_eq_true.1 List.all_takeWhile)
      (fun d hd => eq_false_of_mem_head?_dropWhile hd) hsame

/-! ### The last token -/

variable {token : Token} {run : List Char}

theorem after_word {letters : List Char} (h : ∀ d ∈ letters, continuesWord d = true)
    (read : List Char) : (Inside.word read).after letters = .word (letters.reverse ++ read) := by
  induction letters generalizing read with
  | nil => rfl
  | cons d letters ih =>
    obtain ⟨hd, h⟩ := List.forall_mem_cons.1 h
    rw [Inside.after, step, if_pos hd, ih h, List.reverse_cons, List.append_assoc]
    rfl

theorem after_number {digits : List Char} (h : ∀ d ∈ digits, continuesNumber d = true) :
    Inside.number.after digits = .number := by
  induction digits with
  | nil => rfl
  | cons d digits ih =>
    obtain ⟨hd, h⟩ := List.forall_mem_cons.1 h
    rw [Inside.after, step, if_pos hd]
    exact ih h

/-- Outside of quotes, the first character of a text tells which token the text can spell. -/
theorem exists_spells_iff {rest : List Char} (hquote : isQuote c = false) :
    (∃ token, Spells token (c :: rest)) ↔
      startsWord c = true ∧ (∀ d ∈ rest, continuesWord d = true) ∨
      c.isDigit = true ∧ (∀ d ∈ rest, continuesNumber d = true) ∨
      enter c = (.gap, [.mark c]) ∧ rest = [] := by
  constructor
  · rintro ⟨token, h⟩
    generalize hrun : c :: rest = run at h
    cases h with
    | word hfirst hletters =>
      cases hrun
      exact .inl ⟨startsWord_iff.2 hfirst, fun d hd => continuesWord_iff.2 (hletters d hd)⟩
    | number hfirst hdigits =>
      cases hrun
      exact .inr (.inl ⟨hfirst, fun d hd => continuesNumber_iff.2 (hdigits d hd)⟩)
    | quoted items hq hitems =>
      cases hrun
      simp [isQuote_iff.2 hq] at hquote
    | mark hblank hq hdigit hletter hname =>
      cases hrun
      have hstarts : startsWord c = false := by simp [startsWord, hletter, hname]
      exact .inr (.inr ⟨enter_mark_iff.2 ⟨hblank, hquote, hdigit, hstarts⟩, rfl⟩)
  · rintro (⟨hstarts, hall⟩ | ⟨hdigit, hall⟩ | ⟨henter, rfl⟩)
    · exact ⟨_, .word (startsWord_iff.1 hstarts) fun d hd => continuesWord_iff.1 (hall d hd)⟩
    · exact ⟨_, .number hdigit fun d hd => continuesNumber_iff.1 (hall d hd)⟩
    · obtain ⟨hblank, -, hdigit, hstarts⟩ := enter_mark_iff.1 henter
      simp only [isQuote, Bool.or_eq_false_iff, beq_eq_false_iff_ne, ne_eq] at hquote
      simp only [startsWord, Bool.or_eq_false_iff, beq_eq_false_iff_ne, ne_eq] at hstarts
      exact ⟨_, .mark hblank ⟨hquote.1.1, hquote.1.2, hquote.2⟩ hdigit hstarts.1.1
        ⟨hstarts.1.2, hstarts.2⟩⟩

theorem Spells.exists_first (h : Spells token run) : ∃ c rest, run = c :: rest := by
  cases h with
  | word | number | quoted | mark => exact ⟨_, _, rfl⟩

theorem Spells.continuesWith_iff (h : Spells token run) (hquotes : ∀ d ∈ run, isQuote d = false) :
    (Inside.after .gap run).continuesWith c = true ↔ ∃ longer, Spells longer (run ++ [c]) := by
  obtain ⟨first, rest, rfl⟩ := h.exists_first
  have hquote := hquotes first List.mem_cons_self
  -- However the run with the character is spelled, it has the same first character.
  rw [Inside.after, step, List.cons_append, exists_spells_iff hquote]
  rcases (exists_spells_iff hquote).1 ⟨_, h⟩ with
    ⟨hstarts, hrest⟩ | ⟨hdigit, hrest⟩ | ⟨henter, rfl⟩
  · have hdigit : first.isDigit = false := by
      rw [← Bool.not_eq_true]
      intro hdigit
      simp [startsWord_of_isDigit hdigit] at hstarts
    rw [enter_word hstarts, after_word hrest]
    simpa [Inside.continuesWith, hstarts, hdigit, or_imp, forall_and] using fun _ => hrest
  · rw [enter_digit hdigit, after_number hrest]
    simpa [Inside.continuesWith, hdigit, startsWord_of_isDigit hdigit, or_imp, forall_and]
      using fun _ => hrest
  · obtain ⟨-, -, hdigit, hstarts⟩ := enter_mark_iff.1 henter
    simp [henter, Inside.after, Inside.continuesWith, hdigit, hstarts]

theorem tokensFrom_of_spells (h : Spells token run) : tokensFrom .gap run = [token] := by
  have htokens : tokensFrom .gap (run ++ []) = token :: tokensFrom .gap [] :=
    tokensFrom_spells h (by simp [Ends])
  rwa [List.append_nil] at htokens

/-- The last token of a text and what spells it. The text before it gives all tokens that are
complete, and behind the text the lexer is inside of the last one. -/
structure LastToken (text lead run : List Char) (token : Token) : Prop where
  split : text = lead ++ run
  spells : Spells token run
  begun : finish (Inside.after .gap text) = [token]
  completed : Inside.completed .gap text = tokensFrom .gap lead
  after : Inside.after .gap run = Inside.after .gap text

theorem LastToken.tokens {lead : List Char} (h : LastToken text lead run token) :
    tokensFrom .gap text = tokensFrom .gap lead ++ [token] := by
  rw [tokensFrom_eq_completed, h.begun, h.completed]

theorem LastToken.of_enter (hcont : (Inside.after .gap front).continuesWith c = false)
    (henter : enter c = (inside, [])) (hspells : Spells token [c])
    (hfinish : finish inside = [token]) : LastToken (front ++ [c]) front [c] token := by
  have hafter : Inside.after .gap (front ++ [c]) = inside := by
    rw [after_append, Inside.after, step_of_not_continuesWith hcont, henter]
    rfl
  refine ⟨rfl, hspells, ?_, ?_, ?_⟩
  · rw [hafter, hfinish]
  · rw [completed_append, Inside.completed, step_of_not_continuesWith hcont, henter,
      tokensFrom_eq_completed]
    simp [Inside.completed]
  · rw [hafter, Inside.after, step, henter]
    rfl

/-- A character that goes on with nothing begins a token, or leaves the lexer in a gap. -/
theorem exists_begun_token (hcont : (Inside.after .gap front).continuesWith c = false)
    (hquote : isQuote c = false) : Inside.after .gap (front ++ [c]) = .gap ∨
      ∃ token, LastToken (front ++ [c]) front [c] token := by
  by_cases hdigit : c.isDigit = true
  · exact .inr ⟨_, .of_enter hcont (enter_digit hdigit) (.number hdigit (by simp)) rfl⟩
  by_cases hstarts : startsWord c = true
  · exact .inr ⟨_, .of_enter hcont (enter_word hstarts)
      (.word (startsWord_iff.1 hstarts) (by simp)) rfl⟩
  · left
    rw [after_append, Inside.after, step_of_not_continuesWith hcont]
    simp only [Inside.after, enter, hquote, hdigit, hstarts]
    split <;> rfl

theorem LastToken.longer {lead : List Char} (h : LastToken front lead run token)
    (hquotes : ∀ d ∈ front, isQuote d = false)
    (hcont : (Inside.after .gap front).continuesWith c = true) :
    ∃ longer, LastToken (front ++ [c]) lead (run ++ [c]) longer := by
  obtain ⟨rfl, hspells, hbegun, hcompleted, hafter⟩ := h
  obtain ⟨-, hrun⟩ := List.forall_mem_append.1 hquotes
  obtain ⟨-, hnone⟩ := step_of_continuesWith (isPlain_after hquotes rfl) hcont
  rw [← hafter] at hcont
  obtain ⟨longer, hlonger⟩ := (hspells.continuesWith_iff hrun).1 hcont
  have hlast : Inside.after .gap (run ++ [c]) = Inside.after .gap (lead ++ run ++ [c]) := by
    rw [after_append, hafter, after_append (Inside.gap) (lead ++ run)]
  have hnothing : Inside.completed .gap (run ++ [c]) = [] := by
    have htokens := tokensFrom_of_spells hspells
    rw [tokensFrom_eq_completed, hafter, hbegun, List.append_left_eq_self] at htokens
    rw [completed_append, htokens, hafter, Inside.completed, hnone]
    rfl
  refine ⟨longer, List.append_assoc lead run [c], hlonger, ?_, ?_, hlast⟩
  · have htokens := tokensFrom_of_spells hlonger
    rwa [tokensFrom_eq_completed, hnothing, hlast] at htokens
  · rw [completed_append, hcompleted, Inside.completed, hnone]
    exact List.append_nil _

/-- Behind a text without quotes the lexer is in a gap, or inside of the last token. -/
theorem exists_last_token (h : ∀ c ∈ front, isQuote c = false) :
    Inside.after .gap front = .gap ∨ ∃ lead run token, LastToken front lead run token := by
  induction front using List.reverseRecOn with
  | nil => exact .inl rfl
  | append_singleton front c ih =>
    obtain ⟨hfront, hc⟩ := List.forall_mem_append.1 h
    cases hcont : (Inside.after .gap front).continuesWith c with
    | false =>
      refine (exists_begun_token hcont (hc c List.mem_cons_self)).imp_right ?_
      exact fun ⟨token, hlast⟩ => ⟨front, [c], token, hlast⟩
    | true =>
      rcases ih hfront with hgap | ⟨lead, run, token, hlast⟩
      · rw [hgap] at hcont
        contradiction
      · obtain ⟨longer, hlonger⟩ := hlast.longer hfront hcont
        exact .inr ⟨lead, run ++ [c], longer, hlonger⟩

theorem runsOn_iff (h : ∀ c ∈ front, isQuote c = false) :
    RunsOn front back ↔ ∃ c ∈ back.head?, (Inside.after .gap front).continuesWith c = true := by
  constructor
  · rintro ⟨lead, run, token, rfl, hspells, htokens, c, hc, hlonger⟩
    obtain ⟨hlead, hrun⟩ := List.forall_mem_append.1 h
    refine ⟨c, hc, ?_⟩
    have hplain : (Inside.after .gap lead).isPlain = true := isPlain_after hlead rfl
    -- The run is a token of its own, so nothing of the text before it goes on with it.
    have hfresh : ∀ d ∈ run.head?, (Inside.after .gap lead).continuesWith d = false := by
      rw [← tokensFrom_eq_iff hplain, tokensFrom_of_spells hspells]
      rwa [tokensFrom_append, tokensFrom_eq_completed .gap lead, List.append_assoc,
        List.append_cancel_left_eq] at htokens
    obtain ⟨first, rest, rfl⟩ := hspells.exists_first
    have hafter : (Inside.after .gap lead).after (first :: rest) =
        Inside.after .gap (first :: rest) := by
      rw [Inside.after, step_of_not_continuesWith (hfresh first rfl)]
      rfl
    rw [after_append, hafter]
    exact (hspells.continuesWith_iff hrun).2 hlonger
  · rintro ⟨c, hc, hcont⟩
    rcases exists_last_token h with hgap | ⟨lead, run, token, hlast⟩
    · rw [hgap] at hcont
      contradiction
    · have hrun : ∀ d ∈ run, isQuote d = false := by
        rw [hlast.split] at h
        exact (List.forall_mem_append.1 h).2
      refine ⟨lead, run, token, hlast.split, hlast.spells, hlast.tokens, c, hc, ?_⟩
      rwa [← hlast.spells.continuesWith_iff hrun, hlast.after]

/-- The tokens of two pieces of code are those of the first one and those of the second one, unless
the first one runs on. -/
theorem tokensFrom_append_iff (h : ∀ c ∈ front, isQuote c = false) :
    tokensFrom .gap (front ++ back) = tokensFrom .gap front ++ tokensFrom .gap back ↔
      ¬RunsOn front back := by
  have hplain : (Inside.after .gap front).isPlain = true := isPlain_after h rfl
  rw [tokensFrom_append, tokensFrom_eq_completed .gap front, List.append_assoc,
    List.append_cancel_left_eq, tokensFrom_eq_iff hplain, runsOn_iff h]
  simp only [not_exists, not_and, Bool.not_eq_true]

end Marginalia.Code
