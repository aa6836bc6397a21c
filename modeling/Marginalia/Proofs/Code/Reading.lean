import Marginalia.Proofs.Code.Fusion

/-! What the lexer reads, whatever the text: every token that it gives can be spelled. The blanks of a
text may be exchanged for others, and may come and go where no token goes on, without a change to the
tokens. -/

namespace Marginalia.Code

open Marginalia.Unicode

variable {inside : Inside} {c : Char} {text back gap : List Char}

/-! ### Tokens that are read -/

/-- A token that some text spells. -/
def Token.Spelled (token : Token) : Prop := ∃ text, Spells token text

/-- What the lexer can be inside of: a word in hand has begun as words do, and a quote is one. -/
def Inside.Sound : Inside → Prop
  | .gap | .number => True
  | .word read => ∃ c letters, read.reverse = c :: letters ∧ startsWord c = true ∧
      ∀ d ∈ letters, continuesWord d = true
  | .quoted quote | .escape quote => isQuote quote = true

theorem spelled_quoted : Token.quoted.Spelled := ⟨_, .quoted [] (.inl rfl) (by simp)⟩

theorem spelled_number : Token.number.Spelled :=
  ⟨['0'], .number (by decide) (by simp)⟩

theorem spelled_finish (h : inside.Sound) : ∀ token ∈ finish inside, token.Spelled := by
  cases inside with
  | gap => simp [finish]
  | word read =>
    obtain ⟨c, letters, hread, hfirst, hletters⟩ := h
    rw [finish, List.forall_mem_singleton, wordToken, hread]
    exact ⟨_, .word (startsWord_iff.1 hfirst) fun d hd => continuesWord_iff.1 (hletters d hd)⟩
  | number => exact List.forall_mem_singleton.2 spelled_number
  | quoted | escape => exact List.forall_mem_singleton.2 spelled_quoted

theorem sound_enter (c : Char) : (enter c).1.Sound ∧ ∀ token ∈ (enter c).2, token.Spelled := by
  by_cases hblank : isBlank c = true
  · rw [enter_blank hblank]
    exact ⟨trivial, by simp⟩
  by_cases hquote : isQuote c = true
  · rw [enter_quote hquote]
    exact ⟨hquote, by simp⟩
  by_cases hdigit : c.isDigit = true
  · rw [enter_digit hdigit]
    exact ⟨trivial, by simp⟩
  by_cases hstarts : startsWord c = true
  · rw [enter_word hstarts]
    exact ⟨⟨c, [], rfl, hstarts, by simp⟩, by simp⟩
  · rw [Bool.not_eq_true] at hblank hdigit hquote hstarts
    rw [enter_mark_iff.2 ⟨hblank, hquote, hdigit, hstarts⟩]
    refine ⟨trivial, List.forall_mem_singleton.2 ⟨[c], ?_⟩⟩
    simp only [isQuote, startsWord, Bool.or_eq_false_iff, beq_eq_false_iff_ne] at hquote hstarts
    exact .mark hblank ⟨hquote.1.1, hquote.1.2, hquote.2⟩ hdigit hstarts.1.1
      ⟨hstarts.1.2, hstarts.2⟩

theorem sound_step (h : inside.Sound) (c : Char) :
    (step inside c).1.Sound ∧ ∀ token ∈ (step inside c).2, token.Spelled := by
  cases hcont : inside.continuesWith c with
  | false =>
    obtain ⟨hsound, hspelled⟩ := sound_enter c
    rw [step_of_not_continuesWith hcont]
    exact ⟨hsound, List.forall_mem_append.2 ⟨spelled_finish h, hspelled⟩⟩
  | true =>
    cases inside with
    | gap => cases hcont
    | word read =>
      obtain ⟨first, letters, hread, hfirst, hletters⟩ := h
      have hcont : continuesWord c = true := hcont
      rw [step, if_pos hcont]
      refine ⟨⟨first, letters ++ [c], by simp [hread], hfirst, ?_⟩, by simp⟩
      exact List.forall_mem_append.2 ⟨hletters, List.forall_mem_singleton.2 hcont⟩
    | number =>
      have hcont : continuesNumber c = true := hcont
      rw [step, if_pos hcont]
      exact ⟨trivial, by simp⟩
    | quoted quote =>
      rw [step]
      split
      · exact ⟨trivial, List.forall_mem_singleton.2 spelled_quoted⟩
      · split <;> exact ⟨h, by simp⟩
    | escape quote => exact ⟨h, by simp [step]⟩

theorem sound_after (h : inside.Sound) (text : List Char) : (inside.after text).Sound := by
  induction text generalizing inside with
  | nil => exact h
  | cons c rest ih => exact ih (sound_step h c).1

theorem spelled_of_mem_tokensFrom (h : inside.Sound) :
    ∀ token ∈ tokensFrom inside text, token.Spelled := by
  induction text generalizing inside with
  | nil => exact spelled_finish h
  | cons c rest ih =>
    obtain ⟨hsound, hspelled⟩ := sound_step h c
    exact List.forall_mem_append.2 ⟨hspelled, ih hsound⟩

/-- Every token of a code can be spelled. -/
theorem spelled_of_mem_tokens {code : String} : ∀ token ∈ tokens code, token.Spelled :=
  have hgap : Inside.Sound .gap := trivial
  spelled_of_mem_tokensFrom hgap

/-! ### Other layouts -/

/-- Layouts of one code. Blanks stand for blanks, whatever they stand in, and blanks can come and go
where what follows does not go on with the token before. -/
inductive Relaid : List Char → List Char → Prop where
  | blanks (front back : List Char) {gap other : List Char} (hgap : Blanks gap) (hne : gap ≠ [])
      (hother : Blanks other) (hother_ne : other ≠ []) :
      Relaid (front ++ (gap ++ back)) (front ++ (other ++ back))
  | spread (front back : List Char) {gap : List Char} (hgap : Blanks gap)
      (hends : ∀ c ∈ back.head?, (Inside.after .gap front).continuesWith c = false) :
      Relaid (front ++ back) (front ++ (gap ++ back))
  | symm {text other : List Char} (h : Relaid text other) : Relaid other text
  | trans {text other last : List Char} (h : Relaid text other) (h' : Relaid other last) :
      Relaid text last

/-- Where a blank leads, and the tokens that it completes. -/
def Inside.spaced : Inside → Inside × List Token
  | .gap => (.gap, [])
  | .word read => (.gap, [wordToken read])
  | .number => (.gap, [.number])
  | .quoted quote | .escape quote => (.quoted quote, [])

theorem step_of_isBlank (h : inside.Sound) (hc : isBlank c = true) : step inside c = inside.spaced := by
  obtain ⟨hquote, -, -, hword, hnumber⟩ := classes_of_isBlank hc
  cases inside with
  | gap => exact enter_blank hc
  | word read => simp [step, hword, enter_blank hc, Inside.spaced]
  | number => simp [step, hnumber, enter_blank hc, Inside.spaced]
  | quoted quote =>
    have hne : c ≠ quote := by
      rintro rfl
      rw [show isQuote c = true from h] at hquote
      cases hquote
    have hbackslash : c ≠ '\\' := by
      rintro rfl
      cases hc
    simp [step, hne, hbackslash, Inside.spaced]
  | escape quote => rfl

/-- Blanks are read as one blank is. -/
theorem tokensFrom_gap (h : inside.Sound) (hgap : Blanks gap) (hne : gap ≠ []) :
    tokensFrom inside (gap ++ back) = inside.spaced.2 ++ tokensFrom inside.spaced.1 back := by
  induction gap generalizing inside with
  | nil => contradiction
  | cons c gap ih =>
    obtain ⟨hc, hgap⟩ := List.forall_mem_cons.1 hgap
    rw [List.cons_append, tokensFrom, step_of_isBlank h hc]
    by_cases hempty : gap = []
    · rw [hempty, List.nil_append]
    · have hsound := (sound_step h c).1
      rw [step_of_isBlank h hc] at hsound
      have hagain : inside.spaced.1.spaced = (inside.spaced.1, []) := by cases inside <;> rfl
      rw [ih hsound hgap hempty, hagain, List.nil_append]

/-- Blanks before what does not go on with a token only complete it. -/
theorem tokensFrom_spread (h : inside.Sound) (hgap : Blanks gap)
    (hends : ∀ c ∈ back.head?, inside.continuesWith c = false) :
    tokensFrom inside (gap ++ back) = tokensFrom inside back := by
  by_cases hempty : gap = []
  · rw [hempty, List.nil_append]
  rw [tokensFrom_gap h hgap hempty, tokensFrom_of_not_continuesWith hends]
  cases back with
  | nil => cases inside <;> rfl
  | cons d back =>
    have hcont := hends d rfl
    cases inside with
    | gap | word | number => rfl
    | quoted | escape => cases hcont

theorem tokensFrom_relaid {text other : List Char} (h : Relaid text other) :
    tokensFrom .gap text = tokensFrom .gap other := by
  have hgap : Inside.Sound .gap := trivial
  have hsound (front : List Char) : (Inside.after .gap front).Sound := sound_after hgap front
  induction h with
  | blanks front back hgap hne hother hother_ne =>
    rw [tokensFrom_append _ front, tokensFrom_append _ front, tokensFrom_gap (hsound front) hgap hne,
      tokensFrom_gap (hsound front) hother hother_ne]
  | spread front back hgap hends =>
    rw [tokensFrom_append _ front, tokensFrom_append _ front,
      tokensFrom_spread (hsound front) hgap hends]
  | symm _ ih => exact ih.symm
  | trans _ _ ih ih' => exact ih.trans ih'

end Marginalia.Code
