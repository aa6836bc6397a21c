import Marginalia.Proofs.Code.Reading
import Marginalia.Proofs.Prose.Spaces
import Marginalia.Proofs.Unicode.Letters

/-! The shape of code. A shape is made of normal forms alone, without the tokens that they came from;
the first character of a form still tells names and keywords from all other tokens, so a shape keeps
of each token all but the spelling of a name. -/

namespace Marginalia.Code

open Marginalia.Unicode

/-- A word that is neither a keyword nor a truth value. -/
def Token.isName : Token → Bool
  | .word text => !isKeyword text && !isTruthValue text
  | .number | .quoted | .mark _ => false

/-- Tokens that a shape does not tell apart. -/
def SameShape (token other : Token) : Prop :=
  token.isName = true ∧ other.isName = true ∨ normalForm token = normalForm other

/-- What may stand for a token after names are changed and literals are replaced. The spelling of a
number or of a quoted text is no part of its token. -/
inductive Renamed : Token → Token → Prop where
  | same (token : Token) : Renamed token token
  | name {token other : Token} (h : token.isName = true) (h' : other.isName = true) :
      Renamed token other
  | truthValue {text other : String} (h : isTruthValue text = true) (h' : isTruthValue other = true) :
      Renamed (.word text) (.word other)

theorem Renamed.sameShape {token other : Token} (h : Renamed token other) :
    SameShape token other := by
  cases h with
  | same => exact .inr rfl
  | name h h' => exact .inl ⟨h, h'⟩
  | truthValue h h' => exact .inr (by rw [normalForm, normalForm, if_pos h, if_pos h'])

/-! ### Words in lower case -/

theorem exists_lower_of_startsWord {c : Char} (h : startsWord c = true) (rest : List Char) :
    ∃ d more, lower (c :: rest) = d :: more ∧ startsWord d = true := by
  have hletter {d : Char} (hd : isLetter d = true) : startsWord d = true :=
    startsWord_iff.2 (.inl hd)
  rw [lower, lowerAfter]
  split
  · split
    · exact ⟨_, _, rfl, hletter (by decide +kernel)⟩
    · exact ⟨_, _, rfl, hletter (by decide +kernel)⟩
  · rcases startsWord_iff.1 h with h | rfl | rfl
    · obtain ⟨d, more, hd, hdletter⟩ := exists_lowerChar_of_isLetter h
      rw [hd]
      exact ⟨d, _, rfl, hletter hdletter⟩
    · exact ⟨'_', _, rfl, rfl⟩
    · exact ⟨'$', _, rfl, rfl⟩

theorem continuesWord_of_startsWord {c : Char} (h : startsWord c = true) : continuesWord c = true := by
  rw [startsWord_iff] at h
  exact continuesWord_iff.2 (h.imp_left fun h => Bool.or_eq_true_iff.2 (.inl h))

theorem space_notMem_lower {text : List Char} (h : ∀ c ∈ text, continuesWord c = true) :
    ' ' ∉ lower text :=
  fun hspace => absurd (h ' ' (Prose.mem_of_mem_lowerAfter hspace)) (by decide +kernel)

/-! ### Forms -/

/-- A form that a name or a keyword may have. -/
def isWordForm (form : String) : Bool := form.toList.head?.any startsWord

/-- A form that can be found again among forms that are joined by spaces. -/
def Separable (form : String) : Prop := form ≠ "" ∧ ' ' ∉ form.toList

theorem isWordForm_lowered {text : String} {run : List Char} (h : Spells (.word text) run) :
    isWordForm (lowered text) = true := by
  cases h with
  | @word c letters hfirst _ =>
    obtain ⟨d, more, hd, hstarts⟩ := exists_lower_of_startsWord (startsWord_iff.2 hfirst) letters
    rw [isWordForm, lowered, String.toList_ofList, String.toList_ofList, hd]
    exact hstarts

theorem isKeyword_lowered (text : String) : isKeyword (lowered text) = isKeyword text := by
  rw [isKeyword, isKeyword, lowered_lowered]

/-- Whether a token is a name can be told from its normal form. -/
theorem isName_eq {token : Token} (h : token.Spelled) :
    token.isName = (isWordForm (normalForm token) && !isKeyword (normalForm token)) := by
  obtain ⟨run, h⟩ := h
  cases token with
  | word text =>
    rw [Token.isName, normalForm]
    split
    · next htruth => rw [htruth, Bool.not_true, Bool.and_false]; rfl
    · next htruth =>
      rw [Bool.not_eq_true] at htruth
      rw [htruth, isWordForm_lowered h, isKeyword_lowered, Bool.not_false, Bool.and_true,
        Bool.true_and]
  | number => rfl
  | quoted => rfl
  | mark c =>
    cases h with
    | mark _ _ _ hletter hname =>
      have hstarts : startsWord c = false := by simp [startsWord, hletter, hname]
      simp [Token.isName, normalForm, isWordForm, hstarts]

theorem shapeForm_normalForm {token : Token} (h : token.Spelled) :
    shapeForm (normalForm token) = if token.isName then identifierForm else normalForm token := by
  rw [isName_eq h]
  rfl

/-- No token has the form that stands for a name. -/
theorem normalForm_ne_identifierForm {token : Token} (h : token.Spelled) :
    normalForm token ≠ identifierForm := by
  intro heq
  obtain ⟨run, h⟩ := h
  cases token with
  | word text =>
    rw [normalForm] at heq
    split at heq
    · exact absurd heq (by decide)
    · have hform := isWordForm_lowered h
      rw [heq] at hform
      exact absurd hform (by decide +kernel)
  | number | quoted => exact absurd heq (by decide)
  | mark c =>
    have hlength := congrArg String.length heq
    rw [normalForm, String.length_singleton] at hlength
    exact absurd hlength (by decide)

theorem shapeForm_eq_iff {token other : Token} (h : token.Spelled) (h' : other.Spelled) :
    shapeForm (normalForm token) = shapeForm (normalForm other) ↔ SameShape token other := by
  -- Tokens of one form are both names or both none.
  have hboth (heq : normalForm token = normalForm other) : token.isName = other.isName := by
    rw [isName_eq h, isName_eq h', heq]
  rw [shapeForm_normalForm h, shapeForm_normalForm h', SameShape]
  cases hname : token.isName <;> cases hother : other.isName <;>
    rw [hname, hother] at hboth
  · simp
  · have hne := normalForm_ne_identifierForm h
    simpa [hne] using fun heq => nomatch hboth heq
  · have hne := (normalForm_ne_identifierForm h').symm
    simpa [hne] using fun heq => nomatch hboth heq
  · simp

theorem shapeForm_shapeForm (form : String) : shapeForm (shapeForm form) = shapeForm form := by
  rw [shapeForm.eq_def form]
  split
  · decide +kernel
  · next h => rw [shapeForm, if_neg h]

theorem shape_shape (forms : List String) : shape (shape forms) = shape forms := by
  rw [shape, shape, List.map_map]
  exact List.map_congr_left fun form _ => shapeForm_shapeForm form

/-! ### Forms joined by spaces -/

theorem separable_normalForm {token : Token} (h : token.Spelled) : Separable (normalForm token) := by
  obtain ⟨run, h⟩ := h
  cases token with
  | word text =>
    rw [normalForm]
    split
    · exact ⟨by decide, by decide⟩
    · have hform := isWordForm_lowered h
      refine ⟨fun hempty => ?_, ?_⟩
      · rw [hempty] at hform
        cases hform
      · cases h with
        | word hfirst hletters =>
          rw [lowered, String.toList_ofList, String.toList_ofList]
          refine space_notMem_lower (List.forall_mem_cons.2 ⟨?_, fun d hd => ?_⟩)
          · exact continuesWord_of_startsWord (startsWord_iff.2 hfirst)
          · exact continuesWord_iff.2 (hletters d hd)
  | number | quoted => exact ⟨by decide, by decide⟩
  | mark c =>
    cases h with
    | mark hblank =>
      refine ⟨fun hempty => ?_, fun hspace => ?_⟩
      · have hlength := congrArg String.length hempty
        rw [normalForm, String.length_singleton] at hlength
        exact absurd hlength (by decide)
      · rw [normalForm, String.toList_singleton, List.mem_singleton] at hspace
        rw [← hspace] at hblank
        cases hblank

theorem separable_shapeForm {form : String} (h : Separable form) : Separable (shapeForm form) := by
  rw [shapeForm]
  split
  · exact ⟨by decide, by decide⟩
  · exact h

theorem intercalate_ne_empty {forms : List String} (h : ∀ form ∈ forms, Separable form)
    (hne : forms ≠ []) : String.intercalate " " forms ≠ "" := by
  obtain ⟨form, rest, rfl⟩ := List.exists_cons_of_ne_nil hne
  have hform := (h form List.mem_cons_self).1
  cases rest with
  | nil => rwa [String.intercalate_singleton]
  | cons next rest => simp [String.intercalate_cons_cons, hform]

theorem splitOn_intercalate_space {forms : List String} (h : ∀ form ∈ forms, Separable form)
    (hne : forms ≠ []) :
    (String.intercalate " " forms).toList.splitOn ' ' = forms.map String.toList := by
  rw [String.toList_intercalate]
  refine List.splitOn_intercalate ' ' (fun chars hchars => ?_) (by simpa using hne)
  obtain ⟨form, hform, rfl⟩ := List.mem_map.1 hchars
  exact (h form hform).2

theorem intercalate_injective {forms others : List String} (h : ∀ form ∈ forms, Separable form)
    (h' : ∀ form ∈ others, Separable form)
    (heq : String.intercalate " " forms = String.intercalate " " others) : forms = others := by
  have hempty : String.intercalate " " ([] : List String) = "" := rfl
  by_cases hforms : forms = [] <;> by_cases hothers : others = []
  · rw [hforms, hothers]
  · rw [hforms, hempty] at heq
    exact absurd heq.symm (intercalate_ne_empty h' hothers)
  · rw [hothers, hempty] at heq
    exact absurd heq (intercalate_ne_empty h hforms)
  · have hlists := congrArg (fun text => text.toList.splitOn ' ') heq
    simp only [splitOn_intercalate_space h hforms, splitOn_intercalate_space h' hothers] at hlists
    exact (List.map_inj_right fun _ _ => String.toList_injective).1 hlists

end Marginalia.Code
