import Marginalia.Proofs.Judging.Typos

/-! The words of a project and the spelling of comments: a listed word is never taken for another
one, but the table of known misspellings comes first, and what stands in it is corrected even where
the project lists it. -/

namespace Marginalia

open Marginalia.Code (lowered)
open Marginalia.Unicode

/-! ### Reports -/

namespace Judging

open Marginalia.Spelling

variable {α : Type} [Score α]

/-- A judge reports a word of a comment as misspelled, in the features or in the verdict. -/
def Judge.Reports (judge : Judge α) (comment : Comment) (word : String) : Prop :=
  (∃ features, judge.features comment = .ok features ∧
    ∃ typo ∈ features.typos, typo.found = word) ∨
  ∃ verdict, judge.classify comment = .ok verdict ∧ ∃ typo ∈ verdict.typos, typo.found = word

/-- Features and verdict list the same misspellings: those among the words of the comment. -/
theorem Judge.reports_iff {judge : Judge α} {comment : Comment} {word : String} :
    judge.Reports comment word ↔ comment.check = .ok () ∧
      (Prose.body comment.raw).toList.all isBlank = false ∧
      word ∈ Prose.words (Prose.body comment.raw) ∧
      isSpellable (Code.vocabulary comment.code) word = true ∧
      (judge.dictionary.correction word).isSome := by
  constructor
  · rintro (⟨features, hfeatures, hfound⟩ | ⟨verdict, hverdict, hfound⟩)
    · obtain ⟨hcheck, htext, rfl⟩ := features_eq_ok_iff.1 hfeatures
      rw [typos_featuresOf] at hfound
      exact ⟨hcheck, htext, found_typosIn_iff.1 hfound⟩
    · obtain ⟨hcheck, htext, rfl⟩ := classify_eq_ok_iff.1 hverdict
      rw [typos_verdictOf, typos_featuresOf] at hfound
      exact ⟨hcheck, htext, found_typosIn_iff.1 hfound⟩
  · rintro ⟨hcheck, htext, hfound⟩
    refine .inl ⟨_, features_eq_ok_iff.2 ⟨hcheck, htext, rfl⟩, ?_⟩
    rw [typos_featuresOf]
    exact found_typosIn_iff.2 hfound

/-- The known misspellings are words of three or more ASCII letters, and a comment that says nothing
else is judged by them. -/
theorem reportable_of_known : ∀ word ∈ knownMisspellings.map Prod.fst,
    (3 ≤ word.length ∧ word.toList.all Char.isAlpha = true) ∧
      (noteOf ("// " ++ word)).check = .ok () ∧
      (Prose.body (noteOf ("// " ++ word)).raw).toList.all isBlank = false ∧
      word ∈ Prose.words (Prose.body (noteOf ("// " ++ word)).raw) ∧
      word ∉ Code.vocabulary (noteOf ("// " ++ word)).code := by
  decide +kernel

theorem known_of_lookup_isSome {word : String} (h : (knownMisspellings.lookup word).isSome) :
    word ∈ knownMisspellings.map Prod.fst := by
  obtain ⟨known, hknown⟩ := Option.isSome_iff_exists.1 h
  exact List.mem_map_of_mem (mem_of_lookup_eq_some hknown)

variable {settings : ClassifierSettings α} {word : String}

omit [Score α] in
theorem correction_of_mem (h : word ∈ settings.words) :
    (Judge.ofSettings settings).dictionary.correction word =
      knownMisspellings.lookup (lowered word) := by
  have hmem := lowered_mem_listed (List.mem_append_right wordList h)
  have hlisted := (Dictionary.lists_builtin_extend settings.words).contains_iff.2 hmem
  exact Dictionary.correction_of_isKnown? (Dictionary.isKnown?_of_contains hlisted)

/-- A word of the project is reported in exactly those comments that hold it, on code that does not
name it, if it is a known misspelling. -/
theorem reports_project_word_iff (h : word ∈ settings.words) (comment : Comment) :
    (Judge.ofSettings settings).Reports comment (lowered word) ↔
      (knownMisspellings.lookup (lowered word)).isSome ∧ comment.check = .ok () ∧
        (Prose.body comment.raw).toList.all isBlank = false ∧
        lowered word ∈ Prose.words (Prose.body comment.raw) ∧
        lowered word ∉ Code.vocabulary comment.code := by
  rw [Judge.reports_iff, isSpellable_iff, Dictionary.correction_lowered, correction_of_mem h]
  constructor
  · rintro ⟨hcheck, htext, hmem, ⟨-, hnames⟩, hsome⟩
    exact ⟨hsome, hcheck, htext, hmem, hnames⟩
  · rintro ⟨hsome, hcheck, htext, hmem, hnames⟩
    obtain ⟨hletters, -⟩ := reportable_of_known _ (known_of_lookup_isSome hsome)
    exact ⟨hcheck, htext, hmem, ⟨hletters, hnames⟩, hsome⟩

/-- A word of the project has no correction but the one that the table of known misspellings has for
it. It is reported as misspelled in exactly those comments that hold it, on code that does not name
it, when it stands in that table; so it is never reported exactly when it does not. -/
theorem project_word_reported_iff (h : word ∈ settings.words) :
    (Judge.ofSettings settings).dictionary.correction word =
        knownMisspellings.lookup (lowered word) ∧
      (∀ comment, (Judge.ofSettings settings).Reports comment (lowered word) ↔
        (knownMisspellings.lookup (lowered word)).isSome ∧ comment.check = .ok () ∧
          (Prose.body comment.raw).toList.all isBlank = false ∧
          lowered word ∈ Prose.words (Prose.body comment.raw) ∧
          lowered word ∉ Code.vocabulary comment.code) ∧
      ((∀ comment, ¬(Judge.ofSettings settings).Reports comment (lowered word)) ↔
        knownMisspellings.lookup (lowered word) = none) := by
  have hreports := reports_project_word_iff h
  refine ⟨correction_of_mem h, hreports, fun hnever => ?_, fun hnone comment hreport => ?_⟩
  · by_contra hlisted
    have hsome := Option.isSome_iff_ne_none.2 hlisted
    obtain ⟨-, hstands⟩ := reportable_of_known _ (known_of_lookup_isSome hsome)
    exact hnever (noteOf ("// " ++ lowered word)) ((hreports _).2 ⟨hsome, hstands⟩)
  · have hsome := ((hreports comment).1 hreport).1
    rw [hnone] at hsome
    cases hsome

/-- A judge for a project that has a name and a word of its own. -/
def projectSettings : ClassifierSettings Rat := { usualSettings with words := ["Functon", "teh"] }

/-- The name is one edit away from a common word, but is never reported. -/
theorem functon_never_reported :
    "Functon" ∈ projectSettings.words ∧
      "function" ∈ wordList ∧ alignmentDistance (lowered "Functon") "function" = 1 ∧
      (Judge.ofSettings projectSettings).dictionary.correction "Functon" = none ∧
      ∀ comment, ¬(Judge.ofSettings projectSettings).Reports comment (lowered "Functon") := by
  have hmem : "Functon" ∈ projectSettings.words := by decide
  have hnone : knownMisspellings.lookup (lowered "Functon") = none := by decide +kernel
  obtain ⟨hcorrection, -, hnever⟩ := project_word_reported_iff hmem
  exact ⟨hmem, by decide +kernel, by decide +kernel, hcorrection.trans hnone, hnever.2 hnone⟩

/-- "teh" is reported as "the", though the project lists it. -/
theorem project_word_teh_reported :
    "teh" ∈ projectSettings.words ∧
      (Judge.ofSettings projectSettings).dictionary.correction "teh" = some "the" ∧
      ∃ verdict, (Judge.ofSettings projectSettings).classify (noteOf "// teh") = .ok verdict ∧
        verdict.typos = [⟨"teh", "the"⟩] := by
  refine ⟨by decide, by decide +kernel, ?_⟩
  obtain ⟨verdict, hclassify, htypos⟩ :=
    exists_verdict (Judge.ofSettings projectSettings) (noteOf "// teh") rfl (by decide +kernel)
  exact ⟨verdict, hclassify, htypos.trans (by decide +kernel)⟩

end Judging

end Marginalia
