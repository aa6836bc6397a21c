import Marginalia.Proofs.Judging.Respelling
import Marginalia.Proofs.Prose.Spaces
import Marginalia.Proofs.Spelling.Normalizing

/-! The misspellings that a verdict lists: each word of the comment that spelling is checked of and
that has a correction is listed once, in the order of the comment, with that correction. -/

namespace Marginalia

open Marginalia.Code (lowered)

/-! ### Words of prose and of code -/

namespace Prose

open Marginalia.Unicode

theorem small_of_mem_normalWord {word : List Char} {c : Char} (h : c ∈ normalWord word) :
    Small c := by
  obtain ⟨n, p, -, heq⟩ := normalWord_eq word
  rw [heq] at h
  obtain ⟨d, hd, rfl⟩ := List.mem_map.1 (List.mem_of_mem_take (List.mem_filter.1 h).1)
  rw [straight]
  split
  · decide
  · exact small_of_mem_lowerAfter hd

/-- The words of prose are in lower case. -/
theorem lowered_of_mem_words {text word : String} (h : word ∈ words text) : lowered word = word := by
  obtain ⟨chars, hchars, rfl⟩ := List.mem_map.1 h
  obtain ⟨raw, -, rfl⟩ := List.mem_map.1 (List.mem_filter.1 hchars).1
  refine Code.lowered_of_small fun c hc => ?_
  rw [String.toList_ofList] at hc
  exact small_of_mem_normalWord hc

end Prose

namespace Code

theorem notMem_vocabulary_iff {code word : String} : word ∉ vocabulary code ↔
    ∀ name ∈ wordsOf code, word ≠ lowered name ∧ word ∉ identifierParts name := by
  simp only [vocabulary, List.mem_eraseDups, List.mem_flatMap, List.mem_cons, not_exists, not_and,
    not_or, ne_eq]

end Code

namespace Judging

open Marginalia.Spelling Marginalia.Unicode

/-! ### Misspelled words -/

theorem isSpellable_iff {names : List String} {word : String} :
    isSpellable names word = true ↔
      (3 ≤ word.length ∧ word.toList.all Char.isAlpha = true) ∧ word ∉ names := by
  simp only [isSpellable, Bool.and_eq_true, decide_eq_true_eq, Bool.not_eq_true',
    List.contains_eq_mem, decide_eq_false_iff_not]

/-- The misspelled words, in the order of their first occurrences. -/
theorem map_found_typosIn (dictionary : Dictionary) (names words : List String) :
    (typosIn dictionary names words).map (·.found) =
      (words.eraseDups.filter (isSpellable names)).filter fun word =>
        (dictionary.correction word).isSome := by
  rw [typosIn, List.map_filterMap]
  generalize words.eraseDups.filter (isSpellable names) = kept
  rw [← List.filterMap_eq_filter]
  refine List.filterMap_congr fun word _ => ?_
  cases hcorrection : dictionary.correction word <;> simp [Option.guard, hcorrection]

theorem found_typosIn_iff {dictionary : Dictionary} {names words : List String} {word : String} :
    (∃ typo ∈ typosIn dictionary names words, typo.found = word) ↔
      word ∈ words ∧ isSpellable names word = true ∧ (dictionary.correction word).isSome := by
  rw [← List.mem_map, map_found_typosIn, List.mem_filter, List.mem_filter, List.mem_eraseDups,
    and_assoc]

theorem nodup_found_typosIn (dictionary : Dictionary) (names words : List String) :
    ((typosIn dictionary names words).map (·.found)).Nodup := by
  rw [map_found_typosIn]
  exact ((nodup_eraseDups words).filter _).filter _

theorem pairwise_found_typosIn (dictionary : Dictionary) (names words : List String) :
    ((typosIn dictionary names words).map (·.found)).Pairwise fun a b =>
      words.idxOf a < words.idxOf b := by
  rw [map_found_typosIn]
  exact ((pairwise_idxOf_eraseDups words).filter _).filter _

/-- A suggestion is another listed word, one edit away if the table does not know the word. -/
theorem suggestion_of_correction {more : List String} {found suggestion : String}
    (hlowered : lowered found = found)
    (h : (Dictionary.builtin.extend more).correction found = some suggestion) :
    suggestion ≠ found ∧ (knownMisspellings.lookup found = none →
      (Dictionary.builtin.extend more).contains suggestion = true ∧
        alignmentDistance found suggestion = 1) := by
  have hlists := Dictionary.lists_builtin_extend more
  have hne := hlists.correction_ne h
  rw [hlowered] at hne
  refine ⟨hne, fun hunlisted => ⟨hlists.contains_of_mem (hlists.mem_of_correction h), ?_⟩⟩
  rw [← hlowered] at hunlisted
  obtain ⟨rank, -, hone, -⟩ := ((hlists.correction_eq_some_iff hunlisted).1 h).nearest
  rwa [hlowered] at hone

/-- The misspellings of an accepted comment are the words of three or more ASCII letters that the
code does not name and the dictionary corrects: each once, in the order of the comment, with its
correction. That is another word, and for a word outside the table a listed one, one edit away. -/
theorem typos_sound_and_complete {α : Type} [Score α] {settings : ClassifierSettings α}
    {comment : Comment} {verdict : Verdict α}
    (h : (Judge.ofSettings settings).classify comment = .ok verdict) :
    let dictionary := (Judge.ofSettings settings).dictionary
    let words := Prose.words (Prose.body comment.raw)
    let found := verdict.typos.map (·.found)
    found.Nodup ∧ (found.Pairwise fun a b => words.idxOf a < words.idxOf b) ∧
      (∀ word, word ∈ found ↔ word ∈ words ∧ 3 ≤ word.length ∧ Plain word.toList ∧
        (∀ name ∈ Code.wordsOf comment.code,
          word ≠ lowered name ∧ word ∉ Code.identifierParts name) ∧
        ∃ suggestion, dictionary.correction word = some suggestion) ∧
      ∀ typo ∈ verdict.typos, dictionary.correction typo.found = some typo.suggestion ∧
        typo.suggestion ≠ typo.found ∧
        (knownMisspellings.lookup typo.found = none →
          dictionary.contains typo.suggestion = true ∧
            alignmentDistance typo.found typo.suggestion = 1) := by
  intro dictionary words found
  obtain ⟨-, -, rfl⟩ := classify_eq_ok_iff.1 h
  have htypos : found = (typosIn dictionary (Code.vocabulary comment.code) words).map (·.found) := by
    rw [← typos_featuresOf (Judge.ofSettings settings), ← typos_verdictOf]
  refine ⟨?_, ?_, fun word => ?_, fun typo htypo => ?_⟩
  · rw [htypos]
    exact nodup_found_typosIn ..
  · rw [htypos]
    exact pairwise_found_typosIn ..
  · rw [htypos, List.mem_map, found_typosIn_iff, isSpellable_iff, Code.notMem_vocabulary_iff,
      Option.isSome_iff_exists, List.all_eq_true]
    simp only [and_assoc, Plain]
  · rw [typos_verdictOf, typos_featuresOf] at htypo
    obtain ⟨hspellable, hcorrection⟩ := mem_typosIn htypo
    have hword := (found_typosIn_iff.1 ⟨typo, htypo, rfl⟩).1
    exact ⟨hcorrection, suggestion_of_correction (Prose.lowered_of_mem_words hword) hcorrection⟩

/-- A known misspelling that is a part of a name in the code is not reported. -/
theorem typos_of_teh_seperate :
    let comment := { noteOf "// Teh seperate recieve teh" with code := "let recieveTotal = 1;" }
    let dictionary := (Judge.ofSettings usualSettings).dictionary
    ∃ verdict, (Judge.ofSettings usualSettings).classify comment = .ok verdict ∧
      verdict.typos = [⟨"teh", "the"⟩, ⟨"seperate", "separate"⟩] ∧
      (verdict.typos.map (·.found)).Nodup ∧
      (∀ typo ∈ verdict.typos, typo.suggestion ≠ typo.found) ∧
      "recieve" ∉ verdict.typos.map (·.found) ∧ dictionary.correction "recieve" = some "receive" := by
  intro comment dictionary
  obtain ⟨verdict, hclassify, htypos⟩ :=
    exists_verdict (Judge.ofSettings usualSettings) comment rfl (by decide +kernel)
  obtain ⟨hnodup, -, hfound, hsuggested⟩ := typos_sound_and_complete hclassify
  refine ⟨verdict, hclassify, htypos.trans (by decide +kernel), hnodup,
    fun typo htypo => (hsuggested typo htypo).2.1, fun hmem => ?_, by decide +kernel⟩
  obtain ⟨-, -, -, hnames, -⟩ := (hfound _).1 hmem
  exact (hnames "recieveTotal" (by decide +kernel)).2 (by decide +kernel)

end Judging

end Marginalia
