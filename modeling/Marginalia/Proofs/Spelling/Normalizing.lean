import Marginalia.Proofs.Spelling.Correction
import Marginalia.Proofs.Spelling.WordList

/-! The normal form of a word is its own normal form: every correction, from the table or from the
search, is a listed word, and a listed word that is no known misspelling is not corrected. -/

namespace Marginalia.Spelling

open Marginalia.Code (lowered lowered_lowered)

namespace Dictionary

variable {d : Dictionary} {more : List String} {word s : String}

theorem normalize_of_correction_eq_none (h : d.correction word = none) :
    d.normalize word = lowered word := by
  rw [normalize, h, Option.getD_none]

theorem normalize_of_correction_eq_some (h : d.correction word = some s) :
    d.normalize word = s := by
  rw [normalize, h, Option.getD_some]

theorem lowered_of_mem_listed {words : List String} (h : s ∈ listed words) : lowered s = s := by
  obtain ⟨word, -, rfl⟩ := List.mem_map.1 (List.mem_eraseDups.1 h)
  exact lowered_lowered word

theorem Lists.contains_of_mem {words : List String} (hd : d.Lists (listed words))
    (h : s ∈ listed words) : d.contains s = true := by
  rw [hd.contains_iff, lowered_of_mem_listed h]
  exact h

/-- Every correction is a listed word. -/
theorem Lists.mem_of_correction (hd : d.Lists (listed (wordList ++ more)))
    (h : d.correction word = some s) : s ∈ listed (wordList ++ more) := by
  cases hlookup : knownMisspellings.lookup (lowered word) with
  | some known =>
    rw [correction_of_lookup_eq_some hlookup] at h
    obtain rfl := Option.some.inj h
    have hmem : known ∈ wordList := mem_wordList_of_known hlookup
    rw [← lowered_of_mem_wordList hmem]
    exact lowered_mem_listed (List.mem_append_left more hmem)
  | none =>
    obtain ⟨rank, hrank, -, -⟩ := ((hd.correction_eq_some_iff hlookup).1 h).nearest
    exact List.mem_of_getElem? hrank

theorem lookup_of_mem_listed
    (hmore : ∀ word ∈ more, knownMisspellings.lookup (lowered word) = none)
    (h : s ∈ listed (wordList ++ more)) : knownMisspellings.lookup s = none := by
  obtain ⟨word, hword, rfl⟩ := List.mem_map.1 (List.mem_eraseDups.1 h)
  rcases List.mem_append.1 hword with hword | hword
  · rw [lowered_of_mem_wordList hword]
    exact lookup_of_mem_wordList hword
  · exact hmore word hword

theorem Lists.correction_of_mem (hd : d.Lists (listed (wordList ++ more)))
    (hmore : ∀ word ∈ more, knownMisspellings.lookup (lowered word) = none)
    (h : s ∈ listed (wordList ++ more)) : d.correction s = none := by
  rw [correction_of_isKnown? (isKnown?_of_contains (hd.contains_of_mem h)), lowered_of_mem_listed h]
  exact lookup_of_mem_listed hmore h

/-- A word is never its own correction. -/
theorem Lists.correction_ne (hd : d.Lists (listed (wordList ++ more)))
    (h : d.correction word = some s) : s ≠ lowered word := by
  rintro rfl
  cases hlookup : knownMisspellings.lookup (lowered word) with
  | some known =>
    rw [correction_of_lookup_eq_some hlookup] at h
    obtain rfl := Option.some.inj h
    have hnone := lookup_of_mem_wordList (mem_wordList_of_known hlookup)
    rw [hlookup] at hnone
    cases hnone
  | none =>
    have hunknown := ((hd.correction_eq_some_iff hlookup).1 h).unknown
    rw [isKnown?_of_contains (hd.contains_of_mem (hd.mem_of_correction h))] at hunknown
    cases hunknown

/-- Normalizing a word twice is normalizing it once, and no correction is corrected, in the built-in
dictionary with more words put in any number of times, if none of them is a known misspelling in
lower case. -/
theorem normalize_normalize (extras : List (List String))
    (hextras : ∀ word ∈ extras.flatten, knownMisspellings.lookup (lowered word) = none)
    (word : String) :
    let d := extras.foldl extend builtin
    d.normalize (d.normalize word) = d.normalize word ∧
      ∀ s, d.correction word = some s → d.correction s = none := by
  intro d
  have hd : d.Lists (listed (wordList ++ extras.flatten)) := lists_extended wordList extras
  have hsettled : ∀ s, d.correction word = some s → lowered s = s ∧ d.correction s = none := by
    intro s hs
    have hmem := hd.mem_of_correction hs
    exact ⟨lowered_of_mem_listed hmem, hd.correction_of_mem hextras hmem⟩
  refine ⟨?_, fun s hs => (hsettled s hs).2⟩
  cases hcorrection : d.correction word with
  | some s =>
    obtain ⟨hlowered, hnone⟩ := hsettled s hcorrection
    rw [normalize_of_correction_eq_some hcorrection, normalize_of_correction_eq_none hnone, hlowered]
  | none =>
    have hstill : d.correction (lowered word) = none := by rw [correction_lowered, hcorrection]
    rw [normalize_of_correction_eq_none hcorrection, normalize_of_correction_eq_none hstill,
      lowered_lowered]

/-- Words of a project that are not ASCII, one of them near to a word of the list, and a known
misspelling in capitals. -/
theorem normalize_normalize_of_recieve :
    let extras := [["Größe", "Receivé"], ["KUBERNETES"]]
    let d := extras.foldl extend builtin
    (∀ word ∈ extras.flatten, knownMisspellings.lookup (lowered word) = none) ∧
      d.normalize "RECIEVE" = "receive" ∧ d.normalize "receive" = "receive" ∧
      d.correction "receive" = none := by
  intro extras d
  have hextras : ∀ word ∈ extras.flatten, knownMisspellings.lookup (lowered word) = none := by
    decide +kernel
  have hcorrection : d.correction "RECIEVE" = some "receive" := by decide +kernel
  have hnormal : d.normalize "RECIEVE" = "receive" := normalize_of_correction_eq_some hcorrection
  obtain ⟨htwice, hsettled⟩ := normalize_normalize extras hextras "RECIEVE"
  exact ⟨hextras, hnormal, by rwa [hnormal] at htwice, hsettled _ hcorrection⟩

end Dictionary

end Marginalia.Spelling
