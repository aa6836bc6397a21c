import Marginalia.Proofs.Spelling.Known
import Marginalia.Proofs.Text.Bytes

/-! The listed words and the table of known misspellings: the words are in small letters, every
correction in the table is one of them, and no misspelling is. -/

namespace Marginalia.Spelling

open Marginalia.Code (lowered)

/-- The listed words are in small ASCII letters. -/
theorem isLower_of_mem_wordList {word : String} (h : word ∈ wordList) :
    ∀ c ∈ word.toList, c.isLower = true := by
  have hall : (wordList.all fun word =>
      word.toByteArray.data.toList.all fun b => 97 ≤ b && b ≤ 122) = true := by decide +kernel
  refine Text.isLower_of_bytes fun b hb => ?_
  simpa using List.all_eq_true.1 (List.all_eq_true.1 hall word h) b hb

theorem lowered_of_mem_wordList {word : String} (h : word ∈ wordList) : lowered word = word :=
  (lowercase_of_isLower (isLower_of_mem_wordList h)).lowered

/-- The corrections of the known misspellings, in the order of the word list. -/
def intended : List String := [
  "the", "that", "which", "their", "until", "because", "believe", "receive", "separate",
  "definitely", "occurred", "necessary", "beginning", "weird", "apparently", "immediately",
  "occurrence", "recommend", "reference", "calendar", "environment", "available", "development",
  "successful", "function", "return", "variable", "parameter", "argument"]

theorem intended_sublist : intended.Sublist wordList :=
  List.isSublist_iff_sublist.1 (by decide +kernel)

theorem mem_wordList_of_known {misspelling word : String}
    (h : knownMisspellings.lookup misspelling = some word) : word ∈ wordList := by
  have hall : ∀ entry ∈ knownMisspellings, entry.2 ∈ intended := by decide +kernel
  exact intended_sublist.subset (hall _ (mem_of_lookup_eq_some h))

/-- A number for a word, other than those of most words. -/
def fingerprint (word : String) : Nat :=
  word.toByteArray.data.toList.foldl (fun n b => (n * 256 + b.toNat) % 32749) 0

/-- No listed word is a known misspelling. The words are told apart by their fingerprints, as there
are many pairs of them. -/
theorem lookup_of_mem_wordList {word : String} (h : word ∈ wordList) :
    knownMisspellings.lookup word = none := by
  have hapart : ∀ word ∈ wordList, word ∉ knownMisspellings.map Prod.fst :=
    notMem_of_bits_map fingerprint (by decide +kernel)
  rw [Option.eq_none_iff_forall_ne_some]
  intro known hknown
  exact hapart word h (List.mem_map_of_mem (mem_of_lookup_eq_some hknown))

end Marginalia.Spelling
