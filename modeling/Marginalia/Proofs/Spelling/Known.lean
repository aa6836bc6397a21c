import Marginalia.Proofs.Sequence
import Marginalia.Proofs.Spelling.Inflection
import Marginalia.Proofs.Unicode.Case

/-! Words that are known. A known word has no correction but the one in the table of known
misspellings, and the regular inflections of a listed word are known: each ending that is added to a
word is one that its bases are found by. -/

namespace Marginalia.Spelling

open Marginalia.Code (lowered lowered_lowered lowered_of_small)
open Marginalia.Text Marginalia.Unicode

namespace Dictionary

variable {d : Dictionary} {word : String}

theorem contains_lowered (d : Dictionary) (word : String) :
    d.contains (lowered word) = d.contains word := by
  rw [contains, contains, lowered_lowered]

theorem isKnown?_lowered (d : Dictionary) (word : String) :
    d.isKnown? (lowered word) = d.isKnown? word := by
  rw [isKnown?, isKnown?, contains_lowered, lowered_lowered]

theorem isKnown?_of_contains (h : d.contains word = true) : d.isKnown? word = some true :=
  if_pos h

theorem correction_lowered (d : Dictionary) (word : String) :
    d.correction (lowered word) = d.correction word := by
  rw [correction, correction, lowered_lowered]

theorem correction_of_lookup_eq_some {known : String}
    (h : knownMisspellings.lookup (lowered word) = some known) :
    d.correction word = some known := by
  rw [correction]
  simp only [h]

/-- A known word is corrected only where it is a known misspelling. -/
theorem correction_of_isKnown? (h : d.isKnown? word = some true) :
    d.correction word = knownMisspellings.lookup (lowered word) := by
  rw [correction]
  cases knownMisspellings.lookup (lowered word) with
  | some known => rfl
  | none => simp [isKnown?_lowered, h]

end Dictionary

/-! ### Inflected forms -/

/-- The regular inflections of a word. -/
inductive Inflects (word : List Char) : List Char → Prop
  /-- An ending stands after the word. -/
  | added {ending : String} (h : ending ∈ ["s", "es", "ed", "ing", "ly", "er", "ers", "est"]) :
    Inflects word (word ++ ending.toList)
  /-- An ending takes the place of a final e. -/
  | silent {stem : List Char} {ending : String} (hstem : word = stem ++ ['e'])
    (hlong : 2 ≤ stem.length) (h : ending ∈ ["ed", "ing", "er", "ers", "est"]) :
    Inflects word (stem ++ ending.toList)
  /-- An ending takes the place of a final y. -/
  | replaced {stem : List Char} {ending : String} (hstem : word = stem ++ ['y'])
    (h : ending ∈ ["ies", "ied", "ily"]) : Inflects word (stem ++ ending.toList)
  /-- The last letter is doubled before an ending. -/
  | doubled {stem : List Char} {last : Char} {ending : String} (hstem : word = stem ++ [last])
    (h : ending ∈ ["ed", "ing", "er", "ers", "est"]) :
    Inflects word (word ++ [last] ++ ending.toList)

/-- A text of ASCII characters without capitals. -/
def Lowercase (text : List Char) : Prop := ∀ c ∈ text, c.toNat < 128 ∧ c.isUpper = false

instance (text : List Char) : Decidable (Lowercase text) := List.decidableBAll _ text

theorem Lowercase.ascii {text : List Char} (h : Lowercase text) : Ascii text :=
  fun c hc => (h c hc).1

theorem Lowercase.lowered {text : String} (h : Lowercase text.toList) : lowered text = text :=
  lowered_of_small fun c hc => small_of_ascii (h c hc).1 (h c hc).2

theorem lowercase_of_isLower {text : List Char} (h : ∀ c ∈ text, c.isLower = true) :
    Lowercase text := by
  intro c hc
  have hascii : c.toNat < 128 := toNat_lt_of_isAlpha (Bool.or_eq_true_iff.2 (.inr (h c hc)))
  exact ⟨hascii, forall_of_lt (P := fun c => c.isLower = true → c.isUpper = false) (by decide)
    hascii (h c hc)⟩

theorem lowercase_append {text more : List Char} :
    Lowercase (text ++ more) ↔ Lowercase text ∧ Lowercase more :=
  List.forall_mem_append

theorem mem_plainEndings_of_doubling {ending : String} (h : ending ∈ doublingEndings) :
    ending ∈ plainEndings := by
  revert ending
  decide

theorem lowercase_ending {ending : String} (h : ending ∈ plainEndings) :
    Lowercase ending.toList := by
  revert ending
  decide

theorem Inflects.lowercase {word form : List Char} (h : Inflects word form)
    (hword : Lowercase word) : Lowercase form := by
  cases h with
  | added h => exact lowercase_append.2 ⟨hword, lowercase_ending h⟩
  | silent hstem _ h =>
    rw [hstem, lowercase_append] at hword
    exact lowercase_append.2 ⟨hword.1, lowercase_ending (mem_plainEndings_of_doubling h)⟩
  | replaced hstem h =>
    have hendings : ∀ ending ∈ ["ies", "ied", "ily"], Lowercase ending.toList := by decide
    rw [hstem, lowercase_append] at hword
    exact lowercase_append.2 ⟨hword.1, hendings _ h⟩
  | doubled hstem h =>
    have hlast := (lowercase_append.1 (hstem ▸ hword)).2
    exact lowercase_append.2 ⟨lowercase_append.2 ⟨hword, hlast⟩,
      lowercase_ending (mem_plainEndings_of_doubling h)⟩

/-! ### Bases of inflected forms -/

theorem mem_bases_of_mem_yStems {word base : List Char} {bases : List (List Char)}
    (h : bases? word = some bases) (hbase : base ∈ yStems word) : base ∈ bases := by
  obtain ⟨stems, -, rfl⟩ := Option.map_eq_some_iff.1 h
  exact List.mem_append_left _ hbase

theorem mem_bases_of_mem_stems {word base : List Char} {bases stems : List (List Char)}
    {ending : String} (h : bases? word = some bases) (hending : ending ∈ plainEndings)
    (hstems : stems? word ending = some stems) (hbase : base ∈ stems) : base ∈ bases := by
  obtain ⟨all, hall, rfl⟩ := Option.map_eq_some_iff.1 h
  obtain ⟨others, hmem, hothers⟩ := exists_of_forall₂ (mapM_eq_some_iff.1 hall).flip hending
  obtain rfl := Option.some.inj (hstems.symm.trans hothers)
  exact List.mem_append_right _ (List.mem_flatten.2 ⟨stems, hmem, hbase⟩)

theorem length_le_length_bytes (text : List Char) : text.length ≤ (bytes text).length := by
  induction text with
  | nil => exact Nat.le_refl _
  | cons c rest ih =>
    have hsize := c.utf8Size_pos
    rw [bytes, List.flatMap_cons, List.length_append, String.length_utf8EncodeChar,
      List.length_cons, ← bytes]
    omega

theorem stems?_append {stem : List Char} (hlong : 2 ≤ stem.length) (ending : String) :
    stems? (stem ++ ending.toList) ending =
      if doublingEndings.contains ending && endsDoubled stem then
        (dropLastByte? stem).map fun single => [stem, stem ++ ['e'], single]
      else some [stem, stem ++ ['e']] := by
  have hbytes := length_le_length_bytes stem
  rw [stems?, before?_eq_some_iff.2 rfl]
  exact if_neg (by omega)

theorem mem_stems?_append {stem : List Char} (hlong : 2 ≤ stem.length) {ending : String}
    {stems : List (List Char)} (h : stems? (stem ++ ending.toList) ending = some stems) :
    stem ∈ stems ∧ stem ++ ['e'] ∈ stems := by
  rw [stems?_append hlong] at h
  split at h
  · obtain ⟨single, -, rfl⟩ := Option.map_eq_some_iff.1 h
    simp
  · obtain rfl := Option.some.inj h
    simp

theorem endsDoubled_concat {c : Char} (h : c.toNat < 128) (stem : List Char) :
    endsDoubled (stem ++ [c] ++ [c]) = true := by
  have hlength : (String.utf8EncodeChar c).length = 1 := by
    rw [String.length_utf8EncodeChar, utf8Size_eq_one_iff.2 h]
  obtain ⟨b, hb⟩ := List.length_eq_one_iff.1 hlength
  simp [endsDoubled, bytes, hb]

/-- The stem of a doubled letter is among the stems without that letter. -/
theorem mem_stems?_doubled {stem : List Char} {last : Char} (hlast : last.toNat < 128)
    {ending : String} (hending : ending ∈ doublingEndings) {stems : List (List Char)}
    (h : stems? (stem ++ [last] ++ [last] ++ ending.toList) ending = some stems) :
    stem ++ [last] ∈ stems := by
  have hdoubling : doublingEndings.contains ending = true := List.contains_iff_mem.2 hending
  rw [stems?_append (by simp), hdoubling,
    endsDoubled_concat hlast, dropLastByte?_concat hlast] at h
  obtain rfl := Option.some.inj h
  simp

theorem mem_yStems {stem : List Char} {ending : String} (h : ending ∈ ["ies", "ied", "ily"]) :
    stem ++ ['y'] ∈ yStems (stem ++ ending.toList) := by
  refine List.mem_map.2 ⟨stem, ?_, rfl⟩
  have hsome (ending : List Char) : before? (stem ++ ending) ending = some stem :=
    before?_eq_some_iff.2 rfl
  simp only [List.mem_cons, List.not_mem_nil, or_false] at h
  rcases h with rfl | rfl | rfl
  · refine List.mem_append_left _ ?_
    rw [show "ies".toList = ['i', 'e', 's'] from rfl, hsome]
    exact List.mem_singleton.2 rfl
  · -- A word that ends in "ied" does not end in "ies", which is looked for first.
    have hnone : before? (stem ++ ['i', 'e', 'd']) ['i', 'e', 's'] = none := by
      rw [Option.eq_none_iff_forall_ne_some]
      intro other hother
      have htails := List.append_inj_right' (before?_eq_some_iff.1 hother) rfl
      cases htails
    refine List.mem_append_left _ ?_
    rw [show "ied".toList = ['i', 'e', 'd'] from rfl, hnone, hsome]
    exact List.mem_singleton.2 rfl
  · refine List.mem_append_right _ ?_
    rw [show "ily".toList = ['i', 'l', 'y'] from rfl, hsome]
    exact List.mem_singleton.2 rfl

/-- A word is among the bases of its inflections. -/
theorem Inflects.mem_bases {word form : List Char} (h : Inflects word form) (hword : Lowercase word)
    (hlong : 2 ≤ word.length) {bases : List (List Char)} (hbases : bases? form = some bases) :
    word ∈ bases := by
  have hascii : Ascii form := (h.lowercase hword).ascii
  cases h with
  | @added ending hending =>
    obtain ⟨stems, hstems⟩ := exists_stems? hascii ending
    exact mem_bases_of_mem_stems hbases hending hstems (mem_stems?_append hlong hstems).1
  | @silent stem ending hstem hlong hending =>
    obtain ⟨stems, hstems⟩ := exists_stems? hascii ending
    rw [hstem]
    exact mem_bases_of_mem_stems hbases (mem_plainEndings_of_doubling hending) hstems
      (mem_stems?_append hlong hstems).2
  | replaced hstem hending =>
    rw [hstem]
    exact mem_bases_of_mem_yStems hbases (mem_yStems hending)
  | @doubled stem last ending hstem hending =>
    obtain ⟨stems, hstems⟩ := exists_stems? hascii ending
    have hlast : last.toNat < 128 := (hword last (by simp [hstem])).1
    rw [hstem] at hbases hstems ⊢
    exact mem_bases_of_mem_stems hbases (mem_plainEndings_of_doubling hending) hstems
      (mem_stems?_doubled hlast hending hstems)

namespace Dictionary

theorem isKnown?_of_inflects {d : Dictionary} {word form : String} (hlisted : d.contains word = true)
    (hword : Lowercase word.toList) (hlong : 2 ≤ word.length)
    (h : Inflects word.toList form.toList) : d.isKnown? form = some true := by
  have hform : Lowercase form.toList := h.lowercase hword
  obtain ⟨bases, hbases⟩ := exists_bases? hform.ascii
  have hmem : word.toList ∈ bases := h.mem_bases hword hlong hbases
  rw [isKnown?, hform.lowered, hbases]
  split
  · rfl
  · refine congrArg some (List.any_eq_true.2 ⟨word.toList, hmem, ?_⟩)
    rwa [String.ofList_toList, ← hword.lowered]

/-- The regular inflections of a listed word of two or more small letters are known: with an ending
after it, in the place of a final e or y, or after the last letter doubled. So none of them is
corrected, unless it stands in the table of known misspellings. -/
theorem inflections_known (d : Dictionary) {word form : String} (hlisted : d.contains word = true)
    (hword : Lowercase word.toList) (hlong : 2 ≤ word.length)
    (h : Inflects word.toList form.toList) :
    d.isKnown? form = some true ∧
      d.correction form = knownMisspellings.lookup form := by
  have hknown : d.isKnown? form = some true := isKnown?_of_inflects hlisted hword hlong h
  rw [correction_of_isKnown? hknown, (h.lowercase hword).lowered]
  exact ⟨hknown, rfl⟩

/-- With "occur" listed both spellings of its past form are known, but one is a known misspelling. -/
theorem inflections_known_of_occur :
    (ofList ["Occur"]).contains "occur" = true ∧ Lowercase "occur".toList ∧ 2 ≤ "occur".length ∧
      Inflects "occur".toList "occurred".toList ∧ Inflects "occur".toList "occured".toList ∧
      ((ofList ["Occur"]).isKnown? "occurred" = some true ∧
        (ofList ["Occur"]).correction "occurred" = none) ∧
      (ofList ["Occur"]).isKnown? "occured" = some true ∧
        (ofList ["Occur"]).correction "occured" = some "occurred" := by
  have hlisted : (ofList ["Occur"]).contains "occur" = true := by decide +kernel
  have hword : Lowercase "occur".toList := by decide +kernel
  have hlong : 2 ≤ "occur".length := by decide
  have hdoubled : Inflects "occur".toList "occurred".toList :=
    @Inflects.doubled _ ['o', 'c', 'c', 'u'] 'r' "ed" rfl (by decide)
  have hadded : Inflects "occur".toList "occured".toList := @Inflects.added _ "ed" (by decide)
  exact ⟨hlisted, hword, hlong, hdoubled, hadded, inflections_known _ hlisted hword hlong hdoubled,
    inflections_known _ hlisted hword hlong hadded⟩

end Dictionary

end Marginalia.Spelling
