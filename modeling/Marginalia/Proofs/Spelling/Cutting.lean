import Marginalia.Proofs.Spelling.Correction
import Marginalia.Proofs.Spelling.Known
import Marginalia.Proofs.Text.Cells

/-! Where a lookup fails. A doubled letter is told by the last two bytes of a base, and the second of
them is cut off. Inside a character this cannot be done, so it cannot be said whether a word is known
in which an ending stands after a character with two equal bytes at its end. Corrections and normal
forms never come to that, as they look only for words of ASCII letters. -/

namespace Marginalia.Spelling

open Marginalia.Code (lowered)
open Marginalia.Text

/-! ### Cuts by bytes -/

/-- A character of three or four bytes of which the last two are equal: they hold six bits of its
code each. -/
def Twinned (c : Char) : Prop := 2048 ≤ c.toNat ∧ c.toNat % 64 = c.toNat / 64 % 64

instance (c : Char) : Decidable (Twinned c) := inferInstanceAs (Decidable (_ ∧ _))

def EndsTwinned (text : List Char) : Prop := ∃ stem c, text = stem ++ [c] ∧ Twinned c

theorem ofNat_beq_ofNat_iff {m n : Nat} (hm : m < 256) (hn : n < 256) :
    (UInt8.ofNat m == UInt8.ofNat n) = true ↔ m = n := by
  rw [beq_iff_eq, ← UInt8.toNat_inj, UInt8.toNat_ofNat', UInt8.toNat_ofNat', Nat.mod_eq_of_lt hm,
    Nat.mod_eq_of_lt hn]

theorem endsDoubled_concat_iff {c : Char} (hc : 128 ≤ c.toNat) (stem : List Char) :
    endsDoubled (stem ++ [c]) = true ↔ Twinned c := by
  change 128 ≤ c.val.toNat at hc
  change _ ↔ 2048 ≤ c.val.toNat ∧ c.val.toNat % 64 = c.val.toNat / 64 % 64
  rw [endsDoubled, bytes, List.flatMap_append, List.flatMap_singleton, List.reverse_append]
  fun_cases String.utf8EncodeChar c with
  | case1 v => omega
  | case2 v =>
    -- Of two bytes the first is at least 192 and the second is less.
    rw [show c.val.toNat = v from rfl] at *
    change (UInt8.ofNat (v % 64 + 128) == UInt8.ofNat (v / 64 % 32 + 192)) = true ↔ _
    rw [ofNat_beq_ofNat_iff (by omega) (by omega)]
    omega
  | case3 v | case4 v =>
    rw [show c.val.toNat = v from rfl] at *
    change (UInt8.ofNat (v % 64 + 128) == UInt8.ofNat (v / 64 % 64 + 128)) = true ↔ _
    rw [ofNat_beq_ofNat_iff (by omega) (by omega)]
    omega

theorem isBoundary_pred_iff (stem : List Char) (c : Char) :
    isBoundary (stem ++ [c]) (size (stem ++ [c]) - 1) = true ↔ c.toNat < 128 := by
  have hpos := c.utf8Size_pos
  have hsize : size (stem ++ [c]) = size stem + c.utf8Size := by simp [size_append, size]
  rw [← utf8Size_eq_one_iff]
  constructor
  · intro h
    obtain ⟨a, b, hab, ha⟩ := exists_append_of_isBoundary h
    rcases List.eq_nil_or_concat' b with rfl | ⟨b, d, rfl⟩
    · rw [List.append_nil] at hab
      rw [← hab] at ha
      omega
    · rw [← List.append_assoc] at hab
      obtain ⟨hstem, -⟩ := List.append_inj' hab rfl
      have hwhole : size (stem ++ [c]) = size a + size b + c.utf8Size := by
        rw [hsize, hstem, size_append]
      omega
  · intro h
    rw [hsize, h, Nat.add_sub_cancel]
    exact isBoundary_append stem [c]

/-- The last byte is taken off by a cut before it, which is refused inside a character. -/
theorem dropLastByte?_eq {text : List Char} (hne : text ≠ []) :
    dropLastByte? text =
      if isBoundary text (size text - 1) then some (before text (size text - 1)) else none := by
  obtain ⟨stem, c, rfl⟩ := (List.eq_nil_or_concat' text).resolve_left hne
  by_cases hc : c.toNat < 128
  · have hsize : size (stem ++ [c]) - 1 = size stem := by
      simp [size_append, size, utf8Size_eq_one_iff.2 hc]
    rw [if_pos ((isBoundary_pred_iff stem c).2 hc), dropLastByte?_concat hc, hsize, before_append]
  · rw [if_neg (mt (isBoundary_pred_iff stem c).1 hc), dropLastByte?, List.getLast?_concat]
    exact if_neg (mt beq_iff_eq.1 (mt utf8Size_eq_one_iff.1 hc))

theorem ne_nil_of_endsDoubled {text : List Char} (h : endsDoubled text = true) : text ≠ [] := by
  rintro rfl
  cases h

/-- Of a text that ends in two equal bytes the last one can be taken off, unless they are in one
character. -/
theorem isBoundary_of_endsDoubled {base : List Char} (h : endsDoubled base = true) :
    isBoundary base (size base - 1) = true ↔ ¬EndsTwinned base := by
  obtain ⟨stem, c, rfl⟩ := (List.eq_nil_or_concat' base).resolve_left (ne_nil_of_endsDoubled h)
  have hends : EndsTwinned (stem ++ [c]) ↔ Twinned c := by
    constructor
    · rintro ⟨other, d, heq, hd⟩
      obtain ⟨-, hlast⟩ := List.append_inj' heq rfl
      rwa [List.singleton_inj.1 hlast]
    · exact fun hc => ⟨stem, c, rfl, hc⟩
  rw [isBoundary_pred_iff, hends]
  by_cases hc : c.toNat < 128
  · exact iff_of_true hc fun htwin => absurd htwin.1 (by omega)
  · exact iff_of_false hc (not_not.2 ((endsDoubled_concat_iff (by omega) stem).1 h))

theorem EndsTwinned.endsDoubled {base : List Char} (h : EndsTwinned base) :
    endsDoubled base = true := by
  obtain ⟨stem, c, rfl, hc⟩ := h
  have hwide : 128 ≤ c.toNat := by
    have hleast := hc.1
    omega
  exact (endsDoubled_concat_iff hwide stem).2 hc

theorem two_le_of_endsDoubled {text : List Char} (h : endsDoubled text = true) :
    2 ≤ (bytes text).length := by
  rw [Spelling.endsDoubled] at h
  rw [← List.length_reverse]
  split at h
  · next htwo =>
    rw [htwo, List.length_cons, List.length_cons]
    omega
  · cases h

theorem dropLastByte?_eq_none_iff {base : List Char} (h : endsDoubled base = true) :
    dropLastByte? base = none ↔ EndsTwinned base := by
  rw [dropLastByte?_eq (ne_nil_of_endsDoubled h)]
  by_cases hbase : EndsTwinned base
  · rw [if_neg (mt (isBoundary_of_endsDoubled h).1 (not_not.2 hbase))]
    exact iff_of_true rfl hbase
  · rw [if_pos ((isBoundary_of_endsDoubled h).2 hbase)]
    exact iff_of_false nofun hbase

/-! ### Bases that cannot be formed -/

/-- A word ends in a doubling ending, and what comes before that ends in a character of which the
last two bytes are equal. -/
def CutInside (word : List Char) : Prop :=
  ∃ base, ∃ ending ∈ doublingEndings, word = base ++ ending.toList ∧ EndsTwinned base

theorem stems?_eq_none_iff {word : List Char} {ending : String} :
    stems? word ending = none ↔
      ending ∈ doublingEndings ∧ ∃ base, word = base ++ ending.toList ∧ EndsTwinned base := by
  constructor
  · intro h
    unfold stems? at h
    split at h
    · cases h
    · next base hbase =>
      split at h
      · cases h
      · split at h
        · next hdoubled =>
          rw [Bool.and_eq_true, List.contains_iff_mem] at hdoubled
          rw [Option.map_eq_none_iff, dropLastByte?_eq_none_iff hdoubled.2] at h
          exact ⟨hdoubled.1, base, before?_eq_some_iff.1 hbase, h⟩
        · cases h
  · rintro ⟨hending, base, hword, hbase⟩
    have hlong := two_le_of_endsDoubled hbase.endsDoubled
    have hdoubled : (doublingEndings.contains ending && endsDoubled base) = true := by
      rw [Bool.and_eq_true, List.contains_iff_mem]
      exact ⟨hending, hbase.endsDoubled⟩
    rw [stems?, before?_eq_some_iff.2 hword]
    simp only [if_neg (Nat.not_lt.2 hlong), if_pos hdoubled]
    rw [(dropLastByte?_eq_none_iff hbase.endsDoubled).2 hbase, Option.map_none]

theorem bases?_eq_none_iff {word : List Char} : bases? word = none ↔ CutInside word := by
  rw [bases?, Option.map_eq_none_iff, mapM_eq_none_iff]
  constructor
  · rintro ⟨ending, -, h⟩
    obtain ⟨hending, base, hword, hbase⟩ := stems?_eq_none_iff.1 h
    exact ⟨base, ending, hending, hword, hbase⟩
  · rintro ⟨base, ending, hending, hword, hbase⟩
    exact ⟨ending, mem_plainEndings_of_doubling hending,
      stems?_eq_none_iff.2 ⟨hending, base, hword, hbase⟩⟩

namespace Dictionary

variable {d : Dictionary} {words : List String} {word : String}

theorem isKnown?_eq_none_iff :
    d.isKnown? word = none ↔ d.contains word = false ∧ CutInside (lowered word).toList := by
  rw [isKnown?]
  by_cases h : d.contains word = true
  · rw [if_pos h]
    refine iff_of_false (by simp) ?_
    rintro ⟨hcontains, -⟩
    rw [h] at hcontains
    cases hcontains
  · rw [if_neg h, Option.map_eq_none_iff, bases?_eq_none_iff]
    simp [h]

/-! ### Corrections with every failure -/

/-- Words with their ranks, if all of them have one. -/
def ranked? (d : Dictionary) (words : List String) : Option (List (String × Nat)) :=
  words.mapM fun word => (d.rank? word).map fun rank => (word, rank)

/-- The closest word, where each listed word one edit away has to have a rank. -/
def closest? (d : Dictionary) (word : String) : Option (Option String) :=
  (d.ranked? (([word.length - 1, word.length, word.length + 1].flatMap d.ofLength).filter
    fun candidate => alignmentDistance word candidate == 1)).map
      fun near => (near.foldl moreCommon none).map (·.1)

/-- The correction of a word with each lookup on the way that can fail, in their order. -/
def correction? (d : Dictionary) (word : String) : Option (Option String) :=
  let word := lowered word
  match knownMisspellings.lookup word with
  | some known => some (some known)
  | none =>
    if !word.toList.all Char.isAlpha || word.length < leastCorrected then some none
    else do
      let known ← d.isKnown? word
      if known then some none else d.closest? word

def normalize? (d : Dictionary) (word : String) : Option String :=
  (d.correction? word).map fun correction => correction.getD (lowered word)

theorem filter_candidates (d : Dictionary) (length : Nat) (p : String → Bool) :
    (d.candidates length).filter (fun candidate => p candidate.1) =
      (([length - 1, length, length + 1].flatMap d.ofLength).filter p).filterMap fun word =>
        (d.rank? word).map fun rank => (word, rank) := by
  rw [candidates, List.filter_filterMap, List.filterMap_filter]
  congr 1
  funext word
  cases d.rank? word <;> simp [Option.filter]

/-- The lists by length hold no word without a rank. -/
theorem Lists.ranked?_eq (h : d.Lists words) {near : List String}
    (hnear : ∀ word ∈ near, ∃ length, word ∈ d.ofLength length) :
    d.ranked? near =
      some (near.filterMap fun word => (d.rank? word).map fun rank => (word, rank)) := by
  apply mapM_eq_some_filterMap
  intro word hmem
  obtain ⟨length, hlength⟩ := hnear word hmem
  rw [Option.isSome_map, Option.isSome_iff_ne_none]
  exact fun hnone => h.rank?_eq_none.1 hnone (h.mem_ofLength.1 hlength).1

theorem Lists.closest?_eq (h : d.Lists words) (word : String) :
    d.closest? word = some (d.closest word) := by
  have hnear : ∀ candidate ∈ ([word.length - 1, word.length, word.length + 1].flatMap
      d.ofLength).filter fun candidate => alignmentDistance word candidate == 1,
      ∃ length, candidate ∈ d.ofLength length := by
    intro candidate hmem
    obtain ⟨length, -, hlength⟩ := List.mem_flatMap.1 (List.mem_filter.1 hmem).1
    exact ⟨length, hlength⟩
  have hfilter := filter_candidates d word.length fun candidate =>
    alignmentDistance word candidate == 1
  rw [closest?, h.ranked?_eq hnear, ← hfilter]
  rfl

theorem Lists.correction?_eq (h : d.Lists words) (word : String) :
    d.correction? word = some (d.correction word) := by
  unfold correction? correction
  cases hlookup : knownMisspellings.lookup (lowered word) with
  | some known => simp only [hlookup]
  | none =>
    by_cases hskip : (!(lowered word).toList.all Char.isAlpha ||
        (lowered word).length < leastCorrected) = true
    · simp [hlookup, hskip]
    · have hplain : Plain (lowered word).toList := by
        simp only [Bool.or_eq_true, Bool.not_eq_true', not_or, Bool.not_eq_false] at hskip
        exact List.all_eq_true.1 hskip.1
      obtain ⟨known, hknown⟩ := exists_isKnown? d hplain
      cases known with
      | true => simp [hlookup, hskip, hknown]
      | false => simp [hlookup, hskip, hknown, h.closest?_eq]

theorem Lists.normalize?_eq (h : d.Lists words) (word : String) :
    d.normalize? word = some (d.normalize word) := by
  rw [normalize?, h.correction?_eq, Option.map_some, normalize]

/-- A lookup fails only in telling whether a word is known, and exactly when the word is not listed
and ends in a doubling ending after a character of which the last two bytes are equal: only such a
character is cut where a doubled letter is looked for. No correction and no normal form fails, in a
dictionary built from words and extended any number of times. -/
theorem lookups_fail_iff (words : List String) (extras : List (List String)) (word : String) :
    let d := extras.foldl extend (ofList words)
    (d.isKnown? word = none ↔ d.contains word = false ∧ CutInside (lowered word).toList) ∧
      d.correction? word = some (d.correction word) ∧
      d.normalize? word = some (d.normalize word) ∧
      ∀ base, endsDoubled base = true →
        (isBoundary base (Text.size base - 1) = true ↔ ¬EndsTwinned base) ∧
          dropLastByte? base =
            if isBoundary base (Text.size base - 1) then some (before base (Text.size base - 1))
            else none := by
  intro d
  have hd : d.Lists (listed (words ++ extras.flatten)) := lists_extended words extras
  refine ⟨isKnown?_eq_none_iff, hd.correction?_eq word, hd.normalize?_eq word, ?_⟩
  intro base hbase
  exact ⟨isBoundary_of_endsDoubled hbase, dropLastByte?_eq (ne_nil_of_endsDoubled hbase)⟩

/-- The last two bytes of U+4EBA are equal, and before "ing" the last one is taken for a doubled
letter. -/
theorem lookup_cuts_character :
    endsDoubled ['\u4eba'] = true ∧
      isBoundary ['\u4eba'] (Text.size ['\u4eba'] - 1) = false ∧
      (ofList ["the"]).contains "\u4ebaing" = false ∧
      (ofList ["the"]).isKnown? "\u4ebaing" = none := by
  decide +kernel

end Dictionary

end Marginalia.Spelling
