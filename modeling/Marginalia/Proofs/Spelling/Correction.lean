import Marginalia.Proofs.Likeness.Alignment
import Marginalia.Proofs.Spelling.Index
import Marginalia.Proofs.Spelling.Inflection

/-! The correction of a word is the most common listed word one edit away from it: looking only at
listed words of similar length misses none, as an edit changes the length by at most one, and the
ranks and the lists by length hold the same words. -/

namespace Marginalia.Spelling

open Marginalia.Code (lowered)

namespace Dictionary

/-! ### The most common of some words -/

theorem moreCommon_some (b c : String × Nat) :
    ∃ p, moreCommon (some b) c = some p ∧ (p = b ∨ p = c) ∧ p.2 ≤ b.2 ∧ p.2 ≤ c.2 := by
  by_cases h : c.2 < b.2
  · exact ⟨c, if_pos h, .inr rfl, by omega, by omega⟩
  · exact ⟨b, if_neg h, .inl rfl, by omega, by omega⟩

theorem foldl_moreCommon_some (b : String × Nat) (words : List (String × Nat)) :
    ∃ p, words.foldl moreCommon (some b) = some p ∧ (p = b ∨ p ∈ words) ∧ p.2 ≤ b.2 ∧
      ∀ q ∈ words, p.2 ≤ q.2 := by
  induction words generalizing b with
  | nil => exact ⟨b, rfl, .inl rfl, Nat.le_refl _, by simp⟩
  | cons c words ih =>
    obtain ⟨d, hd, hmem, hdb, hdc⟩ := moreCommon_some b c
    obtain ⟨p, hp, hpmem, hpd, hwords⟩ := ih d
    refine ⟨p, by rw [List.foldl_cons, hd, hp], ?_, by omega, fun q hq => ?_⟩
    · rw [List.mem_cons]
      rcases hpmem with rfl | hpmem
      · exact hmem.imp_right .inl
      · exact .inr (.inr hpmem)
    · rcases List.mem_cons.1 hq with rfl | hq
      · omega
      · exact hwords q hq

theorem foldl_moreCommon_none (words : List (String × Nat)) :
    (words = [] ∧ words.foldl moreCommon none = none) ∨
      ∃ p, words.foldl moreCommon none = some p ∧ p ∈ words ∧ ∀ q ∈ words, p.2 ≤ q.2 := by
  cases words with
  | nil => exact .inl ⟨rfl, rfl⟩
  | cons c words =>
    obtain ⟨p, hp, hmem, hpc, hwords⟩ := foldl_moreCommon_some c words
    exact .inr ⟨p, hp, List.mem_cons.2 hmem, List.forall_mem_cons.2 ⟨hpc, hwords⟩⟩

/-! ### The search -/

/-- A word is the most common one of a list that is one edit away from a word. -/
def NearestIn (words : List String) (word s : String) : Prop :=
  ∃ rank, words[rank]? = some s ∧ alignmentDistance word s = 1 ∧
    ∀ (r : Nat) (t : String), words[r]? = some t → alignmentDistance word t = 1 → rank ≤ r

theorem NearestIn.unique {words : List String} {word s t : String} (hs : NearestIn words word s)
    (ht : NearestIn words word t) : s = t := by
  obtain ⟨i, hi, hsone, hsmin⟩ := hs
  obtain ⟨j, hj, htone, htmin⟩ := ht
  have hij : i = j := Nat.le_antisymm (hsmin j t hj htone) (htmin i s hi hsone)
  subst hij
  rw [hi] at hj
  exact Option.some.inj hj

variable {d : Dictionary} {words : List String}

theorem Lists.mem_ofLength (h : d.Lists words) {n : Nat} {word : String} :
    word ∈ d.ofLength n ↔ word ∈ words ∧ word.length = n := by
  rw [h.ofLength, List.mem_filter, beq_iff_eq]

theorem Lists.mem_candidates (h : d.Lists words) {n r : Nat} {word : String} (hn : 1 ≤ n) :
    (word, r) ∈ d.candidates n ↔
      words[r]? = some word ∧ word.length ≤ n + 1 ∧ n ≤ word.length + 1 := by
  simp only [candidates, List.mem_filterMap, List.mem_flatMap, List.mem_cons, List.not_mem_nil,
    or_false, Option.map_eq_some_iff, Prod.mk.injEq]
  constructor
  · rintro ⟨w, ⟨k, hk, hw⟩, r', hr, rfl, rfl⟩
    have hlength := (h.mem_ofLength.1 hw).2
    exact ⟨(h.rank w r').1 hr, by omega, by omega⟩
  · rintro ⟨hr, hle, hge⟩
    exact ⟨word, ⟨word.length, by omega, h.mem_ofLength.2 ⟨List.mem_of_getElem? hr, rfl⟩⟩, r,
      (h.rank word r).2 hr, rfl, rfl⟩

/-- A listed word one edit away is among those of similar length. -/
theorem Lists.mem_filter_candidates (h : d.Lists words) {word s : String} {r : Nat}
    (hword : 1 ≤ word.length) :
    (s, r) ∈ (d.candidates word.length).filter (fun c => alignmentDistance word c.1 == 1) ↔
      words[r]? = some s ∧ alignmentDistance word s = 1 := by
  rw [List.mem_filter, h.mem_candidates hword, beq_iff_eq]
  constructor
  · rintro ⟨⟨hr, -, -⟩, hone⟩
    exact ⟨hr, hone⟩
  · rintro ⟨hr, hone⟩
    obtain ⟨hle, hge⟩ := length_le_alignmentDistance word s
    exact ⟨⟨hr, by omega, by omega⟩, hone⟩

theorem Lists.closest_eq_some_iff (h : d.Lists words) {word s : String}
    (hword : 1 ≤ word.length) : d.closest word = some s ↔ NearestIn words word s := by
  have hmem := fun (s : String) (r : Nat) => h.mem_filter_candidates (s := s) (r := r) hword
  rw [closest]
  generalize (d.candidates word.length).filter _ = near at hmem
  rcases foldl_moreCommon_none near with ⟨hnil, hnone⟩ | ⟨⟨t, r⟩, hsome, ht, hmin⟩
  · rw [hnone]
    subst hnil
    simp only [Option.map_none, reduceCtorEq, false_iff]
    rintro ⟨rank, hrank, hone, -⟩
    simpa using (hmem s rank).2 ⟨hrank, hone⟩
  · obtain ⟨hr, hone⟩ := (hmem t r).1 ht
    have hnearest : NearestIn words word t :=
      ⟨r, hr, hone, fun r' t' hr' ht' => hmin (t', r') ((hmem t' r').2 ⟨hr', ht'⟩)⟩
    rw [hsome]
    constructor
    · rintro ⟨⟩
      exact hnearest
    · intro hs
      exact congrArg some (hnearest.unique hs)

/-! ### The correction -/

/-- A word of at least six ASCII letters that is not known has a listed word as its correction: the
most common one that is one edit away. -/
structure Corrects (d : Dictionary) (words : List String) (word s : String) : Prop where
  plain : Plain word.toList
  length : 6 ≤ word.length
  unknown : d.isKnown? word = some false
  nearest : NearestIn words word s

theorem Lists.correction_eq_some_iff (h : d.Lists words) {word s : String}
    (hunlisted : knownMisspellings.lookup (lowered word) = none) :
    d.correction word = some s ↔ Corrects d words (lowered word) s := by
  have hsix : leastCorrected = 6 := rfl
  rw [correction]
  simp only [hunlisted]
  split
  · next hskip =>
    simp only [Bool.or_eq_true, Bool.not_eq_true', decide_eq_true_eq, bne_iff_ne] at hskip
    simp only [reduceCtorEq, false_iff]
    intro hs
    rcases hskip with (hplain | hshort) | hknown
    · rw [List.all_eq_true.2 hs.plain] at hplain
      cases hplain
    · have := hs.length
      omega
    · exact hknown hs.unknown
  · next hsearch =>
    simp only [Bool.or_eq_true, Bool.not_eq_true', decide_eq_true_eq, bne_iff_ne, not_or,
      Bool.not_eq_false, not_not] at hsearch
    obtain ⟨⟨hplain, hlength⟩, hunknown⟩ := hsearch
    rw [h.closest_eq_some_iff (by omega)]
    constructor
    · intro hs
      exact ⟨List.all_eq_true.1 hplain, by omega, hunknown, hs⟩
    · intro hs
      exact hs.nearest

/-- The search by length finds what a scan of the whole list finds. In a dictionary built from words
and extended any number of times, a word that is not a known misspelling is corrected exactly when
it has six ASCII letters or more in lower case and is not known, which can always be said; and its
correction is the word of the lowest rank one edit away from it, whatever its length, among the
distinct words put in, ranked as they first came. -/
theorem correction_eq_scan (words : List String) (extras : List (List String)) (word : String)
    (hunlisted : knownMisspellings.lookup (lowered word) = none) :
    let d := extras.foldl extend (ofList words)
    let all := listed (words ++ extras.flatten)
    (Plain (lowered word).toList → ∃ known, d.isKnown? (lowered word) = some known) ∧
      (∀ s, d.correction word = some s ↔ Corrects d all (lowered word) s) ∧
      ((∀ s, ¬Corrects d all (lowered word) s) → d.correction word = none) := by
  intro d all
  have hsome : ∀ s, d.correction word = some s ↔ Corrects d all (lowered word) s :=
    fun s => (lists_extended words extras).correction_eq_some_iff hunlisted
  refine ⟨exists_isKnown? d, hsome, fun hnone => ?_⟩
  rw [Option.eq_none_iff_forall_ne_some]
  exact fun s hs => hnone s ((hsome s).1 hs)

/-- Three words are one edit away from "Kuberntes"; the most common is longer by one letter. -/
theorem correction_of_three_near :
    knownMisspellings.lookup (lowered "Kuberntes") = none ∧
      ([["KUBERNETES", "kubertes"], ["kubermtes"]].foldl extend
        (ofList ["the", "Kubernetes", "kubernetes"])).correction "Kuberntes" =
          some "kubernetes" := by
  have hunlisted : knownMisspellings.lookup (lowered "Kuberntes") = none := by decide +kernel
  refine ⟨hunlisted, ?_⟩
  obtain ⟨-, hsome, -⟩ := correction_eq_scan ["the", "Kubernetes", "kubernetes"]
    [["KUBERNETES", "kubertes"], ["kubermtes"]] "Kuberntes" hunlisted
  have hwords : listed (["the", "Kubernetes", "kubernetes"] ++
      [["KUBERNETES", "kubertes"], ["kubermtes"]].flatten) =
        ["the", "kubernetes", "kubertes", "kubermtes"] := by decide +kernel
  have hplain : Plain (lowered "Kuberntes").toList := List.all_eq_true.1 (by decide +kernel)
  refine (hsome _).2 ⟨hplain, by decide +kernel, by decide +kernel, 1, by rw [hwords]; rfl,
    by decide +kernel, fun r t ht hone => ?_⟩
  rw [hwords] at ht
  match r with
  | 0 =>
    cases ht
    exact absurd hone (by decide +kernel)
  | r + 1 => omega

end Dictionary

end Marginalia.Spelling
