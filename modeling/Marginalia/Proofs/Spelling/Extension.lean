import Marginalia.Proofs.Spelling.Correction
import Marginalia.Proofs.Spelling.Known

/-! More words in a dictionary: what was listed keeps its rank and what was known stays known, and as
new words are ranked last, a word is never corrected to another word than before. -/

namespace Marginalia.Spelling

open Marginalia.Code (lowered)

namespace Dictionary

/-- What the first dictionary lists, the second one lists with the same rank. -/
def Extends (d e : Dictionary) : Prop :=
  ∀ word rank, d.rank? word = some rank → e.rank? word = some rank

theorem Extends.refl (d : Dictionary) : Extends d d := fun _ _ h => h

theorem Extends.trans {d e f : Dictionary} (hde : Extends d e) (hef : Extends e f) : Extends d f :=
  fun word rank h => hef word rank (hde word rank h)

theorem extends_insert (d : Dictionary) (word : String) : Extends d (d.insert word) := by
  intro other rank h
  rw [insert]
  split
  · exact h
  · next hnew =>
    have hne : other ≠ lowered word := by
      rintro rfl
      exact hnew (Option.isSome_of_eq_some h)
    rw [rank?, lookup_cons_eq_if, if_neg hne]
    exact h

theorem extends_extend (d : Dictionary) (words : List String) : Extends d (d.extend words) := by
  induction words generalizing d with
  | nil => exact .refl d
  | cons word words ih => exact (extends_insert d word).trans (ih (d.insert word))

namespace Extends

variable {d e : Dictionary}

theorem isSome (h : Extends d e) {word : String} (hword : (d.rank? word).isSome = true) :
    (e.rank? word).isSome = true := by
  obtain ⟨rank, hrank⟩ := Option.isSome_iff_exists.1 hword
  exact Option.isSome_of_eq_some (h word rank hrank)

theorem isKnown? (h : Extends d e) {word : String} (hword : d.isKnown? word = some true) :
    e.isKnown? word = some true := by
  rw [Dictionary.isKnown?] at hword ⊢
  by_cases hcontains : e.contains word = true
  · rw [if_pos hcontains]
  · have hcontains' : ¬d.contains word = true := fun hd => hcontains (h.isSome hd)
    rw [if_neg hcontains'] at hword
    rw [if_neg hcontains]
    obtain ⟨bases, hbases, hany⟩ := Option.map_eq_some_iff.1 hword
    obtain ⟨base, hmem, hbase⟩ := List.any_eq_true.1 hany
    rw [hbases, Option.map_some]
    exact congrArg some (List.any_eq_true.2 ⟨base, hmem, h.isSome hbase⟩)

end Extends

/-! ### Corrections among more words -/

/-- Words that are ranked after all others do not displace the most common one. -/
theorem NearestIn.append {words : List String} {word s : String} (h : NearestIn words word s)
    (more : List String) : NearestIn (words ++ more) word s := by
  obtain ⟨rank, hrank, hone, hmin⟩ := h
  have hlt : rank < words.length := (List.getElem?_eq_some_iff.1 hrank).1
  refine ⟨rank, (List.getElem?_append_left hlt).trans hrank, hone, fun r t ht hnear => ?_⟩
  by_cases hr : r < words.length
  · rw [List.getElem?_append_left hr] at ht
    exact hmin r t ht hnear
  · exact Nat.le_trans (Nat.le_of_lt hlt) (Nat.le_of_not_lt hr)

theorem listed_append (words more : List String) :
    ∃ rest, listed (words ++ more) = listed words ++ rest :=
  ⟨_, by rw [listed, List.map_append, List.eraseDups_append, ← listed]⟩

theorem Lists.correction_append {d e : Dictionary} {words more : List String} (hd : d.Lists words)
    (he : e.Lists (words ++ more)) {word s : String} (h : d.correction word = some s) :
    e.correction word = some s ∨ e.isKnown? word = some true ∧ e.correction word = none := by
  cases hlookup : knownMisspellings.lookup (lowered word) with
  | some known =>
    rw [correction_of_lookup_eq_some hlookup] at h ⊢
    exact .inl h
  | none =>
    obtain ⟨hplain, hlength, -, hnearest⟩ := (hd.correction_eq_some_iff hlookup).1 h
    obtain ⟨known, hknown⟩ := exists_isKnown? e hplain
    cases known with
    | true =>
      rw [isKnown?_lowered] at hknown
      exact .inr ⟨hknown, (correction_of_isKnown? hknown).trans hlookup⟩
    | false =>
      refine .inl ((he.correction_eq_some_iff hlookup).2 ⟨hplain, hlength, hknown, ?_⟩)
      exact hnearest.append more

/-- More words never give a word another correction than it had: it keeps that correction or is now
known and has none. Words that are known stay known, and listed words keep their ranks. -/
theorem extension_keeps_corrections (words more : List String) (word : String) :
    let d := ofList words
    let e := d.extend more
    (∀ s, d.correction word = some s →
        e.correction word = some s ∨ e.isKnown? word = some true ∧ e.correction word = none) ∧
      (d.isKnown? word = some true → e.isKnown? word = some true) ∧
      ∀ rank, d.rank? word = some rank → e.rank? word = some rank := by
  intro d e
  have hd : d.Lists (listed words) := by simpa using lists_extended words []
  have he : e.Lists (listed (words ++ more)) := hd.extend more
  obtain ⟨rest, hrest⟩ := listed_append words more
  rw [hrest] at he
  have hextends : Extends d e := extends_extend d more
  exact ⟨fun s hs => hd.correction_append he hs, hextends.isKnown?, hextends word⟩

/-- Another word as near as the listed one is ranked after it and changes nothing; a word that is
listed itself is no longer corrected. -/
theorem corrections_kept_of_function :
    let d := ofList ["function"]
    let e := d.extend ["functional", "Functon", "functiom"]
    (d.correction "functiox" = some "function" ∧ e.correction "functiox" = some "function") ∧
      (d.correction "functon" = some "function" ∧
        e.isKnown? "functon" = some true ∧ e.correction "functon" = none) ∧
      (d.isKnown? "functions" = some true ∧ e.isKnown? "functions" = some true) ∧
      d.rank? "function" = some 0 ∧ e.rank? "function" = some 0 := by
  intro d e
  have hnear : d.correction "functiox" = some "function" := by decide +kernel
  have hlisted : d.correction "functon" = some "function" := by decide +kernel
  have hknown : d.isKnown? "functions" = some true := by decide +kernel
  have hrank : d.rank? "function" = some 0 := by decide +kernel
  have holds := extension_keeps_corrections ["function"] ["functional", "Functon", "functiom"]
  exact ⟨⟨hnear, ((holds _).1 _ hnear).resolve_right fun h => absurd h.1 (by decide +kernel)⟩,
    ⟨hlisted, ((holds _).1 _ hlisted).resolve_left (by decide +kernel)⟩,
    ⟨hknown, (holds _).2.1 hknown⟩, hrank, (holds _).2.2 _ hrank⟩

end Dictionary

end Marginalia.Spelling
