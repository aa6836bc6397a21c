import Marginalia.Proofs.Prose.Body
import Marginalia.Proofs.Unicode.Runs
import Marginalia.Spelling.Dictionary
import Mathlib.Tactic.Choose

/-! The bases of a word of ASCII characters can always be formed, as no ending is cut inside a
character; so it can be said whether a word of ASCII letters is known. -/

namespace Marginalia.Spelling

open Marginalia.Code (lowered)
open Marginalia.Unicode Marginalia.Text

/-- A text of ASCII letters. -/
def Plain (text : List Char) : Prop := ∀ c ∈ text, c.isAlpha = true

theorem toNat_lt_of_isAlpha {c : Char} (h : c.isAlpha = true) : c.toNat < 128 := by
  have hcases : c.isUpper = true ∨ c.isLower = true := Bool.or_eq_true_iff.1 h
  rcases hcases with h | h
  · have hle : c.val ≤ 'Z'.val := (of_decide_eq_true h).2
    exact Nat.lt_of_le_of_lt (UInt32.le_iff_toNat_le.1 hle) (by decide)
  · have hle : c.val ≤ 'z'.val := of_decide_eq_true (Bool.and_eq_true_iff.1 h).2
    exact Nat.lt_of_le_of_lt (UInt32.le_iff_toNat_le.1 hle) (by decide)

/-- A text of ASCII characters. -/
def Ascii (text : List Char) : Prop := ∀ c ∈ text, c.toNat < 128

theorem Plain.ascii {text : List Char} (h : Plain text) : Ascii text :=
  fun c hc => toNat_lt_of_isAlpha (h c hc)

theorem utf8Size_eq_one_iff {c : Char} : c.utf8Size = 1 ↔ c.toNat < 128 := by
  rw [Char.utf8Size_eq_one_iff, UInt32.le_iff_toNat_le, Nat.lt_succ_iff]
  rfl

theorem lowerAfter_of_plain {text : List Char} (h : Plain text) (read : List Char) :
    lowerAfter read text = text.map Char.toLower := by
  induction text generalizing read with
  | nil => rfl
  | cons c rest ih =>
    obtain ⟨hc, hrest⟩ := List.forall_mem_cons.1 h
    have hlt := toNat_lt_of_isAlpha hc
    have hsigma : (c == '\u03a3') = false := by
      rw [beq_eq_false_iff_ne]
      rintro rfl
      exact absurd hlt (by decide)
    rw [lowerAfter, ih hrest, hsigma, lowerChar, if_pos hlt]
    rfl

theorem isAlpha_toLower {c : Char} (h : c.isAlpha = true) : c.toLower.isAlpha = true :=
  forall_of_lt (P := fun c => c.isAlpha = true → c.toLower.isAlpha = true) (by decide)
    (toNat_lt_of_isAlpha h) h

theorem Plain.lower {text : List Char} (h : Plain text) : Plain (lower text) := by
  rw [Unicode.lower, lowerAfter_of_plain h]
  intro c hc
  obtain ⟨b, hb, rfl⟩ := List.mem_map.1 hc
  exact isAlpha_toLower (h b hb)

/-! ### Stems -/

theorem before?_eq_some_iff {word ending stem : List Char} :
    before? word ending = some stem ↔ word = stem ++ ending :=
  Prose.dropSuffix?_eq_some_iff

theorem dropLastByte?_concat {text : List Char} {c : Char} (h : c.toNat < 128) :
    dropLastByte? (text ++ [c]) = some text := by
  rw [dropLastByte?, List.getLast?_concat, List.dropLast_concat]
  exact if_pos (beq_iff_eq.2 (utf8Size_eq_one_iff.2 h))

theorem exists_dropLastByte? {text : List Char} (h : Ascii text) (hne : text ≠ []) :
    ∃ rest, dropLastByte? text = some rest := by
  have hlast := h _ (List.getLast_mem hne)
  rw [← List.dropLast_concat_getLast hne]
  exact ⟨_, dropLastByte?_concat hlast⟩

theorem exists_stems? {word : List Char} (h : Ascii word) (ending : String) :
    ∃ stems, stems? word ending = some stems := by
  rw [stems?]
  cases hbase : before? word ending.toList with
  | none => exact ⟨[], rfl⟩
  | some base =>
    by_cases hshort : (bytes base).length < 2
    · exact ⟨[], if_pos hshort⟩
    · have hne : base ≠ [] := by
        rintro rfl
        simp [bytes] at hshort
      have hascii : Ascii base := by
        rw [before?_eq_some_iff.1 hbase] at h
        exact (List.forall_mem_append.1 h).1
      obtain ⟨single, hsingle⟩ := exists_dropLastByte? hascii hne
      simp only [if_neg hshort, hsingle, Option.map_some]
      split
      · exact ⟨_, rfl⟩
      · exact ⟨_, rfl⟩

theorem exists_bases? {word : List Char} (h : Ascii word) : ∃ bases, bases? word = some bases := by
  choose stems hstems using exists_stems? h
  have hmap : plainEndings.mapM (stems? word) = some (plainEndings.map stems) := by
    rw [show stems? word = fun ending => some (stems ending) from funext hstems]
    exact List.mapM_pure
  exact ⟨_, by rw [bases?, hmap]; rfl⟩

theorem exists_isKnown? (d : Dictionary) {word : String} (h : Plain word.toList) :
    ∃ known, d.isKnown? word = some known := by
  obtain ⟨bases, hbases⟩ := exists_bases? h.lower.ascii
  rw [Dictionary.isKnown?, lowered, String.toList_ofList, hbases]
  split
  · exact ⟨true, rfl⟩
  · exact ⟨_, rfl⟩

end Marginalia.Spelling
