import Marginalia.Proofs.Unicode.Runs
import Marginalia.Text.Bytes

/-! The bytes of a text determine it; a byte below 128 is there as the character of that code. -/

namespace Marginalia.Text

theorem bytes_injective {s t : List Char} (h : bytes s = bytes t) : s = t := by
  have hencoded : s.utf8Encode = t.utf8Encode := congrArg List.toByteArray h
  rw [← String.toByteArray_ofList, ← String.toByteArray_ofList, String.toByteArray_inj] at hencoded
  exact String.ofList_injective hencoded

theorem bytes_eq_nil_iff {s : List Char} : bytes s = [] ↔ s = [] :=
  ⟨fun h => bytes_injective h, fun h => h ▸ rfl⟩

theorem bytes_intercalate (s : List Char) (texts : List (List Char)) :
    bytes (s.intercalate texts) = (bytes s).intercalate (texts.map bytes) := by
  induction texts with
  | nil => rfl
  | cons text rest ih =>
    cases rest with
    | nil => simp
    | cons next rest =>
      rw [List.intercalate_cons_cons, List.map_cons, List.map_cons, List.intercalate_cons_cons,
        ← List.map_cons, ← ih]
      simp only [bytes, List.flatMap_append]

/-- All bytes of a character that takes several are at least 128. -/
theorem mem_utf8EncodeChar_iff {b : UInt8} (hb : b.toNat < 128) {c : Char} :
    b ∈ String.utf8EncodeChar c ↔ c.toNat = b.toNat := by
  change _ ↔ c.val.toNat = b.toNat
  fun_cases String.utf8EncodeChar c <;>
    simp only [List.mem_cons, List.not_mem_nil, or_false, ← UInt8.toNat_inj, UInt8.toNat_ofNat'] <;>
    omega

/-- A string of which every byte is that of a small letter has small letters only. -/
theorem isLower_of_bytes {s : String} (h : ∀ b ∈ s.toByteArray.data.toList, 97 ≤ b ∧ b ≤ 122) :
    ∀ c ∈ s.toList, c.isLower = true := by
  intro c hc
  have hne : String.utf8EncodeChar c ≠ [] := by
    intro hnil
    have := c.utf8Size_pos
    rw [← String.length_utf8EncodeChar, hnil] at this
    exact absurd this (by decide)
  obtain ⟨b, more, hb⟩ := List.exists_cons_of_ne_nil hne
  have hmem : b ∈ String.utf8EncodeChar c := by simp [hb]
  have hbytes : s.toByteArray.data.toList = bytes s.toList := by
    have : s.toByteArray = s.toList.utf8Encode := by
      rw [← String.toByteArray_ofList, String.ofList_toList]
    rw [this, List.utf8Encode, List.toList_data_toByteArray, bytes]
  obtain ⟨hleast, hmost⟩ := h b (by rw [hbytes]; exact List.mem_flatMap.2 ⟨c, hc, hmem⟩)
  have hleast : 97 ≤ b.toNat := UInt8.le_iff_toNat_le.1 hleast
  have hmost : b.toNat ≤ 122 := UInt8.le_iff_toNat_le.1 hmost
  have hcode : c.toNat = b.toNat := (mem_utf8EncodeChar_iff (by omega)).1 hmem
  exact Unicode.forall_of_lt (P := fun c => 97 ≤ c.toNat → c.isLower = true) (by decide)
    (show c.toNat < 123 by omega) (by omega)

theorem mem_bytes_iff {c : Char} (hc : c.toNat < 128) {s : List Char} :
    UInt8.ofNat c.toNat ∈ bytes s ↔ c ∈ s := by
  have hb : (UInt8.ofNat c.toNat).toNat = c.toNat := by
    rw [UInt8.toNat_ofNat']
    omega
  rw [bytes, List.mem_flatMap]
  constructor
  · rintro ⟨d, hd, hmem⟩
    rw [mem_utf8EncodeChar_iff (by omega), hb] at hmem
    rwa [← Char.toNat_inj.1 hmem]
  · intro h
    exact ⟨c, h, (mem_utf8EncodeChar_iff (by omega)).2 hb.symm⟩

end Marginalia.Text
