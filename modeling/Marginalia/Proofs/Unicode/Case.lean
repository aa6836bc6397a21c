import Marginalia.Code.Shape
import Marginalia.Proofs.Sequence
import Marginalia.Proofs.Unicode.Runs

/-! What a text has in lower case stays in lower case: no image of a character under lower case has
another image, so lower case is idempotent. -/

namespace Marginalia

namespace Unicode

/-! ### Images that are not shifted again -/

/-- As many code points as a shift covers, in its steps from a start on. -/
def steps (shift : Shift) (start : Nat) : List Nat :=
  (List.range ((shift.2.1 - shift.1) / shift.2.2.1 + 1)).map fun k => start + k * shift.2.2.1

theorem mem_steps {shift : Shift} {n : Nat} (h : Covers shift n) (start : Nat) :
    start + (n - shift.1) ∈ steps shift start := by
  obtain ⟨-, hlast, hstep⟩ := h
  have hcount : (n - shift.1) / shift.2.2.1 ≤ (shift.2.1 - shift.1) / shift.2.2.1 :=
    Nat.div_le_div_right (Nat.sub_le_sub_right hlast shift.1)
  refine List.mem_map.2 ⟨(n - shift.1) / shift.2.2.1, ?_, ?_⟩
  · exact List.mem_range.2 (Nat.lt_succ_of_le hcount)
  · rw [Nat.div_mul_cancel (Nat.dvd_of_mod_eq_zero hstep)]

def sources (shifts : List Shift) : List Nat := shifts.flatMap fun shift => steps shift shift.1

def images (shifts : List Shift) : List Nat := shifts.flatMap fun shift => steps shift shift.2.2.2

theorem mem_sources {shifts : List Shift} {shift : Shift} (hmem : shift ∈ shifts) {n : Nat}
    (h : Covers shift n) : n ∈ sources shifts := by
  refine List.mem_flatMap.2 ⟨shift, hmem, ?_⟩
  have hsteps := mem_steps h shift.1
  rwa [Nat.add_sub_cancel' h.1] at hsteps

theorem mem_images {shifts : List Shift} {n m : Nat} (h : shifted? n shifts = some m) :
    m ∈ images shifts := by
  obtain ⟨shift, hmem, hcovers, rfl⟩ := exists_covers h
  exact List.mem_flatMap.2 ⟨shift, hmem, mem_steps hcovers _⟩

/-- The capital I with a dot, which has two characters for its lower case. -/
def dotted : Shift := (304, 304, 1, 105)

theorem notMem_sources_of_mem_images :
    ∀ n ∈ images lowerShifts, n ∉ sources (dotted :: lowerShifts) :=
  notMem_of_bits (by decide +kernel)

/-! ### Characters in lower case -/

theorem lowerChar_ne_nil (c : Char) : lowerChar c ≠ [] := by
  rw [lowerChar]
  split
  · simp
  · split <;> simp

/-- A character that lower case leaves as it is. -/
def Small (c : Char) : Prop := lowerChar c = [c]

instance (c : Char) : Decidable (Small c) := inferInstanceAs (Decidable (_ = _))

theorem Small.ne_sigma {c : Char} (h : Small c) : c ≠ '\u03a3' := by
  rintro rfl
  exact absurd h (by decide +kernel)

/-- An ASCII character that is not a capital letter is in lower case. -/
theorem small_of_ascii {c : Char} (hascii : c.toNat < 128) (h : c.isUpper = false) : Small c :=
  forall_of_lt (P := fun c => c.isUpper = false → Small c) (by decide) hascii h

theorem covers_of_isUpper {c : Char} (h : c.isUpper = true) : Covers (65, 90, 1, 97) c.toNat := by
  have hbounds : 'A'.val ≤ c.val ∧ c.val ≤ 'Z'.val := of_decide_eq_true h
  exact ⟨UInt32.le_iff_toNat_le.1 hbounds.1, UInt32.le_iff_toNat_le.1 hbounds.2, Nat.mod_one _⟩

theorem small_of_notMem_sources {c : Char} (h : c.toNat ∉ sources (dotted :: lowerShifts)) :
    Small c := by
  have hcovers : ∀ shift ∈ dotted :: lowerShifts, ¬Covers shift c.toNat :=
    fun shift hmem hcovers => h (mem_sources hmem hcovers)
  have hnone : shifted? c.toNat lowerShifts = none := by
    rw [Option.eq_none_iff_forall_ne_some]
    intro m hm
    obtain ⟨shift, hmem, hshift, -⟩ := exists_covers hm
    exact hcovers shift (List.mem_cons_of_mem _ hmem) hshift
  by_cases hascii : c.toNat < 128
  · refine small_of_ascii hascii (Bool.eq_false_iff.2 fun hupper => ?_)
    exact hcovers _ (List.mem_cons_of_mem _ List.mem_cons_self) (covers_of_isUpper hupper)
  · have hdot : ¬(c.toNat == 304) = true := by
      intro heq
      rw [beq_iff_eq] at heq
      exact hcovers dotted List.mem_cons_self (heq ▸ ⟨Nat.le_refl _, Nat.le_refl _, rfl⟩)
    rw [Small, lowerChar, if_neg hascii, if_neg hdot, hnone]
    rfl

theorem small_ofNat_of_mem_images {m : Nat} (h : m ∈ images lowerShifts) : Small (Char.ofNat m) := by
  rcases toNat_ofNat_or m with htoNat | hzero
  · exact small_of_notMem_sources (htoNat.symm ▸ notMem_sources_of_mem_images m h)
  · rw [hzero]
    decide

theorem small_of_mem_lowerChar {c d : Char} (h : d ∈ lowerChar c) : Small d := by
  rw [lowerChar] at h
  split at h
  · next hascii =>
    obtain rfl := List.mem_singleton.1 h
    exact forall_of_lt (P := fun c => Small c.toLower) (by decide) hascii
  · next hbeyond =>
    split at h
    · obtain ⟨hletter, hdot⟩ : Small 'i' ∧ Small '\u0307' := by decide +kernel
      exact List.forall_mem_cons.2 ⟨hletter, List.forall_mem_singleton.2 hdot⟩ d h
    · next hdot =>
      obtain rfl := List.mem_singleton.1 h
      cases hshifted : shifted? c.toNat lowerShifts with
      | none =>
        change lowerChar c = [c]
        rw [lowerChar, if_neg hbeyond, if_neg hdot, hshifted]
        rfl
      | some image => exact small_ofNat_of_mem_images (mem_images hshifted)

theorem small_of_mem_lowerAfter {before text : List Char} {d : Char}
    (h : d ∈ lowerAfter before text) : Small d := by
  induction text generalizing before with
  | nil => cases h
  | cons c rest ih =>
    rw [lowerAfter, List.mem_append] at h
    rcases h with h | h
    · split at h
      · have hsigmas : Small '\u03c2' ∧ Small '\u03c3' := by decide +kernel
        split at h
        · exact List.mem_singleton.1 h ▸ hsigmas.1
        · exact List.mem_singleton.1 h ▸ hsigmas.2
      · exact small_of_mem_lowerChar h
    · exact ih h

theorem lowerAfter_of_small {text : List Char} (h : ∀ c ∈ text, Small c) (before : List Char) :
    lowerAfter before text = text := by
  induction text generalizing before with
  | nil => rfl
  | cons c rest ih =>
    obtain ⟨hc, hrest⟩ := List.forall_mem_cons.1 h
    have hsigma : ¬(c == '\u03a3') = true := by
      rw [beq_iff_eq]
      exact hc.ne_sigma
    rw [lowerAfter, if_neg hsigma, hc, ih hrest, List.singleton_append]

theorem lower_of_small {text : List Char} (h : ∀ c ∈ text, Small c) : lower text = text :=
  lowerAfter_of_small h []

theorem lower_lower (text : List Char) : lower (lower text) = lower text :=
  lower_of_small fun _ hc => small_of_mem_lowerAfter hc

end Unicode

namespace Code

open Unicode

theorem lowered_of_small {text : String} (h : ∀ c ∈ text.toList, Small c) : lowered text = text := by
  rw [lowered, lower_of_small h, String.ofList_toList]

theorem lowered_lowered (text : String) : lowered (lowered text) = lowered text := by
  rw [lowered, lowered, String.toList_ofList, lower_lower]

end Code

end Marginalia
