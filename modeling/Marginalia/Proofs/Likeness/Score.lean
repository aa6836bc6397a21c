import Marginalia.Likeness.Score
import Mathlib.Algebra.Order.Field.Rat
import Mathlib.Tactic.Positivity

/-! Measures read with rationals. -/

namespace Marginalia

variable {x low high : Rat}

theorem least_eq_min (p q : Rat) : Score.least p q = min p q := by
  rw [Score.least]
  split
  · next hlt => exact (min_eq_right (le_of_lt hlt)).symm
  · next hnlt => exact (min_eq_left (not_lt.1 hnlt)).symm

theorem clamp_bounds (x : Rat) (h : low ≤ high) :
    low ≤ Score.clamp x low high ∧ Score.clamp x low high ≤ high := by
  rw [Score.clamp]
  split
  · exact ⟨le_refl _, h⟩
  · next hlow =>
    split
    · exact ⟨h, le_refl _⟩
    · next hhigh => exact ⟨not_lt.1 hlow, not_lt.1 hhigh⟩

theorem clamp_of_bounds (hlow : low ≤ x) (hhigh : x ≤ high) : Score.clamp x low high = x := by
  rw [Score.clamp, if_neg (not_lt.2 hlow), if_neg (not_lt.2 hhigh)]

theorem ratio_nonneg (part whole : Nat) : 0 ≤ (Score.ratio part whole : Rat) := by
  have hpart : (0 : Rat) ≤ (part : Rat) := Nat.cast_nonneg part
  have hwhole : (0 : Rat) ≤ (whole : Rat) := Nat.cast_nonneg whole
  exact div_nonneg hpart hwhole

theorem ratio_pos_iff {part whole : Nat} (h : 0 < whole) :
    0 < (Score.ratio part whole : Rat) ↔ 0 < part := by
  have hwhole : (0 : Rat) < (whole : Rat) := Nat.cast_pos.2 h
  exact (div_pos_iff_of_pos_right hwhole).trans Nat.cast_pos

end Marginalia
