import Marginalia.Proofs.Likeness.EditDistance
import Marginalia.Proofs.Likeness.Edits

/-! The edit distance is the least number of edits in a script from one sequence to the other. The
recursion on the last items gives such a script; and no script is shorter, since one edit moves a
sequence by at most one, seen from any other. So the distance is a metric, and the likeness of
sequences lies between nought and one. -/

namespace Marginalia

variable {τ : Type} [BEq τ]

/-! ### Steps of the recursion -/

theorem distanceTo_cons_left_le (x : τ) (xs ys : List τ) :
    distanceTo (x :: xs) ys ≤ distanceTo xs ys + 1 := by
  cases ys with
  | nil => simp [distanceTo_nil_right]
  | cons y ys =>
    rw [distanceTo_cons_cons]
    omega

theorem distanceTo_cons_cons_le (x y : τ) (xs ys : List τ) :
    distanceTo (x :: xs) (y :: ys) ≤ distanceTo xs ys + 1 := by
  rw [distanceTo_cons_cons]
  split <;> omega

theorem distanceTo_le_max (xs ys : List τ) : distanceTo xs ys ≤ max xs.length ys.length := by
  induction xs generalizing ys with
  | nil => simp [distanceTo_nil_left]
  | cons x xs ih =>
    cases ys with
    | nil => simp [distanceTo_nil_right]
    | cons y ys =>
      have hstep := distanceTo_cons_cons_le x y xs ys
      have hrest := ih ys
      simp only [List.length_cons]
      omega

/-! ### No script is shorter -/

/-- From no sequence is the second one farther than the first by more than one. -/
def Near (ys zs : List τ) : Prop := ∀ xs, distanceTo xs zs ≤ distanceTo xs ys + 1

theorem near_insert (ys : List τ) (y : τ) : Near ys (y :: ys) := by
  intro xs
  cases xs with
  | nil => simp [distanceTo_nil_left]
  | cons x xs =>
    rw [distanceTo_cons_cons]
    omega

theorem near_delete (ys : List τ) (y : τ) : Near (y :: ys) ys := by
  intro xs
  induction xs with
  | nil =>
    simp only [distanceTo_nil_left, List.length_cons]
    omega
  | cons x xs ih =>
    have hdelete := distanceTo_cons_left_le x xs ys
    rw [distanceTo_cons_cons]
    omega

theorem near_substitute (ys : List τ) (y z : τ) : Near (y :: ys) (z :: ys) := by
  intro xs
  induction xs with
  | nil => simp [distanceTo_nil_left]
  | cons x xs ih =>
    rw [distanceTo_cons_cons x z, distanceTo_cons_cons x y]
    split <;> split <;> omega

theorem Near.cons {ys zs : List τ} (h : Near ys zs) (w : τ) : Near (w :: ys) (w :: zs) := by
  intro xs
  -- Each of the three ways to deal with the heads of the farther pair is open to the nearer one.
  induction xs with
  | nil =>
    have hnil := h []
    simp only [distanceTo_nil_left, List.length_cons] at *
    omega
  | cons x xs ih =>
    have hwhole := h (x :: xs)
    have hrest := h xs
    rw [distanceTo_cons_cons x w xs zs, distanceTo_cons_cons x w xs ys]
    omega

theorem Near.append_left {ys zs : List τ} (h : Near ys zs) (before : List τ) :
    Near (before ++ ys) (before ++ zs) := by
  induction before with
  | nil => exact h
  | cons w before ih => exact ih.cons w

theorem Edited.near {ys zs : List τ} (h : Edited ys zs) : Near ys zs := by
  cases h with
  | inserted before after y => exact (near_insert after y).append_left before
  | deleted before after y => exact (near_delete after y).append_left before
  | substituted before after y z => exact (near_substitute after y z).append_left before

theorem distanceTo_self [LawfulBEq τ] (xs : List τ) : distanceTo xs xs = 0 := by
  induction xs with
  | nil => simp [distanceTo_nil_left]
  | cons x xs ih =>
    have hstep := distanceTo_cons_cons x x xs xs
    simp only [beq_self_eq_true, if_true, ih] at hstep
    omega

/-! ### A script of that length -/

theorem script_distanceTo [LawfulBEq τ] (xs ys : List τ) : Script (distanceTo xs ys) xs ys := by
  fun_induction distanceTo xs ys with
  | case1 ys => exact .insertions ys
  | case2 x xs => exact .deletions (x :: xs)
  | case3 x xs y ys hdelete hinsert hrest =>
    have hdelete : Script (distanceTo xs (y :: ys) + 1) (x :: xs) (y :: ys) :=
      .next (.deleted [] xs x) hdelete
    have hinsert : Script (distanceTo (x :: xs) ys + 1) (x :: xs) (y :: ys) :=
      .next (.inserted [] (x :: xs) y) (hinsert.cons y)
    have hreplace : Script (distanceTo xs ys + if x == y then 0 else 1) (x :: xs) (y :: ys) := by
      split
      · next heq =>
        rw [beq_iff_eq.1 heq]
        exact hrest.cons y
      · exact .next (.substituted [] xs x y) (hrest.cons y)
    rcases min_choice (min (distanceTo xs (y :: ys) + 1) (distanceTo (x :: xs) ys + 1))
      (distanceTo xs ys + if x == y then 0 else 1) with h | h
    · rw [h]
      rcases min_choice (distanceTo xs (y :: ys) + 1) (distanceTo (x :: xs) ys + 1) with h | h
      · rwa [h]
      · rwa [h]
    · rwa [h]

theorem script_editDistance [LawfulBEq τ] (a b : List τ) : Script (editDistance a b) a b := by
  have h := (script_distanceTo a.reverse b.reverse).reverse
  rwa [List.reverse_reverse, List.reverse_reverse, ← editDistance_eq] at h

theorem Script.editDistance_le [LawfulBEq τ] {n : Nat} {a b : List τ} (h : Script n a b) :
    editDistance a b ≤ n := by
  rw [editDistance_comm]
  induction h with
  | done a => rw [editDistance_eq, distanceTo_self]
  | @next n a b c first rest ih =>
    have hnear := first.reverse.symm.near c.reverse
    rw [← editDistance_eq, ← editDistance_eq] at hnear
    omega

/-! ### Metric and likeness -/

theorem editDistance_le_max (a b : List τ) : editDistance a b ≤ max a.length b.length := by
  rw [editDistance_eq]
  simpa using distanceTo_le_max a.reverse b.reverse

theorem sequenceLikeness_bounds (a b : List τ) :
    0 ≤ (sequenceLikeness a b : Rat) ∧ (sequenceLikeness a b : Rat) ≤ 1 := by
  rw [sequenceLikeness_rat]
  split
  · exact ⟨zero_le_one, le_refl 1⟩
  · next hlong =>
    have hpos : (0 : Rat) < (max a.length b.length : Nat) :=
      Nat.cast_pos.2 (Nat.pos_of_ne_zero hlong)
    have hle : (editDistance a b : Rat) ≤ (max a.length b.length : Nat) :=
      Nat.cast_le.2 (editDistance_le_max a b)
    have hnonneg : 0 ≤ (editDistance a b : Rat) / (max a.length b.length : Nat) :=
      div_nonneg (Nat.cast_nonneg _) hpos.le
    have hone : (editDistance a b : Rat) / (max a.length b.length : Nat) ≤ 1 :=
      (div_le_one₀ hpos).2 hle
    constructor <;> linarith

section Metric

variable [LawfulBEq τ] {a b : List τ}

theorem editDistance_eq_zero_iff : editDistance a b = 0 ↔ a = b := by
  constructor
  · intro hzero
    have hscript := script_editDistance a b
    rw [hzero] at hscript
    cases hscript
    rfl
  · rintro rfl
    rw [editDistance_eq, distanceTo_self]

theorem editDistance_triangle (a b c : List τ) :
    editDistance a c ≤ editDistance a b + editDistance b c :=
  ((script_editDistance a b).trans (script_editDistance b c)).editDistance_le

theorem sequenceLikeness_eq_one_iff : (sequenceLikeness a b : Rat) = 1 ↔ a = b := by
  rw [sequenceLikeness_rat, ← editDistance_eq_zero_iff]
  split
  · next hshort =>
    have hle := editDistance_le_max a b
    exact iff_of_true rfl (by omega)
  · next hlong =>
    have hne : ((max a.length b.length : Nat) : Rat) ≠ 0 := Nat.cast_ne_zero.2 hlong
    rw [sub_eq_self, div_eq_zero_iff, or_iff_left hne, Nat.cast_eq_zero]

end Metric

/-- The edit distance is the least number of insertions, deletions and substitutions that turn one
sequence into another. So it is a metric and at least the difference of the lengths, and the likeness
of sequences is symmetric, lies between nought and one, and is one for equal sequences only. -/
theorem editDistance_isLeast [LawfulBEq τ] (a b : List τ) :
    IsLeast {n | Script n a b} (editDistance a b) ∧
      (editDistance a b = editDistance b a ∧ (editDistance a b = 0 ↔ a = b) ∧
        ∀ c, editDistance a c ≤ editDistance a b + editDistance b c) ∧
      (a.length ≤ editDistance a b + b.length ∧ b.length ≤ editDistance a b + a.length) ∧
      ((sequenceLikeness a b : Rat) = sequenceLikeness b a ∧
        (0 ≤ (sequenceLikeness a b : Rat) ∧ (sequenceLikeness a b : Rat) ≤ 1) ∧
        ((sequenceLikeness a b : Rat) = 1 ↔ a = b)) := by
  refine ⟨?_, ?_, length_le_editDistance a b, ?_⟩
  · exact ⟨script_editDistance a b, fun n h => h.editDistance_le⟩
  · exact ⟨editDistance_comm a b, editDistance_eq_zero_iff, editDistance_triangle a b⟩
  · exact ⟨sequenceLikeness_comm a b, sequenceLikeness_bounds a b, sequenceLikeness_eq_one_iff⟩

/-- Three edits turn "kitten" into "sitting", and two do not. -/
theorem editDistance_of_kitten :
    Script 3 "kitten".toList "sitting".toList ∧ ¬Script 2 "kitten".toList "sitting".toList ∧
      (sequenceLikeness "kitten".toList "sitting".toList : Rat) = 4 / 7 := by
  have hdistance : editDistance "kitten".toList "sitting".toList = 3 := by decide
  obtain ⟨⟨hscript, hleast⟩, -⟩ := editDistance_isLeast "kitten".toList "sitting".toList
  rw [hdistance] at hscript hleast
  refine ⟨hscript, fun h => absurd (hleast h) (by decide), ?_⟩
  have hlong : max "kitten".toList.length "sitting".toList.length = 7 := by decide
  rw [sequenceLikeness_rat, hdistance, hlong]
  norm_num

end Marginalia
