import Marginalia.Proofs.Likeness.Alignment
import Marginalia.Proofs.Likeness.Edits

/-! The alignment distance is symmetric, nought for equal texts only and at most the greater of the
lengths; and it is one exactly for texts that differ by one edit, a swap of neighbours counted as
one. -/

namespace Marginalia

/-! ### Steps of the recursion -/

theorem alignmentTo_swap (x y : Char) (xs ys : List Char) :
    alignmentTo (x :: y :: xs) (y :: x :: ys) ≤ alignmentTo xs ys + 1 := by
  rw [alignmentTo.eq_3, if_pos (by simp)]
  exact Nat.min_le_right _ _

/-- The distance of two beginnings of which the last characters are dealt with one by one. -/
def singleTo (x y : Char) (xs ys : List Char) : Nat :=
  min (min (alignmentTo xs (y :: ys) + 1) (alignmentTo (x :: xs) ys + 1))
    (alignmentTo xs ys + if x == y then 0 else 1)

/-- The last two characters are swapped only where that is nearer. -/
theorem alignmentTo_cons_cons (x y : Char) (xs ys : List Char) :
    alignmentTo (x :: xs) (y :: ys) = singleTo x y xs ys ∨
      alignmentTo (x :: xs) (y :: ys) ≤ singleTo x y xs ys ∧ ∃ xs' ys', xs = y :: xs' ∧
        ys = x :: ys' ∧ alignmentTo (x :: xs) (y :: ys) = alignmentTo xs' ys' + 1 := by
  cases xs with
  | nil => exact .inl (alignmentTo_single x y (.inl rfl))
  | cons x' xs =>
    cases ys with
    | nil => exact .inl (alignmentTo_single x y (.inr rfl))
    | cons y' ys =>
      have hvalue : alignmentTo (x :: x' :: xs) (y :: y' :: ys) =
          if x' == y && x == y' then
            min (singleTo x y (x' :: xs) (y' :: ys)) (alignmentTo xs ys + 1)
          else singleTo x y (x' :: xs) (y' :: ys) := alignmentTo.eq_3 x y x' xs y' ys
      split at hvalue
      · next hswap =>
        simp only [Bool.and_eq_true, beq_iff_eq] at hswap
        obtain ⟨rfl, rfl⟩ := hswap
        rcases Nat.le_total (singleTo x x' (x' :: xs) (x :: ys)) (alignmentTo xs ys + 1) with h | h
        · rw [Nat.min_eq_left h] at hvalue
          exact .inl hvalue
        · rw [Nat.min_eq_right h] at hvalue
          exact .inr ⟨hvalue ▸ h, xs, ys, rfl, rfl, hvalue⟩
      · exact .inl hvalue

theorem alignmentTo_le_singleTo (x y : Char) (xs ys : List Char) :
    alignmentTo (x :: xs) (y :: ys) ≤ singleTo x y xs ys := by
  rcases alignmentTo_cons_cons x y xs ys with h | ⟨h, -⟩
  · exact Nat.le_of_eq h
  · exact h

theorem alignmentTo_cons_left_le (x : Char) (xs ys : List Char) :
    alignmentTo (x :: xs) ys ≤ alignmentTo xs ys + 1 := by
  cases ys with
  | nil => simp [alignmentTo_nil_right]
  | cons y ys =>
    have hsingle := alignmentTo_le_singleTo x y xs ys
    rw [singleTo] at hsingle
    omega

theorem alignmentTo_cons_cons_le (x y : Char) (xs ys : List Char) :
    alignmentTo (x :: xs) (y :: ys) ≤ alignmentTo xs ys + if x == y then 0 else 1 :=
  Nat.le_trans (alignmentTo_le_singleTo x y xs ys) (Nat.min_le_right _ _)

theorem alignmentTo_self_cons_le (x : Char) (xs ys : List Char) :
    alignmentTo (x :: xs) (x :: ys) ≤ alignmentTo xs ys := by
  simpa using alignmentTo_cons_cons_le x x xs ys

theorem alignmentTo_append_left_le (before xs ys : List Char) :
    alignmentTo (before ++ xs) (before ++ ys) ≤ alignmentTo xs ys := by
  induction before with
  | nil => exact Nat.le_refl _
  | cons w before ih => exact Nat.le_trans (alignmentTo_self_cons_le w _ _) ih

/-! ### Symmetry and bounds -/

theorem singleTo_comm {x y : Char} {xs ys : List Char}
    (hdelete : alignmentTo xs (y :: ys) = alignmentTo (y :: ys) xs)
    (hinsert : alignmentTo (x :: xs) ys = alignmentTo ys (x :: xs))
    (hrest : alignmentTo xs ys = alignmentTo ys xs) : singleTo x y xs ys = singleTo y x ys xs := by
  rw [singleTo, singleTo, hdelete, hinsert, hrest, Bool.beq_comm,
    Nat.min_comm (alignmentTo (y :: ys) xs + 1)]

theorem alignmentTo_comm (xs ys : List Char) : alignmentTo xs ys = alignmentTo ys xs := by
  fun_induction alignmentTo xs ys with
  | case1 ys => rw [alignmentTo_nil_right]
  | case2 x xs => rw [alignmentTo_nil_left, List.length_cons]
  | case3 x y x' xs y' ys hswap single hdelete hinsert hrest hfar =>
    have hback : (y' == x && y == x') = true := by
      simp only [Bool.and_eq_true, beq_iff_eq] at hswap ⊢
      exact ⟨hswap.2.symm, hswap.1.symm⟩
    rw [alignmentTo.eq_3 y x, if_pos hback, ← hfar]
    exact congrArg (min · _) (singleTo_comm hdelete hinsert hrest)
  | case4 x y x' xs y' ys hswap single hdelete hinsert hrest =>
    have hback : ¬(y' == x && y == x') = true := by
      simp only [Bool.and_eq_true, beq_iff_eq] at hswap ⊢
      exact fun h => hswap ⟨h.2.symm, h.1.symm⟩
    rw [alignmentTo.eq_3 y x, if_neg hback]
    exact singleTo_comm hdelete hinsert hrest
  | case5 x xs y ys single hshort hdelete hinsert hrest =>
    have hends : ys = [] ∨ xs = [] := by
      cases xs with
      | nil => exact .inr rfl
      | cons x' xs =>
        cases ys with
        | nil => exact .inl rfl
        | cons y' ys => exact (hshort x' xs y' ys rfl rfl).elim
    rw [alignmentTo_single y x hends]
    exact singleTo_comm hdelete hinsert hrest

theorem alignmentTo_eq_zero_iff {xs ys : List Char} : alignmentTo xs ys = 0 ↔ xs = ys := by
  induction xs generalizing ys with
  | nil => simp [alignmentTo_nil_left, eq_comm]
  | cons x xs ih =>
    cases ys with
    | nil => simp [alignmentTo_nil_right]
    | cons y ys =>
      constructor
      · intro hzero
        rcases alignmentTo_cons_cons x y xs ys with h | ⟨-, xs', ys', -, -, h⟩
        · rw [hzero, singleTo] at h
          have hrest : alignmentTo xs ys = 0 := by omega
          by_cases hxy : x = y
          · rw [hxy, ih.1 hrest]
          · rw [if_neg (by simpa using hxy)] at h
            omega
        · omega
      · intro h
        obtain ⟨rfl, rfl⟩ := List.cons.inj h
        have hle := alignmentTo_self_cons_le x xs xs
        rw [ih.2 rfl] at hle
        exact Nat.le_zero.1 hle

theorem alignmentTo_le_max (xs ys : List Char) : alignmentTo xs ys ≤ max xs.length ys.length := by
  induction xs generalizing ys with
  | nil => simp [alignmentTo_nil_left]
  | cons x xs ih =>
    cases ys with
    | nil => simp [alignmentTo_nil_right]
    | cons y ys =>
      have hstep : alignmentTo (x :: xs) (y :: ys) ≤ alignmentTo xs ys + 1 := by
        have hkept := alignmentTo_cons_cons_le x y xs ys
        split at hkept <;> omega
      have hrest := ih ys
      simp only [List.length_cons]
      omega

/-! ### One edit -/

theorem edited_or_swapped_of_alignmentTo {xs ys : List Char} (h : alignmentTo xs ys = 1) :
    Edited xs ys ∨ Swapped xs ys := by
  -- What an edit of the heads leaves is at distance nought, so only equal heads go on.
  induction xs generalizing ys with
  | nil =>
    rw [alignmentTo_nil_left] at h
    obtain ⟨y, rfl⟩ := List.length_eq_one_iff.1 h
    exact .inl (.inserted [] [] y)
  | cons x xs ih =>
    cases ys with
    | nil =>
      rw [alignmentTo_nil_right] at h
      obtain ⟨z, hz⟩ := List.length_eq_one_iff.1 h
      rw [hz]
      exact .inl (.deleted [] [] z)
    | cons y ys =>
      rcases alignmentTo_cons_cons x y xs ys with hone | ⟨-, xs', ys', rfl, rfl, hone⟩
      · rw [h, singleTo] at hone
        have hlast : alignmentTo xs (y :: ys) = 0 ∨ alignmentTo (x :: xs) ys = 0 ∨
            1 = alignmentTo xs ys + if x == y then 0 else 1 := by omega
        rcases hlast with hdelete | hinsert | hrest
        · rw [alignmentTo_eq_zero_iff.1 hdelete]
          exact .inl (.deleted [] (y :: ys) x)
        · rw [← alignmentTo_eq_zero_iff.1 hinsert]
          exact .inl (.inserted [] (x :: xs) y)
        · split at hrest
          · next hxy =>
            rw [beq_iff_eq.1 hxy]
            exact (ih hrest.symm).imp (.cons y) (.cons y)
          · rw [alignmentTo_eq_zero_iff.1 (show alignmentTo xs ys = 0 by omega)]
            exact .inl (.substituted [] ys x y)
      · rw [h] at hone
        have heq : xs' = ys' := alignmentTo_eq_zero_iff.1 (by omega)
        rw [heq]
        exact .inr (.swapped [] ys' x y)

theorem alignmentTo_self (xs : List Char) : alignmentTo xs xs = 0 :=
  alignmentTo_eq_zero_iff.2 rfl

theorem Edited.alignmentTo_le {xs ys : List Char} (h : Edited xs ys) : alignmentTo xs ys ≤ 1 := by
  cases h with
  | inserted before after y =>
    apply Nat.le_trans (alignmentTo_append_left_le before _ _)
    rw [alignmentTo_comm]
    simpa [alignmentTo_self] using alignmentTo_cons_left_le y after after
  | deleted before after x =>
    apply Nat.le_trans (alignmentTo_append_left_le before _ _)
    simpa [alignmentTo_self] using alignmentTo_cons_left_le x after after
  | substituted before after x y =>
    apply Nat.le_trans (alignmentTo_append_left_le before _ _)
    have hlast := alignmentTo_cons_cons_le x y after after
    rw [alignmentTo_self] at hlast
    split at hlast <;> omega

theorem Swapped.alignmentTo_le {xs ys : List Char} (h : Swapped xs ys) : alignmentTo xs ys ≤ 1 := by
  cases h with
  | swapped before after x y =>
    apply Nat.le_trans (alignmentTo_append_left_le before _ _)
    simpa [alignmentTo_self] using alignmentTo_swap x y after after

theorem alignmentTo_eq_one_iff {xs ys : List Char} :
    alignmentTo xs ys = 1 ↔ xs ≠ ys ∧ (Edited xs ys ∨ Swapped xs ys) := by
  constructor
  · intro h
    refine ⟨?_, edited_or_swapped_of_alignmentTo h⟩
    rintro rfl
    rw [alignmentTo_self] at h
    cases h
  · rintro ⟨hne, h⟩
    have hle : alignmentTo xs ys ≤ 1 := h.elim Edited.alignmentTo_le Swapped.alignmentTo_le
    have hpos : alignmentTo xs ys ≠ 0 := mt alignmentTo_eq_zero_iff.1 hne
    omega

/-! ### Texts -/

theorem alignmentDistance_comm (a b : String) : alignmentDistance a b = alignmentDistance b a := by
  rw [alignmentDistance_eq, alignmentDistance_eq, alignmentTo_comm]

theorem alignmentDistance_eq_zero_iff {a b : String} : alignmentDistance a b = 0 ↔ a = b := by
  rw [alignmentDistance_eq, alignmentTo_eq_zero_iff, List.reverse_inj, String.toList_inj]

theorem alignmentDistance_le_max (a b : String) :
    alignmentDistance a b ≤ max a.length b.length := by
  rw [alignmentDistance_eq, ← String.length_toList, ← String.length_toList]
  simpa only [List.length_reverse] using alignmentTo_le_max a.toList.reverse b.toList.reverse

theorem alignmentDistance_eq_one_iff {a b : String} :
    alignmentDistance a b = 1 ↔ a ≠ b ∧ (Edited a.toList b.toList ∨ Swapped a.toList b.toList) := by
  rw [alignmentDistance_eq, alignmentTo_eq_one_iff, edited_reverse_iff, swapped_reverse_iff, Ne,
    List.reverse_inj, String.toList_inj]

/-- The alignment distance is symmetric, nought for equal texts only, at least the difference of the
lengths and at most the greater of them. It is one exactly for two texts of which one comes from the
other by inserting, deleting or substituting one character or by swapping two neighbours. -/
theorem alignmentDistance_measures (a b : String) :
    alignmentDistance a b = alignmentDistance b a ∧
      (alignmentDistance a b = 0 ↔ a = b) ∧
      (a.length ≤ alignmentDistance a b + b.length ∧
        b.length ≤ alignmentDistance a b + a.length) ∧
      alignmentDistance a b ≤ max a.length b.length ∧
      (alignmentDistance a b = 1 ↔
        a ≠ b ∧ (Edited a.toList b.toList ∨ Swapped a.toList b.toList)) :=
  ⟨alignmentDistance_comm a b, alignmentDistance_eq_zero_iff, length_le_alignmentDistance a b,
    alignmentDistance_le_max a b, alignmentDistance_eq_one_iff⟩

/-- A swap is one edit, but nothing is put between the two letters afterwards. -/
example : alignmentDistance "teh" "the" = 1 ∧ alignmentDistance "ca" "abc" = 3 := by decide

end Marginalia
