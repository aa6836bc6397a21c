import Marginalia.Likeness.EditDistance
import Mathlib.Algebra.Order.Field.Rat
import Mathlib.Tactic.Linarith

/-! The rows of the distance table hold the distances between beginnings of the two sequences, so
the edit distance follows the recursion on their last items: it is symmetric and at least the
difference of the lengths. -/

namespace Marginalia

variable {τ : Type}

/-! ### Rows -/

/-- The values of `f` at the beginnings of a sequence, from the part already read on. A beginning is
given nearest item first. -/
def along (f : List τ → Nat) (read : List τ) : List τ → List Nat
  | [] => [f read]
  | y :: ys => f read :: along f (y :: read) ys

theorem along_eq_cons (f : List τ → Nat) (read ys : List τ) :
    along f read ys = f read :: (along f read ys).tail := by
  cases ys <;> rfl

theorem getLastD_along (f : List τ → Nat) (read ys : List τ) :
    (along f read ys).getLastD 0 = f (ys.reverse ++ read) := by
  induction ys generalizing read with
  | nil => rfl
  | cons y ys ih =>
    rw [along, along_eq_cons f (y :: read), List.getLastD_cons, List.getLastD_cons]
    have h := ih (y :: read)
    rw [along_eq_cons, List.getLastD_cons] at h
    rw [h]
    simp

theorem along_length (read ys : List τ) :
    along List.length read ys = (List.range (ys.length + 1)).map (· + read.length) := by
  induction ys generalizing read with
  | nil => simp [along]
  | cons y ys ih =>
    rw [along, ih, List.length_cons, List.length_cons, List.range_succ_eq_map (n := ys.length + 1)]
    simp [Function.comp_def, Nat.add_assoc, Nat.add_comm 1]

/-! ### Distances between beginnings -/

section Distance

variable [BEq τ]

/-- The edit distance of two beginnings, nearest items first: the last items are deleted, inserted
or put for each other. -/
def distanceTo : List τ → List τ → Nat
  | [], ys => ys.length
  | _ :: xs, [] => xs.length + 1
  | x :: xs, y :: ys =>
    min (min (distanceTo xs (y :: ys) + 1) (distanceTo (x :: xs) ys + 1))
      (distanceTo xs ys + if x == y then 0 else 1)
termination_by xs ys => xs.length + ys.length

theorem distanceTo_nil_left (ys : List τ) : distanceTo [] ys = ys.length := by
  rw [distanceTo]

theorem distanceTo_nil_right (xs : List τ) : distanceTo xs [] = xs.length := by
  cases xs <;> simp [distanceTo]

theorem distanceTo_cons_cons (x y : τ) (xs ys : List τ) :
    distanceTo (x :: xs) (y :: ys) =
      min (min (distanceTo xs (y :: ys) + 1) (distanceTo (x :: xs) ys + 1))
        (distanceTo xs ys + if x == y then 0 else 1) := by
  rw [distanceTo]

theorem distanceCells_along (x : τ) (xs read ys : List τ) :
    distanceTo (x :: xs) read ::
        distanceCells x (distanceTo (x :: xs) read) (along (distanceTo xs) read ys) ys =
      along (distanceTo (x :: xs)) read ys := by
  induction ys generalizing read with
  | nil => simp [along, distanceCells]
  | cons y ys ih =>
    rw [along, along, along_eq_cons (distanceTo xs), distanceCells, ← distanceTo_cons_cons,
      ← along_eq_cons, ih]

theorem nextDistanceRow_along (b : List τ) (x : τ) (xs : List τ) :
    nextDistanceRow b (along (distanceTo xs) [] b) x = along (distanceTo (x :: xs)) [] b := by
  have hfirst : (along (distanceTo xs) [] b).headD 0 + 1 = distanceTo (x :: xs) [] := by
    rw [along_eq_cons, List.headD_cons, distanceTo_nil_right, distanceTo_nil_right,
      List.length_cons]
  rw [nextDistanceRow, hfirst, distanceCells_along]

theorem foldl_nextDistanceRow (a b xs : List τ) :
    a.foldl (nextDistanceRow b) (along (distanceTo xs) [] b) =
      along (distanceTo (a.reverse ++ xs)) [] b := by
  induction a generalizing xs with
  | nil => rfl
  | cons x a ih => rw [List.foldl_cons, nextDistanceRow_along, ih]; simp

theorem editDistance_eq (a b : List τ) : editDistance a b = distanceTo a.reverse b.reverse := by
  have hrow : List.range (b.length + 1) = along (distanceTo []) [] b := by
    rw [show distanceTo ([] : List τ) = List.length from funext distanceTo_nil_left, along_length]
    simp
  rw [editDistance, hrow, foldl_nextDistanceRow, getLastD_along]
  simp

theorem length_le_distanceTo (xs ys : List τ) :
    xs.length ≤ distanceTo xs ys + ys.length ∧ ys.length ≤ distanceTo xs ys + xs.length := by
  fun_induction distanceTo xs ys with
  | case1 ys => simp
  | case2 x xs => simp
  | case3 x xs y ys ih1 ih2 ih3 =>
    simp only [List.length_cons] at *
    split <;> omega

theorem distanceTo_comm [LawfulBEq τ] (xs ys : List τ) : distanceTo xs ys = distanceTo ys xs := by
  fun_induction distanceTo xs ys with
  | case1 ys => rw [distanceTo_nil_right]
  | case2 x xs => rw [distanceTo_nil_left, List.length_cons]
  | case3 x xs y ys ih1 ih2 ih3 =>
    rw [distanceTo_cons_cons y x, ih1, ih2, ih3, Bool.beq_comm,
      Nat.min_comm (distanceTo (y :: ys) xs + 1)]

theorem editDistance_comm [LawfulBEq τ] (a b : List τ) : editDistance a b = editDistance b a := by
  rw [editDistance_eq, editDistance_eq, distanceTo_comm]

theorem length_le_editDistance (a b : List τ) :
    a.length ≤ editDistance a b + b.length ∧ b.length ≤ editDistance a b + a.length := by
  rw [editDistance_eq]
  simpa using length_le_distanceTo a.reverse b.reverse

/-! ### Likeness of sequences -/

theorem sequenceLikeness_comm {α : Type} [Score α] [LawfulBEq τ] (a b : List τ) :
    (sequenceLikeness a b : α) = sequenceLikeness b a := by
  rw [sequenceLikeness, sequenceLikeness, Nat.max_comm, editDistance_comm]

theorem sequenceLikeness_rat (a b : List τ) :
    (sequenceLikeness a b : Rat) = if max a.length b.length = 0 then 1
      else 1 - (editDistance a b : Rat) / (max a.length b.length : Nat) := rfl

/-- Sequences are no more alike than their lengths. -/
theorem sequenceLikeness_le_ratio (a b : List τ) (h : 0 < max a.length b.length) :
    (sequenceLikeness a b : Rat) ≤
      Score.ratio (min a.length b.length) (max a.length b.length) := by
  obtain ⟨hab, hba⟩ := length_le_editDistance a b
  have hle : max a.length b.length ≤ editDistance a b + min a.length b.length := by omega
  have hpos : (0 : Rat) < (max a.length b.length : Nat) := by exact_mod_cast h
  have hcast : ((max a.length b.length : Nat) : Rat) ≤
      editDistance a b + (min a.length b.length : Nat) := by exact_mod_cast hle
  rw [sequenceLikeness_rat, if_neg (by omega)]
  change _ ≤ ((min a.length b.length : Nat) : Rat) / (max a.length b.length : Nat)
  rw [sub_le_iff_le_add, ← add_div, le_div_iff₀ hpos]
  linarith

end Distance

end Marginalia
