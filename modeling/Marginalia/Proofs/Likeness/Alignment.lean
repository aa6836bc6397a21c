import Marginalia.Likeness.Alignment
import Marginalia.Proofs.Likeness.EditDistance

/-! The rows of the alignment table hold the alignment distances between beginnings of the two
texts, so the distance follows the recursion on their last characters; it is at least the difference
of the lengths. -/

namespace Marginalia

/-- The alignment distance of two beginnings, nearest characters first: the last characters are
deleted, inserted or put for each other, or the last two are swapped. -/
def alignmentTo : List Char → List Char → Nat
  | [], ys => ys.length
  | _ :: xs, [] => xs.length + 1
  | x :: xs, y :: ys =>
    let single := min (min (alignmentTo xs (y :: ys) + 1) (alignmentTo (x :: xs) ys + 1))
      (alignmentTo xs ys + if x == y then 0 else 1)
    match xs, ys with
    | x' :: xs, y' :: ys =>
      if x' == y && x == y' then min single (alignmentTo xs ys + 1) else single
    | _, _ => single
termination_by xs ys => xs.length + ys.length

theorem alignmentTo_nil_left (ys : List Char) : alignmentTo [] ys = ys.length := by
  rw [alignmentTo]

theorem alignmentTo_nil_right (xs : List Char) : alignmentTo xs [] = xs.length := by
  cases xs <;> simp [alignmentTo]

/-- The cells of the row two above, two columns back, for a beginning of the first text and one of
the second. -/
def farCells (xs read ys : List Char) : List Nat :=
  match xs, read with
  | [], _ => []
  | _ :: xs, [] => along (alignmentTo xs) [] ys
  | _ :: xs, y' :: read => along (alignmentTo xs) read (y' :: ys)

/-- Two beginnings of which one has a single character end in no swap. -/
theorem alignmentTo_single (x y : Char) {xs ys : List Char} (h : xs = [] ∨ ys = []) :
    alignmentTo (x :: xs) (y :: ys) =
      min (min (alignmentTo xs (y :: ys) + 1) (alignmentTo (x :: xs) ys + 1))
        (alignmentTo xs ys + if x == y then 0 else 1) := by
  rw [alignmentTo]
  rintro x' xs' y' ys' rfl rfl
  simp at h

theorem alignmentCells_along (x : Char) (xs read ys : List Char) :
    alignmentTo (x :: xs) read ::
        alignmentCells x xs.head? (alignmentTo (x :: xs) read) read.head?
          (along (alignmentTo xs) read ys) (farCells xs read ys) ys =
      along (alignmentTo (x :: xs)) read ys := by
  induction ys generalizing read with
  | nil => simp [along, alignmentCells]
  | cons y ys ih =>
    obtain ⟨above, habove⟩ : ∃ above, along (alignmentTo xs) (y :: read) ys =
        alignmentTo xs (y :: read) :: above := ⟨_, along_eq_cons _ _ _⟩
    have hrest := ih (y :: read)
    rw [habove] at hrest
    rw [along, along, habove, ← hrest]
    -- the far row starts two columns back, so it stays where it is while one column has been read
    cases read with
    | nil =>
      have hfar : farCells xs [] (y :: ys) = farCells xs [y] ys := by cases xs <;> rfl
      rw [alignmentTo_single x y (.inr rfl), hfar]
      simp only [List.head?_nil, List.head?_cons, alignmentCells]
    | cons y' read =>
      cases xs with
      | nil =>
        rw [alignmentTo_single x y (.inl rfl)]
        simp only [List.head?_nil, List.head?_cons, alignmentCells, farCells]
      | cons x' xs =>
        rw [alignmentTo.eq_3 x y]
        rfl

theorem next_along (b : List Char) (x : Char) (xs : List Char) :
    AlignmentRows.next b ⟨xs.head?, along (alignmentTo xs) [] b, farCells xs [] b⟩ x =
      ⟨some x, along (alignmentTo (x :: xs)) [] b, farCells (x :: xs) [] b⟩ := by
  have hfirst : (along (alignmentTo xs) [] b).headD 0 + 1 = alignmentTo (x :: xs) [] := by
    rw [along_eq_cons, List.headD_cons, alignmentTo_nil_right, alignmentTo_nil_right,
      List.length_cons]
  have hrow := alignmentCells_along x xs [] b
  rw [AlignmentRows.next]
  simp only [hfirst]
  rw [← hrow]
  rfl

theorem foldl_next (a b xs : List Char) :
    a.foldl (AlignmentRows.next b) ⟨xs.head?, along (alignmentTo xs) [] b, farCells xs [] b⟩ =
      ⟨(a.reverse ++ xs).head?, along (alignmentTo (a.reverse ++ xs)) [] b,
        farCells (a.reverse ++ xs) [] b⟩ := by
  induction a generalizing xs with
  | nil => rfl
  | cons x a ih =>
    rw [List.foldl_cons, next_along]
    have h := ih (x :: xs)
    rw [List.head?_cons] at h
    rw [h, List.reverse_cons, List.append_assoc, List.singleton_append]

theorem alignmentRows_eq (a b : List Char) :
    alignmentRows a b = ⟨a.reverse.head?, along (alignmentTo a.reverse) [] b,
      farCells a.reverse [] b⟩ := by
  have hrow : List.range (b.length + 1) = along (alignmentTo []) [] b := by
    rw [show alignmentTo [] = List.length from funext alignmentTo_nil_left, along_length]
    simp
  have hrows := foldl_next a b []
  rw [List.append_nil] at hrows
  rw [alignmentRows, hrow, ← hrows]
  rfl

theorem alignmentDistance_eq (a b : String) :
    alignmentDistance a b = alignmentTo a.toList.reverse b.toList.reverse := by
  rw [alignmentDistance, alignmentRows_eq, getLastD_along, List.append_nil]

theorem length_le_alignmentTo (xs ys : List Char) :
    xs.length ≤ alignmentTo xs ys + ys.length ∧ ys.length ≤ alignmentTo xs ys + xs.length := by
  fun_induction alignmentTo xs ys with
  | case1 ys => simp
  | case2 x xs => simp
  | case3 x y x' xs y' ys hswap single ih1 ih2 ih3 ih4 =>
    simp only [List.length_cons, single] at *
    split <;> omega
  | case4 x y x' xs y' ys hswap single ih1 ih2 ih3 =>
    simp only [List.length_cons, single] at *
    split <;> omega
  | case5 x xs y ys single hshort ih1 ih2 ih3 =>
    simp only [List.length_cons, single] at *
    split <;> omega

theorem length_le_alignmentDistance (a b : String) :
    a.length ≤ alignmentDistance a b + b.length ∧ b.length ≤ alignmentDistance a b + a.length := by
  rw [alignmentDistance_eq, ← String.length_toList, ← String.length_toList]
  simpa only [List.length_reverse] using length_le_alignmentTo a.toList.reverse b.toList.reverse

end Marginalia
