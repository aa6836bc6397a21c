/-! Edits of sequences: an item is put in, taken out or put in the place of another, or two
neighbours are swapped. A script is a run of such edits without swaps. -/

namespace Marginalia

variable {τ : Type}

/-- The second sequence is the first with one item put in, taken out or replaced. -/
inductive Edited : List τ → List τ → Prop
  | inserted (before after : List τ) (x : τ) : Edited (before ++ after) (before ++ x :: after)
  | deleted (before after : List τ) (x : τ) : Edited (before ++ x :: after) (before ++ after)
  | substituted (before after : List τ) (x y : τ) :
    Edited (before ++ x :: after) (before ++ y :: after)

/-- The second sequence is the first with two neighbours swapped. -/
inductive Swapped : List τ → List τ → Prop
  | swapped (before after : List τ) (x y : τ) :
    Swapped (before ++ x :: y :: after) (before ++ y :: x :: after)

/-- So many edits, one after the other, turn the first sequence into the second. -/
inductive Script : Nat → List τ → List τ → Prop
  | done (a : List τ) : Script 0 a a
  | next {n : Nat} {a b c : List τ} (first : Edited a b) (rest : Script n b c) : Script (n + 1) a c

variable {a b c : List τ} {m n : Nat}

namespace Edited

theorem symm (h : Edited a b) : Edited b a := by
  cases h with
  | inserted before after x => exact .deleted before after x
  | deleted before after x => exact .inserted before after x
  | substituted before after x y => exact .substituted before after y x

theorem cons (x : τ) (h : Edited a b) : Edited (x :: a) (x :: b) := by
  cases h with
  | inserted before after y => exact .inserted (x :: before) after y
  | deleted before after y => exact .deleted (x :: before) after y
  | substituted before after y z => exact .substituted (x :: before) after y z

theorem reverse (h : Edited a b) : Edited a.reverse b.reverse := by
  cases h with
  | inserted before after x => simpa using inserted after.reverse before.reverse x
  | deleted before after x => simpa using deleted after.reverse before.reverse x
  | substituted before after x y => simpa using substituted after.reverse before.reverse x y

end Edited

theorem edited_reverse_iff : Edited a.reverse b.reverse ↔ Edited a b :=
  ⟨fun h => by simpa using h.reverse, Edited.reverse⟩

namespace Swapped

theorem cons (x : τ) (h : Swapped a b) : Swapped (x :: a) (x :: b) := by
  cases h with
  | swapped before after y z => exact .swapped (x :: before) after y z

theorem reverse (h : Swapped a b) : Swapped a.reverse b.reverse := by
  cases h with
  | swapped before after x y => simpa using swapped after.reverse before.reverse y x

end Swapped

theorem swapped_reverse_iff : Swapped a.reverse b.reverse ↔ Swapped a b :=
  ⟨fun h => by simpa using h.reverse, Swapped.reverse⟩

namespace Script

theorem cons (x : τ) (h : Script n a b) : Script n (x :: a) (x :: b) := by
  induction h with
  | done a => exact .done (x :: a)
  | next first rest ih => exact .next (first.cons x) ih

theorem reverse (h : Script n a b) : Script n a.reverse b.reverse := by
  induction h with
  | done a => exact .done a.reverse
  | next first rest ih => exact .next first.reverse ih

theorem trans (hab : Script m a b) (hbc : Script n b c) : Script (m + n) a c := by
  induction hab with
  | done a =>
    rw [Nat.zero_add]
    exact hbc
  | next first rest ih =>
    rw [Nat.add_right_comm]
    exact .next first (ih hbc)

theorem insertions (b : List τ) : Script b.length [] b := by
  induction b with
  | nil => exact .done []
  | cons y b ih => exact .next (.inserted [] [] y) (ih.cons y)

theorem deletions (a : List τ) : Script a.length a [] := by
  induction a with
  | nil => exact .done []
  | cons x a ih => exact .next (.deleted [] a x) ih

end Script

end Marginalia
