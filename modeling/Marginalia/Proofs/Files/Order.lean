import Marginalia.Files.Path

/-! Paths are totally ordered by their steps. -/

namespace Marginalia.Files

open Std

namespace Step

/-- Where a kind of step stands among the others. -/
def rank : Step → Nat
  | root => 0
  | here => 1
  | up => 2
  | name _ => 3

def text : Step → String
  | name text => text
  | _ => ""

theorem order_eq (a b : Step) : a.order b = (compare a.rank b.rank).then (compare a.text b.text) := by
  cases a <;> cases b <;> rfl

instance : TransCmp order := by
  have heq : order = compareLex (compareOn rank) (compareOn text) :=
    funext fun a => funext fun b => order_eq a b
  rw [heq]
  infer_instance

instance : LawfulEqCmp order where
  eq_of_compare := by
    intro a b h
    cases a <;> cases b <;> first | rfl | cases h | exact congrArg name (LawfulEqOrd.eq_of_compare h)

end Step

theorem stepsOrder_eq : stepsOrder = List.compareLex Step.order := by
  funext a b
  induction a generalizing b with
  | nil => cases b <;> rfl
  | cons step a ih =>
    cases b with
    | nil => rfl
    | cons other b => rw [stepsOrder, ih, List.compareLex_cons_cons]

instance : TransCmp stepsOrder := stepsOrder_eq ▸ inferInstanceAs (TransCmp (List.compareLex Step.order))

instance : LawfulEqCmp stepsOrder :=
  stepsOrder_eq ▸ inferInstanceAs (LawfulEqCmp (List.compareLex Step.order))

end Marginalia.Files
