/-! Lists in groups of one key, and the pairs of a list. -/

namespace Marginalia.Drift

variable {τ κ : Type}

/-- The members of a list by their keys, in the order in which the keys first occur. -/
def grouped [BEq κ] (key : τ → κ) (items : List τ) : List (κ × List τ) :=
  (items.map key).eraseDups.map fun k => (k, items.filter fun x => key x == k)

/-- Every pair of a member and a later one. -/
def pairs : List τ → List (τ × τ)
  | [] => []
  | x :: rest => rest.map (fun y => (x, y)) ++ pairs rest

end Marginalia.Drift
