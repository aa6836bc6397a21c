/-! Sets of characters as ascending runs of code points. A run counts from its first to its last
code point in equal steps, so that alternating capital and small letters are one run. -/

namespace Marginalia.Unicode

/-- First code point, last code point and step. -/
abbrev Run := Nat × Nat × Nat

/-- Whether a code point lies on one of the runs, which ascend by their first code points. -/
def onRun (n : Nat) : List Run → Bool
  | [] => false
  | (first, last, step) :: rest =>
    if n < first then false
    else (n ≤ last && (n - first) % step == 0) || onRun n rest

/-- First code point, last code point, step and the image of the first. -/
abbrev Shift := Nat × Nat × Nat × Nat

/-- The image of a code point under the first shift that covers it. -/
def shifted? (n : Nat) : List Shift → Option Nat
  | [] => none
  | (first, last, step, image) :: rest =>
    if n < first then none
    else if n ≤ last && (n - first) % step == 0 then some (image + (n - first))
    else shifted? n rest

end Marginalia.Unicode
