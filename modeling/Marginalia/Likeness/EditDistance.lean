import Marginalia.Likeness.Score

/-! Edit distance of sequences: the least number of insertions, deletions and substitutions, computed
row by row, and the likeness of sequences that it gives. -/

namespace Marginalia

/-- The rest of a row of the distance table. `left` is the cell before it, `above` the cells of the
row above from the one before it on. -/
def distanceCells {τ : Type} [BEq τ] (x : τ) (left : Nat) : List Nat → List τ → List Nat
  | diagonal :: up :: above, y :: ys =>
    let cell := min (min (up + 1) (left + 1)) (diagonal + if x == y then 0 else 1)
    cell :: distanceCells x cell (up :: above) ys
  | _, _ => []

def nextDistanceRow {τ : Type} [BEq τ] (b : List τ) (row : List Nat) (x : τ) : List Nat :=
  let first := row.headD 0 + 1
  first :: distanceCells x first row b

def editDistance {τ : Type} [BEq τ] (a b : List τ) : Nat :=
  (a.foldl (nextDistanceRow b) (List.range (b.length + 1))).getLastD 0

/-- One less the edit distance as a part of the longer length; empty sequences are alike. -/
def sequenceLikeness {α : Type} [Score α] {τ : Type} [BEq τ] (a b : List τ) : α :=
  let longest := max a.length b.length
  if longest = 0 then Score.one
  else Score.one - Score.ratio (editDistance a b) longest

end Marginalia
