/-! Optimal string alignment: edit distance in which a swap of neighbours counts as one edit. -/

namespace Marginalia

/-- The rest of a row of the alignment table for the character `x` after `x'`. `left` is the cell
before it, `y'` the character before the rest of the second text, `above` the cells of the row above
from the one before it on, and `far` those of the row above that one, two columns back. -/
def alignmentCells (x : Char) (x' : Option Char) (left : Nat) (y' : Option Char) :
    List Nat → List Nat → List Char → List Nat
  | diagonal :: up :: above, far, y :: ys =>
    let cell := min (min (up + 1) (left + 1)) (diagonal + if x == y then 0 else 1)
    match y', far with
    | none, _ => cell :: alignmentCells x x' cell (some y) (up :: above) far ys
    | some before, swap :: far =>
      let cell := if x' == some y && x == before then min cell (swap + 1) else cell
      cell :: alignmentCells x x' cell (some y) (up :: above) far ys
    | some _, [] => cell :: alignmentCells x x' cell (some y) (up :: above) [] ys
  | _, _, _ => []

/-- The last character read and the last two rows, the latest first. -/
structure AlignmentRows where
  read : Option Char
  row : List Nat
  before : List Nat

def AlignmentRows.next (b : List Char) (rows : AlignmentRows) (x : Char) : AlignmentRows :=
  let first := rows.row.headD 0 + 1
  { read := some x
    row := first :: alignmentCells x rows.read first none rows.row rows.before b
    before := rows.row }

def alignmentRows (a b : List Char) : AlignmentRows :=
  a.foldl (AlignmentRows.next b) ⟨none, List.range (b.length + 1), []⟩

def alignmentDistance (a b : String) : Nat :=
  (alignmentRows a.toList b.toList).row.getLastD 0

end Marginalia
