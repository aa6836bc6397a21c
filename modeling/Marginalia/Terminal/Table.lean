import Marginalia.Terminal.Paint
import Marginalia.Unicode.Width

/-! Tables of text with a rounded frame, under a row of titles. -/

namespace Marginalia.Terminal

/-- A cell: a text that may be painted. Paint takes no room. -/
structure Cell where
  text : String
  paint : Option Paint := none
  deriving DecidableEq, Repr

namespace Cell

def width (cell : Cell) : Nat := Unicode.width cell.text.toList

def painted (cell : Cell) : String :=
  match cell.paint with
  | some paint => paint.on cell.text
  | none => cell.text

/-- A cell filled up with blanks to a width, with a blank at either side. -/
def filled (width : Nat) (cell : Cell) : String :=
  " " ++ cell.painted ++ String.ofList (List.replicate (width - cell.width) ' ') ++ " "

end Cell

def widths (rows : List (List Cell)) : List Nat :=
  rows.foldl (fun widest row =>
    (List.range (max widest.length row.length)).map fun i =>
      max (widest[i]?.getD 0) ((row[i]?.map Cell.width).getD 0)) []

def frameLine (left middle right : String) (widths : List Nat) : String :=
  left ++ String.intercalate middle
    (widths.map fun w => String.ofList (List.replicate (w + 2) '─')) ++ right

def rowLine (widths : List Nat) (row : List Cell) : String :=
  "│" ++ String.intercalate "│" ((widths.zip row).map fun (w, cell) => cell.filled w) ++ "│"

def tableLines (titles : List String) (rows : List (List Cell)) : List String :=
  let head := titles.map fun title => (⟨title, none⟩ : Cell)
  let widths := widths (head :: rows)
  [frameLine "╭" "┬" "╮" widths, rowLine widths head, frameLine "├" "┼" "┤" widths]
    ++ rows.map (rowLine widths) ++ [frameLine "╰" "┴" "╯" widths]

def plainTable (titles : List String) (rows : List (List String)) : List String :=
  tableLines titles (rows.map (·.map fun text => ⟨text, none⟩))

end Marginalia.Terminal
