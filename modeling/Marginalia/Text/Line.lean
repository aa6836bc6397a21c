import Marginalia.Text.Bytes
import Marginalia.Text.Offset

/-! Lines of a text, counted from zero. A line begins at the start of the text or after a newline, and
its bounds leave the newline out. Lines are looked up among the offsets at which they begin. -/

namespace Marginalia.Text

def newline : UInt8 := 10

/-- The offsets after the newlines of some bytes, the first of which is at `offset`. -/
def newlineStops (offset : Nat) (source : List UInt8) : List Nat :=
  ((source.zipIdx offset).filter fun (byte, _) => byte == newline).map fun (_, start) => start + 1

/-- The offsets at which lines begin, ascending. -/
def lineStarts (text : List Char) : Array Nat := (0 :: newlineStops 0 (bytes text)).toArray

-- It unfolds by default, so that lookups in a fixed text can be evaluated.
/-- Where a test begins to fail, among the entries from `low` to `high`: the range is halved until it
is empty. -/
@[semireducible] def partitionWithin {α : Type} (p : α → Bool) (entries : Array α) (low high : Nat)
    (h : high ≤ entries.size) : Nat :=
  if hlt : low < high then
    let middle := low + (high - low) / 2
    have hmiddle : middle < entries.size := by omega
    if p entries[middle] then partitionWithin p entries (middle + 1) high h
    else partitionWithin p entries low middle (Nat.le_of_lt hmiddle)
  else low
termination_by high - low

/-- How many entries pass a test, when those that pass stand before those that fail. -/
def partitionPoint {α : Type} (p : α → Bool) (entries : Array α) : Nat :=
  partitionWithin p entries 0 entries.size (Nat.le_refl _)

def lineCount (text : List Char) : Nat := (lineStarts text).size

/-- The number of the line of an offset: the last line that begins at it or before it. -/
def lineOf (text : List Char) (offset : Nat) : Nat :=
  partitionPoint (· ≤ offset) (lineStarts text) - 1

/-- The bounds of a line. It ends before the newline after which the next line begins, the last line
with the text. -/
def lineBounds (text : List Char) (line : Nat) : Nat × Nat :=
  let starts := lineStarts text
  let stop := match starts[line + 1]? with
    | some next => next - 1
    | none => size text
  (starts.getD line (size text), stop)

end Marginalia.Text
