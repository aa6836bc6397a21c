/-! Places: ranges of bytes in files. -/

namespace Marginalia

/-- A range of bytes in a file, without its end. -/
structure Place where
  fileId : String
  start : Nat
  stop : Nat
  deriving DecidableEq, Repr

namespace Place

/-- Whether two places in one file share a byte. -/
def overlaps (a b : Place) : Bool :=
  a.fileId == b.fileId && a.start < b.stop && b.start < a.stop

def order (a b : Place) : Ordering :=
  (compare a.fileId b.fileId).then ((compare a.start b.start).then (compare a.stop b.stop))

def le (a b : Place) : Bool := (order a b).isLE

def range (a : Place) : String := s!"{a.start}..{a.stop}"

def text (a : Place) : String := a.fileId ++ "@" ++ a.range

theorem overlaps_comm (a b : Place) : a.overlaps b = b.overlaps a := by
  simp only [overlaps, Bool.beq_comm, Bool.and_assoc]
  rw [Bool.and_comm (decide (a.start < b.stop))]

end Place

end Marginalia
