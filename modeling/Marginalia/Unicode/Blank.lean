import Marginalia.Unicode.Run

/-! The characters with the White_Space property. -/

namespace Marginalia.Unicode

/-- The White_Space property. -/
def whiteSpace : List Run := [
  (9, 13, 1), (32, 32, 1), (133, 133, 1), (160, 160, 1), (5760, 5760, 1), (8192, 8202, 1),
  (8232, 8233, 1), (8239, 8239, 1), (8287, 8287, 1), (12288, 12288, 1)]

/-- Spaces, tabs, line ends and the other characters that only separate. -/
def isBlank (c : Char) : Bool := onRun c.toNat whiteSpace

end Marginalia.Unicode
