import Marginalia.Fault

/-! Comments, located in their files, with the code that they document. -/

namespace Marginalia

/-- A line comment, or a block comment or docstring. -/
inductive Style where
  | line
  | block
  deriving DecidableEq, Repr

structure Comment where
  fileId : String
  /-- Offset of its first byte. -/
  start : Nat
  /-- Offset after its last byte. -/
  stop : Nat
  /-- Line of its first byte, counted from one. -/
  line : Nat
  style : Style
  /-- Its text with delimiters. -/
  raw : String
  /-- The line of code that it documents, without comments. -/
  code : String
  /-- Where that line begins. -/
  anchor : Nat
  /-- The block of code around it, without comments. -/
  block : String
  /-- Where that block begins. -/
  blockStart : Nat
  deriving DecidableEq, Repr

namespace Comment

def place (c : Comment) : Place := ⟨c.fileId, c.start, c.stop⟩

/-- The block around a comment and its start, or else the line that it documents and its start. -/
def context (c : Comment) : String × Nat :=
  if c.block.isEmpty then (c.code, c.anchor) else (c.block, c.blockStart)

/-- Whether two comments stand in one block of one file. -/
def sharesBlock (c d : Comment) : Bool :=
  c.fileId == d.fileId && c.context.2 == d.context.2

/-- Refuses a comment without bytes. -/
def check (c : Comment) : Except Fault Unit :=
  if c.stop ≤ c.start then .error (.invalidSpan c.place) else .ok ()

theorem sharesBlock_comm (c d : Comment) : c.sharesBlock d = d.sharesBlock c := by
  simp only [sharesBlock, Bool.beq_comm]

end Comment

end Marginalia
