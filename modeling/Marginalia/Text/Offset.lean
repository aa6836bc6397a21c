/-! Byte offsets in texts. An offset counts the bytes of the characters before it; a text is cut by
offsets without ever cutting a character. -/

namespace Marginalia.Text

def size : List Char → Nat
  | [] => 0
  | c :: rest => c.utf8Size + size rest

/-- Whether an offset lies between characters of a text, or at one of its ends. -/
def isBoundary : List Char → Nat → Bool
  | [], offset => offset == 0
  | c :: rest, offset => offset == 0 || (c.utf8Size ≤ offset && isBoundary rest (offset - c.utf8Size))

/-- The characters that begin before an offset. -/
def before : List Char → Nat → List Char
  | [], _ => []
  | c :: rest, offset => if offset = 0 then [] else c :: before rest (offset - c.utf8Size)

/-- The characters that begin at an offset or after it. -/
def after : List Char → Nat → List Char
  | [], _ => []
  | c :: rest, offset => if offset = 0 then c :: rest else after rest (offset - c.utf8Size)

/-- The characters from one offset to another. -/
def slice (text : List Char) (start stop : Nat) : List Char :=
  before (after text start) (stop - start)

@[simp] theorem before_zero (text : List Char) : before text 0 = [] := by
  cases text <;> simp [before]

@[simp] theorem after_zero (text : List Char) : after text 0 = text := by
  cases text <;> simp [after]

theorem before_append_after (text : List Char) (offset : Nat) :
    before text offset ++ after text offset = text := by
  induction text generalizing offset with
  | nil => rfl
  | cons c rest ih =>
    simp only [before, after]
    split
    · rfl
    · simp [ih]

theorem size_append (a b : List Char) : size (a ++ b) = size a + size b := by
  induction a with
  | nil => simp [size]
  | cons c rest ih => simp [size, ih, Nat.add_assoc]

theorem isBoundary_size (text : List Char) : isBoundary text (size text) = true := by
  induction text with
  | nil => rfl
  | cons c rest ih => simp [isBoundary, size, ih]

/-- The part of a text before one of its boundaries takes as many bytes as the offset counts. -/
theorem size_before {text : List Char} {offset : Nat} (h : isBoundary text offset = true) :
    size (before text offset) = offset := by
  induction text generalizing offset with
  | nil =>
    simp only [isBoundary, beq_iff_eq] at h
    simp [before, size, h]
  | cons c rest ih =>
    simp only [before]
    split
    · next h0 => simp [size, h0]
    · next h0 =>
      simp only [isBoundary, beq_iff_eq, h0, Bool.and_eq_true, decide_eq_true_eq,
        false_or, Bool.or_eq_true] at h
      simp only [size, ih h.2]
      omega

end Marginalia.Text
