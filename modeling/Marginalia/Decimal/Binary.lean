/-! Finite doubles as exact numbers: a sign, a whole number and a power of two. -/

namespace Marginalia.Decimal

/-- The exact value of a finite double: `mantissa` times two to the power `exponent`. -/
structure Binary where
  negative : Bool
  mantissa : Nat
  exponent : Int
  deriving DecidableEq, Repr

/-- Mantissas of normal doubles begin here. -/
def leastNormal : Nat := Nat.pow 2 52

/-- The value of a double that is given by its bits; `none` for infinities and NaN. -/
def Binary.ofBits? (bits : UInt64) : Option Binary :=
  let field := ((bits >>> 52) &&& 0x7ff).toNat
  let fraction := (bits &&& 0xfffffffffffff).toNat
  let negative := bits >>> 63 == 1
  if field = 0x7ff then none
  else if field = 0 then some ⟨negative, fraction, -1074⟩
  else some ⟨negative, leastNormal + fraction, (field : Int) - 1075⟩

def powerOfTwo (exponent : Int) : Nat × Nat :=
  if 0 ≤ exponent then (Nat.pow 2 exponent.toNat, 1) else (1, Nat.pow 2 (-exponent).toNat)

/-- The absolute value as a fraction. -/
def Binary.fraction (x : Binary) : Nat × Nat :=
  (x.mantissa * (powerOfTwo x.exponent).1, (powerOfTwo x.exponent).2)

end Marginalia.Decimal
