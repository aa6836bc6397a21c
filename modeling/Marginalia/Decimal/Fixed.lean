import Marginalia.Decimal.Binary

/-! Doubles with a fixed number of decimal places. -/

namespace Marginalia.Decimal

/-- The whole number nearest to a fraction; of two, the even one. -/
def roundDiv (num den : Nat) : Nat :=
  let down := num / den
  let rest := 2 * (num % den)
  if rest < den then down else if den < rest then down + 1 else down + down % 2

/-- At least `width` digits. -/
def padded (width n : Nat) : String :=
  let digits := Nat.toDigits 10 n
  String.ofList (List.replicate (width - digits.length) '0' ++ digits)

/-- The value with the given places, rounded from its exact value. -/
def Binary.fixed (places : Nat) (x : Binary) : String :=
  let scaled := roundDiv (x.fraction.1 * Nat.pow 10 places) x.fraction.2
  let whole := padded 1 (scaled / Nat.pow 10 places)
  let sign := if x.negative then "-" else ""
  if places = 0 then sign ++ whole
  else sign ++ whole ++ "." ++ padded places (scaled % Nat.pow 10 places)

def fixed (places : Nat) (x : Float) : String :=
  match Binary.ofBits? x.toBits with
  | some value => value.fixed places
  | none => if x.isNaN then "NaN" else if x < 0 then "-inf" else "inf"

end Marginalia.Decimal
