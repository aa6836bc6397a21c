import Marginalia.Decimal.Binary

/-! The shortest decimal that reads back as a double, and its text. -/

namespace Marginalia.Decimal

/-- The fractions that read back as a value: their ends, over a common denominator. -/
structure Interval where
  low : Nat
  high : Nat
  den : Nat
  closed : Bool

/-- What rounds to the value. Below a power of two the neighbour is half as far. -/
def Binary.interval (x : Binary) : Interval :=
  let narrow := x.mantissa = leastNormal ∧ -1074 < x.exponent
  let unit := powerOfTwo (x.exponent - 2)
  { low := (4 * x.mantissa - if narrow then 1 else 2) * unit.1
    high := (4 * x.mantissa + 2) * unit.1
    den := unit.2
    closed := x.mantissa % 2 = 0 }

def Interval.holds (i : Interval) (num den : Nat) : Bool :=
  if i.closed then i.low * den ≤ num * i.den && num * i.den ≤ i.high * den
  else i.low * den < num * i.den && num * i.den < i.high * den

def powerOfTen (exponent : Int) : Nat × Nat :=
  if 0 ≤ exponent then (Nat.pow 10 exponent.toNat, 1) else (1, Nat.pow 10 (-exponent).toNat)

/-- The digits `d` nearest to the value such that `d` times ten to the power `grid` reads back. -/
def Binary.onGrid? (x : Binary) (grid : Int) : Option Nat :=
  let unit := powerOfTen grid
  let num := x.fraction.1 * unit.2
  let den := x.fraction.2 * unit.1
  let down := num / den
  let hits (d : Nat) : Bool := x.interval.holds (d * unit.1) unit.2
  let nearUp := den < 2 * (num % den) || (2 * (num % den) == den && down % 2 == 1)
  match hits down, hits (down + 1) with
  | true, true => some (if nearUp then down + 1 else down)
  | true, false => some down
  | false, true => some (down + 1)
  | false, false => none

/-- The exponent of the first power of ten above the value. -/
def Binary.magnitude (x : Binary) : Int :=
  let (num, den) := x.fraction
  if den ≤ num then ((Nat.toDigits 10 (num / den)).length : Int)
  else
    let scale := (Nat.toDigits 10 (den / num)).length
    if den ≤ num * Nat.pow 10 (scale - 1) then 2 - (scale : Int)
    else 1 - (scale : Int)

/-- The fewest digits that read back, and the power of ten that they count. -/
def Binary.shortest (x : Binary) : Nat × Int :=
  let found := (List.range 17).findSome? fun (n : Nat) =>
    let grid := x.magnitude - ((n : Int) + 1)
    (x.onGrid? grid).map fun digits => (digits, grid)
  found.getD (x.mantissa, 0)

/-- Digits without the zeros at their end, and how many went. -/
def withoutZeros : List Char → List Char × Nat
  | digits =>
    let kept := (digits.reverse.dropWhile (· == '0')).reverse
    (kept, digits.length - kept.length)

/-- Digits times a power of ten as text: always with a point, positional from ten to the power -5 up
to ten to the power 16, and with an exponent otherwise. -/
def positional (digits : List Char) (grid : Int) : String :=
  let count : Int := digits.length
  let point := count + grid
  if 0 ≤ grid && point ≤ 16 then
    String.ofList (digits ++ List.replicate grid.toNat '0') ++ ".0"
  else if 0 < point && point ≤ 16 then
    String.ofList (digits.take point.toNat ++ '.' :: digits.drop point.toNat)
  else if -5 < point && point ≤ 0 then
    "0." ++ String.ofList (List.replicate (-point).toNat '0' ++ digits)
  else
    let mantissa := match digits with
      | [] => []
      | [d] => [d]
      | d :: rest => d :: '.' :: rest
    String.ofList mantissa ++ "e" ++ toString (point - 1)

def Binary.text (x : Binary) : String :=
  let sign := if x.negative then "-" else ""
  if x.mantissa = 0 then sign ++ "0.0"
  else
    let (number, grid) := x.shortest
    let (digits, zeros) := withoutZeros (Nat.toDigits 10 number)
    sign ++ positional digits (grid + zeros)

/-- The shortest decimal text that reads back as the same double; `none` for infinities and NaN. -/
def shortest? (x : Float) : Option String := (Binary.ofBits? x.toBits).map Binary.text

end Marginalia.Decimal
