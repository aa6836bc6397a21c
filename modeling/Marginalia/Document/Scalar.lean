import Marginalia.Document.Value

/-! Plain scalars: which of them are no texts. Truth values and nothing have three spellings each;
whole numbers may be written in base two, eight or sixteen; digits after a leading zero are a text. -/

namespace Marginalia.Document

def isNullText (text : String) : Bool := ["null", "Null", "NULL", "~"].contains text

def bool? (text : String) : Option Bool :=
  if ["true", "True", "TRUE"].contains text then some true
  else if ["false", "False", "FALSE"].contains text then some false
  else none

/-! ### Whole numbers -/

def digitOf? (base : Nat) (c : Char) : Option Nat :=
  let value? : Option Nat :=
    if '0' ≤ c && c ≤ '9' then some (c.toNat - 48)
    else if 'a' ≤ c && c ≤ 'f' then some (c.toNat - 87)
    else if 'A' ≤ c && c ≤ 'F' then some (c.toNat - 55)
    else none
  value?.bind fun d => if d < base then some d else none

/-- The number that digits in a base stand for; none without digits. -/
def digits? (base : Nat) (text : List Char) : Option Nat :=
  if text.isEmpty then none
  else text.foldlM (fun n c => (digitOf? base c).map fun d => base * n + d) 0

def withoutSign : List Char → List Char
  | '+' :: rest => rest
  | '-' :: rest => rest
  | rest => rest

/-- Whether digits follow a leading zero, so that a text is no number. -/
def isPadded (text : List Char) : Bool :=
  match withoutSign text with
  | '0' :: rest => !rest.isEmpty && rest.all Char.isDigit
  | _ => false

/-- The digits of a number without sign, in the base that it names. -/
def magnitude? : List Char → Option Nat
  | '0' :: 'x' :: rest => digits? 16 rest
  | '0' :: 'o' :: rest => digits? 8 rest
  | '0' :: 'b' :: rest => digits? 2 rest
  | rest => digits? 10 rest

/-- A whole number of any size. -/
def integer? (text : List Char) : Option Int :=
  if isPadded text then none
  else match text with
    | '-' :: rest => (magnitude? rest).map fun n => -(n : Int)
    | '+' :: rest => (magnitude? rest).map fun n => (n : Int)
    | rest => (magnitude? rest).map fun n => (n : Int)

/-- Whether a whole number has a place in sixty-four bits. -/
def isWord (n : Int) : Bool := -0x8000000000000000 ≤ n && n < 0x10000000000000000

def isDoubleWord (n : Int) : Bool :=
  -0x80000000000000000000000000000000 ≤ n && n < 0x100000000000000000000000000000000

/-! ### Other numbers -/

/-- A decimal number without sign: digits, how many of them follow the point, and an exponent. -/
structure Decimal where
  digits : Nat
  places : Nat
  exponent : Int

/-- The exponent of a decimal: nothing, or a mark with digits. -/
def exponent? : List Char → Option Int
  | [] => some 0
  | c :: rest =>
    if c == 'e' || c == 'E' then
      match rest with
      | '-' :: digits => (digits? 10 digits).map fun n => -(n : Int)
      | '+' :: digits => (digits? 10 digits).map fun n => (n : Int)
      | digits => (digits? 10 digits).map fun n => (n : Int)
    else none

def decimal? (text : List Char) : Option Decimal :=
  let whole := text.takeWhile Char.isDigit
  let rest := text.dropWhile Char.isDigit
  let (part, rest) := match rest with
    | '.' :: rest => (rest.takeWhile Char.isDigit, rest.dropWhile Char.isDigit)
    | rest => ([], rest)
  match digits? 10 (whole ++ part), exponent? rest with
  | some digits, some exponent => some ⟨digits, part.length, exponent⟩
  | _, _ => none

/-- How many digits a double can tell apart from zero or from the largest number. -/
def reach : Int := 400

/-- The double nearest to a decimal; none beyond the largest one. -/
def Decimal.toFloat? (d : Decimal) : Option Float :=
  let exponent := d.exponent - d.places
  let size := ((Nat.toDigits 10 d.digits).length : Int) + exponent
  if d.digits == 0 || size < -reach then some 0.0
  else if reach < size then none
  else
    let x :=
      if 0 ≤ exponent then Float.ofScientific d.digits false exponent.toNat
      else Float.ofScientific d.digits true (-exponent).toNat
    if x.isFinite then some x else none

def float? (text : String) : Option Float :=
  if [".inf", ".Inf", ".INF", "+.inf", "+.Inf", "+.INF"].contains text then some (1.0 / 0.0)
  else if ["-.inf", "-.Inf", "-.INF"].contains text then some (-1.0 / 0.0)
  else if [".nan", ".NaN", ".NAN"].contains text then some (0.0 / 0.0)
  else match text.toList with
    | '-' :: rest => (decimal? rest).bind fun d => d.toFloat?.map fun x => -x
    | '+' :: rest => (decimal? rest).bind Decimal.toFloat?
    | rest => (decimal? rest).bind Decimal.toFloat?

/-- What a whole number is: a number of one word; of two words, nothing that is known. -/
def wordValue? (n : Int) : Option (Value Float) := if isWord n then some (.integer n) else none

/-- The value of a plain scalar; none for a whole number that is too large. -/
def plainValue? (text : String) : Option (Value Float) :=
  if text.isEmpty || isNullText text then some .null
  else match bool? text with
    | some b => some (.bool b)
    | none =>
      match (integer? text.toList).filter isDoubleWord with
      | some n => wordValue? n
      | none =>
        match if isPadded text.toList then none else float? text with
        | some x => some (.decimal x)
        | none => some (.text text)

end Marginalia.Document
