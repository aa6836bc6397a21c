import Marginalia.Decimal.Shortest
import Marginalia.Document.Value

/-! Values as text with brackets and quotes, an entry or an item a line. -/

namespace Marginalia.Document.Json

def hexDigit (n : Nat) : Char := if n < 10 then Char.ofNat (48 + n) else Char.ofNat (87 + n)

/-- A character inside quotes. Quotes, backslashes and control characters are escaped. -/
def escape (c : Char) : List Char :=
  match c with
  | '"' => ['\\', '"']
  | '\\' => ['\\', '\\']
  | '\x08' => ['\\', 'b']
  | '\x0c' => ['\\', 'f']
  | '\n' => ['\\', 'n']
  | '\r' => ['\\', 'r']
  | '\t' => ['\\', 't']
  | c =>
    if c < ' ' then ['\\', 'u', '0', '0', hexDigit (c.toNat / 16), hexDigit (c.toNat % 16)] else [c]

def quoted (text : String) : String := String.ofList ('"' :: text.toList.flatMap escape ++ ['"'])

def pad (indent : Nat) : String := String.ofList (List.replicate indent ' ')

mutual

/-- A value whose collection has some indentation. -/
def valueAt (indent : Nat) : Value Float → String
  | .null => "null"
  | .bool b => if b then "true" else "false"
  | .integer n => toString n
  | .decimal x => (Decimal.shortest? x).getD "null"
  | .text s => quoted s
  | .list [] => "[]"
  | .list (item :: items) =>
    "[\n" ++ itemsAt (indent + 2) (item :: items) ++ "\n" ++ pad indent ++ "]"
  | .mapping [] => "\x7b\x7d"
  | .mapping (entry :: entries) =>
    "\x7b\n" ++ entriesAt (indent + 2) (entry :: entries) ++ "\n" ++ pad indent ++ "\x7d"
  | .tagged _ value => valueAt indent value

def itemsAt (indent : Nat) : List (Value Float) → String
  | [] => ""
  | [item] => pad indent ++ valueAt indent item
  | item :: items => pad indent ++ valueAt indent item ++ ",\n" ++ itemsAt indent items

def entriesAt (indent : Nat) : List (Value Float × Value Float) → String
  | [] => ""
  | [(key, value)] => pad indent ++ keyText key ++ ": " ++ valueAt indent value
  | (key, value) :: entries =>
    pad indent ++ keyText key ++ ": " ++ valueAt indent value ++ ",\n" ++ entriesAt indent entries

/-- A key; keys are texts. -/
def keyText : Value Float → String
  | .text s => quoted s
  | _ => quoted ""

end

def render (value : Value Float) : String := valueAt 0 value

end Marginalia.Document.Json
