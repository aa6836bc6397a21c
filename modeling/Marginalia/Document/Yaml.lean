import Marginalia.Decimal.Shortest
import Marginalia.Document.Quoted
import Marginalia.Document.Scalar

/-! Values as text in blocks: an entry or an item a line, deeper ones indented by two. A text is
written plain when it reads back as the same text, and else in the plainest quotes that can hold it. -/

namespace Marginalia.Document.Yaml

/-! ### Styles -/

/-- Characters that are written as they are; tabs are not among them. -/
def isPrintable (c : Char) : Bool :=
  c == '\n' || (' ' ≤ c && c ≤ '~')
    || ('\xa0' ≤ c && c != '\ufeff' && c != '\ufffe' && c != '\uffff')

/-- Marks that mean something at the beginning of a plain text. -/
def isLeadingMark (c : Char) : Bool :=
  isFlowMark c || c == '#' || c == '&' || c == '*' || c == '!' || c == '|' || c == '>' || c == '\''
    || c == '"' || c == '%' || c == '@' || c == '\x60'

/-- Whether a text holds a colon before a gap, or a number sign after one. -/
def hasInnerMark : Bool → List Char → Bool
  | _, [] => false
  | afterGap, c :: rest =>
    (c == ':' && atGap rest) || (c == '#' && afterGap)
      || hasInnerMark (isGap c || isBreak c || c == '\x00') rest

def hasLeadingMark (text : List Char) : Bool :=
  match text with
  | '-' :: '-' :: '-' :: _ => true
  | '.' :: '.' :: '.' :: _ => true
  | c :: rest => isLeadingMark c || ((c == '?' || c == '-') && atGap rest)
  | [] => false

def hasPair (p q : Char → Bool) : List Char → Bool
  | a :: b :: rest => (p a && q b) || hasPair p q (b :: rest)
  | _ => false

def isSpace (c : Char) : Bool := c == ' '

def needsEscapes (text : List Char) : Bool :=
  text.any (fun c => !isPrintable c) || hasPair isSpace isBreak text

def fitsSingle (text : List Char) : Bool :=
  !needsEscapes text && !hasPair isBreak isSpace text

def fitsPlain (text : List Char) : Bool :=
  fitsSingle text && !text.any isBreak && !(text.head?.any isSpace) && !(text.getLast?.any isSpace)
    && !hasLeadingMark text && !hasInnerMark true text

def fitsLines (text : List Char) : Bool :=
  !needsEscapes text && !(text.getLast?.any isSpace)

/-- Whether a plain text would read as something else than a text, or as a number elsewhere. -/
def readsOtherwise (text : String) : Bool :=
  text.isEmpty || isNullText text || (bool? text).isSome || isPadded text.toList
    || ((integer? text.toList).any isDoubleWord) || (float? text).isSome

inductive Style where
  | plain
  | single
  | double
  | lines
  deriving DecidableEq, Repr

def styleOf (text : String) : Style :=
  let chars := text.toList
  if chars.contains '\n' then if fitsLines chars then .lines else .double
  else if fitsPlain chars && !readsOtherwise text then .plain
  else if fitsSingle chars then .single
  else .double

/-! ### Texts -/

def spaces (count : Nat) : List Char := List.replicate count ' '

/-- A text in single quotes: quotes stand twice, and what follows an end of line is indented. -/
def single (indent : Nat) : Bool → List Char → List Char
  | broken, [] => (if broken then spaces indent else []) ++ ['\'']
  | broken, c :: rest =>
    if isBreak c then c :: single indent true rest
    else
      (if broken && c != ' ' then spaces indent else [])
        ++ (if c == '\'' then ['\'', '\''] else [c]) ++ single indent (broken && c == ' ') rest

def hexDigit (n : Nat) : Char := if n < 10 then Char.ofNat (48 + n) else Char.ofNat (55 + n)

/-- The last hexadecimal digits of a number. -/
def hexDigits : Nat → Nat → List Char
  | 0, _ => []
  | count + 1, n => hexDigits count (n / 16) ++ [hexDigit (n % 16)]

def escape (c : Char) : List Char :=
  match c with
  | '\x00' => ['0']
  | '\x07' => ['a']
  | '\x08' => ['b']
  | '\t' => ['t']
  | '\n' => ['n']
  | '\x0b' => ['v']
  | '\x0c' => ['f']
  | '\r' => ['r']
  | '\x1b' => ['e']
  | '"' => ['"']
  | '\\' => ['\\']
  | '\x85' => ['N']
  | '\u2028' => ['L']
  | '\u2029' => ['P']
  | c =>
    let n := c.toNat
    if n ≤ 0xff then 'x' :: hexDigits 2 n
    else if n ≤ 0xffff then 'u' :: hexDigits 4 n
    else 'U' :: hexDigits 8 n

def escaped (text : List Char) : List Char :=
  text.flatMap fun c =>
    if !isPrintable c || isBreak c || c == '"' || c == '\\' then '\\' :: escape c else [c]

/-- The header of a block of lines: its indentation, if blanks come first, and what to do with the
ends of lines after it. -/
def linesHeader (text : List Char) : List Char :=
  (if text.head?.any fun c => c == ' ' || isBreak c then ['2'] else [])
    ++ match text.reverse with
      | [] => ['-']
      | [c] => if isBreak c then ['+'] else ['-']
      | c :: d :: _ => if !isBreak c then ['-'] else if isBreak d then ['+'] else []

/-- Lines with indentation; empty lines have none. -/
def indented (indent : Nat) : Bool → List Char → List Char
  | _, [] => []
  | fresh, c :: rest =>
    if isBreak c then c :: indented indent true rest
    else (if fresh then spaces indent else []) ++ c :: indented indent false rest

def textAt (indent : Nat) (text : String) : String :=
  let chars := text.toList
  match styleOf text with
  | .plain => text
  | .single => String.ofList ('\'' :: single (indent + 2) false chars)
  | .double => String.ofList ('"' :: escaped chars ++ ['"'])
  | .lines =>
    String.ofList ('|' :: linesHeader chars ++ '\n' :: indented (indent + 2) true chars)

/-! ### Values -/

def floatText (x : Float) : String :=
  (Decimal.shortest? x).getD (if x.isNaN then ".nan" else if x < 0 then "-.inf" else ".inf")

/-- A line, ended unless it ends already. -/
def ended (line : String) : String :=
  if line.toList.getLast? == some '\n' then line else line ++ "\n"

def pad (indent : Nat) : String := String.ofList (spaces indent)

mutual

/-- A value after the mark of its entry, with the space before it; `loose` lists stand at the
indentation of the collection around them. -/
def valueAt (indent : Nat) : Value Float → String
  | .null => " null\n"
  | .bool b => if b then " true\n" else " false\n"
  | .integer n => " " ++ toString n ++ "\n"
  | .decimal x => " " ++ floatText x ++ "\n"
  | .text s => ended (" " ++ textAt indent s)
  | .list [] => " []\n"
  | .list (item :: items) => "\n" ++ itemsAt indent (item :: items)
  | .mapping [] => " \x7b\x7d\n"
  | .mapping (entry :: entries) => "\n" ++ entriesAt (indent + 2) true (entry :: entries)
  | .tagged tag value => " !" ++ tag ++ valueAt indent value

def itemAt (indent : Nat) : Value Float → String
  | .list (item :: items) =>
    " " ++ String.ofList ((itemsAt (indent + 2) (item :: items)).toList.drop (indent + 2))
  | .mapping (entry :: entries) => " " ++ entriesAt (indent + 2) false (entry :: entries)
  | value => valueAt indent value

def itemsAt (indent : Nat) : List (Value Float) → String
  | [] => ""
  | item :: items => pad indent ++ "-" ++ itemAt indent item ++ itemsAt indent items

/-- The entries of a mapping; the first one may follow something on its line. -/
def entriesAt (indent : Nat) (fresh : Bool) : List (Value Float × Value Float) → String
  | [] => ""
  | (key, value) :: entries =>
    (if fresh then pad indent else "") ++ keyText key ++ ":" ++ valueAt indent value
      ++ entriesAt indent true entries

/-- A key; keys are texts. -/
def keyText : Value Float → String
  | .text s => textAt 0 s
  | _ => ""

end

def render : Value Float → String
  | .mapping (entry :: entries) => entriesAt 0 true (entry :: entries)
  | .list (item :: items) => itemsAt 0 (item :: items)
  | value => String.ofList ((valueAt 0 value).toList.drop 1)

end Marginalia.Document.Yaml
