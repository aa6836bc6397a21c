import Marginalia.Files.Pattern

/-! Globs: how patterns of paths are written. A star is any text, a question mark any byte, brackets
hold a set of characters, braces hold alternatives, and a backslash takes the next character as it
is. Two stars between slashes are directories. -/

namespace Marginalia.Files

namespace Glob

def bytesOf (c : Char) : List UInt8 := (String.singleton c).toUTF8.toList

def literal (c : Char) : List Piece := (bytesOf c).map .byte

/-! ### Sets -/

/-- The ranges of bytes that a range of characters stands for. Characters of several bytes lend all
of their bytes: what stands between the last byte of the one and the first byte of the other is in. -/
def byteRanges (range : Char × Char) : List (UInt8 × UInt8) :=
  let alone (b : UInt8) := (b, b)
  if range.1 = range.2 then (bytesOf range.1).map alone
  else
    let (low, high) := (bytesOf range.1, bytesOf range.2)
    low.dropLast.map alone ++
      (match low.getLast?, high.head? with
        | some a, some b => [(a, b)]
        | _, _ => []) ++
      high.tail.map alone

/-- The ranges of a set up to its closing bracket, and what follows. The flag `opened` says that a
hyphen follows the last range, whose end is then the next character. A closing bracket or a hyphen
at the beginning means itself, and so does a hyphen at the end. -/
def setFrom (ranges : List (Char × Char)) (opened : Bool) :
    List Char → Option (List (Char × Char) × List Char)
  | [] => none
  | c :: rest =>
    if c = ']' && !ranges.isEmpty then
      some (if opened then (ranges ++ [('-', '-')], rest) else (ranges, rest))
    else if c = '-' && !ranges.isEmpty && !opened then setFrom ranges true rest
    else match opened, ranges.getLast? with
      | true, some last =>
        if c < last.1 then none else setFrom (ranges.dropLast ++ [(last.1, c)]) false rest
      | _, _ => setFrom (ranges ++ [(c, c)]) false rest

/-- A set after its opening bracket. -/
def set? (text : List Char) : Option (Piece × List Char) := do
  let (negated, body) := match text with
    | '!' :: rest | '^' :: rest => (true, rest)
    | _ => (false, text)
  let (ranges, rest) ← setFrom [] false body
  some (.oneOf negated (ranges.flatMap byteRanges), rest)

/-! ### Sequences -/

/-- An open brace: the sequence before it and the alternatives completed since. -/
structure Open where
  before : Pattern
  done : List Pattern

/-- What has been read: the open braces, innermost first, the sequence after them, and the last
character. -/
structure Reading where
  braces : List Open
  pattern : Pattern
  last : Option Char

def Reading.add (r : Reading) (pieces : Pattern) : Reading :=
  { r with pattern := r.pattern ++ pieces }

def isBlank (pattern : Pattern) : Bool :=
  pattern.all fun
    | .choice [] => true
    | _ => false

/-- Two stars that stand for directories of their own, given what follows them: the sequence with
them, and whether the slash after them belongs to them. Elsewhere two stars are two stars. -/
def Reading.addDirs (r : Reading) (next : Option Char) : Reading × Bool :=
  let inside := !r.braces.isEmpty
  if r.pattern.isEmpty then
    if next.all (· = '/') then (r.add [.leadingDirs], true) else (r.add [.run, .run], false)
  else if r.last = some '/' || inside && (r.last = some ',' || r.last = some '\x7b') then
    let closes := next.isNone || inside && (next = some ',' || next = some '\x7d')
    if closes || next = some '/' then
      let kept := match r.pattern.getLast? with
        | some .leadingDirs => [.leadingDirs]
        | some .allBelow => [.allBelow]
        | _ => if closes then [.allBelow] else [.dirsBetween]
      ({ r with pattern := r.pattern.dropLast ++ kept }, !closes)
    else (r.add [.run, .run], false)
  else (r.add [.run, .run], false)

/-- The alternatives of a closed brace that are not blank. -/
def Reading.close? (r : Reading) : Option Reading :=
  match r.braces with
  | [] => none
  | brace :: outer =>
    let branches := (brace.done ++ [r.pattern]).filter fun branch => !isBlank branch
    some ⟨outer, brace.before ++ [.choice branches], some '\x7d'⟩

def Reading.comma (r : Reading) : Reading :=
  match r.braces with
  | [] => { r.add (literal ',') with last := some ',' }
  | brace :: outer => ⟨{ brace with done := brace.done ++ [r.pattern] } :: outer, [], some ','⟩

/-- The sequence that a glob is, from a reading on; `none` when a bracket or brace is left open, a
brace closes none, a range descends, or a backslash ends the glob. The number bounds the steps. -/
def readFrom : Nat → Reading → List Char → Option Pattern
  | 0, _, _ => none
  | _ + 1, r, [] => if r.braces.isEmpty then some r.pattern else none
  | n + 1, r, c :: rest =>
    match c, rest with
    | '?', _ => readFrom n { r.add [.any] with last := some c } rest
    | '*', '*' :: rest =>
      let (r, takesSlash) := r.addDirs rest.head?
      match takesSlash, rest with
      | true, '/' :: rest => readFrom n { r with last := some '/' } rest
      | _, rest => readFrom n { r with last := some '*' } rest
    | '*', _ => readFrom n { r.add [.run] with last := some c } rest
    | '[', _ => do
      let (piece, rest) ← set? rest
      readFrom n { r.add [piece] with last := some ']' } rest
    | '\x7b', _ => readFrom n ⟨⟨r.pattern, []⟩ :: r.braces, [], some c⟩ rest
    | '\x7d', _ => do readFrom n (← r.close?) rest
    | ',', _ => readFrom n r.comma rest
    | '\\', escaped :: rest => readFrom n { r.add (literal escaped) with last := some escaped } rest
    | '\\', [] => none
    | _, _ => readFrom n { r.add (literal c) with last := some c } rest

end Glob

def Pattern.ofGlob? (glob : String) : Option Pattern :=
  let text := glob.toList
  Glob.readFrom (text.length + 1) ⟨[], [], none⟩ text

def Pattern.matches (pattern : Pattern) (path : String) : Bool :=
  pattern.accepts path.toUTF8.toList

end Marginalia.Files
