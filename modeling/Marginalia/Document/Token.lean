import Marginalia.Document.Quoted

/-! Tokens of a document: marks, scalars and the beginnings and ends of blocks, which indentation
shows. A key is known only by the colon after it, so its token is put in front of what was read. -/

namespace Marginalia.Document

inductive Token where
  | version
  | tagHandle (handle lead : String)
  | documentStart
  | documentEnd
  | blockList
  | blockMapping
  | blockEnd
  | flowList
  | flowListEnd
  | flowMapping
  | flowMappingEnd
  | entry
  | comma
  | key
  | value
  | anchor (name : String)
  | alias (name : String)
  | tag (handle suffix : String)
  | scalar (text : String) (isPlain : Bool)
  deriving DecidableEq, Repr

/-- A place where a key may have begun. -/
structure PendingKey where
  /-- Whether nothing else may begin there. -/
  required : Bool
  /-- How many tokens come before it. -/
  number : Nat
  index : Nat
  line : Nat
  column : Nat

/-- The reading of tokens so far. -/
structure Scan where
  spot : Spot
  /-- The tokens, last first. -/
  tokens : List Token
  /-- How many collections in brackets are open. -/
  depth : Nat
  /-- The indentation of the innermost block, and those of the blocks around it. -/
  indent : Int
  around : List Int
  /-- Whether a key may begin here. -/
  keyAllowed : Bool
  /-- The pending key of each open collection in brackets, innermost first, and of the block. -/
  pending : List (Option PendingKey)

namespace Scan

def begin (text : List Char) : Scan :=
  { spot := .begin text
    tokens := []
    depth := 0
    indent := -1
    around := []
    keyAllowed := true
    pending := [none] }

def emit (s : Scan) (token : Token) : Scan := { s with tokens := token :: s.tokens }

/-- Puts a token before all but the first `number` ones. -/
def insert (s : Scan) (number : Nat) (token : Token) : Scan :=
  let later := s.tokens.length - number
  { s with tokens := s.tokens.take later ++ token :: s.tokens.drop later }

/-- Begins a block when the column is deeper than the innermost one. -/
def openBlock (s : Scan) (column : Nat) (number : Nat) (token : Token) : Scan :=
  if s.depth == 0 && s.indent < (column : Int) then
    { s with indent := column, around := s.indent :: s.around }.insert number token
  else s

def closeBlocks (s : Scan) (column : Int) : Scan :=
  if s.depth == 0 then
    let closed := ((s.indent :: s.around).takeWhile fun i => column < i).length
    { s with
      tokens := List.replicate closed .blockEnd ++ s.tokens
      indent := ((s.indent :: s.around).drop closed).headD (-1)
      around := ((s.indent :: s.around).drop (closed + 1)) }
  else s

/-- Gives up a pending key; not if it is required. -/
def dropKey? (s : Scan) : Option Scan :=
  match s.pending with
  | some key :: rest => if key.required then none else some { s with pending := none :: rest }
  | _ => some s

def saveKey? (s : Scan) : Option Scan :=
  if s.keyAllowed then do
    let s ← s.dropKey?
    let key : PendingKey := {
      required := s.depth == 0 && s.indent == (s.spot.column : Int)
      number := s.tokens.length
      index := s.spot.index
      line := s.spot.line
      column := s.spot.column }
    pure { s with pending := some key :: s.pending.tail }
  else some s

def keyLimit : Nat := 1024

/-- Gives up the keys of earlier lines and keys that are too long. -/
def dropStale? (s : Scan) : Option Scan := do
  let pending ← s.pending.mapM fun
    | none => some none
    | some key =>
      if key.line < s.spot.line || key.index + keyLimit < s.spot.index then
        if key.required then none else some none
      else some (some key)
  pure { s with pending := pending }

def toNext : Nat → Scan → Scan
  | 0, s => s
  | fuel + 1, s =>
    let spot := s.spot.passWhile fun c =>
      c == ' ' || (c == '\t' && (s.depth != 0 || !s.keyAllowed))
    let spot := if spot.rest.head? == some '#' then spot.passWhile fun c => !isBreak c else spot
    match spot.rest with
    | c :: _ =>
      if isBreak c then
        toNext fuel { s with spot := spot.passLine, keyAllowed := s.keyAllowed || s.depth == 0 }
      else { s with spot := spot }
    | [] => { s with spot := spot }

/-! ### Names and tags -/

def isNameChar (c : Char) : Bool := c.isAlphanum || c == '_' || c == '-'

def anchorName? (spot : Spot) : Option (String × Spot) :=
  let letters := spot.rest.takeWhile isNameChar
  let after := spot.pass letters.length
  let ends := atGap after.rest || after.rest.head?.any fun c =>
    c == '?' || c == ':' || c == ',' || c == ']' || c == '\x7d' || c == '%' || c == '@' || c == '\x60'
  if letters.isEmpty || !ends then none else some (String.ofList letters, after)

/-- Characters of a tag; lists of them need brackets around the whole. -/
def isTagChar (bracketed : Bool) (c : Char) : Bool :=
  isNameChar c || c == ';' || c == '/' || c == '?' || c == ':' || c == '@' || c == '&' || c == '='
    || c == '+' || c == '$' || c == '.' || c == '%' || c == '!' || c == '~' || c == '*' || c == '\''
    || c == '(' || c == ')' || (bracketed && (c == ',' || c == '[' || c == ']'))

/-- The handle of a tag: a mark, or a name between two. -/
def handleLength : List Char → Nat
  | '!' :: rest =>
    let letters := (rest.takeWhile isNameChar).length
    if (rest.drop letters).head? == some '!' then letters + 2 else letters + 1
  | _ => 0

def tag? (s : Scan) : Option (Token × Spot) :=
  let spot := s.spot
  let (handle, suffix, after) : String × String × Spot :=
    match spot.rest with
    | '!' :: '<' :: rest =>
      let uri := rest.takeWhile (isTagChar true)
      if (rest.drop uri.length).head? == some '>' then
        ("", String.ofList uri, spot.pass (uri.length + 3))
      else ("", "", spot)
    | rest =>
      let n := handleLength rest
      let handle := rest.take n
      if 1 < n && handle.getLast? == some '!' then
        let uri := (rest.drop n).takeWhile (isTagChar false)
        (String.ofList handle, if uri.isEmpty then "" else String.ofList uri,
          spot.pass (if uri.isEmpty then 0 else n + uri.length))
      else
        let uri := (rest.drop 1).takeWhile (isTagChar false)
        if uri.isEmpty then ("", "!", spot.pass 1)
        else ("!", String.ofList uri, spot.pass (1 + uri.length))
  if suffix.isEmpty then none
  else if atGap after.rest || (s.depth != 0 && after.rest.head? == some ',') then
    some (.tag handle suffix, after)
  else none

/-! ### Directives -/

/-- A directive: a version or the meaning of a handle; there are no others. -/
def directive? (spot : Spot) : Option (Token × Spot) :=
  let line := spot.rest.takeWhile fun c => !isBreak c
  let content := line.takeWhile (· != '#')
  let fields := ((String.ofList content).splitOn " ").filter (· != "")
  let after := spot.pass line.length
  match fields with
  | ["%YAML", version] =>
    match version.splitOn "." with
    | [major, minor] =>
      if major == "1" && (minor == "1" || minor == "2") then some (.version, after) else none
    | _ => none
  | ["%TAG", handle, lead] =>
    if handleLength handle.toList == handle.length then some (.tagHandle handle lead, after)
    else none
  | _ => none

/-! ### The next token -/

def openFlow? (s : Scan) (token : Token) : Option Scan := do
  let s ← s.saveKey?
  pure ({ s with
    pending := none :: s.pending
    depth := s.depth + 1
    keyAllowed := true
    spot := s.spot.pass 1 }.emit token)

def closeFlow? (s : Scan) (token : Token) : Option Scan := do
  let s ← s.dropKey?
  pure ({ s with
    pending := if s.depth == 0 then s.pending else s.pending.tail
    depth := s.depth - 1
    keyAllowed := false
    spot := s.spot.pass 1 }.emit token)

def entry? (s : Scan) : Option Scan := do
  if s.depth == 0 && !s.keyAllowed then none
  else
    let s := s.openBlock s.spot.column s.tokens.length .blockList
    let s ← s.dropKey?
    pure ({ s with keyAllowed := true, spot := s.spot.pass 1 }.emit .entry)

def key? (s : Scan) : Option Scan := do
  if s.depth == 0 && !s.keyAllowed then none
  else
    let s := s.openBlock s.spot.column s.tokens.length .blockMapping
    let s ← s.dropKey?
    pure ({ s with keyAllowed := s.depth == 0, spot := s.spot.pass 1 }.emit .key)

/-- The colon after a key: what was pending is the key. -/
def value? (s : Scan) : Option Scan :=
  match s.pending with
  | some key :: rest =>
    let s := { s with pending := none :: rest }
    let s := (s.insert key.number .key).openBlock key.column key.number .blockMapping
    some ({ s with keyAllowed := false, spot := s.spot.pass 1 }.emit .value)
  | _ =>
    if s.depth == 0 && !s.keyAllowed then none
    else
      let s := s.openBlock s.spot.column s.tokens.length .blockMapping
      some ({ s with keyAllowed := s.depth == 0, spot := s.spot.pass 1 }.emit .value)

/-- Marks of documents and directives, which end all blocks. -/
def boundary? (s : Scan) (token : Token) (after : Spot) : Option Scan := do
  let s ← (s.closeBlocks (-1)).dropKey?
  pure ({ s with keyAllowed := false, spot := after }.emit token)

def isReserved (c : Char) : Bool :=
  isFlowMark c || c == '-' || c == '?' || c == ':' || c == '#' || c == '&' || c == '*' || c == '!'
    || c == '|' || c == '>' || c == '\'' || c == '"' || c == '%' || c == '@' || c == '\x60'

def beginsPlain (depth : Nat) (c : Char) (rest : List Char) : Bool :=
  !(isReserved c || isGap c)
    || (c == '-' && !(rest.head?.any isGap))
    || (depth == 0 && (c == '?' || c == ':') && !atGap rest)

def token? (fuel : Nat) (s : Scan) (c : Char) (rest : List Char) : Option Scan :=
  let spot := s.spot
  if spot.column == 0 && c == '%' then do
    let (token, after) ← directive? spot
    s.boundary? token after
  else if spot.atMarks '-' then s.boundary? .documentStart (spot.pass 3)
  else if spot.atMarks '.' then s.boundary? .documentEnd (spot.pass 3)
  else if c == '[' then s.openFlow? .flowList
  else if c == '\x7b' then s.openFlow? .flowMapping
  else if c == ']' then s.closeFlow? .flowListEnd
  else if c == '\x7d' then s.closeFlow? .flowMappingEnd
  else if c == ',' then do
    let s ← s.dropKey?
    pure ({ s with keyAllowed := true, spot := spot.pass 1 }.emit .comma)
  else if c == '-' && atGap rest then s.entry?
  else if c == '?' && (s.depth != 0 || atGap rest) then s.key?
  else if c == ':' && (s.depth != 0 || atGap rest) then s.value?
  else if c == '*' || c == '&' then do
    let s ← s.saveKey?
    let (name, after) ← anchorName? (spot.pass 1)
    pure ({ s with keyAllowed := false, spot := after }.emit
      (if c == '*' then .alias name else .anchor name))
  else if c == '!' then do
    let s ← s.saveKey?
    let (token, after) ← s.tag?
    pure ({ s with keyAllowed := false, spot := after }.emit token)
  else if (c == '|' || c == '>') && s.depth == 0 then do
    let s ← s.dropKey?
    let (text, after) ← block? (c == '|') s.indent fuel (spot.pass 1)
    pure ({ s with keyAllowed := true, spot := after }.emit (.scalar (String.ofList text) false))
  else if c == '\'' || c == '"' then do
    let s ← s.saveKey?
    let (text, after) ← quoted? (c == '\'') fuel [] .empty (spot.pass 1)
    pure ({ s with keyAllowed := false, spot := after }.emit (.scalar (String.ofList text) false))
  else if beginsPlain s.depth c rest then do
    let s ← s.saveKey?
    let (text, broken, after) ← plain? (s.depth != 0) (s.indent + 1) fuel [] .empty spot
    pure ({ s with keyAllowed := broken, spot := after }.emit (.scalar (String.ofList text) true))
  else none

def finish? (size : Nat) : Nat → Scan → Option (List Token)
  | 0, _ => none
  | fuel + 1, s => do
    let s ← (s.toNext size).dropStale?
    let s := s.closeBlocks s.spot.column
    match s.spot.rest with
    | [] =>
      let s ← (s.closeBlocks (-1)).dropKey?
      pure s.tokens.reverse
    | c :: rest => finish? size fuel (← s.token? size c rest)

end Scan

def isAllowed (c : Char) : Bool :=
  c == '\t' || c == '\n' || c == '\r' || c == '\x85' || (' ' ≤ c && c ≤ '~')
    || ('\xa0' ≤ c && c != '\ufffe' && c != '\uffff')

/-- The tokens of a document's text, without a mark of byte order before it. -/
def tokens? (text : List Char) : Option (List Token) :=
  let text := if text.head? == some '\ufeff' then text.tail else text
  if text.all isAllowed then
    let size := text.length + 2
    (Scan.begin text).finish? size (2 * size)
  else none

end Marginalia.Document
