import Marginalia.Document.Token

/-! Nodes of a document: scalars, lists and mappings, with their tags, before plain scalars are read
as values. Aliases stand for the nodes that they name. -/

namespace Marginalia.Document

inductive Node where
  | scalar (tag : Option String) (isPlain : Bool) (text : String)
  | list (tag : Option String) (items : List Node)
  | mapping (tag : Option String) (entries : List (Node × Node))
  deriving Repr

namespace Node

def missing : Node := scalar none true ""

/-- What names stand for: tag handles and anchors. -/
structure Names where
  handles : List (String × String)
  anchors : List (String × Node)

/-- The space of tags that every document knows. -/
def coreSpace : String := "tag:yaml.org,2002:"

def Names.default : Names := ⟨[("!", "!"), ("!!", coreSpace)], []⟩

def Names.tag? (names : Names) (handle suffix : String) : Option String :=
  if handle.isEmpty then some suffix
  else (names.handles.lookup handle).map (· ++ suffix)

/-- What stands before a node: an anchor and a tag, in any order. -/
structure Properties where
  anchor : Option String
  tag : Option String

def Properties.none : Properties := ⟨.none, .none⟩

def Properties.isNone (p : Properties) : Bool := p.anchor.isNone && p.tag.isNone

def properties? (names : Names) : List Token → Option (Properties × List Token)
  | .anchor a :: .tag handle suffix :: rest => do
    pure (⟨some a, some (← names.tag? handle suffix)⟩, rest)
  | .tag handle suffix :: .anchor a :: rest => do
    pure (⟨some a, some (← names.tag? handle suffix)⟩, rest)
  | .anchor a :: rest => some (⟨some a, .none⟩, rest)
  | .tag handle suffix :: rest => do pure (⟨.none, some (← names.tag? handle suffix)⟩, rest)
  | rest => some (.none, rest)

/-- The tag of a scalar; a lone mark says nothing. -/
def scalarTag (tag : Option String) : Option String := if tag == some "!" then none else tag

/-- A node, the names known after it, and the tokens after it. -/
abbrev Reading := Option (Node × Names × List Token)

/-- Entries, the names known after them, and the tokens after them. -/
abbrev EntriesReading (α : Type) := Option (List α × Names × List Token)

mutual

/-- Reads a node. `block` says whether blocks may begin here, `items` whether list items may follow
without deeper indentation. -/
def read? : Nat → Bool → Bool → Names → List Token → Reading
  | 0, _, _, _, _ => none
  | _ + 1, _, _, names, .alias name :: rest =>
    (names.anchors.lookup name).map fun node => (node, names, rest)
  | fuel + 1, block, items, names, tokens =>
    match properties? names tokens with
    | none => none
    | some (properties, rest) =>
      match readContent? fuel block items names properties rest with
      | none => none
      | some (node, names, rest) =>
        let anchors := match properties.anchor with
          | some name => (name, node) :: names.anchors
          | none => names.anchors
        some (node, { names with anchors := anchors }, rest)

def readContent? : Nat → Bool → Bool → Names → Properties → List Token → Reading
  | 0, _, _, _, _, _ => none
  | fuel + 1, block, items, names, properties, tokens =>
    let asList := fun (entries, names, rest) => (Node.list properties.tag entries, names, rest)
    let asMapping := fun (entries, names, rest) =>
      (Node.mapping properties.tag entries, names, rest)
    match tokens with
    | .scalar text isPlain :: rest =>
      some (.scalar (scalarTag properties.tag) isPlain text, names, rest)
    | .flowList :: rest => (flowItems? fuel true names rest).map asList
    | .flowMapping :: rest => (flowEntries? fuel true names rest).map asMapping
    | .entry :: rest =>
      if items then (looseItems? fuel names (.entry :: rest)).map asList
      else if properties.isNone then none
      else some (.scalar properties.tag true "", names, .entry :: rest)
    | .blockList :: rest =>
      if block then (blockItems? fuel names rest).map asList
      else if properties.isNone then none
      else some (.scalar properties.tag true "", names, .blockList :: rest)
    | .blockMapping :: rest =>
      if block then (blockEntries? fuel names rest).map asMapping
      else if properties.isNone then none
      else some (.scalar properties.tag true "", names, .blockMapping :: rest)
    | rest =>
      if properties.isNone then none
      else some (.scalar (scalarTag properties.tag) true "", names, rest)

def blockItems? : Nat → Names → List Token → EntriesReading Node
  | 0, _, _ => none
  | fuel + 1, names, .entry :: rest =>
    let item : Reading := match rest with
      | .entry :: _ | .blockEnd :: _ => some (missing, names, rest)
      | _ => read? fuel true false names rest
    match item with
    | none => none
    | some (node, names, rest) =>
      (blockItems? fuel names rest).map fun (nodes, names, rest) => (node :: nodes, names, rest)
  | _ + 1, names, .blockEnd :: rest => some ([], names, rest)
  | _ + 1, _, _ => none

/-- Reads list items at the indentation of the mapping that they stand in. -/
def looseItems? : Nat → Names → List Token → EntriesReading Node
  | 0, _, _ => none
  | fuel + 1, names, .entry :: rest =>
    let item : Reading := match rest with
      | .entry :: _ | .key :: _ | .value :: _ | .blockEnd :: _ => some (missing, names, rest)
      | _ => read? fuel true false names rest
    match item with
    | none => none
    | some (node, names, rest) =>
      (looseItems? fuel names rest).map fun (nodes, names, rest) => (node :: nodes, names, rest)
  | _ + 1, names, rest => some ([], names, rest)

def blockEntries? : Nat → Names → List Token → EntriesReading (Node × Node)
  | 0, _, _ => none
  | _ + 1, names, .blockEnd :: rest => some ([], names, rest)
  | fuel + 1, names, tokens =>
    let key : Reading := match tokens with
      | .key :: rest =>
        match rest with
        | .key :: _ | .value :: _ | .blockEnd :: _ => some (missing, names, rest)
        | _ => read? fuel true true names rest
      | _ => none
    match key with
    | none => none
    | some (key, names, rest) =>
      let value : Reading := match rest with
        | .value :: rest =>
          match rest with
          | .key :: _ | .value :: _ | .blockEnd :: _ => some (missing, names, rest)
          | _ => read? fuel true true names rest
        | rest => some (missing, names, rest)
      match value with
      | none => none
      | some (value, names, rest) =>
        (blockEntries? fuel names rest).map fun (entries, names, rest) =>
          ((key, value) :: entries, names, rest)

/-- Reads the items of a list in brackets; `first` for the first one, which no comma precedes. -/
def flowItems? : Nat → Bool → Names → List Token → EntriesReading Node
  | 0, _, _, _ => none
  | _ + 1, _, names, .flowListEnd :: rest => some ([], names, rest)
  | fuel + 1, first, names, tokens =>
    match (if first then some tokens else match tokens with
      | .comma :: rest => some rest
      | _ => none) with
    | none => none
    | some (.flowListEnd :: rest) => some ([], names, rest)
    | some tokens =>
      let item : Reading := match tokens with
        | .key :: rest => flowPair? fuel names rest
        | _ => read? fuel false false names tokens
      match item with
      | none => none
      | some (node, names, rest) =>
        (flowItems? fuel false names rest).map fun (nodes, names, rest) =>
          (node :: nodes, names, rest)

/-- Reads one entry that is an item of a list in brackets. -/
def flowPair? : Nat → Names → List Token → Reading
  | 0, _, _ => none
  | fuel + 1, names, tokens =>
    let key : Reading := match tokens with
      | .value :: _ | .comma :: _ | .flowListEnd :: _ => some (missing, names, tokens)
      | _ => read? fuel false false names tokens
    match key with
    | none => none
    | some (key, names, rest) =>
      let value : Reading := match rest with
        | .value :: rest =>
          match rest with
          | .comma :: _ | .flowListEnd :: _ => some (missing, names, rest)
          | _ => read? fuel false false names rest
        | rest => some (missing, names, rest)
      value.map fun (value, names, rest) => (.mapping none [(key, value)], names, rest)

def flowEntries? : Nat → Bool → Names → List Token → EntriesReading (Node × Node)
  | 0, _, _, _ => none
  | _ + 1, _, names, .flowMappingEnd :: rest => some ([], names, rest)
  | fuel + 1, first, names, tokens =>
    match (if first then some tokens else match tokens with
      | .comma :: rest => some rest
      | _ => none) with
    | none => none
    | some (.flowMappingEnd :: rest) => some ([], names, rest)
    | some tokens =>
      let key : Option (Node × Names × List Token × Bool) := match tokens with
        | .key :: rest =>
          match rest with
          | .value :: _ | .comma :: _ | .flowMappingEnd :: _ => some (missing, names, rest, true)
          | _ => (read? fuel false false names rest).map fun (n, names, rest) => (n, names, rest, true)
        | _ =>
          (read? fuel false false names tokens).map fun (n, names, rest) => (n, names, rest, false)
      match key with
      | none => none
      | some (key, names, rest, valued) =>
        let value : Reading := match rest with
          | .value :: rest =>
            if !valued then none
            else match rest with
              | .comma :: _ | .flowMappingEnd :: _ => some (missing, names, rest)
              | _ => read? fuel false false names rest
          | rest => some (missing, names, rest)
        match value with
        | none => none
        | some (value, names, rest) =>
          (flowEntries? fuel false names rest).map fun (entries, names, rest) =>
            ((key, value) :: entries, names, rest)

end

/-- Reads the directives before a document; each may stand once. -/
def directives? (versioned : Bool) (names : Names) : List Token → Option (Names × List Token)
  | .version :: rest => if versioned then none else directives? true names rest
  | .tagHandle handle lead :: rest =>
    let given := names.handles.drop Names.default.handles.length
    if given.any (·.1 == handle) then none
    else directives? versioned { names with handles := names.handles ++ [(handle, lead)] } rest
  | rest => some (names, rest)

/-- The only document of some tokens: its node, or none of an empty text. -/
def ofTokens? (tokens : List Token) : Option (Option Node) :=
  match tokens with
  | [] => some none
  | _ => do
    let (names, rest) ← directives? false .default tokens
    let explicit := rest.head? == some .documentStart
    if rest.length < tokens.length && !explicit then none
    else
      let content := if explicit then rest.tail else rest
      let (node, rest) ← match content with
        | [] | .documentStart :: _ | .documentEnd :: _ | .version :: _ | .tagHandle .. :: _ =>
          some (missing, content)
        | _ =>
          (read? (4 * tokens.length + 8) true false names content).map fun (n, _, rest) => (n, rest)
      if (rest.dropWhile (· == .documentEnd)).isEmpty then some (some node) else none

end Node

end Marginalia.Document
