import Marginalia.Document.Node
import Marginalia.Document.Scalar

/-! The value of a document's text. -/

namespace Marginalia.Document

namespace Value

def nestingLimit : Nat := 128

/-- The name of a tag of the document's own. -/
def localTag? (tag : Option String) : Option String :=
  tag.bind fun t => match t.toList with
    | '!' :: rest => some (String.ofList rest)
    | _ => none

/-- A value under the tag of the document's own that it has, if it has one. -/
def withTag? (tag : Option String) (value : Value Float) : Option (Value Float) :=
  match localTag? tag with
  | some "" => none
  | some name => some (.tagged name value)
  | none => some value

/-- The value of a scalar. A tag may say what a plain one has to be. -/
def ofScalar? (tag : Option String) (isPlain : Bool) (text : String) : Option (Value Float) :=
  let untagged := if isPlain then plainValue? text else some (.text text)
  match tag with
  | none => untagged
  | some tag =>
    if tag == Node.coreSpace ++ "bool" then (bool? text).map .bool
    else if tag == Node.coreSpace ++ "int" then (integer? text.toList).bind wordValue?
    else if tag == Node.coreSpace ++ "float" then (float? text).map .decimal
    else if tag == Node.coreSpace ++ "null" then if isNullText text then some .null else none
    else if (localTag? (some tag)).isSome then untagged.bind (withTag? (some tag))
    else some (.text text)

def keysDiffer : List (Value Float × Value Float) → Bool
  | [] => true
  | (key, _) :: rest => !(rest.any fun entry => entry.1 == key) && keysDiffer rest

mutual

/-- The value of a node that may hold so many levels. -/
def ofNode? : Nat → Node → Option (Value Float)
  | _, .scalar tag isPlain content => ofScalar? tag isPlain content
  | 0, _ => none
  | depth + 1, .list tag items =>
    (ofNodes? depth items).bind fun values => withTag? tag (.list values)
  | depth + 1, .mapping tag entries =>
    (ofEntries? depth entries).bind fun values =>
      if keysDiffer values then withTag? tag (.mapping values) else none

def ofNodes? : Nat → List Node → Option (List (Value Float))
  | _, [] => some []
  | depth, node :: rest =>
    match ofNode? depth node with
    | none => none
    | some value => (ofNodes? depth rest).map (value :: ·)

def ofEntries? : Nat → List (Node × Node) → Option (List (Value Float × Value Float))
  | _, [] => some []
  | depth, (key, node) :: rest =>
    match ofNode? depth key, ofNode? depth node with
    | some name, some value => (ofEntries? depth rest).map ((name, value) :: ·)
    | _, _ => none

end

/-- The value of a document's text; an empty text says nothing. -/
def ofText? (text : String) : Option (Value Float) :=
  match tokens? text.toList with
  | none => none
  | some tokens =>
    match Node.ofTokens? tokens with
    | none => none
    | some none => some .null
    | some (some node) => ofNode? nestingLimit node

end Value

end Marginalia.Document
