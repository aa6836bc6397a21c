/-! Paths: names between slashes. Repeated slashes and points between names mean nothing. -/

namespace Marginalia.Files

inductive Step where
  /-- The root, of a path that begins with a slash. -/
  | root
  /-- A point at the beginning of a path. -/
  | here
  /-- Two points. -/
  | up
  | name (text : String)
  deriving DecidableEq, Repr

namespace Step

/-- The step that a text between slashes is; empty texts and points are none. -/
def ofText? (text : String) : Option Step :=
  if text = "" || text = "." then none
  else if text = ".." then some up
  else some (name text)

/-- Steps ascend: the root, a point, two points, then names. -/
def order : Step → Step → Ordering
  | root, root | here, here | up, up => .eq
  | root, _ => .lt
  | _, root => .gt
  | here, _ => .lt
  | _, here => .gt
  | up, _ => .lt
  | _, up => .gt
  | name a, name b => compare a b

end Step

/-- The step with which a path begins, if it is the root or a point, and the texts between the
slashes after it. -/
def leadAndTexts (path : String) : Option Step × List String :=
  match path.splitOn "/" with
  | "" :: text :: texts => (some .root, text :: texts)
  | "." :: texts => (some .here, texts)
  | texts => (none, texts)

def steps (path : String) : List Step :=
  let (lead, texts) := leadAndTexts path
  lead.toList ++ texts.filterMap Step.ofText?

def stepsOrder : List Step → List Step → Ordering
  | [], [] => .eq
  | [], _ => .lt
  | _, [] => .gt
  | a :: as, b :: bs => (a.order b).then (stepsOrder as bs)

def fileName? (path : String) : Option String :=
  match (steps path).getLast? with
  | some (.name text) => some text
  | _ => none

/-- The part of a name after its last point, when something comes before the point. -/
def extensionOfName? (name : String) : Option String :=
  let back := name.toList.reverse
  match back.dropWhile (· != '.') with
  | [] | ['.'] => none
  | _ :: _ => some (String.ofList (back.takeWhile (· != '.')).reverse)

def extension? (path : String) : Option String := (fileName? path).bind extensionOfName?

/-- The steps to the directory in which a path stands; the root and the empty path stay. -/
def parentSteps (path : String) : List Step :=
  match (steps path).getLast? with
  | none | some .root => steps path
  | _ => (steps path).dropLast

/-- The path of an entry of a directory. -/
def within (directory name : String) : String :=
  if directory.isEmpty || directory.endsWith "/" then directory ++ name
  else directory ++ "/" ++ name

/-- What remains of the texts between slashes after steps. -/
def dropSteps : List String → List Step → Option (List String)
  | texts, [] => some texts
  | [], _ :: _ => none
  | text :: texts, step :: rest =>
    match Step.ofText? text with
    | none => dropSteps texts (step :: rest)
    | some first => if first = step then dropSteps texts rest else none

/-- Texts between slashes without those at their end that mean nothing. -/
def withoutBlankEnd (texts : List String) : List String :=
  (texts.reverse.dropWhile fun text => (Step.ofText? text).isNone).reverse

/-- A path from the directory with the given steps on; `none` when it does not begin with them. -/
def relativeTo? (path : String) (base : List Step) : Option String :=
  let (lead, texts) := leadAndTexts path
  let below (rest : List String) : String :=
    String.intercalate "/" (withoutBlankEnd (rest.dropWhile fun t => (Step.ofText? t).isNone))
  match lead, base with
  | none, [] => some (String.intercalate "/" (withoutBlankEnd texts))
  | some .root, [] => some ("/" ++ String.intercalate "/" (withoutBlankEnd texts))
  | some _, [] => some (String.intercalate "/" ("." :: withoutBlankEnd texts))
  | some first, step :: rest => if first = step then (dropSteps texts rest).map below else none
  | none, base => (dropSteps texts base).map below

end Marginalia.Files
