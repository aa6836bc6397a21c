import Marginalia.Files.Entry

/-! A disk: a directory with files of bytes, and reading and writing by path from it on. -/

namespace Marginalia.Files

inductive AccessFault where
  | missing
  | notDirectory
  | isDirectory
  /-- The bytes of a file are no text. -/
  | notText
  /-- Anything else, in the words of the system. -/
  | system (words : String)
  deriving DecidableEq, Repr

def AccessFault.text : AccessFault → String
  | missing => "No such file or directory (os error 2)"
  | notDirectory => "Not a directory (os error 20)"
  | isDirectory => "Is a directory (os error 21)"
  | notText => "stream did not contain valid UTF-8"
  | system words => words

abbrev Disk := Entry ByteArray

namespace Disk

/-- Where steps lead from an entry on, given the directories above it, nearest first. Nothing is
known above the disk. -/
def follow (above : List Disk) (entry : Disk) : List Step → Except AccessFault Disk
  | [] => .ok entry
  | step :: rest =>
    match entry, step with
    | .directory entries, .name name =>
      match entries.lookup name with
      | some next => follow (entry :: above) next rest
      | none => .error .missing
    | .directory _, .up =>
      match above with
      | parent :: further => follow further parent rest
      | [] => .error .missing
    | .directory _, .here => follow above entry rest
    | .directory _, .root => .error .missing
    | _, _ => .error .notDirectory

/-- Whether a path says that a directory stands there: it ends in a slash or a point. -/
def asksForDirectory (path : String) : Bool :=
  match (path.splitOn "/").getLast? with
  | some "" | some "." | some ".." => true
  | _ => false

def at? (disk : Disk) (path : String) : Except AccessFault Disk := do
  if path.isEmpty then .error .missing
  let entry ← follow [] disk (steps path)
  if asksForDirectory path && !entry.isDirectory then .error .notDirectory
  .ok entry

def read (disk : Disk) (path : String) : Except AccessFault String := do
  match ← disk.at? path with
  | .file bytes =>
    match String.fromUTF8? bytes with
    | some text => .ok text
    | none => .error .notText
  | _ => .error .isDirectory

/-- A directory with an entry under a name, in the place of the one that it has. -/
def setEntry (name : String) (entry : Disk) : List (String × Disk) → List (String × Disk)
  | [] => [(name, entry)]
  | (other, old) :: rest =>
    if other = name then (name, entry) :: rest else (other, old) :: setEntry name entry rest

/-- The disk with a file under names, which lead through directories that are made as needed. -/
def put (contents : ByteArray) : List String → Disk → Disk
  | [], _ => .file contents
  | name :: names, disk =>
    let entries := match disk with
      | .directory entries => entries
      | _ => []
    .directory (setEntry name (put contents names ((entries.lookup name).getD (.directory []))) entries)

/-- The names that steps lead through, each two points taking back one name. -/
def namesOf (steps : List Step) : List String :=
  (steps.foldl (fun names step =>
    match step with
    | .name name => name :: names
    | .up => names.tail
    | .root | .here => names) []).reverse

/-- The disk after a text is written to a path whose directory exists. -/
def write (disk : Disk) (path text : String) : Except AccessFault Disk := do
  if path.isEmpty then .error .missing
  match ← follow [] disk (parentSteps path) with
  | .directory entries =>
    if asksForDirectory path then .error .isDirectory
    match (fileName? path).bind fun name => entries.lookup name with
    | some (.directory _) => .error .isDirectory
    | _ => .ok (put text.toUTF8 (namesOf (steps path)) disk)
  | _ => .error .notDirectory

/-- The disk with a file at a path, whose directories are made as needed. -/
def withFile (disk : Disk) (path : String) (contents : ByteArray) : Disk :=
  put contents (namesOf (steps path)) disk

end Disk

end Marginalia.Files
