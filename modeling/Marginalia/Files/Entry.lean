import Marginalia.Files.Path

/-! What stands at a path: a file, or a directory with what stands in it. -/

namespace Marginalia.Files

/-- What stands at a path, with `α` for what is known of a file: its size, or its bytes. -/
inductive Entry (α : Type) where
  | file (contents : α)
  | directory (entries : List (String × Entry α))
  /-- Anything else, such as a link that is not followed. -/
  | other

structure Found (α : Type) where
  path : String
  contents : α
  deriving DecidableEq, Repr

namespace Entry

variable {α β : Type}

def isDirectory : Entry α → Bool
  | directory _ => true
  | _ => false

mutual

/-- The files at and below a path. Directories with an ignored name are not entered; the path itself
may have any name. -/
def walk (ignored : String → Bool) (path : String) : Entry α → List (Found α)
  | .file contents => [⟨path, contents⟩]
  | .directory entries => walkAll ignored path entries
  | .other => []

def walkAll (ignored : String → Bool) (path : String) : List (String × Entry α) → List (Found α)
  | [] => []
  | (name, entry) :: rest =>
    (if entry.isDirectory && ignored name then [] else entry.walk ignored (within path name)) ++
      walkAll ignored path rest

end

mutual

def map (f : α → β) : Entry α → Entry β
  | .file contents => .file (f contents)
  | .directory entries => .directory (mapAll f entries)
  | .other => .other

def mapAll (f : α → β) : List (String × Entry α) → List (String × Entry β)
  | [] => []
  | (name, entry) :: rest => (name, entry.map f) :: mapAll f rest

end

end Entry

end Marginalia.Files
