import Marginalia.Files.Entry
import Marginalia.Files.Glob
import Marginalia.Language
import Marginalia.Settings.Basic

/-! Which files are analysed: those below the given roots that have a supported extension, match no
exclusion pattern and are not too large. -/

namespace Marginalia.Files

structure Filter where
  /-- Whether a path matches a pattern of files left out. -/
  excludes : String → Bool
  /-- Whether directories of a name are not entered. -/
  ignores : String → Bool
  /-- The size above which a file is left out; zero for no limit. -/
  sizeLimit : Nat

namespace Filter

/-- The patterns of globs, or the first glob that is none. -/
def patternsOf (globs : List String) : Except Fault (List Pattern) :=
  globs.mapM fun glob =>
    match Pattern.ofGlob? glob with
    | some pattern => .ok pattern
    | none => .error (.badPattern glob)

def ofSettings (settings : AnalysisSettings) : Except Fault Filter := do
  let patterns ← patternsOf settings.excluded
  .ok {
    excludes := fun path => patterns.any (·.matches path)
    ignores := settings.ignoredDirs.contains
    sizeLimit := settings.sizeLimit }

def isSource (path : String) : Bool := (extension? path).any Language.isSupported

/-- Whether a path matches an exclusion pattern, in full or from its base on. -/
def isExcluded (filter : Filter) (base : List Step) (path : String) : Bool :=
  filter.excludes ((relativeTo? path base).getD path) || filter.excludes path

/-- Whether a size is within the limit. Under a limit a file without a size is left out. -/
def admitsSize (filter : Filter) (size : Option Nat) : Bool :=
  filter.sizeLimit = 0 || size.any (· ≤ filter.sizeLimit)

def keeps (filter : Filter) (base : List Step) (path : String) (size : Option Nat) : Bool :=
  isSource path && !filter.isExcluded base path && filter.admitsSize size

/-- The files to analyse at and below a root. The base of a file is the directory that it stands in,
and that of a directory is itself. -/
def filesOf (filter : Filter) (root : String) (entry : Entry Nat) : List String :=
  let base := match entry with
    | .file _ => parentSteps root
    | _ => steps root
  ((entry.walk filter.ignores root).filter fun found =>
    filter.keeps base found.path (some found.contents)).map (·.path)

end Filter

/-- Ascending paths without those that have the steps of the path before them. -/
def distinctPaths : List String → List String
  | a :: b :: rest =>
    if steps a = steps b then distinctPaths (a :: rest) else a :: distinctPaths (b :: rest)
  | paths => paths
termination_by paths => paths.length

/-- The roots with what stands at them, or the first at which nothing stands. -/
def existing (roots : List (String × Option (Entry Nat))) : Except Fault (List (String × Entry Nat)) :=
  roots.mapM fun (root, entry) =>
    match entry with
    | some entry => .ok (root, entry)
    | none => .error (.file ("Path does not exist: " ++ root) "missing path")

/-- The files to analyse below roots, ascending by their steps and each once. Of two paths with the
same steps the one found first stays. -/
def discover (settings : AnalysisSettings) (roots : List (String × Option (Entry Nat))) :
    Except Fault (List String) :=
  if roots.isEmpty then .ok []
  else do
    let filter ← Filter.ofSettings settings
    let roots ← existing roots
    let found := roots.flatMap fun (root, entry) => filter.filesOf root entry
    .ok (distinctPaths (found.mergeSort fun a b => (stepsOrder (steps a) (steps b)).isLE))

/-- How a file is named in reports: by its path from the first root directory above it on, with
slashes for backslashes. -/
def fileIdFor (roots : List (String × Option (Entry Nat))) (path : String) : String :=
  let relative := roots.findSome? fun (root, entry) =>
    if entry.any Entry.isDirectory then relativeTo? path (steps root) else none
  (relative.getD path).map fun c => if c = '\\' then '/' else c

end Marginalia.Files
