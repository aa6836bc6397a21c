import Marginalia.Likeness.Score

/-! The settings of an analysis and their defaults. -/

namespace Marginalia

/-- Which files are analysed, and the limits of a run. -/
structure AnalysisSettings where
  /-- How many files are analysed at once; `none` leaves it to the machine. -/
  concurrency : Option Nat
  /-- Seconds after which files still waiting are given up. -/
  timeout : Option Nat
  /-- Glob patterns of files left out. -/
  excluded : List String
  /-- Names of directories that are not entered. -/
  ignoredDirs : List String
  /-- The size in bytes above which a file is left out; zero for no limit. -/
  sizeLimit : Nat
  deriving DecidableEq, Repr

structure ClassifierSettings (α : Type) where
  /-- Likeness to the code from which a comment is redundant. -/
  redundancy : α
  /-- New terms that a narrative comment may hold and still be filler. -/
  novelLimit : Nat
  /-- Words of the project, never misspelled. -/
  words : List String
  /-- More narrative phrases. -/
  fillers : List String
  /-- More placeholder markers. -/
  markers : List String
  deriving DecidableEq, Repr

structure DriftSettings (α : Type) where
  enabled : Bool
  /-- Likeness from which two pieces of code are compared. -/
  codeThreshold : α
  /-- Likeness below which two comments disagree. -/
  commentThreshold : α
  /-- How many comments of one bucket are compared. -/
  bucketLimit : Nat
  deriving DecidableEq, Repr

structure Policy where
  deleteFiller : Bool
  deleteRedundant : Bool
  deletePlaceholder : Bool
  flagMisleading : Bool
  flagDrift : Bool
  preserveInformative : Bool
  fixTypos : Bool
  deriving DecidableEq, Repr

inductive ReportFormat where
  | json
  | yaml
  | text
  deriving DecidableEq, Repr

structure OutputSettings where
  format : ReportFormat
  includeKept : Bool
  deriving DecidableEq, Repr

structure Settings (α : Type) where
  analysis : AnalysisSettings
  classifier : ClassifierSettings α
  drift : DriftSettings α
  policy : Policy
  output : OutputSettings
  deriving DecidableEq, Repr

def defaultIgnoredDirs : List String :=
  [".git", "node_modules", "__pycache__", ".venv", "venv", "dist", "build", ".next", "coverage",
    ".cache", "target"]

/-- Half a million bytes, in binary thousands. -/
def defaultSizeLimit : Nat := 500 * 1024

def AnalysisSettings.default : AnalysisSettings where
  concurrency := none
  timeout := none
  excluded := ["**/*.min.js"]
  ignoredDirs := defaultIgnoredDirs
  sizeLimit := defaultSizeLimit

def ClassifierSettings.default {α : Type} [Score α] : ClassifierSettings α where
  redundancy := 0.6
  novelLimit := 2
  words := []
  fillers := []
  markers := []

def DriftSettings.default {α : Type} [Score α] : DriftSettings α where
  enabled := true
  codeThreshold := 0.85
  commentThreshold := 0.5
  bucketLimit := 64

/-- The default policy deletes nothing. -/
def Policy.default : Policy where
  deleteFiller := false
  deleteRedundant := false
  deletePlaceholder := false
  flagMisleading := true
  flagDrift := true
  preserveInformative := true
  fixTypos := false

def OutputSettings.default : OutputSettings where
  format := .json
  includeKept := false

def Settings.default {α : Type} [Score α] : Settings α where
  analysis := .default
  classifier := .default
  drift := .default
  policy := .default
  output := .default

end Marginalia
