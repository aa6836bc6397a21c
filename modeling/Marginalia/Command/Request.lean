import Marginalia.Command.Arguments
import Marginalia.Settings.Basic

/-! Requests: what the program can be asked to do, and the command lines that ask for it. -/

namespace Marginalia.Command

inductive Presentation where
  | report (format : ReportFormat)
  /-- Painted tables. -/
  | pretty
  deriving DecidableEq, Repr

structure AnalyzeRequest where
  paths : List String
  config : Option String
  /-- The file that the report goes to. -/
  out : Option String
  presentation : Option Presentation
  apply : Bool
  dryRun : Bool
  includeKept : Bool
  deleteFiller : Bool
  deleteRedundant : Bool
  deletePlaceholder : Bool
  fixTypos : Bool
  noFlagDrift : Bool
  concurrency : Option Nat
  timeout : Option Nat
  noDrift : Bool
  deriving DecidableEq, Repr

inductive Request where
  | analyze (request : AnalyzeRequest)
  | scanCommits (path : String) (count : Nat) (json : Bool)
  | printDefaults
  | writeDefaults (path : String) (force : Bool)
  | validate (path : String) (detailed : Bool)
  | listLanguages
  deriving DecidableEq, Repr

def defaultConfig : String := ".commentary.yml"

/-- Numbers of the machine end below this one. -/
def numberBound : Nat := Nat.pow 2 64

/-! ### What commands understand -/

def switch (name : String) : Opt := ⟨name, none, .nothing⟩

def commonOptions : List Opt := [
  ⟨"verbose", some 'v', .nothing⟩,
  ⟨"help", some 'h', .quits .help⟩]

def leadingUsage : Usage where
  options := commonOptions ++ [⟨"version", some 'V', .quits .version⟩]
  operandLimit := none
  required := []

def presentations : List (String × Presentation) := [
  ("json", .report .json), ("yaml", .report .yaml), ("text", .report .text), ("pretty", .pretty)]

def analyzeUsage : Usage where
  options := commonOptions ++ [
    ⟨"config", some 'c', .path⟩,
    ⟨"out", some 'o', .path⟩,
    ⟨"format", some 'f', .oneOf (presentations.map (·.1))⟩,
    switch "apply", switch "dry-run", switch "include-kept",
    switch "delete-filler", switch "delete-redundant", switch "delete-placeholder",
    switch "aggressive", switch "fix-typos", switch "no-flag-drift",
    ⟨"max-concurrency", none, .number numberBound⟩,
    ⟨"timeout", none, .number numberBound⟩,
    switch "no-drift"]
  operandLimit := none
  required := []

def scanCommitsUsage : Usage where
  options := commonOptions ++ [⟨"commits", some 'n', .number numberBound⟩, switch "json"]
  operandLimit := some 1
  required := []

def writeDefaultsUsage : Usage where
  options := commonOptions ++ [⟨"output", some 'o', .path⟩, ⟨"force", some 'f', .nothing⟩]
  operandLimit := some 0
  required := []

def validateUsage : Usage where
  options := commonOptions ++ [⟨"config", some 'c', .path⟩, ⟨"detailed", some 'd', .nothing⟩]
  operandLimit := some 0
  required := ["config"]

def plainUsage : Usage := ⟨commonOptions, some 0, []⟩

/-! ### From arguments to requests -/

def Given.number? (given : Given) (name : String) : Option Nat :=
  (given.value? name).bind Command.number?

def analyzeRequest (given : Given) : AnalyzeRequest :=
  let aggressive := given.has "aggressive"
  { paths := if given.operands.isEmpty then ["."] else given.operands
    config := given.value? "config"
    out := given.value? "out"
    presentation := (given.value? "format").bind fun name => presentations.lookup name
    apply := given.has "apply"
    dryRun := given.has "dry-run"
    includeKept := given.has "include-kept"
    deleteFiller := given.has "delete-filler" || aggressive
    deleteRedundant := given.has "delete-redundant" || aggressive
    deletePlaceholder := given.has "delete-placeholder" || aggressive
    fixTypos := given.has "fix-typos"
    noFlagDrift := given.has "no-flag-drift"
    concurrency := given.number? "max-concurrency"
    timeout := given.number? "timeout"
    noDrift := given.has "no-drift" }

def defaultCommits : Nat := 20

/-- The commands by name: what they understand, and the request that it makes. -/
def commands : List (String × Usage × (Given → Request)) := [
  ("analyze", analyzeUsage, fun given => .analyze (analyzeRequest given)),
  ("scan-commits", scanCommitsUsage, fun given =>
    .scanCommits (given.operands.headD ".") ((given.number? "commits").getD defaultCommits)
      (given.has "json")),
  ("print-default-config", plainUsage, fun _ => .printDefaults),
  ("init-config", writeDefaultsUsage, fun given =>
    .writeDefaults ((given.value? "output").getD defaultConfig) (given.has "force")),
  ("validate-config", validateUsage, fun given =>
    .validate ((given.value? "config").getD "") (given.has "detailed")),
  ("list-languages", plainUsage, fun _ => .listLanguages)]

/-- Help about the program, or about the command that is named. -/
def helpFor : List String → Stop
  | [] | ["help"] => .help
  | [name] => if (commands.lookup name).isSome then .help else unknown name
  | _ :: other :: _ => unknown other

def Request.ofArguments (arguments : List String) : Except Stop Request := do
  let (name, rest) ← leadingUsage.leading .empty arguments
  match commands.lookup name with
  | some (usage, request) => .ok (request (← usage.read rest))
  | none =>
    .error (if name = "help" then helpFor rest
      else .misuse ("unrecognized subcommand '" ++ name ++ "'"))

end Marginalia.Command
