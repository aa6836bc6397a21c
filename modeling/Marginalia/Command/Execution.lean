import Marginalia.Analysis.Rewriting
import Marginalia.Analysis.Run
import Marginalia.Command.Display
import Marginalia.Command.Failure
import Marginalia.Command.Host
import Marginalia.Command.Layers
import Marginalia.Files.Discovery
import Marginalia.Settings.Text

/-! Execution: requests carried out on a host. A request that fails has printed what it printed until
then, and says why. -/

namespace Marginalia.Command

open Files Terminal

inductive Status where
  | success
  | failure
  /-- The command line was not understood. -/
  | misuse
  deriving DecidableEq, Repr

def Status.code : Status → Nat
  | success => 0
  | failure => 1
  | misuse => 2

variable {m : Type → Type} [Monad m]

abbrev Attempt (m : Type → Type) := ExceptT Failure m

namespace Host

variable (host : Host m)

def printLines (lines : List String) : Attempt m Unit :=
  ExceptT.lift (host.print (String.join (lines.map (· ++ "\n"))))

/-- What a step on the machine gives, with a fault as the cause of the fault that it leads to. -/
def accessed {β : Type} (attempt : String) (step : m (Except AccessFault β)) :
    Attempt m β := do
  match ← ExceptT.lift step with
  | .ok result => pure result
  | .error fault => throw (.ofFault (.file attempt fault.text))

/-- What is computed, or its fault as a failure. -/
def checked {β : Type} (result : Except Fault β) : Attempt m β :=
  match result with
  | .ok value => pure value
  | .error fault => throw (.ofFault fault)

/-- A step whose failures are causes of a larger attempt. -/
def attempting {β : Type} (attempt : String) (step : Attempt m β) : Attempt m β :=
  tryCatch step fun failure => throw (failure.within attempt)

/-! ### Settings -/

def settingsIn (path : String) : Attempt m (Settings Float) :=
  attempting ("Failed to load configuration from " ++ path) do
    let text ← accessed ("Failed to read config file: " ++ path) (host.read path)
    checked (Settings.ofText text)

/-- The settings in the named file, or in the default one if it is there, or the defaults. -/
def settings (path : Option String) : Attempt m (Settings Float) := do
  match path with
  | some path => host.settingsIn path
  | none =>
    if (← ExceptT.lift (host.entry? defaultConfig)).isSome then host.settingsIn defaultConfig
    else pure .default

/-! ### Analyses -/

/-- A file to analyse: its source, or why it cannot be read. -/
def pendingAt (roots : List (String × Option (Entry Nat))) (path : String) :
    m Analysis.Pending := do
  let fileId := fileIdFor roots path
  let unreadable (fault : Fault) : Analysis.Pending := .unreadable fileId fault.message
  return match ← host.read path with
    | .error fault => unreadable (.file ("Failed to read " ++ path) fault.text)
    | .ok text =>
      match Analysis.Source.ofText fileId text with
      | .ok source => .loaded { source with path := some path }
      | .error fault => unreadable fault

def pendingBelow (settings : AnalysisSettings) (roots : List String) :
    Attempt m (List Analysis.Pending) := do
  let roots ← roots.mapM fun root => do
    return (root, ← ExceptT.lift (host.entry? root))
  let paths ← checked (discover settings roots)
  paths.mapM fun path => ExceptT.lift (host.pendingAt roots path)

/-- Shows a report on the terminal, or writes it where it should go. -/
def present (request : AnalyzeRequest) (presentation : Presentation)
    (report : Report Float) : Attempt m Unit := do
  match request.out, presentation with
  | some path, .pretty =>
    throw ⟨"pretty output cannot be written to " ++ path ++ "; choose json, yaml or text", []⟩
  | some path, .report format =>
    accessed ("Failed to write report to " ++ path)
      (host.write path (report.render format (← ExceptT.lift host.stamp)))
    host.printLines [Paint.bold.on "📁 Report saved to:" ++ " " ++ Paint.cyan.on path]
  | none, .report format =>
    host.printLines [report.render format (← ExceptT.lift host.stamp)]
  | none, .pretty => host.printLines (reportLines report)

/-- Writes the rewritten files that changed and were read from the machine; gives their number. -/
def writeBack (files : List Analysis.Rewritten) : Attempt m Nat := do
  let changed := files.filterMap fun file =>
    if file.changed then file.path.map fun path => (path, file.text) else none
  changed.forM fun (path, text) =>
    accessed ("Failed to write " ++ path) (host.write path text)
  return changed.length

def analyze (request : AnalyzeRequest) : Attempt m Unit := do
  let settings := request.over (← host.settings request.config)
  attempting "Invalid configuration" (checked settings.check)
  let analyst ← checked (Analysis.Analyst.ofSettings settings)
  let pending ← host.pendingBelow settings.analysis request.paths
  let sources := pending.filterMap Analysis.Pending.source?
  let outcome ← checked (analyst.run pending)
  let report := Report.ofOutcome outcome settings.output.includeKept
  if request.dryRun then
    host.printLines (summaryLines report)
    if request.apply then
      host.printLines (previewLines (← checked (Analysis.rewrite sources outcome)))
  else
    let presentation := request.presentation.getD
      (if request.out.isSome then .report settings.output.format else .pretty)
    host.present request presentation report
    if request.apply then
      let written ← host.writeBack (← checked (Analysis.rewrite sources outcome))
      if presentation = .pretty then
        host.printLines [title .brightGreen "✏️  Rewrote" ++ " " ++
          Paint.bold.on (toString written ++ " files")]

/-! ### Other requests -/

def scanCommits (path : String) (count : Nat) (json : Bool) : Attempt m Unit := do
  let commits ← attempting ("Failed to scan commits in " ++ path) do
    checked (← ExceptT.lift (host.history path (if count = 0 then Commit.defaultCount else count)))
  let suspects := Commit.suspects commits count
  host.printLines
    (if json then [Document.Json.render (.list (suspects.map Commit.Suspect.toValue))]
    else scanLines suspects count)

def defaultsText : String := (Settings.default : Settings Float).text

def printDefaults : Attempt m Unit := do
  host.printLines [
    "# Default commentary configuration",
    "# Save as .commentary.yml and customize as needed",
    ""]
  ExceptT.lift (host.print defaultsText)

/-- Writes the default settings to a file; an existing one only by force. -/
def writeDefaults (path : String) (force : Bool) : Attempt m Status := do
  if (← ExceptT.lift (host.entry? path)).isSome && !force then
    ExceptT.lift (host.complain (Paint.red.on "❌ Configuration file already exists:" ++ " " ++ path ++
      "\n   Use --force to overwrite or choose a different name with --output\n"))
    return .failure
  attempting ("Failed to write " ++ path)
    (accessed ("Failed to write config file: " ++ path) (host.write path defaultsText))
  host.printLines (writtenLines path)
  return .success

def validate (path : String) (detailed : Bool) : Attempt m Status := do
  host.printLines
    [title .brightBlue "🔍 Validating configuration:" ++ " " ++ Paint.cyan.on path, ""]
  match ← ExceptT.lift (host.settingsIn path).run with
  | .error failure =>
    ExceptT.lift (host.complain
      (Paint.red.on "❌ Configuration validation failed:" ++ " " ++ failure.line ++ "\n"))
    return .failure
  | .ok settings =>
    host.printLines [title .brightGreen "✅ Configuration file is valid!"]
    if detailed then
      host.printLines ("" :: settingsLines path (← ExceptT.lift host.processors) settings)
    return .success

def execute (request : Request) : Attempt m Status := do
  match request with
  | .analyze request => do host.analyze request; return .success
  | .scanCommits path count json => do host.scanCommits path count json; return .success
  | .printDefaults => do host.printDefaults; return .success
  | .writeDefaults path force => host.writeDefaults path force
  | .validate path detailed => host.validate path detailed
  | .listLanguages => do host.printLines languageLines; return .success

def usageText : String :=
  "Commentary - comment quality analysis and cleanup\n\n" ++
    "Usage: commentary [OPTIONS] <COMMAND>\n\nCommands:\n" ++
    String.join (commands.map fun (name, _) => "  " ++ name ++ "\n")

def versionText : String := "commentary 0.3.0\n"

def run (arguments : List String) : m Status := do
  match Request.ofArguments arguments with
  | .error .help => do host.print usageText; return .success
  | .error .version => do host.print versionText; return .success
  | .error (.misuse message) => do
    host.complain ("error: " ++ message ++ "\n\n" ++ usageText)
    return .misuse
  | .ok request =>
    match ← (host.execute request).run with
    | .ok status => return status
    | .error failure => do
      host.complain failure.text
      return .failure

end Host

end Marginalia.Command
