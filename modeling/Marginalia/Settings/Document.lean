import Marginalia.Document.Value
import Marginalia.Settings.Check

/-! Settings as values of documents, written and read. A section that is left out has its defaults,
and so has an option that is left out of a section; only the policy refuses options that it does not
know. -/

namespace Marginalia

open Document

variable {α : Type} [Score α]

/-! ### Writing -/

def optionalNat : Option Nat → Value α
  | some n => .nat n
  | none => .null

def texts (xs : List String) : Value α := .list (xs.map .text)

def AnalysisSettings.toValue (s : AnalysisSettings) : Value α :=
  .record [
    ("max_concurrency", optionalNat s.concurrency),
    ("total_timeout_seconds", optionalNat s.timeout),
    ("exclude_patterns", texts s.excluded),
    ("ignored_dirs", texts s.ignoredDirs),
    ("max_file_size_bytes", .nat s.sizeLimit)]

def ClassifierSettings.toValue (s : ClassifierSettings α) : Value α :=
  .record [
    ("redundant_jaccard", .decimal s.redundancy),
    ("filler_max_novel_terms", .nat s.novelLimit),
    ("extra_words", texts s.words),
    ("extra_filler_phrases", texts s.fillers),
    ("extra_placeholder_markers", texts s.markers)]

def DriftSettings.toValue (s : DriftSettings α) : Value α :=
  .record [
    ("enabled", .bool s.enabled),
    ("code_similarity_threshold", .decimal s.codeThreshold),
    ("comment_similarity_threshold", .decimal s.commentThreshold),
    ("max_bucket_size", .nat s.bucketLimit)]

def Policy.toValue (p : Policy) : Value α :=
  .record [
    ("delete_filler", .bool p.deleteFiller),
    ("delete_redundant", .bool p.deleteRedundant),
    ("delete_placeholder", .bool p.deletePlaceholder),
    ("flag_misleading", .bool p.flagMisleading),
    ("flag_drift", .bool p.flagDrift),
    ("preserve_informative", .bool p.preserveInformative),
    ("fix_typos", .bool p.fixTypos)]

def ReportFormat.name : ReportFormat → String
  | json => "json"
  | yaml => "yaml"
  | text => "text"

def OutputSettings.toValue (s : OutputSettings) : Value α :=
  .record [("format", .text s.format.name), ("include_kept", .bool s.includeKept)]

def Settings.toValue (s : Settings α) : Value α :=
  .record [
    ("analysis", s.analysis.toValue),
    ("classifier", s.classifier.toValue),
    ("drift", s.drift.toValue),
    ("policy", s.policy.toValue),
    ("output", s.output.toValue)]

/-! ### Reading -/

abbrev Section (α : Type) := List (String × Value α)

/-- The name that a key is. -/
def keyName? (key : Value α) : Option String :=
  match key.untagged with
  | .text name => some name
  | _ => none

/-- The options that a value gives; nothing gives none. -/
def section? (value : Value α) : Option (Section α) :=
  match value.untagged with
  | .null => some []
  | .mapping entries => entries.mapM fun (key, value) => (keyName? key).map fun name => (name, value)
  | _ => none

/-- The values that a section gives under one of some names. -/
def Section.given (options : Section α) (names : List String) : List (Value α) :=
  (options.filter fun option => names.contains option.1).map (·.2)

/-- An option under one of its names: read if it is given, the default if not. It may not be given
twice. -/
def Section.read? {β : Type} (options : Section α) (names : List String) (default : β)
    (read : Value α → Option β) : Option β :=
  match options.given names with
  | [] => some default
  | [value] => read value
  | _ => none

def bool? (value : Value α) : Option Bool :=
  match value.untagged with
  | .bool b => some b
  | _ => none

def nat? (value : Value α) : Option Nat :=
  match value.untagged with
  | .integer n => if 0 ≤ n then some n.toNat else none
  | _ => none

def optionalNat? : Value α → Option (Option Nat)
  | .null => some none
  | value => (nat? value).map some

def ofInt (n : Int) : α :=
  if 0 ≤ n then (n.toNat : α) else Score.zero - ((-n).toNat : α)

def number? (value : Value α) : Option α :=
  match value.untagged with
  | .integer n => some (ofInt n)
  | .decimal x => some x
  | _ => none

def text? (value : Value α) : Option String :=
  match value.untagged with
  | .text s => some s
  | _ => none

def texts? (value : Value α) : Option (List String) :=
  match value.untagged with
  | .null => some []
  | .list items => items.mapM text?
  | _ => none

/-- A report format by its name, or by a tag with nothing after it. -/
def format? : Value α → Option ReportFormat
  | .text name => named? name
  | .tagged name value => if value.untagged.isNull then named? name else none
  | _ => none
where
  named? (name : String) : Option ReportFormat :=
    [ReportFormat.json, .yaml, .text].find? (·.name == name)

def AnalysisSettings.ofSection? (options : Section α) : Option AnalysisSettings := do
  let d := AnalysisSettings.default
  pure {
    concurrency := ← options.read? ["max_concurrency"] none optionalNat?
    timeout := ← options.read? ["total_timeout_seconds"] none optionalNat?
    excluded := ← options.read? ["exclude_patterns"] [] texts?
    ignoredDirs := ← options.read? ["ignored_dirs"] d.ignoredDirs texts?
    sizeLimit := ← options.read? ["max_file_size_bytes"] d.sizeLimit nat? }

def ClassifierSettings.ofSection? (options : Section α) : Option (ClassifierSettings α) := do
  let d : ClassifierSettings α := .default
  pure {
    redundancy := ← options.read? ["redundant_jaccard"] d.redundancy number?
    novelLimit := ← options.read? ["filler_max_novel_terms"] d.novelLimit nat?
    words := ← options.read? ["extra_words"] d.words texts?
    fillers := ← options.read? ["extra_filler_phrases"] d.fillers texts?
    markers := ← options.read? ["extra_placeholder_markers"] d.markers texts? }

def DriftSettings.ofSection? (options : Section α) : Option (DriftSettings α) := do
  let d : DriftSettings α := .default
  pure {
    enabled := ← options.read? ["enabled"] d.enabled bool?
    codeThreshold := ← options.read? ["code_similarity_threshold"] d.codeThreshold number?
    commentThreshold := ← options.read? ["comment_similarity_threshold"] d.commentThreshold number?
    bucketLimit := ← options.read? ["max_bucket_size"] d.bucketLimit nat? }

/-- The options of the policy: each has two names. -/
def Policy.optionNames : List (String × String) :=
  [("delete_filler", "deleteFiller"), ("delete_redundant", "deleteRedundant"),
    ("delete_placeholder", "deletePlaceholder"), ("flag_misleading", "flagMisleading"),
    ("flag_drift", "flagDrift"), ("preserve_informative", "preserveInformative"),
    ("fix_typos", "fixTypos")]

/-- Refuses a policy that is no mapping, and the first option that there is not. -/
def Policy.checkNames (value : Value α) : Except Fault Unit :=
  match value with
  | .null => .ok ()
  | .mapping entries =>
    match (entries.map fun (key, _) => (keyName? key).getD "").find? unknown with
    | some name => .error (.unknownOption name (optionNames.map (·.1)))
    | none => .ok ()
  | _ => .error .policyShape
where
  unknown (name : String) : Bool := optionNames.all fun (a, b) => a != name && b != name

def Policy.ofSection? (options : Section α) : Option Policy := do
  let d := Policy.default
  pure {
    deleteFiller := ← options.read? ["delete_filler", "deleteFiller"] d.deleteFiller bool?
    deleteRedundant := ← options.read? ["delete_redundant", "deleteRedundant"] d.deleteRedundant bool?
    deletePlaceholder :=
      ← options.read? ["delete_placeholder", "deletePlaceholder"] d.deletePlaceholder bool?
    flagMisleading := ← options.read? ["flag_misleading", "flagMisleading"] d.flagMisleading bool?
    flagDrift := ← options.read? ["flag_drift", "flagDrift"] d.flagDrift bool?
    preserveInformative :=
      ← options.read? ["preserve_informative", "preserveInformative"] d.preserveInformative bool?
    fixTypos := ← options.read? ["fix_typos", "fixTypos"] d.fixTypos bool? }

def OutputSettings.ofSection? (options : Section α) : Option OutputSettings := do
  let d := OutputSettings.default
  pure {
    format := ← options.read? ["format"] d.format format?
    includeKept := ← options.read? ["include_kept"] d.includeKept bool? }

def Settings.ofSection? (options : Section α) : Option (Settings α) := do
  let d : Settings α := .default
  pure {
    analysis := ← options.read? ["analysis"] d.analysis fun v => (section? v).bind AnalysisSettings.ofSection?
    classifier := ← options.read? ["classifier"] d.classifier fun v => (section? v).bind ClassifierSettings.ofSection?
    drift := ← options.read? ["drift"] d.drift fun v => (section? v).bind DriftSettings.ofSection?
    policy := ← options.read? ["policy"] d.policy fun v => (section? v).bind Policy.ofSection?
    output := ← options.read? ["output"] d.output fun v => (section? v).bind OutputSettings.ofSection? }

/-- What a reading gives, or the fault of a document that cannot be read. -/
def orMalformed {β : Type} : Option β → Except Fault β
  | some x => .ok x
  | none => .error .malformed

def Policy.ofValue (value : Value α) : Except Fault Policy := do
  checkNames value
  if value.isNull then .ok .default
  else
    let policy ← orMalformed ((section? value).bind ofSection?)
    policy.check
    .ok policy

/-- Settings from a value. An empty document gives the defaults. -/
def Settings.ofValue (value : Value α) : Except Fault (Settings α) := do
  if value.isNull then .ok .default
  else
    match value.untagged.get? "policy" with
    | some policy => Policy.checkNames policy
    | none => .ok ()
    let settings ← orMalformed ((section? value).bind ofSection?)
    settings.check
    .ok settings

end Marginalia
