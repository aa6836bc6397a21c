import Marginalia.Place

/-! What can go wrong, by cause. A fault has a kind and a wording; faults of one file leave the other
files alone. -/

namespace Marginalia

inductive EditFault where
  | noReplacement (place : Place)
  | inverted (place : Place)
  | beyondEnd (place : Place) (size : Nat)
  | splitsCharacter (place : Place)
  | overlap (first second : Place)
  deriving DecidableEq, Repr

def EditFault.message : EditFault → String
  | noReplacement place => "rewrite at " ++ place.text ++ " has no replacement text"
  | inverted place => "inverted span " ++ place.range
  | beyondEnd place size => "span " ++ place.range ++ " exceeds source length " ++ toString size
  | splitsCharacter place => "span " ++ place.range ++ " splits a character"
  | overlap first second => "spans " ++ first.range ++ " and " ++ second.range ++ " overlap"

inductive Fault where
  | emptyComment (fileId : String) (start : Nat)
  | invalidSpan (place : Place)
  | overlappingActions (first second : Place)
  | unknownOption (option : String) (known : List String)
  | edit (fileId : String) (cause : EditFault)
  | file (attempt cause : String)
  | policyShape
  | mandatory (option : String)
  | badPattern (pattern : String)
  | malformed
  | notPositive (field : String)
  | notPositiveWhenSet (field : String)
  | notUnit (field : String)
  | noRepository
  | unsupportedLanguage (name : String)
  | unknownExtension (fileId : String)
  | noSource (fileId : String)
  | cutCharacter
  deriving DecidableEq, Repr

namespace Fault

inductive Kind where
  | emptyComment | invalidSpan | overlappingAction | unknownPolicyOption | apply | io | config
  | serialization | validation | git | unsupported | internal | cut
  deriving DecidableEq, Repr

def kind : Fault → Kind
  | emptyComment .. => .emptyComment
  | invalidSpan .. => .invalidSpan
  | overlappingActions .. => .overlappingAction
  | unknownOption .. => .unknownPolicyOption
  | edit .. => .apply
  | file .. => .io
  | policyShape | mandatory _ | badPattern _ => .config
  | malformed => .serialization
  | notPositive _ | notPositiveWhenSet _ | notUnit _ => .validation
  | noRepository => .git
  | unsupportedLanguage _ | unknownExtension _ => .unsupported
  | noSource _ => .internal
  | cutCharacter => .cut

/-- The option or setting at fault. -/
def field : Fault → Option String
  | policyShape => some "policy"
  | mandatory option => some ("policy." ++ option)
  | badPattern _ => some "analysis.exclude_patterns"
  | notPositive field | notPositiveWhenSet field | notUnit field => some field
  | _ => none

/-- Whether a fault concerns only the file it was found in. -/
def fileScoped (fault : Fault) : Bool :=
  match fault.kind with
  | .emptyComment | .invalidSpan | .overlappingAction | .apply | .unsupported | .io => true
  | _ => false

def message : Fault → String
  | emptyComment fileId start => "Empty comment in " ++ fileId ++ " at offset " ++ toString start
  | invalidSpan place => "Invalid span in " ++ place.fileId ++ ": " ++ place.range
  | overlappingActions first second =>
    "Overlapping rewrite actions in " ++ first.fileId ++ ": " ++ first.range ++ " and " ++
      second.range
  | unknownOption option known =>
    "Unknown policy option '" ++ option ++ "' (expected one of: " ++
      String.intercalate ", " known ++ ")"
  | edit fileId cause => "Failed to apply plan to " ++ fileId ++ ": " ++ cause.message
  | file attempt _ => "I/O error: " ++ attempt
  | policyShape =>
    "Configuration error: policy must be a mapping of option names to booleans"
  | mandatory option => "Configuration error: " ++ option ++ " cannot be disabled"
  | badPattern pattern => "Configuration error: Invalid glob pattern '" ++ pattern ++ "'"
  | malformed => "Serialization error: YAML serialization failed"
  | notPositive field => "Validation error: " ++ field ++ " must be greater than 0"
  | notPositiveWhenSet field =>
    "Validation error: " ++ field ++ " must be greater than 0 when set"
  | notUnit field => "Validation error: " ++ field ++ " must be between 0.0 and 1.0"
  | noRepository => "Git error: no repository or commit"
  | unsupportedLanguage name => "Unsupported: Unsupported language: " ++ name
  | unknownExtension fileId =>
    "Unsupported: no language registered for '" ++ fileId ++ "'"
  | noSource fileId => "Internal error: no source text for " ++ fileId
  | cutCharacter => "a text was to be cut inside a character"

/-- The fault behind a fault: what the system said. -/
def cause? : Fault → Option String
  | file _ cause => some cause
  | _ => none

end Fault

end Marginalia
