import Marginalia.Fault

/-! Failures of commands: what was attempted, and why it failed, outermost first. -/

namespace Marginalia.Command

structure Failure where
  message : String
  causes : List String
  deriving DecidableEq, Repr

namespace Failure

def ofFault (fault : Fault) : Failure := ⟨fault.message, fault.cause?.toList⟩

/-- A failure that made a larger attempt fail. -/
def within (failure : Failure) (attempt : String) : Failure :=
  ⟨attempt, failure.message :: failure.causes⟩

/-- Message and causes in one line. -/
def line (failure : Failure) : String :=
  String.intercalate ": " (failure.message :: failure.causes)

/-- A cause, indented: the first line as given, those after it as far as its text. -/
def indented (first later cause : String) : String :=
  first ++ String.intercalate ("\n" ++ later) (cause.splitOn "\n")

/-- The causes one below the other, numbered when there are several. -/
def causeLines : List String → List String
  | [] => []
  | [cause] => [indented "    " "    " cause]
  | causes => causes.zipIdx.map fun (cause, index) =>
      let number := toString index
      indented (String.ofList (List.replicate (5 - number.length) ' ') ++ number ++ ": ")
        "       " cause

/-- The message, and its causes below it. -/
def text (failure : Failure) : String :=
  "Error: " ++ failure.message ++
    (if failure.causes.isEmpty then ""
    else "\n\nCaused by:\n" ++ String.intercalate "\n" (causeLines failure.causes)) ++ "\n"

end Failure

end Marginalia.Command
