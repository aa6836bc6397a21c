import Marginalia.Command.Request
import Marginalia.Settings.Check

/-! Layers of settings: what a command line asks for goes over what a file or the defaults say. -/

namespace Marginalia.Command

variable {α : Type}

/-- A command line can only switch on what is deleted and corrected, and switch off the flags of
drifted comments. -/
def AnalyzeRequest.overPolicy (request : AnalyzeRequest) (policy : Policy) : Policy :=
  { policy with
    deleteFiller := policy.deleteFiller || request.deleteFiller
    deleteRedundant := policy.deleteRedundant || request.deleteRedundant
    deletePlaceholder := policy.deletePlaceholder || request.deletePlaceholder
    fixTypos := policy.fixTypos || request.fixTypos
    flagDrift := policy.flagDrift && !request.noFlagDrift }

def AnalyzeRequest.overAnalysis (request : AnalyzeRequest) (settings : AnalysisSettings) :
    AnalysisSettings :=
  { settings with
    concurrency := request.concurrency <|> settings.concurrency
    timeout := request.timeout <|> settings.timeout }

/-- The settings of an analysis: those at hand, overruled by the command line. -/
def AnalyzeRequest.over (request : AnalyzeRequest) (settings : Settings α) : Settings α :=
  { settings with
    analysis := request.overAnalysis settings.analysis
    drift := { settings.drift with enabled := settings.drift.enabled && !request.noDrift }
    policy := request.overPolicy settings.policy
    output := { settings.output with
      includeKept := settings.output.includeKept || request.includeKept } }

end Marginalia.Command
