import Marginalia.Analysis.Run

/-! Schedules: the files of a run are taken up in order by tasks, of which only so many run at once
and which finish in any order; what they find is then put in its place by the number of the file. -/

namespace Marginalia

namespace Analysis

variable {α : Type}

/-- A run while its files are examined. Every file goes with its number. -/
structure Stage (α : Type) where
  /-- The files that no task has taken up, in order. -/
  waiting : List (Pending × Nat)
  /-- The files that a task examines. -/
  running : List (Pending × Nat)
  /-- What was found, in the order in which the tasks finished. -/
  finished : List (Nat × FileOutcome α)

def Stage.start (pending : List Pending) : Stage α := ⟨pending.zipIdx, [], []⟩

/-- How many moves are left: each file is to be taken up, and its task to finish. -/
def Stage.left (stage : Stage α) : Nat := 2 * stage.waiting.length + stage.running.length

namespace Analyst

variable [Score α]

/-- How a run ends: with a fault that concerns more than its file, when nothing is left to do, or,
if it may not take longer, at any time. -/
inductive Ends (analyst : Analyst α) (pending : List Pending) :
    Stage α → Except Fault (Outcome α) → Prop where
  | fault {stage : Stage α} {file : Pending × Nat} {fault : Fault} (running : file ∈ stage.running)
      (found : analyst.examinePending file.1 = .error fault) :
      Ends analyst pending stage (.error fault)
  | done {finished} : Ends analyst pending ⟨[], [], finished⟩
      (analyst.conclude pending (inSlots pending.length finished))
  | timeout {stage : Stage α} {seconds : Nat}
      (limited : analyst.settings.analysis.timeout = some seconds) : Ends analyst pending stage
        (analyst.conclude pending (inSlots pending.length stage.finished))

end Analyst

end Analysis

end Marginalia
