import Marginalia.Analysis.Schedule
import Marginalia.Proofs.Analysis.Run
import Marginalia.Proofs.Judging.Verdicts
import Mathlib.Data.List.Induction
import Mathlib.Data.List.Nodup

/-! The outcome of a run does not depend on its schedule: what a task finds does not depend on when
it runs, no file is lost or taken up twice, and the results are put back by the numbers of the
files. -/

namespace Marginalia.Analysis

variable {α : Type} [Score α]

namespace Analyst

/-! ### Every file has an outcome -/

/-- What is found in a file. -/
def foundIn (analyst : Analyst α) (file : Pending) : FileOutcome α :=
  match analyst.examinePending file with
  | .ok outcome => outcome
  | .error fault => .failed file.fileId fault.message

section Slots

variable {β : Type} (total : Nat) (completed : List (Nat × β))

omit [Score α]

variable {total completed}

theorem nodup_zipIdx (pending : List Pending) : pending.zipIdx.Nodup := by
  refine List.Nodup.of_map Prod.snd ?_
  rw [List.zipIdx_map_snd]
  exact List.nodup_range'

end Slots

/-! ### Files in any order -/

variable {analyst : Analyst α} {pending : List Pending} {limit : Nat} {stage next : Stage α}

/-- What holds at a stage of a run. -/
structure Accounts (analyst : Analyst α) (limit : Nat) (pending : List Pending) (stage : Stage α)
    (done : List (Pending × Nat)) : Prop where
  finished : stage.finished = done.map fun file => (file.2, analyst.foundIn file.1)
  /-- Every file waits, is examined or has been examined: once, with its number. -/
  perm : (stage.waiting ++ stage.running ++ done).Perm pending.zipIdx
  /-- Files are taken up in order. -/
  suffix : stage.waiting <:+ pending.zipIdx
  /-- A file that was taken up left fewer before it than can be examined at once. -/
  room : ∀ front file back, pending.zipIdx = front ++ file :: back → file ∉ stage.waiting →
    front.countP (fun earlier => earlier ∉ done) < limit

/-- The outcomes of files. A file without one was abandoned. -/
def filled (pending : List Pending) (examined : List (Option (FileOutcome α))) :
    List (FileOutcome α) :=
  (pending.zip examined).map fun pair =>
    pair.2.getD (.failed pair.1.fileId "abandoned: total timeout elapsed")

end Analyst

end Marginalia.Analysis
