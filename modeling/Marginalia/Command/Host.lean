import Marginalia.Commit
import Marginalia.Fault
import Marginalia.Files.Disk
import Marginalia.Report.Rendering

/-! Hosts: what commands need of the machine that they run on, and a host that is held in memory. -/

namespace Marginalia.Command

open Files

structure Host (m : Type → Type) where
  /-- What stands at a path, with the sizes of files. -/
  entry? : String → m (Option (Entry Nat))
  read : String → m (Except AccessFault String)
  write : String → String → m (Except AccessFault Unit)
  /-- The newest commits of the repository around a path, newest first, at most so many. -/
  history : String → Nat → m (Except Fault (List Commit))
  /-- The name and the time of this run. -/
  stamp : m Stamp
  /-- How many tasks run at once. -/
  processors : m Nat
  print : String → m Unit
  /-- Prints to the channel for errors. -/
  complain : String → m Unit

/-- A machine held in memory: its disk, the history of the repository on it, and what was printed. -/
structure Machine where
  disk : Disk
  /-- The commits, newest first, if there is a repository. -/
  commits : Option (List Commit)
  stamp : Stamp
  processors : Nat
  printed : String
  complaints : String

namespace Machine

def write (machine : Machine) (path text : String) : Except AccessFault Unit × Machine :=
  match machine.disk.write path text with
  | .ok disk => (.ok (), { machine with disk := disk })
  | .error fault => (.error fault, machine)

/-- The history as seen from a path; there is none without commits. -/
def history (machine : Machine) (path : String) (count : Nat) : Except Fault (List Commit) :=
  match machine.disk.at? path, machine.commits with
  | .ok _, some (commit :: older) => .ok ((commit :: older).take count)
  | _, _ => .error .noRepository

def host : Host (StateM Machine) where
  entry? path := do return ((← get).disk.at? path).toOption.map (·.map ByteArray.size)
  read path := do return (← get).disk.read path
  write path text := modifyGet (·.write path text)
  history path count := do return (← get).history path count
  stamp := do return (← get).stamp
  processors := do return (← get).processors
  print text := modify fun machine => { machine with printed := machine.printed ++ text }
  complain text := modify fun machine => { machine with complaints := machine.complaints ++ text }

end Machine

end Marginalia.Command
