import Marginalia.Files.Path
import Marginalia.Language

/-! Sources: the files that an analysis is given. -/

namespace Marginalia.Analysis

structure Source where
  fileId : String
  text : String
  /-- The name of its language, which need not be a known one. -/
  language : String
  /-- Where it was read, unless it comes from elsewhere. -/
  path : Option String
  deriving DecidableEq, Repr

/-- A source whose language is that of its extension. -/
def Source.ofText (fileId text : String) : Except Fault Source :=
  match (Files.extension? fileId).bind Language.ofExtension? with
  | some language => .ok ⟨fileId, text, language.key, none⟩
  | none => .error (.unknownExtension fileId)

/-- A file that an analysis is asked about: its source, or why it could not be read. -/
inductive Pending where
  | loaded (source : Source)
  | unreadable (fileId error : String)
  deriving DecidableEq, Repr

namespace Pending

def fileId : Pending → String
  | loaded source => source.fileId
  | unreadable fileId _ => fileId

def source? : Pending → Option Source
  | loaded source => some source
  | unreadable .. => none

end Pending

end Marginalia.Analysis
