import Marginalia.Extraction.Found
import Marginalia.Fault
import Marginalia.Grammar.Cpp
import Marginalia.Grammar.Go
import Marginalia.Grammar.JavaScript
import Marginalia.Grammar.Python
import Marginalia.Grammar.Rust

/-! The languages whose comments are read: their names, their file extensions, what their comments
are, and their grammars. -/

namespace Marginalia

open Syntax Extraction

/-- The languages, in the order in which they are listed. -/
inductive Language where
  | python
  | typescript
  | javascript
  | rust
  | go
  | cpp
  deriving DecidableEq, Repr

namespace Language

def all : List Language := [python, typescript, javascript, rust, go, cpp]

/-- How far the extraction for a language is proven in use. -/
inductive Maturity where
  | stable
  | beta
  deriving DecidableEq, Repr

structure Profile where
  /-- The short name. -/
  key : String
  name : String
  /-- Other names for the key. -/
  aliases : List String
  /-- Endings of file names, without the point. -/
  extensions : List String
  conventions : Conventions
  maturity : Maturity
  /-- The forms of comments. -/
  notes : String
  deriving DecidableEq, Repr

def profile : Language → Profile
  | python => {
      key := "py"
      name := "Python"
      aliases := ["python", "pyw"]
      extensions := ["py", "pyi"]
      conventions := ⟨[.comment], true⟩
      maturity := .stable
      notes := "# comments, docstrings" }
  | typescript => {
      key := "ts"
      name := "TypeScript"
      aliases := ["typescript"]
      extensions := ["ts", "tsx", "cts", "mts"]
      conventions := ⟨[.comment], false⟩
      maturity := .stable
      notes := "// and /* */ comments, JSDoc" }
  | javascript => {
      key := "js"
      name := "JavaScript"
      aliases := ["javascript", "node"]
      extensions := ["js", "jsx", "mjs", "cjs"]
      conventions := ⟨[.comment], false⟩
      maturity := .stable
      notes := "// and /* */ comments, JSDoc" }
  | rust => {
      key := "rs"
      name := "Rust"
      aliases := ["rust"]
      extensions := ["rs"]
      conventions := ⟨[.lineComment, .blockComment], false⟩
      maturity := .stable
      notes := "//, /// and //! comments, /* */ blocks" }
  | go => {
      key := "go"
      name := "Go"
      aliases := ["golang"]
      extensions := ["go"]
      conventions := ⟨[.comment], false⟩
      maturity := .beta
      notes := "// and /* */ comments" }
  | cpp => {
      key := "cpp"
      name := "C++"
      aliases := ["c++", "cplusplus"]
      extensions := ["cpp", "cxx", "cc", "hpp", "hxx", "hh", "h"]
      conventions := ⟨[.comment], false⟩
      maturity := .beta
      notes := "// and /* */ comments" }

def key (language : Language) : String := language.profile.key

/-- Whether a language is known under a name: its key, another name, or an extension. -/
def answersTo (language : Language) (name : String) : Bool :=
  let p := language.profile
  p.key == name || p.aliases.contains name || p.extensions.contains name

/-- A text without the points that it begins with. -/
def withoutPoints (text : String) : String := String.ofList (text.toList.dropWhile (· == '.'))

/-- The language with a name. Points before it and capitals of its letters do not matter. -/
def named (name : String) : Except Fault Language :=
  let plain := (withoutPoints name).toLower
  match all.find? fun language => language.answersTo plain with
  | some language => .ok language
  | none => .error (.unsupportedLanguage name)

def ofExtension? (extension : String) : Option Language :=
  let plain := (withoutPoints extension).toLower
  all.find? fun language => language.profile.extensions.contains plain

def isSupported (extension : String) : Bool := (ofExtension? extension).isSome

def tree : Language → String → Tree
  | python, source => parse Grammar.Python.grammar source
  | typescript, source => parse (Grammar.JavaScript.grammar true) source
  | javascript, source => parse (Grammar.JavaScript.grammar false) source
  | rust, source => parse Grammar.Rust.grammar source
  | go, source => parse Grammar.Go.grammar source
  | cpp, source => parse Grammar.Cpp.grammar source

end Language

end Marginalia
