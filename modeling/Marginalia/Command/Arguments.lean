/-! Arguments of a command line: named options, long or by one letter, and operands. -/

namespace Marginalia.Command

/-- Why no command is carried out. -/
inductive Stop where
  /-- The usage was asked for. -/
  | help
  /-- The version was asked for. -/
  | version
  /-- The command line is not understood. -/
  | misuse (message : String)
  deriving DecidableEq, Repr

inductive Takes where
  | nothing
  /-- A text that is not empty. -/
  | path
  /-- A number below a bound. -/
  | number (bound : Nat)
  | oneOf (names : List String)
  /-- Nothing; the option ends the reading. -/
  | quits (stop : Stop)

/-- An option: its long name, its letter, and what it takes. -/
structure Opt where
  name : String
  letter : Option Char
  takes : Takes

structure Usage where
  options : List Opt
  /-- How many operands there may be; `none` for any number. -/
  operandLimit : Option Nat
  /-- The names of options that must be given. -/
  required : List String

structure Given where
  switches : List String
  values : List (String × String)
  operands : List String
  deriving DecidableEq, Repr

namespace Given

def empty : Given := ⟨[], [], []⟩

def has (given : Given) (name : String) : Bool := given.switches.contains name

def value? (given : Given) (name : String) : Option String := given.values.lookup name

/-- Whether an option was given, with a value or without. -/
def mentions (given : Given) (name : String) : Bool :=
  given.has name || (given.value? name).isSome

end Given

/-- The digits of a number, after at most one plus sign. -/
def number? (text : String) : Option Nat :=
  let digits := match text.toList with
    | '+' :: rest => rest
    | rest => rest
  if digits.isEmpty || !digits.all Char.isDigit then none
  else some (digits.foldl (fun n c => n * 10 + (c.toNat - '0'.toNat)) 0)

def Takes.admits (takes : Takes) (text : String) : Bool :=
  match takes with
  | .nothing | .quits _ => false
  | .path => !text.isEmpty
  | .number bound => (number? text).any (· < bound)
  | .oneOf names => names.contains text

def unknown (text : String) : Stop := .misuse ("unexpected argument '" ++ text ++ "' found")

def missingValue (opt : Opt) : Stop :=
  .misuse ("a value is required for '--" ++ opt.name ++ "' but none was supplied")

def repeated (opt : Opt) : Stop :=
  .misuse ("the argument '--" ++ opt.name ++ "' cannot be used multiple times")

def switchOn (given : Given) (opt : Opt) : Except Stop Given :=
  match opt.takes with
  | .quits stop => .error stop
  | .nothing =>
    if given.mentions opt.name then .error (repeated opt)
    else .ok { given with switches := given.switches ++ [opt.name] }
  | _ => .error (missingValue opt)

def withValue (given : Given) (opt : Opt) (text : String) : Except Stop Given :=
  if !opt.takes.admits text then
    .error (.misuse ("invalid value '" ++ text ++ "' for '--" ++ opt.name ++ "'"))
  else if given.mentions opt.name then .error (repeated opt)
  else .ok { given with values := given.values ++ [(opt.name, text)] }

def withOperand (usage : Usage) (given : Given) (text : String) : Except Stop Given :=
  if text.isEmpty then .error (.misuse "a value is required but none was supplied")
  else if usage.operandLimit.any (· ≤ given.operands.length) then
    .error (unknown text)
  else .ok { given with operands := given.operands ++ [text] }

/-- What an argument amounts to by itself: it adds to what was given, or waits for its value. -/
inductive Progress where
  | settled (given : Given)
  | waiting (given : Given) (opt : Opt)

def Takes.takesNext : Takes → Bool
  | .nothing | .quits _ => false
  | _ => true

/-- Options by letters behind one hyphen. What follows the letter of an option that takes a value is
that value, with or without an equals sign. -/
def readLetters (usage : Usage) (given : Given) : List Char → Except Stop Progress
  | [] => .ok (.settled given)
  | c :: rest => do
    match usage.options.find? fun opt => opt.letter == some c with
    | none => .error (unknown ("-" ++ String.singleton c))
    | some opt =>
      if opt.takes.takesNext then
        match rest with
        | [] => .ok (.waiting given opt)
        | '=' :: text => .ok (.settled (← withValue given opt (String.ofList text)))
        | text => .ok (.settled (← withValue given opt (String.ofList text)))
      else readLetters usage (← switchOn given opt) rest

/-- An option by its long name, with its value after an equals sign or without. -/
def readLong (usage : Usage) (given : Given) (text : List Char) : Except Stop Progress := do
  let name := String.ofList (text.takeWhile (· != '='))
  match usage.options.find? (·.name == name), text.dropWhile (· != '=') with
  | none, _ => .error (unknown ("--" ++ name))
  | some opt, [] =>
    if opt.takes.takesNext then .ok (.waiting given opt)
    else .ok (.settled (← switchOn given opt))
  | some opt, _ :: value => .ok (.settled (← withValue given opt (String.ofList value)))

def readOption (usage : Usage) (given : Given) (text : String) : Except Stop Progress :=
  match text.toList with
  | '-' :: '-' :: long => readLong usage given long
  | letters => readLetters usage given letters.tail

/-- Whether an argument is an option rather than an operand or a value. -/
def isOption (text : String) : Bool := text.startsWith "-" && text != "-"

/-- Reads arguments after those given. After two hyphens all are operands. -/
def readFrom (usage : Usage) (given : Given) (onlyOperands : Bool) :
    List String → Except Stop Given
  | [] => .ok given
  | text :: rest => do
    if onlyOperands || !isOption text then
      readFrom usage (← withOperand usage given text) onlyOperands rest
    else if text = "--" then readFrom usage given true rest
    else
      match ← readOption usage given text, rest with
      | .settled given, rest => readFrom usage given false rest
      | .waiting given opt, value :: rest =>
        if isOption value then .error (missingValue opt)
        else readFrom usage (← withValue given opt value) false rest
      | .waiting _ opt, [] => .error (missingValue opt)

def Usage.read (usage : Usage) (texts : List String) : Except Stop Given := do
  let given ← readFrom usage .empty false texts
  match usage.required.find? fun name => !given.mentions name with
  | some name => .error (.misuse ("the argument '--" ++ name ++ "' is required"))
  | none => .ok given

/-- The operand with which a command line begins after its options, and what follows it. -/
def Usage.leading (usage : Usage) (given : Given) : List String →
    Except Stop (String × List String)
  | [] => .error (.misuse "a command is required")
  | text :: rest => do
    if !isOption text then .ok (text, rest)
    else if text = "--" then
      .error (match rest with
        | [] => .misuse "a command is required"
        | operand :: _ => unknown operand)
    else
      match ← readOption usage given text with
      | .settled given => usage.leading given rest
      | .waiting _ opt => .error (missingValue opt)

end Marginalia.Command
