/-! Values of documents: what a settings file or a report holds, whatever its notation. -/

namespace Marginalia.Document

/-- A value, with numbers that are not whole in `α`. -/
inductive Value (α : Type) where
  | null
  | bool (b : Bool)
  | integer (n : Int)
  | decimal (x : α)
  | text (s : String)
  | list (items : List (Value α))
  | mapping (entries : List (Value α × Value α))
  | tagged (tag : String) (value : Value α)
  deriving BEq, Repr

namespace Value

variable {α : Type}

def nat (n : Nat) : Value α := integer (n : Int)

def record (entries : List (String × Value α)) : Value α :=
  mapping (entries.map fun (name, value) => (text name, value))

def untagged : Value α → Value α
  | tagged _ value => value.untagged
  | value => value

def isNull : Value α → Bool
  | null => true
  | _ => false

/-- The first value under a key. -/
def get? (key : String) : Value α → Option (Value α)
  | mapping entries => entries.findSome? fun (name, value) =>
      match name with
      | text s => if s == key then some value else none
      | _ => none
  | _ => none

end Value

end Marginalia.Document
