/-! Painted text: text between the codes that turn a paint on and off. -/

namespace Marginalia.Terminal

inductive Paint where
  | bold
  | dimmed
  | red
  | yellow
  | cyan
  | brightGreen
  | brightBlue
  deriving DecidableEq, Repr

namespace Paint

/-- The numbers that turn a paint on and off. Colours are turned off together, and so are weights. -/
def codes : Paint → String × String
  | bold => ("1", "0")
  | dimmed => ("2", "0")
  | red => ("31", "39")
  | yellow => ("33", "39")
  | cyan => ("36", "39")
  | brightGreen => ("92", "39")
  | brightBlue => ("94", "39")

def code (number : String) : String := "\x1b[" ++ number ++ "m"

def on (paint : Paint) (text : String) : String :=
  code paint.codes.1 ++ text ++ code paint.codes.2

end Paint

def title (paint : Paint) (text : String) : String := Paint.bold.on (paint.on text)

end Marginalia.Terminal
