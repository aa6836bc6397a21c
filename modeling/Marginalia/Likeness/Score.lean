/-! Numbers that measure likeness. The program measures in doubles; read with rationals, the same
definitions are exact. -/

namespace Marginalia

/-- Numbers with the operations that measuring needs. -/
class Score (α : Type) extends Add α, Sub α, Mul α, Div α, LE α, LT α, NatCast α, OfScientific α where
  decideLe : DecidableLE α
  decideLt : DecidableLT α

instance decidableLe {α : Type} [Score α] : DecidableLE α := Score.decideLe

instance decidableLt {α : Type} [Score α] : DecidableLT α := Score.decideLt

instance : Score Float where
  natCast := Float.ofNat
  decideLe := inferInstance
  decideLt := inferInstance

instance : Score Rat where
  decideLe := inferInstance
  decideLt := inferInstance

namespace Score

variable {α : Type} [Score α]

def ratio (part whole : Nat) : α := (part : α) / (whole : α)

def zero : α := ((0 : Nat) : α)

def one : α := ((1 : Nat) : α)

def least (x y : α) : α := if y < x then y else x

def clamp (x low high : α) : α := if x < low then low else if high < x then high else x

end Score

end Marginalia
