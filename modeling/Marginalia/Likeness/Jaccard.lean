import Marginalia.Likeness.Score

/-! The Jaccard index of two sets. A set is a list in which nothing occurs twice. -/

namespace Marginalia

def shared {τ : Type} [BEq τ] (a b : List τ) : Nat := (a.filter fun x => b.contains x).length

/-- Shared members over all members; two empty sets are alike. -/
def jaccard {α : Type} [Score α] {τ : Type} [BEq τ] (a b : List τ) : α :=
  if a.isEmpty && b.isEmpty then Score.one
  else Score.ratio (shared a b) (a.length + b.length - shared a b)

end Marginalia
