import Marginalia.Likeness.Jaccard
import Mathlib.Data.Finset.Card
import Mathlib.Data.Rat.Init

/-! The Jaccard index of two finite sets, and that lists without repetitions compute it. -/

namespace Marginalia

variable {τ : Type} [DecidableEq τ]

/-- Shared members over all members; two empty sets are alike. -/
def setLikeness (a b : Finset τ) : Rat :=
  if a ∪ b = ∅ then 1 else ((a ∩ b).card : Rat) / ((a ∪ b).card : Rat)

theorem setLikeness_comm (a b : Finset τ) : setLikeness a b = setLikeness b a := by
  rw [setLikeness, setLikeness, Finset.union_comm, Finset.inter_comm]

theorem card_inter_toFinset {a b : List τ} (ha : a.Nodup) :
    (a.toFinset ∩ b.toFinset).card = shared a b := by
  have hfilter : a.toFinset ∩ b.toFinset = (a.filter fun x => b.contains x).toFinset := by
    ext x
    simp
  rw [hfilter, List.toFinset_card_of_nodup (ha.filter _), shared]

theorem card_union_toFinset {a b : List τ} (ha : a.Nodup) (hb : b.Nodup) :
    (a.toFinset ∪ b.toFinset).card = a.length + b.length - shared a b := by
  rw [Finset.card_union, List.toFinset_card_of_nodup ha, List.toFinset_card_of_nodup hb,
    card_inter_toFinset ha]

theorem jaccard_eq_setLikeness {a b : List τ} (ha : a.Nodup) (hb : b.Nodup) :
    (jaccard a b : Rat) = setLikeness a.toFinset b.toFinset := by
  have hempty : (a.isEmpty && b.isEmpty) = true ↔ a.toFinset ∪ b.toFinset = ∅ := by
    simp [Finset.union_eq_empty]
  rw [jaccard, setLikeness]
  by_cases h : a.toFinset ∪ b.toFinset = ∅
  · rw [if_pos (hempty.2 h), if_pos h]
    rfl
  · rw [if_neg (mt hempty.1 h), if_neg h, card_inter_toFinset ha, card_union_toFinset ha hb]
    rfl

end Marginalia
