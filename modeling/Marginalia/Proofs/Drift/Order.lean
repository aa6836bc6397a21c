import Marginalia.Drift.Detection
import Marginalia.Proofs.Sequence
import Mathlib.Data.List.Sort

/-! Places are totally ordered, and so are findings by their two places. -/

namespace Marginalia

open Std

namespace Place

instance : TransCmp order :=
  inferInstanceAs (TransCmp
    (compareLex (compareOn fileId) (compareLex (compareOn start) (compareOn stop))))

instance : Ord Place := ⟨order⟩

instance : TransOrd Place := inferInstanceAs (TransCmp order)

theorem order_eq_eq_iff {a b : Place} : order a b = .eq ↔ a = b := by
  rw [order, Ordering.then_eq_eq, Ordering.then_eq_eq, Std.compare_eq_iff_eq, Std.compare_eq_iff_eq,
    Std.compare_eq_iff_eq, Place.mk.injEq]

theorem le_total (a b : Place) : a.le b = true ∨ b.le a = true := by
  have hswap : order b a = (order a b).swap := OrientedCmp.eq_swap
  rw [le, le, hswap]
  cases order a b <;> simp

theorem order_eq_lt_of_le {a b : Place} (hle : a.le b = true) (hne : a ≠ b) : order a b = .lt := by
  rw [le] at hle
  cases horder : order a b with
  | lt => rfl
  | eq => exact absurd (order_eq_eq_iff.1 horder) hne
  | gt =>
    rw [horder] at hle
    cases hle

theorem le_antisymm {a b : Place} (hab : a.le b = true) (hba : b.le a = true) : a = b := by
  by_contra hne
  exact OrientedCmp.not_lt_of_lt (order_eq_lt_of_le hab hne) (order_eq_lt_of_le hba (Ne.symm hne))

end Place

namespace Drift

variable {α : Type}

/-- The order of findings, whose weak form sorts them. -/
def findingOrder (f g : Finding α) : Ordering :=
  (Place.order f.first g.first).then (Place.order f.second g.second)

instance : TransCmp (@findingOrder α) :=
  inferInstanceAs (TransCmp
    (compareLex (compareOn (@Finding.first α)) (compareOn (@Finding.second α))))

theorem findingOrder_eq_eq_iff {f g : Finding α} :
    findingOrder f g = .eq ↔ f.first = g.first ∧ f.second = g.second := by
  rw [findingOrder, Ordering.then_eq_eq, Place.order_eq_eq_iff, Place.order_eq_eq_iff]

/-- Findings of different places are in strict order when they are sorted. -/
theorem pairwise_mergeSort {findings : List (Finding α)}
    (h : findings.Pairwise fun f g => ¬(f.first = g.first ∧ f.second = g.second)) :
    (findings.mergeSort findingLe).Pairwise fun f g => findingOrder f g = .lt := by
  have hdistinct : (findings.mergeSort findingLe).Pairwise
      fun f g => ¬(f.first = g.first ∧ f.second = g.second) := by
    refine ((List.mergeSort_perm findings findingLe).pairwise_iff ?_).2 h
    intro f g hne heq
    exact hne ⟨heq.1.symm, heq.2.symm⟩
  have hsorted := pairwise_mergeSort_isLE findingOrder id findings
  refine (hdistinct.and hsorted).imp ?_
  rintro f g ⟨hne, hle⟩
  exact eq_lt_of_isLE hle (mt findingOrder_eq_eq_iff.1 hne)

/-- Findings in strict order are told by which they are. -/
theorem findings_ext {findings others : List (Finding α)}
    (h : findings.Pairwise fun f g => findingOrder f g = .lt)
    (hothers : others.Pairwise fun f g => findingOrder f g = .lt)
    (hmem : ∀ f, f ∈ findings ↔ f ∈ others) : findings = others := by
  have : Std.Irrefl fun f g : Finding α => findingOrder f g = .lt :=
    ⟨fun f hlt => by
      have heq : findingOrder f f = .eq := ReflCmp.compare_self
      rw [heq] at hlt
      cases hlt⟩
  have : Std.Antisymm fun f g : Finding α => findingOrder f g = .lt :=
    ⟨fun f g hfg hgf => absurd hgf (OrientedCmp.not_lt_of_lt hfg)⟩
  exact List.Pairwise.eq_of_mem_iff h hothers hmem

end Drift

end Marginalia
