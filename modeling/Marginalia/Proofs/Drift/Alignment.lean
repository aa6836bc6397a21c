import Marginalia.Drift.Detection
import Marginalia.Proofs.Drift.Groups

/-! Which comments are paired: members of two sites of one bucket. Their numbers serve to tell them
apart only, so comments numbered anew make the same pairs. -/

namespace Marginalia.Drift

variable {α : Type} [Score α] {threshold : α} {c d : Candidate α}
  {siteA siteB members : List (Candidate α)} {p : Comparison α}

/-! ### Pairs of members -/

theorem closestFrom_mem (c best : Candidate α) (others : List (Candidate α)) :
    closestFrom c best others ∈ best :: others := by
  induction others generalizing best with
  | nil => exact List.mem_cons_self
  | cons d rest ih =>
    rw [closestFrom]
    split
    · exact List.mem_cons_of_mem best (ih d)
    · rcases List.mem_cons.1 (ih best) with h | h
      · rw [h]
        exact List.mem_cons_self
      · exact List.mem_cons_of_mem _ (List.mem_cons_of_mem _ h)

theorem mem_of_closest? {others : List (Candidate α)} (h : closest? c others = some d) :
    d ∈ others := by
  cases others with
  | nil => cases h
  | cons e rest =>
    obtain rfl := Option.some.inj h
    exact closestFrom_mem c e rest

/-- Each comment of a site with the closest one of the other site, both ways. -/
def proposed (siteA siteB : List (Candidate α)) : List (Candidate α × Candidate α) :=
  (siteA.filterMap fun a => (closest? a siteB).map fun b => (a, b)) ++
    siteB.filterMap fun b => (closest? b siteA).map fun a => (a, b)

theorem aligned_eq (siteA siteB : List (Candidate α)) :
    aligned siteA siteB = (proposed siteA siteB).eraseDupsBy samePair := rfl

theorem mem_of_mem_proposed {p : Candidate α × Candidate α} (h : p ∈ proposed siteA siteB) :
    p.1 ∈ siteA ∧ p.2 ∈ siteB := by
  rcases List.mem_append.1 h with h | h
  · obtain ⟨a, ha, hp⟩ := List.mem_filterMap.1 h
    obtain ⟨b, hb, rfl⟩ := Option.map_eq_some_iff.1 hp
    exact ⟨ha, mem_of_closest? hb⟩
  · obtain ⟨b, hb, hp⟩ := List.mem_filterMap.1 h
    obtain ⟨a, ha, rfl⟩ := Option.map_eq_some_iff.1 hp
    exact ⟨mem_of_closest? ha, hb⟩

theorem mem_of_mem_aligned {p : Candidate α × Candidate α} (h : p ∈ aligned siteA siteB) :
    p.1 ∈ siteA ∧ p.2 ∈ siteB :=
  mem_of_mem_proposed (mem_of_mem_eraseDupsBy h)

theorem closest?_of_mem_aligned {p : Candidate α × Candidate α} (h : p ∈ aligned siteA siteB) :
    closest? p.1 siteB = some p.2 ∨ closest? p.2 siteA = some p.1 := by
  rcases List.mem_append.1 (mem_of_mem_eraseDupsBy h) with h | h
  · obtain ⟨a, -, hp⟩ := List.mem_filterMap.1 h
    obtain ⟨b, hb, rfl⟩ := Option.map_eq_some_iff.1 hp
    exact .inl hb
  · obtain ⟨b, -, hp⟩ := List.mem_filterMap.1 h
    obtain ⟨a, ha, rfl⟩ := Option.map_eq_some_iff.1 hp
    exact .inr ha

/-- What is compared are members of two sites whose first comments stand in different blocks. -/
theorem mem_of_mem_siteComparisons (h : p ∈ siteComparisons threshold siteA siteB) :
    p.left ∈ siteA ∧ p.right ∈ siteB ∧ ∃ x y, siteA.head? = some x ∧ siteB.head? = some y ∧
      x.judged.comment.sharesBlock y.judged.comment = false := by
  unfold siteComparisons at h
  split at h
  · next x _ y _ =>
    split at h
    · simp at h
    · next hshares =>
      split at h
      · simp at h
      · obtain ⟨pair, hpair, rfl⟩ := List.mem_map.1 h
        obtain ⟨hleft, hright⟩ := mem_of_mem_aligned hpair
        exact ⟨hleft, hright, x, y, rfl, rfl, Bool.eq_false_iff.2 hshares⟩
  · simp at h

/-- The sites that the comments of a comparison belong to. -/
theorem exists_sites_of_mem_bucketComparisons (h : p ∈ bucketComparisons threshold members) :
    ∃ s t, s ≠ t ∧ p.left ∈ havingKey Candidate.site members s ∧
      p.right ∈ havingKey Candidate.site members t ∧
      ∃ x y, (havingKey Candidate.site members s).head? = some x ∧
        (havingKey Candidate.site members t).head? = some y ∧
        x.judged.comment.sharesBlock y.judged.comment = false := by
  obtain ⟨⟨siteA, siteB⟩, hpair, hp⟩ := List.mem_flatMap.1 h
  obtain ⟨s, t, hne, heq⟩ := exists_keys_of_mem_pairs hpair
  obtain ⟨rfl, rfl⟩ := Prod.mk.inj heq
  exact ⟨s, t, hne, mem_of_mem_siteComparisons hp⟩

theorem mem_of_mem_bucketComparisons (h : p ∈ bucketComparisons threshold members) :
    p.left ∈ members ∧ p.right ∈ members := by
  obtain ⟨s, t, -, hleft, hright, -⟩ := exists_sites_of_mem_bucketComparisons h
  exact ⟨(mem_havingKey.1 hleft).1, (mem_havingKey.1 hright).1⟩

omit [Score α] in
theorem samePair_iff {p q : Candidate α × Candidate α} :
    samePair p q = true ↔ p.1.index = q.1.index ∧ p.2.index = q.2.index := by
  rw [samePair, Bool.and_eq_true, beq_iff_eq, beq_iff_eq]

omit [Score α] in
theorem sameComments_iff_indexes {p q : Comparison α} : sameComments p q = true ↔
    (q.left.index = p.left.index ∧ q.right.index = p.right.index) ∨
      (q.left.index = p.right.index ∧ q.right.index = p.left.index) := by
  simp only [sameComments, Bool.and_eq_true, beq_iff_eq]
  omega

/-! ### Comments numbered anew -/

/-- A candidate with another number in the place of its own. -/
def Candidate.renumber (number : Nat → Nat) (c : Candidate α) : Candidate α :=
  { c with index := number c.index }

/-- A comparison whose two comments have other numbers. -/
def Comparison.renumber (number : Nat → Nat) (p : Comparison α) : Comparison α :=
  { p with left := p.left.renumber number, right := p.right.renumber number }

/-- No two members get one number. -/
def KeepsApart (number : Nat → Nat) (members : List (Candidate α)) : Prop :=
  ∀ c ∈ members, ∀ d ∈ members, number c.index = number d.index → c.index = d.index

variable {number : Nat → Nat}

omit [Score α] in
theorem KeepsApart.subset {others : List (Candidate α)} (h : KeepsApart number members)
    (hsub : ∀ c ∈ others, c ∈ members) : KeepsApart number others :=
  fun c hc d hd => h c (hsub c hc) d (hsub d hd)

omit [Score α] in
theorem KeepsApart.iff (h : KeepsApart number members) (hc : c ∈ members) (hd : d ∈ members) :
    number c.index = number d.index ↔ c.index = d.index :=
  ⟨h c hc d hd, fun heq => heq ▸ rfl⟩

theorem closestFrom_renumber (c best : Candidate α) (others : List (Candidate α)) :
    closestFrom (c.renumber number) (best.renumber number) (others.map (·.renumber number)) =
      (closestFrom c best others).renumber number := by
  induction others generalizing best with
  | nil => rfl
  | cons d rest ih =>
    rw [List.map_cons, closestFrom, closestFrom, ← ih, apply_ite (Candidate.renumber number)]
    rfl

theorem closest?_renumber (c : Candidate α) (others : List (Candidate α)) :
    closest? (c.renumber number) (others.map (·.renumber number)) =
      (closest? c others).map (·.renumber number) := by
  cases others with
  | nil => rfl
  | cons d rest => exact congrArg some (closestFrom_renumber c d rest)

theorem proposed_renumber (siteA siteB : List (Candidate α)) :
    proposed (siteA.map (·.renumber number)) (siteB.map (·.renumber number)) =
      (proposed siteA siteB).map (Prod.map (·.renumber number) (·.renumber number)) := by
  simp only [proposed, List.filterMap_map, List.map_append, List.map_filterMap, Function.comp_def,
    closest?_renumber, Option.map_map, Prod.map]

theorem aligned_renumber (hnumber : KeepsApart number members) (hA : ∀ c ∈ siteA, c ∈ members)
    (hB : ∀ c ∈ siteB, c ∈ members) :
    aligned (siteA.map (·.renumber number)) (siteB.map (·.renumber number)) =
      (aligned siteA siteB).map (Prod.map (·.renumber number) (·.renumber number)) := by
  rw [aligned_eq, aligned_eq, proposed_renumber, eraseDupsBy_map]
  intro p hp q hq
  obtain ⟨hp1, hp2⟩ := mem_of_mem_proposed hp
  obtain ⟨hq1, hq2⟩ := mem_of_mem_proposed hq
  rw [Bool.eq_iff_iff, samePair_iff, samePair_iff]
  exact and_congr (hnumber.iff (hA _ hp1) (hA _ hq1)) (hnumber.iff (hB _ hp2) (hB _ hq2))

theorem siteComparisons_renumber (hnumber : KeepsApart number members)
    (hA : ∀ c ∈ siteA, c ∈ members) (hB : ∀ c ∈ siteB, c ∈ members) :
    siteComparisons threshold (siteA.map (·.renumber number)) (siteB.map (·.renumber number)) =
      (siteComparisons threshold siteA siteB).map (·.renumber number) := by
  have haligned := aligned_renumber hnumber hA hB
  cases siteA with
  | nil => rfl
  | cons a restA =>
    cases siteB with
    | nil => rfl
    | cons b restB =>
      have hshares : (a.renumber number).judged.comment.sharesBlock
        (b.renumber number).judged.comment = a.judged.comment.sharesBlock b.judged.comment := rfl
      have hcode : codeLikeness threshold (a.renumber number) (b.renumber number) =
        codeLikeness threshold a b := rfl
      simp only [List.map_cons] at haligned
      simp only [siteComparisons, List.map_cons, hshares, hcode, haligned]
      by_cases h : a.judged.comment.sharesBlock b.judged.comment = true
      · rw [if_pos h, if_pos h, List.map_nil]
      · rw [if_neg h, if_neg h]
        cases codeLikeness threshold a b with
        | none => rfl
        | some likeness =>
          simp only [List.map_map]
          rfl

theorem bucketComparisons_renumber (hnumber : KeepsApart number members) :
    bucketComparisons threshold (members.map (·.renumber number)) =
      (bucketComparisons threshold members).map (·.renumber number) := by
  have hsites : (grouped Candidate.site (members.map (·.renumber number))).map (·.2) =
      ((grouped Candidate.site members).map (·.2)).map (List.map (·.renumber number)) := by
    rw [grouped_map, List.map_map, List.map_map]
    rfl
  rw [bucketComparisons, bucketComparisons, hsites, pairs_map, List.flatMap_map, List.map_flatMap]
  refine List.flatMap_congr fun p hp => ?_
  obtain ⟨s, t, -, rfl⟩ := exists_keys_of_mem_pairs hp
  exact siteComparisons_renumber hnumber (fun c hc => (mem_havingKey.1 hc).1)
    fun c hc => (mem_havingKey.1 hc).1

omit [Score α] in
theorem eraseDupsBy_renumber {comparisons : List (Comparison α)}
    (hnumber : KeepsApart number members)
    (hmem : ∀ p ∈ comparisons, p.left ∈ members ∧ p.right ∈ members) :
    (comparisons.map (·.renumber number)).eraseDupsBy sameComments =
      (comparisons.eraseDupsBy sameComments).map (·.renumber number) := by
  refine eraseDupsBy_map fun p hp q hq => ?_
  obtain ⟨hp1, hp2⟩ := hmem p hp
  obtain ⟨hq1, hq2⟩ := hmem q hq
  rw [Bool.eq_iff_iff, sameComments_iff_indexes, sameComments_iff_indexes]
  exact or_congr (and_congr (hnumber.iff hq1 hp1) (hnumber.iff hq2 hp2))
    (and_congr (hnumber.iff hq1 hp2) (hnumber.iff hq2 hp1))

end Marginalia.Drift
