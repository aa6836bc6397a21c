import Marginalia.Proofs.Sequence
import Marginalia.Text.Search
import Mathlib.Data.List.Sort

/-! What is asked of a search for several patterns, and that the search of the library does it:
every occurrence is found once, by its end and at one end the longer first. -/

namespace Marginalia.Text

/-- A pattern stands in a text after so many bytes. -/
def OccursAt (pattern text : List UInt8) (start : Nat) : Prop :=
  ∃ before after, text = before ++ pattern ++ after ∧ before.length = start

/-- Patterns that can be told apart by where they occur. -/
structure Distinct (patterns : List (List UInt8)) : Prop where
  nodup : patterns.Nodup
  nonempty : [] ∉ patterns

/-- Occurrences in the order of their ends, at one end the longer first. -/
def Occurrence.Before (o p : Occurrence) : Prop :=
  o.stop < p.stop ∨ (o.stop = p.stop ∧ o.start < p.start)

/-- A search finds every occurrence of every pattern, and nothing else, once and in order. -/
structure Complete (search : Search) : Prop where
  mem_iff : ∀ {patterns : List (List UInt8)}, Distinct patterns → ∀ text o,
    o ∈ search patterns text ↔ ∃ pattern, patterns[o.pattern]? = some pattern ∧
      OccursAt pattern text o.start ∧ o.stop = o.start + pattern.length
  ordered : ∀ {patterns : List (List UInt8)}, Distinct patterns → ∀ text,
    (search patterns text).Pairwise Occurrence.Before

theorem mem_endingAt {reversed : List (List UInt8 × Nat)} {read : List UInt8} {o : Occurrence} :
    o ∈ endingAt reversed read ↔ ∃ pattern number, (pattern, number) ∈ reversed ∧
      pattern <+: read ∧ o = ⟨number, read.length - pattern.length, read.length⟩ := by
  simp only [endingAt, List.mem_map, List.mem_mergeSort, List.mem_filter, Prod.exists,
    List.isPrefixOf_iff_prefix]
  constructor
  · rintro ⟨pattern, number, ⟨hmem, hprefix⟩, rfl⟩
    exact ⟨pattern, number, hmem, hprefix, rfl⟩
  · rintro ⟨pattern, number, hmem, hprefix, rfl⟩
    exact ⟨pattern, number, ⟨hmem, hprefix⟩, rfl⟩

theorem mem_occurrencesAfter {reversed : List (List UInt8 × Nat)} {read rest : List UInt8}
    {o : Occurrence} : o ∈ occurrencesAfter reversed read rest ↔
      ∃ done left, done ≠ [] ∧ rest = done ++ left ∧
        o ∈ endingAt reversed (done.reverse ++ read) := by
  induction rest generalizing read with
  | nil =>
    simp only [occurrencesAfter, List.not_mem_nil, false_iff]
    rintro ⟨done, left, hne, hrest, -⟩
    exact hne (List.append_eq_nil_iff.1 hrest.symm).1
  | cons byte rest ih =>
    rw [occurrencesAfter, List.mem_append, ih]
    constructor
    · rintro (h | ⟨done, left, hne, rfl, h⟩)
      · exact ⟨[byte], rest, by simp, rfl, h⟩
      · exact ⟨byte :: done, left, by simp, rfl, by simpa using h⟩
    · rintro ⟨done, left, hne, hrest, h⟩
      cases done with
      | nil => exact absurd rfl hne
      | cons b done =>
        obtain ⟨rfl, rfl⟩ := List.cons.inj hrest
        by_cases hdone : done = []
        · subst hdone
          exact .inl h
        · exact .inr ⟨done, left, hdone, rfl, by simpa using h⟩

theorem stop_of_mem_endingAt {reversed : List (List UInt8 × Nat)} {read : List UInt8}
    {o : Occurrence} (h : o ∈ endingAt reversed read) : o.stop = read.length := by
  obtain ⟨-, -, -, -, rfl⟩ := mem_endingAt.1 h
  rfl

theorem lt_stop_of_mem_occurrencesAfter {reversed : List (List UInt8 × Nat)}
    {read rest : List UInt8} {o : Occurrence} (h : o ∈ occurrencesAfter reversed read rest) :
    read.length < o.stop := by
  obtain ⟨done, left, hne, -, h⟩ := mem_occurrencesAfter.1 h
  rw [stop_of_mem_endingAt h, List.length_append, List.length_reverse]
  have := List.length_pos_iff.2 hne
  omega

/-- Of two different patterns that end at one place one is longer. -/
theorem pairwise_endingAt {reversed : List (List UInt8 × Nat)}
    (hreversed : reversed.Pairwise fun p q => p.1 ≠ q.1) (read : List UInt8) :
    (endingAt reversed read).Pairwise Occurrence.Before := by
  let kept := reversed.filter fun p => p.1.isPrefixOf read
  let sorted := kept.mergeSort fun p q => q.1.length ≤ p.1.length
  have hdistinct : sorted.Pairwise fun p q => p.1 ≠ q.1 :=
    ((List.mergeSort_perm kept _).pairwise_iff fun h => Ne.symm h).2 (hreversed.filter _)
  have hsorted : sorted.Pairwise fun p q => q.1.length ≤ p.1.length :=
    List.pairwise_mergeSort' (fun p q => q.1.length ≤ p.1.length) kept
  have hprefix : ∀ p ∈ sorted, p.1 <+: read := by
    intro p hp
    have hkept : p ∈ kept := List.mem_mergeSort.1 hp
    exact List.isPrefixOf_iff_prefix.1 (List.mem_filter.1 hkept).2
  refine List.pairwise_map.2 ((hdistinct.and hsorted).imp_of_mem ?_)
  rintro ⟨p, i⟩ ⟨q, j⟩ hp hq ⟨hne, hle⟩
  have hpread : p <+: read := hprefix _ hp
  have hqread : q <+: read := hprefix _ hq
  have hle : q.length ≤ p.length := hle
  -- Both end the same text, so at equal length they would be the same pattern.
  have hlt : q.length < p.length := by
    refine Nat.lt_of_le_of_ne hle fun heq => hne ?_
    exact (List.prefix_of_prefix_length_le hpread hqread (by omega)).eq_of_length heq.symm
  refine .inr ⟨rfl, ?_⟩
  have := hpread.length_le
  show read.length - p.length < read.length - q.length
  omega

theorem pairwise_occurrencesAfter {reversed : List (List UInt8 × Nat)}
    (hreversed : reversed.Pairwise fun p q => p.1 ≠ q.1) (read rest : List UInt8) :
    (occurrencesAfter reversed read rest).Pairwise Occurrence.Before := by
  induction rest generalizing read with
  | nil => exact .nil
  | cons byte rest ih =>
    rw [occurrencesAfter, List.pairwise_append]
    refine ⟨pairwise_endingAt hreversed _, ih _, fun o ho p hp => .inl ?_⟩
    rw [stop_of_mem_endingAt ho]
    exact lt_stop_of_mem_occurrencesAfter hp

/-- The patterns that end what was read are those that occur where it ends. -/
theorem occursAt_iff_of_length {pattern text : List UInt8} {start : Nat} :
    OccursAt pattern text start ↔ ∃ done left, text = done ++ left ∧ pattern <:+ done ∧
      done.length = start + pattern.length := by
  constructor
  · rintro ⟨before, after, rfl, rfl⟩
    exact ⟨before ++ pattern, after, rfl, List.suffix_append before pattern, by simp⟩
  · rintro ⟨done, left, rfl, ⟨before, rfl⟩, hlength⟩
    exact ⟨before, left, rfl, by simpa using hlength⟩

theorem occurrences_complete : Complete occurrences where
  mem_iff := by
    intro patterns hpatterns text o
    rw [occurrences, mem_occurrencesAfter]
    simp only [mem_endingAt, List.append_nil, List.mem_map, Prod.exists, Prod.mk.injEq,
      List.mem_zipIdx_iff_getElem?]
    constructor
    · rintro ⟨done, left, -, rfl, _, number, ⟨pattern, _, hmem, rfl, rfl⟩, hprefix, rfl⟩
      have hsuffix : pattern <:+ done := List.reverse_prefix.1 hprefix
      have hle := hsuffix.length_le
      refine ⟨pattern, hmem, ?_, ?_⟩
      · refine occursAt_iff_of_length.2 ⟨done, left, rfl, hsuffix, ?_⟩
        simp only [List.length_reverse]
        omega
      · simp only [List.length_reverse]
        omega
    · obtain ⟨number, start, stop⟩ := o
      rintro ⟨pattern, hpattern, hoccurs, hstop⟩
      obtain ⟨done, left, rfl, hsuffix, hlength⟩ := occursAt_iff_of_length.1 hoccurs
      have hne : pattern ≠ [] := by
        rintro rfl
        exact hpatterns.nonempty (List.mem_of_getElem? hpattern)
      refine ⟨done, left, ?_, rfl, pattern.reverse, number, ⟨pattern, number, hpattern, rfl, rfl⟩,
        List.reverse_prefix.2 hsuffix, ?_⟩
      · rintro rfl
        exact hne (List.suffix_nil.1 hsuffix)
      · simp only [List.length_reverse, Occurrence.mk.injEq, true_and]
        simp only at hstop hlength
        omega
  ordered := by
    intro patterns hpatterns text
    have hnumbered : patterns.zipIdx.Pairwise fun p q => p.1 ≠ q.1 := by
      refine List.pairwise_map.1 ?_
      rw [List.zipIdx_map_fst]
      exact hpatterns.nodup
    refine pairwise_occurrencesAfter (List.pairwise_map.2 (hnumbered.imp ?_)) [] text
    intro p q hne
    exact fun h => hne (List.reverse_inj.1 h)

end Marginalia.Text
