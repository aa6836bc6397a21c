import Marginalia.Proofs.Drift.Alignment
import Marginalia.Proofs.Drift.Candidates
import Marginalia.Proofs.Drift.Order

/-! The findings of a list of comments are those of its buckets, each taken by itself: what is found
in a bucket depends on the comments of the bucket and on nothing else. -/

namespace Marginalia.Drift

open Marginalia.Spelling

variable {α : Type} {dictionary : Dictionary} {comments : List (Judged α)} {bucket : UInt64}

/-! ### Comments by their buckets -/

/-- The bucket of a comment, if it documents code. -/
def bucket? (judged : Judged α) : Option UInt64 :=
  let tokens := Code.normalTokens judged.comment.code
  if tokens.isEmpty then none else some (Digest.ofText (bucketText tokens))

/-- The code site of a comment: its file and where the line that it documents begins. -/
def siteOf (judged : Judged α) : String × Nat := (judged.comment.fileId, judged.comment.anchor)

/-- The block of a comment: its file and where the block that it stands in begins. -/
def blockOf (judged : Judged α) : String × Nat :=
  (judged.comment.fileId, judged.comment.context.2)

theorem sharesBlock_iff {j k : Judged α} :
    j.comment.sharesBlock k.comment = true ↔ blockOf j = blockOf k := by
  rw [Comment.sharesBlock, Bool.and_eq_true, beq_iff_eq, beq_iff_eq, blockOf, blockOf,
    Prod.mk.injEq]

/-- The comments of a bucket, in their order. -/
def inBucket (comments : List (Judged α)) (bucket : UInt64) : List (Judged α) :=
  comments.filter fun judged => bucket? judged == some bucket

/-- The buckets of some comments, in the order of their first comments. -/
def bucketsOf (comments : List (Judged α)) : List UInt64 := (comments.filterMap bucket?).eraseDups

theorem mem_inBucket {judged : Judged α} :
    judged ∈ inBucket comments bucket ↔ judged ∈ comments ∧ bucket? judged = some bucket := by
  rw [inBucket, List.mem_filter, beq_iff_eq]

theorem mem_bucketsOf_iff :
    bucket ∈ bucketsOf comments ↔ ∃ judged ∈ comments, bucket? judged = some bucket := by
  rw [bucketsOf, List.mem_eraseDups, List.mem_filterMap]

theorem mem_bucketsOf : bucket ∈ bucketsOf comments ↔ inBucket comments bucket ≠ [] := by
  rw [mem_bucketsOf_iff, ← List.isEmpty_eq_false_iff, List.isEmpty_eq_false_iff_exists_mem]
  exact exists_congr fun judged => mem_inBucket.symm

theorem inBucket_inBucket :
    inBucket (inBucket comments bucket) bucket = inBucket comments bucket := by
  rw [inBucket, inBucket, List.filter_filter]
  simp only [Bool.and_self]

theorem inBucket_inBucket_of_ne {other : UInt64} (h : bucket ≠ other) :
    inBucket (inBucket comments bucket) other = [] := by
  refine List.filter_eq_nil_iff.2 fun judged hjudged hother => h ?_
  have hbucket := (mem_inBucket.1 hjudged).2
  rw [beq_iff_eq, hbucket] at hother
  exact Option.some.inj hother

theorem bucket?_eq (dictionary : Dictionary) (judged : Judged α) (index : Nat) : bucket? judged =
    if (Candidate.ofJudged dictionary judged index).lineTokens.isEmpty then none
    else some (Candidate.ofJudged dictionary judged index).bucket := by
  rw [bucket?, Candidate.ofJudged]

theorem bucket?_eq_some_iff {judged : Judged α} (dictionary : Dictionary) (index : Nat) :
    bucket? judged = some bucket ↔
      (Candidate.ofJudged dictionary judged index).lineTokens.isEmpty = false ∧
        (Candidate.ofJudged dictionary judged index).bucket = bucket := by
  rw [bucket?_eq dictionary judged index]
  split
  · next hempty => rw [hempty]; simp
  · next hfull => rw [Bool.not_eq_true] at hfull; rw [hfull]; simp

theorem bucket_of_mem {c : Candidate α} (h : c ∈ candidates dictionary comments) :
    bucket? c.judged = some c.bucket := by
  rw [bucket?_eq_some_iff dictionary c.index, ← ofJudged_of_mem h]
  exact ⟨List.isEmpty_eq_false_iff.2 (lineTokens_ne_nil_of_mem h), rfl⟩

/-- The candidates of a bucket are the comments of the bucket with their numbers. -/
theorem havingKey_candidates : havingKey Candidate.bucket (candidates dictionary comments) bucket =
    (comments.zipIdx.filter fun p => bucket? p.1 == some bucket).map
      fun p => Candidate.ofJudged dictionary p.1 p.2 := by
  rw [havingKey, candidates, List.filter_filter, List.filter_map]
  refine congrArg _ (List.filter_congr fun p _ => ?_)
  rw [Bool.eq_iff_iff, beq_iff_eq, bucket?_eq_some_iff dictionary p.2]
  simp [and_comm]

theorem map_fst_filter_zipIdx :
    (comments.zipIdx.filter fun p => bucket? p.1 == some bucket).map Prod.fst =
      inBucket comments bucket := by
  have hfilter := List.filter_map (f := Prod.fst) (l := comments.zipIdx)
    (p := fun judged => bucket? judged == some bucket)
  rw [List.zipIdx_map_fst] at hfilter
  exact hfilter.symm

/-- The comments of a bucket, without their numbers. -/
theorem map_judged_havingKey (dictionary : Dictionary) :
    (havingKey Candidate.bucket (candidates dictionary comments) bucket).map Candidate.judged =
      inBucket comments bucket := by
  rw [havingKey_candidates, List.map_map, ← map_fst_filter_zipIdx]
  rfl

theorem length_havingKey_candidates (dictionary : Dictionary) :
    (havingKey Candidate.bucket (candidates dictionary comments) bucket).length =
      (inBucket comments bucket).length := by
  rw [← map_judged_havingKey dictionary, List.length_map]

theorem map_bucket_candidates :
    (candidates dictionary comments).map Candidate.bucket = comments.filterMap bucket? := by
  rw [candidates]
  generalize 0 = start
  induction comments generalizing start with
  | nil => rfl
  | cons judged rest ih =>
    have hhead := bucket?_eq dictionary judged start
    rw [List.zipIdx_cons, List.map_cons]
    cases hempty : (Candidate.ofJudged dictionary judged start).lineTokens.isEmpty with
    | true =>
      rw [hempty] at hhead
      rw [List.filter_cons_of_neg (by rw [hempty]; decide), List.filterMap_cons_none hhead, ih]
    | false =>
      rw [hempty] at hhead
      rw [List.filter_cons_of_pos (by rw [hempty]; decide), List.filterMap_cons_some hhead,
        List.map_cons, ih]

theorem candidates_inBucket : candidates dictionary (inBucket comments bucket) =
    (inBucket comments bucket).zipIdx.map fun p => Candidate.ofJudged dictionary p.1 p.2 := by
  refine List.filter_eq_self.2 fun c hc => ?_
  obtain ⟨⟨judged, index⟩, hjudged, rfl⟩ := List.mem_map.1 hc
  have hmem : judged ∈ inBucket comments bucket :=
    List.mem_of_getElem? (List.mem_zipIdx_iff_getElem?.1 hjudged)
  rw [((bucket?_eq_some_iff dictionary index).1 (mem_inBucket.1 hmem).2).1]
  rfl

/-- Numbered comments are numbered in order, and then anew. -/
theorem exists_number (dictionary : Dictionary) (numbered : List (Judged α × Nat))
    (hnodup : (numbered.map Prod.snd).Nodup) :
    ∃ number : Nat → Nat,
      (numbered.map fun p => Candidate.ofJudged dictionary p.1 p.2) =
        ((numbered.map Prod.fst).zipIdx.map fun p => Candidate.ofJudged dictionary p.1 p.2).map
          (·.renumber number) ∧
      KeepsApart number
        ((numbered.map Prod.fst).zipIdx.map fun p => Candidate.ofJudged dictionary p.1 p.2) := by
  have hindex : ∀ c ∈ (numbered.map Prod.fst).zipIdx.map fun p =>
      Candidate.ofJudged dictionary p.1 p.2, c.index < (numbered.map Prod.snd).length := by
    intro c hc
    obtain ⟨p, hp, rfl⟩ := List.mem_map.1 hc
    have hlt := (List.mem_zipIdx' hp).1
    rw [List.length_map] at hlt ⊢
    exact hlt
  refine ⟨fun i => (numbered.map Prod.snd).getD i 0, ?_, ?_⟩
  · refine List.ext_getElem (by simp) fun i hi hi' => ?_
    have hlt : i < numbered.length := by simpa using hi
    simp [Candidate.renumber, Candidate.ofJudged, hlt]
  · intro c hc d hd heq
    refine (List.getElem?_inj (hindex c hc) hnodup).1 ?_
    rw [List.getElem?_eq_getElem (hindex c hc), List.getElem?_eq_getElem (hindex d hd)]
    simp only [List.getD_eq_getElem?_getD, List.getElem?_eq_getElem (hindex c hc),
      List.getElem?_eq_getElem (hindex d hd), Option.getD_some] at heq
    rw [heq]

theorem nodup_numbers (keep : Judged α × Nat → Bool) :
    ((comments.zipIdx.filter keep).map Prod.snd).Nodup := by
  have hall : (comments.zipIdx.map Prod.snd).Nodup := by
    rw [List.zipIdx_map_snd]
    exact List.nodup_range'
  exact hall.sublist (List.filter_sublist.map _)

/-! ### Findings of a bucket -/

section Findings

variable [Score α] {settings : DriftSettings α} {f : Finding α}

/-- What is found among the comments of a bucket, of which only the first are compared. -/
def bucketFindings (settings : DriftSettings α) (dictionary : Dictionary)
    (members : List (Judged α)) : List (Finding α) :=
  ((bucketComparisons settings.codeThreshold
    ((candidates dictionary members).take settings.bucketLimit)).eraseDupsBy sameComments).filterMap
      (finding? settings.commentThreshold)

/-- What is found in a bucket does not depend on the comments of others. -/
theorem bucketFindings_eq : bucketFindings settings dictionary (inBucket comments bucket) =
    ((bucketComparisons settings.codeThreshold
      ((havingKey Candidate.bucket (candidates dictionary comments) bucket).take
        settings.bucketLimit)).eraseDupsBy sameComments).filterMap
          (finding? settings.commentThreshold) := by
  obtain ⟨number, heq, happart⟩ := exists_number dictionary
    (comments.zipIdx.filter fun p => bucket? p.1 == some bucket) (nodup_numbers _)
  rw [map_fst_filter_zipIdx, ← candidates_inBucket] at heq happart
  have htake := happart.subset fun c hc => List.mem_of_mem_take (i := settings.bucketLimit) hc
  rw [bucketFindings, havingKey_candidates, heq, ← List.map_take, bucketComparisons_renumber htake,
    eraseDupsBy_renumber htake fun p hp => mem_of_mem_bucketComparisons hp, List.filterMap_map]
  rfl

theorem mem_of_mem_bucket {threshold : α} {limit : Nat} {p : Comparison α}
    (h : p ∈ bucketComparisons threshold
      ((havingKey Candidate.bucket (candidates dictionary comments) bucket).take limit)) :
    (p.left ∈ candidates dictionary comments ∧ p.left.bucket = bucket) ∧
      p.right ∈ candidates dictionary comments ∧ p.right.bucket = bucket := by
  obtain ⟨hleft, hright⟩ := mem_of_mem_bucketComparisons h
  exact ⟨mem_havingKey.1 (List.mem_of_mem_take hleft),
    mem_havingKey.1 (List.mem_of_mem_take hright)⟩

theorem mem_of_mem_comparisons {threshold : α} {limit : Nat} {p : Comparison α}
    (h : p ∈ comparisons threshold limit
      (grouped Candidate.bucket (candidates dictionary comments))) :
    p.left ∈ candidates dictionary comments ∧ p.right ∈ candidates dictionary comments := by
  obtain ⟨⟨bucket, members⟩, hgroup, hp⟩ := List.mem_flatMap.1 (mem_of_mem_eraseDupsBy h)
  obtain ⟨-, hmembers⟩ := mem_grouped_iff.1 hgroup
  simp only at hmembers hp
  subst hmembers
  obtain ⟨⟨hleft, -⟩, hright, -⟩ := mem_of_mem_bucket hp
  exact ⟨hleft, hright⟩

/-- What is found in some comments is found in their buckets, and put in order. -/
theorem findings_eq_flatMap (henabled : settings.enabled = true) :
    (detect settings dictionary comments).findings = ((bucketsOf comments).flatMap fun bucket =>
      bucketFindings settings dictionary (inBucket comments bucket)).mergeSort findingLe := by
  rw [detect, if_pos henabled]
  simp only [comparisons, grouped, map_bucket_candidates, bucketFindings_eq]
  rw [List.flatMap_map, eraseDupsBy_flatMap, List.filterMap_flatMap]
  · rfl
  · refine (nodup_eraseDups _).imp ?_
    intro a b hne p hp q hq
    obtain ⟨hpl, hpr⟩ := mem_of_mem_bucket hp
    obtain ⟨hql, -⟩ := mem_of_mem_bucket hq
    rw [← Bool.not_eq_true, sameComments_iff_indexes]
    rintro (⟨hindex, -⟩ | ⟨-, hindex⟩)
    · exact hne (hpl.2.symm.trans (eq_of_index_eq hpl.1 hql.1 hindex ▸ hql.2))
    · exact hne (hpr.2.symm.trans (eq_of_index_eq hpr.1 hql.1 hindex ▸ hql.2))

theorem bucketFindings_nil : bucketFindings settings dictionary [] = [] := by
  simp [bucketFindings, candidates, bucketComparisons, grouped, pairs]

theorem mem_findings_iff (henabled : settings.enabled = true) :
    f ∈ (detect settings dictionary comments).findings ↔
      ∃ bucket, f ∈ bucketFindings settings dictionary (inBucket comments bucket) := by
  rw [findings_eq_flatMap henabled, List.mem_mergeSort, List.mem_flatMap]
  refine ⟨fun ⟨bucket, _, hf⟩ => ⟨bucket, hf⟩, fun ⟨bucket, hf⟩ => ⟨bucket, ?_, hf⟩⟩
  rw [mem_bucketsOf]
  intro hnil
  rw [hnil, bucketFindings_nil] at hf
  simp at hf

/-! ### Findings in order -/

theorem places_of_finding? {threshold : α} {p : Comparison α}
    (h : finding? threshold p = some f) :
    (f.first = p.left.place ∧ f.second = p.right.place) ∨
      (f.first = p.right.place ∧ f.second = p.left.place) := by
  unfold finding? at h
  extract_lets a b likeness inOrder at h
  split at h
  · cases h
  · obtain ⟨kind, -, rfl⟩ := Option.map_eq_some_iff.1 h
    by_cases hle : inOrder = true
    · exact .inl ⟨if_pos hle, if_pos hle⟩
    · exact .inr ⟨if_neg hle, if_neg hle⟩

theorem exists_of_mem_bucketFindings
    (h : f ∈ bucketFindings settings dictionary (inBucket comments bucket)) :
    ∃ p : Comparison α, ((p.left ∈ candidates dictionary comments ∧ p.left.bucket = bucket) ∧
      p.right ∈ candidates dictionary comments ∧ p.right.bucket = bucket) ∧
      finding? settings.commentThreshold p = some f := by
  rw [bucketFindings_eq] at h
  obtain ⟨p, hp, hf⟩ := List.mem_filterMap.1 h
  exact ⟨p, mem_of_mem_bucket (mem_of_mem_eraseDupsBy hp), hf⟩

/-- Comparisons that give findings of the same places are of the same comments. -/
theorem sameComments_of_places (hdistinct : (comments.map fun j => j.comment.place).Nodup)
    {threshold : α} {p q : Comparison α} {g : Finding α}
    (hp : p.left ∈ candidates dictionary comments ∧ p.right ∈ candidates dictionary comments)
    (hq : q.left ∈ candidates dictionary comments ∧ q.right ∈ candidates dictionary comments)
    (hf : finding? threshold p = some f) (hg : finding? threshold q = some g)
    (hsame : f.first = g.first ∧ f.second = g.second) : sameComments q p = true := by
  have hindex : ∀ {c d : Candidate α}, c ∈ candidates dictionary comments →
      d ∈ candidates dictionary comments → c.place = d.place → c.index = d.index :=
    fun hc hd heq => congrArg Candidate.index (eq_of_place_eq hdistinct hc hd heq)
  obtain ⟨hfirst, hsecond⟩ := hsame
  rw [sameComments_iff_indexes]
  rcases places_of_finding? hf with ⟨hf1, hf2⟩ | ⟨hf1, hf2⟩ <;>
    rcases places_of_finding? hg with ⟨hg1, hg2⟩ | ⟨hg1, hg2⟩
  · exact .inl ⟨hindex hp.1 hq.1 (hf1.symm.trans (hfirst.trans hg1)),
      hindex hp.2 hq.2 (hf2.symm.trans (hsecond.trans hg2))⟩
  · exact .inr ⟨hindex hp.1 hq.2 (hf1.symm.trans (hfirst.trans hg1)),
      hindex hp.2 hq.1 (hf2.symm.trans (hsecond.trans hg2))⟩
  · exact .inr ⟨hindex hp.1 hq.2 (hf2.symm.trans (hsecond.trans hg2)),
      hindex hp.2 hq.1 (hf1.symm.trans (hfirst.trans hg1))⟩
  · exact .inl ⟨hindex hp.1 hq.1 (hf2.symm.trans (hsecond.trans hg2)),
      hindex hp.2 hq.2 (hf1.symm.trans (hfirst.trans hg1))⟩

theorem findings_of_disabled (hdisabled : settings.enabled ≠ true) :
    (detect settings dictionary comments).findings = [] := by
  rw [detect, if_neg hdisabled]

theorem pairwise_findings (hdistinct : (comments.map fun j => j.comment.place).Nodup) :
    (detect settings dictionary comments).findings.Pairwise fun f g => findingOrder f g = .lt := by
  by_cases henabled : settings.enabled = true
  · rw [detect, if_pos henabled]
    refine pairwise_mergeSort (List.pairwise_filterMap.2 ?_)
    refine (pairwise_eraseDupsBy _).imp_of_mem ?_
    intro p q hp hq hnot f hf g hg hsame
    rw [sameComments_of_places hdistinct (mem_of_mem_comparisons hp) (mem_of_mem_comparisons hq)
      hf hg hsame] at hnot
    cases hnot
  · rw [findings_of_disabled henabled]
    exact .nil

end Findings

end Marginalia.Drift
