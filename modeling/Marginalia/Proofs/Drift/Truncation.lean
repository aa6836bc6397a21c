import Marginalia.Proofs.Drift.Findings
import Mathlib.Data.List.Induction

/-! Buckets do not interfere, and cutting one short is the same as leaving out the comments beyond
the limit: only the warnings tell, one for each bucket that was cut. -/

namespace Marginalia.Drift

open Marginalia.Spelling

variable {α : Type} {limit : Nat} {comments : List (Judged α)} {bucket : UInt64}

/-! ### Comments within the limit -/

/-- Whether fewer comments of the bucket of a comment come before it than are compared. A comment
without code has no bucket. -/
def fitsAfter (limit : Nat) (earlier : List (Judged α)) (judged : Judged α) : Bool :=
  match bucket? judged with
  | none => true
  | some bucket => (inBucket earlier bucket).length < limit

/-- Some comments without those of each bucket that come beyond the limit. -/
def withinLimit (limit : Nat) (comments : List (Judged α)) : List (Judged α) :=
  (comments.zipIdx.filter fun (judged, index) =>
    fitsAfter limit (comments.take index) judged).map Prod.fst

theorem withinLimit_sublist : (withinLimit limit comments).Sublist comments := by
  have h := (List.filter_sublist (l := comments.zipIdx) (p := fun (judged, index) =>
    fitsAfter limit (comments.take index) judged)).map Prod.fst
  rwa [List.zipIdx_map_fst] at h

theorem withinLimit_concat (judged : Judged α) : withinLimit limit (comments ++ [judged]) =
    withinLimit limit comments ++ if fitsAfter limit comments judged then [judged] else [] := by
  have hfront : comments.zipIdx.filter (fun (j, index) =>
        fitsAfter limit ((comments ++ [judged]).take index) j) =
      comments.zipIdx.filter fun (j, index) => fitsAfter limit (comments.take index) j := by
    refine List.filter_congr fun ⟨j, index⟩ hp => ?_
    simp only
    rw [List.take_append_of_le_length (le_of_lt (List.mem_zipIdx' hp).1)]
  rw [withinLimit, withinLimit, List.zipIdx_append, List.filter_append, hfront, List.map_append]
  congr 1
  cases hfits : fitsAfter limit comments judged <;> simp [hfits]

theorem inBucket_append (comments others : List (Judged α)) (bucket : UInt64) :
    inBucket (comments ++ others) bucket = inBucket comments bucket ++ inBucket others bucket :=
  List.filter_append _ _

theorem inBucket_singleton_of_eq {judged : Judged α} (h : bucket? judged = some bucket) :
    inBucket [judged] bucket = [judged] := by
  simp [inBucket, h]

theorem inBucket_singleton_of_ne {judged : Judged α} (h : bucket? judged ≠ some bucket) :
    inBucket [judged] bucket = [] := by
  simp [inBucket, h]

theorem inBucket_withinLimit (limit : Nat) (comments : List (Judged α)) (bucket : UInt64) :
    inBucket (withinLimit limit comments) bucket = (inBucket comments bucket).take limit := by
  induction comments using List.reverseRecOn with
  | nil => simp [withinLimit, inBucket]
  | append_singleton comments judged ih =>
    rw [withinLimit_concat, inBucket_append, inBucket_append, ih]
    by_cases hbucket : bucket? judged = some bucket
    · have hfits : fitsAfter limit comments judged =
          decide ((inBucket comments bucket).length < limit) := by
        rw [fitsAfter, hbucket]
      rw [inBucket_singleton_of_eq hbucket, hfits]
      by_cases hlt : (inBucket comments bucket).length < limit
      · rw [decide_eq_true hlt, if_pos rfl, inBucket_singleton_of_eq hbucket,
          List.take_of_length_le (le_of_lt hlt), List.take_of_length_le]
        rw [List.length_append, List.length_singleton]
        omega
      · rw [decide_eq_false hlt, if_neg Bool.false_ne_true,
          List.take_append_of_le_length (not_lt.1 hlt)]
        exact List.append_nil _
    · rw [inBucket_singleton_of_ne hbucket, List.append_nil]
      split
      · rw [inBucket_singleton_of_ne hbucket, List.append_nil]
      · exact List.append_nil _

/-! ### Findings -/

theorem take_candidates_inBucket {dictionary : Dictionary} :
    (candidates dictionary (inBucket comments bucket)).take limit =
      candidates dictionary (inBucket (withinLimit limit comments) bucket) := by
  rw [candidates_inBucket, candidates_inBucket, inBucket_withinLimit, ← List.map_take]
  refine congrArg _ (List.ext_getElem? fun i => ?_)
  simp only [List.getElem?_take, List.getElem?_zipIdx]
  split <;> rfl

section Findings

variable [Score α] {settings : DriftSettings α} {dictionary : Dictionary}

theorem bucketFindings_withinLimit : bucketFindings settings dictionary
      (inBucket (withinLimit settings.bucketLimit comments) bucket) =
    bucketFindings settings dictionary (inBucket comments bucket) := by
  rw [bucketFindings, bucketFindings, ← take_candidates_inBucket, List.take_take, Nat.min_self]

theorem findings_withinLimit (henabled : settings.enabled = true)
    (hdistinct : (comments.map fun j => j.comment.place).Nodup) :
    (detect settings dictionary (withinLimit settings.bucketLimit comments)).findings =
      (detect settings dictionary comments).findings := by
  refine findings_ext (pairwise_findings (hdistinct.sublist (withinLimit_sublist.map _)))
    (pairwise_findings hdistinct) fun f => ?_
  rw [mem_findings_iff henabled, mem_findings_iff henabled]
  simp only [bucketFindings_withinLimit]

theorem mem_findings_inBucket_iff (henabled : settings.enabled = true) {f : Finding α} :
    f ∈ (detect settings dictionary (inBucket comments bucket)).findings ↔
      f ∈ bucketFindings settings dictionary (inBucket comments bucket) := by
  rw [mem_findings_iff henabled]
  constructor
  · rintro ⟨other, hf⟩
    by_cases h : bucket = other
    · rw [← h, inBucket_inBucket] at hf
      exact hf
    · rw [inBucket_inBucket_of_ne h, bucketFindings_nil] at hf
      simp at hf
  · intro hf
    exact ⟨bucket, inBucket_inBucket.symm ▸ hf⟩

theorem exists_of_mem_findings_inBucket (henabled : settings.enabled = true) {f : Finding α}
    (h : f ∈ (detect settings dictionary (inBucket comments bucket)).findings) :
    ∃ c ∈ candidates dictionary comments, c.bucket = bucket ∧ c.place = f.first := by
  obtain ⟨p, ⟨⟨hleft, hleftBucket⟩, hright, hrightBucket⟩, hf⟩ :=
    exists_of_mem_bucketFindings ((mem_findings_inBucket_iff henabled).1 h)
  rcases places_of_finding? hf with ⟨hfirst, -⟩ | ⟨hfirst, -⟩
  · exact ⟨p.left, hleft, hleftBucket, hfirst.symm⟩
  · exact ⟨p.right, hright, hrightBucket, hfirst.symm⟩

/-- The findings of a list are those of its buckets, each bucket taken alone, in order. -/
theorem findings_eq_mergeSort (henabled : settings.enabled = true)
    (hdistinct : (comments.map fun j => j.comment.place).Nodup) :
    (detect settings dictionary comments).findings =
      ((bucketsOf comments).flatMap fun bucket =>
        (detect settings dictionary (inBucket comments bucket)).findings).mergeSort findingLe := by
  have halone : ((bucketsOf comments).flatMap fun bucket =>
      (detect settings dictionary (inBucket comments bucket)).findings).Pairwise
        fun f g => ¬(f.first = g.first ∧ f.second = g.second) := by
    refine List.pairwise_flatMap.2 ⟨fun bucket _ => ?_, (nodup_eraseDups _).imp ?_⟩
    · refine (pairwise_findings (hdistinct.sublist (List.filter_sublist.map _))).imp ?_
      intro f g hlt hsame
      rw [findingOrder_eq_eq_iff.2 hsame] at hlt
      cases hlt
    · rintro a b hne f hf g hg ⟨hfirst, -⟩
      obtain ⟨c, hc, hcbucket, hcplace⟩ := exists_of_mem_findings_inBucket henabled hf
      obtain ⟨d, hd, hdbucket, hdplace⟩ := exists_of_mem_findings_inBucket henabled hg
      have hcd : c = d := eq_of_place_eq hdistinct hc hd (hcplace.trans (hfirst.trans hdplace.symm))
      exact hne (hcbucket.symm.trans (hcd ▸ hdbucket))
  refine findings_ext (pairwise_findings hdistinct) (pairwise_mergeSort halone) fun f => ?_
  rw [findings_eq_flatMap henabled, List.mem_mergeSort, List.mem_mergeSort, List.mem_flatMap,
    List.mem_flatMap]
  simp only [mem_findings_inBucket_iff henabled]

end Findings

/-! ### Warnings -/

theorem findIdx_lt_length_iff : comments.findIdx (bucket? · == some bucket) < comments.length ↔
    bucket ∈ bucketsOf comments := by
  rw [List.findIdx_lt_length, mem_bucketsOf_iff]
  simp only [beq_iff_eq]

/-- One more comment adds its bucket at the end, unless the bucket is there already. -/
theorem bucketsOf_concat (comments : List (Judged α)) (judged : Judged α) :
    bucketsOf (comments ++ [judged]) = bucketsOf comments ∨
      ∃ b ∉ bucketsOf comments, bucketsOf (comments ++ [judged]) = bucketsOf comments ++ [b] := by
  have happend : bucketsOf (comments ++ [judged]) = bucketsOf comments ++
      (([judged].filterMap bucket?).removeAll (comments.filterMap bucket?)).eraseDups := by
    rw [bucketsOf, List.filterMap_append, List.eraseDups_append]
    rfl
  cases hbucket : bucket? judged with
  | none =>
    rw [List.filterMap_cons_none hbucket] at happend
    exact .inl (happend.trans (List.append_nil _))
  | some b =>
    rw [List.filterMap_cons_some hbucket, List.filterMap_nil, List.cons_removeAll] at happend
    by_cases hb : b ∈ bucketsOf comments
    · rw [if_neg (by simpa using mem_bucketsOf_iff.1 hb)] at happend
      exact .inl (happend.trans (List.append_nil _))
    · rw [if_pos (by simpa using mt mem_bucketsOf_iff.2 hb)] at happend
      exact .inr ⟨b, hb, happend⟩

/-- Buckets come in the order of their first comments. -/
theorem pairwise_bucketsOf (comments : List (Judged α)) : (bucketsOf comments).Pairwise fun a b =>
    comments.findIdx (bucket? · == some a) < comments.findIdx (bucket? · == some b) := by
  induction comments using List.reverseRecOn with
  | nil => simp [bucketsOf]
  | append_singleton comments judged ih =>
    have hold : ∀ {b}, b ∈ bucketsOf comments →
        (comments ++ [judged]).findIdx (bucket? · == some b) =
          comments.findIdx (bucket? · == some b) :=
      fun hb => by rw [List.findIdx_append, if_pos (findIdx_lt_length_iff.2 hb)]
    have hold_pairwise : (bucketsOf comments).Pairwise fun a b =>
        (comments ++ [judged]).findIdx (bucket? · == some a) <
          (comments ++ [judged]).findIdx (bucket? · == some b) := by
      refine ih.imp_of_mem fun ha hb hlt => ?_
      rw [hold ha, hold hb]
      exact hlt
    rcases bucketsOf_concat comments judged with h | ⟨b, hb, h⟩
    · rw [h]
      exact hold_pairwise
    · rw [h, List.pairwise_append]
      refine ⟨hold_pairwise, List.pairwise_singleton _ _, fun a ha c hc => ?_⟩
      rw [List.mem_singleton] at hc
      subst hc
      rw [hold ha, List.findIdx_append, if_neg (mt findIdx_lt_length_iff.1 hb)]
      exact Nat.lt_of_lt_of_le (findIdx_lt_length_iff.2 ha) (Nat.le_add_left _ _)

theorem pairwise_filesOf (members : List (Candidate α)) :
    (filesOf members).Pairwise fun a b => compare a b = .lt := by
  have hsorted := (pairwise_mergeSort_isLE compare id
    (members.map fun c => c.judged.comment.fileId)).sublist (eraseDupsBy_sublist (r := (· == ·)) _)
  refine (hsorted.and (nodup_eraseDups _)).imp ?_
  rintro a b ⟨hle, hne⟩
  exact eq_lt_of_isLE hle (mt Std.compare_eq_iff_eq.1 hne)

theorem mem_filesOf {members : List (Candidate α)} {fileId : String} :
    fileId ∈ filesOf members ↔ ∃ c ∈ members, c.judged.comment.fileId = fileId := by
  rw [filesOf, List.mem_eraseDups, List.mem_mergeSort, List.mem_map]

/-- The warning about a bucket that is cut short. -/
def Warns (limit : Nat) (comments : List (Judged α)) (bucket : UInt64) (w : Warning) : Prop :=
  ∃ files, w = .truncated (Digest.hex bucket) (inBucket comments bucket).length limit files ∧
    files.Pairwise (fun a b => compare a b = .lt) ∧
    ∀ fileId, fileId ∈ files ↔ ∃ judged ∈ inBucket comments bucket, judged.comment.fileId = fileId

section Warnings

variable [Score α] {settings : DriftSettings α} {dictionary : Dictionary}

theorem warnings_eq (henabled : settings.enabled = true) :
    (detect settings dictionary comments).warnings = ((bucketsOf comments).filter fun bucket =>
      settings.bucketLimit < (inBucket comments bucket).length).map fun bucket =>
        .truncated (Digest.hex bucket) (inBucket comments bucket).length settings.bucketLimit
          (filesOf (havingKey Candidate.bucket (candidates dictionary comments) bucket)) := by
  rw [detect, if_pos henabled, ← List.filterMap_eq_map, List.filterMap_filter]
  simp only [grouped, map_bucket_candidates, List.filterMap_map]
  refine List.filterMap_congr fun bucket _ => ?_
  simp [← map_judged_havingKey dictionary, bucketWarning?, havingKey]

/-- A list of comments is searched as if those beyond the limits of their buckets were not there,
and bucket by bucket. The buckets that are cut short are warned of, in the order of their first
comments: how many comments each has, how many are compared, and the files of all of them. -/
theorem truncation_is_local (henabled : settings.enabled = true) (dictionary : Dictionary)
    (hdistinct : (comments.map fun j => j.comment.place).Nodup) :
    (detect settings dictionary (withinLimit settings.bucketLimit comments)).findings =
        (detect settings dictionary comments).findings ∧
      (detect settings dictionary (withinLimit settings.bucketLimit comments)).warnings = [] ∧
      (∃ cut : List UInt64,
        (∀ bucket, bucket ∈ cut ↔ settings.bucketLimit < (inBucket comments bucket).length) ∧
        cut.Pairwise (fun a b =>
          comments.findIdx (bucket? · == some a) < comments.findIdx (bucket? · == some b)) ∧
        List.Forall₂ (Warns settings.bucketLimit comments) cut
          (detect settings dictionary comments).warnings) ∧
      (detect settings dictionary comments).findings =
        ((bucketsOf comments).flatMap fun bucket =>
          (detect settings dictionary (inBucket comments bucket)).findings).mergeSort findingLe := by
  refine ⟨findings_withinLimit henabled hdistinct, ?_, ⟨(bucketsOf comments).filter fun bucket =>
    settings.bucketLimit < (inBucket comments bucket).length, ?_, ?_, ?_⟩,
    findings_eq_mergeSort henabled hdistinct⟩
  · rw [warnings_eq henabled, List.map_eq_nil_iff, List.filter_eq_nil_iff]
    intro bucket _
    simp [inBucket_withinLimit]
  · intro bucket
    rw [List.mem_filter, mem_bucketsOf, decide_eq_true_eq]
    refine ⟨fun h => h.2, fun h => ⟨?_, h⟩⟩
    rintro hnil
    simp [hnil] at h
  · exact (pairwise_bucketsOf comments).filter _
  · rw [warnings_eq henabled, List.forall₂_map_right_iff, List.forall₂_same]
    intro bucket _
    refine ⟨_, rfl, pairwise_filesOf _, fun fileId => ?_⟩
    rw [mem_filesOf, ← map_judged_havingKey dictionary]
    simp

/-- Of three comments on one call, two are compared, and a warning names the files of all three. -/
theorem truncation_of_three_comments :
    let settings : DriftSettings Rat := { DriftSettings.default with bucketLimit := 2 }
    let kept := [onCall "b.js" "// adds a row" 0 .informative, onCall "a.js" "// drops all" 0 .filler]
    let comments := kept ++ [onCall "c.js" "// waits" 0 .informative]
    withinLimit 2 comments = kept ∧
      (detect settings (Dictionary.ofList []) comments).findings =
        (detect settings (Dictionary.ofList []) kept).findings ∧
      (detect settings (Dictionary.ofList []) kept).findings ≠ [] ∧
      (detect settings (Dictionary.ofList []) kept).warnings = [] ∧
      ∃ w ∈ (detect settings (Dictionary.ofList []) comments).warnings,
        Warns 2 comments (Digest.ofText (bucketText (Code.normalTokens "f(x);"))) w := by
  intro settings kept comments
  have hdistinct : (comments.map fun j => j.comment.place).Nodup := by decide +kernel
  have hkept : withinLimit 2 comments = kept := by decide +kernel
  have hsome : (detect settings (Dictionary.ofList []) kept).findings ≠ [] := by
    rw [findings_ne_nil_iff rfl]
    decide +kernel
  have henabled : settings.enabled = true := rfl
  obtain ⟨hfindings, hnone, ⟨cut, hcut, -, hwarns⟩, -⟩ :=
    truncation_is_local henabled (Dictionary.ofList []) hdistinct
  rw [show settings.bucketLimit = 2 from rfl, hkept] at hfindings hnone
  have hover : 2 < (inBucket comments
      (Digest.ofText (bucketText (Code.normalTokens "f(x);")))).length := by decide +kernel
  exact ⟨hkept, hfindings.symm, hsome, hnone, exists_of_forall₂ hwarns.flip ((hcut _).2 hover)⟩

end Warnings

end Marginalia.Drift
