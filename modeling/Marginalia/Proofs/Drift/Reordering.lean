import Marginalia.Proofs.Drift.Truncation

/-! Where every code site has one comment, drift does not depend on the order of the comments: what
is found are the disagreements of any two of them, whichever comes first. -/

namespace Marginalia.Drift

open Marginalia.Spelling

variable {settings : DriftSettings Rat} {dictionary : Dictionary}
  {comments others : List (Judged Rat)} {bucket : UInt64} {a b c x : Candidate Rat}
  {f : Finding Rat}

/-- No two comments document one code site. -/
def Alone (comments : List (Judged Rat)) : Prop := (comments.map siteOf).Nodup

theorem eq_of_site_eq (halone : Alone comments) (ha : a ∈ candidates dictionary comments)
    (hb : b ∈ candidates dictionary comments) (h : a.site = b.site) : a = b :=
  eq_of_key_eq halone ha hb h

/-- The first comment of a site is the only one. -/
theorem first_iff_of_alone (halone : Alone comments) (hc : c ∈ candidates dictionary comments) :
    First (candidates dictionary comments) c.bucket c.site x ↔ x = c := by
  have hfirst : ∀ {y}, First (candidates dictionary comments) c.bucket c.site y → y = c := by
    intro y hy
    obtain ⟨hmem, -, hsite⟩ := mem_of_first hy
    exact eq_of_site_eq halone hmem hc hsite
  refine ⟨hfirst, ?_⟩
  rintro rfl
  obtain ⟨y, hy⟩ := exists_first hc
  rwa [hfirst hy] at hy

/-- Two comments on like code, each alone at its site, disagree as a finding says. -/
structure Opposed (settings : DriftSettings Rat) (f : Finding Rat) (a b : Candidate Rat) :
    Prop where
  bucket : a.bucket = b.bucket
  site : a.site ≠ b.site
  alike : Alike settings.codeThreshold a b
  findings : Shows settings.commentThreshold ⟨a, b, siteLikeness a b⟩ f

theorem codeLikeness_of_alone (halone : Alone comments) {threshold : Rat} {limit : Nat}
    {p : Comparison Rat} (hp : Compared threshold limit (candidates dictionary comments) p) :
    Alike threshold p.left p.right ∧ p.codeLikeness = siteLikeness p.left p.right := by
  obtain ⟨y, z, hy, hz, halike, hvalue⟩ := hp.alike
  rw [first_iff_of_alone halone hp.left] at hy
  rw [first_iff_of_alone halone hp.right] at hz
  subst hy hz
  exact ⟨halike, hvalue⟩

theorem exists_opposed (halone : Alone comments)
    (h : f ∈ (detect settings dictionary comments).findings) :
    ∃ a ∈ candidates dictionary comments, ∃ b ∈ candidates dictionary comments,
      Opposed settings f a b := by
  obtain ⟨⟨a, b, likeness⟩, hp, hshows⟩ := exists_comparison_of_mem_findings h
  obtain ⟨halike, hvalue⟩ := codeLikeness_of_alone halone hp
  simp only at halike hvalue
  subst hvalue
  exact ⟨a, hp.left, b, hp.right, hp.bucket, hp.site, halike, hshows⟩

/-- The one comment of a site is the closest one there, so any two comments are compared. -/
theorem exists_comparison_of_alone (halone : Alone comments)
    (hlimit : (inBucket comments a.bucket).length ≤ settings.bucketLimit)
    (ha : a ∈ candidates dictionary comments) (hb : b ∈ candidates dictionary comments)
    (hbucket : a.bucket = b.bucket) (hsite : a.site ≠ b.site)
    (halike : Alike settings.codeThreshold a b) :
    ∃ p ∈ comparisons settings.codeThreshold settings.bucketLimit
        (grouped Candidate.bucket (candidates dictionary comments)),
      (p.left = a ∧ p.right = b) ∨ (p.left = b ∧ p.right = a) := by
  rw [← length_havingKey_candidates dictionary] at hlimit
  have hfirstA := (first_iff_of_alone halone ha).2 rfl
  have hfirstB := (first_iff_of_alone halone hb).2 rfl
  rw [← hbucket] at hfirstB
  obtain ⟨d, hclosest, p, hp, hrefers⟩ :=
    exists_comparison_closest hlimit hsite hfirstA hfirstB halike ha rfl rfl
  obtain ⟨hd, -, hdsite⟩ := mem_of_mem_compared hclosest.mem
  obtain rfl := eq_of_site_eq halone hd hb hdsite
  exact ⟨p, hp, sides_of_refers (compared_of_mem hp) ha hb hrefers⟩

theorem Opposed.symm (h : Opposed settings f a b) (ha : a ∈ candidates dictionary comments)
    (hb : b ∈ candidates dictionary comments) : Opposed settings f b a where
  bucket := h.bucket.symm
  site := h.site.symm
  alike := h.alike.symm
  findings := by
    rw [siteLikeness_comm]
    refine h.findings.swap ?_
    rw [wordLikeness_eq_textLikeness ha hb, wordLikeness_eq_textLikeness hb ha, textLikeness_comm]

theorem mem_findings_of_opposed (henabled : settings.enabled = true) (halone : Alone comments)
    (hlimit : ∀ bucket, (inBucket comments bucket).length ≤ settings.bucketLimit)
    (ha : a ∈ candidates dictionary comments) (hb : b ∈ candidates dictionary comments)
    (h : Opposed settings f a b) : f ∈ (detect settings dictionary comments).findings := by
  obtain ⟨p, hp, hsides⟩ :=
    exists_comparison_of_alone halone (hlimit a.bucket) ha hb h.bucket h.site h.alike
  have hopposed : Opposed settings f p.left p.right := by
    rcases hsides with ⟨hleft, hright⟩ | ⟨hleft, hright⟩
    · exact hleft ▸ hright ▸ h
    · exact hleft ▸ hright ▸ h.symm ha hb
  have hshows : Shows settings.commentThreshold p f := by
    have hvalue := (codeLikeness_of_alone halone (compared_of_mem hp)).2
    have hfindings := hopposed.findings
    rwa [← hvalue] at hfindings
  have hbelow := hshows.words ▸ hshows.below
  obtain ⟨g, hg⟩ := exists_finding? hbelow (kind?_eq_some_iff.1 hshows.kind).1
  rw [hshows.unique (shows_of_finding? hg), findings_eq henabled, List.mem_mergeSort]
  exact List.mem_filterMap.2 ⟨p, hp, hg⟩

/-- Comments in another order are the same candidates with other numbers. -/
theorem exists_candidate_of_perm (hperm : comments.Perm others)
    (hc : c ∈ candidates dictionary comments) :
    ∃ i, { c with index := i } ∈ candidates dictionary others := by
  obtain ⟨judged, hjudged, hc, hfull⟩ := mem_candidates_iff.1 hc
  obtain ⟨i, hi⟩ := List.getElem?_of_mem (hperm.mem_iff.1 (List.mem_of_getElem? hjudged))
  generalize c.index = n at hc
  subst hc
  have hindex : { Candidate.ofJudged dictionary judged n with index := i } =
      .ofJudged dictionary judged i := by
    rw [Candidate.ofJudged, Candidate.ofJudged]
  exact ⟨i, mem_candidates_iff.2 ⟨judged, hi, hindex, hfull⟩⟩

theorem Opposed.renumber (h : Opposed settings f a b) (i j : Nat) :
    Opposed settings f { a with index := i } { b with index := j } where
  bucket := h.bucket
  site := h.site
  alike := ⟨h.alike.apart, h.alike.line, h.alike.block⟩
  findings := ⟨h.findings.joins, h.findings.ordered, h.findings.kind, h.findings.words,
    h.findings.below, h.findings.code⟩

theorem mem_findings_of_perm (hperm : comments.Perm others) (halone : Alone comments)
    (hlimit : ∀ bucket, (inBucket others bucket).length ≤ settings.bucketLimit)
    (h : f ∈ (detect settings dictionary comments).findings) :
    f ∈ (detect settings dictionary others).findings := by
  by_cases henabled : settings.enabled = true
  · obtain ⟨a, ha, b, hb, hopposed⟩ := exists_opposed halone h
    obtain ⟨i, hi⟩ := exists_candidate_of_perm hperm ha
    obtain ⟨j, hj⟩ := exists_candidate_of_perm hperm hb
    exact mem_findings_of_opposed henabled ((hperm.map _).nodup_iff.1 halone) hlimit hi hj
      (hopposed.renumber i j)
  · rw [findings_of_disabled henabled] at h
    simp at h

theorem warnings_eq_nil (hlimit : ∀ bucket, (inBucket comments bucket).length ≤
    settings.bucketLimit) : (detect settings dictionary comments).warnings = [] := by
  by_cases henabled : settings.enabled = true
  · rw [warnings_eq henabled, List.map_eq_nil_iff, List.filter_eq_nil_iff]
    intro bucket _
    simpa using hlimit bucket
  · rw [detect, if_neg henabled]

/-- Comments in another order give the same report, without warnings, where no two of them document
one code site and no bucket is cut short. -/
theorem detect_eq_of_perm (settings : DriftSettings Rat) (dictionary : Dictionary)
    {comments others : List (Judged Rat)} (hperm : comments.Perm others)
    (hdistinct : (comments.map fun j => j.comment.place).Nodup) (halone : Alone comments)
    (hlimit : ∀ bucket, (inBucket comments bucket).length ≤ settings.bucketLimit) :
    (detect settings dictionary comments).findings = (detect settings dictionary others).findings ∧
      (detect settings dictionary comments).warnings = [] ∧
      (detect settings dictionary others).warnings = [] := by
  have hlimit' : ∀ bucket, (inBucket others bucket).length ≤ settings.bucketLimit := by
    intro bucket
    have hlength := (hperm.filter fun judged => bucket? judged == some bucket).length_eq
    exact hlength ▸ hlimit bucket
  have hdistinct' := (hperm.map _).nodup_iff.1 hdistinct
  have halone' : Alone others := (hperm.map _).nodup_iff.1 halone
  refine ⟨findings_ext (pairwise_findings hdistinct) (pairwise_findings hdistinct') fun f => ?_,
    warnings_eq_nil hlimit, warnings_eq_nil hlimit'⟩
  exact ⟨mem_findings_of_perm hperm halone hlimit',
    mem_findings_of_perm hperm.symm halone' hlimit⟩

/-- Three comments on one call, in two orders. -/
theorem detect_eq_of_three_comments :
    let first := onCall "b.js" "// adds a row" 0 .informative
    let second := onCall "a.js" "// TODO" 0 .placeholder
    let third := onCall "c.js" "// drops all" 20 .filler
    (detect .default (Dictionary.ofList []) [first, second, third]).findings =
        (detect .default (Dictionary.ofList []) [third, first, second]).findings ∧
      (detect .default (Dictionary.ofList []) [first, second, third]).findings ≠ [] ∧
      (detect .default (Dictionary.ofList []) [third, first, second]).warnings = [] := by
  intro first second third
  have hperm : [first, second, third].Perm [third, first, second] := by decide +kernel
  have hdistinct : ([first, second, third].map fun j => j.comment.place).Nodup := by
    decide +kernel
  have halone : Alone [first, second, third] := by
    rw [Alone]
    decide +kernel
  have hlimit : ∀ bucket, (inBucket [first, second, third] bucket).length ≤
      (DriftSettings.default : DriftSettings Rat).bucketLimit := fun bucket =>
    Nat.le_trans (List.length_filter_le _ _) (by decide)
  have hfound : (detect .default (Dictionary.ofList []) [first, second, third]).findings ≠ [] := by
    rw [findings_ne_nil_iff rfl]
    decide +kernel
  obtain ⟨hfindings, -, hnone⟩ :=
    detect_eq_of_perm .default (Dictionary.ofList []) hperm hdistinct halone hlimit
  exact ⟨hfindings, hfound, hnone⟩

end Marginalia.Drift
