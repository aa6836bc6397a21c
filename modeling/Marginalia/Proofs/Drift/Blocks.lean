import Marginalia.Proofs.Drift.Findings

/-! Comments of one block: two sites are compared unless their first comments stand in one block,
whatever blocks the other comments of the sites stand in. -/

namespace Marginalia.Drift

open Marginalia.Spelling

variable {α : Type} {dictionary : Dictionary} {comments : List (Judged α)} {bucket : UInt64}
  {j k : Judged α}

/-! ### First comments of sites -/

/-- The first comment at the site of a comment, among those of its bucket. -/
def leader? (comments : List (Judged α)) (judged : Judged α) : Option (Judged α) :=
  comments.find? fun other => bucket? other == bucket? judged && siteOf other == siteOf judged

theorem leader?_eq (h : bucket? j = some bucket) : leader? comments j =
    (inBucket comments bucket).find? fun other => siteOf other == siteOf j := by
  simp only [leader?, inBucket, List.find?_filter, h, Bool.decide_and, Bool.decide_eq_true]

theorem map_judged_candidates (dictionary : Dictionary) :
    (candidates dictionary (inBucket comments bucket)).map Candidate.judged =
      inBucket comments bucket := by
  rw [candidates_inBucket, List.map_map]
  exact List.zipIdx_map_fst 0 _

theorem mem_of_mem_candidates {c : Candidate α}
    (h : c ∈ candidates dictionary (inBucket comments bucket)) :
    c.judged ∈ comments ∧ bucket? c.judged = some bucket := by
  rw [← mem_inBucket, ← map_judged_candidates dictionary]
  exact List.mem_map_of_mem h

/-- However short a bucket is cut, the first candidate of a site is the first of all. -/
theorem leader?_of_head? {limit : Nat} {c x : Candidate α}
    (hc : bucket? c.judged = some bucket)
    (hx : (havingKey Candidate.site
      ((candidates dictionary (inBucket comments bucket)).take limit) c.site).head? = some x) :
    leader? comments c.judged = some x.judged := by
  have hfind : (inBucket comments bucket).find? (fun other => siteOf other == siteOf c.judged) =
      ((candidates dictionary (inBucket comments bucket)).find?
        fun d => d.site == c.site).map Candidate.judged := by
    rw [← map_judged_candidates dictionary, List.find?_map, map_judged_candidates]
    rfl
  rw [leader?_eq hc, hfind, find?_of_head?_havingKey_take hx]
  rfl

/-! ### Comments apart -/

/-- Two comments of one bucket at different sites, the first comments of which stand in different
blocks. -/
structure Apart (comments : List (Judged α)) (j k : Judged α) : Prop where
  left : j ∈ comments
  right : k ∈ comments
  bucket : bucket? j = bucket? k
  site : siteOf j ≠ siteOf k
  leaders : ∃ x y, leader? comments j = some x ∧ leader? comments k = some y ∧
    x.comment.sharesBlock y.comment = false

theorem Apart.symm (h : Apart comments j k) : Apart comments k j := by
  obtain ⟨x, y, hx, hy, hapart⟩ := h.leaders
  exact ⟨h.right, h.left, h.bucket.symm, h.site.symm, y, x, hy, hx,
    Comment.sharesBlock_comm _ _ ▸ hapart⟩

/-- A comment that stands in another block than the first one at its site. -/
def Strays (comments : List (Judged α)) (j : Judged α) : Prop :=
  ∃ x, leader? comments j = some x ∧ j.comment.sharesBlock x.comment = false

/-- Sharing a block is transitive, so comments whose sites are apart share one only if one of them
strays from its site. -/
theorem Apart.strays (h : Apart comments j k) (hshares : j.comment.sharesBlock k.comment = true) :
    Strays comments j ∨ Strays comments k := by
  obtain ⟨x, y, hx, hy, hapart⟩ := h.leaders
  by_cases hj : j.comment.sharesBlock x.comment = true
  · refine .inr ⟨y, hy, Bool.eq_false_iff.2 fun hk => Bool.eq_false_iff.1 hapart ?_⟩
    rw [sharesBlock_iff] at hj hk hshares ⊢
    exact hj.symm.trans (hshares.trans hk)
  · exact .inl ⟨x, hx, Bool.eq_false_iff.2 hj⟩

variable [Score α] {settings : DriftSettings α} {f : Finding α}

theorem exists_apart (h : f ∈ (detect settings dictionary comments).findings) :
    ∃ j k, Apart comments j k ∧ f.first = j.comment.place ∧ f.second = k.comment.place := by
  by_cases henabled : settings.enabled = true
  · obtain ⟨bucket, hf⟩ := (mem_findings_iff henabled).1 h
    obtain ⟨p, hp, hf⟩ := List.mem_filterMap.1 hf
    obtain ⟨s, t, hne, hleft, hright, x, y, hx, hy, hapart⟩ :=
      exists_sites_of_mem_bucketComparisons (mem_of_mem_eraseDupsBy hp)
    obtain ⟨htakeLeft, rfl⟩ := mem_havingKey.1 hleft
    obtain ⟨htakeRight, rfl⟩ := mem_havingKey.1 hright
    obtain ⟨hj, hjbucket⟩ := mem_of_mem_candidates (List.mem_of_mem_take htakeLeft)
    obtain ⟨hk, hkbucket⟩ := mem_of_mem_candidates (List.mem_of_mem_take htakeRight)
    have happart : Apart comments p.left.judged p.right.judged :=
      ⟨hj, hk, hjbucket.trans hkbucket.symm, hne, x.judged, y.judged, leader?_of_head? hjbucket hx,
        leader?_of_head? hkbucket hy, hapart⟩
    rcases places_of_finding? hf with ⟨hfirst, hsecond⟩ | ⟨hfirst, hsecond⟩
    · exact ⟨_, _, happart, hfirst, hsecond⟩
    · exact ⟨_, _, happart.symm, hfirst, hsecond⟩
  · rw [findings_of_disabled henabled] at h
    simp at h

/-- What is found is of two comments whose sites begin in different blocks. Two comments of one
block are reported only where one of them stands in another block than the first comment at its
site. -/
theorem findings_apart (settings : DriftSettings α) (dictionary : Dictionary)
    (comments : List (Judged α)) :
    ∀ f ∈ (detect settings dictionary comments).findings, ∃ j k, Apart comments j k ∧
      f.first = j.comment.place ∧ f.second = k.comment.place ∧
      (j.comment.sharesBlock k.comment = true → Strays comments j ∨ Strays comments k) := by
  intro f hf
  obtain ⟨j, k, happart, hfirst, hsecond⟩ := exists_apart hf
  exact ⟨j, k, happart, hfirst, hsecond, happart.strays⟩

/-- A comment on the line `return;` in a block. -/
def onReturn (raw : String) (start anchor : Nat) (block : String) (blockStart : Nat) :
    Judged Rat where
  comment :=
    { fileId := "a.js", start := start, stop := start + raw.length, line := 1, style := .line
      raw := raw, code := "return;", anchor := anchor, block := block, blockStart := blockStart }
  verdict := { category := .informative, confidence := 1, evidence := [], typos := [] }

/-- A block that is most of the block around it. -/
def innerBlock : String :=
  "\x7b\n    a(x);\n    b(x);\n    c(x);\n    d(x);\n    e(x);\n    g(x);\n    h(x);\n   \x7d"

def outerBlock : String := "\x7b\n  " ++ innerBlock ++ "\n  \n  return;\n  \n  return;\n\x7d"

/-- A comment at the end of the inner block and two comments of the outer block, all on lines alike;
the first two are on one line. -/
def strayedComments : List (Judged Rat) :=
  [onReturn "/* adds a row */" 92 126 innerBlock 18, onReturn "// drops all" 113 126 outerBlock 14,
    onReturn "// waits" 138 147 outerBlock 14]

theorem findings_of_strayed_comments : ∀ f,
    f ∈ (detect .default (Dictionary.ofList []) strayedComments).findings ↔
      f = ⟨⟨"a.js", 92, 108⟩, ⟨"a.js", 138, 146⟩, 37 / 43, 0, .inconsistent⟩ ∨
        f = ⟨⟨"a.js", 113, 125⟩, ⟨"a.js", 138, 146⟩, 37 / 43, 0, .inconsistent⟩ := by
  intro f
  have hfindings : (comparisons (DriftSettings.default : DriftSettings Rat).codeThreshold 64
      (grouped Candidate.bucket (candidates (Dictionary.ofList []) strayedComments))).filterMap
        (finding? (DriftSettings.default : DriftSettings Rat).commentThreshold) =
      [⟨⟨"a.js", 92, 108⟩, ⟨"a.js", 138, 146⟩, 37 / 43, 0, .inconsistent⟩,
        ⟨⟨"a.js", 113, 125⟩, ⟨"a.js", 138, 146⟩, 37 / 43, 0, .inconsistent⟩] := by decide +kernel
  rw [findings_eq rfl, List.mem_mergeSort]
  exact hfindings ▸ by simp

/-- The second comment strays from its site, which begins in the inner block. -/
theorem findings_apart_of_strayed_comments :
    ∃ f ∈ (detect .default (Dictionary.ofList []) strayedComments).findings,
      f.first = ⟨"a.js", 113, 125⟩ ∧ ∃ j k, Apart strayedComments j k ∧
        f.first = j.comment.place ∧ f.second = k.comment.place ∧
        (j.comment.sharesBlock k.comment = true →
          Strays strayedComments j ∨ Strays strayedComments k) := by
  have hf := (findings_of_strayed_comments _).2 (.inr rfl)
  exact ⟨_, hf, rfl, findings_apart .default (Dictionary.ofList []) strayedComments _ hf⟩

/-- Two comments of one block are reported against each other. -/
theorem block_reported_against_itself :
    ∃ f ∈ (detect .default (Dictionary.ofList []) strayedComments).findings,
      ∃ x ∈ strayedComments, ∃ y ∈ strayedComments, f.first = x.comment.place ∧
        f.second = y.comment.place ∧ x.comment.sharesBlock y.comment = true := by
  refine ⟨_, (findings_of_strayed_comments _).2 (.inr rfl),
    onReturn "// drops all" 113 126 outerBlock 14, ?_, onReturn "// waits" 138 147 outerBlock 14, ?_,
    by decide +kernel, by decide +kernel, by decide +kernel⟩
  · exact List.mem_cons_of_mem _ List.mem_cons_self
  · exact List.mem_cons_of_mem _ (List.mem_cons_of_mem _ List.mem_cons_self)

end Marginalia.Drift
