import Marginalia.Proofs.Drift.Buckets
import Marginalia.Proofs.Drift.Comparison

/-! What drift detection reports: which comparisons become findings, that findings come once and in
order, and that no disagreement of comments on like code is missed. -/

namespace Marginalia.Drift

open Marginalia.Spelling

variable {threshold : Rat} {p q : Comparison Rat} {f g : Finding Rat}

/-! ### Findings of comparisons -/

theorem kind?_eq_some_iff {a b : Category} {kind : DriftKind} : kind? a b = some kind ↔
    ¬(a = .placeholder ∧ b = .placeholder) ∧ (kind = .stale ↔
      (a = .placeholder ∧ (b = .informative ∨ b = .misleading)) ∨
        (b = .placeholder ∧ (a = .informative ∨ a = .misleading))) := by
  simp only [kind?, Category.isHollow, Category.isSubstantive, Bool.and_eq_true, Bool.or_eq_true,
    beq_iff_eq]
  split
  · next hhollow => exact iff_of_false nofun fun h => h.1 hhollow
  · next hfilled =>
    split
    · next hstale => cases kind <;> simp [hfilled, hstale]
    · next hstale => cases kind <;> simp [hfilled, hstale]

theorem exists_kind? {a b : Category} (h : ¬(a = .placeholder ∧ b = .placeholder)) :
    ∃ kind, kind? a b = some kind := by
  by_cases hstale : (a = .placeholder ∧ (b = .informative ∨ b = .misleading)) ∨
      (b = .placeholder ∧ (a = .informative ∨ a = .misleading))
  · exact ⟨.stale, kind?_eq_some_iff.2 ⟨h, iff_of_true rfl hstale⟩⟩
  · exact ⟨.inconsistent, kind?_eq_some_iff.2 ⟨h, iff_of_false nofun hstale⟩⟩

theorem kind?_comm (a b : Category) : kind? a b = kind? b a := by
  rw [kind?, kind?, Bool.and_comm, Bool.or_comm]

/-- A finding is about two places. -/
def Joins (f : Finding Rat) (a b : Place) : Prop :=
  (f.first = a ∧ f.second = b) ∨ (f.first = b ∧ f.second = a)

theorem Joins.unique {a b c d : Place} (hab : Joins f a b) (hcd : Joins f c d) :
    (a = c ∧ b = d) ∨ (a = d ∧ b = c) := by
  rcases hab with ⟨rfl, rfl⟩ | ⟨rfl, rfl⟩ <;> rcases hcd with ⟨rfl, rfl⟩ | ⟨rfl, rfl⟩
  · exact .inl ⟨rfl, rfl⟩
  · exact .inr ⟨rfl, rfl⟩
  · exact .inr ⟨rfl, rfl⟩
  · exact .inl ⟨rfl, rfl⟩

/-- What a finding says of the comparison that it comes from. -/
structure Shows (threshold : Rat) (p : Comparison Rat) (f : Finding Rat) : Prop where
  joins : Joins f p.left.place p.right.place
  ordered : f.first.le f.second = true
  kind : kind? p.left.category p.right.category = some f.kind
  words : f.commentLikeness = wordLikeness p.left p.right
  below : f.commentLikeness < threshold
  code : f.codeLikeness = p.codeLikeness

theorem Shows.swap (h : Shows threshold p f)
    (hwords : wordLikeness p.left p.right = wordLikeness p.right p.left) :
    Shows threshold ⟨p.right, p.left, p.codeLikeness⟩ f where
  joins := h.joins.symm
  ordered := h.ordered
  kind := kind?_comm _ _ ▸ h.kind
  words := h.words.trans hwords
  below := h.below
  code := h.code

/-- A comparison has one finding, since its places come in order. -/
theorem Shows.unique (hf : Shows threshold p f) (hg : Shows threshold p g) : f = g := by
  have hplaces : f.first = g.first ∧ f.second = g.second := by
    have hford := hf.ordered
    have hgord := hg.ordered
    rcases hf.joins with ⟨hf1, hf2⟩ | ⟨hf1, hf2⟩ <;>
      rcases hg.joins with ⟨hg1, hg2⟩ | ⟨hg1, hg2⟩ <;>
      rw [hf1, hf2] at hford <;> rw [hg1, hg2] at hgord <;> rw [hf1, hf2, hg1, hg2]
    · exact ⟨rfl, rfl⟩
    · have heq := Place.le_antisymm hford hgord
      exact ⟨heq, heq.symm⟩
    · have heq := Place.le_antisymm hford hgord
      exact ⟨heq, heq.symm⟩
    · exact ⟨rfl, rfl⟩
  have hcode := hf.code.trans hg.code.symm
  have hwords := hf.words.trans hg.words.symm
  have hkind := Option.some.inj (hf.kind.symm.trans hg.kind)
  obtain ⟨hfirst, hsecond⟩ := hplaces
  cases f
  cases g
  rw [Finding.mk.injEq]
  exact ⟨hfirst, hsecond, hcode, hwords, hkind⟩

theorem shows_of_finding? (h : finding? threshold p = some f) : Shows threshold p f := by
  unfold finding? at h
  extract_lets a b likeness inOrder at h
  split at h
  · cases h
  · next hbelow =>
    obtain ⟨kind, hkind, rfl⟩ := Option.map_eq_some_iff.1 h
    by_cases hle : inOrder = true
    · refine ⟨.inl ⟨if_pos hle, if_pos hle⟩, ?_, hkind, rfl, not_le.1 hbelow, rfl⟩
      simp only [if_pos hle]
      exact hle
    · refine ⟨.inr ⟨if_neg hle, if_neg hle⟩, ?_, hkind, rfl, not_le.1 hbelow, rfl⟩
      simp only [if_neg hle]
      exact (Place.le_total _ _).resolve_left hle

/-- Comments whose words are not alike disagree, unless both are hollow. -/
theorem exists_finding? (hbelow : wordLikeness p.left p.right < threshold)
    (hfilled : ¬(p.left.category = .placeholder ∧ p.right.category = .placeholder)) :
    ∃ f, finding? threshold p = some f := by
  obtain ⟨kind, hkind⟩ := exists_kind? hfilled
  unfold finding?
  extract_lets a b likeness
  have hkind : kind? a.verdict.category b.verdict.category = some kind := hkind
  rw [if_neg (not_le.2 hbelow), hkind]
  exact ⟨_, rfl⟩

/-! ### The report -/

section Report

variable {settings : DriftSettings Rat} {dictionary : Dictionary} {comments : List (Judged Rat)}

theorem findings_eq (henabled : settings.enabled = true) :
    (detect settings dictionary comments).findings =
      ((comparisons settings.codeThreshold settings.bucketLimit
        (grouped Candidate.bucket (candidates dictionary comments))).filterMap
          (finding? settings.commentThreshold)).mergeSort findingLe := by
  rw [detect, if_pos henabled]

theorem findings_ne_nil_iff (henabled : settings.enabled = true) :
    (detect settings dictionary comments).findings ≠ [] ↔
      (comparisons settings.codeThreshold settings.bucketLimit
        (grouped Candidate.bucket (candidates dictionary comments))).filterMap
          (finding? settings.commentThreshold) ≠ [] := by
  rw [findings_eq henabled, ← List.length_pos_iff, List.length_mergeSort, List.length_pos_iff]

theorem exists_comparison_of_mem_findings (h : f ∈ (detect settings dictionary comments).findings) :
    ∃ p, Compared settings.codeThreshold settings.bucketLimit (candidates dictionary comments) p ∧
      Shows settings.commentThreshold p f := by
  by_cases henabled : settings.enabled = true
  · rw [findings_eq henabled, List.mem_mergeSort] at h
    obtain ⟨p, hp, hf⟩ := List.mem_filterMap.1 h
    exact ⟨p, compared_of_mem hp, shows_of_finding? hf⟩
  · rw [findings_of_disabled henabled] at h
    simp at h

/-- A finding is about two comments of one bucket that stand at different sites. -/
theorem exists_joined_of_mem_findings (h : f ∈ (detect settings dictionary comments).findings) :
    ∃ j ∈ comments, ∃ k ∈ comments, bucket? j = bucket? k ∧ siteOf j ≠ siteOf k ∧
      Joins f j.comment.place k.comment.place := by
  obtain ⟨p, hp, hshows⟩ := exists_comparison_of_mem_findings h
  refine ⟨p.left.judged, judged_mem_of_mem hp.left, p.right.judged, judged_mem_of_mem hp.right, ?_,
    hp.site, hshows.joins⟩
  rw [bucket_of_mem hp.left, bucket_of_mem hp.right, hp.bucket]

/-- The likeness of what two comments say: that of the sets of their words. -/
def textLikeness (dictionary : Dictionary) (a b : Comment) : Rat :=
  setLikeness (commentWords dictionary a.raw).toFinset (commentWords dictionary b.raw).toFinset

theorem textLikeness_comm (a b : Comment) :
    textLikeness dictionary a b = textLikeness dictionary b a := setLikeness_comm _ _

theorem wordLikeness_eq_textLikeness {a b : Candidate Rat}
    (ha : a ∈ candidates dictionary comments) (hb : b ∈ candidates dictionary comments) :
    wordLikeness a b = textLikeness dictionary a.judged.comment b.judged.comment := by
  rw [wordLikeness_eq (words_nodup_of_mem ha) (words_nodup_of_mem hb), words_of_mem ha,
    words_of_mem hb]
  rfl

/-! ### Findings are sound, unique and in order -/

/-- Two comments of the input disagree as a finding says. -/
structure Drifted (settings : DriftSettings Rat) (dictionary : Dictionary)
    (comments : List (Judged Rat)) (f : Finding Rat) (a b : Candidate Rat) : Prop where
  left : comments[a.index]? = some a.judged ∧ a = .ofJudged dictionary a.judged a.index
  right : comments[b.index]? = some b.judged ∧ b = .ofJudged dictionary b.judged b.index
  first : f.first = a.judged.comment.place
  second : f.second = b.judged.comment.place
  site : a.site ≠ b.site
  code : a.judged.comment.code ≠ "" ∧ b.judged.comment.code ≠ ""
  tokens : a.lineTokens ≠ [] ∧ b.lineTokens ≠ []
  bucket : a.bucket = b.bucket
  filled : ¬(a.category = .placeholder ∧ b.category = .placeholder)
  commentLikeness : f.commentLikeness =
    textLikeness dictionary a.judged.comment b.judged.comment
  below : f.commentLikeness < settings.commentThreshold
  codeLikeness : ∃ x y, First (candidates dictionary comments) a.bucket a.site x ∧
    First (candidates dictionary comments) b.bucket b.site y ∧ f.codeLikeness = siteLikeness x y
  reached : settings.codeThreshold ≤ f.codeLikeness
  kind : f.kind = .stale ↔
    (a.category = .placeholder ∧ (b.category = .informative ∨ b.category = .misleading)) ∨
      (b.category = .placeholder ∧ (a.category = .informative ∨ a.category = .misleading))

theorem drifted_of_shows
    (hp : Compared settings.codeThreshold settings.bucketLimit (candidates dictionary comments) p)
    (hf : Shows settings.commentThreshold p f)
    (hplaces : f.first = p.left.place ∧ f.second = p.right.place) :
    Drifted settings dictionary comments f p.left p.right := by
  obtain ⟨hfilled, hkind⟩ := kind?_eq_some_iff.1 hf.kind
  obtain ⟨x, y, hx, hy, halike, hvalue⟩ := hp.alike
  exact {
    left := ⟨judged_of_mem hp.left, ofJudged_of_mem hp.left⟩
    right := ⟨judged_of_mem hp.right, ofJudged_of_mem hp.right⟩
    first := hplaces.1
    second := hplaces.2
    site := hp.site
    code := ⟨code_ne_empty_of_mem hp.left, code_ne_empty_of_mem hp.right⟩
    tokens := ⟨lineTokens_ne_nil_of_mem hp.left, lineTokens_ne_nil_of_mem hp.right⟩
    bucket := hp.bucket
    filled := hfilled
    commentLikeness := hf.words.trans (wordLikeness_eq_textLikeness hp.left hp.right)
    below := hf.below
    codeLikeness := ⟨x, y, hx, hy, hf.code.trans hvalue⟩
    reached := by
      rw [hf.code, hvalue]
      exact le_min halike.line halike.block
    kind := hkind }

theorem exists_drifted
    (hp : Compared settings.codeThreshold settings.bucketLimit (candidates dictionary comments) p)
    (hf : Shows settings.commentThreshold p f) :
    ∃ a b, Drifted settings dictionary comments f a b := by
  rcases hf.joins with hplaces | hplaces
  · exact ⟨_, _, drifted_of_shows hp hf hplaces⟩
  · have hwords : wordLikeness p.left p.right = wordLikeness p.right p.left := by
      rw [wordLikeness_eq_textLikeness hp.left hp.right,
        wordLikeness_eq_textLikeness hp.right hp.left, textLikeness_comm]
    exact ⟨_, _, drifted_of_shows hp.swap (hf.swap hwords) hplaces⟩

theorem first_lt_second (hdistinct : (comments.map fun j => j.comment.place).Nodup)
    (hp : Compared settings.codeThreshold settings.bucketLimit (candidates dictionary comments) p)
    (hf : Shows settings.commentThreshold p f) : Place.order f.first f.second = .lt := by
  refine Place.order_eq_lt_of_le hf.ordered fun heq => hp.site ?_
  have hplaces : p.left.place = p.right.place := by
    rcases hf.joins with ⟨hfirst, hsecond⟩ | ⟨hfirst, hsecond⟩
    · rw [← hfirst, ← hsecond, heq]
    · rw [← hfirst, ← hsecond, heq]
  rw [eq_of_place_eq hdistinct hp.left hp.right hplaces]

/-- Findings come in strict order of their two places, so none repeats; the two places of a finding
are in order, and no two findings are about the same two places in either order. Each is of two
comments that disagree on like code. -/
theorem findings_sound_and_ordered (settings : DriftSettings Rat) (dictionary : Dictionary)
    {comments : List (Judged Rat)} (hdistinct : (comments.map fun j => j.comment.place).Nodup) :
    (detect settings dictionary comments).findings.Pairwise (fun f g => findingOrder f g = .lt) ∧
    (∀ f ∈ (detect settings dictionary comments).findings, Place.order f.first f.second = .lt) ∧
    (detect settings dictionary comments).findings.Pairwise
      (fun f g => ¬Joins f g.first g.second) ∧
    ∀ f ∈ (detect settings dictionary comments).findings,
      ∃ a b, Drifted settings dictionary comments f a b := by
  have hordered : (detect settings dictionary comments).findings.Pairwise
      fun f g => findingOrder f g = .lt := pairwise_findings hdistinct
  have hinner : ∀ f ∈ (detect settings dictionary comments).findings,
      Place.order f.first f.second = .lt := by
    intro f hf
    obtain ⟨p, hp, hshows⟩ := exists_comparison_of_mem_findings hf
    exact first_lt_second hdistinct hp hshows
  refine ⟨hordered, hinner, hordered.imp_of_mem ?_, ?_⟩
  · rintro f g hf hg hlt (hsame | hcrossed)
    · rw [findingOrder_eq_eq_iff.2 hsame] at hlt
      cases hlt
    · have hflt := hinner f hf
      rw [hcrossed.1, hcrossed.2] at hflt
      exact absurd (hinner g hg) (Std.OrientedCmp.not_lt_of_lt hflt)
  · intro f hf
    obtain ⟨p, hp, hshows⟩ := exists_comparison_of_mem_findings hf
    exact exists_drifted hp hshows

/-- A comment on the call `f(x);` in a file. -/
def onCall (fileId raw : String) (start : Nat) (category : Category) : Judged Rat where
  comment :=
    { fileId := fileId, start := start, stop := start + raw.length, line := 1, style := .line
      raw := raw, code := "f(x);", anchor := 40, block := "", blockStart := 0 }
  verdict := { category := category, confidence := 1, evidence := [], typos := [] }

/-- A marker and another comment on a call disagree with a comment on the same call elsewhere. -/
theorem findings_of_three_comments :
    let comments := [onCall "b.js" "// adds a row" 0 .informative,
      onCall "a.js" "// TODO" 0 .placeholder, onCall "a.js" "// drops all" 20 .filler]
    (comments.map fun j => j.comment.place).Nodup ∧
      ∃ f g, f ∈ (detect .default (Dictionary.ofList []) comments).findings ∧
        g ∈ (detect .default (Dictionary.ofList []) comments).findings ∧
        f.kind = .stale ∧ g.kind = .inconsistent ∧ Place.order f.first f.second = .lt ∧
        (∃ a b, Drifted .default (Dictionary.ofList []) comments f a b) ∧
        ∃ a b, Drifted .default (Dictionary.ofList []) comments g a b := by
  intro comments
  have hdistinct : (comments.map fun j => j.comment.place).Nodup := by decide +kernel
  have hfindings : (comparisons (DriftSettings.default : DriftSettings Rat).codeThreshold 64
      (grouped Candidate.bucket (candidates (Dictionary.ofList []) comments))).filterMap
        (finding? (DriftSettings.default : DriftSettings Rat).commentThreshold) =
      [⟨⟨"a.js", 0, 7⟩, ⟨"b.js", 0, 13⟩, 1, 0, .stale⟩,
        ⟨⟨"a.js", 20, 32⟩, ⟨"b.js", 0, 13⟩, 1, 0, .inconsistent⟩] := by decide +kernel
  have hmem : ∀ f, f ∈ (detect .default (Dictionary.ofList []) comments).findings ↔
      f ∈ [(⟨⟨"a.js", 0, 7⟩, ⟨"b.js", 0, 13⟩, 1, 0, .stale⟩ : Finding Rat),
        ⟨⟨"a.js", 20, 32⟩, ⟨"b.js", 0, 13⟩, 1, 0, .inconsistent⟩] := by
    intro f
    rw [← hfindings, findings_eq rfl, List.mem_mergeSort]
    rfl
  obtain ⟨-, hordered, -, hdrifted⟩ :=
    findings_sound_and_ordered .default (Dictionary.ofList []) hdistinct
  have hf := (hmem _).2 List.mem_cons_self
  have hg := (hmem _).2 (List.mem_cons_of_mem _ List.mem_cons_self)
  exact ⟨hdistinct, _, _, hf, hg, rfl, rfl, hordered _ hf, hdrifted _ hf, hdrifted _ hg⟩

/-! ### No disagreement is missed -/

/-- A comment of a site in a bucket. -/
structure On (dictionary : Dictionary) (comments : List (Judged Rat)) (bucket : UInt64)
    (site : String × Nat) (c : Candidate Rat) : Prop where
  mem : c ∈ candidates dictionary comments
  bucket : c.bucket = bucket
  site : c.site = site

/-- A comment of one site that documents something and agrees with no comment of the other site is
reported together with one that is closest to it there. -/
def Reported (settings : DriftSettings Rat) (dictionary : Dictionary) (comments : List (Judged Rat))
    (bucket : UInt64) (site other : String × Nat) : Prop :=
  ∀ c, On dictionary comments bucket site c → c.category ≠ .placeholder →
    (∀ d, On dictionary comments bucket other d →
      textLikeness dictionary c.judged.comment d.judged.comment < settings.commentThreshold) →
    ∃ d, On dictionary comments bucket other d ∧
      (∀ e, On dictionary comments bucket other e →
        textLikeness dictionary c.judged.comment e.judged.comment ≤
          textLikeness dictionary c.judged.comment d.judged.comment) ∧
      ∃ f ∈ (detect settings dictionary comments).findings, Joins f c.place d.place

variable {bucket : UInt64} {siteA siteB : String × Nat} {x y : Candidate Rat}

theorem mem_compared_iff {limit : Nat} {c : Candidate Rat}
    (hlimit : (havingKey Candidate.bucket (candidates dictionary comments) bucket).length ≤ limit) :
    c ∈ compared limit (candidates dictionary comments) bucket siteA ↔
      On dictionary comments bucket siteA c := by
  rw [compared_eq hlimit, mem_havingKey, mem_havingKey]
  constructor
  · rintro ⟨⟨hmem, hbucket⟩, hsite⟩
    exact ⟨hmem, hbucket, hsite⟩
  · rintro ⟨hmem, hbucket, hsite⟩
    exact ⟨⟨hmem, hbucket⟩, hsite⟩

/-- A comparison that refers to two comments is of these comments. -/
theorem exists_finding_of_refers (henabled : settings.enabled = true) {c d : Candidate Rat}
    (hc : c ∈ candidates dictionary comments) (hd : d ∈ candidates dictionary comments)
    (hp : p ∈ comparisons settings.codeThreshold settings.bucketLimit
      (grouped Candidate.bucket (candidates dictionary comments)))
    (hrefers : Refers p c.index d.index)
    (hfilled : ¬(c.category = .placeholder ∧ d.category = .placeholder))
    (hbelow : textLikeness dictionary c.judged.comment d.judged.comment <
      settings.commentThreshold) :
    ∃ f ∈ (detect settings dictionary comments).findings, Joins f c.place d.place := by
  have hcompared := compared_of_mem hp
  have hsides := sides_of_refers hcompared hc hd hrefers
  have hwords : wordLikeness p.left p.right < settings.commentThreshold := by
    rw [wordLikeness_eq_textLikeness hcompared.left hcompared.right]
    rcases hsides with ⟨hleft, hright⟩ | ⟨hleft, hright⟩
    · rw [hleft, hright]
      exact hbelow
    · rw [hleft, hright, textLikeness_comm]
      exact hbelow
  have hsome : ¬(p.left.category = .placeholder ∧ p.right.category = .placeholder) := by
    rcases hsides with ⟨rfl, rfl⟩ | ⟨rfl, rfl⟩
    · exact hfilled
    · exact fun h => hfilled h.symm
  obtain ⟨f, hf⟩ := exists_finding? hwords hsome
  refine ⟨f, ?_, ?_⟩
  · rw [findings_eq henabled, List.mem_mergeSort]
    exact List.mem_filterMap.2 ⟨p, hp, hf⟩
  · have hjoins := (shows_of_finding? hf).joins
    rcases hsides with ⟨rfl, rfl⟩ | ⟨rfl, rfl⟩
    · exact hjoins
    · exact hjoins.symm

theorem reported (henabled : settings.enabled = true) (hsites : siteA ≠ siteB)
    (hlimit : (havingKey Candidate.bucket (candidates dictionary comments) bucket).length
      ≤ settings.bucketLimit)
    (hx : First (candidates dictionary comments) bucket siteA x)
    (hy : First (candidates dictionary comments) bucket siteB y)
    (halike : Alike settings.codeThreshold x y) :
    Reported settings dictionary comments bucket siteA siteB := by
  intro c hc hfilled hbelow
  obtain ⟨d, hclosest, p, hp, hrefers⟩ :=
    exists_comparison_closest hlimit hsites hx hy halike hc.mem hc.bucket hc.site
  have hd := (mem_compared_iff hlimit).1 hclosest.mem
  refine ⟨d, hd, fun e he => ?_, ?_⟩
  · rw [← wordLikeness_eq_textLikeness hc.mem he.mem, ← wordLikeness_eq_textLikeness hc.mem hd.mem]
    exact hclosest.le e ((mem_compared_iff hlimit).2 he)
  · exact exists_finding_of_refers henabled hc.mem hd.mem hp hrefers (fun h => hfilled h.1)
      (hbelow d hd)

/-- Where two sites of a bucket that is not cut short are alike, every comment of either that
documents something and agrees with no comment of the other is reported with one of its closest
there. -/
theorem no_drift_missed {settings : DriftSettings Rat} (henabled : settings.enabled = true)
    (dictionary : Dictionary) (comments : List (Judged Rat)) {bucket : UInt64}
    {siteA siteB : String × Nat} (hsites : siteA ≠ siteB)
    (hlimit : (havingKey Candidate.bucket (candidates dictionary comments) bucket).length
      ≤ settings.bucketLimit)
    {x y : Candidate Rat} (hx : First (candidates dictionary comments) bucket siteA x)
    (hy : First (candidates dictionary comments) bucket siteB y)
    (halike : Alike settings.codeThreshold x y) :
    Reported settings dictionary comments bucket siteA siteB ∧
      Reported settings dictionary comments bucket siteB siteA :=
  ⟨reported henabled hsites hlimit hx hy halike,
    reported henabled hsites.symm hlimit hy hx halike.symm⟩

/-- The comment of one file is reported with one of the two at the same call in another. -/
theorem drift_reported_of_three_comments :
    let comments := [onCall "b.js" "// adds a row" 0 .informative,
      onCall "a.js" "// TODO" 0 .placeholder, onCall "a.js" "// drops all" 20 .filler]
    let dictionary := Dictionary.ofList []
    let bucket := Digest.ofText (bucketText (Code.normalTokens "f(x);"))
    (havingKey Candidate.bucket (candidates dictionary comments) bucket).length ≤ 64 ∧
      ∃ x y, First (candidates dictionary comments) bucket ("b.js", 40) x ∧
        First (candidates dictionary comments) bucket ("a.js", 40) y ∧
        Alike (DriftSettings.default : DriftSettings Rat).codeThreshold x y ∧
        ∃ d, On dictionary comments bucket ("a.js", 40) d ∧
          ∃ f ∈ (detect .default dictionary comments).findings,
            Joins f ⟨"b.js", 0, 13⟩ d.place := by
  intro comments dictionary bucket
  let added := Candidate.ofJudged dictionary (onCall "b.js" "// adds a row" 0 .informative) 0
  let marker := Candidate.ofJudged dictionary (onCall "a.js" "// TODO" 0 .placeholder) 1
  let dropped := Candidate.ofJudged dictionary (onCall "a.js" "// drops all" 20 .filler) 2
  have hall : candidates dictionary comments = [added, marker, dropped] := by decide +kernel
  have hlimit :
      (havingKey Candidate.bucket (candidates dictionary comments) bucket).length ≤ 64 := by
    decide +kernel
  have hx : First (candidates dictionary comments) bucket ("b.js", 40) added := by
    rw [First]
    decide +kernel
  have hy : First (candidates dictionary comments) bucket ("a.js", 40) marker := by
    rw [First]
    decide +kernel
  have halike : Alike (DriftSettings.default : DriftSettings Rat).codeThreshold added marker :=
    ⟨by decide +kernel, by decide +kernel, by decide +kernel⟩
  have henabled : (DriftSettings.default : DriftSettings Rat).enabled = true := rfl
  obtain ⟨hreported, -⟩ := no_drift_missed henabled dictionary comments (by decide) hlimit hx hy
    halike
  have hadded : On dictionary comments bucket ("b.js", 40) added :=
    ⟨hall ▸ List.mem_cons_self, by decide +kernel, rfl⟩
  have hbelow : ∀ d, On dictionary comments bucket ("a.js", 40) d →
      textLikeness dictionary added.judged.comment d.judged.comment <
        (DriftSettings.default : DriftSettings Rat).commentThreshold := by
    rintro d ⟨hd, -, hsite⟩
    rw [hall] at hd
    simp only [List.mem_cons, List.not_mem_nil, or_false] at hd
    rcases hd with rfl | rfl | rfl
    · exact absurd hsite (by decide)
    · decide +kernel
    · decide +kernel
  obtain ⟨d, hd, -, hf⟩ := hreported added hadded nofun hbelow
  exact ⟨hlimit, added, marker, hx, hy, halike, d, hd, hf⟩

end Report

end Marginalia.Drift
