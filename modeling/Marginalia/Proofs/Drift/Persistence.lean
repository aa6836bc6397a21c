import Marginalia.Proofs.Drift.Findings
import Mathlib.Data.List.Forall2

/-! Findings persist when other comments go: two comments reported against each other are reported
again, if they are found again with the code around them. -/

namespace Marginalia.Drift

open Marginalia.Spelling

/-! ### The closest of fewer comments -/

section Closest

variable {c d best : Candidate Rat} {others fewer : List (Candidate Rat)}

theorem closestFrom_of_le (h : ∀ e ∈ others, wordLikeness c e ≤ wordLikeness c best) :
    closestFrom c best others = best := by
  induction others with
  | nil => rfl
  | cons e rest ih =>
    rw [closestFrom, if_neg (not_lt.2 (h e List.mem_cons_self))]
    exact ih fun e he => h e (List.mem_cons_of_mem _ he)

theorem closestFrom_append {front back : List (Candidate Rat)}
    (hfront : ∀ e ∈ best :: front, wordLikeness c e < wordLikeness c d)
    (hback : ∀ e ∈ back, wordLikeness c e ≤ wordLikeness c d) :
    closestFrom c best (front ++ d :: back) = d := by
  induction front generalizing best with
  | nil =>
    rw [List.nil_append, closestFrom, if_pos (hfront best List.mem_cons_self)]
    exact closestFrom_of_le hback
  | cons e front ih =>
    rw [List.cons_append, closestFrom]
    refine ih fun e' he' => ?_
    rcases List.mem_cons.1 he' with rfl | he'
    · split
      · exact hfront e (List.mem_cons_of_mem _ List.mem_cons_self)
      · exact hfront best List.mem_cons_self
    · exact hfront e' (List.mem_cons_of_mem _ (List.mem_cons_of_mem _ he'))

/-- What the scan finds is the first candidate that none is closer than. -/
theorem exists_append_of_closestFrom (h : closestFrom c best others = d) :
    ∃ front back, best :: others = front ++ d :: back ∧
      (∀ e ∈ front, wordLikeness c e < wordLikeness c d) ∧
      ∀ e ∈ back, wordLikeness c e ≤ wordLikeness c d := by
  induction others generalizing best with
  | nil =>
    obtain rfl : best = d := h
    exact ⟨[], [], rfl, by simp, by simp⟩
  | cons e rest ih =>
    rw [closestFrom] at h
    split at h
    · next hlt =>
      obtain ⟨front, back, hsplit, hfront, hback⟩ := ih h
      refine ⟨best :: front, back, by rw [hsplit, List.cons_append], ?_, hback⟩
      intro e' he'
      rcases List.mem_cons.1 he' with rfl | he'
      · have hle : wordLikeness c e ≤ wordLikeness c d :=
          h ▸ wordLikeness_le_closestFrom c e rest e List.mem_cons_self
        exact lt_of_lt_of_le hlt hle
      · exact hfront e' he'
    · next hnlt =>
      obtain ⟨front, back, hsplit, hfront, hback⟩ := ih h
      have hle : wordLikeness c best ≤ wordLikeness c d :=
        h ▸ wordLikeness_le_closestFrom c best rest best List.mem_cons_self
      cases front with
      | nil =>
        rw [List.nil_append, List.cons.injEq] at hsplit
        obtain ⟨rfl, rfl⟩ := hsplit
        refine ⟨[], e :: rest, rfl, by simp, fun e' he' => ?_⟩
        rcases List.mem_cons.1 he' with rfl | he'
        · exact not_lt.1 hnlt
        · exact hback e' he'
      | cons first front =>
        rw [List.cons_append, List.cons.injEq] at hsplit
        obtain ⟨rfl, rfl⟩ := hsplit
        refine ⟨best :: e :: front, back, rfl, fun e' he' => ?_, hback⟩
        have hbest := hfront best List.mem_cons_self
        rcases List.mem_cons.1 he' with rfl | he'
        · exact hbest
        · rcases List.mem_cons.1 he' with rfl | he'
          · exact lt_of_le_of_lt (not_lt.1 hnlt) hbest
          · exact hfront e' (List.mem_cons_of_mem _ he')

theorem closest?_eq_some_iff : closest? c others = some d ↔
    ∃ front back, others = front ++ d :: back ∧
      (∀ e ∈ front, wordLikeness c e < wordLikeness c d) ∧
      ∀ e ∈ back, wordLikeness c e ≤ wordLikeness c d := by
  cases others with
  | nil => simp [closest?]
  | cons e rest =>
    rw [closest?, Option.some.injEq]
    refine ⟨exists_append_of_closestFrom, ?_⟩
    rintro ⟨front, back, hsplit, hfront, hback⟩
    cases front with
    | nil =>
      rw [List.nil_append, List.cons.injEq] at hsplit
      obtain ⟨rfl, rfl⟩ := hsplit
      exact closestFrom_of_le hback
    | cons first front =>
      rw [List.cons_append, List.cons.injEq] at hsplit
      obtain ⟨rfl, rfl⟩ := hsplit
      exact closestFrom_append hfront hback

/-- The closest of some comments is still the closest when others of them go. -/
theorem closest?_of_sublist (h : closest? c others = some d) (hfewer : fewer.Sublist others)
    (hnodup : others.Nodup) (hd : d ∈ fewer) : closest? c fewer = some d := by
  obtain ⟨front, back, rfl, hfront, hback⟩ := closest?_eq_some_iff.1 h
  obtain ⟨fewerFront, rest, rfl, hsubFront, hsubRest⟩ := List.sublist_append_iff.1 hfewer
  have hnotFront : d ∉ fewerFront := fun hmem =>
    lt_irrefl _ (hfront d (hsubFront.subset hmem))
  have hnotBack : d ∉ back := (List.nodup_cons.1 (List.nodup_append.1 hnodup).2.1).1
  have hrest : d ∈ rest := (List.mem_append.1 hd).resolve_left hnotFront
  rcases List.sublist_cons_iff.1 hsubRest with hsub | ⟨fewerBack, rfl, hsub⟩
  · exact absurd (hsub.subset hrest) hnotBack
  · exact closest?_eq_some_iff.2 ⟨fewerFront, fewerBack, rfl,
      fun e he => hfront e (hsubFront.subset he), fun e he => hback e (hsub.subset he)⟩

end Closest

/-! ### Comments with the same words -/

section Words

variable {α : Type} [Score α] {R : Candidate α → Candidate α → Prop} {c c' d : Candidate α}
  {others others' : List (Candidate α)}

theorem closestFrom_rel (hwords : c.words = c'.words) (hR : ∀ {e e'}, R e e' → e.words = e'.words)
    {best best' : Candidate α} (hbest : R best best') (h : List.Forall₂ R others others') :
    R (closestFrom c best others) (closestFrom c' best' others') := by
  induction h generalizing best best' with
  | nil => exact hbest
  | @cons e e' rest rest' he _ ih =>
    rw [closestFrom, closestFrom]
    have hlikeness : (wordLikeness c best < wordLikeness c e) =
        (wordLikeness c' best' < wordLikeness c' e') := by
      rw [wordLikeness, wordLikeness, wordLikeness, wordLikeness, hwords, hR hbest, hR he]
    by_cases hlt : wordLikeness c best < wordLikeness c e
    · rw [if_pos hlt, if_pos (hlikeness ▸ hlt)]
      exact ih he
    · rw [if_neg hlt, if_neg (hlikeness ▸ hlt)]
      exact ih hbest

theorem exists_closest?_rel (hwords : c.words = c'.words)
    (hR : ∀ {e e'}, R e e' → e.words = e'.words) (h : List.Forall₂ R others others')
    (hd : closest? c others = some d) : ∃ d', closest? c' others' = some d' ∧ R d d' := by
  cases h with
  | nil => cases hd
  | cons he hrest =>
    obtain rfl := Option.some.inj hd
    exact ⟨_, rfl, closestFrom_rel hwords hR he hrest⟩

end Words

/-! ### Comments found again -/

/-- Two comments of one line and one block. -/
structure Level {α : Type} (j k : Judged α) : Prop where
  line : Code.normalTokens j.comment.code = Code.normalTokens k.comment.code
  block : Code.normalTokens j.comment.context.1 = Code.normalTokens k.comment.context.1
  place : blockOf j = blockOf k

/-- The comments of a site that are in one bucket have one line and stand in one block. -/
def Settled {α : Type} (comments : List (Judged α)) : Prop :=
  ∀ j ∈ comments, ∀ k ∈ comments, bucket? j = bucket? k → siteOf j = siteOf k → Level j k

/-- A comment is found again with the code around it, up to blanks and letter case. -/
structure Continues {α : Type} (j k : Judged α) : Prop where
  raw : j.comment.raw = k.comment.raw
  line : Code.normalTokens j.comment.code = Code.normalTokens k.comment.code
  block : Code.normalTokens j.comment.context.1 = Code.normalTokens k.comment.context.1
  category : j.verdict.category = k.verdict.category

/-- Some of the comments are found again, in order and on the sites and in the blocks that they had
to each other. -/
structure Links {α : Type} (comments found : List (Judged α))
    (links : List (Judged α × Judged α)) : Prop where
  sublist : (links.map Prod.fst).Sublist comments
  found : links.map Prod.snd = found
  continues : ∀ p ∈ links, Continues p.1 p.2
  sites : ∀ p ∈ links, ∀ q ∈ links, siteOf p.1 = siteOf q.1 ↔ siteOf p.2 = siteOf q.2
  blocks : ∀ p ∈ links, ∀ q ∈ links, blockOf p.1 = blockOf q.1 ↔ blockOf p.2 = blockOf q.2

section Links

variable {α : Type} {dictionary : Dictionary} {comments found : List (Judged α)}
  {links : List (Judged α × Judged α)} {p q : Judged α × Judged α} {bucket : UInt64}
  {site site' : String × Nat} {limit : Nat}

theorem Continues.bucket?_eq {j k : Judged α} (h : Continues j k) : bucket? j = bucket? k := by
  rw [bucket?, bucket?, h.line]

theorem Links.mem_left (h : Links comments found links) (hp : p ∈ links) : p.1 ∈ comments :=
  h.sublist.subset (List.mem_map_of_mem hp)

theorem Links.exists_of_mem (h : Links comments found links) {k : Judged α} (hk : k ∈ found) :
    ∃ p ∈ links, p.2 = k := by
  rw [← h.found] at hk
  exact List.mem_map.1 hk

/-- The comments of a site among those of a bucket. -/
def atSite (comments : List (Judged α)) (bucket : UInt64) (site : String × Nat) :
    List (Judged α) :=
  (inBucket comments bucket).filter fun j => siteOf j == site

theorem map_judged_atSite :
    (havingKey Candidate.site
      (havingKey Candidate.bucket (candidates dictionary comments) bucket) site).map
        Candidate.judged = atSite comments bucket site := by
  rw [atSite, ← map_judged_havingKey dictionary, List.filter_map]
  rfl

/-- The links of a site, among those of a bucket. -/
def linksAt (links : List (Judged α × Judged α)) (bucket : UInt64) (site : String × Nat) :
    List (Judged α × Judged α) :=
  links.filter fun q => bucket? q.1 == some bucket && siteOf q.1 == site

theorem mem_linksAt : q ∈ linksAt links bucket site ↔
    q ∈ links ∧ bucket? q.1 = some bucket ∧ siteOf q.1 = site := by
  rw [linksAt, List.mem_filter, Bool.and_eq_true, beq_iff_eq, beq_iff_eq]

theorem Links.sublist_atSite (h : Links comments found links) (bucket : UInt64)
    (site : String × Nat) :
    ((linksAt links bucket site).map Prod.fst).Sublist (atSite comments bucket site) := by
  have hmap : (linksAt links bucket site).map Prod.fst =
      atSite (links.map Prod.fst) bucket site := by
    simp only [linksAt, atSite, inBucket, List.filter_filter, List.filter_map, Bool.and_comm,
      Function.comp_def]
  rw [hmap]
  exact (h.sublist.filter _).filter _

/-- The comments of a site that are found again are all that is found at the site of one of them. -/
theorem Links.map_snd_linksAt (h : Links comments found links) (hp : p ∈ links) :
    (linksAt links bucket (siteOf p.1)).map Prod.snd = atSite found bucket (siteOf p.2) := by
  rw [← h.found]
  simp only [linksAt, atSite, inBucket, List.filter_filter, List.filter_map, Bool.and_comm,
    Function.comp_def]
  refine congrArg _ (List.filter_congr fun q hq => ?_)
  rw [(h.continues q hq).bucket?_eq, Bool.eq_iff_iff, Bool.and_eq_true, Bool.and_eq_true,
    beq_iff_eq, beq_iff_eq, beq_iff_eq, h.sites q hq p hp]

theorem Links.eq_of_fst_eq (h : Links comments found links)
    (hdistinct : (comments.map fun j => j.comment.place).Nodup) (hp : p ∈ links) (hq : q ∈ links)
    (heq : p.1 = q.1) : p = q :=
  List.inj_on_of_nodup_map ((List.Nodup.of_map _ hdistinct).sublist h.sublist) hp hq heq

end Links

section Findings

variable {settings : DriftSettings Rat} {dictionary : Dictionary}
  {comments found : List (Judged Rat)} {links : List (Judged Rat × Judged Rat)}
  {a b a' b' x x' : Candidate Rat}

theorem words_of_link (h : Links comments found links) (ha : a ∈ candidates dictionary comments)
    (ha' : a' ∈ candidates dictionary found) (hlink : (a.judged, a'.judged) ∈ links) :
    a.words = a'.words := by
  rw [words_of_mem ha, words_of_mem ha', (h.continues _ hlink).raw]

theorem bucket_of_link (h : Links comments found links) (ha : a ∈ candidates dictionary comments)
    (ha' : a' ∈ candidates dictionary found) (hlink : (a.judged, a'.judged) ∈ links) :
    a.bucket = a'.bucket := by
  have hbucket := (h.continues _ hlink).bucket?_eq
  rw [bucket_of_mem ha, bucket_of_mem ha', Option.some.injEq] at hbucket
  exact hbucket

theorem compared_eq_atSite (dictionary : Dictionary) {bucket : UInt64} {site : String × Nat}
    {limit : Nat}
    (hlimit : (inBucket comments bucket).length ≤ limit) :
    (compared limit (candidates dictionary comments) bucket site).map Candidate.judged =
      atSite comments bucket site := by
  rw [compared_eq (length_havingKey_candidates dictionary ▸ hlimit), map_judged_atSite]

/-- Of what was compared at a site, the comments that are found again are what is compared there
again. -/
theorem exists_compared_again (h : Links comments found links)
    (hdistinct : (comments.map fun j => j.comment.place).Nodup) {limit : Nat}
    (hlimit : ∀ bucket, (inBucket comments bucket).length ≤ limit)
    (hlimit' : ∀ bucket, (inBucket found bucket).length ≤ limit)
    (hb : b ∈ candidates dictionary comments) (hlink : (b.judged, b'.judged) ∈ links) :
    ∃ fewer, fewer.Sublist (compared limit (candidates dictionary comments) b.bucket b.site) ∧
      b ∈ fewer ∧ List.Forall₂ (fun c c' => (c.judged, c'.judged) ∈ links) fewer
        (compared limit (candidates dictionary found) b.bucket b'.site) := by
  have hsub := h.sublist_atSite b.bucket b.site
  rw [← compared_eq_atSite dictionary (hlimit b.bucket), List.sublist_map_iff] at hsub
  obtain ⟨fewer, hfewer, hmap⟩ := hsub
  have hmap' : (linksAt links b.bucket b.site).map Prod.snd =
      (compared limit (candidates dictionary found) b.bucket b'.site).map Candidate.judged :=
    (h.map_snd_linksAt hlink).trans (compared_eq_atSite dictionary (hlimit' b.bucket)).symm
  refine ⟨fewer, hfewer, ?_, ?_⟩
  · have hmem : (b.judged, b'.judged) ∈ linksAt links b.bucket b.site :=
      mem_linksAt.2 ⟨hlink, bucket_of_mem hb, rfl⟩
    have hjudged : b.judged ∈ fewer.map Candidate.judged := hmap ▸ List.mem_map_of_mem hmem
    obtain ⟨c, hc, hcb⟩ := List.mem_map.1 hjudged
    have hcb : c.place = b.place := congrArg (fun j => j.comment.place) hcb
    exact eq_of_place_eq hdistinct (mem_of_mem_compared (hfewer.subset hc)).1 hb hcb ▸ hc
  · have hpairs : List.Forall₂ (fun j j' => (j, j') ∈ links)
        ((linksAt links b.bucket b.site).map Prod.fst)
        ((linksAt links b.bucket b.site).map Prod.snd) := by
      rw [List.forall₂_map_left_iff, List.forall₂_map_right_iff, List.forall₂_same]
      exact fun p hp => (mem_linksAt.1 hp).1
    rwa [hmap, hmap', List.forall₂_map_left_iff, List.forall₂_map_right_iff] at hpairs

/-- The closest comment at a site is the closest again when it is found again. -/
theorem closest?_of_links (h : Links comments found links)
    (hdistinct : (comments.map fun j => j.comment.place).Nodup)
    (hdistinct' : (found.map fun j => j.comment.place).Nodup) {limit : Nat}
    (hlimit : ∀ bucket, (inBucket comments bucket).length ≤ limit)
    (hlimit' : ∀ bucket, (inBucket found bucket).length ≤ limit)
    (ha : a ∈ candidates dictionary comments) (hb : b ∈ candidates dictionary comments)
    (ha' : a' ∈ candidates dictionary found) (hb' : b' ∈ candidates dictionary found)
    (hlinkA : (a.judged, a'.judged) ∈ links) (hlinkB : (b.judged, b'.judged) ∈ links)
    (hclosest : closest? a (compared limit (candidates dictionary comments) b.bucket b.site) =
      some b) :
    closest? a' (compared limit (candidates dictionary found) b.bucket b'.site) = some b' := by
  obtain ⟨fewer, hfewer, hmem, hrel⟩ := exists_compared_again h hdistinct hlimit hlimit' hb hlinkB
  have hnodup : (compared limit (candidates dictionary comments) b.bucket b.site).Nodup := by
    refine List.Nodup.of_map Candidate.judged ?_
    rw [compared_eq_atSite dictionary (hlimit b.bucket)]
    exact ((List.Nodup.of_map _ hdistinct).filter _).filter _
  have hfound := closest?_of_sublist hclosest hfewer hnodup hmem
  have hrel : List.Forall₂ (fun c c' => (c.judged, c'.judged) ∈ links ∧ c.words = c'.words ∧
      c' ∈ candidates dictionary found) fewer
        (compared limit (candidates dictionary found) b.bucket b'.site) := by
    refine (forall₂_mem hrel).imp ?_
    rintro c c' ⟨hlink, hc, hc'⟩
    have hc := (mem_of_mem_compared (hfewer.subset hc)).1
    have hc' := (mem_of_mem_compared hc').1
    exact ⟨hlink, words_of_link h hc hc' hlink, hc'⟩
  obtain ⟨d, hd, hlink, -, hmem'⟩ :=
    exists_closest?_rel (words_of_link h ha ha' hlinkA) (fun hR => hR.2.1) hrel hfound
  have hlinks := h.eq_of_fst_eq hdistinct hlinkB hlink rfl
  have hplace : d.place = b'.place := congrArg (fun p => p.2.comment.place) hlinks.symm
  rw [hd, eq_of_place_eq hdistinct' hmem' hb' hplace]

/-- The first comment of a site, when comments are found again, is one that was level with the first
comment before. -/
theorem exists_level_of_first (h : Links comments found links) (hsettled : Settled comments)
    (ha : a ∈ candidates dictionary comments) (ha' : a' ∈ candidates dictionary found)
    (hlink : (a.judged, a'.judged) ∈ links)
    (hx : First (candidates dictionary comments) a.bucket a.site x)
    (hx' : First (candidates dictionary found) a'.bucket a'.site x') :
    ∃ p ∈ links, p.2 = x'.judged ∧ Level p.1 x.judged := by
  obtain ⟨hmem, hbucket, hsite⟩ := mem_of_first hx
  obtain ⟨hmem', hbucket', hsite'⟩ := mem_of_first hx'
  obtain ⟨p, hp, hpx⟩ := h.exists_of_mem (judged_mem_of_mem hmem')
  refine ⟨p, hp, hpx, hsettled p.1 (h.mem_left hp) x.judged (judged_mem_of_mem hmem) ?_ ?_⟩
  · rw [(h.continues p hp).bucket?_eq, hpx, bucket_of_mem hmem', bucket_of_mem hmem, hbucket,
      hbucket', bucket_of_link h ha ha' hlink]
  · have hpsite : siteOf p.2 = siteOf a'.judged := by
      rw [hpx]
      exact hsite'
    exact ((h.sites p hp _ hlink).2 hpsite).trans hsite.symm

/-- Sites that are alike are alike again. -/
theorem alike_of_level {threshold : Rat} {y y' : Candidate Rat} {p q : Judged Rat × Judged Rat}
    (h : Links comments found links) (hp : p ∈ links) (hq : q ∈ links)
    (hx : x ∈ candidates dictionary comments) (hy : y ∈ candidates dictionary comments)
    (hx' : x' ∈ candidates dictionary found) (hy' : y' ∈ candidates dictionary found)
    (hpx : p.2 = x'.judged) (hqy : q.2 = y'.judged) (hlevelX : Level p.1 x.judged)
    (hlevelY : Level q.1 y.judged) (halike : Alike threshold x y) : Alike threshold x' y' := by
  have hlineX : x'.lineTokens = x.lineTokens := by
    rw [lineTokens_of_mem hx', lineTokens_of_mem hx, ← hpx, ← (h.continues p hp).line, hlevelX.line]
  have hlineY : y'.lineTokens = y.lineTokens := by
    rw [lineTokens_of_mem hy', lineTokens_of_mem hy, ← hqy, ← (h.continues q hq).line, hlevelY.line]
  have hblockX : x'.blockTokens = x.blockTokens := by
    rw [blockTokens_of_mem hx', blockTokens_of_mem hx, ← hpx, ← (h.continues p hp).block,
      hlevelX.block]
  have hblockY : y'.blockTokens = y.blockTokens := by
    rw [blockTokens_of_mem hy', blockTokens_of_mem hy, ← hqy, ← (h.continues q hq).block,
      hlevelY.block]
  refine ⟨?_, ?_, ?_⟩
  · have hapart := halike.apart
    rw [← Bool.not_eq_true, sharesBlock_iff] at hapart ⊢
    rwa [← hpx, ← hqy, ← h.blocks p hp q hq, hlevelX.place, hlevelY.place]
  · rw [lineLikeness, hlineX, hlineY]
    exact halike.line
  · rw [blockLikeness, hblockX, hblockY]
    exact halike.block

variable {p q : Judged Rat × Judged Rat} {f : Finding Rat}

/-- What a run needs so that its findings persist: places and sites as they are in files, and no
bucket that is cut short. -/
structure Steady (settings : DriftSettings Rat) (comments : List (Judged Rat)) : Prop where
  settled : Settled comments
  whole : ∀ bucket, (inBucket comments bucket).length ≤ settings.bucketLimit

theorem Links.whole (h : Links comments found links) {limit : Nat}
    (hlimit : ∀ bucket, (inBucket comments bucket).length ≤ limit) (bucket : UInt64) :
    (inBucket found bucket).length ≤ limit := by
  have hlength : (inBucket found bucket).length =
      (inBucket (links.map Prod.fst) bucket).length := by
    rw [← h.found, inBucket, inBucket, List.filter_map, List.filter_map, List.length_map,
      List.length_map]
    refine congrArg _ (List.filter_congr fun p hp => ?_)
    rw [Function.comp_apply, Function.comp_apply, (h.continues p hp).bucket?_eq]
  rw [hlength]
  exact Nat.le_trans (h.sublist.filter _).length_le (hlimit bucket)

theorem exists_candidate_again (h : Links comments found links)
    (ha : a ∈ candidates dictionary comments) {k : Judged Rat} (hlink : (a.judged, k) ∈ links) :
    ∃ a' ∈ candidates dictionary found, a'.judged = k := by
  have hfull : Code.normalTokens k.comment.code ≠ [] := by
    rw [← (h.continues _ hlink).line, ← lineTokens_of_mem ha]
    exact lineTokens_ne_nil_of_mem ha
  exact exists_candidate (h.found ▸ List.mem_map_of_mem hlink) hfull

/-- A comment and the closest one of another site of its bucket, where the sites are alike. -/
structure Matched (settings : DriftSettings Rat) (all : List (Candidate Rat))
    (a b : Candidate Rat) : Prop where
  left : a ∈ all
  right : b ∈ all
  bucket : a.bucket = b.bucket
  site : a.site ≠ b.site
  alike : ∃ x y, First all a.bucket a.site x ∧ First all b.bucket b.site y ∧
    Alike settings.codeThreshold x y
  closest : closest? a (compared settings.bucketLimit all b.bucket b.site) = some b

/-- A comparison is of a comment with its closest, one way or the other. -/
theorem exists_matched {all : List (Candidate Rat)} {p : Comparison Rat}
    (hp : p ∈ comparisons settings.codeThreshold settings.bucketLimit
      (grouped Candidate.bucket all)) :
    Matched settings all p.left p.right ∨ Matched settings all p.right p.left := by
  have hcompared := compared_of_mem hp
  have hswap := hcompared.swap
  obtain ⟨x, y, hx, hy, halike, -⟩ := hcompared.alike
  obtain ⟨y', x', hy', hx', halike', -⟩ := hswap.alike
  rcases closest?_of_mem_comparisons hp with hclosest | hclosest
  · refine .inl ⟨hcompared.left, hcompared.right, hcompared.bucket, hcompared.site,
      ⟨x, y, hx, hy, halike⟩, ?_⟩
    rwa [← hcompared.bucket]
  · refine .inr ⟨hcompared.right, hcompared.left, hcompared.bucket.symm, hcompared.site.symm,
      ⟨y', x', hy', hx', halike'⟩, ?_⟩
    rwa [hcompared.bucket]

/-- A comment that was compared with its closest is compared with it again. -/
theorem Matched.exists_comparison (hab : Matched settings (candidates dictionary comments) a b)
    (h : Links comments found links) (hsteady : Steady settings comments)
    (hdistinct : (comments.map fun j => j.comment.place).Nodup)
    (hdistinct' : (found.map fun j => j.comment.place).Nodup)
    (ha' : a' ∈ candidates dictionary found) (hb' : b' ∈ candidates dictionary found)
    (hlinkA : (a.judged, a'.judged) ∈ links) (hlinkB : (b.judged, b'.judged) ∈ links) :
    ∃ p ∈ comparisons settings.codeThreshold settings.bucketLimit
      (grouped Candidate.bucket (candidates dictionary found)), Refers p a'.index b'.index := by
  obtain ⟨x, y, hx, hy, halike⟩ := hab.alike
  obtain ⟨x', hx'⟩ := exists_first ha'
  obtain ⟨y', hy'⟩ := exists_first hb'
  obtain ⟨p, hp, hpx, hlevelX⟩ :=
    exists_level_of_first h hsteady.settled hab.left ha' hlinkA hx hx'
  obtain ⟨q, hq, hqy, hlevelY⟩ :=
    exists_level_of_first h hsteady.settled hab.right hb' hlinkB hy hy'
  have halike' := alike_of_level h hp hq (mem_of_first hx).1 (mem_of_first hy).1
    (mem_of_first hx').1 (mem_of_first hy').1 hpx hqy hlevelX hlevelY halike
  have hclosest' := closest?_of_links h hdistinct hdistinct' hsteady.whole (h.whole hsteady.whole)
    hab.left hab.right ha' hb' hlinkA hlinkB hab.closest
  have hsite' : a'.site ≠ b'.site := fun heq => hab.site ((h.sites _ hlinkA _ hlinkB).2 heq)
  have hlimit := h.whole hsteady.whole a'.bucket
  rw [← length_havingKey_candidates dictionary] at hlimit
  have hbucket : b.bucket = a'.bucket :=
    hab.bucket.symm.trans (bucket_of_link h hab.left ha' hlinkA)
  rw [← bucket_of_link h hab.right hb' hlinkB, hbucket] at hy'
  rw [hbucket] at hclosest'
  exact exists_comparison_of_closest? hlimit hsite' hx' hy' halike' ha' rfl rfl hclosest'

theorem Matched.exists_finding (hab : Matched settings (candidates dictionary comments) a b)
    (henabled : settings.enabled = true) (h : Links comments found links)
    (hsteady : Steady settings comments)
    (hdistinct : (comments.map fun j => j.comment.place).Nodup)
    (hdistinct' : (found.map fun j => j.comment.place).Nodup) {k l : Judged Rat}
    (hlinkA : (a.judged, k) ∈ links) (hlinkB : (b.judged, l) ∈ links)
    (hbelow : wordLikeness a b < settings.commentThreshold)
    (hfilled : ¬(a.category = .placeholder ∧ b.category = .placeholder)) :
    ∃ g ∈ (detect settings dictionary found).findings, Joins g k.comment.place l.comment.place := by
  obtain ⟨a', ha', rfl⟩ := exists_candidate_again h hab.left hlinkA
  obtain ⟨b', hb', rfl⟩ := exists_candidate_again h hab.right hlinkB
  obtain ⟨p, hp, hrefers⟩ :=
    hab.exists_comparison h hsteady hdistinct hdistinct' ha' hb' hlinkA hlinkB
  refine exists_finding_of_refers henabled ha' hb' hp hrefers ?_ ?_
  · have hcategoryA : a'.category = a.category := (h.continues _ hlinkA).category.symm
    have hcategoryB : b'.category = b.category := (h.continues _ hlinkB).category.symm
    rwa [hcategoryA, hcategoryB]
  · rwa [← wordLikeness_eq_textLikeness ha' hb', wordLikeness,
      ← words_of_link h hab.left ha' hlinkA, ← words_of_link h hab.right hb' hlinkB]

theorem exists_finding_of_comparison (henabled : settings.enabled = true)
    (h : Links comments found links) (hsteady : Steady settings comments)
    (hdistinct : (comments.map fun j => j.comment.place).Nodup)
    (hdistinct' : (found.map fun j => j.comment.place).Nodup) {m : Comparison Rat}
    (hm : m ∈ comparisons settings.codeThreshold settings.bucketLimit
      (grouped Candidate.bucket (candidates dictionary comments)))
    (hf : finding? settings.commentThreshold m = some f) {k l : Judged Rat}
    (hlinkLeft : (m.left.judged, k) ∈ links) (hlinkRight : (m.right.judged, l) ∈ links) :
    ∃ g ∈ (detect settings dictionary found).findings, Joins g k.comment.place l.comment.place := by
  have hshows := shows_of_finding? hf
  have hfilled := (kind?_eq_some_iff.1 hshows.kind).1
  have hbelow : wordLikeness m.left m.right < settings.commentThreshold :=
    hshows.words ▸ hshows.below
  rcases exists_matched hm with hmatched | hmatched
  · exact hmatched.exists_finding henabled h hsteady hdistinct hdistinct' hlinkLeft hlinkRight
      hbelow hfilled
  · rw [wordLikeness_eq_textLikeness hmatched.right hmatched.left, textLikeness_comm,
      ← wordLikeness_eq_textLikeness hmatched.left hmatched.right] at hbelow
    obtain ⟨g, hg, hjoins⟩ := hmatched.exists_finding henabled h hsteady hdistinct hdistinct'
      hlinkRight hlinkLeft hbelow fun hboth => hfilled hboth.symm
    exact ⟨g, hg, hjoins.symm⟩

/-- Two comments that were reported against each other are reported again. -/
theorem exists_finding_again (henabled : settings.enabled = true) (h : Links comments found links)
    (hsteady : Steady settings comments)
    (hdistinct : (comments.map fun j => j.comment.place).Nodup)
    (hdistinct' : (found.map fun j => j.comment.place).Nodup) (hp : p ∈ links) (hq : q ∈ links)
    (hf : f ∈ (detect settings dictionary comments).findings)
    (hjoins : Joins f p.1.comment.place q.1.comment.place) :
    ∃ g ∈ (detect settings dictionary found).findings,
      Joins g p.2.comment.place q.2.comment.place := by
  have hlink : ∀ {c : Candidate Rat} {r : Judged Rat × Judged Rat},
      c ∈ candidates dictionary comments → r ∈ links → c.place = r.1.comment.place →
        (c.judged, r.2) ∈ links := by
    intro c r hc hr hplace
    have heq : c.judged = r.1 :=
      List.inj_on_of_nodup_map hdistinct (judged_mem_of_mem hc) (h.mem_left hr) hplace
    rwa [heq]
  rw [findings_eq henabled, List.mem_mergeSort] at hf
  obtain ⟨m, hm, hfinding⟩ := List.mem_filterMap.1 hf
  have hcompared := compared_of_mem hm
  rcases (shows_of_finding? hfinding).joins.unique hjoins with ⟨hleft, hright⟩ | ⟨hleft, hright⟩
  · exact exists_finding_of_comparison henabled h hsteady hdistinct hdistinct' hm hfinding
      (hlink hcompared.left hp hleft) (hlink hcompared.right hq hright)
  · obtain ⟨g, hg, hgjoins⟩ := exists_finding_of_comparison henabled h hsteady hdistinct hdistinct'
      hm hfinding (hlink hcompared.left hq hleft) (hlink hcompared.right hp hright)
    exact ⟨g, hg, hgjoins.symm⟩

end Findings

end Marginalia.Drift
