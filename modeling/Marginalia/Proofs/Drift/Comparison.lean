import Marginalia.Proofs.Drift.Alignment
import Marginalia.Proofs.Drift.Candidates
import Marginalia.Proofs.Likeness.EditDistance
import Marginalia.Proofs.Likeness.Jaccard
import Marginalia.Proofs.Likeness.Score

/-! Which comments are compared: those of two sites whose lines and blocks are alike, each with one
of the other site that is most like it. Likeness and thresholds are rationals. -/

namespace Marginalia.Drift

open Marginalia.Spelling

variable {threshold : Rat} {a b c d x y : Candidate Rat} {siteA siteB : List (Candidate Rat)}

/-! ### Likeness of sites and of words -/

def lineLikeness (a b : Candidate Rat) : Rat := sequenceLikeness a.lineTokens b.lineTokens

def blockLikeness (a b : Candidate Rat) : Rat := sequenceLikeness a.blockTokens b.blockTokens

/-- The likeness of the lines or of the blocks, whichever is less. -/
def siteLikeness (a b : Candidate Rat) : Rat := min (lineLikeness a b) (blockLikeness a b)

theorem lineLikeness_comm (a b : Candidate Rat) : lineLikeness a b = lineLikeness b a :=
  sequenceLikeness_comm _ _

theorem blockLikeness_comm (a b : Candidate Rat) : blockLikeness a b = blockLikeness b a :=
  sequenceLikeness_comm _ _

theorem siteLikeness_comm (a b : Candidate Rat) : siteLikeness a b = siteLikeness b a := by
  rw [siteLikeness, siteLikeness, lineLikeness_comm, blockLikeness_comm]

/-- Blocks that are not compared because of their lengths are not alike. -/
theorem blockLikeness_lt_of_ratio_lt
    (hlong : 0 < max a.blockTokens.length b.blockTokens.length)
    (hratio : (Score.ratio (min a.blockTokens.length b.blockTokens.length)
      (max a.blockTokens.length b.blockTokens.length) : Rat) < threshold) :
    blockLikeness a b < threshold :=
  lt_of_le_of_lt (sequenceLikeness_le_ratio a.blockTokens b.blockTokens hlong) hratio

/-- The likeness of two code sites when blocks are compared whatever their lengths are. -/
def fullLikeness {α : Type} [Score α] (threshold : α) (a b : Candidate α) : Option α :=
  let line : α := sequenceLikeness a.lineTokens b.lineTokens
  if line < threshold then none
  else
    let block : α := sequenceLikeness a.blockTokens b.blockTokens
    if threshold ≤ block then some (Score.least line block) else none

theorem fullLikeness_eq_some_iff {likeness : Rat} :
    fullLikeness threshold a b = some likeness ↔
      threshold ≤ lineLikeness a b ∧ threshold ≤ blockLikeness a b ∧
        likeness = siteLikeness a b := by
  change (if lineLikeness a b < threshold then none
    else if threshold ≤ blockLikeness a b then
      some (Score.least (lineLikeness a b) (blockLikeness a b)) else none) = _ ↔ _
  rw [least_eq_min, ← siteLikeness]
  split
  · next hlt => exact iff_of_false nofun fun h => not_le.2 hlt h.1
  · next hnlt =>
    split
    · next hblock =>
      rw [Option.some.injEq, eq_comm]
      exact ⟨fun h => ⟨not_lt.1 hnlt, hblock, h⟩, fun h => h.2.2⟩
    · next hblock => exact iff_of_false nofun fun h => hblock h.2.1

/-- What is not compared because of its lengths would not reach the threshold. -/
theorem codeLikeness_eq (threshold : Rat) (a b : Candidate Rat) :
    codeLikeness threshold a b = fullLikeness threshold a b := by
  unfold codeLikeness fullLikeness
  extract_lets line short long block
  change (if line < threshold then none
    else if 0 < long ∧ Score.ratio short long < threshold then none
    else if threshold ≤ blockLikeness a b then some (Score.least line block) else none) =
      if line < threshold then none
      else if threshold ≤ blockLikeness a b then some (Score.least line block) else none
  by_cases hratio : 0 < long ∧ (Score.ratio short long : Rat) < threshold
  · have hblock : blockLikeness a b < threshold := blockLikeness_lt_of_ratio_lt hratio.1 hratio.2
    rw [if_pos hratio, if_neg (not_le.2 hblock)]
  · rw [if_neg hratio]

theorem codeLikeness_eq_some_iff {likeness : Rat} :
    codeLikeness threshold a b = some likeness ↔
      threshold ≤ lineLikeness a b ∧ threshold ≤ blockLikeness a b ∧
        likeness = siteLikeness a b := by
  rw [codeLikeness_eq, fullLikeness_eq_some_iff]

/-- The comparison of lengths only saves work: the likeness of two code sites is the one found when
blocks of any lengths are compared, and that is the lesser of line and block, exactly when both reach
the threshold. -/
theorem codeLikeness_ignores_lengths (threshold : Rat) (a b : Candidate Rat) :
    codeLikeness threshold a b = fullLikeness threshold a b ∧
      ∀ likeness, codeLikeness threshold a b = some likeness ↔
        threshold ≤ lineLikeness a b ∧ threshold ≤ blockLikeness a b ∧
          likeness = min (lineLikeness a b) (blockLikeness a b) :=
  ⟨codeLikeness_eq threshold a b, fun _ => codeLikeness_eq_some_iff⟩

/-- Blocks may be exactly as alike as their lengths, so the bound leaves no room. -/
example : (sequenceLikeness (List.range 17) (List.range 20) : Rat) = Score.ratio 17 20 := by
  decide +kernel

theorem wordLikeness_eq (ha : a.words.Nodup) (hb : b.words.Nodup) :
    wordLikeness a b = setLikeness a.words.toFinset b.words.toFinset := by
  rw [wordLikeness]
  convert jaccard_eq_setLikeness ha hb

/-! ### The closest comment -/

theorem wordLikeness_le_closestFrom (c best : Candidate Rat) (others : List (Candidate Rat)) :
    ∀ d ∈ best :: others, wordLikeness c d ≤ wordLikeness c (closestFrom c best others) := by
  induction others generalizing best with
  | nil =>
    intro d hd
    rw [List.mem_singleton.1 hd]
    exact le_refl _
  | cons e rest ih =>
    intro d hd
    rw [closestFrom]
    split
    · next hlt =>
      have hbest := ih e e List.mem_cons_self
      rcases List.mem_cons.1 hd with rfl | hd
      · exact le_trans (le_of_lt hlt) hbest
      · exact ih e d hd
    · next hnlt =>
      have hbest := ih best best List.mem_cons_self
      rcases List.mem_cons.1 hd with rfl | hd
      · exact hbest
      · rcases List.mem_cons.1 hd with rfl | hd
        · exact le_trans (not_lt.1 hnlt) hbest
        · exact ih best d (List.mem_cons_of_mem _ hd)

/-- A candidate among others that none of them is closer to the given one than. -/
structure Closest (c : Candidate Rat) (others : List (Candidate Rat)) (d : Candidate Rat) :
    Prop where
  mem : d ∈ others
  le : ∀ e ∈ others, wordLikeness c e ≤ wordLikeness c d

theorem closest_of_closest? {others : List (Candidate Rat)} (h : closest? c others = some d) :
    Closest c others d := by
  cases others with
  | nil => cases h
  | cons e rest =>
    obtain rfl := Option.some.inj h
    exact ⟨closestFrom_mem c e rest, wordLikeness_le_closestFrom c e rest⟩

theorem exists_closest? (c : Candidate Rat) {others : List (Candidate Rat)} (h : others ≠ []) :
    ∃ d, closest? c others = some d := by
  obtain ⟨e, rest, rfl⟩ := List.exists_cons_of_ne_nil h
  exact ⟨_, rfl⟩

/-- A comment of the first site and the closest one of the second are aligned. -/
theorem exists_aligned_left (ha : a ∈ siteA) (hb : closest? a siteB = some b) :
    ∃ p ∈ aligned siteA siteB, a.index = p.1.index ∧ b.index = p.2.index := by
  have hmem : (a, b) ∈ siteA.filterMap fun a => (closest? a siteB).map fun b => (a, b) :=
    List.mem_filterMap.2 ⟨a, ha, by rw [hb]; rfl⟩
  obtain ⟨p, hp, hsame⟩ :=
    exists_mem_eraseDupsBy (fun p => samePair_iff.2 ⟨rfl, rfl⟩) (List.mem_append_left _ hmem)
  exact ⟨p, hp, samePair_iff.1 hsame⟩

/-- A comment of the second site and the closest one of the first are aligned. -/
theorem exists_aligned_right (hb : b ∈ siteB) (ha : closest? b siteA = some a) :
    ∃ p ∈ aligned siteA siteB, a.index = p.1.index ∧ b.index = p.2.index := by
  have hmem : (a, b) ∈ siteB.filterMap fun b => (closest? b siteA).map fun a => (a, b) :=
    List.mem_filterMap.2 ⟨b, hb, by rw [ha]; rfl⟩
  obtain ⟨p, hp, hsame⟩ :=
    exists_mem_eraseDupsBy (fun p => samePair_iff.2 ⟨rfl, rfl⟩) (List.mem_append_right _ hmem)
  exact ⟨p, hp, samePair_iff.1 hsame⟩

/-! ### Comparisons -/

/-- Two sites are alike, as their first comments show. -/
structure Alike (threshold : Rat) (x y : Candidate Rat) : Prop where
  apart : x.judged.comment.sharesBlock y.judged.comment = false
  line : threshold ≤ lineLikeness x y
  block : threshold ≤ blockLikeness x y

theorem Alike.symm (h : Alike threshold x y) : Alike threshold y x where
  apart := Comment.sharesBlock_comm _ _ ▸ h.apart
  line := lineLikeness_comm x y ▸ h.line
  block := blockLikeness_comm x y ▸ h.block

theorem mem_siteComparisons_iff {p : Comparison Rat} :
    p ∈ siteComparisons threshold siteA siteB ↔ ∃ x y, siteA.head? = some x ∧ siteB.head? = some y ∧
      Alike threshold x y ∧ p.codeLikeness = siteLikeness x y ∧
      (p.left, p.right) ∈ aligned siteA siteB := by
  cases siteA with
  | nil => simp [siteComparisons]
  | cons x siteA =>
    cases siteB with
    | nil => simp [siteComparisons]
    | cons y siteB =>
      simp only [siteComparisons, List.head?_cons, Option.some.injEq]
      constructor
      · intro h
        split at h
        · simp at h
        · next hshares =>
          split at h
          · simp at h
          · next likeness hlikeness =>
            obtain ⟨hline, hblock, hvalue⟩ := codeLikeness_eq_some_iff.1 hlikeness
            obtain ⟨⟨a, b⟩, hmem, rfl⟩ := List.mem_map.1 h
            exact ⟨x, y, rfl, rfl, ⟨by simpa using hshares, hline, hblock⟩, hvalue, hmem⟩
      · rintro ⟨_, _, rfl, rfl, halike, hvalue, hmem⟩
        rw [if_neg (by simp [halike.apart]),
          codeLikeness_eq_some_iff.2 ⟨halike.line, halike.block, rfl⟩]
        exact List.mem_map.2 ⟨_, hmem, by rw [← hvalue]⟩

/-! ### Comparisons of all buckets -/

variable {limit : Nat} {all : List (Candidate Rat)} {bucket : UInt64} {s t : String × Nat}

/-- The candidates of a site among the first ones of a bucket. -/
def compared (limit : Nat) (all : List (Candidate Rat)) (bucket : UInt64) (site : String × Nat) :
    List (Candidate Rat) :=
  havingKey Candidate.site ((havingKey Candidate.bucket all bucket).take limit) site

/-- The first candidate of a site in a bucket. -/
def First (all : List (Candidate Rat)) (bucket : UInt64) (site : String × Nat)
    (x : Candidate Rat) : Prop :=
  all.find? (fun c => c.bucket == bucket && c.site == site) = some x

theorem mem_of_mem_compared (h : c ∈ compared limit all bucket s) :
    c ∈ all ∧ c.bucket = bucket ∧ c.site = s := by
  obtain ⟨htake, hsite⟩ := mem_havingKey.1 h
  obtain ⟨hall, hbucket⟩ := mem_havingKey.1 (List.mem_of_mem_take htake)
  exact ⟨hall, hbucket, hsite⟩

theorem first_iff : First all bucket s x ↔
    (havingKey Candidate.site (havingKey Candidate.bucket all bucket) s).head? = some x := by
  rw [First, havingKey, havingKey, List.filter_filter, List.head?_filter]
  simp only [Bool.and_comm]

theorem first_of_head?_compared (h : (compared limit all bucket s).head? = some x) :
    First all bucket s x := by
  rw [first_iff, havingKey, List.head?_filter]
  exact find?_of_head?_havingKey_take h

theorem compared_eq (hlimit : (havingKey Candidate.bucket all bucket).length ≤ limit) :
    compared limit all bucket s =
      havingKey Candidate.site (havingKey Candidate.bucket all bucket) s := by
  rw [compared, List.take_of_length_le hlimit]

theorem mem_of_first (h : First all bucket s x) : x ∈ all ∧ x.bucket = bucket ∧ x.site = s := by
  have hkeys := List.find?_some h
  rw [Bool.and_eq_true, beq_iff_eq, beq_iff_eq] at hkeys
  exact ⟨List.mem_of_find?_eq_some h, hkeys⟩

theorem exists_first (h : c ∈ all) : ∃ x, First all c.bucket c.site x := by
  have hsome : (all.find? fun d => d.bucket == c.bucket && d.site == c.site).isSome := by
    rw [List.find?_isSome]
    exact ⟨c, h, by simp⟩
  exact Option.isSome_iff_exists.1 hsome

/-- What is compared is a pair of comments of two alike sites in one bucket. -/
structure Compared (threshold : Rat) (limit : Nat) (all : List (Candidate Rat))
    (p : Comparison Rat) : Prop where
  left : p.left ∈ all
  right : p.right ∈ all
  bucket : p.left.bucket = p.right.bucket
  site : p.left.site ≠ p.right.site
  alike : ∃ x y, First all p.left.bucket p.left.site x ∧ First all p.right.bucket p.right.site y ∧
    Alike threshold x y ∧ p.codeLikeness = siteLikeness x y

theorem Compared.swap {p : Comparison Rat} (h : Compared threshold limit all p) :
    Compared threshold limit all ⟨p.right, p.left, p.codeLikeness⟩ := by
  obtain ⟨x, y, hx, hy, halike, hvalue⟩ := h.alike
  exact ⟨h.right, h.left, h.bucket.symm, h.site.symm, y, x, hy, hx, halike.symm,
    hvalue.trans (siteLikeness_comm x y)⟩

/-- A comparison is one of two sites of a bucket. -/
theorem exists_sites_of_mem {p : Comparison Rat}
    (h : p ∈ comparisons threshold limit (grouped Candidate.bucket all)) :
    ∃ bucket s t, s ≠ t ∧ p ∈ siteComparisons threshold (compared limit all bucket s)
      (compared limit all bucket t) := by
  obtain ⟨⟨bucket, members⟩, hgroup, hp⟩ := List.mem_flatMap.1 (mem_of_mem_eraseDupsBy h)
  obtain ⟨-, hmembers⟩ := mem_grouped_iff.1 hgroup
  obtain ⟨⟨siteA, siteB⟩, hpair, hp⟩ := List.mem_flatMap.1 hp
  obtain ⟨s, t, hne, heq⟩ := exists_keys_of_mem_pairs hpair
  obtain ⟨rfl, rfl⟩ := Prod.mk.inj heq
  simp only at hmembers hp
  subst hmembers
  exact ⟨bucket, s, t, hne, hp⟩

theorem compared_of_mem {p : Comparison Rat}
    (h : p ∈ comparisons threshold limit (grouped Candidate.bucket all)) :
    Compared threshold limit all p := by
  obtain ⟨bucket, s, t, hne, hp⟩ := exists_sites_of_mem h
  obtain ⟨x, y, hx, hy, halike, hvalue, haligned⟩ := mem_siteComparisons_iff.1 hp
  obtain ⟨hleft, hright⟩ := mem_of_mem_aligned haligned
  obtain ⟨hleft, hleftBucket, hleftSite⟩ := mem_of_mem_compared hleft
  obtain ⟨hright, hrightBucket, hrightSite⟩ := mem_of_mem_compared hright
  refine ⟨hleft, hright, hleftBucket.trans hrightBucket.symm, ?_, x, y, ?_, ?_, halike, hvalue⟩
  · rw [hleftSite, hrightSite]
    exact hne
  · rw [hleftBucket, hleftSite]
    exact first_of_head?_compared hx
  · rw [hrightBucket, hrightSite]
    exact first_of_head?_compared hy

/-- Of two comments that are compared, one is the closest to the other at its site. -/
theorem closest?_of_mem_comparisons {p : Comparison Rat}
    (h : p ∈ comparisons threshold limit (grouped Candidate.bucket all)) :
    closest? p.left (compared limit all p.left.bucket p.right.site) = some p.right ∨
      closest? p.right (compared limit all p.right.bucket p.left.site) = some p.left := by
  obtain ⟨bucket, s, t, -, hp⟩ := exists_sites_of_mem h
  obtain ⟨-, -, -, -, -, -, haligned⟩ := mem_siteComparisons_iff.1 hp
  obtain ⟨hleft, hright⟩ := mem_of_mem_aligned haligned
  obtain ⟨-, hleftBucket, hleftSite⟩ := mem_of_mem_compared hleft
  obtain ⟨-, hrightBucket, hrightSite⟩ := mem_of_mem_compared hright
  rw [hleftBucket, hleftSite, hrightBucket, hrightSite]
  exact closest?_of_mem_aligned haligned

/-- The two comments of a comparison are those of the indexes `i` and `j`, in either order. -/
def Refers (p : Comparison Rat) (i j : Nat) : Prop :=
  (p.left.index = i ∧ p.right.index = j) ∨ (p.left.index = j ∧ p.right.index = i)

theorem sides_of_refers {dictionary : Dictionary} {comments : List (Judged Rat)}
    {p : Comparison Rat} (hp : Compared threshold limit (candidates dictionary comments) p)
    (hc : c ∈ candidates dictionary comments) (hd : d ∈ candidates dictionary comments)
    (h : Refers p c.index d.index) : (p.left = c ∧ p.right = d) ∨ (p.left = d ∧ p.right = c) := by
  rcases h with ⟨hleft, hright⟩ | ⟨hleft, hright⟩
  · exact .inl ⟨eq_of_index_eq hp.left hc hleft, eq_of_index_eq hp.right hd hright⟩
  · exact .inr ⟨eq_of_index_eq hp.left hd hleft, eq_of_index_eq hp.right hc hright⟩

theorem sameComments_iff {p q : Comparison Rat} :
    sameComments p q = true ↔ Refers q p.left.index p.right.index := sameComments_iff_indexes

/-- What two alike sites of a bucket have to compare is compared, if not there then before. -/
theorem exists_comparison (hbucket : bucket ∈ all.map Candidate.bucket)
    (hpair : (siteA, siteB) ∈ pairs ((grouped Candidate.site
      ((havingKey Candidate.bucket all bucket).take limit)).map (·.2)))
    (hx : siteA.head? = some x) (hy : siteB.head? = some y) (halike : Alike threshold x y)
    (hab : (a, b) ∈ aligned siteA siteB) :
    ∃ p ∈ comparisons threshold limit (grouped Candidate.bucket all), Refers p a.index b.index := by
  let p : Comparison Rat := ⟨a, b, siteLikeness x y⟩
  have hp : p ∈ siteComparisons threshold siteA siteB :=
    mem_siteComparisons_iff.2 ⟨x, y, hx, hy, halike, rfl, hab⟩
  have hmem : p ∈ (grouped Candidate.bucket all).flatMap fun (_, members) =>
      bucketComparisons threshold (members.take limit) := by
    have hgroup : (bucket, havingKey Candidate.bucket all bucket) ∈
        grouped Candidate.bucket all := mem_grouped_iff.2 ⟨hbucket, rfl⟩
    exact List.mem_flatMap.2 ⟨_, hgroup, List.mem_flatMap.2 ⟨_, hpair, hp⟩⟩
  obtain ⟨q, hq, hsame⟩ :=
    exists_mem_eraseDupsBy (fun p => sameComments_iff.2 (.inl ⟨rfl, rfl⟩)) hmem
  exact ⟨q, hq, sameComments_iff.1 hsame⟩

/-- Each comment of a site that is like another is compared with the one found closest to it
there. -/
theorem exists_comparison_of_closest?
    (hlimit : (havingKey Candidate.bucket all bucket).length ≤ limit) (hne : s ≠ t)
    (hx : First all bucket s x) (hy : First all bucket t y) (halike : Alike threshold x y)
    (hc : c ∈ all) (hcbucket : c.bucket = bucket) (hcsite : c.site = s)
    (hd : closest? c (compared limit all bucket t) = some d) :
    ∃ p ∈ comparisons threshold limit (grouped Candidate.bucket all), Refers p c.index d.index := by
  have hxhead : (compared limit all bucket s).head? = some x :=
    compared_eq hlimit ▸ first_iff.1 hx
  have hyhead : (compared limit all bucket t).head? = some y :=
    compared_eq hlimit ▸ first_iff.1 hy
  have hmem : c ∈ compared limit all bucket s := by
    rw [compared_eq hlimit]
    exact mem_havingKey.2 ⟨mem_havingKey.2 ⟨hc, hcbucket⟩, hcsite⟩
  have hbucket : bucket ∈ all.map Candidate.bucket := List.mem_map.2 ⟨c, hc, hcbucket⟩
  have hkey : ∀ {site : String × Nat} {z : Candidate Rat},
      (compared limit all bucket site).head? = some z → site ∈
        ((havingKey Candidate.bucket all bucket).take limit).map Candidate.site := by
    intro site z hz
    obtain ⟨htake, hsite⟩ := mem_havingKey.1 (List.mem_of_head? hz)
    exact List.mem_map.2 ⟨z, htake, hsite⟩
  -- Either site may come first in the bucket; then the pair is aligned the other way round.
  rcases mem_pairs_groups (hkey hxhead) (hkey hyhead) hne with hpair | hpair
  · obtain ⟨⟨a, b⟩, hab, hleft, hright⟩ := exists_aligned_left hmem hd
    rw [hleft, hright]
    exact exists_comparison hbucket hpair hxhead hyhead halike hab
  · obtain ⟨⟨b, a⟩, hba, hleft, hright⟩ := exists_aligned_right hmem hd
    obtain ⟨p, hp, hrefers⟩ := exists_comparison hbucket hpair hyhead hxhead halike.symm hba
    rw [hleft, hright]
    exact ⟨p, hp, hrefers.symm⟩

theorem exists_comparison_closest
    (hlimit : (havingKey Candidate.bucket all bucket).length ≤ limit) (hne : s ≠ t)
    (hx : First all bucket s x) (hy : First all bucket t y) (halike : Alike threshold x y)
    (hc : c ∈ all) (hcbucket : c.bucket = bucket) (hcsite : c.site = s) :
    ∃ d, Closest c (compared limit all bucket t) d ∧
      ∃ p ∈ comparisons threshold limit (grouped Candidate.bucket all),
        Refers p c.index d.index := by
  have hsome : compared limit all bucket t ≠ [] := by
    intro hnil
    have hyhead : (compared limit all bucket t).head? = some y :=
      compared_eq hlimit ▸ first_iff.1 hy
    rw [hnil] at hyhead
    cases hyhead
  obtain ⟨d, hd⟩ := exists_closest? c hsome
  exact ⟨d, closest_of_closest? hd,
    exists_comparison_of_closest? hlimit hne hx hy halike hc hcbucket hcsite hd⟩

end Marginalia.Drift
