import Marginalia.Proofs.Patch.Runs
import Marginalia.Proofs.Patch.Unchanged
import Mathlib.Data.List.Flatten

/-! What becomes of each comment. A comment merits one treatment, by the drift findings, its category
and the policy, and stands in one step of the plan, which carries that treatment out: a step of its
own, or a deletion for a run of comments. -/

namespace Marginalia.Patch

open Marginalia.Text

variable {α : Type}

/-- Whether a policy deletes comments of a category. -/
def isDeletable (policy : Policy) : Category → Bool
  | .filler => policy.deleteFiller
  | .redundant => policy.deleteRedundant
  | .placeholder => policy.deletePlaceholder
  | .misleading | .typoNoise | .informative => false

/-- Whether drift of a comment is flagged: a finding has its place on either side. -/
def Drifts (policy : Policy) (drift : List (Finding α)) (k : Judged α) : Prop :=
  policy.flagDrift = true ∧
    ∃ f ∈ drift, f.first = k.comment.place ∨ f.second = k.comment.place

/-- The treatment that a comment merits, and the reason for it. -/
inductive Merits (policy : Policy) (drift : List (Finding α)) (k : Judged α) :
    Treatment → String → Prop
  | drifted : Drifts policy drift k → Merits policy drift k .flag "drift"
  | misleading : ¬Drifts policy drift k → k.verdict.category = .misleading →
      Merits policy drift k .flag "unverified_claim"
  | deleted : ¬Drifts policy drift k → isDeletable policy k.verdict.category = true →
      Merits policy drift k .delete ("delete_" ++ k.verdict.category.name)
  | respelled : ¬Drifts policy drift k → k.verdict.category ≠ .misleading →
      isDeletable policy k.verdict.category = false → policy.fixTypos = true →
      k.verdict.typos ≠ [] → Merits policy drift k .rewrite "fix_typos"
  | kept : ¬Drifts policy drift k → k.verdict.category ≠ .misleading →
      isDeletable policy k.verdict.category = false →
      ¬(policy.fixTypos = true ∧ k.verdict.typos ≠ []) → Merits policy drift k .keep
        (if k.verdict.category = .informative then "preserve_informative" else "policy_keep")

/-- The comments of a file. -/
def ofFile (fileId : String) (comments : List (Judged α)) : List (Judged α) :=
  comments.filter fun k => k.comment.fileId == fileId

/-- The comments that stand in the place of a step. -/
def standingIn (step : Step) (comments : List (Judged α)) : List (Judged α) :=
  comments.filter fun k => step.covers k.comment.place

/-- A step carries out what the comments in its place merit. A step that deletes nothing is about one
comment and has its place. A deletion has the category and the reason that its comments have in common;
where they differ it has no category and is called merged. -/
structure Answers (policy : Policy) (drift : List (Finding α)) (inside : List (Judged α))
    (step : Step) : Prop where
  nonempty : inside ≠ []
  merits : ∀ k ∈ inside, ∃ reason, Merits policy drift k step.treatment reason
  alone : step.deletes = false → ∀ k ∈ inside, step.place = k.comment.place ∧
    step.category = some k.verdict.category ∧ Merits policy drift k step.treatment step.reason
  replacement : step.replacement.isSome = true ↔ step.treatment = .rewrite
  respelling : ∀ new ∈ step.replacement, ∀ k ∈ inside,
    new = respell k.verdict.typos k.comment.raw
  category : step.deletes = true → ∀ c, (∀ k ∈ inside, k.verdict.category = c) →
    step.category = some c
  mixed : step.deletes = true → (¬∃ c, ∀ k ∈ inside, k.verdict.category = c) →
    step.category = none
  reason : step.deletes = true → ∀ r, (∀ k ∈ inside, Merits policy drift k .delete r) →
    step.reason = r
  merged : step.deletes = true → (¬∃ r, ∀ k ∈ inside, Merits policy drift k .delete r) →
    step.reason = "merged_delete"
  line : ∀ k ∈ inside, (∀ k' ∈ inside, k.comment.start ≤ k'.comment.start) →
    step.line = k.comment.line

variable {policy : Policy} {drift : List (Finding α)} {fileId : String} {k : Judged α}

/-! ### What a comment merits -/

theorem Merits.unique {t t' : Treatment} {r r' : String} (h : Merits policy drift k t r)
    (h' : Merits policy drift k t' r') : t = t' ∧ r = r' := by
  have hmisleading : k.verdict.category = .misleading →
      isDeletable policy k.verdict.category = false := fun hc => by rw [hc]; rfl
  cases h <;> cases h' <;> simp_all

theorem drifts_iff (hown : k.comment.fileId = fileId) :
    (isDrifted drift fileId k.comment.place && policy.flagDrift) = true ↔
      Drifts policy drift k := by
  subst hown
  rw [Bool.and_eq_true, isDrifted_iff, Drifts, and_comm]

theorem deletion?_eq (category : Category) : deletion? policy category =
    if isDeletable policy category = true then some ("delete_" ++ category.name) else none := by
  cases category <;> rfl

/-- The treatment of a category when drift is not flagged. -/
theorem treatmentOf_of_not {drifted : Bool} {category : Category}
    (h : (drifted && policy.flagDrift) = false) : treatmentOf policy drifted category =
      if category = .misleading then (.flag, "unverified_claim")
      else if isDeletable policy category = true then (.delete, "delete_" ++ category.name)
      else (.keep, if category = .informative then "preserve_informative" else "policy_keep") := by
  unfold treatmentOf
  rw [if_neg (Bool.eq_false_iff.1 h)]
  cases category with
  | misleading | informative | typoNoise => rfl
  | placeholder | filler | redundant =>
    simp only [deletion?_eq, reduceCtorEq, if_false]
    cases isDeletable policy _ <;> rfl

/-- What is decided about a comment is what it merits. -/
theorem decidedFor_merits (hown : k.comment.fileId = fileId) : Merits policy drift k
    (decidedFor policy drift fileId k).treatment (decidedFor policy drift fileId k).reason := by
  simp only [decidedFor, decide]
  by_cases hdrifts : Drifts policy drift k
  · have htreatment : treatmentOf policy (isDrifted drift fileId k.comment.place)
        k.verdict.category = (.flag, "drift") := by
      unfold treatmentOf
      rw [if_pos ((drifts_iff hown).2 hdrifts)]
    rw [htreatment]
    exact .drifted hdrifts
  · rw [treatmentOf_of_not (Bool.eq_false_iff.2 fun hd => hdrifts ((drifts_iff hown).1 hd))]
    by_cases hmisleading : k.verdict.category = .misleading
    · rw [if_pos hmisleading]
      exact .misleading hdrifts hmisleading
    · rw [if_neg hmisleading]
      cases hdelete : isDeletable policy k.verdict.category with
      | true => exact .deleted hdrifts hdelete
      | false =>
        by_cases hrespelled : policy.fixTypos = true ∧ k.verdict.typos ≠ []
        · have hpos : (policy.fixTypos && !k.verdict.typos.isEmpty) = true := by
            simpa using hrespelled
          simpa [hpos] using Merits.respelled hdrifts hmisleading hdelete hrespelled.1 hrespelled.2
        · have hneg : (policy.fixTypos && !k.verdict.typos.isEmpty) = false := by
            simpa using hrespelled
          simpa [hneg] using Merits.kept hdrifts hmisleading hdelete hrespelled

theorem decidedFor_replacement_iff :
    (decidedFor policy drift fileId k).replacement.isSome = true ↔
      (decidedFor policy drift fileId k).treatment = .rewrite := by
  refine ⟨fun h => ?_, decidedFor_replacement policy drift fileId k⟩
  simp only [decidedFor, decide] at h ⊢
  split at h
  · next hrespelled => rw [if_pos hrespelled]
  · cases h

theorem eq_respell_of_mem {new : String} (h : new ∈ (decidedFor policy drift fileId k).replacement) :
    new = respell k.verdict.typos k.comment.raw := by
  simp only [decidedFor, decide] at h
  split at h
  · exact (Option.some.inj h).symm
  · cases h

/-! ### Runs of comments -/

variable {text : List Char} {steps merged : List Step} {m : Step} {inside : List (Judged α)}

theorem Answers.congr {inside' : List (Judged α)} (h : Answers policy drift inside m)
    (hmem : ∀ k, k ∈ inside ↔ k ∈ inside') : Answers policy drift inside' m := by
  obtain ⟨hne, h1, h2, h3, h4, h5, h6, h7, h8, h9⟩ := h
  simp only [hmem] at h1 h2 h4 h5 h6 h7 h8 h9
  refine ⟨fun hnil => hne (List.eq_nil_iff_forall_not_mem.2 fun k hk => ?_), h1, h2, h3, h4, h5, h6,
    h7, h8, h9⟩
  rw [hmem, hnil] at hk
  cases hk

/-- Runs of what a list is mapped to are runs of the list. -/
theorem exists_groups {τ : Type} {f : τ → Step} {runs : List (List Step)}
    (hruns : List.Forall₂ (Run text) runs merged) {l : List τ} (h : runs.flatten = l.map f) :
    ∃ groups : List (List τ × Step), groups.flatMap Prod.fst = l ∧ groups.map Prod.snd = merged ∧
      ∀ g ∈ groups, Run text (g.1.map f) g.2 := by
  induction hruns generalizing l with
  | nil =>
    obtain rfl : l = [] := by simpa using h
    exact ⟨[], rfl, rfl, by simp⟩
  | cons hrun _ ih =>
    rw [List.flatten_cons] at h
    obtain ⟨front, back, rfl, rfl, hback⟩ := List.map_eq_append_iff.1 h.symm
    obtain ⟨groups, rfl, rfl, hgroups⟩ := ih hback.symm
    exact ⟨(front, _) :: groups, rfl, rfl, List.forall_mem_cons.2 ⟨hrun, hgroups⟩⟩

namespace Run

variable (h : Run text (inside.map fun k => widenStep text (decidedFor policy drift fileId k)) m)
include h

theorem treatment_decided : ∀ k ∈ inside,
    m.treatment = (decidedFor policy drift fileId k).treatment := by
  intro k hk
  rw [h.treatment_eq _ (List.mem_map_of_mem hk), widenStep_treatment]

/-- What deletes nothing is the decision about a comment as it is. -/
theorem eq_decidedFor (hm : m.deletes = false) :
    ∀ k ∈ inside, m = decidedFor policy drift fileId k := by
  intro k hk
  obtain ⟨k', rfl, hk'⟩ := List.map_eq_singleton_iff.1 (h.eq_of_not_deletes hm)
  obtain rfl := List.mem_singleton.1 hk
  rw [← hk', widenStep_deletes] at hm
  rw [← hk', widenStep_of_not hm]

variable (hown : ∀ k ∈ inside, k.comment.fileId = fileId)
include hown

theorem merits : ∀ k ∈ inside,
    Merits policy drift k m.treatment (decidedFor policy drift fileId k).reason := by
  intro k hk
  rw [h.treatment_decided k hk]
  exact decidedFor_merits (hown k hk)

theorem merits_delete_iff (hm : m.deletes = true) {k : Judged α} (hk : k ∈ inside) (r : String) :
    Merits policy drift k .delete r ↔ (decidedFor policy drift fileId k).reason = r := by
  have hmerits := h.merits hown k hk
  rw [Step.deletes, beq_iff_eq] at hm
  rw [hm] at hmerits
  exact ⟨fun hr => (hmerits.unique hr).2, fun hr => hr ▸ hmerits⟩

/-- The join of what is decided about neighbours carries out what they merit. -/
theorem answers (hsorted : inside.Pairwise fun a b => a.comment.start < b.comment.start) :
    Answers policy drift inside m := by
  obtain ⟨first, rest, rfl⟩ : ∃ first rest, inside = first :: rest :=
    List.exists_cons_of_ne_nil fun hnil => h.ne_nil (by rw [hnil, List.map_nil])
  obtain ⟨-, -, hline, hreplacement⟩ := h.head _ rfl
  rw [widenStep_line] at hline
  rw [widenStep_replacement] at hreplacement
  have hcategory := h.common Step.category none fun _ _ => rfl
  have hreason := h.common Step.reason "merged_delete" fun _ _ => rfl
  simp only [List.forall_mem_map, widenStep_category, widenStep_reason] at hcategory hreason
  constructor
  case nonempty => simp
  case merits => exact fun k hk => ⟨_, h.merits hown k hk⟩
  case alone =>
    intro hm k hk
    rw [h.eq_decidedFor hm k hk]
    exact ⟨rfl, rfl, decidedFor_merits (hown k hk)⟩
  case replacement =>
    rw [hreplacement, h.treatment_decided first List.mem_cons_self]
    exact decidedFor_replacement_iff
  case respelling =>
    intro new hnew k hk
    have hrewrite : m.treatment = .rewrite := by
      rw [h.treatment_decided first List.mem_cons_self, ← decidedFor_replacement_iff,
        ← hreplacement, hnew]
      rfl
    have hm : m.deletes = false := by
      rw [Step.deletes, hrewrite]
      rfl
    exact eq_respell_of_mem (h.eq_decidedFor hm k hk ▸ hnew)
  case category => exact fun _ c hc => hcategory.1 (some c) fun k hk => congrArg some (hc k hk)
  case mixed =>
    intro _ hnone
    refine hcategory.2 ?_
    rintro ⟨x, hx⟩
    refine hnone ⟨first.verdict.category, fun k hk => ?_⟩
    exact Option.some.inj ((hx k hk).trans (hx first List.mem_cons_self).symm)
  case reason =>
    intro hm r hr
    exact hreason.1 r fun k hk => (h.merits_delete_iff hown hm hk r).1 (hr k hk)
  case merged =>
    intro hm hnone
    refine hreason.2 ?_
    rintro ⟨r, hr⟩
    exact hnone ⟨r, fun k hk => (h.merits_delete_iff hown hm hk r).2 (hr k hk)⟩
  case line =>
    intro k hk hleast
    rcases List.mem_cons.1 hk with rfl | hk
    · exact hline
    · have := (List.pairwise_cons.1 hsorted).1 k hk
      have := hleast first List.mem_cons_self
      omega

end Run

/-! ### The plan -/

section Plan

variable {source : String} {comments comments' : List (Judged α)} {drift' : List (Finding α)}

@[simp] theorem ownComments_ofFile (fileId : String) (comments : List (Judged α)) :
    ownComments fileId (ofFile fileId comments) = ownComments fileId comments := by
  simp [ownComments, ofFile]

theorem planFor_ofFile (policy : Policy) (fileId source : String) (comments : List (Judged α))
    (drift : List (Finding α)) : planFor policy fileId source (ofFile fileId comments) drift =
      planFor policy fileId source comments drift := by
  rw [planFor, planFor, ownComments_ofFile]

/-- The order of comments that are apart is that of their places. -/
theorem ownComments_eq_of_perm (h : WellPlaced text fileId (ofFile fileId comments))
    (hperm : comments'.Perm comments) :
    ownComments fileId comments' = ownComments fileId comments := by
  have hfile : (ofFile fileId comments').Perm (ofFile fileId comments) := hperm.filter _
  have h' : WellPlaced text fileId (ofFile fileId comments') :=
    ⟨fun k hk => h.own k (hfile.mem_iff.1 hk), fun k hk => h.solid k (hfile.mem_iff.1 hk),
      hfile.symm.pairwise h.apart fun hab => hab.symm⟩
  rw [← ownComments_ofFile fileId comments, ← ownComments_ofFile fileId comments']
  refine List.Perm.eq_of_pairwise (fun a b ha hb hab hba => ?_) (ownComments_pairwise h')
    (ownComments_pairwise h)
    ((ownComments_perm h').trans (hfile.trans (ownComments_perm h).symm))
  have := (h'.solid a ((ownComments_perm h').mem_iff.1 ha)).start_lt_stop
  have := (h.solid b ((ownComments_perm h).mem_iff.1 hb)).start_lt_stop
  omega

theorem planFor_eq_of_perm (h : WellPlaced source.toList fileId (ofFile fileId comments))
    (hperm : comments'.Perm comments) (hdrift : drift'.Perm drift) :
    planFor policy fileId source comments' drift' =
      planFor policy fileId source comments drift := by
  have hdecide : decideWithin policy drift' fileId (size source.toList) =
      decideWithin (α := α) policy drift fileId (size source.toList) := by
    funext k
    simp only [decideWithin, isDrifted, hdrift.any_eq]
  rw [planFor, planFor, ownComments_eq_of_perm h hperm, hdecide]

/-- The comments of a file fall into groups, one for every step, that stand in the place of it. -/
theorem Carries.exists_groups (h : WellPlaced text fileId comments) (hcarries : Carries text
      (decided policy drift fileId (ownComments fileId comments)) merged) :
    ∃ groups : List (List (Judged α) × Step), groups.map Prod.snd = merged ∧ ∀ g ∈ groups,
      List.Sublist g.1 (ownComments fileId comments) ∧
        Run text (g.1.map (widenStep text ∘ decidedFor policy drift fileId)) g.2 ∧
        ∀ k, k ∈ g.1 ↔ k ∈ standingIn g.2 comments := by
  have hperm := ownComments_perm h
  obtain ⟨runs, hflatten, hruns⟩ := hcarries.merges.exists_runs
  rw [decided, List.map_map] at hflatten
  obtain ⟨groups, hcomments, rfl, hgroups⟩ := Patch.exists_groups hruns hflatten
  have hsub : ∀ g ∈ groups, List.Sublist g.1 (ownComments fileId comments) := by
    intro g hg
    have hone := (List.singleton_sublist.2 hg).flatMap Prod.fst
    rwa [List.flatMap_singleton, hcomments] at hone
  have hcovers : ∀ g ∈ groups, ∀ k ∈ g.1, g.2.covers k.comment.place = true := by
    intro g hg k hk
    have hsteps := ((hsub g hg).map (decidedFor policy drift fileId)).map (widenStep text)
    rw [List.map_map] at hsteps
    have hk' : decidedFor policy drift fileId k ∈
        decided policy drift fileId (ownComments fileId comments) :=
      List.mem_map_of_mem ((hsub g hg).subset hk)
    obtain ⟨hstart, hstop⟩ := (hgroups g hg).within
      (fun s hs => hcarries.stands.fits_widened s (hsteps.subset hs))
      (hcarries.stands.ascending_widened.sublist hsteps) _ (List.mem_map_of_mem hk)
    have hext := extends_widenStep (hcarries.stands.fits _ hk')
    exact Step.covers_iff.2 ⟨hstart.trans hext.start_le, hext.le_stop.trans hstop⟩
  have happart : groups.Pairwise fun g g' => g.2.place.stop ≤ g'.2.place.start :=
    List.pairwise_map.1 hcarries.ascending
  refine ⟨groups, rfl, fun g hg => ⟨hsub g hg, hgroups g hg, fun k => ?_⟩⟩
  rw [standingIn, List.mem_filter]
  constructor
  · exact fun hk => ⟨hperm.mem_iff.1 ((hsub g hg).subset hk), hcovers g hg k hk⟩
  · -- A comment in the place of a step is in some group, whose step would overlap if it were another.
    rintro ⟨hk, hcover⟩
    have hlt := (h.solid k hk).start_lt_stop
    rw [← hperm.mem_iff, ← hcomments, List.mem_flatMap] at hk
    obtain ⟨g', hg', hk⟩ := hk
    have hcover' := hcovers g' hg' k hk
    rw [Step.covers_iff] at hcover hcover'
    rcases eq_or_rel_of_pairwise happart hg hg' with rfl | hlt | hlt
    · exact hk
    · omega
    · omega

/-- The steps of a plan carry out what the comments in their places merit. -/
theorem Carries.answers (h : WellPlaced text fileId comments) (hcarries : Carries text
      (decided policy drift fileId (ownComments fileId comments)) merged) :
    ∀ m ∈ merged, m.place.fileId = fileId ∧ Answers policy drift (standingIn m comments) m := by
  have hperm := ownComments_perm h
  obtain ⟨groups, rfl, hgroups⟩ := hcarries.exists_groups h
  refine List.forall_mem_map.2 fun g hg => ?_
  obtain ⟨hsub, hrun, hmem⟩ := hgroups g hg
  have hown : ∀ k ∈ g.1, k.comment.fileId = fileId := fun k hk =>
    h.own k (hperm.mem_iff.1 (hsub.subset hk))
  have hsorted : g.1.Pairwise fun a b => a.comment.start < b.comment.start := by
    refine ((ownComments_pairwise h).sublist hsub).imp_of_mem fun {a b} ha _ hab => ?_
    exact (h.solid a (hperm.mem_iff.1 (hsub.subset ha))).start_lt_stop.trans_le hab
  have hanswers := hrun.answers hown hsorted
  refine ⟨?_, hanswers.congr hmem⟩
  obtain ⟨first, rest, hfirst⟩ := List.exists_cons_of_ne_nil hanswers.nonempty
  rw [hfirst] at hrun hown
  rw [(hrun.head _ rfl).2.1]
  exact (widenStep_fileId text _).trans (hown first List.mem_cons_self)

/-- There is a plan for well-placed comments of a file, and every one of them stands in exactly one of
its steps. The steps ascend, each carries out what the comments in its place merit, and no two
deletions are left that only blanks separate. The order of the comments and of the findings plays no
part. -/
theorem planFor_answers (h : WellPlaced source.toList fileId (ofFile fileId comments))
    (policy : Policy) (drift : List (Finding α)) :
    ∃ plan, planFor policy fileId source comments drift = .ok plan ∧ plan.fileId = fileId ∧
      (plan.steps.Pairwise fun a b =>
        a.place.start < b.place.start ∧ a.place.stop ≤ b.place.start) ∧
      (∀ k ∈ ofFile fileId comments, plan.steps.countP (·.covers k.comment.place) = 1) ∧
      (∀ s ∈ plan.steps, s.place.fileId = fileId ∧
        Answers policy drift (standingIn s (ofFile fileId comments)) s) ∧
      (plan.steps.Pairwise fun a b => ¬Joins source.toList a b) ∧
      ∀ comments' drift', comments'.Perm comments → drift'.Perm drift →
        planFor policy fileId source comments' drift' = .ok plan := by
  obtain ⟨merged, hplan, hcarries, -⟩ := exists_carries h policy drift
  rw [planFor_ofFile] at hplan
  refine ⟨⟨fileId, merged⟩, hplan, rfl, ?_, fun k hk => ?_, hcarries.answers h, ?_,
    fun comments' drift' hperm hdrift => (planFor_eq_of_perm h hperm hdrift).trans hplan⟩
  · refine hcarries.ascending.imp_of_mem fun {a b} ha _ hab => ⟨?_, hab⟩
    exact (hcarries.fits a ha).start_lt_stop.trans_le hab
  · have hk' := (mem_decided_iff h policy drift).2 (List.mem_map_of_mem hk)
    exact hcarries.countP_covers hk'
  · exact hcarries.merges.pairwise_not_joins hcarries.stands.ascending_widened
      hcarries.stands.fits_widened hcarries.stands.exists_solid

/-- Comments of two categories in a run, the first and the last of one, are deleted together: the
deletion has no category and is called merged. The comment after it is kept. -/
theorem planFor_of_mixed_run :
    WellPlaced "// a\n// TODO\n// b\nrun(); // why\n".toList "a.js" (ofFile "a.js"
      [placed "a.js" 0 "// a" .filler [], placed "a.js" 5 "// TODO" .placeholder [],
        placed "a.js" 13 "// b" .filler [], placed "a.js" 25 "// why" .informative []]) ∧
    (∃ plan, planFor ⟨true, true, true, true, true, true, true⟩ "a.js"
        "// a\n// TODO\n// b\nrun(); // why\n"
        [placed "a.js" 0 "// a" .filler [], placed "a.js" 5 "// TODO" .placeholder [],
          placed "a.js" 13 "// b" .filler [], placed "a.js" 25 "// why" .informative []] [] =
        .ok plan ∧
      ∀ s ∈ plan.steps, s.place.fileId = "a.js" ∧
        Answers ⟨true, true, true, true, true, true, true⟩ ([] : List (Finding Nat))
          (standingIn s (ofFile "a.js"
            [placed "a.js" 0 "// a" .filler [], placed "a.js" 5 "// TODO" .placeholder [],
              placed "a.js" 13 "// b" .filler [], placed "a.js" 25 "// why" .informative []])) s) ∧
      planFor ⟨true, true, true, true, true, true, true⟩ "a.js"
        "// a\n// TODO\n// b\nrun(); // why\n"
        [placed "a.js" 0 "// a" .filler [], placed "a.js" 5 "// TODO" .placeholder [],
          placed "a.js" 13 "// b" .filler [], placed "a.js" 25 "// why" .informative []] [] =
        .ok ⟨"a.js", [⟨⟨"a.js", 0, 18⟩, .delete, none, none, "merged_delete", 1⟩,
          ⟨⟨"a.js", 25, 31⟩, .keep, none, some .informative, "preserve_informative", 1⟩]⟩ := by
  have hplaced : WellPlaced "// a\n// TODO\n// b\nrun(); // why\n".toList "a.js" (ofFile "a.js"
      [placed "a.js" 0 "// a" .filler [], placed "a.js" 5 "// TODO" .placeholder [],
        placed "a.js" 13 "// b" .filler [], placed "a.js" 25 "// why" .informative []]) := by decide
  refine ⟨hplaced, ?_, ?_⟩
  · obtain ⟨plan, hplan, -, -, -, hanswers, -, -⟩ :=
      planFor_answers hplaced ⟨true, true, true, true, true, true, true⟩ []
    exact ⟨plan, hplan, hanswers⟩
  · rw [planFor, ownComments_eq (by decide) (by decide)]
    decide +kernel

end Plan

end Marginalia.Patch
