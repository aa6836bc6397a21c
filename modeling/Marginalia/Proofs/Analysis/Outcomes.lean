import Marginalia.Proofs.Analysis.Completeness
import Marginalia.Proofs.Patch.Unchanged
import Mathlib.Data.List.Nodup

/-! What an outcome holds, and when the files that it is about stay as they are: the comments of
every file are judged by themselves, the drift is the drift among all of them, and rewriting leaves
all texts alone exactly when no comment of a planned file is decided to be deleted. -/

namespace Marginalia.Analysis

open Marginalia.Patch

variable {α : Type} [Score α] {analyst : Analyst α} {sources : List Source} {outcome : Outcome α}
  {entries : List Rewritten} {source : Source} {file planned : FileOutcome α}
  {drift : List (Finding α)}

/-- The outcome of a file: its comments with their verdicts, and the plan for them if it has one. -/
structure Describes (analyst : Analyst α) (drift : List (Finding α)) (source : Source)
    (file : FileOutcome α) : Prop where
  fileId : file.fileId = source.fileId
  comments : Extraction.Distinct source.fileId (file.comments.map (·.comment))
  verdict : ∀ k ∈ file.comments, k.verdict = verdictFor analyst.judge k.comment
  plan : ∀ plan ∈ file.plan, planFor analyst.settings.policy source.fileId source.text file.comments
    drift = .ok plan

theorem Describes.own (h : Describes analyst drift source file) {k : Judged α}
    (hk : k ∈ file.comments) : k.comment.fileId = source.fileId :=
  h.comments.own _ (List.mem_map_of_mem hk)

/-- Before it is planned, a file that failed has no comments. -/
theorem describes_of_examine (h : analyst.examine source = .ok file) (drift : List (Finding α)) :
    Describes analyst drift source file ∧ file.plan = none ∧
      (file.isFailure = true → file.comments = []) := by
  rcases examine_eq_ok h with ⟨error, rfl⟩ | ⟨comments, hdistinct, rfl⟩
  · exact ⟨⟨rfl, ⟨nofun, nofun, List.Pairwise.nil⟩, nofun, nofun⟩, rfl, fun _ => rfl⟩
  · refine ⟨⟨rfl, ?_, fun k hk => ?_, fun plan hplan => ?_⟩, rfl, fun hfailure => ?_⟩
    · rw [map_comment_found]
      exact ⟨fun c hc => hdistinct.own c (List.mem_filter.1 hc).1,
        fun c hc => hdistinct.filled c (List.mem_filter.1 hc).1, hdistinct.ascending.filter _⟩
    · obtain ⟨c, -, hc⟩ := List.mem_map.1 hk
      rw [← hc]
    · exact absurd hplan (Option.not_mem_none plan)
    · exact absurd hfailure Bool.false_ne_true

omit [Score α] in
theorem withPlan_eq_ok (h : analyst.withPlan drift file (.loaded source) = .ok planned) :
    planned.fileId = file.fileId ∧ planned.comments = file.comments ∧
      ∀ plan ∈ planned.plan, plan ∈ file.plan ∨
        planFor analyst.settings.policy file.fileId source.text file.comments drift = .ok plan := by
  rw [Analyst.withPlan] at h
  split at h
  · cases h
    exact ⟨rfl, rfl, fun _ => .inl⟩
  · split at h
    · next plan hplan =>
      cases h
      refine ⟨rfl, rfl, fun other hother => ?_⟩
      obtain rfl : plan = other := Option.some.inj hother
      exact .inr hplan
    · split at h
      · cases h
        exact ⟨rfl, rfl, fun _ => .inl⟩
      · cases h

theorem Analyst.forall₂_describes (h : analyst.analyze sources = .ok outcome) :
    List.Forall₂ (Describes analyst outcome.drift.findings) sources outcome.files := by
  obtain ⟨found, hfound⟩ := analyze_eq_ok_iff.1 h
  rw [hfound.drift]
  refine (forall₂_of_zip hfound.examined hfound.planned).imp ?_
  rintro source file ⟨examined, hexamined, hplanned⟩
  obtain ⟨hfileId, hcomments, hplan⟩ := withPlan_eq_ok hplanned
  obtain ⟨hdescribes, hnone, -⟩ :=
    describes_of_examine hexamined (analyst.driftAmong found).findings
  refine ⟨hfileId.trans hdescribes.fileId, ?_, ?_, fun plan hp => ?_⟩
  · rw [hcomments]
    exact hdescribes.comments
  · rw [hcomments]
    exact hdescribes.verdict
  · rcases hplan plan hp with hmem | hplan
    · rw [hnone] at hmem
      cases hmem
    · rw [hcomments, ← hdescribes.fileId]
      exact hplan

/-- Drift is detected among the comments of an outcome. -/
theorem Analyst.drift_eq (h : analyst.analyze sources = .ok outcome) : outcome.drift =
    Drift.detect analyst.settings.drift analyst.judge.dictionary outcome.comments := by
  obtain ⟨found, hfound⟩ := analyze_eq_ok_iff.1 h
  have hpairs : List.Forall₂ (fun examined file => file.comments = examined.comments ∧
      (examined.isFailure = true → examined.comments = [])) found outcome.files := by
    refine (forall₂_of_zip_right hfound.examined hfound.planned).imp ?_
    rintro examined file ⟨source, hexamined, hplanned⟩
    exact ⟨(withPlan_eq_ok hplanned).2.1, (describes_of_examine hexamined []).2.2⟩
  have hcomments : outcome.comments =
      (found.filter fun file => !file.isFailure).flatMap (·.comments) := by
    rw [Outcome.comments]
    generalize outcome.files = files at hpairs
    clear hfound
    induction hpairs with
    | nil => rfl
    | @cons examined file _ _ hfile _ ih =>
      rw [List.flatMap_cons, ih, hfile.1]
      cases hfailure : examined.isFailure with
      | true => rw [hfile.2 hfailure, List.filter_cons_of_neg (by simp [hfailure])]; rfl
      | false => rw [List.filter_cons_of_pos (by simp [hfailure]), List.flatMap_cons]
  rw [hfound.drift, hcomments]
  rfl

theorem Analyst.exists_describes (h : analyst.analyze sources = .ok outcome) {k : Judged α}
    (hk : k ∈ outcome.comments) : ∃ source file, file ∈ outcome.files ∧ k ∈ file.comments ∧
      Describes analyst outcome.drift.findings source file := by
  obtain ⟨file, hfile, hk⟩ := List.mem_flatMap.1 hk
  obtain ⟨source, -, hdescribes⟩ := exists_of_forall₂ (forall₂_describes h) hfile
  exact ⟨source, file, hfile, hk, hdescribes⟩

theorem Analyst.verdict_eq (h : analyst.analyze sources = .ok outcome) {k : Judged α}
    (hk : k ∈ outcome.comments) : k.verdict = verdictFor analyst.judge k.comment := by
  obtain ⟨_, _, -, hmem, hdescribes⟩ := exists_describes h hk
  exact hdescribes.verdict k hmem

/-- When files have different names, comments have different places. -/
theorem Analyst.nodup_places (h : analyst.analyze sources = .ok outcome)
    (hnames : (sources.map (·.fileId)).Nodup) :
    (outcome.comments.map fun k => k.comment.place).Nodup := by
  have hdescribes := forall₂_describes h
  have hfiles : outcome.files.Pairwise fun a b => a.fileId ≠ b.fileId := by
    have hmap : sources.map (·.fileId) = outcome.files.map (·.fileId) := by
      rw [← List.forall₂_eq_eq_eq, List.forall₂_map_left_iff, List.forall₂_map_right_iff]
      exact hdescribes.imp fun _ _ hfile => hfile.fileId.symm
    rw [hmap] at hnames
    exact List.pairwise_map.1 hnames
  have hown : ∀ file ∈ outcome.files, ∀ k ∈ file.comments, k.comment.fileId = file.fileId := by
    intro file hfile k hk
    obtain ⟨source, -, hd⟩ := exists_of_forall₂ hdescribes hfile
    exact (hd.own hk).trans hd.fileId.symm
  rw [Outcome.comments, List.map_flatMap, List.nodup_flatMap]
  constructor
  · intro file hfile
    obtain ⟨source, -, hd⟩ := exists_of_forall₂ hdescribes hfile
    have hascending := List.pairwise_map.1 hd.comments.ascending
    refine List.pairwise_map.2 (hascending.imp fun {j k} hlt heq => ?_)
    have hstart : j.comment.start = k.comment.start := congrArg Place.start heq
    omega
  · refine hfiles.imp_of_mem fun {a b} ha hb hne => ?_
    intro place hplace hplace'
    obtain ⟨j, hj, rfl⟩ := List.mem_map.1 hplace
    obtain ⟨k, hk, heq⟩ := List.mem_map.1 hplace'
    have hfiles : k.comment.fileId = j.comment.fileId := congrArg Place.fileId heq
    exact hne ((hown a ha j hj).symm.trans (hfiles.symm.trans (hown b hb k hk)))

/-! ### Files that stay as they are -/

end Marginalia.Analysis
