import Marginalia.Proofs.Analysis.Rewriting
import Marginalia.Proofs.Extraction.Trees
import Marginalia.Proofs.Patch.Coverage

/-! No comment is lost and no file fails, when trees are sound and names differ: every comment of a
file is judged or reported as empty, every judged comment is in the place of one step of the plan,
and every file is rewritten. -/

namespace Marginalia.Analysis

open Marginalia.Text Marginalia.Extraction Marginalia.Patch

variable {α : Type} [Score α]

/-- Whether a comment has nothing but delimiters and blanks. -/
def lacksText (comment : Comment) : Bool := (Prose.body comment.raw).toList.all Unicode.isBlank

/-- The warning that a comment is empty. -/
def emptyWarning (comment : Comment) : Warning := .empty comment.fileId comment.start comment.line

/-- The verdict on a comment that has text. -/
def verdictFor (judge : Judging.Judge α) (comment : Comment) : Verdict α :=
  Judging.verdictOf judge.settings (judge.featuresOf (Prose.body comment.raw) comment.code)

/-- The outcome of a file with the given comments before it is planned. -/
def found (analyst : Analyst α) (fileId : String) (comments : List Comment) : FileOutcome α where
  fileId := fileId
  comments := (comments.filter fun c => !lacksText c).map fun c => ⟨c, verdictFor analyst.judge c⟩
  plan := none
  warnings := (comments.filter lacksText).map emptyWarning
  error := none

theorem map_comment_found (analyst : Analyst α) (fileId : String) (comments : List Comment) :
    (found analyst fileId comments).comments.map (·.comment) =
      comments.filter fun c => !lacksText c := by
  rw [found, List.map_map]
  exact List.map_id _

/-- A comment that has bytes is judged, or it is empty. -/
theorem judged_eq (analyst : Analyst α) {comment : Comment} (h : comment.check = .ok ()) :
    analyst.judged comment = .ok (if lacksText comment then .inr (emptyWarning comment)
      else .inl ⟨comment, verdictFor analyst.judge comment⟩) := by
  rw [Analyst.judged, Judging.Judge.classify, Judging.Judge.features, h]
  simp only [bind, Except.bind]
  by_cases hlacks : lacksText comment = true
  · have hall : (Prose.body comment.raw).toList.all Unicode.isBlank = true := hlacks
    rw [if_pos hall, if_pos hlacks]
    rfl
  · have hall : ¬(Prose.body comment.raw).toList.all Unicode.isBlank = true := hlacks
    rw [if_neg hall, if_neg hlacks]
    rfl

/-- Extracted comments are judged, or they are empty. -/
theorem examine_eq {analyst : Analyst α} {source : Source} {language : Language}
    {comments : List Comment} (hlanguage : Language.named source.language = .ok language)
    (hextract : extract language.profile.conventions source.fileId source.text
      (analyst.tree language source.text) = .ok comments) :
    analyst.examine source = .ok (found analyst source.fileId comments) := by
  have hjudged : comments.mapM analyst.judged = .ok (comments.map fun comment =>
      if lacksText comment then .inr (emptyWarning comment)
      else .inl ⟨comment, verdictFor analyst.judge comment⟩) :=
    mapM_eq_ok fun comment hc => judged_eq analyst ((extract_eq_ok hextract).2 comment hc)
  rw [Analyst.examine, hlanguage]
  simp only [bind, Except.bind, hextract, hjudged, filterMap_getLeft?, filterMap_getRight?]
  rfl

/-- A source that is examined has its comments judged, or it fails. -/
theorem examine_eq_ok {analyst : Analyst α} {source : Source} {file : FileOutcome α}
    (h : analyst.examine source = .ok file) :
    (∃ error, file = .failed source.fileId error) ∨ ∃ comments,
      Extraction.Distinct source.fileId comments ∧
        file = found analyst source.fileId comments := by
  have hfailed : ∀ {fault : Fault}, Analyst.isolated source.fileId (.error fault) = .ok file →
      ∃ error, file = .failed source.fileId error := by
    intro fault hfault
    rw [Analyst.isolated] at hfault
    split at hfault
    · exact ⟨_, (Except.ok.inj hfault).symm⟩
    · cases hfault
  cases hlanguage : Language.named source.language with
  | error fault =>
    rw [Analyst.examine, hlanguage] at h
    exact .inl (hfailed h)
  | ok language =>
    cases hextract : extract language.profile.conventions source.fileId source.text
      (analyst.tree language source.text) with
    | error fault =>
      rw [Analyst.examine, hlanguage] at h
      simp only [bind, Except.bind, hextract] at h
      exact .inl (hfailed h)
    | ok comments =>
      rw [examine_eq hlanguage hextract, Except.ok.injEq] at h
      exact .inr ⟨comments, distinct_of_extract hextract, h.symm⟩

/-- A source with a sound tree can be examined. -/
theorem exists_examine {analyst : Analyst α} {source : Source} {language : Language}
    (hlanguage : Language.named source.language = .ok language)
    (hsound : Sound source.text.toList language.profile.conventions []
      (analyst.tree language source.text)) :
    ∃ comments, extract language.profile.conventions source.fileId source.text
        (analyst.tree language source.text) = .ok comments ∧
      comments.map Comment.place = (findIn source.text.toList language.profile.conventions [] [] []
        (analyst.tree language source.text)).map (Found.place source.fileId) ∧
      InOrder source.text.toList source.fileId comments ∧
      analyst.examine source = .ok (found analyst source.fileId comments) := by
  obtain ⟨comments, hextract, hplaces, horder⟩ := exists_extract hsound source.fileId
  exact ⟨comments, hextract, hplaces, horder, examine_eq hlanguage hextract⟩

/-! ### Planning -/

omit [Score α] in
theorem wellPlaced_of_inOrder {text : List Char} {fileId : String} {comments : List Comment}
    (h : InOrder text fileId comments) (p : Comment → Bool) (verdict : Comment → Verdict α) :
    WellPlaced text fileId ((comments.filter p).map fun c => ⟨c, verdict c⟩) where
  own := by
    intro k hk
    obtain ⟨c, hc, rfl⟩ := List.mem_map.1 hk
    exact h.own c (List.mem_filter.1 hc).1
  solid := by
    intro k hk
    obtain ⟨c, hc, rfl⟩ := List.mem_map.1 hk
    exact h.solid c (List.mem_filter.1 hc).1
  apart := List.pairwise_map.2 ((h.ascending.filter p).imp .inl)

theorem withPlan_found {analyst : Analyst α} {source : Source} {comments : List Comment}
    {drift : List (Finding α)} {plan : Plan}
    (h : planFor analyst.settings.policy source.fileId source.text
      (found analyst source.fileId comments).comments drift = .ok plan) :
    analyst.withPlan drift (found analyst source.fileId comments) (.loaded source) =
      .ok { found analyst source.fileId comments with plan := some plan } := by
  have hfound : planFor analyst.settings.policy (found analyst source.fileId comments).fileId
      source.text (found analyst source.fileId comments).comments drift = .ok plan := h
  rw [Analyst.withPlan, if_neg (by simp [found, FileOutcome.isFailure]), hfound]

/-- The plan for a file that could be examined carries out what is decided about its comments. -/
theorem exists_withPlan (analyst : Analyst α) {source : Source} {comments : List Comment}
    (h : InOrder source.text.toList source.fileId comments) (drift : List (Finding α)) :
    ∃ merged,
      analyst.withPlan drift (found analyst source.fileId comments) (.loaded source) =
        .ok { found analyst source.fileId comments with plan := some ⟨source.fileId, merged⟩ } ∧
      Carries source.text.toList (decided analyst.settings.policy drift source.fileId
        (ownComments source.fileId (found analyst source.fileId comments).comments)) merged ∧
      Patch.apply source.text ⟨source.fileId, merged⟩ =
        .ok (String.ofList (patched merged source.text.toList)) := by
  have hplaced := wellPlaced_of_inOrder h (fun c => !lacksText c) (verdictFor analyst.judge)
  obtain ⟨merged, hplan, hcarries, happly⟩ := exists_carries hplaced analyst.settings.policy drift
  exact ⟨merged, withPlan_found hplan, hcarries, happly⟩

end Marginalia.Analysis
