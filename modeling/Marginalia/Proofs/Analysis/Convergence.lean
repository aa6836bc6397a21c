import Marginalia.Proofs.Analysis.Outcomes
import Marginalia.Proofs.Drift.Persistence
import Marginalia.Proofs.Judging.Verdicts

/-! Rewriting a second time. The second round goes by what it finds in the new texts, so it can find
comments that the first one did not, or the old ones at other code. Where it finds what the first
round left, it leaves every text alone. -/

namespace Marginalia.Analysis

open Marginalia.Drift Marginalia.Patch

/-! ### What a round leaves -/

section Standing

variable {α : Type}

/-- The comments that are not decided to be deleted. -/
def standing (policy : Policy) (outcome : Outcome α) : List (Judged α) :=
  outcome.comments.filter fun k =>
    !(decidedFor policy outcome.drift.findings k.comment.fileId k).deletes

theorem mem_standing {policy : Policy} {outcome : Outcome α} {k : Judged α} :
    k ∈ standing policy outcome ↔ k ∈ outcome.comments ∧
      (decidedFor policy outcome.drift.findings k.comment.fileId k).deletes = false := by
  rw [standing, List.mem_filter, Bool.not_eq_true']

/-- A comment is found again on the code that it had, blanks apart. -/
structure Resumes (j k : Judged α) : Prop where
  raw : j.comment.raw = k.comment.raw
  code : Code.tokens j.comment.code = Code.tokens k.comment.code

/-- All of the comments are found again, in order, in the blocks that they had, and on the sites and
in the blocks that they had to each other. -/
structure Aligned (comments found : List (Judged α)) : Prop where
  resumes : List.Forall₂ Resumes comments found
  block : ∀ p ∈ comments.zip found,
    Code.tokens p.1.comment.context.1 = Code.tokens p.2.comment.context.1
  sites : ∀ p ∈ comments.zip found, ∀ q ∈ comments.zip found,
    siteOf p.1 = siteOf q.1 ↔ siteOf p.2 = siteOf q.2
  blocks : ∀ p ∈ comments.zip found, ∀ q ∈ comments.zip found,
    blockOf p.1 = blockOf q.1 ↔ blockOf p.2 = blockOf q.2

end Standing

/-! ### Rounds -/

section Rounds

variable {α : Type} [Score α]

/-- An analysis of sources and what they are rewritten to. -/
structure Round (analyst : Analyst α) (sources : List Source) (outcome : Outcome α)
    (entries : List Rewritten) : Prop where
  analyzed : analyst.analyze sources = .ok outcome
  rewritten : rewrite sources outcome = .ok entries

variable {analyst : Analyst α} {sources last : List Source} {outcome again : Outcome α}
  {entries rewritten : List Rewritten}

theorem Round.unique (h : Round analyst sources outcome entries)
    (hagain : Round analyst sources again rewritten) : again = outcome ∧ rewritten = entries := by
  have houtcome : again = outcome := Except.ok.inj (hagain.analyzed.symm.trans h.analyzed)
  subst houtcome
  exact ⟨rfl, Except.ok.inj (hagain.rewritten.symm.trans h.rewritten)⟩

end Rounds

/-! ### What is found again -/

section Again

variable {analyst : Analyst Rat} {sources next : List Source} {outcome again : Outcome Rat}
  {j k : Judged Rat}

/-- A comment that is found again is judged as before. -/
theorem Resumes.category (h : Resumes j k) (hrun : analyst.analyze sources = .ok outcome)
    (hagain : analyst.analyze next = .ok again) (hj : j ∈ outcome.comments)
    (hk : k ∈ again.comments) : j.verdict.category = k.verdict.category := by
  rw [Analyst.verdict_eq hrun hj, Analyst.verdict_eq hagain hk, verdictFor, verdictFor, h.raw,
    Judging.featuresOf_congr h.code]

theorem Aligned.links (h : Aligned (standing analyst.settings.policy outcome) again.comments)
    (hrun : analyst.analyze sources = .ok outcome) (hagain : analyst.analyze next = .ok again) :
    Links outcome.comments again.comments
      ((standing analyst.settings.policy outcome).zip again.comments) where
  sublist := by
    rw [List.map_fst_zip (Nat.le_of_eq h.resumes.length_eq)]
    exact List.filter_sublist
  found := List.map_snd_zip (Nat.le_of_eq h.resumes.length_eq.symm)
  continues := by
    intro p hp
    obtain ⟨hj, hk⟩ := List.of_mem_zip hp
    have hresumes := (List.forall₂_iff_zip.1 h.resumes).2 hp
    refine ⟨hresumes.raw, ?_, ?_, hresumes.category hrun hagain (mem_standing.1 hj).1 hk⟩
    · rw [Code.normalTokens, Code.normalTokens, hresumes.code]
    · rw [Code.normalTokens, Code.normalTokens, h.block p hp]
  sites := h.sites
  blocks := h.blocks

/-- What a flagged comment is reported against is flagged too, so it stands. -/
theorem exists_joined_standing (hrun : analyst.analyze sources = .ok outcome)
    (hflag : analyst.settings.policy.flagDrift = true)
    (hdrifted : isDrifted outcome.drift.findings j.comment.fileId j.comment.place = true) :
    analyst.settings.drift.enabled = true ∧ ∃ f ∈ outcome.drift.findings,
      ∃ k ∈ standing analyst.settings.policy outcome, Joins f j.comment.place k.comment.place := by
  obtain ⟨f, hf, hmentions⟩ := isDrifted_iff.1 hdrifted
  have hreported := hf
  rw [Analyst.drift_eq hrun] at hreported
  have henabled : analyst.settings.drift.enabled = true := by
    by_contra hdisabled
    rw [findings_of_disabled hdisabled] at hreported
    cases hreported
  obtain ⟨k, hk, hjoins⟩ : ∃ k ∈ outcome.comments, Joins f j.comment.place k.comment.place := by
    obtain ⟨a, ha, b, hb, -, -, hab⟩ := exists_joined_of_mem_findings hreported
    rcases hab with ⟨hfirst, hsecond⟩ | ⟨hfirst, hsecond⟩ <;> rcases hmentions with hm | hm
    · exact ⟨b, hb, .inl ⟨hm, hsecond⟩⟩
    · exact ⟨a, ha, .inr ⟨hfirst, hm⟩⟩
    · exact ⟨a, ha, .inl ⟨hm, hsecond⟩⟩
    · exact ⟨b, hb, .inr ⟨hfirst, hm⟩⟩
  refine ⟨henabled, f, hf, k, mem_standing.2 ⟨hk, Bool.eq_false_iff.2 fun hdeletes => ?_⟩, hjoins⟩
  refine (decidedFor_deletes_iff.1 hdeletes).1 ⟨isDrifted_iff.2 ⟨f, hf, ?_⟩, hflag⟩
  rcases hjoins with ⟨-, hsecond⟩ | ⟨hfirst, -⟩
  · exact .inr hsecond
  · exact .inl hfirst

/-- A comment that drifted drifts again. -/
theorem Aligned.isDrifted (h : Aligned (standing analyst.settings.policy outcome) again.comments)
    (hsteady : Steady analyst.settings.drift outcome.comments)
    (hnames : (sources.map (·.fileId)).Nodup) (hnext : (next.map (·.fileId)).Nodup)
    (hrun : analyst.analyze sources = .ok outcome) (hagain : analyst.analyze next = .ok again)
    (hflag : analyst.settings.policy.flagDrift = true)
    (hp : (j, k) ∈ (standing analyst.settings.policy outcome).zip again.comments)
    (hdrifted : isDrifted outcome.drift.findings j.comment.fileId j.comment.place = true) :
    isDrifted again.drift.findings k.comment.fileId k.comment.place = true := by
  obtain ⟨henabled, f, hf, other, hother, hjoins⟩ := exists_joined_standing hrun hflag hdrifted
  obtain ⟨l, hq⟩ := exists_mem_zip_right h.resumes hother
  rw [Analyst.drift_eq hrun] at hf
  obtain ⟨g, hg, hagainJoins⟩ := exists_finding_again henabled (h.links hrun hagain) hsteady
    (Analyst.nodup_places hrun hnames) (Analyst.nodup_places hagain hnext) hp hq hf hjoins
  rw [← Analyst.drift_eq hagain] at hg
  refine isDrifted_iff.2 ⟨g, hg, ?_⟩
  rcases hagainJoins with ⟨hfirst, -⟩ | ⟨-, hsecond⟩
  · exact .inl hfirst
  · exact .inr hsecond

end Again

/-! ### Rounds over markers -/

section Markers

variable {source : Source} {language : Language} {c : Comment} {out : String}

/-- The default settings, but placeholders are deleted. -/
def markerSettings : Settings Rat :=
  { Settings.default with policy := { Policy.default with deletePlaceholder := true } }

def markerAnalyst : Analyst Rat :=
  ⟨markerSettings, .ofSettings markerSettings.classifier, Language.tree⟩

theorem ofSettings_markerSettings : Analyst.ofSettings markerSettings = .ok markerAnalyst := by
  have hcheck : markerSettings.check = .ok () := by decide +kernel
  rw [Analyst.ofSettings, hcheck]
  rfl

/-- A comment that is nothing but a marker. -/
def isMarker (c : Comment) : Bool :=
  let words := Prose.words (Prose.body c.raw)
  words.isEmpty || markerAnalyst.judge.markers.contains (String.intercalate " " words)

/-- A comment as it is judged. -/
def judgedMarker (c : Comment) : Judged Rat := ⟨c, verdictFor markerAnalyst.judge c⟩

theorem category_judgedMarker_iff :
    (judgedMarker c).verdict.category = .placeholder ↔ isMarker c = true := by
  rw [judgedMarker, verdictFor, Judging.category_eq_placeholder_iff,
    Judging.placeholder_featuresOf]
  rfl

/-- A comment that has text and is the only one of its file. -/
structure Lone (source : Source) (language : Language) (c : Comment) : Prop where
  named : Language.named source.language = .ok language
  extracted : Extraction.extract language.profile.conventions source.fileId source.text
    (Language.tree language source.text) = .ok [c]
  text : lacksText c = false
  own : c.fileId = source.fileId
  solid : Solid source.text.toList c.place

theorem lone_of_findIn (hlanguage : Language.named source.language = .ok language)
    (hsound : Extraction.Sound source.text.toList language.profile.conventions []
      (Language.tree language source.text))
    (hlocated : (Extraction.findIn source.text.toList language.profile.conventions [] [] []
      (Language.tree language source.text)).map (Extraction.located source.fileId source.text.toList
        ((Extraction.findIn source.text.toList language.profile.conventions [] [] []
          (Language.tree language source.text)).map fun f => (f.start, f.stop))) = [c])
    (htext : lacksText c = false) : Lone source language c := by
  obtain ⟨comments, hextract, -, horder⟩ := Extraction.exists_extract hsound source.fileId
  have hcomments : comments = [c] := by
    rw [Extraction.extract_eq hsound, hlocated] at hextract
    exact (Except.ok.inj hextract).symm
  rw [hcomments] at hextract horder
  exact ⟨hlanguage, hextract, htext, horder.own c List.mem_cons_self,
    horder.solid c List.mem_cons_self⟩

/-- The text of a file without its marker. -/
def withoutMarker (source : Source) (c : Comment) : String :=
  String.ofList (patched [widenStep source.text.toList
    ⟨c.place, .delete, none, some .placeholder, "delete_placeholder", c.line⟩] source.text.toList)

theorem Lone.plan_of_placeholder (h : Lone source language c) {verdict : Verdict Rat}
    (hcategory : verdict.category = .placeholder) :
    ∃ plan : Plan, plan.steps = [widenStep source.text.toList
        ⟨c.place, .delete, none, some .placeholder, "delete_placeholder", c.line⟩] ∧
      planFor markerSettings.policy source.fileId source.text [⟨c, verdict⟩]
        ([] : List (Finding Rat)) = .ok plan ∧
      Patch.apply source.text plan = .ok (withoutMarker source c) := by
  obtain ⟨step, rfl, hplan, happly⟩ := planFor_lone (k := ⟨c, verdict⟩) h.own h.solid
    markerSettings.policy ([] : List (Finding Rat))
  rw [decidedFor_of_placeholder rfl hcategory rfl] at hplan happly
  exact ⟨_, rfl, hplan, happly⟩

def markedSource : Source := ⟨"a.js", "// XXX\na();\n", "js", none⟩

def bareSource : Source := ⟨"a.js", "a();\n", "js", none⟩

def marker : Comment := ⟨"a.js", 0, 6, 1, .line, "// XXX", "a();", 7, "a();", 7⟩

def note : Comment :=
  ⟨"b.js", 0, 13, 1, .line, "// adds a row", "b.c = 1;", 14, "b.c = 1;", 14⟩

/-- The texts of the three sources without the marker. -/
def textOf (source : Source) : String :=
  if source = markedSource then bareSource.text else source.text

end Markers

/-! ### The second round -/

end Marginalia.Analysis
