import Marginalia.Proofs.Judging.Verdicts
import Marginalia.Proofs.Likeness.Score
import Marginalia.Proofs.Phrase.Matching
import Mathlib.Tactic.Linarith
import Mathlib.Tactic.NormNum

/-! How a verdict comes about, and how sure it is. The first rule that fires decides the category
and the confidence, and all rules that fire are named as evidence. Read with rationals, the
confidence keeps to the range of its category. -/

namespace Marginalia.Judging

/-! ### The rules that fire -/

section Rules

variable {α : Type} [Score α] {settings : ClassifierSettings α} {features : Features α}
  {verdict : Verdict α}

/-- The rules that fire on features, in order of priority. -/
def firingRules (settings : ClassifierSettings α) (features : Features α) : List (Rule α) :=
  rules.filter fun rule => (rule.fires features settings).isSome

/-- A verdict with the names of all rules that fire, or the one for none, and the category of the
first. -/
structure DecidedBy (settings : ClassifierSettings α) (features : Features α)
    (verdict : Verdict α) : Prop where
  evidence : verdict.evidence =
    if (firingRules settings features).isEmpty then [noRule]
    else (firingRules settings features).map (·.name)
  category : verdict.category =
    ((firingRules settings features).head?.map (·.category)).getD .informative
  typos : verdict.typos = features.typos

theorem map_fst_firing (settings : ClassifierSettings α) (features : Features α) :
    (firing settings features).map Prod.fst = firingRules settings features := by
  rw [firing, firingRules]
  induction rules (α := α) with
  | nil => rfl
  | cons rule rest ih =>
    rw [List.filterMap_cons, List.filter_cons]
    cases hfires : rule.fires features settings with
    | none => simpa using ih
    | some confidence => simpa using ih

theorem decidedBy_verdictOf : DecidedBy settings features (verdictOf settings features) := by
  have hrules := map_fst_firing settings features
  refine ⟨?_, ?_, typos_verdictOf⟩
  · rw [verdictOf, ← hrules]
    cases firing settings features with
    | nil => rfl
    | cons first rest => simp
  · rw [verdictOf, ← hrules]
    cases firing settings features with
    | nil => rfl
    | cons first rest => rfl

theorem words_featuresOf (judge : Judge α) (body code : String) :
    (judge.featuresOf body code).words = Prose.words body := by
  rw [Judge.featuresOf]

theorem fillerHits_featuresOf (judge : Judge α) (body code : String) :
    (judge.featuresOf body code).fillerHits =
      ((judge.fillers.matches (Prose.words body)).map (·.text)).eraseDups := by
  rw [Judge.featuresOf]

theorem fillerWords_featuresOf (judge : Judge α) (body code : String) :
    (judge.featuresOf body code).fillerWords =
      ((judge.fillers.matches (Prose.words body)).flatMap (·.covered)).eraseDups.length := by
  rw [Judge.featuresOf]

end Rules

/-! ### Confidences -/

variable {settings : ClassifierSettings Rat} {features : Features Rat}

/-- A verdict with the confidence that its category allows. -/
structure Measured (features : Features Rat) (verdict : Verdict Rat) : Prop where
  nonneg : 0 ≤ verdict.confidence
  le_one : verdict.confidence ≤ 1
  placeholder : verdict.category = .placeholder → verdict.confidence = 0.95
  filler : verdict.category = .filler →
    0.5 ≤ verdict.confidence ∧ verdict.confidence ≤ 0.95 ∧
      (0.5 < verdict.confidence ↔ 0 < features.fillerWords)
  redundant : verdict.category = .redundant →
    0.6 ≤ verdict.confidence ∧ verdict.confidence ≤ 0.95

theorem confident_eq_some_iff {condition : Bool} {confidence given : Rat} :
    confident condition given = some confidence ↔ condition = true ∧ confidence = given := by
  rw [confident]
  split
  · next h => simp [h, eq_comm]
  · next h => simp [h]

theorem framingConfidence_bounds (features : Features Rat) :
    0.5 ≤ framingConfidence features ∧ framingConfidence features ≤ 0.95 ∧
      (0.5 < framingConfidence features ↔ 0 < features.fillerWords) := by
  have hratio := ratio_nonneg features.fillerWords (max features.words.length 1)
  have hpos : 0 < (Score.ratio features.fillerWords (max features.words.length 1) : Rat) ↔
      0 < features.fillerWords := ratio_pos_iff (by omega)
  have hleast : framingConfidence features =
      min (0.5 + 0.5 * Score.ratio features.fillerWords (max features.words.length 1)) 0.95 :=
    least_eq_min _ _
  rw [hleast, ← hpos, lt_min_iff]
  refine ⟨le_min ?_ (by norm_num), min_le_right _ _, ?_⟩
  · linarith
  · constructor
    · rintro ⟨hlt, -⟩
      linarith
    · intro hlt
      exact ⟨by linarith, by norm_num⟩

/-- Every category but informative belongs to one rule, so it tells the confidence. -/
theorem confidence_of_mem_firing {rule : Rule Rat} {confidence : Rat}
    (h : (rule, confidence) ∈ firing settings features) :
    (rule.category = .placeholder → confidence = 0.95) ∧
      (rule.category = .filler →
        features.fillerHits ≠ [] ∧ confidence = framingConfidence features) ∧
      (rule.category = .redundant →
        confidence = Score.clamp features.restatement 0.6 0.95) := by
  obtain ⟨hrule, hfires⟩ := mem_of_mem_firing h
  simp only [rules, List.mem_cons, List.not_mem_nil, or_false] at hrule
  rcases hrule with rfl | rfl | rfl | rfl | rfl | rfl
  · have hconfidence := (confident_eq_some_iff.1 hfires).2
    simp [hconfidence]
  · obtain ⟨hcondition, hconfidence⟩ := confident_eq_some_iff.1 hfires
    obtain ⟨hhits, -⟩ := Bool.and_eq_true_iff.1 hcondition
    simpa [hconfidence] using hhits
  · have hconfidence := (confident_eq_some_iff.1 hfires).2
    simp [hconfidence]
  all_goals simp

theorem verdictOf_cases (settings : ClassifierSettings Rat) (features : Features Rat) :
    (∃ rule confidence, (rule, confidence) ∈ firing settings features ∧
      (verdictOf settings features).category = rule.category ∧
      (verdictOf settings features).confidence = Score.clamp confidence 0 1) ∨
    (verdictOf settings features).category = .informative ∧
      (verdictOf settings features).confidence = Score.clamp 0.4 0 1 := by
  rw [verdictOf]
  cases hfiring : firing settings features with
  | nil => exact .inr ⟨rfl, rfl⟩
  | cons first rest => exact .inl ⟨first.1, first.2, List.mem_cons_self, rfl, rfl⟩

theorem exists_firing {category : Category}
    (h : (verdictOf settings features).category = category) (hne : category ≠ .informative) :
    ∃ rule confidence, (rule, confidence) ∈ firing settings features ∧ rule.category = category ∧
      (verdictOf settings features).confidence = Score.clamp confidence 0 1 := by
  rcases verdictOf_cases settings features with
    ⟨rule, confidence, hmem, heq, hconfidence⟩ | ⟨heq, -⟩
  · exact ⟨rule, confidence, hmem, heq.symm.trans h, hconfidence⟩
  · exact absurd (h.symm.trans heq) hne

/-- The clamping to the range from 0 to 1 changes no confidence that a rule gives. -/
theorem measured_verdictOf : Measured features (verdictOf settings features) := by
  have hunit : 0 ≤ (verdictOf settings features).confidence ∧
      (verdictOf settings features).confidence ≤ 1 := by
    rcases verdictOf_cases settings features with
      ⟨rule, confidence, -, -, heq⟩ | ⟨-, heq⟩
    · rw [heq]
      exact clamp_bounds confidence zero_le_one
    · rw [heq]
      exact clamp_bounds _ zero_le_one
  refine ⟨hunit.1, hunit.2, fun h => ?_, fun h => ?_, fun h => ?_⟩
  · obtain ⟨rule, confidence, hmem, hcategory, heq⟩ := exists_firing h nofun
    rw [heq, (confidence_of_mem_firing hmem).1 hcategory]
    exact clamp_of_bounds (by norm_num) (by norm_num)
  · obtain ⟨rule, confidence, hmem, hcategory, heq⟩ := exists_firing h nofun
    obtain ⟨-, rfl⟩ := (confidence_of_mem_firing hmem).2.1 hcategory
    have hbounds := framingConfidence_bounds features
    rwa [heq, clamp_of_bounds (by linarith) (by linarith)]
  · obtain ⟨rule, confidence, hmem, hcategory, heq⟩ := exists_firing h nofun
    have hbounds := clamp_bounds features.restatement (show (0.6 : Rat) ≤ 0.95 by norm_num)
    rw [heq, (confidence_of_mem_firing hmem).2.2 hcategory]
    rwa [clamp_of_bounds (by linarith) (by linarith)]

/-! ### The words that narrative phrases cover -/

theorem fillerHits_of_filler (h : (verdictOf settings features).category = .filler) :
    features.fillerHits ≠ [] := by
  obtain ⟨rule, confidence, hmem, hcategory, -⟩ := exists_firing h nofun
  exact ((confidence_of_mem_firing hmem).2.1 hcategory).1

theorem ne_empty_of_mem_words {text word : String} (h : word ∈ Prose.words text) : word ≠ "" := by
  obtain ⟨chars, hchars, rfl⟩ := List.mem_map.1 h
  intro hempty
  exact Prose.ne_nil_of_mem_wordChars hchars (String.ofList_eq_empty_iff.1 hempty)

/-- A match among words without spaces covers at least one of them. -/
theorem fillerWords_pos {judge : Judge Rat} {texts : List String} {body code : String}
    (hfillers : judge.fillers = .ofTexts texts)
    (hspace : ∀ word ∈ Prose.words body, ' ' ∉ word.toList)
    (hhits : (judge.featuresOf body code).fillerHits ≠ []) :
    0 < (judge.featuresOf body code).fillerWords := by
  have hwords : Phrase.Separable (Prose.words body) := fun word hword =>
    ⟨ne_empty_of_mem_words hword, hspace word hword⟩
  rw [fillerHits_featuresOf, hfillers] at hhits
  rw [fillerWords_featuresOf, hfillers]
  obtain ⟨text, htext⟩ := List.exists_mem_of_ne_nil _ hhits
  obtain ⟨m, hm, rfl⟩ := List.mem_map.1 (List.mem_eraseDups.1 htext)
  obtain ⟨phrase, -, i, -, rfl⟩ := (Phrase.mem_matchesBy_iff Text.occurrences_complete
    (Phrase.nodup_ofTexts texts) (Phrase.empty_notMem_ofTexts texts) hwords).1 hm
  have hcovered : i ∈ List.range' i (Phrase.wordsOf phrase).length := by
    have hlength := List.length_pos_iff.2 (Phrase.wordsOf_ne_nil phrase)
    exact List.mem_range'_1.2 ⟨Nat.le_refl _, by omega⟩
  exact List.length_pos_of_mem (List.mem_eraseDups.2 (List.mem_flatMap.2 ⟨_, hm, hcovered⟩))

/-! ### Judging -/

theorem classify_eq (judge : Judge Rat) (comment : Comment) : judge.classify comment =
    if comment.stop ≤ comment.start then .error (.invalidSpan comment.place)
    else if (Prose.body comment.raw).toList.all Unicode.isBlank then
      .error (.emptyComment comment.fileId comment.start)
    else .ok (verdictOf judge.settings
      (judge.featuresOf (Prose.body comment.raw) comment.code)) := by
  rw [Judge.classify, Judge.features, Comment.check]
  by_cases hspan : comment.stop ≤ comment.start
  · rw [if_pos hspan, if_pos hspan]
    rfl
  · rw [if_neg hspan, if_neg hspan]
    cases hblank : (Prose.body comment.raw).toList.all Unicode.isBlank with
    | true => simp only [bind, Except.bind, hblank, if_true]
    | false => simp only [bind, Except.bind, hblank, Bool.false_eq_true, if_false]

/-- A comment with bytes and text is judged. -/
theorem exists_measured {judge : Judge Rat} {texts : List String} {comment : Comment}
    (hfillers : judge.fillers = .ofTexts texts) (hspan : comment.start < comment.stop)
    (htext : (Prose.body comment.raw).toList.all Unicode.isBlank = false) :
    ∃ features verdict, judge.features comment = .ok features ∧
      judge.classify comment = .ok verdict ∧ DecidedBy judge.settings features verdict ∧
      Measured features verdict ∧
      ((∀ word ∈ features.words, ' ' ∉ word.toList) → verdict.category = .filler →
        0.5 < verdict.confidence) := by
  have hcheck : comment.check = .ok () := if_neg (Nat.not_le.2 hspan)
  have hfeatures : judge.features comment =
      .ok (judge.featuresOf (Prose.body comment.raw) comment.code) :=
    features_eq_ok_iff.2 ⟨hcheck, htext, rfl⟩
  have hclassify : judge.classify comment =
      .ok (verdictOf judge.settings (judge.featuresOf (Prose.body comment.raw) comment.code)) :=
    classify_eq_ok_iff.2 ⟨hcheck, htext, rfl⟩
  refine ⟨_, _, hfeatures, hclassify, decidedBy_verdictOf, measured_verdictOf, ?_⟩
  intro hspace hfiller
  rw [words_featuresOf] at hspace
  obtain ⟨-, -, hiff⟩ := measured_verdictOf.filler hfiller
  exact hiff.2 (fillerWords_pos hfillers hspace (fillerHits_of_filler hfiller))

/-- A comment without bytes or without text is refused. Any other one gets a verdict, which the
first rule that fires decides, with the confidence that its category allows. A filler has one above
one half exactly if narrative phrases cover a word of it, as they do unless a word holds a space. -/
theorem classify_by_first_rule (settings : ClassifierSettings Rat) (comment : Comment) :
    ((Judge.ofSettings settings).classify comment = .error (.invalidSpan comment.place) ↔
      comment.stop ≤ comment.start) ∧
    ((Judge.ofSettings settings).classify comment =
        .error (.emptyComment comment.fileId comment.start) ↔
      comment.start < comment.stop ∧
        (Prose.body comment.raw).toList.all Unicode.isBlank = true) ∧
    (comment.start < comment.stop → (Prose.body comment.raw).toList.all Unicode.isBlank = false →
      ∃ features verdict, (Judge.ofSettings settings).features comment = .ok features ∧
        (Judge.ofSettings settings).classify comment = .ok verdict ∧
        DecidedBy settings features verdict ∧ Measured features verdict ∧
        ((∀ word ∈ features.words, ' ' ∉ word.toList) → verdict.category = .filler →
          0.5 < verdict.confidence)) := by
  have hclassify := classify_eq (Judge.ofSettings settings) comment
  have hfillers : (Judge.ofSettings settings).fillers =
      .ofTexts (fillerPhrases ++ settings.fillers) := by rw [Judge.ofSettings]
  refine ⟨?_, ?_, exists_measured hfillers⟩
  · rw [hclassify]
    constructor
    · intro h
      split at h
      · assumption
      · split at h <;> cases h
    · exact fun h => if_pos h
  · rw [hclassify]
    constructor
    · intro h
      split at h
      · cases h
      · next hspan =>
        split at h
        · next hblank => exact ⟨Nat.lt_of_not_le hspan, hblank⟩
        · cases h
    · rintro ⟨hspan, hblank⟩
      rw [if_neg (Nat.not_le.2 hspan), if_pos hblank]

/-! ### A phrase inside of a word -/

/-- Settings with a narrative phrase that is a combining letter. -/
def combiningSettings : ClassifierSettings Rat := { ClassifierSettings.default with
  fillers := ["\u0345"] }

/-- A judge for these settings, with the table of narrative phrases written out. -/
def combiningJudge : Judge Rat := { Judge.ofSettings combiningSettings with
  fillers := ⟨fillerPhrases ++ ["\u0345"]⟩ }

theorem ofSettings_combiningSettings : Judge.ofSettings combiningSettings = combiningJudge := by
  have hfillers : Phrase.Table.ofTexts (fillerPhrases ++ combiningSettings.fillers) =
      ⟨fillerPhrases ++ ["\u0345"]⟩ := by decide +kernel
  rw [combiningJudge, ← hfillers, Judge.ofSettings]

/-- A comment in the first bytes of a file without code. -/
def remark (raw : String) : Comment := ⟨"a.js", 0, raw.utf8ByteSize, 1, .line, raw, "", 0, "", 0⟩

theorem filler_of_here_we : (remark "// here we go").start < (remark "// here we go").stop ∧
    (Prose.body (remark "// here we go").raw).toList.all Unicode.isBlank = false ∧
    ∃ features verdict, (Judge.ofSettings combiningSettings).features (remark "// here we go") =
        .ok features ∧
      (Judge.ofSettings combiningSettings).classify (remark "// here we go") = .ok verdict ∧
      (∀ word ∈ features.words, ' ' ∉ word.toList) ∧ verdict.category = .filler ∧
      0.5 < verdict.confidence ∧ verdict.confidence ≤ 0.95 := by
  have hspan : (remark "// here we go").start < (remark "// here we go").stop := by decide
  have htext : (Prose.body (remark "// here we go").raw).toList.all Unicode.isBlank = false := by
    decide +kernel
  have hspace : ∀ word ∈ Prose.words (Prose.body (remark "// here we go").raw),
      ' ' ∉ word.toList := by decide +kernel
  have hcategory : (verdictOf combiningSettings (combiningJudge.featuresOf
      (Prose.body (remark "// here we go").raw) (remark "// here we go").code)).category =
        .filler := by decide +kernel
  obtain ⟨-, -, hjudged⟩ := classify_by_first_rule combiningSettings (remark "// here we go")
  obtain ⟨features, verdict, hfeatures, hclassify, -, hmeasured, hspaceless⟩ := hjudged hspan htext
  have hwords : ∀ word ∈ features.words, ' ' ∉ word.toList := by
    obtain ⟨-, -, hfeatures⟩ := features_eq_ok_iff.1 hfeatures
    rwa [← hfeatures, words_featuresOf]
  have hfiller : verdict.category = .filler := by
    rw [ofSettings_combiningSettings] at hclassify
    obtain ⟨-, -, hverdict⟩ := classify_eq_ok_iff.1 hclassify
    rwa [← hverdict]
  exact ⟨hspan, htext, features, verdict, hfeatures, hclassify, hwords, hfiller,
    hspaceless hwords hfiller, (hmeasured.filler hfiller).2.1⟩

/-- The second word of the comment is a space with the combining letter on it. The phrase stands
after that space, as if it were a word, and covers none. -/
theorem filler_of_combining_letter :
    (remark "// a \u0345").start < (remark "// a \u0345").stop ∧
    (Prose.body (remark "// a \u0345").raw).toList.all Unicode.isBlank = false ∧
    ∃ verdict, (Judge.ofSettings combiningSettings).classify (remark "// a \u0345") = .ok verdict ∧
      verdict.category = .filler ∧ ¬0.5 < verdict.confidence := by
  have hspan : (remark "// a \u0345").start < (remark "// a \u0345").stop := by decide
  have htext : (Prose.body (remark "// a \u0345").raw).toList.all Unicode.isBlank = false := by
    decide +kernel
  have hcheck : (remark "// a \u0345").check = .ok () := if_neg (Nat.not_le.2 hspan)
  have hverdict : verdictOf combiningSettings (combiningJudge.featuresOf
      (Prose.body (remark "// a \u0345").raw) (remark "// a \u0345").code) =
        ⟨.filler, 0.5, ["narrative_framing"], []⟩ := by decide +kernel
  refine ⟨hspan, htext, ⟨.filler, 0.5, ["narrative_framing"], []⟩, ?_, rfl, lt_irrefl _⟩
  rw [ofSettings_combiningSettings]
  exact classify_eq_ok_iff.2 ⟨hcheck, htext, hverdict⟩

end Marginalia.Judging
