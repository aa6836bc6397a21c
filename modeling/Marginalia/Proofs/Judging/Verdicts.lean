import Marginalia.Judging.Rules
import Marginalia.Proofs.Sequence

/-! Verdicts read code through its tokens only, and placeholders are what the first rule fires
on. -/

namespace Marginalia.Judging

variable {α : Type} [Score α] {judge : Judge α} {settings : ClassifierSettings α}
  {features : Features α}

theorem featuresOf_congr {body code code' : String} (h : Code.tokens code = Code.tokens code') :
    judge.featuresOf body code = judge.featuresOf body code' := by
  have hwords : Code.wordsOf code = Code.wordsOf code' := by rw [Code.wordsOf, Code.wordsOf, h]
  rw [Judge.featuresOf, Judge.featuresOf, Code.parts, Code.parts, Code.vocabulary, Code.vocabulary,
    hwords]

theorem mem_of_mem_firing {rule : Rule α} {confidence : α}
    (h : (rule, confidence) ∈ firing settings features) :
    rule ∈ rules ∧ rule.fires features settings = some confidence := by
  obtain ⟨other, hother, hfires⟩ := List.mem_filterMap.1 h
  obtain ⟨c, hc, heq⟩ := Option.map_eq_some_iff.1 hfires
  obtain ⟨rfl, rfl⟩ := Prod.mk.inj heq
  exact ⟨hother, hc⟩

theorem category_eq_placeholder_iff :
    (verdictOf settings features).category = .placeholder ↔ features.placeholder = true := by
  constructor
  · intro h
    rw [verdictOf] at h
    split at h
    · cases h
    · next rule confidence rest hfiring =>
      obtain ⟨hrule, hfires⟩ := mem_of_mem_firing (hfiring ▸ List.mem_cons_self)
      have hrule : rule.category = .placeholder → rule.fires features settings =
          confident features.placeholder 0.95 := by
        simp only [rules, List.mem_cons, List.not_mem_nil, or_false] at hrule
        rcases hrule with rfl | rfl | rfl | rfl | rfl | rfl
        · exact fun _ => rfl
        all_goals exact nofun
      rw [hrule h, confident] at hfires
      split at hfires
      · assumption
      · cases hfires
  · intro h
    simp [verdictOf, firing, rules, confident, h]

/-- Markers that stand alone are placeholders, and so are comments without words. -/
theorem placeholder_featuresOf (judge : Judge α) (body code : String) :
    (judge.featuresOf body code).placeholder = ((Prose.words body).isEmpty ||
      judge.markers.contains (String.intercalate " " (Prose.words body))) := rfl

/-- A comment with bytes and text has features. -/
theorem features_eq_ok_iff {comment : Comment} :
    judge.features comment = .ok features ↔ comment.check = .ok () ∧
      (Prose.body comment.raw).toList.all Unicode.isBlank = false ∧
      judge.featuresOf (Prose.body comment.raw) comment.code = features := by
  rw [Judge.features]
  cases comment.check with
  | error fault => exact ⟨nofun, nofun⟩
  | ok =>
    cases hblank : (Prose.body comment.raw).toList.all Unicode.isBlank with
    | true =>
      simp only [bind, Except.bind, hblank]
      exact ⟨nofun, nofun⟩
    | false =>
      simp only [bind, Except.bind, hblank]
      exact ⟨fun h => ⟨trivial, trivial, Except.ok.inj h⟩, fun h => congrArg Except.ok h.2.2⟩

/-- A comment with bytes and text is judged by its features. -/
theorem classify_eq_ok_iff {comment : Comment} {verdict : Verdict α} :
    judge.classify comment = .ok verdict ↔ comment.check = .ok () ∧
      (Prose.body comment.raw).toList.all Unicode.isBlank = false ∧
      verdictOf judge.settings (judge.featuresOf (Prose.body comment.raw) comment.code) =
        verdict := by
  rw [Judge.classify, bind_eq_ok_iff]
  constructor
  · rintro ⟨features, hfeatures, hverdict⟩
    obtain ⟨hcheck, htext, rfl⟩ := features_eq_ok_iff.1 hfeatures
    exact ⟨hcheck, htext, Except.ok.inj hverdict⟩
  · rintro ⟨hcheck, htext, hverdict⟩
    exact ⟨_, features_eq_ok_iff.2 ⟨hcheck, htext, rfl⟩, congrArg Except.ok hverdict⟩

theorem typos_featuresOf (judge : Judge α) (body code : String) :
    (judge.featuresOf body code).typos =
      typosIn judge.dictionary (Code.vocabulary code) (Prose.words body) := rfl

theorem typos_verdictOf : (verdictOf settings features).typos = features.typos := by
  rw [verdictOf]
  split <;> rfl

theorem exists_verdict (judge : Judge α) (comment : Comment) (hcheck : comment.check = .ok ())
    (htext : (Prose.body comment.raw).toList.all Unicode.isBlank = false) :
    ∃ verdict, judge.classify comment = .ok verdict ∧
      verdict.typos = typosIn judge.dictionary (Code.vocabulary comment.code)
        (Prose.words (Prose.body comment.raw)) := by
  refine ⟨verdictOf judge.settings (judge.featuresOf (Prose.body comment.raw) comment.code),
    classify_eq_ok_iff.2 ⟨hcheck, htext, rfl⟩, ?_⟩
  rw [typos_verdictOf, typos_featuresOf]

end Marginalia.Judging
