import Marginalia.Proofs.Judging.Verdicts
import Marginalia.Proofs.Patch.Respelling
import Marginalia.Proofs.Spelling.Correction
import Marginalia.Proofs.Spelling.WordList

/-! The words of a comment after its misspelled words are replaced. -/

namespace Marginalia.Judging

open Marginalia.Code (lowered)
open Marginalia.Patch Marginalia.Prose Marginalia.Spelling Marginalia.Unicode

variable {typos : List Typo}

/-! ### Words in lower case -/

/-- How many letters a text holds. -/
def letterCount (text : List Char) : Nat := text.countP fun c => decide (Lettered c)

theorem letterCount_append (a b : List Char) :
    letterCount (a ++ b) = letterCount a + letterCount b := List.countP_append

theorem letterCount_eq_length {text : List Char} (h : LettersOnly text) :
    letterCount text = text.length :=
  List.countP_eq_length.2 fun c hc => decide_eq_true (h.letters c hc)

/-- Each letter is still a letter in lower case. -/
theorem letterCount_le (text before : List Char) :
    letterCount text ≤ (lowerAfter before text).countP isLetter := by
  induction text generalizing before with
  | nil => exact Nat.le_refl 0
  | cons c rest ih =>
    have hrest := ih (c :: before)
    rw [lowerAfter, List.countP_append, letterCount, List.countP_cons, ← letterCount]
    split
    · next hc =>
      have hlettered : Lettered c := of_decide_eq_true hc
      have hone : 0 < (if c == '\u03a3' then
          (if meetsCased before && !meetsCased rest then ['\u03c2'] else ['\u03c3'])
          else lowerChar c).countP isLetter := by
        rw [List.countP_pos_iff]
        split
        · split
          · exact ⟨'\u03c2', List.mem_singleton.2 rfl, by decide⟩
          · exact ⟨'\u03c3', List.mem_singleton.2 rfl, by decide⟩
        · obtain ⟨d, more, hd⟩ := List.exists_cons_of_ne_nil (lowerChar_ne_nil c)
          exact ⟨d, by simp [hd], List.all_eq_true.1 hlettered.lower d (by simp [hd])⟩
      omega
    · omega

theorem straight_of_isLetter {c : Char} (h : isLetter c = true) : straight c = c := by
  refine if_neg fun heq => ?_
  rw [beq_iff_eq] at heq
  subst heq
  exact absurd h (by decide +kernel)

/-- A word of two or more letters does not vanish with its ending. -/
theorem normalWord_ne_nil {word : List Char} (h : 2 ≤ letterCount word) : normalWord word ≠ [] := by
  have hletters : 2 ≤ ((lower word).map straight).countP isLetter := by
    rw [List.countP_map]
    refine Nat.le_trans (Nat.le_trans h (letterCount_le word [])) ?_
    exact List.countP_mono_left fun c _ hc => by rwa [Function.comp, straight_of_isLetter hc]
  have hkept (text : List Char) (hnil : text.filter (· != '\'') = []) :
      text.countP isLetter = 0 := by
    rw [List.countP_eq_zero]
    intro c hc hletter
    have hquote := List.filter_eq_nil_iff.1 hnil c hc
    rw [Bool.not_eq_true, bne_eq_false_iff_eq] at hquote
    subst hquote
    exact absurd hletter (by decide)
  intro hnil
  unfold normalWord at hnil
  extract_lets lowered at hnil
  have hlowered : (lower word).map straight = lowered := rfl
  rw [hlowered] at hletters
  split at hnil
  · next stem hstem =>
    have hending : ['\'', 's'].countP isLetter = 1 := by decide
    have hsplit := dropSuffix?_eq_some_iff.1 hstem
    rw [hsplit, List.countP_append, hending] at hletters
    split at hnil
    · rw [hsplit] at hnil
      simp at hnil
    · have := hkept stem hnil
      omega
  · have := hkept _ hnil
    omega

/-! ### Groups of pieces -/

theorem two_le_letterCount {group : List Piece} {f : Piece → List Char} {p : Piece}
    (hp : p ∈ group) (h : LettersOnly (f p)) : 2 ≤ letterCount (group.flatMap f) := by
  obtain ⟨front, back, rfl⟩ := List.append_of_mem hp
  rw [List.flatMap_append, List.flatMap_cons, letterCount_append, letterCount_append,
    letterCount_eq_length h]
  have := h.two_le
  omega

/-- A group of pieces stays as it is, or holds two or more letters before and after. -/
theorem olds_eq_news_or {group : List Piece} (h : ∀ p ∈ group, p.Sound) :
    olds group = news group ∨ 2 ≤ letterCount (olds group) ∧ 2 ≤ letterCount (news group) := by
  by_cases hsame : ∀ p ∈ group, p.old = p.new
  · exact .inl (List.flatMap_congr hsame)
  · simp only [not_forall] at hsame
    obtain ⟨p, hp, hne⟩ := hsame
    cases p with
    | mark c => exact absurd rfl hne
    | run letters replacement =>
      obtain ⟨hletters, hreplacement⟩ := h _ hp
      exact .inr ⟨two_le_letterCount hp hletters, two_le_letterCount hp hreplacement⟩

theorem any_of_two_le {text : List Char} (h : 2 ≤ letterCount text) :
    text.any isLetterOrNumeral = true := by
  obtain ⟨c, hc, hlettered⟩ := List.countP_pos_iff.1 (Nat.lt_of_lt_of_le Nat.two_pos h)
  refine List.any_eq_true.2 ⟨c, hc, ?_⟩
  exact Bool.or_eq_true_iff.2 (.inl (of_decide_eq_true hlettered).alphabetic)

/-- A group of pieces that makes a word. -/
def IsWord (group : List Piece) : Prop := (olds group).any isLetterOrNumeral = true

/-- The word of a group becomes what is reported of it: its correction, or what it was. -/
def Agrees (typos : List Typo) (group : List Piece) : Prop :=
  String.ofList (normalWord (news group)) =
    corrected typos (String.ofList (normalWord (olds group)))

/-- A group without misspelled runs becomes what is reported of it when nothing is. -/
theorem agrees_iff_of_olds_eq_news {group : List Piece} (h : olds group = news group) :
    Agrees typos group ↔ corrected typos (String.ofList (normalWord (olds group))) =
      String.ofList (normalWord (olds group)) := by
  rw [Agrees, ← h, eq_comm]

/-- A misspelled run that is a word by itself becomes its correction. -/
theorem agrees_of_run (h : ∀ typo ∈ typos, Respellable typo) {letters replacement : List Char}
    (hrun : piecesOfRun typos letters = [.run letters replacement]) :
    Agrees typos [.run letters replacement] := by
  obtain ⟨typo, hfind, hfound, rfl⟩ := exists_typo_of_piecesOfRun hrun
  have htypo := h typo (List.mem_of_find?_eq_some hfind)
  have hplain : Plain (lower letters) := hfound ▸ htypo.plain
  have hreplacement : normalWord (matchCase letters typo.suggestion.toList) =
      typo.suggestion.toList := (htypo.steady _ (matchCase_mem letters _)).2
  have holds (r : List Char) : olds [.run letters r] = letters := List.append_nil letters
  have hnews (r : List Char) : news [.run letters r] = r := List.append_nil r
  rw [Agrees, holds, hnews, hreplacement, normalWord_of_plain_lower hplain, corrected, hfind,
    String.ofList_toList]

/-! ### The words of a text -/

theorem wordChars_eq {text : List Char} {groups : List (List Piece)} {f : List Piece → List Char}
    (h : segments text = groups.map f) :
    wordChars text = (groups.filter fun g =>
      (f g).any isLetterOrNumeral && !(normalWord (f g)).isEmpty).map fun g => normalWord (f g) := by
  rw [wordChars, rawWords, h, List.filter_map, List.filter_map, List.filter_map, List.map_map,
    List.filter_filter]
  refine congrArg (List.map _) (List.filter_congr fun g _ => ?_)
  exact Bool.and_comm ..

/-- Words that stand at the same places: they are the corrected ones when each of them is. -/
theorem words_eq_corrected_iff (hfound : ∀ typo ∈ typos, typo.found ≠ "") {text fixed : String}
    {groups : List (List Piece)} (hsound : ∀ g ∈ groups, ∀ p ∈ g, p.Sound)
    (hold : segments text.toList = groups.map olds)
    (hnew : segments fixed.toList = groups.map news) :
    words fixed = (words text).map (corrected typos) ↔
      ∀ g ∈ groups, IsWord g → Agrees typos g := by
  have hkept : groups.filter (fun g =>
      (news g).any isLetterOrNumeral && !(normalWord (news g)).isEmpty) = groups.filter fun g =>
      (olds g).any isLetterOrNumeral && !(normalWord (olds g)).isEmpty := by
    refine List.filter_congr fun g hg => ?_
    rcases olds_eq_news_or (hsound g hg) with hsame | ⟨holds, hnews⟩
    · rw [hsame]
    · rw [any_of_two_le holds, any_of_two_le hnews,
        List.isEmpty_eq_false_iff.2 (normalWord_ne_nil holds),
        List.isEmpty_eq_false_iff.2 (normalWord_ne_nil hnews)]
  rw [words, words, wordChars_eq hold, wordChars_eq hnew, hkept, List.map_map, List.map_map,
    List.map_map, List.map_inj_left]
  constructor
  · intro h g hg hword
    -- A word that vanishes is not among the words of either text, and nothing is reported of it.
    by_cases hempty : normalWord (olds g) = []
    · have hsame : olds g = news g := by
        rcases olds_eq_news_or (hsound g hg) with hsame | ⟨holds, -⟩
        · exact hsame
        · exact absurd hempty (normalWord_ne_nil holds)
      have hnone : typos.find? (·.found == String.ofList []) = none :=
        List.find?_eq_none.2 fun typo htypo => by simpa using hfound typo htypo
      rw [agrees_iff_of_olds_eq_news hsame, hempty, corrected, hnone]
    · exact h g (List.mem_filter.2 ⟨hg, by rw [hword, List.isEmpty_eq_false_iff.2 hempty]; rfl⟩)
  · intro h g hg
    obtain ⟨hg, hkeeps⟩ := List.mem_filter.1 hg
    exact h g hg (Bool.and_eq_true_iff.1 hkeeps).1

/-! ### Reported misspellings -/

theorem mem_typosIn {dictionary : Dictionary} {names words : List String} {typo : Typo}
    (h : typo ∈ typosIn dictionary names words) :
    isSpellable names typo.found = true ∧
      dictionary.correction typo.found = some typo.suggestion := by
  obtain ⟨word, hword, hcorrection⟩ := List.mem_filterMap.1 h
  obtain ⟨suggestion, hsuggestion, rfl⟩ := Option.map_eq_some_iff.1 hcorrection
  exact ⟨(List.mem_filter.1 hword).2, hsuggestion⟩

/-- The listed corrections are steady words, so that only configured ones can fail to be. -/
theorem steady_of_correction {more : List String} {word s : String}
    (h : (Dictionary.builtin.extend more).correction word = some s)
    (hmore : s ∈ more.map lowered → Steady s) : Steady s := by
  cases hknown : knownMisspellings.lookup (lowered word) with
  | some known =>
    have hall : ∀ p ∈ knownMisspellings,
        2 ≤ p.2.length ∧ p.2.toList.all Char.isLower = true := by decide +kernel
    rw [Dictionary.correction_of_lookup_eq_some hknown] at h
    obtain rfl := Option.some.inj h
    obtain ⟨htwo, hsmall⟩ := hall _ (mem_of_lookup_eq_some hknown)
    exact steady_of_isLower htwo (List.all_eq_true.1 hsmall)
  | none =>
    have hlists := Dictionary.lists_builtin_extend more
    have hcorrects := (hlists.correction_eq_some_iff hknown).1 h
    obtain ⟨rank, hrank, hone, -⟩ := hcorrects.nearest
    have hmem : s ∈ listed (wordList ++ more) := List.mem_of_getElem? hrank
    rw [listed, List.mem_eraseDups, List.map_append, List.mem_append] at hmem
    rcases hmem with hmem | hmem
    · obtain ⟨t, ht, rfl⟩ := List.mem_map.1 hmem
      have hsmall := isLower_of_mem_wordList ht
      rw [lowered_of_mem_wordList ht] at hone ⊢
      have hlong := (length_le_alignmentDistance (lowered word) t).1
      have := hcorrects.length
      exact steady_of_isLower (by omega) hsmall
    · exact hmore hmem

theorem respellable_of_classify {α : Type} [Score α] {settings : ClassifierSettings α}
    {comment : Comment} {verdict : Verdict α}
    (h : (Judge.ofSettings settings).classify comment = .ok verdict)
    (hsteady : ∀ typo ∈ verdict.typos,
      typo.suggestion ∈ settings.words.map lowered → Steady typo.suggestion) :
    ∀ typo ∈ verdict.typos, Respellable typo := by
  intro typo htypo
  obtain ⟨-, -, hverdict⟩ := classify_eq_ok_iff.1 h
  have hdictionary : (Judge.ofSettings settings).dictionary =
      Dictionary.builtin.extend settings.words := rfl
  have hreported := htypo
  rw [← hverdict, typos_verdictOf, typos_featuresOf, hdictionary] at hreported
  obtain ⟨hspellable, hcorrection⟩ := mem_typosIn hreported
  rw [isSpellable, Bool.and_eq_true, Bool.and_eq_true] at hspellable
  exact ⟨List.all_eq_true.1 hspellable.1.2, of_decide_eq_true hspellable.1.1,
    steady_of_correction hcorrection (hsteady typo htypo)⟩

/-- Respelling a comment keeps the boundaries of its words: the segments of its body, written in
pieces, are the segments of the new body once the misspelled runs of letters are replaced. The words
are then the old ones with the reported ones corrected, exactly when each word that is not such a run
by itself agrees with what is reported of it. -/
theorem words_of_respelled_iff {α : Type} [Score α] {settings : ClassifierSettings α}
    {comment : Comment} {verdict : Verdict α}
    (h : (Judge.ofSettings settings).classify comment = .ok verdict)
    (hsteady : ∀ typo ∈ verdict.typos,
      typo.suggestion ∈ settings.words.map lowered → Steady typo.suggestion) :
    ∃ groups : List (List Piece),
      groups.flatten = pieces verdict.typos (body comment.raw).toList ∧
      segments (body comment.raw).toList = groups.map olds ∧
      segments (body (respell verdict.typos comment.raw)).toList = groups.map news ∧
      (words (body (respell verdict.typos comment.raw)) =
          (words (body comment.raw)).map (corrected verdict.typos) ↔
        ∀ g ∈ groups, IsWord g →
          (∃ letters replacement, g = [.run letters replacement]) ∨ Agrees verdict.typos g) := by
  have hrespellable := respellable_of_classify h hsteady
  have hpieces : ∀ p ∈ pieces verdict.typos (body comment.raw).toList, p.Sound :=
    fun p hp => sound_of_mem_pieces hrespellable hp
  obtain ⟨groups, hflatten, hold, hnew⟩ := exists_groups hpieces
  have hmem : ∀ g ∈ groups, ∀ p ∈ g, p ∈ pieces verdict.typos (body comment.raw).toList :=
    fun g hg p hp => hflatten ▸ List.mem_flatten.2 ⟨g, hg, hp⟩
  rw [olds_pieces] at hold
  rw [news_pieces, ← body_respell hrespellable] at hnew
  have hfound : ∀ typo ∈ verdict.typos, typo.found ≠ "" := by
    intro typo htypo hempty
    have := (hrespellable typo htypo).three_le
    rw [hempty] at this
    exact absurd this (by decide)
  refine ⟨groups, hflatten, hold, hnew, ?_⟩
  rw [words_eq_corrected_iff hfound (fun g hg p hp => hpieces p (hmem g hg p hp)) hold hnew]
  refine forall₃_congr fun g hg _ => (or_iff_right_of_imp ?_).symm
  rintro ⟨letters, replacement, rfl⟩
  exact agrees_of_run hrespellable (piecesOfRun_of_mem (hmem _ hg _ List.mem_cons_self))

/-- A comment in the first line of a file, after an assignment. -/
def noteOf (raw : String) : Comment where
  fileId := "a.js"
  start := 7
  stop := 7 + raw.utf8ByteSize
  line := 1
  style := .line
  raw := raw
  code := "x = 1;"
  anchor := 0
  block := ""
  blockStart := 0

/-- A judge without words of a project. -/
def usualSettings : ClassifierSettings Rat := .default

theorem words_of_respelled_teh :
    ∃ verdict, (Judge.ofSettings usualSettings).classify (noteOf "// teh value") = .ok verdict ∧
      verdict.typos = [⟨"teh", "the"⟩] ∧
      (∀ typo ∈ verdict.typos,
        typo.suggestion ∈ usualSettings.words.map lowered → Steady typo.suggestion) ∧
      ∃ groups : List (List Piece),
        groups.flatten = pieces verdict.typos (body (noteOf "// teh value").raw).toList ∧
        segments (body (noteOf "// teh value").raw).toList = groups.map olds ∧
        segments (body (respell verdict.typos (noteOf "// teh value").raw)).toList =
          groups.map news ∧
        (words (body (respell verdict.typos (noteOf "// teh value").raw)) =
            (words (body (noteOf "// teh value").raw)).map (corrected verdict.typos) ↔
          ∀ g ∈ groups, IsWord g →
            (∃ letters replacement, g = [.run letters replacement]) ∨
              Agrees verdict.typos g) := by
  obtain ⟨verdict, hclassify, htypos⟩ :=
    exists_verdict (Judge.ofSettings usualSettings) (noteOf "// teh value") rfl (by decide +kernel)
  have hsteady : ∀ typo ∈ verdict.typos,
      typo.suggestion ∈ usualSettings.words.map lowered → Steady typo.suggestion :=
    fun typo _ h => nomatch h
  exact ⟨verdict, hclassify, htypos.trans (by decide +kernel), hsteady,
    words_of_respelled_iff hclassify hsteady⟩

/-- The letters in the middle of "foo_teh" are replaced, though that word is not reported. -/
theorem word_changed_beside_teh :
    ∃ verdict,
      (Judge.ofSettings usualSettings).classify (noteOf "// teh foo_teh value") = .ok verdict ∧
      verdict.typos = [⟨"teh", "the"⟩] ∧
      words (body (noteOf "// teh foo_teh value").raw) = ["teh", "foo_teh", "value"] ∧
      words (body (respell verdict.typos (noteOf "// teh foo_teh value").raw)) =
        ["the", "foo_the", "value"] ∧
      words (body (respell verdict.typos (noteOf "// teh foo_teh value").raw)) ≠
        (words (body (noteOf "// teh foo_teh value").raw)).map (corrected verdict.typos) := by
  obtain ⟨verdict, hclassify, htypos⟩ :=
    exists_verdict (Judge.ofSettings usualSettings) (noteOf "// teh foo_teh value") rfl
      (by decide +kernel)
  have htypos : verdict.typos = [⟨"teh", "the"⟩] := htypos.trans (by decide +kernel)
  refine ⟨verdict, hclassify, htypos, by decide +kernel, ?_⟩
  rw [htypos]
  decide +kernel

end Marginalia.Judging
