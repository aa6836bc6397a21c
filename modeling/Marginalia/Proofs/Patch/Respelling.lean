import Marginalia.Proofs.Patch.Planning
import Marginalia.Proofs.Prose.Body
import Marginalia.Proofs.Prose.Pieces
import Marginalia.Proofs.Spelling.Inflection

/-! Respelling replaces letters by letters: every other character stays, and a text is respelled run
by run. -/

namespace Marginalia.Patch

open Marginalia.Prose Marginalia.Unicode
open Marginalia.Spelling (Plain toNat_lt_of_isAlpha lowerAfter_of_plain)

variable {typos : List Typo}

theorem mem_respellAfter {c : Char} (hc : isLetter c = false) {text : List Char}
    (h : c ∈ text) (letters : List Char) : c ∈ respellAfter typos letters text := by
  induction text generalizing letters with
  | nil => cases h
  | cons d rest ih =>
    rw [respellAfter]
    by_cases hd : isLetter d = true
    · rw [if_pos hd]
      have hne : c ≠ d := by
        rintro rfl
        rw [hc] at hd
        cases hd
      exact ih ((List.mem_cons.1 h).resolve_left hne) (d :: letters)
    · rw [if_neg hd]
      have hrest : c ∈ d :: respellAfter typos [] rest := by
        rcases List.mem_cons.1 h with rfl | h
        · exact List.mem_cons_self
        · exact List.mem_cons_of_mem d (ih h [])
      split
      · exact hrest
      · exact List.mem_append_right _ hrest

theorem decidedFor_of_rewrite {α : Type} {policy : Policy} {drift : List (Finding α)}
    {fileId : String} {k : Judged α}
    (h : (decidedFor policy drift fileId k).treatment = .rewrite) :
    (decidedFor policy drift fileId k).replacement =
      some (respell k.verdict.typos k.comment.raw) := by
  rw [decidedFor, decide] at h ⊢
  dsimp only at h ⊢
  split at h
  · next hrespelled => rw [if_pos hrespelled]
  · exact absurd h (treatmentOf_ne_rewrite policy _ _)

/-! ### Replacements -/

/-- A word as given, with a first capital and in capitals. -/
def capitalisations : List Char → List (List Char)
  | [] => [[]]
  | c :: rest => [c :: rest, upperChar c ++ rest, upper (c :: rest)]

/-- A word that is one run of letters in any capitals, and itself in lower case. -/
def Steady (word : String) : Prop :=
  ∀ spelling ∈ capitalisations word.toList,
    LettersOnly spelling ∧ normalWord spelling = word.toList

instance (word : String) : Decidable (Steady word) :=
  inferInstanceAs (Decidable (∀ spelling ∈ capitalisations word.toList, _ ∧ _))

theorem matchCase_mem (original replacement : List Char) :
    matchCase original replacement ∈ capitalisations replacement := by
  rw [matchCase.eq_def]
  extract_lets bytes
  cases replacement with
  | nil => cases original <;> simp [capitalisations, upper]
  | cons first rest =>
    split
    · simp [capitalisations]
    · cases original with
      | nil => simp [capitalisations]
      | cons c original =>
        dsimp only
        split <;> simp [capitalisations]

/-! ### Letters in lower case -/

/-- A word that has ASCII letters only for its lower case has no ending to lose. -/
theorem normalWord_of_plain_lower {text : List Char} (h : Plain (lower text)) :
    normalWord text = lower text := by
  have hquote : '\'' ∉ lower text := fun hmem => absurd (h _ hmem) (by decide)
  have hstraight : (lower text).map straight = lower text := by
    conv_rhs => rw [← List.map_id (lower text)]
    refine List.map_congr_left fun c hc => if_neg fun heq => ?_
    rw [beq_iff_eq] at heq
    subst heq
    exact absurd (h _ hc) (by decide)
  have hsuffix : Text.dropSuffix? (lower text) ['\'', 's'] = none := by
    rw [Option.eq_none_iff_forall_ne_some]
    intro stem hstem
    exact hquote (by rw [dropSuffix?_eq_some_iff.1 hstem]; simp)
  have hfilter : (lower text).filter (· != '\'') = lower text :=
    List.filter_eq_self.2 fun c hc => bne_iff_ne.2 fun heq => hquote (heq ▸ hc)
  unfold normalWord
  extract_lets lowered
  have hlowered : lowered = lower text := hstraight
  rw [hlowered, hsuffix]
  exact hfilter

/-- What a small ASCII letter is as a capital. -/
theorem upperChar_of_isLower {c : Char} (h : c.isLower = true) :
    Plain (upperChar c) ∧ (upperChar c).map Char.toLower = [c] ∧ c.toLower = c := by
  obtain ⟨hupper, hlower⟩ := forall_of_lt (P := fun c => c.isLower = true →
    (upperChar c).all Char.isAlpha = true ∧ (upperChar c).map Char.toLower = [c] ∧ c.toLower = c)
    (by decide) (toNat_lt_of_isAlpha (Bool.or_eq_true_iff.2 (.inr h))) h
  exact ⟨List.all_eq_true.1 hupper, hlower⟩

theorem map_toLower_of_isLower {text : List Char} (h : ∀ c ∈ text, c.isLower = true) :
    text.map Char.toLower = text := by
  conv_rhs => rw [← List.map_id text]
  exact List.map_congr_left fun c hc => (upperChar_of_isLower (h c hc)).2.2

theorem plain_of_isLower {text : List Char} (h : ∀ c ∈ text, c.isLower = true) : Plain text :=
  fun c hc => Bool.or_eq_true_iff.2 (.inr (h c hc))

theorem plain_of_mem_capitalisations {word spelling : List Char}
    (h : ∀ c ∈ word, c.isLower = true) (hspelling : spelling ∈ capitalisations word) :
    Plain spelling ∧ spelling.map Char.toLower = word := by
  have hplain : Plain word := plain_of_isLower h
  cases word with
  | nil =>
    obtain rfl := List.mem_singleton.1 hspelling
    exact ⟨hplain, rfl⟩
  | cons c rest =>
    obtain ⟨hc, hrest⟩ := List.forall_mem_cons.1 h
    have hupper := upperChar_of_isLower hc
    simp only [capitalisations, List.mem_cons, List.not_mem_nil, or_false] at hspelling
    rcases hspelling with rfl | rfl | rfl
    · exact ⟨hplain, map_toLower_of_isLower h⟩
    · refine ⟨List.forall_mem_append.2 ⟨hupper.1, (List.forall_mem_cons.1 hplain).2⟩, ?_⟩
      rw [List.map_append, hupper.2.1, map_toLower_of_isLower hrest]
      rfl
    · constructor
      · intro d hd
        obtain ⟨e, he, hd⟩ := List.mem_flatMap.1 hd
        exact (upperChar_of_isLower (h e he)).1 d hd
      · rw [upper, List.map_flatMap]
        conv_rhs => rw [← List.flatMap_singleton' (c :: rest)]
        exact List.flatMap_congr fun d hd => (upperChar_of_isLower (h d hd)).2.1

theorem lower_of_mem_capitalisations {word spelling : List Char}
    (h : ∀ c ∈ word, c.isLower = true) (hspelling : spelling ∈ capitalisations word) :
    lower spelling = word := by
  obtain ⟨hplain, hmap⟩ := plain_of_mem_capitalisations h hspelling
  rw [lower, lowerAfter_of_plain hplain, hmap]

theorem toNat_ofNat_of_isAlpha {n : Nat} (h : (Char.ofNat n).isAlpha = true) :
    (Char.ofNat n).toNat = n := by
  refine (toNat_ofNat_or n).resolve_right fun hzero => ?_
  rw [hzero] at h
  cases h

/-- A character with ASCII letters for its lower case is one itself, or the sign for kelvins. -/
theorem isAlpha_or_eq_kelvin {c : Char} (h : Plain (lowerChar c)) :
    c.toNat < 128 ∧ c.toLower.isAlpha = true ∨ c = '\u212a' := by
  rw [lowerChar] at h
  split at h
  · next hascii => exact .inl ⟨hascii, h _ (List.mem_singleton.2 rfl)⟩
  · next hascii =>
    split at h
    · exact absurd (h '\u0307' (by simp)) (by decide)
    · have halpha := h _ (List.mem_singleton.2 rfl)
      cases hshifted : shifted? c.toNat lowerShifts with
      | none =>
        rw [hshifted] at halpha
        exact absurd (toNat_lt_of_isAlpha halpha) hascii
      | some image =>
        rw [hshifted] at halpha
        have hlt := toNat_lt_of_isAlpha halpha
        have htoNat : (Char.ofNat image).toNat = image := toNat_ofNat_of_isAlpha halpha
        obtain ⟨shift, hmem, ⟨hfirst, hlast, -⟩, heq⟩ := exists_covers hshifted
        -- Of the shifts that begin above the ASCII range only one leads into it.
        have hshifts : ∀ shift ∈ lowerShifts, shift.2.2.2 < 128 →
            shift.2.1 < 128 ∨ shift.1 = 0x212a ∧ shift.2.1 = 0x212a := by decide +kernel
        have himage : shift.2.2.2 < 128 := by
          change (Char.ofNat image).toNat < 128 at hlt
          omega
        rcases hshifts shift hmem himage with hsmall | ⟨hstart, hstop⟩
        · omega
        · have hc : c.toNat = 0x212a := by omega
          exact .inr (by rw [← Char.ofNat_toNat c, hc])

/-- A run of letters with ASCII letters for its lower case has as many letters. -/
theorem lettered_of_plain_lowerAfter {text : List Char} {before : List Char}
    (h : Plain (lowerAfter before text)) :
    (∀ c ∈ text, Lettered c) ∧ (lowerAfter before text).length = text.length := by
  induction text generalizing before with
  | nil => exact ⟨by simp, rfl⟩
  | cons c rest ih =>
    rw [lowerAfter] at h ⊢
    obtain ⟨hc, hrest⟩ := List.forall_mem_append.1 h
    obtain ⟨hletters, hlength⟩ := ih hrest
    split at hc
    · split at hc <;> exact absurd (hc _ List.mem_cons_self) (by decide)
    · next hsigma =>
      have hone : Lettered c ∧ (lowerChar c).length = 1 := by
        rcases isAlpha_or_eq_kelvin hc with ⟨hascii, halpha⟩ | rfl
        · have hlettered := forall_of_lt (P := fun c => c.toLower.isAlpha = true → Lettered c)
            (by decide +kernel) hascii halpha
          exact ⟨hlettered, by rw [lowerChar, if_pos hascii]; rfl⟩
        · decide +kernel
      rw [if_neg hsigma, List.length_append, hone.2, hlength, List.length_cons]
      exact ⟨List.forall_mem_cons.2 ⟨hone.1, hletters⟩, Nat.add_comm ..⟩

/-- Two or more small ASCII letters are a steady word. -/
theorem steady_of_isLower {word : String} (htwo : 2 ≤ word.length)
    (h : ∀ c ∈ word.toList, c.isLower = true) : Steady word := by
  intro spelling hspelling
  have hplain := (plain_of_mem_capitalisations h hspelling).1
  have hlower := lower_of_mem_capitalisations h hspelling
  have hplainLower : Plain (lower spelling) := hplain.lower
  obtain ⟨hletters, hlength⟩ := lettered_of_plain_lowerAfter hplainLower
  refine ⟨⟨?_, hletters⟩, ?_⟩
  · rw [← hlength]
    change 2 ≤ (lower spelling).length
    rwa [hlower, String.length_toList]
  · rw [normalWord_of_plain_lower hplainLower, hlower]

/-! ### Runs -/

/-- The misspellings of a verdict: ASCII letters with steady corrections. -/
structure Respellable (typo : Typo) : Prop where
  plain : Plain typo.found.toList
  three_le : 3 ≤ typo.found.length
  steady : Steady typo.suggestion

/-- A run of letters in pieces: one when it is misspelled, otherwise one for each character. -/
def piecesOfRun (typos : List Typo) (letters : List Char) : List Piece :=
  match typos.find? (·.found == String.ofList (lower letters)) with
  | some typo => [.run letters (matchCase letters typo.suggestion.toList)]
  | none => letters.map .mark

/-- The rest of a text in pieces, given the letters in hand, nearest first. -/
def piecesAfter (typos : List Typo) (letters : List Char) : List Char → List Piece
  | [] => if letters.isEmpty then [] else piecesOfRun typos letters.reverse
  | c :: rest =>
    if isLetter c then piecesAfter typos (c :: letters) rest
    else if letters.isEmpty then .mark c :: piecesAfter typos [] rest
    else piecesOfRun typos letters.reverse ++ .mark c :: piecesAfter typos [] rest

/-- A text in pieces: its misspelled runs of letters, and what is between them. -/
def pieces (typos : List Typo) (text : List Char) : List Piece := piecesAfter typos [] text

theorem olds_map_mark (text : List Char) : olds (text.map .mark) = text := by
  rw [olds, List.flatMap_map]
  exact List.flatMap_singleton' text

theorem news_map_mark (text : List Char) : news (text.map .mark) = text := by
  rw [news, List.flatMap_map]
  exact List.flatMap_singleton' text

theorem olds_piecesOfRun (letters : List Char) : olds (piecesOfRun typos letters) = letters := by
  rw [piecesOfRun]
  cases typos.find? (·.found == String.ofList (lower letters)) with
  | some typo => exact List.append_nil letters
  | none => exact olds_map_mark letters

theorem news_piecesOfRun (letters : List Char) :
    news (piecesOfRun typos letters) = respellWord typos letters := by
  rw [piecesOfRun, respellWord]
  cases typos.find? (·.found == String.ofList (lower letters)) with
  | some typo => exact List.append_nil _
  | none => exact news_map_mark letters

theorem olds_piecesAfter (letters text : List Char) :
    olds (piecesAfter typos letters text) = letters.reverse ++ text := by
  induction text generalizing letters with
  | nil =>
    rw [piecesAfter, List.append_nil]
    split
    · next h => rw [List.isEmpty_iff.1 h]; rfl
    · exact olds_piecesOfRun letters.reverse
  | cons c rest ih =>
    rw [piecesAfter]
    split
    · rw [ih, List.reverse_cons, List.append_assoc]
      rfl
    · split
      · next h =>
        rw [olds_cons, ih, List.isEmpty_iff.1 h]
        rfl
      · rw [olds_append, olds_piecesOfRun, olds_cons, ih]
        rfl

theorem news_piecesAfter (letters text : List Char) :
    news (piecesAfter typos letters text) = respellAfter typos letters text := by
  induction text generalizing letters with
  | nil =>
    rw [piecesAfter, respellAfter]
    split
    · rfl
    · exact news_piecesOfRun letters.reverse
  | cons c rest ih =>
    rw [piecesAfter, respellAfter]
    split
    · exact ih (c :: letters)
    · split
      · rw [news_cons, ih]
        rfl
      · rw [news_append, news_piecesOfRun, news_cons, ih]
        rfl

theorem olds_pieces (text : List Char) : olds (pieces typos text) = text :=
  olds_piecesAfter [] text

theorem news_pieces (text : String) :
    news (pieces typos text.toList) = (respell typos text).toList := by
  rw [respell, String.toList_ofList]
  exact news_piecesAfter [] text.toList

theorem exists_typo_of_piecesOfRun {letters replacement : List Char}
    (hrun : piecesOfRun typos letters = [.run letters replacement]) :
    ∃ typo, typos.find? (·.found == String.ofList (lower letters)) = some typo ∧
      typo.found.toList = lower letters ∧
      matchCase letters typo.suggestion.toList = replacement := by
  rw [piecesOfRun] at hrun
  split at hrun
  · next typo hfind =>
    rw [List.singleton_inj, Piece.run.injEq] at hrun
    have hfound : typo.found = String.ofList (lower letters) := by
      simpa using List.find?_some hfind
    exact ⟨typo, hfind, by rw [hfound, String.toList_ofList], hrun.2⟩
  · cases letters with
    | nil => cases hrun
    | cons c letters => simp at hrun

theorem mem_piecesOfRun {letters : List Char} {p : Piece} (hp : p ∈ piecesOfRun typos letters) :
    (∃ c, p = .mark c) ∨ ∃ l replacement, p = .run l replacement ∧
      piecesOfRun typos l = [.run l replacement] := by
  cases hfind : typos.find? (·.found == String.ofList (lower letters)) with
  | some typo =>
    have hrun : piecesOfRun typos letters =
        [.run letters (matchCase letters typo.suggestion.toList)] := by rw [piecesOfRun, hfind]
    rw [hrun] at hp
    exact .inr ⟨letters, _, List.mem_singleton.1 hp, hrun⟩
  | none =>
    rw [piecesOfRun, hfind] at hp
    obtain ⟨c, -, rfl⟩ := List.mem_map.1 hp
    exact .inl ⟨c, rfl⟩

/-- A piece of a text is a character, or a misspelled run. -/
theorem mem_piecesAfter {letters text : List Char} {p : Piece}
    (hp : p ∈ piecesAfter typos letters text) :
    (∃ c, p = .mark c) ∨ ∃ l replacement, p = .run l replacement ∧
      piecesOfRun typos l = [.run l replacement] := by
  induction text generalizing letters with
  | nil =>
    rw [piecesAfter] at hp
    split at hp
    · cases hp
    · exact mem_piecesOfRun hp
  | cons c rest ih =>
    rw [piecesAfter] at hp
    split at hp
    · exact ih hp
    · split at hp
      · rcases List.mem_cons.1 hp with rfl | hp
        · exact .inl ⟨c, rfl⟩
        · exact ih hp
      · rcases List.mem_append.1 hp with hp | hp
        · exact mem_piecesOfRun hp
        · rcases List.mem_cons.1 hp with rfl | hp
          · exact .inl ⟨c, rfl⟩
          · exact ih hp

theorem piecesOfRun_of_mem {text letters replacement : List Char}
    (h : .run letters replacement ∈ pieces typos text) :
    piecesOfRun typos letters = [.run letters replacement] := by
  obtain ⟨c, hc⟩ | ⟨l, r, hlr, hrun⟩ := mem_piecesAfter h
  · cases hc
  · obtain ⟨rfl, rfl⟩ := Piece.run.inj hlr
    exact hrun

section Respellable

variable (h : ∀ typo ∈ typos, Respellable typo)

include h

theorem lettersOnly_matchCase {typo : Typo} (htypo : typo ∈ typos) (letters : List Char) :
    LettersOnly (matchCase letters typo.suggestion.toList) :=
  ((h typo htypo).steady _ (matchCase_mem letters _)).1

theorem sound_of_piecesOfRun {letters replacement : List Char}
    (hrun : piecesOfRun typos letters = [.run letters replacement]) :
    (Piece.run letters replacement).Sound := by
  obtain ⟨typo, hfind, hfound, rfl⟩ := exists_typo_of_piecesOfRun hrun
  have htypo := List.mem_of_find?_eq_some hfind
  have hplain : Plain (lower letters) := hfound ▸ (h typo htypo).plain
  obtain ⟨hletters, hlength⟩ := lettered_of_plain_lowerAfter hplain
  refine ⟨⟨?_, hletters⟩, lettersOnly_matchCase h htypo letters⟩
  have hthree : 3 ≤ (lower letters).length := by
    rw [← hfound, String.length_toList]
    exact (h typo htypo).three_le
  rw [← hlength]
  exact Nat.le_of_succ_le hthree

theorem sound_of_mem_pieces {text : List Char} {p : Piece} (hp : p ∈ pieces typos text) :
    p.Sound := by
  cases p with
  | mark c => exact trivial
  | run letters replacement => exact sound_of_piecesOfRun h (piecesOfRun_of_mem hp)

end Respellable

/-- Respelling begins anew after what is no letter. -/
theorem respellAfter_append {c : Char} (hc : isLetter c = false) (letters front back : List Char) :
    respellAfter typos letters (front ++ c :: back) =
      respellAfter typos letters front ++ c :: respellAfter typos [] back := by
  induction front generalizing letters with
  | nil =>
    simp only [List.nil_append, respellAfter, hc, Bool.false_eq_true, if_false]
    split <;> rfl
  | cons d front ih =>
    rw [List.cons_append, respellAfter, respellAfter, ih, ih]
    split
    · rfl
    · split <;> simp

theorem respellAfter_letters {l : List Char} (hl : ∀ c ∈ l, isLetter c = true)
    {letters : List Char} (hne : letters ++ l ≠ []) :
    respellAfter typos letters l = respellWord typos (letters.reverse ++ l) := by
  induction l generalizing letters with
  | nil =>
    rw [List.append_nil] at hne ⊢
    rw [respellAfter, if_neg (by simpa using hne)]
  | cons c l ih =>
    obtain ⟨hc, hl⟩ := List.forall_mem_cons.1 hl
    rw [respellAfter, if_pos hc, ih hl (by simp)]
    simp

/-- A run of letters is respelled as a whole. -/
theorem respellAfter_run {run : List Char} (hne : run ≠ []) (hrun : ∀ c ∈ run, isLetter c = true) :
    respellAfter typos [] run = respellWord typos run :=
  respellAfter_letters hrun hne

/-- Respelling replaces letters by letters when its corrections, in any capitals, are letters. -/
theorem keepsMarks_of_matchCase (h : ∀ typo ∈ typos, ∀ letters,
      matchCase letters typo.suggestion.toList ≠ [] ∧
        ∀ c ∈ matchCase letters typo.suggestion.toList, isLetter c = true) :
    KeepsMarks (respellAfter typos []) where
  nil := rfl
  cut := fun hc a b => respellAfter_append hc [] a b
  letters := fun run hne hrun => by
    rw [respellAfter_run hne hrun, respellWord]
    split
    · next typo hfind => exact h typo (List.mem_of_find?_eq_some hfind) run
    · exact ⟨hne, hrun⟩

theorem keepsMarks_respellAfter (h : ∀ typo ∈ typos, Respellable typo) :
    KeepsMarks (respellAfter typos []) := by
  refine keepsMarks_of_matchCase fun typo htypo letters => ?_
  have hletters := lettersOnly_matchCase h htypo letters
  exact ⟨hletters.ne_nil, fun c hc => (hletters.letters c hc).alphabetic⟩

/-- The body of a comment that is respelled is its body, respelled. -/
theorem body_respell (h : ∀ typo ∈ typos, Respellable typo) (raw : String) :
    body (respell typos raw) = respell typos (body raw) := by
  rw [body, respell, String.toList_ofList, (keepsMarks_respellAfter h).bodyChars, respell, body,
    String.toList_ofList]

end Marginalia.Patch
