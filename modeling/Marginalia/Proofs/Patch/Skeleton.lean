import Marginalia.Proofs.Patch.Respelling

/-! What respelling keeps of a text: every character that is no letter, and the runs of letters
between them, each in its place. A text that has been respelled is not respelled again. -/

namespace Marginalia

namespace Prose

open Unicode

/-! ### Runs of letters -/

/-- The characters of a text that are no letters. -/
def marks (text : List Char) : List Char := text.filter fun c => !isLetter c

/-- What stands before, between and after the characters that are no letters. -/
def stretches (text : List Char) : List (List Char) := text.splitOnP fun c => !isLetter c

/-- The maximal runs of letters. -/
def letterRuns (text : List Char) : List (List Char) := (stretches text).filter fun s => !s.isEmpty

theorem marks_letters {l : List Char} (h : ∀ c ∈ l, isLetter c = true) : marks l = [] :=
  List.filter_eq_nil_iff.2 fun c hc => by simp [h c hc]

theorem marks_append_cons {l : List Char} (h : ∀ c ∈ l, isLetter c = true) {c : Char}
    (hc : isLetter c = false) (rest : List Char) : marks (l ++ c :: rest) = c :: marks rest := by
  rw [marks, List.filter_append, ← marks, marks_letters h, List.nil_append,
    List.filter_cons_of_pos (by rw [hc]; rfl), ← marks]

theorem stretches_letters {l : List Char} (h : ∀ c ∈ l, isLetter c = true) :
    stretches l = [l] :=
  List.splitOnP_eq_singleton fun c hc => by rw [h c hc]; rfl

theorem stretches_append_cons {l : List Char} (h : ∀ c ∈ l, isLetter c = true) {c : Char}
    (hc : isLetter c = false) (rest : List Char) :
    stretches (l ++ c :: rest) = l :: stretches rest :=
  List.splitOnP_append_cons_of_forall_mem (fun d hd => by rw [h d hd]; rfl) c (by rw [hc]; rfl) rest

theorem isLetter_of_mem_stretches {text stretch : List Char} (h : stretch ∈ stretches text) :
    ∀ c ∈ stretch, isLetter c = true := by
  induction text using marks_induction with
  | letters l hl =>
    rw [stretches_letters hl, List.mem_singleton] at h
    exact h ▸ hl
  | mark l c rest hl hc ih =>
    rw [stretches_append_cons hl hc] at h
    rcases List.mem_cons.1 h with rfl | h
    · exact hl
    · exact ih h

theorem letterRuns_spec {text run : List Char} (h : run ∈ letterRuns text) :
    run ≠ [] ∧ ∀ c ∈ run, isLetter c = true := by
  obtain ⟨hmem, hne⟩ := List.mem_filter.1 h
  exact ⟨by simpa using hne, isLetter_of_mem_stretches hmem⟩

/-! ### Letters in the place of letters -/

namespace KeepsMarks

variable {f : List Char → List Char} (hf : KeepsMarks f)

include hf

theorem letters_of_letters {l : List Char} (h : ∀ c ∈ l, isLetter c = true) :
    ∀ c ∈ f l, isLetter c = true := by
  by_cases hne : l = []
  · simp [hne, hf.nil]
  · exact (hf.letters l hne h).2

theorem marks_eq (text : List Char) : marks (f text) = marks text := by
  induction text using marks_induction with
  | letters l hl => rw [marks_letters hl, marks_letters (hf.letters_of_letters hl)]
  | mark l c rest hl hc ih =>
    rw [hf.cut hc, marks_append_cons (hf.letters_of_letters hl) hc, ih, marks_append_cons hl hc]

theorem stretches_eq (text : List Char) : stretches (f text) = (stretches text).map f := by
  induction text using marks_induction with
  | letters l hl =>
    rw [stretches_letters hl, stretches_letters (hf.letters_of_letters hl), List.map_singleton]
  | mark l c rest hl hc ih =>
    rw [hf.cut hc, stretches_append_cons (hf.letters_of_letters hl) hc, ih,
      stretches_append_cons hl hc, List.map_cons]

theorem isEmpty_eq (text : List Char) : (f text).isEmpty = text.isEmpty := by
  rw [Bool.eq_iff_iff, List.isEmpty_iff, List.isEmpty_iff]
  exact hf.eq_nil_iff

theorem letterRuns_eq (text : List Char) : letterRuns (f text) = (letterRuns text).map f := by
  have hempty : (fun s : List Char => !s.isEmpty) ∘ f = fun s => !s.isEmpty :=
    funext fun s => congrArg not (hf.isEmpty_eq s)
  rw [letterRuns, hf.stretches_eq, List.filter_map, hempty, letterRuns]

/-- What changes no run of letters a second time changes no text a second time. -/
theorem idempotent (h : ∀ l, l ≠ [] → (∀ c ∈ l, isLetter c = true) → f (f l) = f l)
    (text : List Char) : f (f text) = f text := by
  have hletters (l : List Char) (hl : ∀ c ∈ l, isLetter c = true) : f (f l) = f l := by
    by_cases hne : l = []
    · rw [hne, hf.nil, hf.nil]
    · exact h l hne hl
  induction text using marks_induction with
  | letters l hl => exact hletters l hl
  | mark l c rest hl hc ih => rw [hf.cut hc, hf.cut hc, hletters l hl, ih]

end KeepsMarks

end Prose

namespace Patch

open Prose Unicode

variable {typos : List Typo}

/-- The corrections are words of small ASCII letters, and none of them is a misspelling itself. -/
structure Settled (typos : List Typo) : Prop where
  ne_empty : ∀ typo ∈ typos, typo.suggestion ≠ ""
  small : ∀ typo ∈ typos, ∀ c ∈ typo.suggestion.toList, c.isLower = true
  found_ne : ∀ typo ∈ typos, ∀ other ∈ typos, other.found ≠ typo.suggestion

/-- What becomes of a run of letters: a run that no misspelling has for its lower case stays, and
the others are the correction of the first such misspelling, in some capitals. -/
structure Becomes (typos : List Typo) (run respelled : List Char) : Prop where
  kept : (∀ typo ∈ typos, typo.found ≠ String.ofList (lower run)) → respelled = run
  corrected : ∀ typo, typos.find? (·.found == String.ofList (lower run)) = some typo →
    String.ofList (lower respelled) = typo.suggestion

theorem isLetter_of_isAlpha {c : Char} (h : c.isAlpha = true) : isLetter c = true :=
  forall_of_lt (P := fun c => c.isAlpha = true → isLetter c = true) (by decide +kernel)
    (Spelling.toNat_lt_of_isAlpha h) h

theorem respellWord_of_forall_ne {run : List Char}
    (h : ∀ typo ∈ typos, typo.found ≠ String.ofList (lower run)) : respellWord typos run = run := by
  have hnone : typos.find? (·.found == String.ofList (lower run)) = none :=
    List.find?_eq_none.2 fun typo htypo => by simpa using h typo htypo
  rw [respellWord, hnone]

theorem respellWord_of_find? {run : List Char} {typo : Typo}
    (h : typos.find? (·.found == String.ofList (lower run)) = some typo) :
    respellWord typos run = matchCase run typo.suggestion.toList := by
  rw [respellWord, h]

namespace Settled

variable (h : Settled typos)

include h

theorem lower_matchCase {typo : Typo} (htypo : typo ∈ typos) (run : List Char) :
    lower (matchCase run typo.suggestion.toList) = typo.suggestion.toList :=
  lower_of_mem_capitalisations (h.small typo htypo) (matchCase_mem run _)

theorem keepsMarks : KeepsMarks (respellAfter typos []) := by
  refine keepsMarks_of_matchCase fun typo htypo run => ⟨fun hnil => ?_, fun c hc => ?_⟩
  · have hlower := h.lower_matchCase htypo run
    rw [hnil] at hlower
    exact h.ne_empty typo htypo (String.toList_eq_nil_iff.1 hlower.symm)
  · exact isLetter_of_isAlpha
      ((plain_of_mem_capitalisations (h.small typo htypo) (matchCase_mem run _)).1 c hc)

theorem becomes_respellWord (run : List Char) : Becomes typos run (respellWord typos run) where
  kept := respellWord_of_forall_ne
  corrected := fun typo hfind => by
    rw [respellWord_of_find? hfind, h.lower_matchCase (List.mem_of_find?_eq_some hfind),
      String.ofList_toList]

/-- A run that was replaced is a correction in lower case, and no misspelling is one. -/
theorem respellWord_respellWord (run : List Char) :
    respellWord typos (respellWord typos run) = respellWord typos run := by
  cases hfind : typos.find? (·.found == String.ofList (lower run)) with
  | none => rw [respellWord, respellWord, hfind, hfind]
  | some typo =>
    have hmem := List.mem_of_find?_eq_some hfind
    refine respellWord_of_forall_ne fun other hother => ?_
    rw [(h.becomes_respellWord run).corrected typo hfind]
    exact h.found_ne typo hmem other hother

theorem respellAfter_respellAfter (text : List Char) :
    respellAfter typos [] (respellAfter typos [] text) = respellAfter typos [] text := by
  refine h.keepsMarks.idempotent (fun run hne hrun => ?_) text
  obtain ⟨hne', hrun'⟩ := h.keepsMarks.letters run hne hrun
  rw [respellAfter_run hne' hrun', respellAfter_run hne hrun, h.respellWord_respellWord]

theorem becomes_letterRuns (text : List Char) : List.Forall₂ (Becomes typos) (letterRuns text)
    (letterRuns (respellAfter typos [] text)) := by
  rw [h.keepsMarks.letterRuns_eq, List.forall₂_map_right_iff, List.forall₂_same]
  intro run hrun
  obtain ⟨hne, hletters⟩ := letterRuns_spec hrun
  rw [respellAfter_run hne hletters]
  exact h.becomes_respellWord run

end Settled

/-- Respelling keeps the skeleton of a text: the characters that are no letters, and between which of
them there are letters. Of the runs of letters each stays or becomes its correction, and no run is
respelled a second time. -/
theorem respell_keeps_skeleton (h : Settled typos) (text : String) :
    marks (respell typos text).toList = marks text.toList ∧
      (stretches (respell typos text).toList).map List.isEmpty =
        (stretches text.toList).map List.isEmpty ∧
      List.Forall₂ (Becomes typos) (letterRuns text.toList)
        (letterRuns (respell typos text).toList) ∧
      respell typos (respell typos text) = respell typos text := by
  have hmarks := h.keepsMarks
  rw [respell, respell, String.toList_ofList]
  refine ⟨hmarks.marks_eq _, ?_, h.becomes_letterRuns _,
    congrArg String.ofList (h.respellAfter_respellAfter _)⟩
  rw [hmarks.stretches_eq, List.map_map]
  exact List.map_congr_left fun stretch _ => hmarks.isEmpty_eq stretch

/-- Runs at both ends, in capitals of three kinds, beside letters that are no misspelling. -/
theorem skeleton_of_respelled_teh :
    let typos : List Typo := [⟨"teh", "the"⟩, ⟨"é", "e"⟩, ⟨"teh", "ten"⟩]
    respell typos "TEH é, Teh_tehs É2teh" = "THE e, The_tehs E2the" ∧
      marks "THE e, The_tehs E2the".toList = marks "TEH é, Teh_tehs É2teh".toList ∧
      List.Forall₂ (Becomes typos) (["TEH", "é", "Teh", "tehs", "É", "teh"].map String.toList)
        (["THE", "e", "The", "tehs", "E", "the"].map String.toList) ∧
      respell typos "THE e, The_tehs E2the" = "THE e, The_tehs E2the" := by
  intro typos
  have hsettled : Settled typos := ⟨by decide, by simp [typos], by decide⟩
  have hrespelled : respell typos "TEH é, Teh_tehs É2teh" = "THE e, The_tehs E2the" := by
    decide +kernel
  obtain ⟨hmarks, -, hruns, hagain⟩ := respell_keeps_skeleton hsettled "TEH é, Teh_tehs É2teh"
  rw [hrespelled] at hmarks hruns hagain
  have hbefore : letterRuns "TEH é, Teh_tehs É2teh".toList =
      ["TEH", "é", "Teh", "tehs", "É", "teh"].map String.toList := by decide +kernel
  have hafter : letterRuns "THE e, The_tehs E2the".toList =
      ["THE", "e", "The", "tehs", "E", "the"].map String.toList := by decide +kernel
  exact ⟨hrespelled, hmarks, hbefore ▸ hafter ▸ hruns, hagain⟩

end Patch

end Marginalia
