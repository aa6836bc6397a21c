import Marginalia.Drift.Candidate
import Marginalia.Proofs.Sequence

/-! The candidates are the comments that document code: each is told from the others by its index,
and where places do not repeat, by its place. -/

namespace Marginalia.Drift

open Marginalia.Spelling

variable {α : Type} {dictionary : Dictionary} {comments : List (Judged α)} {c d : Candidate α}

namespace Candidate

def place (c : Candidate α) : Place := c.judged.comment.place

def category (c : Candidate α) : Category := c.judged.verdict.category

end Candidate

theorem mem_candidates_iff : c ∈ candidates dictionary comments ↔
    ∃ judged, comments[c.index]? = some judged ∧ c = .ofJudged dictionary judged c.index ∧
      c.lineTokens ≠ [] := by
  simp only [candidates, List.mem_filter, List.mem_map, Prod.exists, List.mem_zipIdx_iff_getElem?]
  constructor
  · rintro ⟨⟨judged, index, hjudged, rfl⟩, hfull⟩
    exact ⟨judged, hjudged, rfl, by simpa using hfull⟩
  · rintro ⟨judged, hjudged, hc, hfull⟩
    exact ⟨⟨judged, c.index, hjudged, hc.symm⟩, by simpa using hfull⟩

theorem judged_of_mem (h : c ∈ candidates dictionary comments) :
    comments[c.index]? = some c.judged := by
  obtain ⟨judged, hjudged, hc, -⟩ := mem_candidates_iff.1 h
  rw [hjudged, hc]
  rfl

theorem ofJudged_of_mem (h : c ∈ candidates dictionary comments) :
    c = .ofJudged dictionary c.judged c.index := by
  obtain ⟨judged, -, hc, -⟩ := mem_candidates_iff.1 h
  rw [hc]
  rfl

theorem lineTokens_ne_nil_of_mem (h : c ∈ candidates dictionary comments) : c.lineTokens ≠ [] := by
  obtain ⟨-, -, -, hfull⟩ := mem_candidates_iff.1 h
  exact hfull

theorem eq_of_index_eq (hc : c ∈ candidates dictionary comments)
    (hd : d ∈ candidates dictionary comments) (h : c.index = d.index) : c = d := by
  have hjudged : c.judged = d.judged := by
    have := judged_of_mem hc
    rw [h, judged_of_mem hd] at this
    exact (Option.some.inj this).symm
  rw [ofJudged_of_mem hc, ofJudged_of_mem hd, hjudged, h]

theorem eq_of_key_eq {κ : Type} {key : Judged α → κ} (hnodup : (comments.map key).Nodup)
    (hc : c ∈ candidates dictionary comments) (hd : d ∈ candidates dictionary comments)
    (h : key c.judged = key d.judged) : c = d := by
  have hat : ∀ {e : Candidate α}, e ∈ candidates dictionary comments →
      (comments.map key)[e.index]? = some (key e.judged) := by
    intro e he
    rw [List.getElem?_map, judged_of_mem he]
    rfl
  refine eq_of_index_eq hc hd ?_
  have hlt : c.index < (comments.map key).length := (List.getElem?_eq_some_iff.1 (hat hc)).1
  exact (List.getElem?_inj hlt hnodup).1 ((hat hc).trans (h ▸ (hat hd).symm))

theorem eq_of_place_eq (hnodup : (comments.map fun j => j.comment.place).Nodup)
    (hc : c ∈ candidates dictionary comments) (hd : d ∈ candidates dictionary comments)
    (h : c.place = d.place) : c = d :=
  eq_of_key_eq hnodup hc hd h

@[simp] theorem words_ofJudged (judged : Judged α) (index : Nat) :
    (Candidate.ofJudged dictionary judged index).words =
      commentWords dictionary judged.comment.raw := by
  rw [Candidate.ofJudged]

@[simp] theorem lineTokens_ofJudged (judged : Judged α) (index : Nat) :
    (Candidate.ofJudged dictionary judged index).lineTokens =
      Code.normalTokens judged.comment.code := rfl

@[simp] theorem judged_ofJudged (judged : Judged α) (index : Nat) :
    (Candidate.ofJudged dictionary judged index).judged = judged := rfl

theorem words_of_mem (h : c ∈ candidates dictionary comments) :
    c.words = commentWords dictionary c.judged.comment.raw := by
  obtain ⟨judged, -, hc, -⟩ := mem_candidates_iff.1 h
  rw [hc, words_ofJudged, judged_ofJudged]

theorem words_nodup_of_mem (h : c ∈ candidates dictionary comments) : c.words.Nodup := by
  rw [words_of_mem h, commentWords]
  exact nodup_eraseDups _

theorem lineTokens_of_mem (h : c ∈ candidates dictionary comments) :
    c.lineTokens = Code.normalTokens c.judged.comment.code := by
  obtain ⟨judged, -, hc, -⟩ := mem_candidates_iff.1 h
  rw [hc, lineTokens_ofJudged, judged_ofJudged]

theorem blockTokens_of_mem (h : c ∈ candidates dictionary comments) :
    c.blockTokens = Code.normalTokens c.judged.comment.context.1 := by
  obtain ⟨judged, -, hc, -⟩ := mem_candidates_iff.1 h
  rw [hc, judged_ofJudged, Candidate.ofJudged]

theorem judged_mem_of_mem (h : c ∈ candidates dictionary comments) : c.judged ∈ comments :=
  List.mem_of_getElem? (judged_of_mem h)

theorem exists_candidate {judged : Judged α} (h : judged ∈ comments)
    (hfull : Code.normalTokens judged.comment.code ≠ []) :
    ∃ c ∈ candidates dictionary comments, c.judged = judged := by
  obtain ⟨i, hi⟩ := List.getElem?_of_mem h
  exact ⟨.ofJudged dictionary judged i, mem_candidates_iff.2 ⟨judged, hi, rfl, hfull⟩, rfl⟩

theorem code_ne_empty_of_mem (h : c ∈ candidates dictionary comments) :
    c.judged.comment.code ≠ "" := by
  obtain ⟨judged, -, hc, hfull⟩ := mem_candidates_iff.1 h
  rw [hc, lineTokens_ofJudged] at hfull
  rw [hc, judged_ofJudged]
  intro hempty
  rw [hempty] at hfull
  exact hfull rfl

end Marginalia.Drift
