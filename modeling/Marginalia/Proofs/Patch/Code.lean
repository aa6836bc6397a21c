import Marginalia.Proofs.Patch.Coverage

/-! Rewriting touches no code. Besides blanks, the text afterwards is what the decisions about the
comments make of the text before, and a comment that stays is still there, in its place. -/

namespace Marginalia.Patch

open Marginalia.Text

variable {α : Type}

/-- A text without its blanks. -/
def withoutBlanks (text : List Char) : List Char := text.filter fun c => !Unicode.isBlank c

theorem withoutBlanks_flatMap (f : Cell → List Char) (l : List Cell) :
    withoutBlanks (l.flatMap f) = l.flatMap fun c => withoutBlanks (f c) :=
  List.filter_flatMap

/-- Of a character the plan leaves what the decision leaves, but for a blank. -/
theorem Carries.withoutBlanks_image {text : List Char} {steps merged : List Step}
    (h : Carries text steps merged) {c : Cell} (hc : c ∈ cells text) :
    withoutBlanks (image merged c) = withoutBlanks (image steps c) := by
  rcases h.image_cases hc with heq | ⟨hblank, hsteps, hmerged⟩
  · rw [heq]
  · rw [hsteps, hmerged]
    simp [withoutBlanks, hblank]

theorem Carries.withoutBlanks_madeOf {text : List Char} {steps merged : List Step}
    (h : Carries text steps merged) (start stop : Nat) :
    withoutBlanks (madeOf merged text start stop) =
      withoutBlanks (madeOf steps text start stop) := by
  rw [madeOf, madeOf, withoutBlanks_flatMap, withoutBlanks_flatMap]
  exact List.flatMap_congr fun c hc => h.withoutBlanks_image (mem_cellsIn.1 hc).1

/-- The order of the comments plays no part in what is decided about the text. -/
theorem madeOf_decided {text : List Char} {fileId : String} {comments : List (Judged α)}
    (h : WellPlaced text fileId comments) (policy : Policy) (drift : List (Finding α))
    (start stop : Nat) :
    madeOf (decided policy drift fileId (ownComments fileId comments)) text start stop =
      madeOf (decided policy drift fileId comments) text start stop := by
  refine madeOf_congr fun c _ => image_perm ?_ (stands_decided h policy drift).ascending.apart c
  exact (ownComments_perm h).map _

/-- Planning and applying succeed. Without blanks the new text is the old one with every comment as
it is decided, and a comment that is kept or flagged stands unchanged between what was before it and
what was after it. -/
theorem rewriting_keeps_code {source fileId : String} {comments : List (Judged α)}
    (h : WellPlaced source.toList fileId comments) (policy : Policy) (drift : List (Finding α)) :
    ∃ plan out, planFor policy fileId source comments drift = .ok plan ∧
      apply source plan = .ok out ∧
      withoutBlanks out.toList =
        withoutBlanks (patched (decided policy drift fileId comments) source.toList) ∧
      ∀ k ∈ comments, (decidedFor policy drift fileId k).treatment.edits = false →
        ∃ front back,
          out.toList = front ++ slice source.toList k.comment.start k.comment.stop ++ back ∧
          withoutBlanks front = withoutBlanks
            (madeOf (decided policy drift fileId comments) source.toList 0 k.comment.start) ∧
          withoutBlanks back = withoutBlanks (madeOf (decided policy drift fileId comments)
            source.toList k.comment.stop (size source.toList)) := by
  obtain ⟨merged, hplan, hcarries, happly⟩ := exists_carries h policy drift
  refine ⟨⟨fileId, merged⟩, _, hplan, happly, ?_, fun k hk hkeep => ?_⟩
  · rw [String.toList_ofList, ← madeOf_whole, ← madeOf_whole, hcarries.withoutBlanks_madeOf,
      madeOf_decided h]
  · have hsolid := h.solid k hk
    have hdeletes := Step.deletes_of_not_edits hkeep
    have hmem : decidedFor policy drift fileId k ∈ merged :=
      (hcarries.mem_iff hdeletes).2 (List.mem_map_of_mem ((ownComments_perm h).mem_iff.2 hk))
    have hkept := madeOf_of_mem hcarries.ascending.apart hmem (hcarries.fits _ hmem)
    have hresult : (decidedFor policy drift fileId k).result source.toList =
        slice source.toList k.comment.start k.comment.stop := Step.result_of_not_edits hkeep
    have hlt := hsolid.start_lt_stop
    have hsize := hsolid.stop_le_size
    simp only [decidedFor_place] at hkept
    refine ⟨madeOf merged source.toList 0 k.comment.start,
      madeOf merged source.toList k.comment.stop (size source.toList), ?_, ?_, ?_⟩
    · rw [String.toList_ofList, ← hresult, ← hkept, ← madeOf_whole]
      simp only [Comment.place] at hlt hsize ⊢
      rw [madeOf_append _ _ (Nat.zero_le _) (Nat.le_of_lt hlt), madeOf_append _ _ (by omega) hsize]
    · rw [hcarries.withoutBlanks_madeOf, madeOf_decided h]
    · rw [hcarries.withoutBlanks_madeOf, madeOf_decided h]

/-- A comment at the end of a line and one on the next line go, one is respelled and one stays. -/
theorem rewriting_keeps_code_of_calls :
    ∃ plan out, planFor ⟨true, true, true, true, true, true, true⟩ "a.js"
        "a(); // x1\n// x2\nb(); // teh\nc() // kept"
        [placed "a.js" 11 "// x2" .filler [], placed "a.js" 5 "// x1" .filler [],
          placed "a.js" 22 "// teh" .typoNoise [⟨"teh", "the"⟩],
          placed "a.js" 33 "// kept" .informative []] [] = .ok plan ∧
      apply "a(); // x1\n// x2\nb(); // teh\nc() // kept" plan = .ok out ∧
      withoutBlanks out.toList = "a();b();//thec()//kept".toList ∧
      ∃ front back, out.toList = front ++ "// kept".toList ++ back ∧
        withoutBlanks front = "a();b();//thec()".toList ∧ withoutBlanks back = [] := by
  have hplaced : WellPlaced "a(); // x1\n// x2\nb(); // teh\nc() // kept".toList "a.js"
      [placed "a.js" 11 "// x2" .filler [], placed "a.js" 5 "// x1" .filler [],
        placed "a.js" 22 "// teh" .typoNoise [⟨"teh", "the"⟩],
        placed "a.js" 33 "// kept" .informative []] := by decide
  obtain ⟨plan, out, hplan, happly, hout, hkept⟩ :=
    rewriting_keeps_code hplaced ⟨true, true, true, true, true, true, true⟩ []
  obtain ⟨front, back, hwhole, hfront, hback⟩ :=
    hkept (placed "a.js" 33 "// kept" .informative []) (by decide) (by decide)
  exact ⟨plan, out, hplan, happly, hout.trans (by decide), front, back, hwhole,
    hfront.trans (by decide), hback.trans (by decide)⟩

end Marginalia.Patch
