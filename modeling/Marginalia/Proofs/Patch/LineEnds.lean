import Marginalia.Proofs.Patch.Coverage

/-! Which line ends rewriting leaves. Of the line ends outside of comments just the taken ones go,
so two pieces of code come to stand on one line exactly when every line end between them is taken
and no new text brings one. A comment at the end of a line of code and one alone on the next line do
that. -/

namespace Marginalia.Patch

open Marginalia.Text

variable {α : Type} {text : List Char} {steps merged : List Step}

/-- Whether a line end stands between two offsets afterwards: one that is in no edited comment and
is not taken, or one in a new text. -/
def LineEndStays (text : List Char) (steps : List Step) (start stop : Nat) : Prop :=
  (∃ n ∈ cells text, n.char = '\n' ∧ start ≤ n.start ∧ n.start < stop ∧
      ¬Edits steps n.start ∧ ¬Taken text steps n.start) ∨
    ∃ s ∈ steps, s.treatment = .rewrite ∧ start ≤ s.place.start ∧ s.place.start < stop ∧
      '\n' ∈ (s.replacement.getD "").toList

instance (text : List Char) (steps : List Step) (start stop : Nat) :
    Decidable (LineEndStays text steps start stop) :=
  inferInstanceAs (Decidable ((∃ n ∈ cells text, n.char = '\n' ∧ start ≤ n.start ∧ n.start < stop ∧
      ¬Edits steps n.start ∧ ¬Taken text steps n.start) ∨
    ∃ s ∈ steps, s.treatment = .rewrite ∧ start ≤ s.place.start ∧ s.place.start < stop ∧
      '\n' ∈ (s.replacement.getD "").toList))

/-- What stands for a character that is not deleted, and for which range of the text: the new text
of a rewritten comment around it, or else the character itself. -/
inductive StandsFor (steps : List Step) (c : Cell) : Nat → Nat → List Char → Prop
  | rewritten {s : Step} : s ∈ steps → s.treatment = .rewrite → s.place.holds c.start = true →
      StandsFor steps c s.place.start s.place.stop (s.replacement.getD "").toList
  | itself : ¬Edits steps c.start → StandsFor steps c c.start c.stop [c.char]

/-! ### What stands for a character -/

theorem exists_standsFor {c : Cell} (hc : ¬Deletes steps c.start) :
    ∃ start stop made, StandsFor steps c start stop made := by
  by_cases hs : Edits steps c.start
  · obtain ⟨s, hs, hedits, hholds⟩ := hs
    cases ht : s.treatment with
    | keep => simp [ht, Treatment.edits] at hedits
    | flag => simp [ht, Treatment.edits] at hedits
    | delete => exact absurd ⟨s, hs, by simp [Step.deletes, ht], hholds⟩ hc
    | rewrite => exact ⟨_, _, _, .rewritten hs ht hholds⟩
  · exact ⟨_, _, _, .itself hs⟩

namespace StandsFor

variable {c : Cell} {start stop : Nat} {made : List Char}

theorem start_le (h : StandsFor steps c start stop made) : start ≤ c.start ∧ c.start < stop := by
  cases h with
  | rewritten _ _ hholds => exact Place.holds_iff.1 hholds
  | itself => exact ⟨Nat.le_refl _, c.start_lt_stop⟩

theorem stop_le_size (h : StandsFor steps c start stop made) (hfit : ∀ s ∈ steps, s.Fits text)
    (hc : c ∈ cells text) : stop ≤ size text := by
  cases h with
  | rewritten hs _ _ => exact le_size_of_isBoundary (hfit _ hs).stop_boundary
  | itself =>
    have := stop_le_of_mem hc
    omega

theorem stop_le_start (h : StandsFor steps c start stop made) {n : Cell} (hc : c ∈ cells text)
    (hn : n ∈ cells text) (hlt : c.start < n.start)
    (hout : ∀ s ∈ steps, s.place.holds n.start = false) : stop ≤ n.start := by
  cases h with
  | @rewritten s hs _ hholds =>
    have hnot := hout s hs
    rw [Place.holds_eq_false_iff] at hnot
    rw [Place.holds_iff] at hholds
    omega
  | itself => exact stop_le_start hc hn hlt

theorem start_lt (h : StandsFor steps c start stop made) {n : Cell} (hlt : n.start < c.start)
    (hout : ∀ s ∈ steps, s.place.holds n.start = false) : n.start < start := by
  cases h with
  | @rewritten s hs _ hholds =>
    have hnot := hout s hs
    rw [Place.holds_eq_false_iff] at hnot
    rw [Place.holds_iff] at hholds
    omega
  | itself => exact hlt

end StandsFor

namespace Carries

/-- What stands for a character stands there afterwards, unless it is a blank. -/
theorem madeOf_standsFor (h : Carries text steps merged) {c : Cell} (hc : c ∈ cells text)
    (hblank : Unicode.isBlank c.char = false) {start stop : Nat} {made : List Char}
    (hs : StandsFor steps c start stop made) : madeOf merged text start stop = made := by
  cases hs with
  | @rewritten s hs ht hholds =>
    have hmem : s ∈ merged := (h.mem_iff (by simp [Step.deletes, ht])).2 hs
    rw [madeOf_of_mem h.ascending.apart hmem (h.fits s hmem), Step.result, ht]
  | itself hout =>
    rw [madeOf, cellsIn_cell hc, List.flatMap_singleton]
    rcases h.image_cases hc with himage | ⟨hb, -⟩
    · rw [himage, Patch.image_of_not_edits h.stands.ascending.apart hout]
    · rw [hblank] at hb
      contradiction

/-- In an edited comment only a new text can bring a line end, and it stands where the comment
began. -/
theorem newline_mem_image_of_edits (h : Carries text steps merged) {c : Cell} {s : Step}
    (hs : s ∈ steps) (hedits : s.treatment.edits = true) (hholds : s.place.holds c.start = true) :
    '\n' ∈ image merged c ↔ s.treatment = .rewrite ∧ s.place.start = c.start ∧
      '\n' ∈ (s.replacement.getD "").toList := by
  rw [h.image_of_edits hs hedits hholds, Step.image]
  cases ht : s.treatment with
  | keep => simp [ht, Treatment.edits] at hedits
  | flag => simp [ht, Treatment.edits] at hedits
  | delete => simp
  | rewrite =>
    by_cases hstart : c.start = s.place.start
    · simp [hstart]
    · simp [hstart, Ne.symm hstart]

/-- Elsewhere a line end stays unless it is taken. -/
theorem newline_mem_image_of_not_edits (h : Carries text steps merged) {c : Cell}
    (hc : c ∈ cells text) (hs : ¬Edits steps c.start) :
    '\n' ∈ image merged c ↔ c.char = '\n' ∧ ¬Taken text steps c.start := by
  have htaken : c.char = '\n' → (Deletes merged c.start ↔ Taken text steps c.start) := fun hn =>
    h.deletes_newline_iff hc hn fun hd => hs (Edits.of_deletes hd)
  by_cases hd : Deletes merged c.start
  · rw [image_of_deletes h.ascending.apart hd]
    refine iff_of_false List.not_mem_nil ?_
    rintro ⟨hn, hnot⟩
    exact hnot ((htaken hn).1 hd)
  · rw [h.image_of_not_edits hs hd, List.mem_singleton, eq_comm]
    exact ⟨fun hn => ⟨hn, fun ht => hd ((htaken hn).2 ht)⟩, fun hn => hn.1⟩

/-- Where line ends come from: from line ends that are in no edited comment and are not taken, and
from new texts. -/
theorem newline_mem_image_iff (h : Carries text steps merged) {c : Cell} (hc : c ∈ cells text) :
    '\n' ∈ image merged c ↔
      (c.char = '\n' ∧ ¬Edits steps c.start ∧ ¬Taken text steps c.start) ∨
        ∃ s ∈ steps, s.treatment = .rewrite ∧ s.place.start = c.start ∧
          '\n' ∈ (s.replacement.getD "").toList := by
  have hbegun : ∀ s ∈ steps, s.place.start = c.start → s.place.holds c.start = true := by
    intro s hs hstart
    have hlt := (h.stands.fits s hs).start_lt_stop
    exact Place.holds_iff.2 ⟨by omega, by omega⟩
  by_cases hedits : Edits steps c.start
  · rw [or_iff_right fun hleft => hleft.2.1 hedits]
    obtain ⟨s, hs, hsedits, hholds⟩ := hedits
    rw [h.newline_mem_image_of_edits hs hsedits hholds]
    constructor
    · exact fun hn => ⟨s, hs, hn⟩
    · rintro ⟨s', hs', ht, hstart, hn⟩
      obtain rfl := eq_of_holds h.stands.ascending.apart hs hs' hholds (hbegun s' hs' hstart)
      exact ⟨ht, hstart, hn⟩
  · have hnone : ¬∃ s ∈ steps, s.treatment = .rewrite ∧ s.place.start = c.start ∧
        '\n' ∈ (s.replacement.getD "").toList := by
      rintro ⟨s, hs, ht, hstart, -⟩
      exact hedits ⟨s, hs, by rw [ht]; rfl, hbegun s hs hstart⟩
    rw [or_iff_left hnone, h.newline_mem_image_of_not_edits hc hedits,
      and_iff_right (a := ¬Edits steps c.start) hedits]

/-- A line end stands between two offsets afterwards exactly when one stays. -/
theorem newline_mem_madeOf_iff (h : Carries text steps merged) (start stop : Nat) :
    '\n' ∈ madeOf merged text start stop ↔ LineEndStays text steps start stop := by
  rw [madeOf, List.mem_flatMap]
  constructor
  · rintro ⟨c, hc, hn⟩
    obtain ⟨hc, hstart, hstop⟩ := mem_cellsIn.1 hc
    rcases (h.newline_mem_image_iff hc).1 hn with ⟨hchar, hout, hnot⟩ | ⟨s, hs, ht, hcs, hn⟩
    · exact .inl ⟨c, hc, hchar, hstart, hstop, hout, hnot⟩
    · exact .inr ⟨s, hs, ht, by omega, by omega, hn⟩
  · rintro (⟨c, hc, hchar, hstart, hstop, hout, hnot⟩ | ⟨s, hs, ht, hstart, hstop, hn⟩)
    · exact ⟨c, mem_cellsIn.2 ⟨hc, hstart, hstop⟩,
        (h.newline_mem_image_iff hc).2 (.inl ⟨hchar, hout, hnot⟩)⟩
    · have hfit := h.stands.fits s hs
      have hlt := hfit.start_lt_stop
      have hsize := le_size_of_isBoundary hfit.stop_boundary
      obtain ⟨c, hc, hcs⟩ := exists_cell_start hfit.start_boundary (by omega)
      exact ⟨c, mem_cellsIn.2 ⟨hc, by omega, by omega⟩,
        (h.newline_mem_image_iff hc).2 (.inr ⟨s, hs, ht, hcs.symm, hn⟩)⟩

end Carries

/-! ### Two characters and a line end between them -/

theorem StandsFor.of_subset {steps' : List Step} (h : ∀ s, s ∈ steps ↔ s ∈ steps') {c : Cell}
    {start stop : Nat} {made : List Char} (hc : StandsFor steps c start stop made) :
    StandsFor steps' c start stop made := by
  cases hc with
  | rewritten hs ht hholds => exact .rewritten ((h _).1 hs) ht hholds
  | itself hout =>
    refine .itself fun ⟨s, hs, hedits, hholds⟩ => hout ⟨s, (h s).2 hs, hedits, hholds⟩

/-- Two characters of code, and a line end outside of comments between them. Afterwards there is a
line end between what stands for the two exactly when one between them stays. -/
theorem line_end_between_iff {source fileId : String} {comments : List (Judged α)}
    (h : WellPlaced source.toList fileId comments) (policy : Policy) (drift : List (Finding α))
    {p n q : Cell} (hp : p ∈ cells source.toList) (hn : n ∈ cells source.toList)
    (hq : q ∈ cells source.toList) (hpn : p.start < n.start) (hnq : n.start < q.start)
    (hpblank : Unicode.isBlank p.char = false) (hqblank : Unicode.isBlank q.char = false)
    (hpkept : ¬Deletes (decided policy drift fileId comments) p.start)
    (hqkept : ¬Deletes (decided policy drift fileId comments) q.start)
    (hnout : ∀ k ∈ comments, k.comment.place.holds n.start = false) :
    ∃ plan a b x c d y, planFor policy fileId source comments drift = .ok plan ∧
      StandsFor (decided policy drift fileId comments) p a b x ∧
      StandsFor (decided policy drift fileId comments) q c d y ∧ b ≤ n.start ∧ n.start < c ∧
      apply source plan = .ok (String.ofList (madeOf plan.steps source.toList 0 a ++ x ++
        madeOf plan.steps source.toList b c ++ y ++
        madeOf plan.steps source.toList d (size source.toList))) ∧
      ('\n' ∈ madeOf plan.steps source.toList b c ↔
        LineEndStays source.toList (decided policy drift fileId comments) b c) := by
  obtain ⟨merged, hplan, hcarries, happly⟩ := exists_carries h policy drift
  have hmem := fun s => mem_decided_iff h policy drift (s := s)
  have hdeletes : ∀ o, Deletes (decided policy drift fileId (ownComments fileId comments)) o ↔
      Deletes (decided policy drift fileId comments) o := fun o => by simp only [Deletes, hmem]
  have hout : ∀ s ∈ decided policy drift fileId (ownComments fileId comments),
      s.place.holds n.start = false := by
    intro s hs
    obtain ⟨k, hk, rfl⟩ := List.mem_map.1 ((hmem s).1 hs)
    exact hnout k hk
  obtain ⟨a, b, x, hpx⟩ := exists_standsFor fun hd => hpkept ((hdeletes _).1 hd)
  obtain ⟨c, d, y, hqy⟩ := exists_standsFor fun hd => hqkept ((hdeletes _).1 hd)
  have hb := hpx.stop_le_start hp hn hpn hout
  have hc := hqy.start_lt hnq hout
  have hd := hqy.stop_le_size hcarries.stands.fits hq
  have hpx' := hpx.start_le
  have hqy' := hqy.start_le
  refine ⟨⟨fileId, merged⟩, a, b, x, c, d, y, hplan, hpx.of_subset hmem, hqy.of_subset hmem, hb, hc,
    ?_, ?_⟩
  · rw [happly, ← madeOf_whole, ← hcarries.madeOf_standsFor hp hpblank hpx,
      ← hcarries.madeOf_standsFor hq hqblank hqy, madeOf_append _ _ (by omega) (by omega),
      madeOf_append _ _ (by omega) (by omega), madeOf_append _ _ (by omega) (by omega),
      madeOf_append _ _ (by omega) (by omega)]
  · rw [hcarries.newline_mem_madeOf_iff]
    simp only [LineEndStays, Edits, Taken, hmem]

/-- The line end after a comment at the end of a line stays when there is code on the next line. -/
theorem line_end_between_of_trailing :
    LineEndStays "a // x\nb // y\n".toList
        (decided ⟨true, true, true, true, true, true, true⟩ [] "a.js"
          [placed "a.js" 2 "// x" .filler [], placed "a.js" 9 "// y" .filler []]) 1 7 ∧
      ∃ plan front between back, planFor ⟨true, true, true, true, true, true, true⟩ "a.js"
        "a // x\nb // y\n" [placed "a.js" 2 "// x" .filler [], placed "a.js" 9 "// y" .filler []]
          [] = .ok plan ∧
        apply "a // x\nb // y\n" plan =
          .ok (String.ofList (front ++ ['a'] ++ between ++ ['b'] ++ back)) ∧ '\n' ∈ between := by
  have hstays : LineEndStays "a // x\nb // y\n".toList
      (decided ⟨true, true, true, true, true, true, true⟩ [] "a.js"
        [placed "a.js" 2 "// x" .filler [], placed "a.js" 9 "// y" .filler []]) 1 7 := by decide
  have hplaced : WellPlaced "a // x\nb // y\n".toList "a.js"
      [placed "a.js" 2 "// x" .filler [], placed "a.js" 9 "// y" .filler []] := by decide
  have ha : ⟨0, 'a'⟩ ∈ cells "a // x\nb // y\n".toList := by decide
  have hn : ⟨6, '\n'⟩ ∈ cells "a // x\nb // y\n".toList := by decide
  have hb : ⟨7, 'b'⟩ ∈ cells "a // x\nb // y\n".toList := by decide
  obtain ⟨plan, a, b, x, c, d, y, hplan, hx, hy, -, -, happly, hiff⟩ :=
    line_end_between_iff hplaced ⟨true, true, true, true, true, true, true⟩ [] ha hn hb
      (by decide) (by decide) (by decide) (by decide) (by decide) (by decide) (by decide)
  have hnone : ∀ s ∈ decided ⟨true, true, true, true, true, true, true⟩ [] "a.js"
      [placed "a.js" 2 "// x" .filler [], placed "a.js" 9 "// y" .filler []],
      s.treatment ≠ .rewrite := by decide
  cases hx with
  | rewritten hs ht _ => exact absurd ht (hnone _ hs)
  | itself =>
    cases hy with
    | rewritten hs ht _ => exact absurd ht (hnone _ hs)
    | itself => exact ⟨hstays, plan, _, _, _, hplan, happly, hiff.2 hstays⟩

/-- A comment alone on its line, when only a line end is between it and a comment at the end of a
line of code, takes that line end and its own. Both stand outside of comments. -/
theorem line_joined_by_trailing_then_own :
    WellPlaced "a // x\n// y\nb".toList "a.js"
        [placed "a.js" 2 "// x" .filler [], placed "a.js" 7 "// y" .filler []] ∧
      ⟨6, '\n'⟩ ∈ cells "a // x\n// y\nb".toList ∧
      (∀ k ∈ [placed "a.js" 2 "// x" .filler [], placed "a.js" 7 "// y" .filler []],
        k.comment.place.holds 6 = false) ∧
      (planFor ⟨true, true, true, true, true, true, true⟩ "a.js" "a // x\n// y\nb"
          [placed "a.js" 2 "// x" .filler [], placed "a.js" 7 "// y" .filler []] []).bind
        (apply "a // x\n// y\nb") = .ok "ab" := by
  refine ⟨by decide, by decide, by decide, ?_⟩
  rw [planFor, ownComments_eq (by decide) (by decide)]
  decide +kernel

end Marginalia.Patch
