import Marginalia.Proofs.Code.Fusion
import Marginalia.Proofs.Patch.Coverage

/-! A comment with code after it on its line is deleted alone: what was before it on the line then
stands right before what was after it. The tokens of the line stay the same unless the last one
before the comment runs on. -/

namespace Marginalia.Patch

open Marginalia.Text

/-- A place with code after it on its line, which goes from one offset to another. -/
structure Inline (text : List Char) (place : Place) (start stop : Nat) : Prop where
  lineStart : LineStart text start
  lineEnd : LineEnd text stop
  le_start : start ≤ place.start
  stop_le : place.stop ≤ stop
  front : AllBetween (· != '\n') text start place.start
  back : AllBetween (· != '\n') text place.stop stop
  code : ∃ c ∈ cells text, place.stop ≤ c.start ∧ c.start < stop ∧ Unicode.isBlank c.char = false

instance (text : List Char) (place : Place) (start stop : Nat) :
    Decidable (Inline text place start stop) :=
  decidable_of_iff (LineStart text start ∧ LineEnd text stop ∧ start ≤ place.start ∧
      place.stop ≤ stop ∧ AllBetween (· != '\n') text start place.start ∧
      AllBetween (· != '\n') text place.stop stop ∧ ∃ c ∈ cells text,
        place.stop ≤ c.start ∧ c.start < stop ∧ Unicode.isBlank c.char = false)
    ⟨fun ⟨h1, h2, h3, h4, h5, h6, h7⟩ => ⟨h1, h2, h3, h4, h5, h6, h7⟩,
      fun ⟨h1, h2, h3, h4, h5, h6, h7⟩ => ⟨h1, h2, h3, h4, h5, h6, h7⟩⟩

variable {α : Type} {text : List Char} {place : Place} {start stop : Nat}

theorem Inline.not_trailsTo (h : Inline text place start stop) (e : Nat) :
    ¬TrailsTo text place e := by
  intro htrail
  have hle : stop ≤ e := by
    rcases htrail.lineEnd with rfl | ⟨c, hc, hn, rfl⟩
    · exact le_size_of_isBoundary h.lineEnd.isBoundary
    · by_contra hlt
      have hother := h.back c hc htrail.stop_le (by omega)
      simp [hn] at hother
  obtain ⟨c, hc, h1, h2, hblank⟩ := h.code
  have hgap := isBlank_of_isTrail (htrail.trails c hc h1 (by omega))
  rw [hblank] at hgap
  contradiction

theorem widened_inline (hplace : place.Cuts text) (h : Inline text place start stop) :
    widened text place = place := by
  have hwidens := widens_widened hplace.start_boundary hplace.stop_boundary
  generalize widened text place = wide at hwidens
  cases hwidens with
  | alone _ htrail => exact absurd htrail (h.not_trailsTo _)
  | trailing _ _ _ _ htrail => exact absurd htrail (h.not_trailsTo _)
  | inline => rfl

theorem Solid.cuts (h : Solid text place) : place.Cuts text :=
  ⟨Nat.le_of_lt h.start_lt_stop, h.stop_le_size, h.start_boundary, h.stop_boundary⟩

theorem apply_lone_deletion (source fileId : String) {step : Step} (hd : step.deletes = true)
    (hcuts : step.place.Cuts source.toList) :
    apply source ⟨fileId, [step]⟩ = .ok (String.ofList
      (before source.toList step.place.start ++ after source.toList step.place.stop)) := by
  have hedits : editsOf source.toList [step] = .ok [⟨step.place, []⟩] := by
    rw [Step.deletes, beq_iff_eq] at hd
    refine editsOf_eq_ok_iff.2 ⟨?_, ?_, List.isChain_singleton _⟩
    · rw [List.forall_mem_singleton]
      exact ⟨by simp [hd], fun _ => hcuts⟩
    · simp [Step.edit?, hd]
  refine apply_eq_ok_iff.2 ⟨_, hedits, ?_⟩
  simp only [spliceFrom, slice, after_zero, Nat.sub_zero, List.append_nil]

/-- Of a comment that is deleted with code after it on its line, nothing else goes. -/
theorem planFor_inline {source fileId : String} {k : Judged α} {policy : Policy}
    {drift : List (Finding α)} (hown : k.comment.fileId = fileId)
    (hsolid : Solid source.toList k.comment.place)
    (hinline : Inline source.toList k.comment.place start stop)
    (hdelete : (decidedFor policy drift fileId k).deletes = true) :
    ∃ plan out, planFor policy fileId source [k] drift = .ok plan ∧ apply source plan = .ok out ∧
      out.toList = before source.toList start ++
        (slice source.toList start k.comment.start ++ slice source.toList k.comment.stop stop) ++
        after source.toList stop := by
  obtain ⟨step, rfl, hplan, -⟩ := planFor_lone hown hsolid policy drift
  have hplace : (widenStep source.toList (decidedFor policy drift fileId k)).place =
      k.comment.place := by
    rw [widenStep, if_pos hdelete]
    exact widened_inline hsolid.cuts hinline
  have hdeletes : (widenStep source.toList (decidedFor policy drift fileId k)).deletes = true := by
    rw [widenStep_deletes, hdelete]
  have happly := apply_lone_deletion source fileId hdeletes (hplace ▸ hsolid.cuts)
  refine ⟨_, _, hplan, happly, ?_⟩
  have hfront := before_append_slice hinline.lineStart.isBoundary hsolid.start_boundary
    hinline.le_start
  have hback := slice_append_after hsolid.stop_boundary hinline.lineEnd.isBoundary hinline.stop_le
  rw [String.toList_ofList, hplace, ← hfront, ← hback]
  simp only [List.append_assoc, Comment.place]

/-- Deleting a comment with code after it on its line joins what is before it to that code. The
tokens of the line are then those of its two parts exactly if the first part does not run on. -/
theorem tokens_inline_deletion_iff {source fileId : String} {k : Judged α}
    (hown : k.comment.fileId = fileId) (hsolid : Solid source.toList k.comment.place)
    (hinline : Inline source.toList k.comment.place start stop)
    (hquotes : AllBetween (fun c => !Code.isQuote c) source.toList start k.comment.start)
    {policy : Policy} {drift : List (Finding α)}
    (hdelete : (decidedFor policy drift fileId k).deletes = true) :
    ∃ plan out front back, planFor policy fileId source [k] drift = .ok plan ∧
      apply source plan = .ok out ∧
      front = slice source.toList start k.comment.start ∧
      back = slice source.toList k.comment.stop stop ∧
      out.toList = before source.toList start ++ (front ++ back) ++ after source.toList stop ∧
      (Code.tokens (String.ofList (front ++ back)) =
        Code.tokens (String.ofList front) ++ Code.tokens (String.ofList back) ↔
          ¬Code.RunsOn front back) := by
  obtain ⟨plan, out, hplan, happly, hout⟩ := planFor_inline hown hsolid hinline hdelete
  refine ⟨plan, out, _, _, hplan, happly, rfl, rfl, hout, ?_⟩
  have hfront : ∀ c ∈ slice source.toList start k.comment.start, Code.isQuote c = false := by
    have hall := (all_slice_iff hinline.lineStart.isBoundary hsolid.start_boundary
      hinline.le_start).2 hquotes
    intro c hc
    simpa using List.all_eq_true.1 hall c hc
  simp only [Code.tokens, String.toList_ofList]
  exact Code.tokensFrom_append_iff hfront

/-- A comment between a blank and a mark leaves the tokens as they are. -/
theorem tokens_kept_of_inline_deletion :
    Solid "a /* x */+ b;\n".toList (placed "a.js" 2 "/* x */" .filler []).comment.place ∧
    Inline "a /* x */+ b;\n".toList (placed "a.js" 2 "/* x */" .filler []).comment.place 0 13 ∧
    AllBetween (fun c => !Code.isQuote c) "a /* x */+ b;\n".toList 0 2 ∧
    (decidedFor deletingFillers [] "a.js" (placed "a.js" 2 "/* x */" .filler [])).deletes = true ∧
    ∃ plan out front back, planFor deletingFillers "a.js" "a /* x */+ b;\n"
        [placed "a.js" 2 "/* x */" .filler []] [] = .ok plan ∧
      apply "a /* x */+ b;\n" plan = .ok out ∧ front = "a ".toList ∧ back = "+ b;".toList ∧
      out = "a + b;\n" ∧
      (Code.tokens "a + b;" = Code.tokens "a " ++ Code.tokens "+ b;" ↔
        ¬Code.RunsOn front back) := by
  have hsolid : Solid "a /* x */+ b;\n".toList
      (placed "a.js" 2 "/* x */" .filler []).comment.place := by decide
  have hinline : Inline "a /* x */+ b;\n".toList
      (placed "a.js" 2 "/* x */" .filler []).comment.place 0 13 := by decide
  have hquotes : AllBetween (fun c => !Code.isQuote c) "a /* x */+ b;\n".toList 0 2 := by decide
  have hdelete : (decidedFor deletingFillers [] "a.js"
      (placed "a.js" 2 "/* x */" .filler [])).deletes = true := by decide
  refine ⟨hsolid, hinline, hquotes, hdelete, ?_⟩
  obtain ⟨plan, out, front, back, hplan, happly, hfront, hback, hout, hiff⟩ :=
    tokens_inline_deletion_iff rfl hsolid hinline hquotes hdelete
  refine ⟨plan, out, front, back, hplan, happly, hfront, hback, ?_, ?_⟩
  · subst hfront hback
    exact String.toList_injective hout
  · subst hfront hback
    exact hiff

/-- The keyword before the comment and the number after it become one word. -/
theorem return_fused_by_inline_deletion :
    Solid "return/* x */1;\n".toList (placed "a.js" 6 "/* x */" .filler []).comment.place ∧
    Inline "return/* x */1;\n".toList (placed "a.js" 6 "/* x */" .filler []).comment.place 0 15 ∧
    AllBetween (fun c => !Code.isQuote c) "return/* x */1;\n".toList 0 15 ∧
    (decidedFor deletingFillers [] "a.js" (placed "a.js" 6 "/* x */" .filler [])).deletes = true ∧
    ∃ plan, planFor deletingFillers "a.js" "return/* x */1;\n"
        [placed "a.js" 6 "/* x */" .filler []] [] = .ok plan ∧
      apply "return/* x */1;\n" plan = .ok "return1;\n" ∧
      Code.tokens "return1;" ≠ Code.tokens "return" ++ Code.tokens "1;" := by
  have hsolid : Solid "return/* x */1;\n".toList
      (placed "a.js" 6 "/* x */" .filler []).comment.place := by decide
  have hinline : Inline "return/* x */1;\n".toList
      (placed "a.js" 6 "/* x */" .filler []).comment.place 0 15 := by decide
  have hdelete : (decidedFor deletingFillers [] "a.js"
      (placed "a.js" 6 "/* x */" .filler [])).deletes = true := by decide
  refine ⟨hsolid, hinline, by decide, hdelete, ?_⟩
  obtain ⟨plan, out, hplan, happly, hout⟩ := planFor_inline rfl hsolid hinline hdelete
  obtain rfl : out = "return1;\n" := String.toList_injective hout
  exact ⟨plan, hplan, happly, by decide⟩

end Marginalia.Patch
