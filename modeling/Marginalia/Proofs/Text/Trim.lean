import Marginalia.Proofs.Code.Layout
import Marginalia.Text.Trim

/-! Blanks at the ends of a text play no part in what is left of it when it is trimmed. -/

namespace Marginalia.Text

open Marginalia.Code Marginalia.Unicode

variable {blanks text : List Char} {c : Char}

theorem trimStart_blanks_append (h : Blanks blanks) (text : List Char) :
    trimStart (blanks ++ text) = trimStart text :=
  List.dropWhile_append_of_pos h

theorem trimStart_cons (h : isBlank c = false) (text : List Char) :
    trimStart (c :: text) = c :: text :=
  List.dropWhile_cons_of_neg (by simp [h])

theorem trimStart_of_blanks (h : Blanks blanks) : trimStart blanks = [] := by
  have hstart := trimStart_blanks_append h []
  rwa [List.append_nil] at hstart

theorem trimEnd_append_of_blanks (h : Blanks blanks) (text : List Char) :
    trimEnd (text ++ blanks) = trimEnd text := by
  have hreverse : ∀ c ∈ blanks.reverse, isBlank c = true := fun c hc => h c (List.mem_reverse.1 hc)
  rw [trimEnd, List.reverse_append, List.dropWhile_append_of_pos hreverse, trimEnd]

theorem trimEnd_concat (h : isBlank c = false) (text : List Char) :
    trimEnd (text ++ [c]) = text ++ [c] := by
  rw [trimEnd, List.reverse_concat, List.dropWhile_cons_of_neg (by simp [h])]
  simp

theorem trimEnd_cons (h : isBlank c = false) (text : List Char) :
    trimEnd (c :: text) = c :: trimEnd text := by
  rw [trimEnd, List.reverse_cons, List.dropWhile_append]
  split
  · next hnil =>
    rw [List.isEmpty_iff] at hnil
    rw [List.dropWhile_cons_of_neg (by simp [h]), trimEnd, hnil]
    rfl
  · rw [List.reverse_append, trimEnd]
    rfl

/-- What is cut off the end of a text are blanks, and what is left does not end with one. -/
theorem exists_trimEnd_append (text : List Char) :
    ∃ back, Blanks back ∧ trimEnd text ++ back = text ∧
      ∀ c ∈ (trimEnd text).getLast?, isBlank c = false := by
  refine ⟨(text.reverse.takeWhile isBlank).reverse, fun c hc => ?_, ?_, fun c hc => ?_⟩
  · exact List.all_eq_true.1 List.all_takeWhile c (List.mem_reverse.1 hc)
  · rw [trimEnd, ← List.reverse_append, List.takeWhile_append_dropWhile, List.reverse_reverse]
  · rw [trimEnd, List.getLast?_reverse] at hc
    exact eq_false_of_mem_head?_dropWhile hc

/-- A text is what is left of it between blanks. -/
theorem exists_trim_between (text : List Char) :
    ∃ front back, Blanks front ∧ Blanks back ∧ front ++ trim text ++ back = text := by
  obtain ⟨back, hback, hstart, -⟩ := exists_trimEnd_append (trimStart text)
  refine ⟨text.takeWhile isBlank, back, List.all_eq_true.1 List.all_takeWhile, hback, ?_⟩
  rw [trim, List.append_assoc, hstart, trimStart, List.takeWhile_append_dropWhile]

theorem trim_blanks_append (h : Blanks blanks) (text : List Char) :
    trim (blanks ++ text) = trim text := by
  rw [trim, trimStart_blanks_append h, trim]

theorem trim_append_blanks (h : Blanks blanks) (text : List Char) :
    trim (text ++ blanks) = trim text := by
  rw [trim, trim, trimStart, List.dropWhile_append, ← trimStart]
  split
  · next hnil =>
    rw [List.isEmpty_iff] at hnil
    rw [← trimStart, trimStart_of_blanks h, hnil]
  · exact trimEnd_append_of_blanks h _

theorem trim_of_blanks (h : Blanks blanks) : trim blanks = [] := by
  rw [trim, trimStart_of_blanks h]
  rfl

theorem trim_cons (h : isBlank c = false) (text : List Char) :
    trim (c :: text) = c :: trimEnd text := by
  rw [trim, trimStart_cons h, trimEnd_cons h]

theorem trim_trimEnd (text : List Char) : trim (trimEnd text) = trim text := by
  obtain ⟨back, hback, htext, -⟩ := exists_trimEnd_append text
  conv_rhs => rw [← htext, trim_append_blanks hback]

/-- Nothing goes of a text that neither begins nor ends with a blank. -/
theorem trim_of_ends {last : Char} (h : isBlank c = false) (hlast : isBlank last = false)
    (text : List Char) : trim (c :: text ++ [last]) = c :: text ++ [last] := by
  rw [trim, List.cons_append, trimStart_cons h, ← List.cons_append, trimEnd_concat hlast]

theorem trim_eq_nil_iff : trim text = [] ↔ Blanks text := by
  refine ⟨fun h => ?_, trim_of_blanks⟩
  obtain ⟨front, back, hfront, hback, htext⟩ := exists_trim_between text
  rw [h, List.append_nil] at htext
  rw [← htext]
  exact List.forall_mem_append.2 ⟨hfront, hback⟩

end Marginalia.Text
