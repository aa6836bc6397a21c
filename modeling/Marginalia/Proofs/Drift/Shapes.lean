import Marginalia.Proofs.Code.Shape
import Marginalia.Proofs.Drift.Buckets

/-! Buckets and shapes. The text that decides the bucket of a line is equal for two lines exactly where
their tokens are alike one by one, up to the spelling of names. -/

namespace Marginalia.Drift

open Marginalia.Code

variable {α : Type} {code other : String}

theorem separable_shape (code : String) : ∀ form ∈ shape (normalTokens code), Separable form := by
  intro form hform
  rw [shape, normalTokens, List.map_map] at hform
  obtain ⟨token, htoken, rfl⟩ := List.mem_map.1 hform
  exact separable_shapeForm (separable_normalForm (spelled_of_mem_tokens token htoken))

theorem shape_eq_iff : shape (normalTokens code) = shape (normalTokens other) ↔
    List.Forall₂ SameShape (tokens code) (tokens other) := by
  have hmaps : shape (normalTokens code) = shape (normalTokens other) ↔
      List.Forall₂ (fun t u => shapeForm (normalForm t) = shapeForm (normalForm u))
        (tokens code) (tokens other) := by
    rw [shape, shape, normalTokens, normalTokens, List.map_map, List.map_map,
      ← List.forall₂_eq_eq_eq, List.forall₂_map_left_iff, List.forall₂_map_right_iff]
    rfl
  have hspelled {t u : Token} (ht : t ∈ tokens code) (hu : u ∈ tokens other) :=
    shapeForm_eq_iff (spelled_of_mem_tokens t ht) (spelled_of_mem_tokens u hu)
  rw [hmaps]
  constructor
  · intro h
    exact (forall₂_mem h).imp fun t u hforms => (hspelled hforms.2.1 hforms.2.2).1 hforms.1
  · intro h
    exact (forall₂_mem h).imp fun t u hsame => (hspelled hsame.2.1 hsame.2.2).2 hsame.1

theorem bucketText_eq_iff : bucketText (normalTokens code) = bucketText (normalTokens other) ↔
    List.Forall₂ SameShape (tokens code) (tokens other) := by
  rw [← shape_eq_iff]
  exact ⟨intercalate_injective (separable_shape code) (separable_shape other), congrArg _⟩

/-- The bucket is read off the text. -/
theorem bucket?_congr {judged other : Judged α}
    (h : List.Forall₂ SameShape (tokens judged.comment.code) (tokens other.comment.code)) :
    bucket? judged = bucket? other := by
  have hempty : (normalTokens judged.comment.code).isEmpty =
      (normalTokens other.comment.code).isEmpty := by
    rw [Bool.eq_iff_iff, List.isEmpty_iff_length_eq_zero, List.isEmpty_iff_length_eq_zero,
      normalTokens, normalTokens, List.length_map, List.length_map, h.length_eq]
  rw [bucket?, bucket?, hempty, bucketText_eq_iff.2 h]

/-- The text of a bucket is its shape and nothing else: two codes have one text exactly where they
have as many tokens and each two of them are names or have one normal form. Other names, other
literals and another layout leave a comment in its bucket, and a shape is its own shape. -/
theorem bucket_tells_shapes :
    (∀ code other : String, bucketText (normalTokens code) = bucketText (normalTokens other) ↔
      (tokens code).length = (tokens other).length ∧
        ∀ (i : Nat) (h : i < (tokens code).length) (h' : i < (tokens other).length),
          (tokens code)[i].isName = true ∧ (tokens other)[i].isName = true ∨
            normalForm (tokens code)[i] = normalForm (tokens other)[i]) ∧
    (∀ judged other : Judged α,
      List.Forall₂ Renamed (tokens judged.comment.code) (tokens other.comment.code) →
        bucket? judged = bucket? other) ∧
    (∀ judged other : Judged α,
      Relaid judged.comment.code.toList other.comment.code.toList →
        bucket? judged = bucket? other) ∧
    ∀ forms : List String, shape (shape forms) = shape forms := by
  refine ⟨fun code other => ?_, fun judged other h => ?_, fun judged other h => ?_, shape_shape⟩
  · rw [bucketText_eq_iff, List.forall₂_iff_get]
    rfl
  · exact bucket?_congr (h.imp fun _ _ => Renamed.sameShape)
  · refine bucket?_congr ?_
    rw [tokens, tokens, tokensFrom_relaid h]
    exact List.forall₂_same.2 fun _ _ => .inr rfl

/-- A comment on a line of code. -/
def onLine (code : String) : Judged Rat where
  comment :=
    { fileId := "a.js", start := 0, stop := 4, line := 1, style := .line, raw := "// x"
      code := code, anchor := 5, block := "", blockStart := 0 }
  verdict := { category := .informative, confidence := 1, evidence := [], typos := [] }

/-- A condition with other names, another number, another text and another truth value, and the same
condition with blanks at other places. -/
theorem bucket_of_renamed_condition :
    bucket? (onLine "if(total >10) done('x', true)") =
        bucket? (onLine "if(sum_1 >2.5) go2(\"\", False)") ∧
      bucket? (onLine "if(total >10) done('x', true)") =
        bucket? (onLine "if (total\t>10) done('x', true)") := by
  have htokens : tokens "if(total >10) done('x', true)" = [.word "if", .mark '(', .word "total",
      .mark '>', .number, .mark ')', .word "done", .mark '(', .quoted, .mark ',', .word "true",
      .mark ')'] := by decide +kernel
  have hother : tokens "if(sum_1 >2.5) go2(\"\", False)" = [.word "if", .mark '(', .word "sum_1",
      .mark '>', .number, .mark ')', .word "go2", .mark '(', .quoted, .mark ',', .word "False",
      .mark ')'] := by decide +kernel
  have hrenamed : List.Forall₂ Renamed (tokens "if(total >10) done('x', true)")
      (tokens "if(sum_1 >2.5) go2(\"\", False)") := by
    rw [htokens, hother]
    have hlead : Renamed (.word "total") (.word "sum_1") :=
      .name (by decide +kernel) (by decide +kernel)
    have hcall : Renamed (.word "done") (.word "go2") :=
      .name (by decide +kernel) (by decide +kernel)
    have htruth : Renamed (.word "true") (.word "False") := .truthValue (by decide) (by decide)
    exact .cons (.same _) (.cons (.same _) (.cons hlead (.cons (.same _) (.cons (.same _)
      (.cons (.same _) (.cons hcall (.cons (.same _) (.cons (.same _) (.cons (.same _)
        (.cons htruth (.cons (.same _) .nil)))))))))))
  have hspace : Code.Blanks [' '] := by decide
  have htab : Code.Blanks ['\t'] := by decide
  have hends : ∀ c ∈ "(total >10) done('x', true)".toList.head?,
      (Code.Inside.after .gap "if".toList).continuesWith c = false := by
    intro c hc
    obtain rfl : '(' = c := Option.some.inj hc
    decide +kernel
  have hrelaid : Relaid "if(total >10) done('x', true)".toList
      "if (total\t>10) done('x', true)".toList :=
    .trans (.spread "if".toList "(total >10) done('x', true)".toList hspace hends)
      (.blanks "if (total".toList ">10) done('x', true)".toList hspace (by decide) htab (by decide))
  exact ⟨bucket_tells_shapes.2.1 (onLine _) (onLine _) hrenamed,
    bucket_tells_shapes.2.2.1 (onLine _) (onLine _) hrelaid⟩

end Marginalia.Drift
