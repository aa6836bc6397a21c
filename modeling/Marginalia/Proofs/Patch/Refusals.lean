import Marginalia.Proofs.Patch.Decisions

/-! When planning fails. A comment that ends beyond the text is refused, the first one first; then two
comments that overlap. Checking neighbours is enough to find them, and neither widening nor joining
brings an overlap or cuts a character. -/

namespace Marginalia.Patch

open Marginalia.Text

variable {α : Type} {policy : Policy} {drift : List (Finding α)} {fileId source : String}
  {comments : List (Judged α)} {text : List Char} {steps : List Step}

/-- The comment that is refused: it ends beyond the text, and none that does comes before it. -/
structure FirstBeyond (text : List Char) (comments : List (Judged α)) (k : Judged α) : Prop where
  mem : k ∈ comments
  beyond : size text < k.comment.stop
  least : ∀ k' ∈ comments, size text < k'.comment.stop →
    k.comment.start < k'.comment.start ∨
      k.comment.start = k'.comment.start ∧ k.comment.stop ≤ k'.comment.stop

/-- Two of the comments overlap. -/
structure Clash (comments : List (Judged α)) (a b : Judged α) : Prop where
  two : List.Subperm [a, b] comments
  overlaps : a.comment.place.overlaps b.comment.place = true

/-! ### Neighbours -/

/-- When no step begins before its neighbour ends, none begins before any earlier one ends. -/
theorem ascending_of_ensureDisjoint (h : ensureDisjoint fileId steps = .ok ())
    (hfilled : ∀ s ∈ steps, s.place.start < s.place.stop) : Ascending steps := by
  induction steps with
  | nil => exact List.Pairwise.nil
  | cons a rest ih =>
    cases rest with
    | nil => exact List.pairwise_singleton _ _
    | cons b rest =>
      rw [ensureDisjoint] at h
      split at h
      · cases h
      · next hle =>
        have hrest := ih h fun s hs => hfilled s (List.mem_cons_of_mem a hs)
        refine List.pairwise_cons.2 ⟨fun c hc => ?_, hrest⟩
        have hb := hfilled b (by simp)
        rcases List.mem_cons.1 hc with rfl | hc
        · omega
        · have := (List.pairwise_cons.1 hrest).1 c hc
          omega

theorem exists_of_ensureDisjoint {fault : Fault} (h : ensureDisjoint fileId steps = .error fault) :
    ∃ a b, List.Sublist [a, b] steps ∧ b.place.start < a.place.stop ∧
      fault = .overlappingActions { a.place with fileId := fileId } b.place := by
  induction steps with
  | nil => cases h
  | cons a rest ih =>
    cases rest with
    | nil => cases h
    | cons b rest =>
      rw [ensureDisjoint] at h
      split at h
      · next hlt =>
        cases h
        exact ⟨a, b, by simp, hlt, rfl⟩
      · obtain ⟨x, y, hsub, hxy⟩ := ih h
        exact ⟨x, y, hsub.cons a, hxy⟩

/-! ### Comments -/

theorem mem_ofFile {k : Judged α} :
    k ∈ ofFile fileId comments ↔ k ∈ comments ∧ k.comment.fileId = fileId := by
  rw [ofFile, List.mem_filter, beq_iff_eq]

theorem ownComments_perm_ofFile (fileId : String) (comments : List (Judged α)) :
    (ownComments fileId comments).Perm (ofFile fileId comments) :=
  List.mergeSort_perm _ _

theorem apart_iff {a b : Place} (hfile : a.fileId = b.fileId) :
    a.Apart b ↔ a.overlaps b = false := by
  rw [Place.overlaps, hfile, beq_self_eq_true, Bool.true_and, ← Bool.not_eq_true, Bool.and_eq_true,
    decide_eq_true_eq, decide_eq_true_eq, Place.Apart]
  omega

/-- No two of the comments overlap when they are pairwise apart, in whatever order. -/
theorem not_clash_of_apart (hown : ∀ k ∈ comments, k.comment.fileId = fileId)
    (hapart : comments.Pairwise fun a b => a.comment.place.Apart b.comment.place)
    (a b : Judged α) : ¬Clash comments a b := by
  rintro ⟨⟨l, hperm, hsub⟩, hoverlaps⟩
  have hab : [a, b].Pairwise fun a b => a.comment.place.Apart b.comment.place :=
    hperm.pairwise (hapart.sublist hsub) fun h => h.symm
  have hfile : ∀ k ∈ [a, b], k.comment.fileId = fileId := fun k hk =>
    hown k (hsub.subset (hperm.mem_iff.2 hk))
  have hsame : a.comment.place.fileId = b.comment.place.fileId :=
    (hfile a (by simp)).trans (hfile b (by simp)).symm
  rw [List.pairwise_pair, apart_iff hsame, hoverlaps] at hab
  cases hab

/-! ### Planning -/

theorem planFor_of_beyond (policy : Policy) (drift : List (Finding α))
    (h : ∃ k ∈ ofFile fileId comments, size source.toList < k.comment.stop) :
    ∃ k, FirstBeyond source.toList (ofFile fileId comments) k ∧
      planFor policy fileId source comments drift = .error (.invalidSpan k.comment.place) := by
  have hperm := ownComments_perm_ofFile fileId comments
  -- The first comment in order that ends beyond the text, and what stands before and after it.
  obtain ⟨k, hfind⟩ : ∃ k, (ownComments fileId comments).find?
      (fun k => size source.toList < k.comment.stop) = some k := by
    obtain ⟨k, hk, hbeyond⟩ := h
    rw [← Option.isSome_iff_exists, List.find?_isSome]
    exact ⟨k, hperm.mem_iff.2 hk, decide_eq_true hbeyond⟩
  obtain ⟨hbeyond, front, back, hsplit, hfront⟩ := List.find?_eq_some_iff_append.1 hfind
  rw [decide_eq_true_eq] at hbeyond
  have hwithin : ∀ k' ∈ front, k'.comment.stop ≤ size source.toList := fun k' hk' => by
    simpa using hfront k' hk'
  refine ⟨k, ⟨?_, hbeyond, fun k' hk' hbeyond' => ?_⟩, ?_⟩
  · rw [← hperm.mem_iff, hsplit]
    simp
  · rw [← hperm.mem_iff, hsplit, List.mem_append, List.mem_cons] at hk'
    have hsorted := ownComments_sorted fileId comments
    rw [hsplit] at hsorted
    have hback := (List.pairwise_cons.1 (List.pairwise_append.1 hsorted).2.1).1
    rcases hk' with hk' | rfl | hk'
    · exact absurd hbeyond' (Nat.not_lt.2 (hwithin k' hk'))
    · exact .inr ⟨rfl, Nat.le_refl _⟩
    · exact hback k' hk'
  · have hrefuse : decideWithin policy drift fileId (size source.toList) k =
        .error (.invalidSpan k.comment.place) := if_pos hbeyond
    rw [planFor, hsplit]
    simp only [List.mapM_append, List.mapM_cons, mapM_decideWithin policy drift fileId hwithin,
      hrefuse]
    rfl

/-- The first pair of steps in the way of each other stands for comments that overlap. -/
theorem exists_clash_of_ensureDisjoint (policy : Policy) (drift : List (Finding α)) {fault : Fault}
    (hfilled : ∀ k ∈ ofFile fileId comments, k.comment.start < k.comment.stop)
    (hcheck : ensureDisjoint fileId
      (decided policy drift fileId (ownComments fileId comments)) = .error fault) :
    ∃ a b, Clash (ofFile fileId comments) a b ∧
      fault = .overlappingActions a.comment.place b.comment.place := by
  have hperm := ownComments_perm_ofFile fileId comments
  obtain ⟨x, y, hsub, hlt, rfl⟩ := exists_of_ensureDisjoint hcheck
  obtain ⟨l, hl, hxy⟩ := List.sublist_map_iff.1 hsub
  obtain ⟨a, b, rfl⟩ : ∃ a b, l = [a, b] := by
    have := congrArg List.length hxy
    rw [List.length_map] at this
    exact List.length_eq_two.1 this.symm
  rw [List.map_cons, List.map_singleton, List.cons.injEq, List.cons.injEq] at hxy
  obtain ⟨rfl, rfl, -⟩ := hxy
  simp only [decidedFor_place] at hlt ⊢
  have hmem : ∀ k ∈ [a, b], k ∈ ofFile fileId comments := fun k hk =>
    hperm.mem_iff.1 (hl.subset hk)
  have ha : a.comment.fileId = fileId := (mem_ofFile.1 (hmem a (by simp))).2
  have hb : b.comment.fileId = fileId := (mem_ofFile.1 (hmem b (by simp))).2
  have hlong := hfilled b (hmem b (by simp))
  have hsorted := List.pairwise_pair.1 ((ownComments_sorted fileId comments).sublist hl)
  have hstart : a.comment.start < b.comment.stop := by omega
  refine ⟨a, b, ⟨hl.subperm.trans hperm.subperm, ?_⟩, ?_⟩
  · rw [Place.overlaps, Bool.and_eq_true, Bool.and_eq_true, beq_iff_eq, decide_eq_true_eq,
      decide_eq_true_eq]
    exact ⟨⟨ha.trans hb.symm, hstart⟩, hlt⟩
  · rw [← ha]
    rfl

/-- When no comment ends beyond the text, either two of them overlap and planning names such a pair,
or they are apart and there is a plan. -/
theorem planFor_of_within (policy : Policy) (drift : List (Finding α))
    (hwithin : ∀ k ∈ ofFile fileId comments, k.comment.stop ≤ size source.toList)
    (hsolid : ∀ k ∈ ofFile fileId comments, Solid source.toList k.comment.place) :
    ((∃ plan, planFor policy fileId source comments drift = .ok plan) ∧
        ∀ a b, ¬Clash (ofFile fileId comments) a b) ∨
      ∃ a b, Clash (ofFile fileId comments) a b ∧
        planFor policy fileId source comments drift =
          .error (.overlappingActions a.comment.place b.comment.place) := by
  have hperm := ownComments_perm_ofFile fileId comments
  have hown : ∀ k ∈ ofFile fileId comments, k.comment.fileId = fileId := fun k hk =>
    (mem_ofFile.1 hk).2
  have hdecide := mapM_decideWithin policy drift fileId
    fun k hk => hwithin k (hperm.mem_iff.1 hk)
  cases hcheck : ensureDisjoint fileId
      (decided policy drift fileId (ownComments fileId comments)) with
  | ok =>
    left
    have hasc := ascending_of_ensureDisjoint hcheck
      (List.forall_mem_map.2 fun k hk => (hsolid k (hperm.mem_iff.1 hk)).start_lt_stop)
    have hapart : (ofFile fileId comments).Pairwise
        fun a b => a.comment.place.Apart b.comment.place :=
      hperm.pairwise ((List.pairwise_map.1 hasc).imp fun h => .inl h) fun h => h.symm
    obtain ⟨merged, hplan, -, -⟩ := exists_carries ⟨hown, hsolid, hapart⟩ policy drift
    rw [planFor_ofFile] at hplan
    exact ⟨⟨_, hplan⟩, not_clash_of_apart hown hapart⟩
  | error fault =>
    right
    obtain ⟨a, b, hclash, rfl⟩ := exists_clash_of_ensureDisjoint policy drift
      (fun k hk => (hsolid k hk).start_lt_stop) hcheck
    refine ⟨a, b, hclash, ?_⟩
    rw [planFor, hdecide]
    simp only [bind, Except.bind, hcheck]

theorem FirstBeyond.place_eq {k k' : Judged α} (h : FirstBeyond text (ofFile fileId comments) k)
    (h' : FirstBeyond text (ofFile fileId comments) k') : k.comment.place = k'.comment.place := by
  have hfile := (mem_ofFile.1 h.mem).2.trans (mem_ofFile.1 h'.mem).2.symm
  have hle := h.least k' h'.mem h'.beyond
  have hge := h'.least k h.mem h.beyond
  rw [Comment.place, Comment.place, Place.mk.injEq]
  exact ⟨hfile, by omega, by omega⟩

/-- Planning for comments, of which those that end within the text are found in it, fails exactly on
bad places: the first comment that ends beyond the text is refused, and else two that overlap. It fails
in no other way. -/
theorem planFor_fails_iff (hsolid : ∀ k ∈ ofFile fileId comments,
      k.comment.stop ≤ size source.toList → Solid source.toList k.comment.place)
    (policy : Policy) (drift : List (Finding α)) :
    (∀ p, planFor policy fileId source comments drift = .error (.invalidSpan p) ↔
      ∃ k, FirstBeyond source.toList (ofFile fileId comments) k ∧ k.comment.place = p) ∧
    ((∃ p q, planFor policy fileId source comments drift = .error (.overlappingActions p q)) ↔
      (∀ k ∈ ofFile fileId comments, k.comment.stop ≤ size source.toList) ∧
        ∃ a b, Clash (ofFile fileId comments) a b) ∧
    ((∃ plan, planFor policy fileId source comments drift = .ok plan) ↔
      (∀ k ∈ ofFile fileId comments, k.comment.stop ≤ size source.toList) ∧
        ¬∃ a b, Clash (ofFile fileId comments) a b) ∧
    ∀ fault, planFor policy fileId source comments drift = .error fault →
      (∃ p, fault = .invalidSpan p) ∨ ∃ a b, Clash (ofFile fileId comments) a b ∧
        fault = .overlappingActions a.comment.place b.comment.place := by
  by_cases hwithin : ∀ k ∈ ofFile fileId comments, k.comment.stop ≤ size source.toList
  · have hnone : ∀ k, ¬FirstBeyond source.toList (ofFile fileId comments) k := fun k hk =>
      absurd hk.beyond (Nat.not_lt.2 (hwithin k hk.mem))
    rcases planFor_of_within policy drift hwithin fun k hk => hsolid k hk (hwithin k hk) with
      ⟨⟨plan, hplan⟩, hapart⟩ | ⟨a, b, hclash, herror⟩
    · have hapart : ¬∃ a b, Clash (ofFile fileId comments) a b := fun ⟨a, b, h⟩ => hapart a b h
      rw [hplan]
      refine ⟨fun p => ?_, ?_, ?_, nofun⟩
      · exact iff_of_false nofun fun ⟨k, hk, _⟩ => hnone k hk
      · exact iff_of_false nofun fun h => hapart h.2
      · exact iff_of_true ⟨plan, rfl⟩ ⟨hwithin, hapart⟩
    · rw [herror]
      refine ⟨fun p => ?_, ?_, ?_, fun fault hfault => ?_⟩
      · exact iff_of_false nofun fun ⟨k, hk, _⟩ => hnone k hk
      · exact iff_of_true ⟨_, _, rfl⟩ ⟨hwithin, a, b, hclash⟩
      · exact iff_of_false nofun fun h => h.2 ⟨a, b, hclash⟩
      · exact .inr ⟨a, b, hclash, (Except.error.inj hfault).symm⟩
  · have hbeyond : ∃ k ∈ ofFile fileId comments, size source.toList < k.comment.stop := by
      simpa using hwithin
    obtain ⟨k, hk, herror⟩ := planFor_of_beyond policy drift hbeyond
    rw [herror]
    refine ⟨fun p => ?_, ?_, ?_, fun fault hfault => ?_⟩
    · rw [Except.error.injEq, Fault.invalidSpan.injEq]
      exact ⟨fun h => ⟨k, hk, h⟩, fun ⟨k', hk', h⟩ => (hk.place_eq hk').trans h⟩
    · exact iff_of_false nofun fun h => hwithin h.1
    · exact iff_of_false nofun fun h => hwithin h.1
    · exact .inl ⟨_, (Except.error.inj hfault).symm⟩

/-- Of two comments of which one begins in the other planning names both, unless a third one ends
beyond the text. -/
theorem planFor_fails_of_overlap :
    (∃ p q, planFor ⟨true, true, true, true, true, true, true⟩ "a.js" "// a"
      [placed "a.js" 1 "/ a" .filler [], placed "a.js" 0 "// a" .filler []] [] =
        .error (.overlappingActions p q)) ∧
    planFor ⟨true, true, true, true, true, true, true⟩ "a.js" "// a"
      [placed "a.js" 3 "a b" .filler [], placed "a.js" 1 "/ a" .filler [],
        placed "a.js" 0 "// a" .filler []] [] = .error (.invalidSpan ⟨"a.js", 3, 6⟩) := by
  have hoverlap : ∀ k ∈ ofFile "a.js"
      [placed "a.js" 1 "/ a" .filler [], placed "a.js" 0 "// a" .filler []],
      k.comment.stop ≤ size "// a".toList → Solid "// a".toList k.comment.place := by decide
  have hbeyond : ∀ k ∈ ofFile "a.js" [placed "a.js" 3 "a b" .filler [],
      placed "a.js" 1 "/ a" .filler [], placed "a.js" 0 "// a" .filler []],
      k.comment.stop ≤ size "// a".toList → Solid "// a".toList k.comment.place := by decide
  constructor
  · refine (planFor_fails_iff hoverlap ⟨true, true, true, true, true, true, true⟩ []).2.1.2
      ⟨by decide, _, _, List.Subperm.refl _, by decide⟩
  · refine ((planFor_fails_iff hbeyond ⟨true, true, true, true, true, true, true⟩ []).1 _).2
      ⟨placed "a.js" 3 "a b" .filler [], ⟨List.mem_cons_self, by decide, by decide⟩, rfl⟩

end Marginalia.Patch
