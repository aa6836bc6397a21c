import Marginalia.Proofs.Extraction.Lines
import Marginalia.Proofs.Extraction.Trees

/-! The code around comments as characters of the text: those of a range that stand in no comment,
without the blanks at its ends. Lines and the blocks of a sound tree are cut at boundaries, so what is
read as the code of a comment holds no character of any comment. -/

namespace Marginalia.Extraction

open Marginalia.Syntax Marginalia.Text Marginalia.Patch

/-- Whether an offset is in one of some ranges. -/
def Within (ranges : List (Nat × Nat)) (offset : Nat) : Prop :=
  ∃ r ∈ ranges, r.1 ≤ offset ∧ offset < r.2

instance (ranges : List (Nat × Nat)) (offset : Nat) : Decidable (Within ranges offset) :=
  inferInstanceAs (Decidable (∃ r ∈ ranges, r.1 ≤ offset ∧ offset < r.2))

/-- The characters of a range that stand in none of the given ranges. -/
def cellsOutside (text : List Char) (ranges : List (Nat × Nat)) (start stop : Nat) : List Cell :=
  (cellsIn text start stop).filter fun c => ¬Within ranges c.start

/-- The text of those characters, without the blanks at its ends. -/
def codeOutside (text : List Char) (ranges : List (Nat × Nat)) (start stop : Nat) : List Char :=
  trim ((cellsOutside text ranges start stop).map Cell.char)

/-- Ranges that are pieces of the text and ascend. -/
structure Cut (text : List Char) (ranges : List (Nat × Nat)) : Prop where
  lt : ∀ r ∈ ranges, r.1 < r.2
  boundary : ∀ r ∈ ranges, isBoundary text r.1 = true ∧ isBoundary text r.2 = true
  ascending : ranges.Pairwise fun a b => a.2 ≤ b.1

variable {text : List Char} {conventions : Conventions} {ranges : List (Nat × Nat)}

theorem Cut.tail {r : Nat × Nat} (h : Cut text (r :: ranges)) : Cut text ranges where
  lt := fun r' hr => h.lt r' (List.mem_cons_of_mem r hr)
  boundary := fun r' hr => h.boundary r' (List.mem_cons_of_mem r hr)
  ascending := (List.pairwise_cons.1 h.ascending).2

/-! ### Pieces of a range -/

theorem within_cons {r : Nat × Nat} {offset : Nat} : Within (r :: ranges) offset ↔
    (r.1 ≤ offset ∧ offset < r.2) ∨ Within ranges offset := by
  simp [Within]

theorem cellsIn_of_le {start stop : Nat} (h : stop ≤ start) : cellsIn text start stop = [] := by
  rw [cellsIn, List.filter_eq_nil_iff]
  intro c _
  simp
  omega

theorem cellsOutside_of_le {start stop : Nat} (h : stop ≤ start) :
    cellsOutside text ranges start stop = [] := by
  rw [cellsOutside, cellsIn_of_le h, List.filter_nil]

theorem cellsOutside_append {start middle stop : Nat} (h1 : start ≤ middle) (h2 : middle ≤ stop) :
    cellsOutside text ranges start middle ++ cellsOutside text ranges middle stop =
      cellsOutside text ranges start stop := by
  rw [cellsOutside, cellsOutside, cellsOutside, ← List.filter_append, cellsIn_append text h1 h2]

/-- A range that no given one reaches into is left whole. -/
theorem cellsOutside_eq_cellsIn {start stop : Nat}
    (h : ∀ r ∈ ranges, r.2 ≤ start ∨ stop ≤ r.1) :
    cellsOutside text ranges start stop = cellsIn text start stop := by
  rw [cellsOutside, List.filter_eq_self]
  intro c hc
  obtain ⟨-, hstart, hstop⟩ := mem_cellsIn.1 hc
  rw [decide_eq_true_eq]
  rintro ⟨r, hr, h1, h2⟩
  have := h r hr
  omega

/-- A given range that does not reach into a range plays no part in it. -/
theorem cellsOutside_cons_of_apart {r : Nat × Nat} {start stop : Nat}
    (h : r.2 ≤ start ∨ stop ≤ r.1) :
    cellsOutside text (r :: ranges) start stop = cellsOutside text ranges start stop := by
  rw [cellsOutside, cellsOutside]
  refine List.filter_congr fun c hc => ?_
  obtain ⟨-, hstart, hstop⟩ := mem_cellsIn.1 hc
  have hout : ¬(r.1 ≤ c.start ∧ c.start < r.2) := by omega
  rw [decide_eq_decide, within_cons, or_iff_right hout]

/-- Of a range inside of a given one nothing is left. -/
theorem cellsOutside_eq_nil {r : Nat × Nat} {start stop : Nat} (hr : r ∈ ranges)
    (hs : r.1 ≤ start) (he : stop ≤ r.2) : cellsOutside text ranges start stop = [] := by
  rw [cellsOutside, List.filter_eq_nil_iff]
  intro c hc
  obtain ⟨-, hstart, hstop⟩ := mem_cellsIn.1 hc
  simpa using ⟨r, hr, by omega, by omega⟩

theorem outside_of_le {cursor stop : Nat} (h : stop ≤ cursor) :
    outside text cursor stop ranges = [] := by
  induction ranges generalizing cursor with
  | nil => rw [outside, if_neg (by omega)]
  | cons r rest ih =>
    obtain ⟨a, b⟩ := r
    rw [outside]
    split
    · exact ih h
    · next hreach =>
      simp only [Bool.or_eq_true, decide_eq_true_eq] at hreach
      rw [if_neg (by omega), ih (by omega), List.append_nil]

/-- A range is cut where the first given one begins in it and where that one ends. -/
theorem cellsOutside_cons_of_reaches {a b cursor stop : Nat} (hnext : ∀ r ∈ ranges, b ≤ r.1)
    (hab : a < b) (hb : cursor < b) (ha : a < stop) (hle : cursor ≤ stop) :
    cellsOutside text ((a, b) :: ranges) cursor stop =
      cellsIn text cursor a ++ cellsOutside text ranges (min b stop) stop := by
  have hfront : cellsOutside text ((a, b) :: ranges) cursor (max cursor a) =
      cellsIn text cursor a := by
    rcases Nat.le_total a cursor with hac | hca
    · rw [Nat.max_eq_left hac, cellsOutside_of_le (Nat.le_refl _), cellsIn_of_le hac]
    · rw [Nat.max_eq_right hca, cellsOutside_eq_cellsIn]
      intro r hr
      rcases List.mem_cons.1 hr with rfl | hr
      · exact .inr (Nat.le_refl _)
      · have := hnext r hr
        omega
  have hmiddle : cellsOutside text ((a, b) :: ranges) (max cursor a) (min b stop) = [] :=
    cellsOutside_eq_nil List.mem_cons_self (Nat.le_max_right _ _) (Nat.min_le_left _ _)
  have hback : cellsOutside text ((a, b) :: ranges) (min b stop) stop =
      cellsOutside text ranges (min b stop) stop := by
    rcases Nat.le_total b stop with hbs | hsb
    · rw [Nat.min_eq_left hbs, cellsOutside_cons_of_apart (.inl (Nat.le_refl _))]
    · rw [Nat.min_eq_right hsb, cellsOutside_of_le (Nat.le_refl _),
        cellsOutside_of_le (Nat.le_refl _)]
  have h1 : cursor ≤ max cursor a := Nat.le_max_left _ _
  have h2 : max cursor a ≤ min b stop := by omega
  have h3 : min b stop ≤ stop := Nat.min_le_right _ _
  rw [← cellsOutside_append h1 (Nat.le_trans h2 h3), ← cellsOutside_append h2 h3, hfront, hmiddle,
    hback, List.nil_append]

/-- The pieces outside of ranges are the characters that stand in none of them. -/
theorem outside_eq (h : Cut text ranges) {cursor stop : Nat} (hc : isBoundary text cursor = true)
    (hs : isBoundary text stop = true) :
    outside text cursor stop ranges = (cellsOutside text ranges cursor stop).map Cell.char := by
  induction ranges generalizing cursor with
  | nil =>
    rw [outside]
    split
    · rw [cellsOutside_eq_cellsIn (by simp), map_char_cellsIn hc hs (by omega)]
    · rw [cellsOutside_of_le (by omega), List.map_nil]
  | cons r rest ih =>
    obtain ⟨a, b⟩ := r
    obtain ⟨hnext, -⟩ := List.pairwise_cons.1 h.ascending
    obtain ⟨ha, hb⟩ := h.boundary (a, b) List.mem_cons_self
    have hab : a < b := h.lt (a, b) List.mem_cons_self
    by_cases hempty : stop ≤ cursor
    · rw [outside_of_le hempty, cellsOutside_of_le hempty, List.map_nil]
    rw [outside]
    split
    · next hapart =>
      rw [ih h.tail hc, cellsOutside_cons_of_apart (by simpa using hapart)]
    · next hreach =>
      simp only [Bool.or_eq_true, decide_eq_true_eq] at hreach
      have hmax : max cursor (min b stop) = min b stop := by omega
      have hmin : isBoundary text (min b stop) = true := by
        rcases Nat.le_total b stop with hle | hle
        · rwa [Nat.min_eq_left hle]
        · rwa [Nat.min_eq_right hle]
      have hfront : (if cursor < a then slice text cursor a else []) =
          (cellsIn text cursor a).map Cell.char := by
        split
        · next hlt => rw [map_char_cellsIn hc ha (Nat.le_of_lt hlt)]
        · next hle => rw [cellsIn_of_le (by omega), List.map_nil]
      rw [hmax, ih h.tail hmin, hfront, ← List.map_append,
        cellsOutside_cons_of_reaches hnext hab (by omega) (by omega) (by omega)]

theorem codeBetween_eq (h : Cut text ranges) {start stop : Nat} (hs : isBoundary text start = true)
    (he : isBoundary text stop = true) :
    codeBetween text ranges start stop = codeOutside text ranges start stop := by
  rw [codeBetween, codeOutside, outside_eq h hs he]

/-! ### Lines -/

theorem exists_codeOfLine (h : Cut text ranges) (line : Nat) : ∃ stop,
    (codeOfLine text ranges line).1 =
      codeOutside text ranges (codeOfLine text ranges line).2 stop := by
  obtain ⟨hs, he⟩ := isBoundary_lineBounds text line
  exact ⟨(lineBounds text line).2, codeBetween_eq h hs he⟩

theorem codeOutside_of_le {start stop : Nat} (h : stop ≤ start) :
    codeOutside text ranges start stop = [] := by
  rw [codeOutside, cellsOutside_of_le h]
  rfl

theorem exists_nextCode (h : Cut text ranges) (line count : Nat) : ∃ stop,
    (nextCode text ranges line count).1 =
      codeOutside text ranges (nextCode text ranges line count).2 stop := by
  induction count generalizing line with
  | zero => exact ⟨size text, (codeOutside_of_le (Nat.le_refl _)).symm⟩
  | succ count ih =>
    simp only [nextCode]
    split
    · exact ih (line + 1)
    · exact exists_codeOfLine h line

/-- The line that a comment documents is read from where it begins, without comments. -/
theorem exists_documentedLine (h : Cut text ranges) {found : Found}
    (hfound : isBoundary text found.start = true) : ∃ stop,
    (documentedLine text ranges found).1 =
      codeOutside text ranges (documentedLine text ranges found).2 stop := by
  rw [documentedLine]
  split
  · exact exists_codeOfLine h _
  · simp only
    split
    · exact exists_nextCode h _ _
    · exact ⟨found.start, codeBetween_eq h (isBoundary_lineBounds text _).1 hfound⟩

/-! ### Blocks -/

/-- A node that is a piece of the text. -/
def Bounded (text : List Char) (tree : Tree) : Prop :=
  isBoundary text tree.start = true ∧ isBoundary text tree.stop = true

theorem Sound.bounded {ancestors : List Tree} {tree : Tree}
    (h : Sound text conventions ancestors tree) : Bounded text tree :=
  ⟨h.node.start_boundary, h.node.stop_boundary⟩

theorem bounded_headD {trees : List Tree} {tree : Tree} (h : ∀ t ∈ trees, Bounded text t)
    (htree : Bounded text tree) : Bounded text (trees.headD tree) := by
  cases trees with
  | nil => exact htree
  | cons first _ => exact h first List.mem_cons_self

theorem bounded_below {earlier later : List Tree} (hearlier : ∀ t ∈ earlier, Bounded text t)
    (hlater : ∀ t ∈ later, Bounded text t) {range : Nat × Nat}
    (h : neighbourhood.below earlier later = some range) :
    isBoundary text range.1 = true ∧ isBoundary text range.2 = true := by
  cases later with
  | nil => cases h
  | cons next rest =>
    rw [neighbourhood.below, Option.some.injEq] at h
    subst h
    have hnext := hlater next List.mem_cons_self
    exact ⟨(bounded_headD hearlier hnext).1,
      (bounded_headD (fun t ht => hlater t (List.mem_cons_of_mem next ht)) hnext).2⟩

theorem bounded_neighbourhood {tree : Tree} {position : Position} (htree : Bounded text tree)
    (hpreceding : ∀ t ∈ position.preceding, Bounded text t)
    (hfollowing : ∀ t ∈ position.following, Bounded text t) {range : Nat × Nat}
    (h : neighbourhood text conventions tree position = some range) :
    isBoundary text range.1 = true ∧ isBoundary text range.2 = true := by
  rw [neighbourhood] at h
  generalize hown : [tree].filter _ = own at h
  generalize hearlier : position.preceding.filter _ = earlier at h
  generalize hlater : position.following.filter _ = later at h
  have own_bounded : ∀ t ∈ own, Bounded text t := by
    intro t ht
    rw [← hown] at ht
    rw [List.mem_singleton.1 (List.mem_filter.1 ht).1]
    exact htree
  have earlier_bounded : ∀ t ∈ earlier, Bounded text t := fun t ht =>
    hpreceding t (List.mem_filter.1 (hearlier ▸ ht)).1
  have later_bounded : ∀ t ∈ later, Bounded text t := fun t ht =>
    hfollowing t (List.mem_filter.1 (hlater ▸ ht)).1
  have append_bounded : ∀ {a b : List Tree}, (∀ t ∈ a, Bounded text t) →
      (∀ t ∈ b, Bounded text t) → ∀ t ∈ a ++ b, Bounded text t := fun ha hb t ht =>
    (List.mem_append.1 ht).elim (ha t) (hb t)
  cases earlier with
  | nil => exact bounded_below own_bounded later_bounded h
  | cons previous rest =>
    simp only [List.head?_cons] at h
    split at h
    · rw [Option.some.injEq] at h
      subst h
      have hprevious := earlier_bounded previous List.mem_cons_self
      exact ⟨(bounded_headD (fun t ht => earlier_bounded t (List.mem_cons_of_mem previous ht))
          hprevious).1,
        (bounded_headD (append_bounded own_bounded later_bounded) hprevious).2⟩
    · exact bounded_below (append_bounded own_bounded earlier_bounded) later_bounded h

theorem bounded_contextOf {tree : Tree} {position : Position} (htree : Bounded text tree)
    (hancestors : ∀ t ∈ position.ancestors, Bounded text t)
    (hpreceding : ∀ t ∈ position.preceding, Bounded text t)
    (hfollowing : ∀ t ∈ position.following, Bounded text t) {range : Nat × Nat}
    (h : contextOf text conventions tree position = some range) :
    isBoundary text range.1 = true ∧ isBoundary text range.2 = true := by
  rw [contextOf] at h
  split at h
  · cases h
  · exact bounded_neighbourhood htree hpreceding hfollowing h
  · next parent _ _ hparents =>
    rw [Option.some.injEq] at h
    subst h
    exact hancestors parent (by rw [hparents]; exact List.mem_cons_self)

theorem mem_of_documented? {tree definition : Tree} {ancestors : List Tree}
    (h : documented? tree ancestors = some (some definition)) : definition ∈ ancestors := by
  cases ancestors with
  | nil => cases h
  | cons parent rest =>
    simp only [documented?] at h
    split at h
    · split at h
      · cases h
      · split at h
        · cases h
          simp
        · cases h
      · cases h
    · cases h

theorem SoundAmong.bounded {ancestors trees : List Tree}
    (h : SoundAmong text conventions ancestors trees) : ∀ t ∈ trees, Bounded text t := by
  induction trees with
  | nil => simp
  | cons tree rest ih => exact List.forall_mem_cons.2 ⟨h.1.bounded, ih h.2⟩

mutual

/-- The block around what is found in a sound tree is cut at boundaries. -/
theorem bounded_context : (tree : Tree) → (ancestors preceding following : List Tree) →
    Sound text conventions ancestors tree → (∀ t ∈ ancestors, Bounded text t) →
    (∀ t ∈ preceding, Bounded text t) → (∀ t ∈ following, Bounded text t) →
    ∀ f ∈ findIn text conventions ancestors preceding following tree, ∀ range ∈ f.context,
      isBoundary text range.1 = true ∧ isBoundary text range.2 = true
  | .node kind start stop children, ancestors, preceding, following, h, ha, hp, hf, f, hfound,
      range, hrange => by
    have htree := h.bounded
    rw [findIn] at hfound
    split at hfound
    · rw [comment?] at hfound
      split at hfound
      · cases hfound
      · obtain rfl := List.mem_singleton.1 hfound
        exact bounded_contextOf htree ha hp hf hrange
    · split at hfound
      · next found hdocstring =>
        obtain rfl := List.mem_singleton.1 hfound
        obtain ⟨-, definition, hdefinition, -, -, hcontext⟩ := docstring?_eq_some hdocstring
        rw [hcontext] at hrange
        cases definition with
        | none => exact bounded_contextOf htree ha hp hf hrange
        | some d =>
          obtain rfl := Option.some.inj hrange
          exact ha d (mem_of_documented? hdefinition)
      · refine bounded_contextAmong children _ [] h.2 ?_ (by simp) f hfound range hrange
        exact List.forall_mem_cons.2 ⟨htree, ha⟩

theorem bounded_contextAmong : (trees : List Tree) → (ancestors preceding : List Tree) →
    SoundAmong text conventions ancestors trees → (∀ t ∈ ancestors, Bounded text t) →
    (∀ t ∈ preceding, Bounded text t) →
    ∀ f ∈ findAmong text conventions ancestors preceding trees, ∀ range ∈ f.context,
      isBoundary text range.1 = true ∧ isBoundary text range.2 = true
  | [], _, _, _, _, _, f, hfound, _, _ => by
    rw [findAmong] at hfound
    cases hfound
  | tree :: rest, ancestors, preceding, h, ha, hp, f, hfound, range, hrange => by
    rw [findAmong] at hfound
    rcases List.mem_append.1 hfound with hfound | hfound
    · exact bounded_context tree ancestors preceding rest h.1 ha hp
        (SoundAmong.bounded h.2) f hfound range hrange
    · exact bounded_contextAmong rest ancestors (tree :: preceding) h.2 ha
        (List.forall_mem_cons.2 ⟨h.1.bounded, hp⟩) f hfound range hrange

end

end Marginalia.Extraction
