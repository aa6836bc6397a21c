import Marginalia.Proofs.Unicode.Runs
import Marginalia.Prose.Words
import Mathlib.Tactic.FinCases

/-! Words of prose that hold a space: the spaces of a segment stand together at its beginning, so
such a word begins with a spacing character. -/

namespace Marginalia.Prose

open Marginalia.Text Marginalia.Unicode
open BreakClass (ofChar)

/-- A character that word boundaries treat as a space. -/
abbrev Spacing (c : Char) : Prop := ofChar c = .space

/-- A text that begins with a spacing character if it holds one. -/
def Led (text : List Char) : Prop :=
  ∀ c ∈ text, Spacing c → ∃ d rest, text = d :: rest ∧ Spacing d

/-- The code points of spacing characters. -/
def spacingCodes : List Nat :=
  [32, 5760, 8192, 8193, 8194, 8195, 8196, 8197, 8198, 8200, 8201, 8202, 8287, 12288]

theorem ite_ne {p : Prop} [Decidable p] {a b x : BreakClass} (ha : p → a ≠ x) (hb : b ≠ x) :
    (if p then a else b) ≠ x := by
  split
  · exact ha ‹_›
  · exact hb

theorem toNat_mem_of_spacing {c : Char} (h : Spacing c) : c.toNat ∈ spacingCodes := by
  have hrun : onRun c.toNat spacingRuns = true := by
    rw [← Bool.not_eq_false]
    intro hrun
    refine absurd h ?_
    unfold Spacing ofChar
    extract_lets n
    iterate 6 refine ite_ne (fun _ => nofun) ?_
    refine ite_ne (fun hn => absurd (hn.symm.trans hrun) nofun) ?_
    iterate 12 refine ite_ne (fun _ => nofun) ?_
    exact nofun
  obtain ⟨run, hmem, hfirst, hlast⟩ := exists_run hrun
  simp only [spacingCodes, List.mem_cons, List.not_mem_nil, or_false]
  fin_cases hmem <;> simp only at hfirst hlast <;> omega

theorem spacing_space : Spacing ' ' := by decide

/-- What holds of each of the spacing characters holds of any one. -/
theorem Spacing.induction {P : Char → Prop} {c : Char} (h : Spacing c)
    (all : ∀ n ∈ spacingCodes, P (Char.ofNat n)) : P c := by
  have := all _ (toNat_mem_of_spacing h)
  rwa [Char.ofNat_toNat] at this

/-! ### Segments -/

theorem joined_space (before : Option BreakClass) (left : BreakClass) (after : Option BreakClass) :
    BreakClass.joined before left .space after = false := by
  cases left <;>
    simp [BreakClass.joined, BreakClass.isLetter, BreakClass.joinsLetters,
      BreakClass.joinsNumerals, BreakClass.connects]

/-- Nothing but a spacing character keeps together with one after it. -/
theorem space_of_holdsTogether {before after : List Classed} {c : Char} (hc : Spacing c)
    (h : holdsTogether before (c, ofChar c) after = true) :
    ∃ b more, before = (b, .space) :: more := by
  have hpictograph : onRun c.toNat pictographRuns = false :=
    hc.induction (P := fun c => onRun c.toNat pictographRuns = false) (by decide)
  cases before with
  | nil => simp [holdsTogether] at h
  | cons last more =>
    obtain ⟨b, touching⟩ := last
    by_cases htouching : touching = .space
    · exact ⟨b, more, by rw [htouching]⟩
    · rcases hsolid : solid ((b, touching) :: more) with _ | ⟨⟨_, left⟩, further⟩ <;>
        simp [holdsTogether, hpictograph, hc, htouching, hsolid, joined_space, BreakClass.isLineEnd,
          BreakClass.attaches] at h

theorem led_singleton (c : Char) : Led [c] := by
  intro d hd hspacing
  rw [List.mem_singleton.1 hd] at hspacing
  exact ⟨c, [], rfl, hspacing⟩

theorem Led.concat {text : List Char} {c : Char} (h : Led text) (hne : text ≠ [])
    (hc : Spacing c → ∃ b ∈ text, Spacing b) : Led (text ++ [c]) := by
  intro d hd hspacing
  have hsome : ∃ b ∈ text, Spacing b := by
    rcases List.mem_append.1 hd with hd | hd
    · exact ⟨d, hd, hspacing⟩
    · rw [List.mem_singleton.1 hd] at hspacing
      exact hc hspacing
  obtain ⟨b, hb, hspacing⟩ := hsome
  obtain ⟨first, rest, rfl, hfirst⟩ := h b hb hspacing
  exact ⟨first, rest ++ [c], rfl, hfirst⟩

/-- A character with its class. -/
def classed (c : Char) : Classed := (c, ofChar c)

theorem led_of_mem_segmentsAfter {segment text : List Char} {before : List Classed}
    (hsegment : Led segment.reverse) (hbefore : segment.map classed <+: before) {s : List Char}
    (hs : s ∈ segmentsAfter segment before (text.map classed)) : Led s := by
  -- On what is left of the text. The segment in hand is the nearest part of what was read, so the
  -- character that touches a space belongs to it.
  induction text generalizing segment before with
  | nil =>
    rw [List.map_nil, segmentsAfter] at hs
    split at hs
    · simp at hs
    · rwa [List.mem_singleton.1 hs]
  | cons c text ih =>
    rw [List.map_cons, segmentsAfter] at hs
    have hone : [c].map classed <+: classed c :: before := ⟨before, rfl⟩
    have hled : Led [c].reverse := led_singleton c
    split at hs
    · next hholds =>
      refine ih ?_ ?_ hs
      · rw [List.reverse_cons]
        cases segment with
        | nil => exact led_singleton c
        | cons b segment =>
          refine hsegment.concat (by simp) fun hspacing => ?_
          obtain ⟨d, more, hmore⟩ := space_of_holdsTogether hspacing hholds
          obtain ⟨earlier, rfl⟩ := hbefore
          obtain ⟨hhead, -⟩ := List.cons.inj hmore
          exact ⟨b, by simp, congrArg Prod.snd hhead⟩
      · rw [List.map_cons]
        exact List.cons_prefix_cons.2 ⟨rfl, hbefore⟩
    · split at hs
      · exact ih hled hone hs
      · rcases List.mem_cons.1 hs with rfl | hs
        · exact hsegment
        · exact ih hled hone hs

theorem led_of_mem_segments {text segment : List Char} (h : segment ∈ segments text) :
    Led segment := by
  have hempty : Led ([] : List Char).reverse := by simp [Led]
  exact led_of_mem_segmentsAfter hempty List.nil_prefix h

/-! ### Words in lower case -/

theorem lowerChar_of_spacing {c : Char} (h : Spacing c) : lowerChar c = [c] :=
  h.induction (P := fun c => lowerChar c = [c]) (by decide +kernel)

theorem ofNat_ne_space {n : Nat} (h : 32 < n) : Char.ofNat n ≠ ' ' := by
  intro heq
  have htoNat : (Char.ofNat n).toNat = 32 := congrArg Char.toNat heq
  rcases toNat_ofNat_or n with hn | hzero
  · omega
  · rw [hzero] at htoNat
    cases htoNat

theorem eq_space_of_mem_lowerChar {c : Char} (h : ' ' ∈ lowerChar c) : c = ' ' := by
  rw [lowerChar] at h
  split at h
  · next hascii =>
    exact forall_of_lt (P := fun c => ' ' = c.toLower → c = ' ') (by decide) hascii
      (List.mem_singleton.1 h)
  · split at h
    · simp at h
    · have hshifts : ∀ shift ∈ lowerShifts, 32 < shift.2.2.2 := by decide +kernel
      cases hshifted : shifted? c.toNat lowerShifts with
      | none =>
        rw [hshifted] at h
        exact (List.mem_singleton.1 h).symm
      | some image =>
        obtain ⟨shift, hmem, -, rfl⟩ := exists_covers hshifted
        rw [hshifted] at h
        exact absurd (List.mem_singleton.1 h).symm
          (ofNat_ne_space (Nat.lt_add_right _ (hshifts shift hmem)))

theorem mem_of_mem_lowerAfter {before text : List Char} (h : ' ' ∈ lowerAfter before text) :
    ' ' ∈ text := by
  induction text generalizing before with
  | nil => exact h
  | cons c rest ih =>
    rw [lowerAfter, List.mem_append] at h
    rcases h with h | h
    · split at h
      · split at h <;> simp at h
      · rw [eq_space_of_mem_lowerChar h]
        exact List.mem_cons_self
    · exact List.mem_cons_of_mem _ (ih h)

theorem lowerAfter_cons_of_spacing {c : Char} (h : Spacing c) (before rest : List Char) :
    lowerAfter before (c :: rest) = c :: lowerAfter (c :: before) rest := by
  have hsigma : (c == '\u03a3') = false :=
    h.induction (P := fun c => (c == '\u03a3') = false) (by decide)
  rw [lowerAfter, hsigma, lowerChar_of_spacing h]
  rfl

/-- A closing quotation mark as an apostrophe. -/
def straight (c : Char) : Char := if c == '\u2019' then '\'' else c

theorem eq_space_of_straight {c : Char} (h : straight c = ' ') : c = ' ' := by
  rw [straight] at h
  split at h
  · simp at h
  · exact h

theorem straight_of_spacing {c : Char} (h : Spacing c) : straight c = c :=
  h.induction (P := fun c => straight c = c) (by decide)

/-- What a word loses is at its end or an apostrophe. -/
theorem normalWord_eq (word : List Char) : ∃ (n : Nat) (p : Char → Bool),
    (∀ c, Spacing c → p c = true) ∧
      normalWord word = (((lower word).map straight).take n).filter p := by
  have hkeep : ∀ c, Spacing c → (c != '\'') = true := fun c h =>
    h.induction (P := fun c => (c != '\'') = true) (by decide)
  unfold normalWord
  extract_lets lowered
  have hlowered : (lower word).map straight = lowered := rfl
  have hwhole : lowered.take lowered.length = lowered := List.take_length
  rw [hlowered]
  split
  · next stem hstem =>
    split
    · exact ⟨lowered.length, fun _ => true, fun _ _ => rfl, by rw [hwhole, List.filter_true]⟩
    · rw [dropSuffix?] at hstem
      split at hstem
      · obtain rfl := Option.some.inj hstem
        exact ⟨_, _, hkeep, rfl⟩
      · cases hstem
  · exact ⟨lowered.length, _, hkeep, by rw [hwhole]⟩

theorem led_normalWord {word : List Char} (h : Led word) (hspace : ' ' ∈ normalWord word) :
    ∃ d rest, normalWord word = d :: rest ∧ Spacing d := by
  obtain ⟨n, p, hp, heq⟩ := normalWord_eq word
  rw [heq] at hspace ⊢
  have htake := (List.mem_filter.1 hspace).1
  obtain ⟨c, hc, hstraight⟩ := List.mem_map.1 (List.mem_of_mem_take htake)
  rw [eq_space_of_straight hstraight] at hc
  obtain ⟨d, rest, rfl, hd⟩ := h ' ' (mem_of_mem_lowerAfter hc) spacing_space
  cases n with
  | zero => simp at htake
  | succ n =>
    rw [lower, lowerAfter_cons_of_spacing hd, List.map_cons, straight_of_spacing hd,
      List.take_succ_cons, List.filter_cons_of_pos (hp d hd)]
    exact ⟨d, _, rfl, hd⟩

/-- A word of prose that holds a space begins with a spacing character. -/
theorem led_of_mem_wordChars {text word : List Char} (h : word ∈ wordChars text)
    (hspace : ' ' ∈ word) : ∃ d rest, word = d :: rest ∧ Spacing d := by
  obtain ⟨raw, hraw, rfl⟩ := List.mem_map.1 (List.mem_filter.1 h).1
  exact led_normalWord (led_of_mem_segments (List.mem_filter.1 hraw).1) hspace

theorem ne_nil_of_mem_wordChars {text word : List Char} (h : word ∈ wordChars text) :
    word ≠ [] := by
  have := (List.mem_filter.1 h).2
  simpa using this

end Marginalia.Prose
