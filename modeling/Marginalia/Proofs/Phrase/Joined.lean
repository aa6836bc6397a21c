import Marginalia.Phrase
import Marginalia.Proofs.Text.Search

/-! Words joined by gaps, as bytes: where some of the words stand by themselves in the joined text,
and which words begin there. -/

namespace Marginalia.Phrase

open Marginalia.Text

/-- Words with a gap after each. -/
def ended (words : List (List UInt8)) : List UInt8 := words.flatMap (· ++ [gap])

/-- Words with a gap before each. -/
def begun (words : List (List UInt8)) : List UInt8 := words.flatMap (gap :: ·)

/-- Words with a gap between any two neighbours. -/
def joined (words : List (List UInt8)) : List UInt8 := [gap].intercalate words

/-- Words that hold no gap. -/
def Gapless (words : List (List UInt8)) : Prop := ∀ word ∈ words, gap ∉ word

theorem joined_cons (word : List UInt8) (rest : List (List UInt8)) :
    joined (word :: rest) = word ++ begun rest := by
  induction rest generalizing word with
  | nil => simp [joined, begun]
  | cons next rest ih =>
    rw [joined, List.intercalate_cons_cons, ← joined, ih]
    simp [begun]

theorem joined_append {words : List (List UInt8)} (hwords : words ≠ []) (a b : List (List UInt8)) :
    joined (a ++ words ++ b) = ended a ++ joined words ++ begun b := by
  induction a with
  | nil =>
    obtain ⟨word, rest, rfl⟩ := List.exists_cons_of_ne_nil hwords
    simp [joined_cons, ended, begun]
  | cons first a ih =>
    have hne : a ++ words ++ b ≠ [] := by simp [hwords]
    rw [joined, List.cons_append, List.cons_append, List.intercalate_cons_of_ne_nil hne, ← joined,
      ih]
    simp [ended]

theorem joined_injective {ws vs : List (List UInt8)} (hws : Gapless ws) (hvs : Gapless vs)
    (hwsne : ws ≠ []) (hvsne : vs ≠ []) (h : joined ws = joined vs) : ws = vs := by
  rw [← List.splitOn_intercalate gap hws hwsne, ← List.splitOn_intercalate gap hvs hvsne]
  exact congrArg _ h

theorem begun_append_gap (words : List (List UInt8)) :
    begun words ++ [gap] = gap :: ended words := by
  induction words with
  | nil => rfl
  | cons word rest ih =>
    rw [begun, List.flatMap_cons, ← begun, List.append_assoc, ih]
    simp [ended]

theorem exists_words (text : List UInt8) :
    ∃ word rest, Gapless (word :: rest) ∧ text = word ++ begun rest := by
  obtain ⟨word, rest, hsplit⟩ := List.exists_cons_of_ne_nil (List.splitOn_ne_nil gap text)
  refine ⟨word, rest, fun w hw => ?_, ?_⟩
  · rw [← hsplit] at hw
    exact not_mem_of_mem_splitOn hw
  · rw [← joined_cons, ← hsplit, joined, List.intercalate_splitOn]

theorem exists_ended {text : List UInt8} (h : text = [] ∨ text.getLast? = some gap) :
    ∃ words, Gapless words ∧ text = ended words := by
  rcases h with rfl | h
  · exact ⟨[], by simp [Gapless], rfl⟩
  · obtain ⟨front, rfl⟩ := List.getLast?_eq_some_iff.1 h
    obtain ⟨word, rest, hgapless, rfl⟩ := exists_words front
    refine ⟨word :: rest, hgapless, ?_⟩
    rw [List.append_assoc, begun_append_gap]
    simp [ended]

theorem exists_begun {text : List UInt8} (h : text = [] ∨ text.head? = some gap) :
    ∃ words, Gapless words ∧ text = begun words := by
  rcases h with rfl | h
  · exact ⟨[], by simp [Gapless], rfl⟩
  · obtain ⟨back, rfl⟩ := List.head?_eq_some_iff.1 h
    obtain ⟨word, rest, hgapless, rfl⟩ := exists_words back
    exact ⟨word :: rest, hgapless, by simp [begun]⟩

theorem ended_eq_nil_or (words : List (List UInt8)) :
    ended words = [] ∨ (ended words).getLast? = some gap := by
  rcases List.eq_nil_or_concat words with rfl | ⟨words, word, rfl⟩
  · exact .inl rfl
  · exact .inr (by simp [ended])

theorem begun_eq_nil_or (words : List (List UInt8)) :
    begun words = [] ∨ (begun words).head? = some gap := by
  cases words with
  | nil => exact .inl rfl
  | cons word words => exact .inr (by simp [begun])

theorem standsAlone_iff {before middle after : List UInt8} {o : Occurrence}
    (hstart : o.start = before.length) (hstop : o.stop = o.start + middle.length) :
    standsAlone (before ++ middle ++ after) o = true ↔
      (before = [] ∨ before.getLast? = some gap) ∧ (after = [] ∨ after.head? = some gap) := by
  have hleft : o.start = 0 ↔ before = [] := by rw [hstart, List.length_eq_zero_iff]
  have hright : o.stop = (before ++ middle ++ after).length ↔ after = [] := by
    rw [← List.length_eq_zero_iff, hstop, hstart]
    simp only [List.length_append]
    omega
  have hnext : (before ++ middle ++ after)[o.stop]? = after.head? := by
    rw [hstop, hstart, ← List.length_append, List.getElem?_append_right (Nat.le_refl _)]
    simp [List.head?_eq_getElem?]
  rw [standsAlone, Bool.and_eq_true, Bool.or_eq_true, Bool.or_eq_true, beq_iff_eq, beq_iff_eq,
    beq_iff_eq, beq_iff_eq, hleft, hright, hnext]
  refine and_congr_left' (or_congr_right' fun hne => ?_)
  have hpos := List.length_pos_iff.2 hne
  rw [hstart, List.append_assoc, List.getElem?_append_left (by omega), List.getLast?_eq_getElem?]

/-- Words stand by themselves in a joined text exactly where they are some of its words in a row. -/
theorem standsAlone_iff_words {words sought : List (List UInt8)} (hwords : Gapless words)
    (hsought : Gapless sought) (hne : joined sought ≠ []) {o : Occurrence}
    (hstop : o.stop = o.start + (joined sought).length) :
    OccursAt (joined sought) (joined words) o.start ∧ standsAlone (joined words) o = true ↔
      ∃ a b, words = a ++ sought ++ b ∧ o.start = (ended a).length := by
  have hsome : sought ≠ [] := by
    rintro rfl
    exact hne rfl
  constructor
  · rintro ⟨⟨before, after, htext, hstart⟩, halone⟩
    rw [htext, standsAlone_iff hstart.symm hstop] at halone
    obtain ⟨a, ha, rfl⟩ := exists_ended halone.1
    obtain ⟨b, hb, rfl⟩ := exists_begun halone.2
    refine ⟨a, b, ?_, hstart.symm⟩
    have hjoined := htext.trans (joined_append hsome a b).symm
    refine joined_injective hwords ?_ ?_ (by simp [hsome]) hjoined
    · intro word hword
      rcases List.mem_append.1 hword with hword | hword
      · rcases List.mem_append.1 hword with hword | hword
        · exact ha word hword
        · exact hsought word hword
      · exact hb word hword
    · rintro rfl
      have hempty : joined sought = [] := by
        have := congrArg List.length htext
        simp only [joined, List.intercalate_nil, List.length_nil, List.length_append] at this
        exact List.length_eq_zero_iff.1 (by rw [joined]; omega)
      exact hne hempty
  · rintro ⟨a, b, rfl, hstart⟩
    rw [joined_append hsome]
    refine ⟨⟨ended a, begun b, rfl, hstart.symm⟩, ?_⟩
    exact (standsAlone_iff hstart hstop).2 ⟨ended_eq_nil_or a, begun_eq_nil_or b⟩

/-! ### Where words begin -/

theorem length_ended_cons (word : List UInt8) (rest : List (List UInt8)) :
    (ended (word :: rest)).length = word.length + 1 + (ended rest).length := by
  rw [ended, List.flatMap_cons, ← ended, List.length_append, List.length_append]
  rfl

theorem wordStarts_append (offset : Nat) (a b : List (List UInt8)) :
    wordStarts offset (a ++ b) =
      wordStarts offset a ++ wordStarts (offset + (ended a).length) b := by
  induction a generalizing offset with
  | nil => rfl
  | cons word a ih =>
    have hoffset : offset + (ended (word :: a)).length
        = offset + word.length + 1 + (ended a).length := by
      rw [length_ended_cons]
      omega
    rw [List.cons_append, wordStarts, ih, wordStarts, hoffset, List.cons_append]

@[simp] theorem length_wordStarts (offset : Nat) (words : List (List UInt8)) :
    (wordStarts offset words).length = words.length := by
  induction words generalizing offset with
  | nil => rfl
  | cons word rest ih => simp [wordStarts, ih]

theorem bounds_of_mem_wordStarts {offset start : Nat} {words : List (List UInt8)}
    (h : start ∈ wordStarts offset words) :
    offset ≤ start ∧ start < offset + (ended words).length := by
  induction words generalizing offset with
  | nil => simp [wordStarts] at h
  | cons word rest ih =>
    have hlength := length_ended_cons word rest
    rcases List.mem_cons.1 h with rfl | h
    · omega
    · have := ih h
      omega

theorem length_ended {words : List (List UInt8)} (h : words ≠ []) :
    (ended words).length = (joined words).length + 1 := by
  obtain ⟨word, rest, rfl⟩ := List.exists_cons_of_ne_nil h
  have hgap := congrArg List.length (begun_append_gap rest)
  rw [joined_cons]
  simp only [List.length_append, List.length_cons, List.length_nil] at hgap
  rw [length_ended_cons, List.length_append]
  omega

/-- The last word takes up a byte of its own, so no word begins at the very end. -/
theorem lt_of_mem_wordStarts {offset start : Nat} {words : List (List UInt8)} (hwords : [] ∉ words)
    (h : start ∈ wordStarts offset words) : start < offset + (joined words).length := by
  induction words generalizing offset with
  | nil => simp [wordStarts] at h
  | cons word rest ih =>
    have hword : word ≠ [] := fun h => hwords (h ▸ List.mem_cons_self)
    have hpos := List.length_pos_iff.2 hword
    rcases List.mem_cons.1 h with rfl | h
    · rw [joined_cons, List.length_append]
      omega
    · have hrest : rest ≠ [] := by
        rintro rfl
        simp [wordStarts] at h
      have := ih (fun h => hwords (List.mem_cons_of_mem _ h)) h
      rw [joined, List.intercalate_cons_of_ne_nil hrest, ← joined]
      simp only [List.length_append, List.length_cons, List.length_nil]
      omega

theorem coveredBy_words {words : List (List UInt8)} (hwords : words ≠ []) (hfull : [] ∉ words)
    (a b : List (List UInt8)) {o : Occurrence} (hstart : o.start = (ended a).length)
    (hstop : o.stop = o.start + (joined words).length) :
    coveredBy (wordStarts 0 (a ++ words ++ b)) o = List.range' a.length words.length := by
  have hbefore : ∀ p ∈ (wordStarts 0 a).zipIdx, ¬(o.start ≤ p.1 ∧ p.1 < o.stop) := by
    intro p hp
    have := bounds_of_mem_wordStarts (List.fst_mem_of_mem_zipIdx hp)
    omega
  have hin : ∀ p ∈ (wordStarts (ended a).length words).zipIdx a.length,
      o.start ≤ p.1 ∧ p.1 < o.stop := by
    intro p hp
    have hmem := List.fst_mem_of_mem_zipIdx hp
    have := bounds_of_mem_wordStarts hmem
    have := lt_of_mem_wordStarts hfull hmem
    omega
  -- The gap after the last word keeps the next one out.
  have hafter : ∀ p ∈ (wordStarts ((ended a).length + (ended words).length) b).zipIdx
      (a ++ words).length, ¬(o.start ≤ p.1 ∧ p.1 < o.stop) := by
    intro p hp
    have := bounds_of_mem_wordStarts (List.fst_mem_of_mem_zipIdx hp)
    have := length_ended hwords
    omega
  have hsplit : (wordStarts 0 (a ++ words ++ b)).zipIdx = (wordStarts 0 a).zipIdx
      ++ (wordStarts (ended a).length words).zipIdx a.length
      ++ (wordStarts ((ended a).length + (ended words).length) b).zipIdx (a ++ words).length := by
    rw [List.append_assoc, wordStarts_append, wordStarts_append, List.zipIdx_append,
      List.zipIdx_append]
    simp
  have hnone {l : List (Nat × Nat)} (h : ∀ p ∈ l, ¬(o.start ≤ p.1 ∧ p.1 < o.stop)) :
      (l.filter fun p => o.start ≤ p.1 && p.1 < o.stop) = [] := by
    rw [List.filter_eq_nil_iff]
    simpa using h
  have hall : ((wordStarts (ended a).length words).zipIdx a.length).filter
      (fun p => o.start ≤ p.1 && p.1 < o.stop) =
        (wordStarts (ended a).length words).zipIdx a.length := by
    rw [List.filter_eq_self]
    simpa using hin
  rw [coveredBy, hsplit, List.filter_append, List.filter_append, hnone hbefore, hnone hafter, hall]
  simp

end Marginalia.Phrase
