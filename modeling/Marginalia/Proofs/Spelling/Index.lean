import Marginalia.Proofs.Sequence
import Marginalia.Spelling.Dictionary

/-! What a dictionary holds: the words put into it, in lower case and each once, are its ranks and
its lists by length, whatever was put in how often and in which mix of capitals. -/

namespace Marginalia.Spelling

open Marginalia.Code (lowered)

/-- Distinct words in lower case, in the order in which they are first put in. -/
def listed (words : List String) : List String := (words.map lowered).eraseDups

theorem listed_concat (words : List String) (word : String) :
    listed (words ++ [word]) =
      if lowered word ∈ listed words then listed words else listed words ++ [lowered word] := by
  simp only [listed, List.map_append, List.map_singleton, eraseDups_concat, List.mem_eraseDups]

theorem lowered_mem_listed {words : List String} {word : String} (h : word ∈ words) :
    lowered word ∈ listed words := by
  rw [listed, List.mem_eraseDups]
  exact List.mem_map_of_mem h

/-- The two maps of a dictionary are in step with the words that are listed. -/
structure Dictionary.Lists (d : Dictionary) (words : List String) : Prop where
  nodup : words.Nodup
  length : d.ranks.length = words.length
  rank : ∀ word i, d.rank? word = some i ↔ words[i]? = some word
  ofLength : ∀ n, d.ofLength n = words.filter fun word => word.length == n

theorem lookup_cons_eq_if {κ ν : Type} [DecidableEq κ] (key k : κ) (value : ν)
    (rest : List (κ × ν)) :
    ((k, value) :: rest).lookup key = if key = k then some value else rest.lookup key := by
  by_cases h : key = k
  · subst h
    simp
  · rw [List.lookup_cons, beq_eq_false_iff_ne.2 h, if_neg h]

theorem getElem?_concat_eq_some_iff {l : List String} {x y : String} {i : Nat} :
    (l ++ [x])[i]? = some y ↔ l[i]? = some y ∨ (i = l.length ∧ x = y) := by
  rw [List.getElem?_append]
  by_cases hi : i < l.length
  · rw [if_pos hi]
    exact ⟨.inl, fun h => h.resolve_right fun h => absurd h.1 (Nat.ne_of_lt hi)⟩
  · rw [if_neg hi, List.getElem?_eq_none (Nat.le_of_not_lt hi), List.getElem?_singleton]
    have hzero : i - l.length = 0 ↔ i = l.length := by omega
    simp [hzero]

theorem lookup_filed (word : String) (byLength : List (Nat × List String)) (n : Nat) :
    ((filed word byLength).lookup n).getD [] =
      (byLength.lookup n).getD [] ++ if word.length = n then [word] else [] := by
  induction byLength with
  | nil =>
    rw [filed, lookup_cons_eq_if]
    by_cases hn : n = word.length
    · simp [hn]
    · simp [hn, Ne.symm hn]
  | cons entry rest ih =>
    obtain ⟨length, words⟩ := entry
    rw [filed]
    by_cases hlength : length = word.length
    · rw [if_pos hlength, lookup_cons_eq_if, lookup_cons_eq_if, hlength]
      by_cases hn : n = word.length
      · simp [hn]
      · simp [hn, Ne.symm hn]
    · rw [if_neg hlength, lookup_cons_eq_if, lookup_cons_eq_if]
      by_cases hn : n = length
      · simp [hn, Ne.symm hlength]
      · rw [if_neg hn, if_neg hn, ih]

namespace Dictionary

theorem lists_nil : Lists ⟨[], []⟩ [] :=
  ⟨.nil, rfl, fun _ _ => by simp [rank?], fun _ => rfl⟩

theorem Lists.rank?_eq_none {d : Dictionary} {words : List String} (h : d.Lists words)
    {word : String} : d.rank? word = none ↔ word ∉ words := by
  rw [Option.eq_none_iff_forall_not_mem, List.mem_iff_getElem?, not_exists]
  exact forall_congr' fun i => not_congr (h.rank word i)

theorem Lists.contains_iff {d : Dictionary} {words : List String} (h : d.Lists words)
    {word : String} : d.contains word = true ↔ lowered word ∈ words := by
  rw [contains, Option.isSome_iff_ne_none, Ne, h.rank?_eq_none, not_not]

theorem Lists.append {d : Dictionary} {words : List String} (h : d.Lists words) {word : String}
    (hnew : word ∉ words) :
    Lists ⟨(word, d.ranks.length) :: d.ranks, filed word d.byLength⟩ (words ++ [word]) where
  nodup := by
    rw [List.nodup_append]
    refine ⟨h.nodup, by simp, fun a ha b hb => ?_⟩
    rintro rfl
    exact hnew (List.mem_singleton.1 hb ▸ ha)
  length := by simp [h.length]
  rank := by
    intro w i
    have hfresh : d.ranks.lookup word = none := h.rank?_eq_none.2 hnew
    have hold : d.ranks.lookup w = some i ↔ words[i]? = some w := h.rank w i
    rw [rank?, lookup_cons_eq_if, getElem?_concat_eq_some_iff, ← hold, h.length]
    by_cases hw : w = word
    · subst hw
      simp [hfresh, eq_comm]
    · simp [hw, Ne.symm hw]
  ofLength := by
    intro n
    rw [Dictionary.ofLength, lookup_filed, List.filter_append, ← Dictionary.ofLength, h.ofLength]
    simp [List.filter_cons]

theorem Lists.insert {d : Dictionary} {words : List String} (h : d.Lists (listed words))
    (word : String) : (d.insert word).Lists (listed (words ++ [word])) := by
  rw [listed_concat, Dictionary.insert]
  by_cases hmem : lowered word ∈ listed words
  · have hsome : (d.rank? (lowered word)).isSome = true := by
      rw [Option.isSome_iff_ne_none]
      exact fun hnone => h.rank?_eq_none.1 hnone hmem
    rw [if_pos hsome, if_pos hmem]
    exact h
  · have hnone : ¬(d.rank? (lowered word)).isSome = true := by
      rw [h.rank?_eq_none.2 hmem]
      simp
    rw [if_neg hnone, if_neg hmem]
    exact h.append hmem

theorem Lists.extend {d : Dictionary} {words : List String} (h : d.Lists (listed words))
    (more : List String) : (d.extend more).Lists (listed (words ++ more)) := by
  induction more generalizing d words with
  | nil => simpa [Dictionary.extend] using h
  | cons word more ih =>
    have hrest := ih (h.insert word)
    rw [List.append_assoc] at hrest
    exact hrest

/-- A dictionary that is built from words and extended any number of times lists all of them. -/
theorem lists_extended (words : List String) (extras : List (List String)) :
    (extras.foldl extend (ofList words)).Lists (listed (words ++ extras.flatten)) := by
  have h : (ofList words).Lists (listed words) := by
    rw [ofList, ← List.nil_append words]
    exact Lists.extend lists_nil words
  generalize ofList words = d at h
  induction extras generalizing d words with
  | nil => simpa using h
  | cons more extras ih =>
    rw [List.flatten_cons, ← List.append_assoc]
    exact ih _ _ (h.extend more)

theorem lists_builtin_extend (more : List String) :
    (builtin.extend more).Lists (listed (wordList ++ more)) := by
  have h := lists_extended wordList [more]
  rwa [List.flatten_singleton] at h

end Dictionary

end Marginalia.Spelling
