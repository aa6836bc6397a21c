import Marginalia.Proofs.Phrase.Joined
import Marginalia.Proofs.Prose.Spaces
import Marginalia.Proofs.Text.Bytes

/-! A table of phrases finds exactly the places where the words of one of its phrases stand in a row
among the words searched. -/

namespace Marginalia.Phrase

open Marginalia.Text

/-- The words of a phrase that single spaces separate. -/
def wordsOf (phrase : String) : List String := (phrase.toList.splitOn ' ').map String.ofList

/-- Words stand in a row among others from an index on. -/
def StandAt (sought words : List String) (i : Nat) : Prop :=
  (words.drop i).take sought.length = sought

/-- Matches in the order of the last words they cover; at one last word the earlier first word. -/
def Match.Before (m n : Match) : Prop :=
  m.covered.getLastD 0 < n.covered.getLastD 0 ∨
    (m.covered.getLastD 0 = n.covered.getLastD 0 ∧ m.covered.headD 0 < n.covered.headD 0)

/-- Words that can be told apart in the text that joins them. -/
def Separable (words : List String) : Prop := ∀ word ∈ words, word ≠ "" ∧ ' ' ∉ word.toList

def wordBytes (words : List String) : List (List UInt8) := words.map fun word => bytes word.toList

theorem wordBytes_append (a b : List String) : wordBytes (a ++ b) = wordBytes a ++ wordBytes b :=
  List.map_append

@[simp] theorem length_wordBytes (words : List String) : (wordBytes words).length = words.length :=
  List.length_map _

theorem wordBytes_injective {a b : List String} (h : wordBytes a = wordBytes b) : a = b :=
  List.map_injective_iff.2 (fun _ _ h => String.toList_injective (bytes_injective h)) h

theorem gapless_wordBytes {words : List String} (h : ∀ word ∈ words, ' ' ∉ word.toList) :
    Gapless (wordBytes words) := by
  intro word hword
  obtain ⟨text, htext, rfl⟩ := List.mem_map.1 hword
  exact fun hgap => h text htext ((mem_bytes_iff (c := ' ') (by decide)).1 hgap)

theorem nil_notMem_wordBytes {words : List String} (h : ∀ word ∈ words, word ≠ "") :
    [] ∉ wordBytes words := by
  intro hnil
  obtain ⟨text, htext, hempty⟩ := List.mem_map.1 hnil
  exact h text htext (String.toList_eq_nil_iff.1 (bytes_eq_nil_iff.1 hempty))

theorem bytes_joined (words : List String) :
    bytes (String.intercalate " " words).toList = joined (wordBytes words) := by
  rw [String.toList_intercalate, bytes_intercalate, List.map_map]
  rfl

theorem bytes_phrase (phrase : String) :
    bytes phrase.toList = joined (wordBytes (wordsOf phrase)) := by
  have hpieces : wordBytes (wordsOf phrase) = (phrase.toList.splitOn ' ').map bytes := by
    simp [wordBytes, wordsOf, Function.comp_def]
  have hwhole : [' '].intercalate (phrase.toList.splitOn ' ') = phrase.toList :=
    List.intercalate_splitOn ' '
  conv_lhs => rw [← hwhole, bytes_intercalate, ← hpieces]
  rfl

theorem wordsOf_ne_nil (phrase : String) : wordsOf phrase ≠ [] := by
  simp [wordsOf]

theorem space_notMem_wordsOf {phrase word : String} (h : word ∈ wordsOf phrase) :
    ' ' ∉ word.toList := by
  obtain ⟨piece, hpiece, rfl⟩ := List.mem_map.1 h
  rw [String.toList_ofList]
  exact not_mem_of_mem_splitOn hpiece

theorem standAt_iff {sought words : List String} (hsought : sought ≠ []) {i : Nat} :
    StandAt sought words i ↔ ∃ a b, words = a ++ sought ++ b ∧ a.length = i := by
  constructor
  · intro h
    have hlt : i < words.length := by
      refine Nat.lt_of_not_le fun hle => hsought ?_
      rw [← h, List.drop_of_length_le hle, List.take_nil]
    refine ⟨words.take i, (words.drop i).drop sought.length, ?_, ?_⟩
    · have hrest := List.take_append_drop sought.length (words.drop i)
      rw [h] at hrest
      rw [List.append_assoc, hrest, List.take_append_drop]
    · rw [List.length_take]
      omega
  · rintro ⟨a, b, rfl, rfl⟩
    simp [StandAt]

/-! ### What is found -/

section Found

variable {search : Search} {table : Table} {words : List String} {o : Occurrence} {phrase : String}

/-- What a search finds of a table's phrases, words by themselves. -/
def found (search : Search) (table : Table) (words : List String) : List Occurrence :=
  (search (table.phrases.map fun phrase => bytes phrase.toList) (joined (wordBytes words))).filter
    (standsAlone (joined (wordBytes words)))

theorem matchesBy_eq (search : Search) (table : Table) (words : List String) :
    table.matchesBy search words = (found search table words).filterMap fun o =>
      table.phrases[o.pattern]?.map fun phrase =>
        ⟨phrase, coveredBy (wordStarts 0 (wordBytes words)) o⟩ := by
  rw [Table.matchesBy, bytes_joined]
  rfl

/-- An occurrence is that of a phrase at some of the words in a row, after others. -/
structure Covers (words : List String) (o : Occurrence) (phrase : String)
    (before after : List String) : Prop where
  split : words = before ++ wordsOf phrase ++ after
  start : o.start = (ended (wordBytes before)).length
  stop : o.stop = o.start + (joined (wordBytes (wordsOf phrase))).length

theorem distinct_phrases (hnodup : table.phrases.Nodup) (hne : "" ∉ table.phrases) :
    Distinct (table.phrases.map fun phrase => bytes phrase.toList) where
  nodup := by
    refine List.pairwise_map.2 (hnodup.imp fun hpq heq => hpq ?_)
    exact String.toList_injective (bytes_injective heq)
  nonempty := by
    intro hnil
    obtain ⟨phrase, hphrase, hempty⟩ := List.mem_map.1 hnil
    rw [String.toList_eq_nil_iff.1 (bytes_eq_nil_iff.1 hempty)] at hphrase
    exact hne hphrase

theorem mem_found_iff (hsearch : Complete search) (hnodup : table.phrases.Nodup)
    (hne : "" ∉ table.phrases) (hwords : Separable words)
    (hphrase : table.phrases[o.pattern]? = some phrase) :
    o ∈ found search table words ↔ ∃ before after, Covers words o phrase before after := by
  have hgapless : Gapless (wordBytes words) :=
    gapless_wordBytes fun word hword => (hwords word hword).2
  have hpieces : Gapless (wordBytes (wordsOf phrase)) :=
    gapless_wordBytes fun word hword => space_notMem_wordsOf hword
  have hfull : joined (wordBytes (wordsOf phrase)) ≠ [] := by
    rw [← bytes_phrase]
    intro hempty
    rw [String.toList_eq_nil_iff.1 (bytes_eq_nil_iff.1 hempty)] at hphrase
    exact hne (List.mem_of_getElem? hphrase)
  rw [found, List.mem_filter, hsearch.mem_iff (distinct_phrases hnodup hne), List.getElem?_map,
    hphrase, Option.map_some]
  constructor
  · rintro ⟨⟨_, hpattern, hoccurs, hstop⟩, halone⟩
    obtain rfl := Option.some.inj hpattern
    rw [bytes_phrase] at hoccurs hstop
    obtain ⟨a, b, hsplit, hstart⟩ :=
      (standsAlone_iff_words hgapless hpieces hfull hstop).1 ⟨hoccurs, halone⟩
    obtain ⟨front, after, rfl, hfront, rfl⟩ := List.map_eq_append_iff.1 hsplit
    obtain ⟨before, middle, rfl, rfl, hmiddle⟩ := List.map_eq_append_iff.1 hfront
    obtain rfl := wordBytes_injective hmiddle
    exact ⟨before, after, rfl, hstart, hstop⟩
  · rintro ⟨before, after, hsplit, hstart, hstop⟩
    have hwhole : wordBytes words
        = wordBytes before ++ wordBytes (wordsOf phrase) ++ wordBytes after := by
      rw [hsplit, wordBytes_append, wordBytes_append]
    obtain ⟨hoccurs, halone⟩ :=
      (standsAlone_iff_words hgapless hpieces hfull hstop).2 ⟨_, _, hwhole, hstart⟩
    rw [← bytes_phrase] at hoccurs hstop
    exact ⟨⟨_, rfl, hoccurs, hstop⟩, halone⟩

theorem Covers.covered {before after : List String} (h : Covers words o phrase before after)
    (hwords : Separable words) :
    coveredBy (wordStarts 0 (wordBytes words)) o
      = List.range' before.length (wordsOf phrase).length := by
  have hpieces : ∀ word ∈ wordsOf phrase, word ≠ "" := by
    intro word hword
    refine (hwords word ?_).1
    rw [h.split]
    simp [hword]
  have hsome : wordBytes (wordsOf phrase) ≠ [] := by
    simp [wordBytes, wordsOf_ne_nil]
  rw [h.split, wordBytes_append, wordBytes_append,
    coveredBy_words hsome (nil_notMem_wordBytes hpieces) _ _ h.start h.stop, length_wordBytes,
    length_wordBytes]

/-- The matches are the places where the words of the phrases stand in a row. -/
theorem mem_matchesBy_iff (hsearch : Complete search) (hnodup : table.phrases.Nodup)
    (hne : "" ∉ table.phrases) (hwords : Separable words) {m : Match} :
    m ∈ table.matchesBy search words ↔ ∃ phrase ∈ table.phrases, ∃ i,
      StandAt (wordsOf phrase) words i ∧ m = ⟨phrase, List.range' i (wordsOf phrase).length⟩ := by
  rw [matchesBy_eq, List.mem_filterMap]
  constructor
  · rintro ⟨o, ho, hm⟩
    obtain ⟨phrase, hphrase, rfl⟩ := Option.map_eq_some_iff.1 hm
    obtain ⟨before, after, hcovers⟩ := (mem_found_iff hsearch hnodup hne hwords hphrase).1 ho
    refine ⟨phrase, List.mem_of_getElem? hphrase, before.length, ?_, ?_⟩
    · exact (standAt_iff (wordsOf_ne_nil phrase)).2 ⟨before, after, hcovers.split, rfl⟩
    · rw [hcovers.covered hwords]
  · rintro ⟨phrase, hmem, i, hstand, rfl⟩
    obtain ⟨number, hphrase⟩ := List.getElem?_of_mem hmem
    obtain ⟨before, after, hsplit, rfl⟩ := (standAt_iff (wordsOf_ne_nil phrase)).1 hstand
    let start := (ended (wordBytes before)).length
    let stop := start + (joined (wordBytes (wordsOf phrase))).length
    have hcovers : Covers words ⟨number, start, stop⟩ phrase before after := ⟨hsplit, rfl, rfl⟩
    refine ⟨_, (mem_found_iff hsearch hnodup hne hwords hphrase).2 ⟨before, after, hcovers⟩, ?_⟩
    rw [hphrase, hcovers.covered hwords]
    rfl

/-! ### In which order -/

theorem ended_append (a b : List (List UInt8)) : ended (a ++ b) = ended a ++ ended b :=
  List.flatMap_append

/-- Of two beginnings of the same words the one with more words is the longer text. -/
theorem length_ended_lt_iff {a b : List String} (ha : a <+: words) (hb : b <+: words) :
    (ended (wordBytes a)).length < (ended (wordBytes b)).length ↔ a.length < b.length := by
  have hlonger : ∀ {a b : List String}, a <+: b → a.length < b.length →
      (ended (wordBytes a)).length < (ended (wordBytes b)).length := by
    rintro a _ ⟨rest, rfl⟩ hlt
    obtain ⟨word, rest, rfl⟩ := List.exists_cons_of_ne_nil (l := rest) (by rintro rfl; simp at hlt)
    rw [wordBytes_append, ended_append, List.length_append]
    have := length_ended_cons (bytes word.toList) (wordBytes rest)
    simp only [wordBytes, List.map_cons] at this ⊢
    omega
  constructor
  · intro hlt
    refine Nat.lt_of_not_le fun hle => ?_
    have hstart := List.prefix_of_prefix_length_le hb ha hle
    rcases Nat.lt_or_eq_of_le hle with h | h
    · have := hlonger hstart h
      omega
    · rw [hstart.eq_of_length h] at hlt
      omega
  · intro hlt
    exact hlonger (List.prefix_of_prefix_length_le ha hb (Nat.le_of_lt hlt)) hlt

/-- Matches in order of their first and last words. -/
theorem before_iff {i j k l : Nat} {p q : String} (hk : k ≠ 0) (hl : l ≠ 0) :
    Match.Before ⟨p, List.range' i k⟩ ⟨q, List.range' j l⟩ ↔
      i + k < j + l ∨ (i + k = j + l ∧ i < j) := by
  have hhead : ∀ {i k : Nat}, k ≠ 0 → (List.range' i k).headD 0 = i := by
    intro i k hk
    obtain ⟨k, rfl⟩ := Nat.exists_eq_succ_of_ne_zero hk
    rfl
  have hlast : ∀ {i k : Nat}, k ≠ 0 → (List.range' i k).getLastD 0 = i + k - 1 := by
    intro i k hk
    simp [List.getLastD_eq_getLast?, List.getLast?_range', hk]
  rw [Match.Before, hhead hk, hhead hl, hlast hk, hlast hl]
  omega

theorem Covers.length_ended {before after : List String} (h : Covers words o phrase before after) :
    (ended (wordBytes (before ++ wordsOf phrase))).length = o.stop + 1 := by
  have hsome : wordBytes (wordsOf phrase) ≠ [] := by
    simp [wordBytes, wordsOf_ne_nil]
  rw [wordBytes_append, ended_append, List.length_append, Phrase.length_ended hsome, h.stop,
    h.start]
  omega

theorem Covers.before {p : Occurrence} {q : String} {a b c d : List String}
    (ho : Covers words o phrase a b) (hp : Covers words p q c d) (h : o.Before p) :
    a.length + (wordsOf phrase).length < c.length + (wordsOf q).length ∨
      (a.length + (wordsOf phrase).length = c.length + (wordsOf q).length ∧
        a.length < c.length) := by
  have hostart : a <+: words := ⟨wordsOf phrase ++ b, by rw [ho.split, List.append_assoc]⟩
  have hpstart : c <+: words := ⟨wordsOf q ++ d, by rw [hp.split, List.append_assoc]⟩
  have hostop : a ++ wordsOf phrase <+: words := ⟨b, ho.split.symm⟩
  have hpstop : c ++ wordsOf q <+: words := ⟨d, hp.split.symm⟩
  have hstops := length_ended_lt_iff hostop hpstop
  have hstops' := length_ended_lt_iff hpstop hostop
  have hstarts := length_ended_lt_iff hostart hpstart
  rw [ho.length_ended, hp.length_ended, List.length_append, List.length_append] at hstops hstops'
  rw [← ho.start, ← hp.start] at hstarts
  rcases h with h | ⟨h, h'⟩ <;> omega

theorem pairwise_matchesBy (hsearch : Complete search) (hnodup : table.phrases.Nodup)
    (hne : "" ∉ table.phrases) (hwords : Separable words) :
    (table.matchesBy search words).Pairwise Match.Before := by
  rw [matchesBy_eq]
  have hordered := (hsearch.ordered (distinct_phrases hnodup hne) (joined (wordBytes words))).filter
    (standsAlone (joined (wordBytes words)))
  refine List.pairwise_filterMap.2 (hordered.imp_of_mem ?_)
  intro o p ho hp hbefore m hm n hn
  obtain ⟨phrase, hphrase, rfl⟩ := Option.map_eq_some_iff.1 hm
  obtain ⟨other, hother, rfl⟩ := Option.map_eq_some_iff.1 hn
  obtain ⟨a, b, ho⟩ := (mem_found_iff hsearch hnodup hne hwords hphrase).1 ho
  obtain ⟨c, d, hp⟩ := (mem_found_iff hsearch hnodup hne hwords hother).1 hp
  rw [ho.covered hwords, hp.covered hwords]
  refine (before_iff ?_ ?_).2 (ho.before hp hbefore)
  · simpa using wordsOf_ne_nil phrase
  · simpa using wordsOf_ne_nil other

end Found

/-! ### Phrases as people type them -/

section OfTexts

open Prose (Spacing wordChars)

theorem toList_spaced (text : String) :
    (Prose.spaced text).toList = [' '].intercalate (wordChars text.toList) := by
  rw [Prose.spaced, String.toList_intercalate, Prose.words, List.map_map]
  simp

theorem spaced_eq_empty_iff {text : String} : Prose.spaced text = "" ↔ Prose.words text = [] := by
  rw [← String.toList_eq_nil_iff, toList_spaced, Prose.words, List.map_eq_nil_iff]
  constructor
  · intro h
    cases hwords : wordChars text.toList with
    | nil => rfl
    | cons word rest =>
      have hword : word ≠ [] := Prose.ne_nil_of_mem_wordChars (hwords ▸ List.mem_cons_self)
      rw [hwords] at h
      cases rest with
      | nil => exact absurd (by simpa using h) hword
      | cons next rest => simp [List.intercalate_cons_cons] at h
  · intro h
    rw [h]
    rfl

theorem mem_ofTexts_iff {texts : List String} {phrase : String} :
    phrase ∈ (Table.ofTexts texts).phrases ↔
      ∃ text ∈ texts, Prose.words text ≠ [] ∧ phrase = Prose.spaced text := by
  rw [Table.ofTexts, List.mem_eraseDups, List.mem_filter, List.mem_map]
  constructor
  · rintro ⟨⟨text, htext, rfl⟩, hne⟩
    refine ⟨text, htext, fun h => ?_, rfl⟩
    rw [spaced_eq_empty_iff.2 h] at hne
    cases hne
  · rintro ⟨text, htext, hne, rfl⟩
    refine ⟨⟨text, htext, rfl⟩, ?_⟩
    simpa [spaced_eq_empty_iff] using hne

theorem nodup_ofTexts (texts : List String) : (Table.ofTexts texts).phrases.Nodup :=
  nodup_eraseDups _

theorem empty_notMem_ofTexts (texts : List String) : "" ∉ (Table.ofTexts texts).phrases := by
  intro h
  obtain ⟨text, -, hne, hempty⟩ := mem_ofTexts_iff.1 h
  exact hne (spaced_eq_empty_iff.1 hempty.symm)

/-- The words of a phrase are its words of prose, unless one of them holds a space. That one begins
with a spacing character; so one of the words of the phrase does as well, or is empty. -/
theorem wordsOf_spaced {text : String} (h : Prose.words text ≠ []) :
    wordsOf (Prose.spaced text) = Prose.words text ∨
      ((∃ word ∈ wordsOf (Prose.spaced text), word = "" ∨ ∃ c ∈ word.toList, Spacing c) ∧
        ∃ word ∈ Prose.words text, ∃ c ∈ word.toList, Spacing c) := by
  rw [wordsOf, toList_spaced, Prose.words]
  by_cases hspace : ∃ word ∈ wordChars text.toList, ' ' ∈ word
  · obtain ⟨word, hword, hmem⟩ := hspace
    obtain ⟨piece, hpiece, rest, hsplit⟩ := exists_mem_splitOn hmem
    obtain ⟨d, tail, hled, hd⟩ := Prose.led_of_mem_wordChars hword hmem
    refine .inr ⟨⟨_, List.mem_map_of_mem (splitOn_subset_of_mem hword hpiece), ?_⟩,
      String.ofList word, List.mem_map_of_mem hword, ' ', by simpa using hmem, Prose.spacing_space⟩
    cases piece with
    | nil => exact .inl rfl
    | cons c piece =>
      obtain ⟨rfl, -⟩ := List.cons.inj (hsplit.symm.trans hled)
      exact .inr ⟨c, by simp, hd⟩
  · have hnone : ∀ word ∈ wordChars text.toList, ' ' ∉ word :=
      fun word hword hmem => hspace ⟨word, hword, hmem⟩
    refine .inl (congrArg _ (List.splitOn_intercalate ' ' hnone fun hnil => h ?_))
    rw [Prose.words, hnil, List.map_nil]

/-- Among words without spacing characters a phrase stands where its words of prose do. -/
theorem standAt_spaced_iff {text : String} (h : Prose.words text ≠ []) {words : List String}
    (hwords : ∀ word ∈ words, word ≠ "" ∧ ∀ c ∈ word.toList, ¬Spacing c) {i : Nat} :
    (StandAt (wordsOf (Prose.spaced text)) words i ↔ StandAt (Prose.words text) words i) ∧
      (StandAt (Prose.words text) words i →
        (wordsOf (Prose.spaced text)).length = (Prose.words text).length) := by
  have hmem : ∀ {sought : List String}, StandAt sought words i → ∀ word ∈ sought, word ∈ words := by
    intro sought hstand word hword
    rw [← hstand] at hword
    exact List.mem_of_mem_drop (List.mem_of_mem_take hword)
  rcases wordsOf_spaced h with heq | ⟨⟨piece, hpiece, hcase⟩, word, hword, c, hc, hspacing⟩
  · rw [heq]
    exact ⟨Iff.rfl, fun _ => rfl⟩
  · have hpieces : ¬StandAt (wordsOf (Prose.spaced text)) words i := by
      intro hstand
      obtain ⟨hne, hnone⟩ := hwords piece (hmem hstand piece hpiece)
      rcases hcase with rfl | ⟨d, hd, hspacing⟩
      · exact hne rfl
      · exact hnone d hd hspacing
    have hprose : ¬StandAt (Prose.words text) words i := fun hstand =>
      (hwords word (hmem hstand word hword)).2 c hc hspacing
    exact ⟨iff_of_false hpieces hprose, fun hstand => absurd hstand hprose⟩

/-- A search for phrases among words finds every place where the words of a phrase stand in a row,
and nothing else, in strict order of the last words and then of the first; so it finds each place
once. The words of a phrase are the parts between the spaces of its spelling; where the words
searched hold no spacing character of any kind, they are as well its words of prose. -/
theorem matches_whole_words {search : Search} (hsearch : Complete search)
    (texts words : List String)
    (hwords : ∀ word ∈ words, word ≠ "" ∧ ' ' ∉ word.toList) :
    (∀ m, m ∈ (Table.ofTexts texts).matchesBy search words ↔
      ∃ text ∈ texts, Prose.words text ≠ [] ∧ ∃ i,
        StandAt (wordsOf (Prose.spaced text)) words i ∧
          m = ⟨Prose.spaced text, List.range' i (wordsOf (Prose.spaced text)).length⟩) ∧
    ((Table.ofTexts texts).matchesBy search words).Pairwise Match.Before ∧
    ((∀ word ∈ words, ∀ c ∈ word.toList, ¬Spacing c) →
      ∀ m, m ∈ (Table.ofTexts texts).matchesBy search words ↔
        ∃ text ∈ texts, Prose.words text ≠ [] ∧ ∃ i, StandAt (Prose.words text) words i ∧
          m = ⟨Prose.spaced text, List.range' i (Prose.words text).length⟩) := by
  have hiff : ∀ m, m ∈ (Table.ofTexts texts).matchesBy search words ↔
      ∃ text ∈ texts, Prose.words text ≠ [] ∧ ∃ i,
        StandAt (wordsOf (Prose.spaced text)) words i ∧
          m = ⟨Prose.spaced text, List.range' i (wordsOf (Prose.spaced text)).length⟩ := by
    intro m
    rw [mem_matchesBy_iff hsearch (nodup_ofTexts texts) (empty_notMem_ofTexts texts) hwords]
    constructor
    · rintro ⟨phrase, hphrase, hplace⟩
      obtain ⟨text, htext, hne, rfl⟩ := mem_ofTexts_iff.1 hphrase
      exact ⟨text, htext, hne, hplace⟩
    · rintro ⟨text, htext, hne, hplace⟩
      exact ⟨_, mem_ofTexts_iff.2 ⟨text, htext, hne, rfl⟩, hplace⟩
  have hordered :=
    pairwise_matchesBy hsearch (nodup_ofTexts texts) (empty_notMem_ofTexts texts) hwords
  refine ⟨hiff, hordered, fun hspacing m => (hiff m).trans ?_⟩
  have hplain : ∀ word ∈ words, word ≠ "" ∧ ∀ c ∈ word.toList, ¬Spacing c :=
    fun word hword => ⟨(hwords word hword).1, hspacing word hword⟩
  constructor
  · rintro ⟨text, htext, hne, i, hstand, rfl⟩
    obtain ⟨hstands, hlength⟩ := standAt_spaced_iff hne hplain (i := i)
    exact ⟨text, htext, hne, i, hstands.1 hstand, by rw [hlength (hstands.1 hstand)]⟩
  · rintro ⟨text, htext, hne, i, hstand, rfl⟩
    obtain ⟨hstands, hlength⟩ := standAt_spaced_iff hne hplain (i := i)
    exact ⟨text, htext, hne, i, hstands.2 hstand, by rw [hlength hstand]⟩

/-- Phrases that overlap and one that is part of another, among three words. -/
theorem matches_of_overlapping_phrases :
    Complete occurrences ∧ (∀ word ∈ ["a", "b", "a"], word ≠ "" ∧ ' ' ∉ word.toList) ∧
      (∀ word ∈ ["a", "b", "a"], ∀ c ∈ word.toList, ¬Spacing c) ∧
      ∀ m ∈ ([⟨"a b", [0, 1]⟩, ⟨"b", [1]⟩, ⟨"b a", [1, 2]⟩] : List Match),
        m ∈ (Table.ofTexts ["A b!", "b", "b's a"]).matchesBy occurrences ["a", "b", "a"] := by
  have hwords : ∀ word ∈ ["a", "b", "a"], word ≠ "" ∧ ' ' ∉ word.toList := by decide
  have hcodes : ∀ word ∈ ["a", "b", "a"],
      (word.toList.all fun c => c.toNat ∉ Prose.spacingCodes) = true := by decide
  have hspacing : ∀ word ∈ ["a", "b", "a"], ∀ c ∈ word.toList, ¬Spacing c := by
    intro word hword c hc hspacing
    have hcode := List.all_eq_true.1 (hcodes word hword) c hc
    exact of_decide_eq_true hcode (Prose.toNat_mem_of_spacing hspacing)
  obtain ⟨-, -, hprose⟩ :=
    matches_whole_words occurrences_complete ["A b!", "b", "b's a"] _ hwords
  have hfirst : Prose.words "A b!" = ["a", "b"] := by decide +kernel
  have hsecond : Prose.words "b" = ["b"] := by decide +kernel
  have hthird : Prose.words "b's a" = ["b", "a"] := by decide +kernel
  refine ⟨occurrences_complete, hwords, hspacing, fun m hm => (hprose hspacing m).2 ?_⟩
  simp only [List.mem_cons, List.not_mem_nil, or_false] at hm
  rcases hm with rfl | rfl | rfl
  · refine ⟨"A b!", by simp, by simp [hfirst], 0, ?_⟩
    rw [Prose.spaced, hfirst]
    exact ⟨rfl, rfl⟩
  · refine ⟨"b", by simp, by simp [hsecond], 1, ?_⟩
    rw [Prose.spaced, hsecond]
    exact ⟨rfl, rfl⟩
  · refine ⟨"b's a", by simp, by simp [hthird], 1, ?_⟩
    rw [Prose.spaced, hthird]
    exact ⟨rfl, rfl⟩

end OfTexts

end Marginalia.Phrase
