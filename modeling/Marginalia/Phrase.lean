import Marginalia.Prose.Words
import Marginalia.Text.Bytes
import Marginalia.Text.Search

/-! Phrases found among the words of a text, whole words at a time. The words are joined by single
spaces and searched for the phrases, byte by byte; what does not stand between the ends of words is
left out, and what stays is read back as numbers of words. -/

namespace Marginalia

open Marginalia.Text

/-- A phrase and the indexes of the words that it covers. -/
structure Phrase.Match where
  text : String
  covered : List Nat
  deriving DecidableEq, Repr

/-- Phrases as words joined by single spaces, each once and none empty. -/
structure Phrase.Table where
  phrases : List String
  deriving DecidableEq, Repr

namespace Phrase

def Table.ofTexts (texts : List String) : Table :=
  ⟨((texts.map Prose.spaced).filter fun phrase => !phrase.isEmpty).eraseDups⟩

/-- The byte between two words. -/
def gap : UInt8 := 32

/-- Where words begin in the text that joins them, the first at an offset. -/
def wordStarts (offset : Nat) : List (List UInt8) → List Nat
  | [] => []
  | word :: rest => offset :: wordStarts (offset + word.length + 1) rest

/-- Whether an end of the text or a gap lies on both sides of an occurrence. -/
def standsAlone (text : List UInt8) (o : Occurrence) : Bool :=
  (o.start == 0 || text[o.start - 1]? == some gap)
    && (o.stop == text.length || text[o.stop]? == some gap)

/-- The indexes of the words that begin in an occurrence. -/
def coveredBy (starts : List Nat) (o : Occurrence) : List Nat :=
  (starts.zipIdx.filter fun (start, _) => o.start ≤ start && start < o.stop).map (·.2)

/-- The matches of a table among words, as a search for several patterns gives them. -/
def Table.matchesBy (search : Search) (table : Table) (words : List String) : List Match :=
  let text := bytes (String.intercalate " " words).toList
  let starts := wordStarts 0 (words.map fun word => bytes word.toList)
  ((search (table.phrases.map fun phrase => bytes phrase.toList) text).filter
    (standsAlone text)).filterMap fun o =>
      table.phrases[o.pattern]?.map fun phrase => ⟨phrase, coveredBy starts o⟩

/-- All matches, overlapping ones too, by their ends; at one end the longer first. -/
def Table.matches (table : Table) (words : List String) : List Match :=
  table.matchesBy occurrences words

end Phrase

end Marginalia
