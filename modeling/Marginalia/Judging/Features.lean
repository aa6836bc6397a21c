import Marginalia.Code.Restating
import Marginalia.Judging.Vocabulary
import Marginalia.Likeness.Jaccard
import Marginalia.Phrase
import Marginalia.Prose.Body
import Marginalia.Settings.Basic
import Marginalia.Spelling.Dictionary
import Marginalia.Verdict

/-! What a verdict on a comment depends on, computed once for each comment. -/

namespace Marginalia.Judging

open Marginalia.Code Marginalia.Spelling

/-- A judge: settings with the tables and the dictionary made from them. -/
structure Judge (α : Type) where
  settings : ClassifierSettings α
  dictionary : Dictionary
  fillers : Phrase.Table
  claims : Phrase.Table
  markers : List String

def Judge.ofSettings {α : Type} (settings : ClassifierSettings α) : Judge α where
  settings := settings
  dictionary := Dictionary.builtin.extend settings.words
  fillers := .ofTexts (fillerPhrases ++ settings.fillers)
  claims := .ofTexts affectiveClaims
  markers :=
    ((placeholderMarkers ++ settings.markers).map Prose.spaced).filter fun marker => !marker.isEmpty

structure Features (α : Type) where
  body : String
  words : List String
  /-- The body is a marker that stands alone, or holds no word. -/
  placeholder : Bool
  /-- Narrative phrases, each once, in order of appearance. -/
  fillerHits : List String
  /-- How many words narrative phrases cover. -/
  fillerWords : Nat
  /-- Content words that are neither generic nor named by the code. -/
  novelTerms : List String
  /-- Likeness of the content words to the identifier parts of the code. -/
  restatement : α
  /-- Claims of a guarantee. -/
  claims : List String
  /-- The code shows a check. -/
  codeChecks : Bool
  typos : List Typo
  deriving DecidableEq, Repr

/-- Words of three or more letters that are not function words. -/
def isContent (word : String) : Bool :=
  3 ≤ word.length && word.toList.all Unicode.isLetter && !stopWords.contains word

/-- Whether a word is one that spelling is checked of: three or more ASCII letters, and not a name in
the code. -/
def isSpellable (names : List String) (word : String) : Bool :=
  3 ≤ word.length && word.toList.all Char.isAlpha && !names.contains word

/-- The misspelled words, each once, with their corrections. -/
def typosIn (dictionary : Dictionary) (names words : List String) : List Typo :=
  (words.eraseDups.filter (isSpellable names)).filterMap fun word =>
    (dictionary.correction word).map fun suggestion => ⟨word, suggestion⟩

/-- A word, or its correction when it is misspelled. -/
def corrected (typos : List Typo) (word : String) : String :=
  match typos.find? (·.found == word) with
  | some typo => typo.suggestion
  | none => word

/-- Whether a word, as written and as corrected, says something that the code does not. -/
def isNovel (names : List String) (word fixed : String) : Bool :=
  isContent fixed && !genericWords.contains fixed && !isKeyword fixed
    && !restatesAny fixed names && !restatesAny word names

/-- The terms that add to the code, each once: words outside narrative phrases. -/
def novelTermsIn (names : List String) (typos : List Typo) (covered : List Nat)
    (words : List String) : List String :=
  (words.zipIdx.filterMap fun (word, index) =>
    if !covered.contains index && isNovel names word (corrected typos word) then
      some (corrected typos word)
    else none).eraseDups

/-- The content words, each as the part that it restates when there is one. -/
def contentOf (parts fixed : List String) : List String :=
  ((fixed.filter isContent).map fun word => (parts.find? (restates word)).getD word).eraseDups

/-- Likeness of content words to the parts of the code; without content words there is none. -/
def restatementOf {α : Type} [Score α] (parts fixed : List String) : α :=
  if (contentOf parts fixed).isEmpty then Score.zero else jaccard (contentOf parts fixed) parts

/-- The claims among words: verbs as often as they occur, then the phrases not yet listed. -/
def claimsIn (phrases : Phrase.Table) (fixed : List String) : List String :=
  let verbs := fixed.filter claimVerbs.contains
  let found := (phrases.matches fixed).map (·.text)
  verbs ++ (found.eraseDups.filter fun phrase => !verbs.contains phrase)

def Judge.featuresOf {α : Type} [Score α] (judge : Judge α) (body code : String) : Features α :=
  let words := Prose.words body
  let names := vocabulary code
  let parts := Code.parts code
  let hits := judge.fillers.matches words
  let covered := (hits.flatMap (·.covered)).eraseDups
  let typos := typosIn judge.dictionary names words
  let fixed := words.map (corrected typos)
  { body := body
    words := words
    placeholder := words.isEmpty || judge.markers.contains (String.intercalate " " words)
    fillerHits := (hits.map (·.text)).eraseDups
    fillerWords := covered.length
    novelTerms := novelTermsIn names typos covered words
    restatement := restatementOf parts fixed
    claims := claimsIn judge.claims fixed
    codeChecks := parts.any checkWords.contains
    typos := typos }

/-- The features of a comment that has bytes and text. -/
def Judge.features {α : Type} [Score α] (judge : Judge α) (comment : Comment) :
    Except Fault (Features α) := do
  comment.check
  let body := Prose.body comment.raw
  if body.toList.all Unicode.isBlank then .error (.emptyComment comment.fileId comment.start)
  else .ok (judge.featuresOf body comment.code)

end Marginalia.Judging
