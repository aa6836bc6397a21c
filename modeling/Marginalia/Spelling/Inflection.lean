import Marginalia.Text.Bytes

/-! Regular inflections: the words that an inflected form may come from. Endings are cut off by bytes,
as the listed words are ASCII; a cut inside a character is refused. -/

namespace Marginalia.Spelling

open Marginalia.Text (bytes)

/-- What an ending leaves of a word. -/
def before? (word ending : List Char) : Option (List Char) :=
  if ending.isSuffixOf word then some (word.take (word.length - ending.length)) else none

/-- Whether the last two bytes are equal. -/
def endsDoubled (text : List Char) : Bool :=
  match (bytes text).reverse with
  | a :: b :: _ => a == b
  | _ => false

/-- A text without its last byte; `none` when that byte is part of a longer character. -/
def dropLastByte? (text : List Char) : Option (List Char) :=
  if text.getLast?.any fun c => c.utf8Size == 1 then some text.dropLast else none

/-- Endings that go without a change of the stem. -/
def plainEndings : List String := ["s", "es", "ed", "ing", "ly", "er", "ers", "est"]

/-- Endings before which the last letter of the stem may be doubled. -/
def doublingEndings : List String := ["ed", "ing", "er", "ers", "est"]

/-- Stems of a word whose ending takes the place of a y. -/
def yStems (word : List Char) : List (List Char) :=
  let plural := (before? word ['i', 'e', 's']).or (before? word ['i', 'e', 'd'])
  (plural.toList ++ (before? word ['i', 'l', 'y']).toList).map (· ++ ['y'])

/-- Stems of a word for one ending: as it stands, with an e, and without the doubled letter. -/
def stems? (word : List Char) (ending : String) : Option (List (List Char)) :=
  match before? word ending.toList with
  | none => some []
  | some base =>
    if (bytes base).length < 2 then some []
    else if doublingEndings.contains ending && endsDoubled base then
      (dropLastByte? base).map fun single => [base, base ++ ['e'], single]
    else some [base, base ++ ['e']]

/-- The words that an inflected form may come from; `none` when a stem would end inside a
character. -/
def bases? (word : List Char) : Option (List (List Char)) :=
  (plainEndings.mapM (stems? word)).map fun stems => yStems word ++ stems.flatten

end Marginalia.Spelling
