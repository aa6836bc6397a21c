import Marginalia.Document.Value
import Marginalia.Judging.Vocabulary
import Marginalia.Phrase
import Marginalia.Text.Trim
import Marginalia.Unicode.Case

/-! Commits: what makes a commit message look narrated or generated. -/

namespace Marginalia

structure Commit where
  /-- Its name in hexadecimal digits. -/
  hash : String
  message : String
  deriving DecidableEq, Repr

namespace Commit

def narrativePhrases : List String := [
  "this commit", "this change", "this update", "this patch", "here we", "this pr",
  "this pull request", "in this commit"]

def generatedFooters : List String := [
  "generated with", "co-authored-by: claude", "co-authored-by: chatgpt", "co-authored-by: copilot",
  "co-authored-by: gemini", "co-authored-by: gpt", "created by ai", "written by ai"]

/-- Names of pictures between colons. -/
def pictureCodes : List String := [
  ":sparkles:", ":bug:", ":memo:", ":rocket:", ":art:", ":fire:", ":zap:", ":lipstick:", ":tada:",
  ":white_check_mark:", ":lock:", ":bookmark:", ":rotating_light:", ":construction:",
  ":green_heart:", ":arrow_down:", ":arrow_up:", ":pushpin:", ":recycle:", ":heavy_plus_sign:",
  ":heavy_minus_sign:", ":wrench:", ":hammer:", ":globe_with_meridians:", ":pencil2:", ":poop:",
  ":rewind:", ":twisted_rightwards_arrows:", ":package:", ":truck:", ":page_facing_up:", ":boom:",
  ":bento:", ":wheelchair:", ":bulb:", ":beers:", ":speech_balloon:", ":card_file_box:",
  ":loud_sound:", ":mute:", ":busts_in_silhouette:"]

/-- Filler phrases that speak to the reader. -/
def conversational : List String :=
  Judging.fillerPhrases.filter fun phrase =>
    phrase.startsWith "here" || phrase.startsWith "let" || phrase.startsWith "as you"

def narrative : Phrase.Table := .ofTexts (narrativePhrases ++ conversational)

/-- Pictures: faces, symbols, transport, flags, signs and dingbats. -/
def isPicture (c : Char) : Bool :=
  let n := c.toNat
  [(0x1F600, 0x1F64F), (0x1F300, 0x1F5FF), (0x1F680, 0x1F6FF), (0x1F1E0, 0x1F1FF),
    (0x2600, 0x26FF), (0x2700, 0x27BF)].any fun (first, last) => first ≤ n && n ≤ last

def occursIn (part : List Char) : List Char → Bool
  | [] => part.isEmpty
  | c :: rest => part.isPrefixOf (c :: rest) || occursIn part rest

/-- What is suspicious about a message, in the order of the checks: pictures, the first code of one,
every generated line, and the first narrative phrase. -/
def suspicions (message : String) : List String :=
  let lowered := Unicode.lower message.toList
  let mentions (text : String) : Bool := occursIn text.toList lowered
  let code := (pictureCodes.find? mentions).map fun code => "contains gitmoji (" ++ code ++ ")"
  let footers := (generatedFooters.filter mentions).map ("contains generated footer: " ++ ·)
  let phrase := (narrative.matches (Prose.words message)).head?.map fun hit =>
    "uses narrative phrasing: \"" ++ hit.text ++ "\""
  (if message.toList.any isPicture then ["contains emoji"] else [])
    ++ code.toList ++ footers ++ phrase.toList

structure Suspect where
  /-- The beginning of its hash. -/
  hash : String
  /-- Its first line, shortened. -/
  subject : String
  reasons : List String
  deriving DecidableEq, Repr

/-- How many characters of a first line are shown. -/
def subjectWidth : Nat := 60

/-- A text of at most `width` characters: a longer one ends in three points. -/
def shortened (width : Nat) (text : List Char) : List Char :=
  if text.length ≤ width then text else text.take (width - 3) ++ ['.', '.', '.']

/-- A commit, if it is suspicious. Line feeds before its message mean nothing. -/
def suspect? (commit : Commit) : Option Suspect :=
  let message := commit.message.toList.dropWhile (· == '\n')
  match suspicions (String.ofList message) with
  | [] => none
  | reasons => some {
      hash := String.ofList (commit.hash.toList.take 7)
      subject := String.ofList (shortened subjectWidth ((Text.lines message).headD []))
      reasons := reasons }

def defaultCount : Nat := 20

/-- The suspicious ones among the newest commits of a history, newest first; zero asks for the
default number. -/
def suspects (history : List Commit) (count : Nat) : List Suspect :=
  (history.take (if count = 0 then defaultCount else count)).filterMap suspect?

def Suspect.toValue {α : Type} (s : Suspect) : Document.Value α :=
  .record [
    ("hash", .text s.hash),
    ("subject", .text s.subject),
    ("reasons", .list (s.reasons.map .text))]

end Commit

end Marginalia
