import Marginalia.Proofs.Sequence
import Marginalia.Settings.Text

/-! Settings that are written and read back. Each kind of option is read in the form in which it is
written, each section gives all of its options once, and the names of the policy are ones that it
knows; so what is written is read back, and refused only where the settings themselves are. -/

namespace Marginalia

open Document

variable {α : Type}

/-! ### Options -/

@[simp] theorem bool?_bool (b : Bool) : bool? (.bool b : Value α) = some b := rfl

@[simp] theorem nat?_nat (n : Nat) : nat? (.nat n : Value α) = some n := by
  simp [nat?, Value.nat, Value.untagged]

@[simp] theorem optionalNat?_optionalNat (n : Option Nat) :
    optionalNat? (optionalNat n : Value α) = some n := by
  cases n with
  | none => rfl
  | some n => exact congrArg (Option.map some) (nat?_nat (α := α) n)

@[simp] theorem number?_decimal [Score α] (x : α) : number? (.decimal x) = some x := rfl

@[simp] theorem texts?_texts (xs : List String) : texts? (texts xs : Value α) = some xs := by
  change (xs.map Value.text).mapM text? = some xs
  rw [mapM_eq_some_iff, List.forall₂_map_left_iff, List.forall₂_same]
  exact fun x _ => rfl

@[simp] theorem format?_name (format : ReportFormat) :
    format? (.text format.name : Value α) = some format := by
  cases format <;> rfl

/-! ### Sections -/

/-- A record is read as a section of its options. -/
@[simp] theorem section?_record (entries : List (String × Value α)) : section?
    (Value.record entries) = some entries := by
  change (entries.map fun entry => (Value.text entry.1, entry.2)).mapM _ = some entries
  rw [mapM_eq_some_iff, List.forall₂_map_left_iff, List.forall₂_same]
  exact fun entry _ => rfl

theorem AnalysisSettings.ofSection?_toValue (s : AnalysisSettings) :
    (section? (s.toValue : Value α)).bind ofSection? = some s := by
  rw [toValue, section?_record]
  simp [ofSection?, Section.read?, Section.given]

theorem ClassifierSettings.ofSection?_toValue [Score α] (s : ClassifierSettings α) :
    (section? s.toValue).bind ofSection? = some s := by
  rw [toValue, section?_record]
  simp [ofSection?, Section.read?, Section.given]

theorem DriftSettings.ofSection?_toValue [Score α] (s : DriftSettings α) :
    (section? s.toValue).bind ofSection? = some s := by
  rw [toValue, section?_record]
  simp [ofSection?, Section.read?, Section.given]

theorem Policy.ofSection?_toValue (p : Policy) :
    (section? (p.toValue : Value α)).bind ofSection? = some p := by
  rw [toValue, section?_record]
  simp [ofSection?, Section.read?, Section.given]

theorem OutputSettings.ofSection?_toValue (s : OutputSettings) :
    (section? (s.toValue : Value α)).bind ofSection? = some s := by
  rw [toValue, section?_record]
  simp [ofSection?, Section.read?, Section.given]

theorem Settings.ofSection?_toValue [Score α] (s : Settings α) :
    (section? s.toValue).bind ofSection? = some s := by
  rw [toValue, section?_record]
  simp [ofSection?, Section.read?, Section.given, AnalysisSettings.ofSection?_toValue,
    ClassifierSettings.ofSection?_toValue, DriftSettings.ofSection?_toValue,
    Policy.ofSection?_toValue, OutputSettings.ofSection?_toValue]

theorem Policy.checkNames_toValue (p : Policy) :
    checkNames (p.toValue : Value α) = .ok () := rfl

/-! ### Documents -/

variable [Score α]

/-- What settings are written as is read as these settings, unless they do not make sense; then the
fault is theirs. -/
theorem Settings.ofValue_toValue (s : Settings α) :
    ofValue s.toValue = s.check.map fun _ => s := by
  have hnull : ¬s.toValue.isNull = true := nofun
  have hpolicy : s.toValue.untagged.get? "policy" = some s.policy.toValue := rfl
  have hread : orMalformed ((section? s.toValue).bind ofSection?) = .ok s := by
    rw [ofSection?_toValue, orMalformed]
  rw [ofValue, if_neg hnull, hpolicy]
  simp only [Policy.checkNames_toValue, hread]
  change (s.check >>= fun _ => .ok s) = s.check.map fun _ => s
  cases s.check <;> rfl

/-! ### Texts -/

/-- How values are written as text, and how texts are read. -/
structure Document.Codec (α : Type) where
  write : Value α → String
  read? : String → Option (Value α)

/-- A value is read back as it was written. -/
def Document.Codec.Keeps (codec : Codec α) (value : Value α) : Prop :=
  codec.read? (codec.write value) = some value

/-- Settings as text. -/
def Settings.written (codec : Codec α) (s : Settings α) : String := codec.write s.toValue

/-- Settings from text. -/
def Settings.ofWritten (codec : Codec α) (text : String) : Except Fault (Settings α) := do
  ofValue (← orMalformed (codec.read? text))

theorem Settings.ofWritten_written {codec : Codec α} {s : Settings α}
    (hkeeps : codec.Keeps s.toValue) :
    ofWritten codec (s.written codec) = s.check.map fun _ => s := by
  have hread : codec.read? (s.written codec) = some s.toValue := hkeeps
  rw [ofWritten, hread, ← ofValue_toValue]
  rfl

/-- The notation of settings files. -/
def Document.Codec.yaml : Codec Float := ⟨Yaml.render, Value.ofText?⟩

theorem Settings.ofText_text {s : Settings Float} (hkeeps : Codec.yaml.Keeps s.toValue) :
    ofText s.text = s.check.map fun _ => s :=
  ofWritten_written hkeeps

/-- Settings that make sense are read back from the text that they are written as, in any notation
that keeps the value of their document. -/
theorem settings_read_back {codec : Codec α} {s : Settings α} (hvalid : s.check = .ok ())
    (hkeeps : codec.Keeps s.toValue) : Settings.ofWritten codec (s.written codec) = .ok s := by
  rw [Settings.ofWritten_written hkeeps, hvalid]
  rfl

/-- Settings with a limit and without a time, with texts that look like something else, and with
bounds at both ends of what they may be. -/
def notedSettings : Settings Float where
  analysis := ⟨some 4, none, ["null", "a: b"], [], 18446744073709551615⟩
  classifier := ⟨0, 2, ["teh"], [], []⟩
  drift := ⟨true, 0.85, 1, 64⟩
  policy := { Policy.default with deleteFiller := true }
  output := ⟨.text, false⟩

/-- The file that holds them. -/
def notedText : String :=
  "analysis:\n  max_concurrency: 4\n  total_timeout_seconds: null\n  exclude_patterns:\n" ++
  "  - 'null'\n  - 'a: b'\n  ignored_dirs: []\n  max_file_size_bytes: 18446744073709551615\n" ++
  "classifier:\n  redundant_jaccard: 0.0\n  filler_max_novel_terms: 2\n  extra_words:\n" ++
  "  - teh\n  extra_filler_phrases: []\n  extra_placeholder_markers: []\n" ++
  "drift:\n  enabled: true\n  code_similarity_threshold: 0.85\n" ++
  "  comment_similarity_threshold: 1.0\n  max_bucket_size: 64\n" ++
  "policy:\n  delete_filler: true\n  delete_redundant: false\n  delete_placeholder: false\n" ++
  "  flag_misleading: true\n  flag_drift: true\n  preserve_informative: true\n" ++
  "  fix_typos: false\noutput:\n  format: text\n  include_kept: false\n"

/-- A notation that knows this one file. -/
def notedCodec : Codec Float where
  write _ := notedText
  read? text := if text = notedText then some notedSettings.toValue else none

theorem noted_settings_read_back :
    notedSettings.check = .ok () ∧ notedCodec.Keeps notedSettings.toValue ∧
      Settings.ofWritten notedCodec notedText = .ok notedSettings := by
  have hvalid : notedSettings.check = .ok () := by decide +kernel
  have hkeeps : notedCodec.Keeps notedSettings.toValue := by
    simp [Document.Codec.Keeps, notedCodec]
  exact ⟨hvalid, hkeeps, settings_read_back hvalid hkeeps⟩

end Marginalia
