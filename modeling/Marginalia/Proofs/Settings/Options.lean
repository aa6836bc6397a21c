import Marginalia.Proofs.Sequence
import Marginalia.Settings.Text

/-! The options of the settings, one by one: where a document gives an option, what a given value
says, and where the option is kept. Main statement: what a document gives is what is loaded, and what
it leaves out has its default; only that a section of files without patterns excludes no file. -/

namespace Marginalia

open Document

variable {α : Type}

/-! ### What documents give and say -/

namespace Document.Value

/-- Whether a key is one of some names. -/
def isName (names : List String) (key : Value α) : Bool :=
  match key.untagged with
  | text name => names.contains name
  | _ => false

/-- The values that a mapping gives under some names. -/
def under (value : Value α) (names : List String) : List (Value α) :=
  match value.untagged with
  | mapping entries => (entries.filter fun entry => isName names entry.1).map (·.2)
  | _ => []

def SaysBool (value : Value α) (b : Bool) : Prop := value.untagged = bool b

def SaysNat (value : Value α) (n : Nat) : Prop := value.untagged = nat n

/-- Nothing says that there is no number. -/
def SaysOptionalNat (value : Value α) (n : Option Nat) : Prop :=
  (value = null ∧ n = none) ∨ ∃ m, value.SaysNat m ∧ n = some m

/-- A whole number counts as a number. -/
def SaysNumber [Score α] (value : Value α) (x : α) : Prop :=
  value.untagged = decimal x ∨ ∃ n, value.untagged = integer n ∧ x = ofInt n

/-- Nothing says that there are no texts. -/
def SaysTexts (value : Value α) (xs : List String) : Prop :=
  (value.untagged = null ∧ xs = []) ∨
    ∃ items, value.untagged = list items ∧
      List.Forall₂ (fun item x => item.untagged = text x) items xs

/-- A format is said by its name, as a text or as a tag of nothing. -/
def SaysFormat (value : Value α) (format : ReportFormat) : Prop :=
  value = text format.name ∨ ∃ inner, value = tagged format.name inner ∧ inner.untagged = null

end Document.Value

theorem bool?_eq_some {value : Value α} {b : Bool} (h : bool? value = some b) :
    value.SaysBool b := by
  rw [bool?] at h
  split at h
  · next heq => rw [Value.SaysBool, heq, Option.some.inj h]
  · cases h

theorem nat?_eq_some {value : Value α} {n : Nat} (h : nat? value = some n) : value.SaysNat n := by
  rw [nat?] at h
  split at h
  · next m heq =>
    split at h
    · next hm =>
      rw [Value.SaysNat, heq, Value.nat, ← Option.some.inj h, Int.toNat_of_nonneg hm]
    · cases h
  · cases h

theorem optionalNat?_eq_some {value : Value α} {n : Option Nat} (h : optionalNat? value = some n) :
    value.SaysOptionalNat n := by
  rw [optionalNat?.eq_def] at h
  split at h
  · exact .inl ⟨rfl, (Option.some.inj h).symm⟩
  · obtain ⟨m, hm, rfl⟩ := Option.map_eq_some_iff.1 h
    exact .inr ⟨m, nat?_eq_some hm, rfl⟩

theorem number?_eq_some [Score α] {value : Value α} {x : α} (h : number? value = some x) :
    value.SaysNumber x := by
  rw [number?] at h
  split at h
  · next n heq => exact .inr ⟨n, heq, (Option.some.inj h).symm⟩
  · next y heq => exact .inl (heq.trans (congrArg Value.decimal (Option.some.inj h)))
  · cases h

theorem text?_eq_some {value : Value α} {x : String} (h : text? value = some x) :
    value.untagged = .text x := by
  rw [text?] at h
  split at h
  · next heq => rw [heq, Option.some.inj h]
  · cases h

theorem texts?_eq_some {value : Value α} {xs : List String} (h : texts? value = some xs) :
    value.SaysTexts xs := by
  rw [texts?] at h
  split at h
  · next heq => exact .inl ⟨heq, (Option.some.inj h).symm⟩
  · next items heq =>
    exact .inr ⟨items, heq, (mapM_eq_some_iff.1 h).imp fun _ _ => text?_eq_some⟩
  · cases h

theorem name_of_named? {name : String} {format : ReportFormat}
    (h : format?.named? name = some format) : name = format.name := by
  have hname := List.find?_some h
  exact (beq_iff_eq.1 hname).symm

theorem format?_eq_some {value : Value α} {format : ReportFormat} (h : format? value = some format) :
    value.SaysFormat format := by
  rw [format?.eq_def] at h
  split at h
  · exact .inl (congrArg Value.text (name_of_named? h))
  · next tag inner =>
    split at h
    · next hnull =>
      refine .inr ⟨inner, congrArg (Value.tagged · inner) (name_of_named? h), ?_⟩
      cases huntagged : inner.untagged <;> simp [Value.isNull, huntagged] at hnull ⊢
    · cases h
  · cases h

/-! ### Options -/

variable [Score α]

/-- An option: where a document gives it, what a given value says, and where it is kept. -/
structure Setting (α : Type) where
  /-- The name of its section. -/
  part : String
  /-- Its names in that section. -/
  names : List String
  Kind : Type
  Says : Value α → Kind → Prop
  get : Settings α → Kind

namespace Setting

/-- The patterns of files that are left out. -/
def patterns : Setting α :=
  ⟨"analysis", ["exclude_patterns"], List String, Value.SaysTexts, (·.analysis.excluded)⟩

/-- The options, section by section. -/
def all : List (Setting α) := [
  ⟨"analysis", ["max_concurrency"], Option Nat, Value.SaysOptionalNat, (·.analysis.concurrency)⟩,
  ⟨"analysis", ["total_timeout_seconds"], Option Nat, Value.SaysOptionalNat, (·.analysis.timeout)⟩,
  patterns,
  ⟨"analysis", ["ignored_dirs"], List String, Value.SaysTexts, (·.analysis.ignoredDirs)⟩,
  ⟨"analysis", ["max_file_size_bytes"], Nat, Value.SaysNat, (·.analysis.sizeLimit)⟩,
  ⟨"classifier", ["redundant_jaccard"], α, Value.SaysNumber, (·.classifier.redundancy)⟩,
  ⟨"classifier", ["filler_max_novel_terms"], Nat, Value.SaysNat, (·.classifier.novelLimit)⟩,
  ⟨"classifier", ["extra_words"], List String, Value.SaysTexts, (·.classifier.words)⟩,
  ⟨"classifier", ["extra_filler_phrases"], List String, Value.SaysTexts, (·.classifier.fillers)⟩,
  ⟨"classifier", ["extra_placeholder_markers"], List String, Value.SaysTexts,
    (·.classifier.markers)⟩,
  ⟨"drift", ["enabled"], Bool, Value.SaysBool, (·.drift.enabled)⟩,
  ⟨"drift", ["code_similarity_threshold"], α, Value.SaysNumber, (·.drift.codeThreshold)⟩,
  ⟨"drift", ["comment_similarity_threshold"], α, Value.SaysNumber, (·.drift.commentThreshold)⟩,
  ⟨"drift", ["max_bucket_size"], Nat, Value.SaysNat, (·.drift.bucketLimit)⟩,
  ⟨"policy", ["delete_filler", "deleteFiller"], Bool, Value.SaysBool, (·.policy.deleteFiller)⟩,
  ⟨"policy", ["delete_redundant", "deleteRedundant"], Bool, Value.SaysBool,
    (·.policy.deleteRedundant)⟩,
  ⟨"policy", ["delete_placeholder", "deletePlaceholder"], Bool, Value.SaysBool,
    (·.policy.deletePlaceholder)⟩,
  ⟨"policy", ["flag_misleading", "flagMisleading"], Bool, Value.SaysBool,
    (·.policy.flagMisleading)⟩,
  ⟨"policy", ["flag_drift", "flagDrift"], Bool, Value.SaysBool, (·.policy.flagDrift)⟩,
  ⟨"policy", ["preserve_informative", "preserveInformative"], Bool, Value.SaysBool,
    (·.policy.preserveInformative)⟩,
  ⟨"policy", ["fix_typos", "fixTypos"], Bool, Value.SaysBool, (·.policy.fixTypos)⟩,
  ⟨"output", ["format"], ReportFormat, Value.SaysFormat, (·.output.format)⟩,
  ⟨"output", ["include_kept"], Bool, Value.SaysBool, (·.output.includeKept)⟩]

/-- The values that a document gives an option. -/
def given (option : Setting α) (document : Value α) : List (Value α) :=
  (document.under [option.part]).flatMap (·.under option.names)

end Setting

/-- The options are all that settings have. -/
theorem settings_ext {s t : Settings α} (h : ∀ option ∈ Setting.all, option.get s = option.get t) :
    s = t := by
  obtain ⟨⟨⟩, ⟨⟩, ⟨⟩, ⟨⟩, ⟨⟩⟩ := s
  obtain ⟨⟨⟩, ⟨⟩, ⟨⟩, ⟨⟩, ⟨⟩⟩ := t
  simp only [Setting.all, List.forall_mem_cons] at h
  simp only [Settings.mk.injEq, AnalysisSettings.mk.injEq, ClassifierSettings.mk.injEq,
    DriftSettings.mk.injEq, Policy.mk.injEq, OutputSettings.mk.injEq]
  obtain ⟨h1, h2, h3, h4, h5, h6, h7, h8, h9, h10, h11, h12, h13, h14, h15, h16, h17, h18, h19, h20,
    h21, h22, h23, -⟩ := h
  exact ⟨⟨h1, h2, h3, h4, h5⟩, ⟨h6, h7, h8, h9, h10⟩, ⟨h11, h12, h13, h14⟩,
    ⟨h15, h16, h17, h18, h19, h20, h21⟩, h22, h23⟩

/-- What is read of the given values: what the only one says, or the default if there is none. -/
def Read {β : Type} (given : List (Value α)) (Says : Value α → β → Prop) (default x : β) : Prop :=
  match given with
  | [] => x = default
  | [value] => Says value x
  | _ => False

/-- An option has been loaded: what the only given value says, or what stands in the base. -/
def Setting.Loaded (option : Setting α) (document : Value α) (base settings : Settings α) : Prop :=
  Read (option.given document) option.Says (option.get base) (option.get settings)

/-- What is loaded for the options that a document leaves out: the defaults, except that a section of
files without patterns excludes no file. -/
def Settings.fallback (document : Value α) : Settings α :=
  { Settings.default with
    analysis := { AnalysisSettings.default with
      excluded := if (document.under ["analysis"]).isEmpty then AnalysisSettings.default.excluded
        else [] } }

/-! ### Sections -/

section Sections

omit [Score α]

/-- What a section gives under some names is what the document gives. -/
theorem given_eq_under {value : Value α} {options : Section α} (h : section? value = some options)
    (names : List String) : options.given names = value.under names := by
  rw [section?] at h
  rw [Value.under]
  split at h
  · next heq =>
    obtain rfl := Option.some.inj h
    simp only [heq]
    rfl
  · next entries heq =>
    simp only [heq]
    have hentries := mapM_eq_some_iff.1 h
    clear h heq
    induction hentries with
    | nil => rfl
    | @cons entry option entries options hentry _ ih =>
      obtain ⟨name, hname, rfl⟩ := Option.map_eq_some_iff.1 hentry
      have hisName : Value.isName names entry.1 = names.contains name := by
        rw [keyName?] at hname
        rw [Value.isName]
        split at hname
        · next heq => simp only [heq, Option.some.inj hname]
        · cases hname
      simp only [Section.given, List.filter_cons, hisName] at ih ⊢
      split
      · rw [List.map_cons, List.map_cons, ih]
      · exact ih
  · cases h

variable {β σ : Type} {Says : Value α → β → Prop}

theorem read_of_read? {options : Section α} {names : List String} {default x : β}
    {read : Value α → Option β} (hread : ∀ {value x}, read value = some x → Says value x)
    (h : options.read? names default read = some x) :
    Read (options.given names) Says default x := by
  rw [Section.read?] at h
  generalize options.given names = given at h
  match given, h with
  | [], h => exact (Option.some.inj h).symm
  | [value], h => exact hread h

/-- A section as its options are read. -/
def ReadBy (ofSection : Section α → Option σ) (value : Value α) (s : σ) : Prop :=
  (section? value).bind ofSection = some s

variable {sections : List (Value α)} {names : List String} {ofSection : Section α → Option σ}
  {default s : σ}

/-- An option of a section: what it is without the section, and what it is when the section leaves it
out, may differ. -/
theorem read_of_section {absent : β} (h : Read sections (ReadBy ofSection) default s)
    (get : σ → β) (hoption : ∀ {options s}, ofSection options = some s →
      Read (options.given names) Says absent (get s)) :
    Read (sections.flatMap (·.under names)) Says
      (if sections.isEmpty then get default else absent) (get s) := by
  match sections, h with
  | [], h => exact congrArg get h
  | [value], h =>
    obtain ⟨options, hsection, hs⟩ := Option.bind_eq_some_iff.1 h
    have hread := hoption hs
    rw [given_eq_under hsection] at hread
    simpa using hread

theorem read_of_section_default (h : Read sections (ReadBy ofSection) default s)
    (get : σ → β) (hoption : ∀ {options s}, ofSection options = some s →
      Read (options.given names) Says (get default) (get s)) :
    Read (sections.flatMap (·.under names)) Says (get default) (get s) := by
  have := read_of_section h get hoption
  rwa [ite_self] at this

end Sections

/-- The options of files are read of a section. Patterns that it leaves out are none at all. -/
structure AnalysisSettings.ReadFrom (options : Section α) (s : AnalysisSettings) : Prop where
  concurrency : Read (options.given ["max_concurrency"]) Value.SaysOptionalNat
    default.concurrency s.concurrency
  timeout : Read (options.given ["total_timeout_seconds"]) Value.SaysOptionalNat
    default.timeout s.timeout
  excluded : Read (options.given ["exclude_patterns"]) Value.SaysTexts [] s.excluded
  ignoredDirs : Read (options.given ["ignored_dirs"]) Value.SaysTexts
    default.ignoredDirs s.ignoredDirs
  sizeLimit : Read (options.given ["max_file_size_bytes"]) Value.SaysNat
    default.sizeLimit s.sizeLimit

structure ClassifierSettings.ReadFrom (options : Section α) (s : ClassifierSettings α) : Prop where
  redundancy : Read (options.given ["redundant_jaccard"]) Value.SaysNumber
    default.redundancy s.redundancy
  novelLimit : Read (options.given ["filler_max_novel_terms"]) Value.SaysNat
    (default : ClassifierSettings α).novelLimit s.novelLimit
  words : Read (options.given ["extra_words"]) Value.SaysTexts
    (default : ClassifierSettings α).words s.words
  fillers : Read (options.given ["extra_filler_phrases"]) Value.SaysTexts
    (default : ClassifierSettings α).fillers s.fillers
  markers : Read (options.given ["extra_placeholder_markers"]) Value.SaysTexts
    (default : ClassifierSettings α).markers s.markers

structure DriftSettings.ReadFrom (options : Section α) (s : DriftSettings α) : Prop where
  enabled : Read (options.given ["enabled"]) Value.SaysBool
    (default : DriftSettings α).enabled s.enabled
  codeThreshold : Read (options.given ["code_similarity_threshold"]) Value.SaysNumber
    default.codeThreshold s.codeThreshold
  commentThreshold : Read (options.given ["comment_similarity_threshold"]) Value.SaysNumber
    default.commentThreshold s.commentThreshold
  bucketLimit : Read (options.given ["max_bucket_size"]) Value.SaysNat
    (default : DriftSettings α).bucketLimit s.bucketLimit

structure Policy.ReadFrom (options : Section α) (p : Policy) : Prop where
  deleteFiller : Read (options.given ["delete_filler", "deleteFiller"]) Value.SaysBool
    default.deleteFiller p.deleteFiller
  deleteRedundant : Read (options.given ["delete_redundant", "deleteRedundant"]) Value.SaysBool
    default.deleteRedundant p.deleteRedundant
  deletePlaceholder : Read (options.given ["delete_placeholder", "deletePlaceholder"])
    Value.SaysBool default.deletePlaceholder p.deletePlaceholder
  flagMisleading : Read (options.given ["flag_misleading", "flagMisleading"]) Value.SaysBool
    default.flagMisleading p.flagMisleading
  flagDrift : Read (options.given ["flag_drift", "flagDrift"]) Value.SaysBool
    default.flagDrift p.flagDrift
  preserveInformative : Read (options.given ["preserve_informative", "preserveInformative"])
    Value.SaysBool default.preserveInformative p.preserveInformative
  fixTypos : Read (options.given ["fix_typos", "fixTypos"]) Value.SaysBool
    default.fixTypos p.fixTypos

structure OutputSettings.ReadFrom (options : Section α) (s : OutputSettings) : Prop where
  format : Read (options.given ["format"]) Value.SaysFormat default.format s.format
  includeKept : Read (options.given ["include_kept"]) Value.SaysBool
    default.includeKept s.includeKept

omit [Score α] in
theorem AnalysisSettings.read {options : Section α} {s : AnalysisSettings}
    (h : ofSection? options = some s) : ReadFrom options s := by
  simp only [ofSection?, Option.bind_eq_bind, Option.bind_eq_some_iff, Option.pure_def,
    Option.some.injEq] at h
  obtain ⟨_, h1, _, h2, _, h3, _, h4, _, h5, rfl⟩ := h
  exact ⟨read_of_read? optionalNat?_eq_some h1,
    read_of_read? optionalNat?_eq_some h2,
    read_of_read? texts?_eq_some h3,
    read_of_read? texts?_eq_some h4,
    read_of_read? nat?_eq_some h5⟩

theorem ClassifierSettings.read {options : Section α} {s : ClassifierSettings α}
    (h : ofSection? options = some s) : ReadFrom options s := by
  simp only [ofSection?, Option.bind_eq_bind, Option.bind_eq_some_iff, Option.pure_def,
    Option.some.injEq] at h
  obtain ⟨_, h1, _, h2, _, h3, _, h4, _, h5, rfl⟩ := h
  exact ⟨read_of_read? number?_eq_some h1,
    read_of_read? nat?_eq_some h2,
    read_of_read? texts?_eq_some h3,
    read_of_read? texts?_eq_some h4,
    read_of_read? texts?_eq_some h5⟩

theorem DriftSettings.read {options : Section α} {s : DriftSettings α}
    (h : ofSection? options = some s) : ReadFrom options s := by
  simp only [ofSection?, Option.bind_eq_bind, Option.bind_eq_some_iff, Option.pure_def,
    Option.some.injEq] at h
  obtain ⟨_, h1, _, h2, _, h3, _, h4, rfl⟩ := h
  exact ⟨read_of_read? bool?_eq_some h1,
    read_of_read? number?_eq_some h2,
    read_of_read? number?_eq_some h3,
    read_of_read? nat?_eq_some h4⟩

omit [Score α] in
theorem Policy.read {options : Section α} {p : Policy}
    (h : ofSection? options = some p) : ReadFrom options p := by
  simp only [ofSection?, Option.bind_eq_bind, Option.bind_eq_some_iff, Option.pure_def,
    Option.some.injEq] at h
  obtain ⟨_, h1, _, h2, _, h3, _, h4, _, h5, _, h6, _, h7, rfl⟩ := h
  exact ⟨read_of_read? bool?_eq_some h1,
    read_of_read? bool?_eq_some h2,
    read_of_read? bool?_eq_some h3,
    read_of_read? bool?_eq_some h4,
    read_of_read? bool?_eq_some h5,
    read_of_read? bool?_eq_some h6,
    read_of_read? bool?_eq_some h7⟩

omit [Score α] in
theorem OutputSettings.read {options : Section α} {s : OutputSettings}
    (h : ofSection? options = some s) : ReadFrom options s := by
  simp only [ofSection?, Option.bind_eq_bind, Option.bind_eq_some_iff, Option.pure_def,
    Option.some.injEq] at h
  obtain ⟨_, h1, _, h2, rfl⟩ := h
  exact ⟨read_of_read? format?_eq_some h1,
    read_of_read? bool?_eq_some h2⟩

/-! ### Documents -/

variable {document : Value α} {settings : Settings α}

omit [Score α] in
theorem orMalformed_eq_ok_iff {β : Type} {read : Option β} {x : β} :
    orMalformed read = .ok x ↔ read = some x := by
  cases read <;> simp [orMalformed]

/-- Accepted settings are read section by section, those of an empty document too. -/
theorem ofSection?_of_ofValue (h : Settings.ofValue document = .ok settings) :
    ∃ options, section? document = some options ∧ Settings.ofSection? options = some settings := by
  rw [Settings.ofValue] at h
  split at h
  · next hnull =>
    have hdocument : document = .null := by
      cases document <;> simp [Value.isNull] at hnull ⊢
    obtain rfl := Except.ok.inj h
    exact ⟨[], by rw [hdocument]; rfl, rfl⟩
  · -- The names of the policy are checked first, and the settings after they are read.
    have hrest : ∃ _ : Unit, orMalformed ((section? document).bind Settings.ofSection?) >>=
        (fun read => read.check >>= fun _ => .ok read) = .ok settings := by
      dsimp only at h
      split at h <;> exact (bind_eq_ok_iff.1 h).imp fun _ => And.right
    obtain ⟨-, hrest⟩ := hrest
    obtain ⟨read, hread, hcheck⟩ := bind_eq_ok_iff.1 hrest
    obtain ⟨-, -, hok⟩ := bind_eq_ok_iff.1 hcheck
    rw [Except.ok.inj hok] at hread
    exact Option.bind_eq_some_iff.1 (orMalformed_eq_ok_iff.1 hread)

/-- The sections of a document. -/
theorem sections_read (h : Settings.ofValue document = .ok settings) :
    Read (document.under ["analysis"]) (ReadBy AnalysisSettings.ofSection?) .default
        settings.analysis ∧
      Read (document.under ["classifier"]) (ReadBy ClassifierSettings.ofSection?) .default
        settings.classifier ∧
      Read (document.under ["drift"]) (ReadBy DriftSettings.ofSection?) .default settings.drift ∧
      Read (document.under ["policy"]) (ReadBy Policy.ofSection?) .default settings.policy ∧
      Read (document.under ["output"]) (ReadBy OutputSettings.ofSection?) .default
        settings.output := by
  obtain ⟨options, hsection, hread⟩ := ofSection?_of_ofValue h
  simp only [Settings.ofSection?, Option.bind_eq_bind, Option.bind_eq_some_iff, Option.pure_def,
    Option.some.injEq] at hread
  obtain ⟨_, h1, _, h2, _, h3, _, h4, _, h5, rfl⟩ := hread
  simp only [← given_eq_under hsection]
  exact ⟨read_of_read? id h1, read_of_read? id h2, read_of_read? id h3, read_of_read? id h4,
    read_of_read? id h5⟩

theorem loaded_of_ofValue (h : Settings.ofValue document = .ok settings) :
    ∀ option ∈ Setting.all, option.Loaded document (Settings.fallback document) settings := by
  obtain ⟨ha, hc, hd, hp, ho⟩ := sections_read h
  simp only [Setting.all, List.forall_mem_cons]
  exact ⟨
    read_of_section_default ha (·.concurrency) fun h => (AnalysisSettings.read h).concurrency,
    read_of_section_default ha (·.timeout) fun h => (AnalysisSettings.read h).timeout,
    read_of_section ha (·.excluded) fun h => (AnalysisSettings.read h).excluded,
    read_of_section_default ha (·.ignoredDirs) fun h => (AnalysisSettings.read h).ignoredDirs,
    read_of_section_default ha (·.sizeLimit) fun h => (AnalysisSettings.read h).sizeLimit,
    read_of_section_default hc (·.redundancy) fun h => (ClassifierSettings.read h).redundancy,
    read_of_section_default hc (·.novelLimit) fun h => (ClassifierSettings.read h).novelLimit,
    read_of_section_default hc (·.words) fun h => (ClassifierSettings.read h).words,
    read_of_section_default hc (·.fillers) fun h => (ClassifierSettings.read h).fillers,
    read_of_section_default hc (·.markers) fun h => (ClassifierSettings.read h).markers,
    read_of_section_default hd (·.enabled) fun h => (DriftSettings.read h).enabled,
    read_of_section_default hd (·.codeThreshold) fun h => (DriftSettings.read h).codeThreshold,
    read_of_section_default hd (·.commentThreshold) fun h => (DriftSettings.read h).commentThreshold,
    read_of_section_default hd (·.bucketLimit) fun h => (DriftSettings.read h).bucketLimit,
    read_of_section_default hp (·.deleteFiller) fun h => (Policy.read h).deleteFiller,
    read_of_section_default hp (·.deleteRedundant) fun h => (Policy.read h).deleteRedundant,
    read_of_section_default hp (·.deletePlaceholder) fun h => (Policy.read h).deletePlaceholder,
    read_of_section_default hp (·.flagMisleading) fun h => (Policy.read h).flagMisleading,
    read_of_section_default hp (·.flagDrift) fun h => (Policy.read h).flagDrift,
    read_of_section_default hp (·.preserveInformative) fun h => (Policy.read h).preserveInformative,
    read_of_section_default hp (·.fixTypos) fun h => (Policy.read h).fixTypos,
    read_of_section_default ho (·.format) fun h => (OutputSettings.read h).format,
    read_of_section_default ho (·.includeKept) fun h => (OutputSettings.read h).includeKept,
    nofun⟩

/-- The same of texts: a text that is accepted holds a document. -/
theorem loaded_of_ofText {text : String} {settings : Settings Float}
    (h : Settings.ofText text = .ok settings) : ∃ document, Value.ofText? text = some document ∧
      ∀ option ∈ Setting.all, option.Loaded document (Settings.fallback document) settings := by
  obtain ⟨document, hdocument, h⟩ := bind_eq_ok_iff.1 h
  exact ⟨document, orMalformed_eq_ok_iff.1 hdocument, loaded_of_ofValue h⟩

omit [Score α] in
/-- Where something is given, the default plays no part. -/
theorem Read.of_ne_nil {β : Type} {given : List (Value α)} {Says : Value α → β → Prop}
    {default other x : β} (h : Read given Says default x) (hne : given ≠ []) :
    Read given Says other x := by
  match given, h with
  | [], _ => exact absurd rfl hne
  | [_], h => exact h

omit document settings in
theorem get_fallback (document : Value α) : ∀ option ∈ Setting.all,
    option = .patterns ∨ option.get (Settings.fallback document) = option.get .default := by
  simp only [Setting.all, List.forall_mem_cons]
  exact ⟨.inr rfl, .inr rfl, .inl trivial, .inr rfl, .inr rfl, .inr rfl, .inr rfl, .inr rfl, .inr rfl,
    .inr rfl, .inr rfl, .inr rfl, .inr rfl, .inr rfl, .inr rfl, .inr rfl, .inr rfl, .inr rfl,
    .inr rfl, .inr rfl, .inr rfl, .inr rfl, .inr rfl, nofun⟩

theorem patterns_mem_all : (Setting.patterns : Setting α) ∈ Setting.all := by
  simp [Setting.all]

/-- What a document gives is loaded, once each, and what it leaves out has its default, but for the
patterns of a section of files: there the default is lost, and no file is excluded. So all options
are as the defaults promise exactly if the document has no such section or gives patterns in it. -/
theorem options_loaded (h : Settings.ofValue document = .ok settings) :
    (∀ option ∈ Setting.all, option.Loaded document (Settings.fallback document) settings) ∧
      ((∀ option ∈ Setting.all, option.Loaded document .default settings) ↔
        document.under ["analysis"] = [] ∨ Setting.patterns.given document ≠ []) := by
  have hloaded := loaded_of_ofValue h
  refine ⟨hloaded, fun hdefault => ?_, ?_⟩
  · by_contra hneither
    obtain ⟨hsection, hpatterns⟩ := not_or.1 hneither
    rw [not_not] at hpatterns
    have hlost : settings.analysis.excluded = [] := by
      have hread := hloaded _ patterns_mem_all
      rw [Setting.Loaded, hpatterns] at hread
      refine Eq.trans hread (if_neg ?_)
      rwa [List.isEmpty_iff]
    have hkept : settings.analysis.excluded = ["**/*.min.js"] := by
      have hread := hdefault _ patterns_mem_all
      rwa [Setting.Loaded, hpatterns] at hread
    rw [hlost] at hkept
    cases hkept
  · rintro (hsection | hpatterns) option hoption
    · have hfallback : Settings.fallback document = .default := by
        rw [Settings.fallback, hsection]
        rfl
      exact hfallback ▸ hloaded option hoption
    · rcases get_fallback document option hoption with rfl | hget
      · exact (hloaded _ hoption).of_ne_nil hpatterns
      · rw [Setting.Loaded, ← hget]
        exact hloaded option hoption

/-- A document with a section of each kind: patterns, a limit, a policy by the names of another style
and a section of nothing. -/
theorem options_loaded_of_four_sections :
    let document : Value Rat := .record [
      ("analysis", .record [("exclude_patterns", .list [.text "a/**"]), ("max_concurrency", .nat 4)]),
      ("classifier", .record [("redundant_jaccard", .nat 1)]),
      ("drift", .null),
      ("policy", .record [("deleteFiller", .bool true)])]
    let settings : Settings Rat := { Settings.default with
      analysis := { AnalysisSettings.default with concurrency := some 4, excluded := ["a/**"] }
      classifier := { (ClassifierSettings.default : ClassifierSettings Rat) with redundancy := 1 }
      policy := { Policy.default with deleteFiller := true } }
    Settings.ofValue document = .ok settings ∧
      (∀ option ∈ Setting.all, option.Loaded document (Settings.fallback document) settings) ∧
      ((∀ option ∈ Setting.all, option.Loaded document .default settings) ↔
        document.under ["analysis"] = [] ∨ Setting.patterns.given document ≠ []) := by
  intro document settings
  have h : Settings.ofValue document = .ok settings := by decide +kernel
  exact ⟨h, options_loaded h⟩

/-- A section that gives a limit and no patterns: the default patterns are lost. -/
theorem patterns_lost_beside_limit :
    let document : Value Rat := .record [("analysis", .record [("max_concurrency", .nat 4)])]
    let settings : Settings Rat := { Settings.default with
      analysis := { AnalysisSettings.default with concurrency := some 4, excluded := [] } }
    Settings.ofValue document = .ok settings ∧
      ¬ ∀ option ∈ Setting.all, option.Loaded document .default settings := by
  intro document settings
  refine ⟨by decide +kernel, fun hall => ?_⟩
  have hread := hall _ patterns_mem_all
  have hgiven : Setting.patterns.given document = [] := rfl
  rw [Setting.Loaded, hgiven] at hread
  cases hread

end Marginalia
