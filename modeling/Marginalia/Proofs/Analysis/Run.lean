import Marginalia.Analysis.Run
import Marginalia.Proofs.Patch.Planning

/-! How an outcome comes about: every source is examined, the drift is among all that was found, and
every file is planned on its own source, by position. -/

namespace Marginalia.Analysis

variable {α : Type} [Score α]

namespace Analyst

/-- Valid settings have an analyst, which reads sources by the grammars of their languages. -/
theorem exists_ofSettings {settings : Settings α} (h : settings.check = .ok ()) :
    ∃ analyst, ofSettings settings = .ok analyst ∧ analyst.tree = Language.tree := by
  rw [ofSettings, h]
  exact ⟨_, rfl, rfl⟩

/-- What an outcome for sources is made of. -/
structure Concludes (analyst : Analyst α) (sources : List Source) (found : List (FileOutcome α))
    (outcome : Outcome α) : Prop where
  examined : List.Forall₂ (fun source file => analyst.examine source = .ok file) sources found
  planned : List.Forall₂ (fun pair file => analyst.withPlan (analyst.driftAmong found).findings
    pair.1 (.loaded pair.2) = .ok file) (found.zip sources) outcome.files
  drift : outcome.drift = analyst.driftAmong found
  curtailed : outcome.curtailed = false

omit [Score α] in
theorem map_getD_zip_some {pending : List Pending} {examined : List (FileOutcome α)}
    (h : pending.length = examined.length) (f : Pending → FileOutcome α) :
    (pending.zip (examined.map some)).map (fun pair => pair.2.getD (f pair.1)) = examined := by
  induction pending generalizing examined with
  | nil =>
    have : examined = [] := List.length_eq_zero_iff.1 h.symm
    rw [this]
    rfl
  | cons file rest ih =>
    cases examined with
    | nil => simp at h
    | cons outcome examined => simpa using ih (by simpa using h)

theorem mapM_examine_iff {analyst : Analyst α} {sources : List Source}
    {slots : List (Option (FileOutcome α))} :
    ((sources.map Pending.loaded).mapM fun file => do
        let outcome ← analyst.examinePending file
        .ok (some outcome)) = (.ok slots : Except Fault _) ↔
      ∃ examined, slots = examined.map some ∧
        List.Forall₂ (fun source file => analyst.examine source = .ok file) sources examined := by
  rw [mapM_eq_ok_iff, List.forall₂_map_left_iff]
  constructor
  · intro h
    induction h with
    | nil => exact ⟨[], rfl, .nil⟩
    | cons hx _ ih =>
      obtain ⟨examined, rfl, hrest⟩ := ih
      obtain ⟨outcome, houtcome, heq⟩ := bind_eq_ok_iff.1 hx
      cases heq
      exact ⟨outcome :: examined, rfl, .cons houtcome hrest⟩
  · rintro ⟨examined, rfl, h⟩
    rw [List.forall₂_map_right_iff]
    refine h.imp fun source file hfile => ?_
    exact bind_eq_ok_iff.2 ⟨file, hfile, rfl⟩

theorem analyze_eq_ok_iff {analyst : Analyst α} {sources : List Source} {outcome : Outcome α} :
    analyst.analyze sources = .ok outcome ↔ ∃ found, analyst.Concludes sources found outcome := by
  rw [analyze, run, bind_eq_ok_iff]
  have hfiles : ∀ examined : List (FileOutcome α), List.Forall₂ (fun source file =>
      analyst.examine source = .ok file) sources examined →
      ((sources.map Pending.loaded).zip (examined.map some)).map (fun pair => pair.2.getD
        (.failed pair.1.fileId "abandoned: total timeout elapsed")) = examined := by
    intro examined h
    refine map_getD_zip_some ?_ fun file => .failed file.fileId "abandoned: total timeout elapsed"
    rw [List.length_map]
    exact h.length_eq
  have hany : ∀ examined : List (FileOutcome α),
      (examined.map some).any Option.isNone = false := by simp
  constructor
  · rintro ⟨slots, hslots, h⟩
    obtain ⟨examined, rfl, hexamined⟩ := mapM_examine_iff.1 hslots
    rw [conclude, hfiles examined hexamined] at h
    obtain ⟨planned, hplanned, h⟩ := bind_eq_ok_iff.1 h
    rw [mapM_eq_ok_iff] at hplanned
    cases h
    refine ⟨examined, hexamined, ?_, rfl, hany examined⟩
    rw [List.zip_map_right, List.forall₂_map_left_iff] at hplanned
    exact hplanned
  · rintro ⟨found, h⟩
    refine ⟨found.map some, mapM_examine_iff.2 ⟨found, rfl, h.examined⟩, ?_⟩
    rw [conclude, hfiles found h.examined]
    refine bind_eq_ok_iff.2 ⟨outcome.files, ?_, ?_⟩
    · rw [mapM_eq_ok_iff, List.zip_map_right, List.forall₂_map_left_iff]
      exact h.planned
    · rw [hany, ← h.drift, ← h.curtailed]

/-- The outcome of a run in which every source can be examined and planned. -/
theorem analyze_eq_ok {analyst : Analyst α} {sources : List Source}
    {found planned : Source → FileOutcome α}
    (hfound : ∀ source ∈ sources, analyst.examine source = .ok (found source))
    (hplanned : ∀ source ∈ sources, analyst.withPlan
      (analyst.driftAmong (sources.map found)).findings (found source) (.loaded source) =
        .ok (planned source)) :
    analyst.analyze sources =
      .ok ⟨sources.map planned, analyst.driftAmong (sources.map found), false⟩ := by
  have hzip : (sources.map found).zip sources =
      sources.map fun source => (found source, source) := by
    rw [List.zip_map_left, List.zip_eq_zipWith, List.zipWith_self, List.map_map]
    rfl
  refine analyze_eq_ok_iff.2 ⟨sources.map found, ?_, ?_, rfl, rfl⟩
  · rw [List.forall₂_map_right_iff, List.forall₂_same]
    exact hfound
  · rw [hzip, List.forall₂_map_left_iff, List.forall₂_map_right_iff, List.forall₂_same]
    exact hplanned

/-! ### Files without comments -/

theorem examine_of_findIn_eq_nil {analyst : Analyst α} {source : Source} {language : Language}
    (hlanguage : Language.named source.language = .ok language)
    (hfind : Extraction.findIn source.text.toList language.profile.conventions [] [] []
      (analyst.tree language source.text) = []) :
    analyst.examine source = .ok ⟨source.fileId, [], none, [], none⟩ := by
  have hextract : Extraction.extract language.profile.conventions source.fileId source.text
      (analyst.tree language source.text) = .ok [] := by
    rw [Extraction.extract, Extraction.findAll, hfind]
    simp [Extraction.dropRepeated, pure, Except.pure]
  rw [examine, hlanguage]
  simp only [bind, Except.bind, hextract]
  rfl

/-- Files without comments get plans without steps. -/
theorem analyze_of_findIn_eq_nil {analyst : Analyst α} {sources : List Source}
    (h : ∀ source ∈ sources, ∃ language, Language.named source.language = .ok language ∧
      Extraction.findIn source.text.toList language.profile.conventions [] [] []
        (analyst.tree language source.text) = []) :
    ∃ drift, analyst.analyze sources =
      .ok ⟨sources.map fun source => ⟨source.fileId, [], some ⟨source.fileId, []⟩, [], none⟩,
        drift, false⟩ := by
  let found : Source → FileOutcome α := fun source => ⟨source.fileId, [], none, [], none⟩
  have hfound : ∀ source ∈ sources, analyst.examine source = .ok (found source) := by
    intro source hs
    obtain ⟨language, hlanguage, hfind⟩ := h source hs
    exact examine_of_findIn_eq_nil hlanguage hfind
  refine ⟨_, analyze_eq_ok hfound fun source _ => ?_⟩
  rw [withPlan, Patch.planFor_nil]
  rfl

/-! ### Names -/

omit [Score α] in
theorem isolated_fileId {fileId : String} {result : Except Fault (FileOutcome α)}
    {file : FileOutcome α} (hok : ∀ found, result = .ok found → found.fileId = fileId)
    (h : isolated fileId result = .ok file) : file.fileId = fileId := by
  cases result with
  | ok found =>
    cases h
    exact hok file rfl
  | error fault =>
    rw [isolated] at h
    split at h
    · cases h
      rfl
    · cases h

theorem examine_fileId {analyst : Analyst α} {source : Source} {file : FileOutcome α}
    (h : analyst.examine source = .ok file) : file.fileId = source.fileId := by
  refine isolated_fileId (fun found hfound => ?_) h
  obtain ⟨language, -, hfound⟩ := bind_eq_ok_iff.1 hfound
  obtain ⟨comments, -, hfound⟩ := bind_eq_ok_iff.1 hfound
  obtain ⟨results, -, hfound⟩ := bind_eq_ok_iff.1 hfound
  cases hfound
  rfl

omit [Score α] in
theorem withPlan_fileId {analyst : Analyst α} {drift : List (Finding α)}
    {file planned : FileOutcome α} {pending : Pending}
    (h : analyst.withPlan drift file pending = .ok planned) : planned.fileId = file.fileId := by
  cases pending with
  | unreadable _ _ =>
    cases h
    rfl
  | loaded source =>
    rw [withPlan] at h
    split at h
    · cases h
      rfl
    · split at h
      · cases h
        rfl
      · split at h
        · cases h
          rfl
        · cases h

/-- The files of an outcome are the sources, in order. -/
theorem forall₂_fileId {analyst : Analyst α} {sources : List Source} {outcome : Outcome α}
    (h : analyst.analyze sources = .ok outcome) :
    List.Forall₂ (fun source file => file.fileId = source.fileId) sources outcome.files := by
  obtain ⟨found, hfound⟩ := analyze_eq_ok_iff.1 h
  refine (forall₂_of_zip hfound.examined hfound.planned).imp ?_
  rintro source file ⟨examined, hexamined, hplanned⟩
  exact (withPlan_fileId hplanned).trans (examine_fileId hexamined)

end Analyst

end Marginalia.Analysis
