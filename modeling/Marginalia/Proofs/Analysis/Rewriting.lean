import Marginalia.Analysis.Rewriting
import Marginalia.Proofs.Analysis.Run
import Marginalia.Proofs.Patch.Agreement

/-! Which text a file is rewritten from. An entry is made from the first source that has the name of
its file, so it is the file's own exactly when that source stands in for the file's: it has the same
path, and the same text or one that the plan makes equal. With names that differ every file is
rewritten from its own text. -/

namespace Marginalia.Analysis

variable {α : Type}

/-- The sources that have a plan, with their plans. A file and its source are at one position. -/
def planned (sources : List Source) (outcome : Outcome α) : List (Source × Patch.Plan) :=
  (sources.zip outcome.files).filterMap fun pair => pair.2.plan.map (pair.1, ·)

/-- An entry that a source and its plan make. -/
structure IsOwn (file : Source × Patch.Plan) (entry : Rewritten) : Prop where
  fileId : entry.fileId = file.1.fileId
  path : entry.path = file.1.path
  text : Patch.apply file.1.text file.2 = .ok entry.text
  changed : entry.changed = true ↔ entry.text ≠ file.1.text

/-- A source stands in for the source of a file: the path is the same, and so is the text, unless
all that tells the two texts apart lies in what the plan edits. -/
structure StandsIn (first : Source) (file : Source × Patch.Plan) : Prop where
  path : first.path = file.1.path
  text : first.text = file.1.text ∨
    Patch.AgreeOutside first.text.toList file.1.text.toList file.2.steps ∧
      Patch.apply first.text file.2 ≠ .ok first.text ∧
      Patch.apply file.1.text file.2 ≠ .ok file.1.text

theorem rewriteFile_eq_ok_iff {sources : List Source} {fileId : String} {plan : Patch.Plan}
    {entry : Rewritten} : rewriteFile sources fileId plan = .ok entry ↔
      ∃ first, sources.find? (·.fileId == fileId) = some first ∧
        ∃ text, Patch.apply first.text plan = .ok text ∧
          entry = ⟨fileId, first.path, text, text != first.text⟩ := by
  rw [rewriteFile]
  cases sources.find? (·.fileId == fileId) with
  | none => simp
  | some first =>
    simp only [bind_eq_ok_iff, Except.ok.injEq, Option.some.injEq, exists_eq_left']
    simp only [eq_comm]

/-- An entry is its file's own exactly when the source that it is made from stands in. -/
theorem isOwn_iff {first : Source} {file : Source × Patch.Plan} {entry : Rewritten}
    (hname : first.fileId = file.1.fileId) (h : IsOwn (first, file.2) entry) :
    IsOwn file entry ↔ StandsIn first file := by
  obtain ⟨hid, hpath, htext, hchanged⟩ := h
  have hagree : Patch.apply file.1.text file.2 = .ok entry.text ↔ _ :=
    Patch.apply_eq_iff_agreeOutside htext
  constructor
  · rintro ⟨-, hpath', hown, hchanged'⟩
    refine ⟨hpath.symm.trans hpath', ?_⟩
    rw [htext, hown, Ne, Ne, Except.ok.injEq, Except.ok.injEq]
    by_cases hc : entry.changed = true
    · exact .inr ⟨hagree.1 hown, hchanged.1 hc, hchanged'.1 hc⟩
    · have hsame := not_not.1 (mt hchanged.2 hc)
      have hsame' := not_not.1 (mt hchanged'.2 hc)
      exact .inl (hsame.symm.trans hsame')
  · rintro ⟨hpath', hsame | ⟨hoff, hfirst, hfile⟩⟩
    · exact ⟨hid.trans hname, hpath.trans hpath', hsame ▸ htext, hsame ▸ hchanged⟩
    · have hown := hagree.2 hoff
      rw [htext, Ne, Except.ok.injEq] at hfirst
      rw [hown, Ne, Except.ok.injEq] at hfile
      exact ⟨hid.trans hname, hpath.trans hpath', hown,
        iff_of_true (hchanged.2 hfirst) hfile⟩

theorem isOwn_of_rewriteFile {sources : List Source} {fileId : String} {plan : Patch.Plan}
    {entry : Rewritten} (h : rewriteFile sources fileId plan = .ok entry) :
    ∃ first, sources.find? (·.fileId == fileId) = some first ∧ IsOwn (first, plan) entry := by
  obtain ⟨first, hfirst, text, htext, rfl⟩ := rewriteFile_eq_ok_iff.1 h
  have hname : first.fileId = fileId := by simpa using List.find?_some hfirst
  exact ⟨first, hfirst, hname.symm, rfl, htext, by simp⟩

theorem isOwn_iff_exists {sources : List Source} {file : Source × Patch.Plan} {entry : Rewritten}
    (h : ∃ first, sources.find? (·.fileId == file.1.fileId) = some first ∧
      IsOwn (first, file.2) entry) :
    IsOwn file entry ↔
      ∃ first, sources.find? (·.fileId == file.1.fileId) = some first ∧ StandsIn first file := by
  obtain ⟨first, hfirst, hown⟩ := h
  have hname : first.fileId = file.1.fileId := by simpa using List.find?_some hfirst
  rw [isOwn_iff hname hown]
  constructor
  · intro hstands
    exact ⟨first, hfirst, hstands⟩
  · rintro ⟨other, hother, hstands⟩
    obtain rfl : other = first := Option.some.inj (hother.symm.trans hfirst)
    exact hstands

theorem rewrite_eq_ok_iff {sources : List Source} {outcome : Outcome α} {entries : List Rewritten}
    (hnames : List.Forall₂ (fun source file => file.fileId = source.fileId) sources outcome.files) :
    rewrite sources outcome = .ok entries ↔
      List.Forall₂ (fun file entry => rewriteFile sources file.1.fileId file.2 = .ok entry)
        (planned sources outcome) entries := by
  have hfiles : (outcome.files.filterMap fun file => file.plan.map (file.fileId, ·)) =
      (planned sources outcome).map fun file => (file.1.fileId, file.2) := by
    rw [planned]
    generalize outcome.files = files at hnames
    induction hnames with
    | nil => rfl
    | @cons source file _ _ hname _ ih =>
      cases hplan : file.plan with
      | none => simpa [hplan] using ih
      | some plan => simpa [hplan, hname] using ih
  rw [rewrite, hfiles, mapM_eq_ok_iff, List.forall₂_map_left_iff]

theorem find?_fileId_of_nodup {sources : List Source} (h : (sources.map (·.fileId)).Nodup)
    {source : Source} (hs : source ∈ sources) :
    sources.find? (·.fileId == source.fileId) = some source := by
  induction sources with
  | nil => simp at hs
  | cons first rest ih =>
    obtain ⟨hfirst, hrest⟩ := List.nodup_cons.1 h
    rcases List.mem_cons.1 hs with rfl | hs
    · simp
    · have hne : first.fileId ≠ source.fileId := fun heq =>
        hfirst (List.mem_map.2 ⟨source, hs, heq.symm⟩)
      rw [List.find?_cons_of_neg (by simpa using hne), ih hrest hs]

theorem mem_sources_of_planned {sources : List Source} {outcome : Outcome α}
    {file : Source × Patch.Plan} (h : file ∈ planned sources outcome) : file.1 ∈ sources := by
  obtain ⟨⟨source, found⟩, hpair, hplan⟩ := List.mem_filterMap.1 h
  obtain ⟨plan, -, rfl⟩ := Option.map_eq_some_iff.1 hplan
  exact (List.of_mem_zip hpair).1

/-- Entries stand for the files that have a plan, in order, and each is the own one of the first
source that has the name of its file. So every entry is its file's own exactly when every such
source stands in for the file's source, as it does when names differ. -/
theorem rewrite_own_iff [Score α] {analyst : Analyst α} {sources : List Source}
    {outcome : Outcome α} {entries : List Rewritten} (h : analyst.analyze sources = .ok outcome)
    (hr : rewrite sources outcome = .ok entries) :
    List.Forall₂ (fun file entry => ∃ first,
        sources.find? (·.fileId == file.1.fileId) = some first ∧ IsOwn (first, file.2) entry)
      (planned sources outcome) entries ∧
      (List.Forall₂ IsOwn (planned sources outcome) entries ↔
        ∀ file ∈ planned sources outcome, ∃ first,
          sources.find? (·.fileId == file.1.fileId) = some first ∧ StandsIn first file) ∧
      ((sources.map (·.fileId)).Nodup → List.Forall₂ IsOwn (planned sources outcome) entries) := by
  have hentries := (rewrite_eq_ok_iff (Analyst.forall₂_fileId h)).1 hr
  have hfirsts := hentries.imp fun _ _ => isOwn_of_rewriteFile
  have hiff := forall₂_iff_forall hfirsts fun _ _ => isOwn_iff_exists
  refine ⟨hfirsts, hiff, fun hnodup => hiff.2 fun file hfile => ?_⟩
  exact ⟨file.1, find?_fileId_of_nodup hnodup (mem_sources_of_planned hfile), rfl, .inl rfl⟩

/-! ### Two files without comments -/

/-- A run over two files without comments, whatever their names. -/
theorem analyze_two_files (a b : String) (p q : Option String) :
    ∃ (analyst : Analyst Rat) (outcome : Outcome Rat),
      Analyst.ofSettings Settings.default = .ok analyst ∧
      analyst.analyze [⟨a, "a;\n", "js", p⟩, ⟨b, "b;\n", "js", q⟩] = .ok outcome ∧
      outcome.files = [⟨a, [], some ⟨a, []⟩, [], none⟩, ⟨b, [], some ⟨b, []⟩, [], none⟩] := by
  have hcheck : (Settings.default : Settings Rat).check = .ok () := by decide +kernel
  have hlanguage : Language.named "js" = .ok .javascript := by decide +kernel
  have hfirst : Extraction.findIn "a;\n".toList Language.javascript.profile.conventions [] [] []
      (Language.tree .javascript "a;\n") = [] := by decide +kernel
  have hsecond : Extraction.findIn "b;\n".toList Language.javascript.profile.conventions [] [] []
      (Language.tree .javascript "b;\n") = [] := by decide +kernel
  obtain ⟨analyst, hsettings, htree⟩ := Analyst.exists_ofSettings hcheck
  have hbare : ∀ source ∈ [⟨a, "a;\n", "js", p⟩, (⟨b, "b;\n", "js", q⟩ : Source)], ∃ language,
      Language.named source.language = .ok language ∧
        Extraction.findIn source.text.toList language.profile.conventions [] [] []
          (analyst.tree language source.text) = [] := by
    intro source hs
    rw [List.mem_cons, List.mem_singleton] at hs
    rcases hs with rfl | rfl
    · exact ⟨.javascript, hlanguage, by rw [htree]; exact hfirst⟩
    · exact ⟨.javascript, hlanguage, by rw [htree]; exact hsecond⟩
  obtain ⟨drift, hrun⟩ := Analyst.analyze_of_findIn_eq_nil hbare
  exact ⟨analyst, _, hsettings, hrun, rfl⟩

/-- Files with two names are rewritten from their own texts. -/
theorem rewrite_own_of_two_names :
    ∃ (analyst : Analyst Rat) (outcome : Outcome Rat) (entries : List Rewritten),
      analyst.analyze [⟨"a.js", "a;\n", "js", none⟩, ⟨"b.js", "b;\n", "js", none⟩] = .ok outcome ∧
      rewrite [⟨"a.js", "a;\n", "js", none⟩, ⟨"b.js", "b;\n", "js", none⟩] outcome = .ok entries ∧
      List.Forall₂ IsOwn
        [(⟨"a.js", "a;\n", "js", none⟩, ⟨"a.js", []⟩), (⟨"b.js", "b;\n", "js", none⟩, ⟨"b.js", []⟩)]
        entries := by
  obtain ⟨analyst, outcome, -, hrun, hfiles⟩ := analyze_two_files "a.js" "b.js" none none
  have hr : rewrite [⟨"a.js", "a;\n", "js", none⟩, ⟨"b.js", "b;\n", "js", none⟩] outcome =
      .ok [⟨"a.js", none, "a;\n", false⟩, ⟨"b.js", none, "b;\n", false⟩] := by
    rw [rewrite, hfiles, mapM_eq_ok_iff]
    simp [rewriteFile, Patch.apply_nil, bind, Except.bind]
  have hown := (rewrite_own_iff hrun hr).2.2 (by decide)
  rw [planned, hfiles] at hown
  exact ⟨analyst, outcome, _, hrun, hr, hown⟩

/-- Of two files with one name, as two roots can hold, both are rewritten from the first: the text
of the second is lost, its path too, and its entry says that it did not change. -/
theorem second_file_rewritten_from_first :
    ∃ (analyst : Analyst Rat) (outcome : Outcome Rat) (entry : Rewritten),
      Analyst.ofSettings Settings.default = .ok analyst ∧
      analyst.analyze [⟨"a.js", "a;\n", "js", some "one/a.js"⟩,
        ⟨"a.js", "b;\n", "js", some "two/a.js"⟩] = .ok outcome ∧
      outcome.files.map (·.plan) = [some ⟨"a.js", []⟩, some ⟨"a.js", []⟩] ∧
      rewrite [⟨"a.js", "a;\n", "js", some "one/a.js"⟩,
        ⟨"a.js", "b;\n", "js", some "two/a.js"⟩] outcome = .ok [entry, entry] ∧
      entry = ⟨"a.js", some "one/a.js", "a;\n", false⟩ ∧
      Patch.apply "b;\n" ⟨"a.js", []⟩ = .ok "b;\n" := by
  obtain ⟨analyst, outcome, hsettings, hrun, hfiles⟩ :=
    analyze_two_files "a.js" "a.js" (some "one/a.js") (some "two/a.js")
  refine ⟨analyst, outcome, _, hsettings, hrun, by rw [hfiles]; rfl, ?_, rfl, Patch.apply_nil _ _⟩
  rw [rewrite, hfiles, mapM_eq_ok_iff]
  simp [rewriteFile, Patch.apply_nil, bind, Except.bind]

end Marginalia.Analysis
