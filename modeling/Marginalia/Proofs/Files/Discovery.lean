import Marginalia.Files.Discovery
import Marginalia.Proofs.Files.Entry
import Marginalia.Proofs.Files.Order
import Marginalia.Proofs.Files.Path

/-! Which files are found below given roots: those that the settings admit, in ascending order and
each once. Leaving ignored directories out of the walk is the same as leaving out what stands below
them, except that a root is entered whatever its name. -/

namespace Marginalia.Files

/-! ### Sorted paths -/

/-- A path comes before another. -/
def Before (a b : String) : Prop := stepsOrder (steps a) (steps b) = .lt

theorem before_of_isLE {a b : String} (h : (stepsOrder (steps a) (steps b)).isLE = true)
    (hne : steps a ≠ steps b) : Before a b :=
  eq_lt_of_isLE h (mt Std.LawfulEqCmp.eq_of_compare hne)

theorem Before.trans_isLE {a b c : String} (h : Before a b)
    (hle : (stepsOrder (steps b) (steps c)).isLE = true) : Before a c :=
  Std.TransCmp.lt_of_lt_of_isLE h hle

theorem Before.ne {a b : String} (h : Before a b) : steps a ≠ steps b := by
  intro heq
  have hrefl : stepsOrder (steps b) (steps b) = .eq := Std.ReflCmp.compare_self
  rw [Before, heq, hrefl] at h
  cases h

/-- Ascending, with equals next to each other. -/
abbrev Ascending (paths : List String) : Prop :=
  paths.Pairwise fun a b => (stepsOrder (steps a) (steps b)).isLE = true

theorem ascending_mergeSort (paths : List String) :
    Ascending (paths.mergeSort fun a b => (stepsOrder (steps a) (steps b)).isLE) :=
  pairwise_mergeSort_isLE stepsOrder steps paths

theorem distinctPaths_short {paths : List String} (h : ∀ a b rest, paths ≠ a :: b :: rest) :
    distinctPaths paths = paths := by
  match paths, h with
  | [], _ => rw [distinctPaths]; simp
  | [_], _ => rw [distinctPaths]; simp
  | a :: b :: rest, h => exact absurd rfl (h a b rest)

theorem distinctPaths_sublist (paths : List String) : (distinctPaths paths).Sublist paths := by
  induction paths using distinctPaths.induct with
  | case1 a b rest heq ih =>
    rw [distinctPaths, if_pos heq]
    exact ih.trans ((List.sublist_cons_self b rest).cons_cons a)
  | case2 a b rest hne ih =>
    rw [distinctPaths, if_neg hne]
    exact ih.cons_cons a
  | case3 paths hshort =>
    rw [distinctPaths_short hshort]

theorem pairwise_distinctPaths {paths : List String} (h : Ascending paths) :
    (distinctPaths paths).Pairwise Before := by
  induction paths using distinctPaths.induct with
  | case1 a b rest heq ih =>
    rw [distinctPaths, if_pos heq]
    exact ih (h.sublist ((List.sublist_cons_self b rest).cons_cons a))
  | case2 a b rest hne ih =>
    rw [distinctPaths, if_neg hne]
    obtain ⟨ha, hrest⟩ := List.pairwise_cons.1 h
    have hab : Before a b := before_of_isLE (ha b List.mem_cons_self) hne
    refine List.pairwise_cons.2 ⟨fun c hc => ?_, ih hrest⟩
    rcases List.mem_cons.1 ((distinctPaths_sublist _).subset hc) with rfl | hc
    · exact hab
    · exact hab.trans_isLE ((List.pairwise_cons.1 hrest).1 c hc)
  | case3 paths hshort =>
    rw [distinctPaths_short hshort]
    match paths, hshort with
    | [], _ => exact .nil
    | [a], _ => exact List.pairwise_singleton _ a
    | a :: b :: rest, hshort => exact absurd rfl (hshort a b rest)

/-- Of paths with the same steps one stays. -/
theorem exists_mem_distinctPaths {paths : List String} :
    ∀ path ∈ paths, ∃ kept ∈ distinctPaths paths, steps kept = steps path := by
  induction paths using distinctPaths.induct with
  | case1 a b rest heq ih =>
    rw [distinctPaths, if_pos heq]
    obtain ⟨ha, hrest⟩ := List.forall_mem_cons.1 ih
    exact List.forall_mem_cons.2 ⟨ha, List.forall_mem_cons.2 ⟨heq ▸ ha, hrest⟩⟩
  | case2 a b rest hne ih =>
    rw [distinctPaths, if_neg hne]
    refine List.forall_mem_cons.2 ⟨⟨a, List.mem_cons_self, rfl⟩, fun path hpath => ?_⟩
    obtain ⟨kept, hkept, hsteps⟩ := ih path hpath
    exact ⟨kept, List.mem_cons_of_mem a hkept, hsteps⟩
  | case3 paths hshort =>
    rw [distinctPaths_short hshort]
    exact fun path hpath => ⟨path, hpath, rfl⟩

/-! ### Admitted files -/

variable {settings : AnalysisSettings}

/-- No pattern of files left out matches a text. -/
def Included (settings : AnalysisSettings) (text : String) : Prop :=
  ∀ glob ∈ settings.excluded, ∀ pattern ∈ Pattern.ofGlob? glob, pattern.matches text = false

/-- A file is analysed, by its path, that path from the base on, and its size. -/
structure Admits (settings : AnalysisSettings) (path relative : String) (size : Nat) : Prop where
  supported : ∃ extension, extension? path = some extension ∧ Language.isSupported extension = true
  included : Included settings relative ∧ Included settings path
  size_le : settings.sizeLimit ≠ 0 → size ≤ settings.sizeLimit

/-- The paths to analyse at and below a root: the root itself, whose path from its directory on is its
name, or a file below it with no ignored directory in between. -/
inductive Selects (settings : AnalysisSettings) : String × Entry Nat → String → Prop
  | file {path name : String} {size : Nat} (name_eq : fileName? path = some name)
      (admits : Admits settings path name size) : Selects settings (path, .file size) path
  | below {root : String} {entries : List (String × Entry Nat)} {directories : List String}
      {name : String} {size : Nat}
      (holds : (Entry.directory entries).Holds (directories ++ [name]) size)
      (entered : ∀ directory ∈ directories, directory ∉ settings.ignoredDirs)
      (admits : Admits settings ((directories ++ [name]).foldl within root)
        (String.intercalate "/" (directories ++ [name])) size) :
      Selects settings (root, .directory entries) ((directories ++ [name]).foldl within root)

/-- A filter that was made from settings. -/
structure Applies (settings : AnalysisSettings) (filter : Filter) : Prop where
  excludes : ∀ text, filter.excludes text = false ↔ Included settings text
  ignores : ∀ name, filter.ignores name = false ↔ name ∉ settings.ignoredDirs
  sizeLimit : filter.sizeLimit = settings.sizeLimit

theorem exists_ofSettings
    (h : ∀ glob ∈ settings.excluded, (Pattern.ofGlob? glob).isSome = true) :
    ∃ filter, Filter.ofSettings settings = .ok filter ∧ Applies settings filter := by
  have hpatterns : Filter.patternsOf settings.excluded =
      .ok (settings.excluded.map fun glob => (Pattern.ofGlob? glob).getD []) := by
    refine mapM_eq_ok fun glob hglob => ?_
    obtain ⟨pattern, hpattern⟩ := Option.isSome_iff_exists.1 (h glob hglob)
    rw [hpattern]
    rfl
  refine ⟨_, bind_eq_ok_iff.2 ⟨_, hpatterns, rfl⟩, fun text => ?_, fun name => ?_, rfl⟩
  · simp only [List.any_map, List.any_eq_false, Function.comp_apply, Bool.not_eq_true]
    refine forall₂_congr fun glob hglob => ?_
    obtain ⟨pattern, hpattern⟩ := Option.isSome_iff_exists.1 (h glob hglob)
    simp [hpattern]
  · rw [← Bool.not_eq_true, List.contains_iff_mem]

/-- All names on the way to files are names of entries. -/
def Entry.Named {α : Type} (entry : Entry α) : Prop :=
  ∀ names contents, entry.Holds names contents → ∀ name ∈ names, IsName name

theorem Entry.named_file {α : Type} (contents : α) : (Entry.file contents).Named := by
  rintro names _ ⟨⟩ name hname
  cases hname

theorem Entry.named_directory {α : Type} {entries : List (String × Entry α)}
    (h : ∀ entry ∈ entries, IsName entry.1 ∧ entry.2.Named) : (Entry.directory entries).Named := by
  rintro _ contents (_ | ⟨hmem, hbelow⟩)
  exact List.forall_mem_cons.2 ⟨(h _ hmem).1, (h _ hmem).2 _ _ hbelow⟩

/-- The steps from which on paths are matched as well as in full. -/
def baseSteps (root : String) : Entry Nat → List Step
  | .file _ => parentSteps root
  | _ => steps root

theorem filesOf_eq (filter : Filter) (root : String) (entry : Entry Nat) :
    filter.filesOf root entry = ((entry.walk filter.ignores root).filter fun found =>
      filter.keeps (baseSteps root entry) found.path (some found.contents)).map (·.path) := by
  cases entry <;> rfl

theorem exists_fileName?_of_keeps {filter : Filter} {base : List Step} {path : String}
    {size : Option Nat} (h : filter.keeps base path size = true) :
    ∃ name, fileName? path = some name := by
  rw [Filter.keeps, Bool.and_eq_true, Bool.and_eq_true] at h
  obtain ⟨extension, hextension, -⟩ := (Option.any_eq_true _ _).1 h.1.1
  obtain ⟨name, hname, -⟩ := Option.bind_eq_some_iff.1 hextension
  exact ⟨name, hname⟩

section Applies

variable {filter : Filter} (h : Applies settings filter)

include h

theorem Applies.keeps_iff {base : List Step} {path relative : String} {size : Nat}
    (hrelative : relativeTo? path base = some relative) :
    filter.keeps base path (some size) = true ↔ Admits settings path relative size := by
  have hsource : Filter.isSource path = true ↔
      ∃ extension, extension? path = some extension ∧ Language.isSupported extension = true :=
    Option.any_eq_true _ _
  have hexcluded : (!filter.isExcluded base path) = true ↔
      Included settings relative ∧ Included settings path := by
    rw [Filter.isExcluded, hrelative, Option.getD_some, Bool.not_eq_true', Bool.or_eq_false_iff,
      h.excludes, h.excludes]
  have hsize : filter.admitsSize (some size) = true ↔
      (settings.sizeLimit ≠ 0 → size ≤ settings.sizeLimit) := by
    rw [Filter.admitsSize, h.sizeLimit]
    simp [or_iff_not_imp_left]
  rw [Filter.keeps, Bool.and_eq_true, Bool.and_eq_true, hsource, hexcluded, hsize, and_assoc]
  exact ⟨fun ⟨h1, h2, h3⟩ => ⟨h1, h2, h3⟩, fun ⟨h1, h2, h3⟩ => ⟨h1, h2, h3⟩⟩

theorem Applies.open_iff {directories : List String} {name : String} :
    Entry.Open filter.ignores (directories ++ [name]) ↔
      ∀ directory ∈ directories, directory ∉ settings.ignoredDirs := by
  rw [Entry.Open, List.dropLast_concat]
  exact forall₂_congr fun directory _ => h.ignores directory

theorem Applies.mem_filesOf_iff {root : String} {entry : Entry Nat} (hnamed : entry.Named)
    {path : String} : path ∈ filter.filesOf root entry ↔ Selects settings (root, entry) path := by
  rw [filesOf_eq, List.mem_map]
  simp only [List.mem_filter, Entry.mem_walk_iff]
  constructor
  · rintro ⟨⟨_, size⟩, ⟨⟨names, hholds, hentered, rfl⟩, hkeeps⟩, rfl⟩
    -- No names lead to a root that is a file, and the last of the others is that of the file.
    rcases List.eq_nil_or_concat names with rfl | ⟨directories, name, rfl⟩
    · cases hholds
      obtain ⟨name, hname⟩ := exists_fileName?_of_keeps hkeeps
      exact .file hname ((h.keeps_iff (relativeTo?_parentSteps hname)).1 hkeeps)
    · rw [List.concat_eq_append] at hholds hentered hkeeps ⊢
      obtain ⟨entries, rfl⟩ : ∃ entries, entry = .directory entries := by
        cases directories <;> cases hholds <;> exact ⟨_, rfl⟩
      have hrelative := relativeTo?_foldl_within root (by simp) (hnamed _ _ hholds)
      exact .below hholds (h.open_iff.1 hentered) ((h.keeps_iff hrelative).1 hkeeps)
  · rintro (⟨hname, hadmits⟩ | ⟨hholds, hentered, hadmits⟩)
    · refine ⟨⟨root, _⟩, ⟨⟨[], .file _, by simp [Entry.Open], rfl⟩, ?_⟩, rfl⟩
      exact (h.keeps_iff (relativeTo?_parentSteps hname)).2 hadmits
    · have hrelative := relativeTo?_foldl_within root (by simp) (hnamed _ _ hholds)
      exact ⟨⟨_, _⟩, ⟨⟨_, hholds, h.open_iff.2 hentered, rfl⟩, (h.keeps_iff hrelative).2 hadmits⟩, rfl⟩

end Applies

theorem existing_map_some (roots : List (String × Entry Nat)) :
    existing (roots.map fun root => (root.1, some root.2)) = .ok roots := by
  rw [existing, mapM_eq_ok_iff, List.forall₂_map_left_iff, List.forall₂_same]
  exact fun _ _ => rfl

/-- The files found below roots are in strict order, each is selected by a root, and each path that
a root selects is one of them. -/
theorem discover_selects (roots : List (String × Entry Nat))
    (hglobs : ∀ glob ∈ settings.excluded, (Pattern.ofGlob? glob).isSome = true)
    (hnamed : ∀ root ∈ roots, root.2.Named) :
    ∃ files, discover settings (roots.map fun root => (root.1, some root.2)) = .ok files ∧
      files.Pairwise Before ∧ (files.map steps).Nodup ∧
      (∀ path ∈ files, ∃ root ∈ roots, Selects settings root path) ∧
      ∀ root ∈ roots, ∀ path, Selects settings root path →
        ∃ file ∈ files, steps file = steps path := by
  by_cases hempty : roots = []
  · exact ⟨[], by rw [hempty]; rfl, .nil, .nil, by simp, by simp [hempty]⟩
  · obtain ⟨filter, hfilter, happlies⟩ := exists_ofSettings hglobs
    let found := roots.flatMap fun root => filter.filesOf root.1 root.2
    let sorted := found.mergeSort fun a b => (stepsOrder (steps a) (steps b)).isLE
    have hfound (path : String) : path ∈ found ↔ ∃ root ∈ roots, Selects settings root path := by
      rw [List.mem_flatMap]
      exact exists_congr fun root => and_congr_right fun hroot =>
        happlies.mem_filesOf_iff (hnamed root hroot)
    have hstrict := pairwise_distinctPaths (ascending_mergeSort found)
    refine ⟨distinctPaths sorted, ?_, hstrict, ?_, fun path hpath => ?_, fun root hroot path h => ?_⟩
    · rw [discover, if_neg (by simpa using hempty), hfilter, existing_map_some]
      rfl
    · rw [List.nodup_iff_pairwise_ne, List.pairwise_map]
      exact hstrict.imp Before.ne
    · have hmem := (distinctPaths_sublist sorted).subset hpath
      exact (hfound path).1 (List.mem_mergeSort.1 hmem)
    · exact exists_mem_distinctPaths path (List.mem_mergeSort.2 ((hfound path).2 ⟨root, hroot, h⟩))

/-- A root is entered also when directories of its name are ignored. -/
theorem file_of_target_discovered :
    let settings := { AnalysisSettings.default with ignoredDirs := ["target"], sizeLimit := 64 }
    let tree : Entry Nat := .directory [("lib", .directory [("d.py", .file 64)])]
    ∃ files, discover settings [("./target/", some tree)] = .ok files ∧ files.Pairwise Before ∧
      ∃ file ∈ files, steps file = [.here, .name "target", .name "lib", .name "d.py"] := by
  intro settings tree
  have hglobs : ∀ glob ∈ settings.excluded, (Pattern.ofGlob? glob).isSome = true := by
    decide +kernel
  have hlib : (Entry.directory [("d.py", Entry.file 64)]).Named :=
    Entry.named_directory (List.forall_mem_singleton.2 ⟨by decide, Entry.named_file 64⟩)
  have hnamed : tree.Named :=
    Entry.named_directory (List.forall_mem_singleton.2 ⟨by decide, hlib⟩)
  have hholds : tree.Holds (["lib"] ++ ["d.py"]) 64 :=
    .directory List.mem_cons_self (.directory List.mem_cons_self (.file 64))
  have hpath : (["lib"] ++ ["d.py"]).foldl within "./target/" = "./target/lib/d.py" := by
    decide +kernel
  have hsteps : steps "./target/lib/d.py" =
      [.here, .name "target", .name "lib", .name "d.py"] := by
    rw [steps, leadAndTexts, splitOn_slash]
    decide +kernel
  have hextension : extension? "./target/lib/d.py" = some "py" := by
    rw [extension?, fileName?, hsteps]
    decide +kernel
  have hselects : Selects settings ("./target/", tree) "./target/lib/d.py" := by
    refine hpath ▸ .below hholds (by decide) ⟨⟨"py", hpath ▸ hextension, by decide +kernel⟩, ?_, ?_⟩
    · unfold Included
      decide +kernel
    · decide
  obtain ⟨files, hfiles, hstrict, -, -, hcomplete⟩ :=
    discover_selects [("./target/", tree)] hglobs (List.forall_mem_singleton.2 hnamed)
  obtain ⟨file, hfile, hsame⟩ := hcomplete _ List.mem_cons_self _ hselects
  exact ⟨files, hfiles, hstrict, file, hfile, hsame.trans hsteps⟩

end Marginalia.Files
