import Marginalia.Files.Entry

/-! The files in a tree by the names that lead to them: a walk that leaves ignored directories out
finds the files with no ignored directory on the way. -/

namespace Marginalia.Files

variable {α : Type}

namespace Entry

/-- Names lead through directories to a file. -/
inductive Holds : Entry α → List String → α → Prop
  | file (contents : α) : Holds (.file contents) [] contents
  | directory {entries : List (String × Entry α)} {name : String} {entry : Entry α}
      {names : List String} {contents : α} (mem : (name, entry) ∈ entries)
      (below : Holds entry names contents) : Holds (.directory entries) (name :: names) contents

theorem Holds.isDirectory {entry : Entry α} {names : List String} {contents : α}
    (h : entry.Holds names contents) : entry.isDirectory = !names.isEmpty := by
  cases h <;> rfl

/-- No directory on the way to a file is ignored. -/
def Open (ignored : String → Bool) (names : List String) : Prop :=
  ∀ directory ∈ names.dropLast, ignored directory = false

theorem open_cons_iff {ignored : String → Bool} {name : String} {names : List String} :
    Open ignored (name :: names) ↔ (names ≠ [] → ignored name = false) ∧ Open ignored names := by
  cases names with
  | nil => simp [Open]
  | cons next names => simp [Open]

theorem mem_walkAll {ignored : String → Bool} {path : String} {entries : List (String × Entry α)}
    {found : Found α} : found ∈ walkAll ignored path entries ↔ ∃ name entry, (name, entry) ∈ entries ∧
      ¬(entry.isDirectory = true ∧ ignored name = true) ∧
      found ∈ entry.walk ignored (within path name) := by
  induction entries with
  | nil => simp [walkAll]
  | cons head rest ih =>
    obtain ⟨name, entry⟩ := head
    have hhead : found ∈ (if entry.isDirectory && ignored name then []
          else entry.walk ignored (within path name)) ↔
        ¬(entry.isDirectory = true ∧ ignored name = true) ∧
          found ∈ entry.walk ignored (within path name) := by
      rw [← Bool.and_eq_true]
      split <;> simp [*]
    rw [walkAll, List.mem_append, ih, hhead]
    constructor
    · rintro (h | ⟨other, below, hmem, h⟩)
      · exact ⟨name, entry, List.mem_cons_self, h⟩
      · exact ⟨other, below, List.mem_cons_of_mem _ hmem, h⟩
    · rintro ⟨other, below, hmem, h⟩
      rcases List.mem_cons.1 hmem with heq | hmem
      · obtain ⟨rfl, rfl⟩ := Prod.mk.inj heq
        exact .inl h
      · exact .inr ⟨other, below, hmem, h⟩

/-- A walk finds what stands below, at its path. -/
theorem mem_walk_of_holds {ignored : String → Bool} {entry : Entry α} {names : List String}
    {contents : α} (h : entry.Holds names contents) (hopen : Open ignored names) (path : String) :
    ⟨names.foldl within path, contents⟩ ∈ entry.walk ignored path := by
  induction h generalizing path with
  | file contents => exact List.mem_singleton.2 rfl
  | @directory entries name entry names contents hmem hbelow ih =>
    obtain ⟨hname, hnames⟩ := open_cons_iff.1 hopen
    rw [walk, mem_walkAll]
    refine ⟨name, entry, hmem, ?_, ih hnames (within path name)⟩
    rintro ⟨hdirectory, hignored⟩
    rw [hbelow.isDirectory] at hdirectory
    rw [hname (by simpa using hdirectory)] at hignored
    cases hignored

/-- What a walk finds stands below. -/
theorem exists_holds_of_mem_walk {ignored : String → Bool} {found : Found α} (entry : Entry α)
    {path : String} (h : found ∈ entry.walk ignored path) :
    ∃ names, entry.Holds names found.contents ∧ Open ignored names ∧
      found.path = names.foldl within path := by
  match entry with
  | .file contents =>
    obtain rfl := List.mem_singleton.1 h
    exact ⟨[], .file contents, by simp [Open], rfl⟩
  | .directory entries =>
    rw [walk, mem_walkAll] at h
    obtain ⟨name, below, hmem, hentered, h⟩ := h
    obtain ⟨names, hholds, hopen, hpath⟩ := exists_holds_of_mem_walk below h
    -- What was entered is a file, with no names below, or a directory that is not ignored.
    refine ⟨name :: names, .directory hmem hholds, open_cons_iff.2 ⟨fun hne => ?_, hopen⟩, hpath⟩
    rw [hholds.isDirectory] at hentered
    exact Bool.eq_false_iff.2 fun hignored => hentered ⟨by simpa using hne, hignored⟩
  | .other => cases h
termination_by sizeOf entry
decreasing_by
  have hlt := List.sizeOf_lt_of_mem hmem
  simp only [Prod.mk.sizeOf_spec, directory.sizeOf_spec] at hlt ⊢
  omega

theorem mem_walk_iff {ignored : String → Bool} {path : String} {entry : Entry α} {found : Found α} :
    found ∈ entry.walk ignored path ↔ ∃ names, entry.Holds names found.contents ∧
      Open ignored names ∧ found.path = names.foldl within path := by
  refine ⟨exists_holds_of_mem_walk entry, ?_⟩
  rintro ⟨names, hholds, hopen, hpath⟩
  have hmem := mem_walk_of_holds hholds hopen path
  rwa [← hpath] at hmem

end Entry

end Marginalia.Files
