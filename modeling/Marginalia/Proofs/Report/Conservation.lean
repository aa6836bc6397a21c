import Marginalia.Proofs.Sequence
import Marginalia.Report.Basic
import Mathlib.Algebra.BigOperators.Group.List.Lemmas
import Mathlib.Algebra.GroupWithZero.Nat

/-! Reports and outcomes: a report has an entry for each file, with what was found there and nothing
else, and its counts add up to the comments and steps of all files. -/

namespace Marginalia

open Analysis Patch

variable {α : Type}

theorem Category.name_injective : Function.Injective Category.name := by
  intro a b h
  cases a <;> cases b <;> first | rfl | exact absurd h (by decide)

theorem Patch.Treatment.name_injective : Function.Injective Treatment.name := by
  intro a b h
  cases a <;> cases b <;> first | rfl | exact absurd h (by decide)

namespace Report

/-! ### Counts -/

/-- Counts of the kinds in a list: each kind that occurs is listed once under its name, with the
number of its occurrences. -/
structure CountsOf {κ : Type} [DecidableEq κ] (name : κ → String) (kinds : List κ)
    (counts : List (κ × Nat)) : Prop where
  count : ∀ entry ∈ counts, entry.2 = kinds.count entry.1
  listed : ∀ kind, kind ∈ counts.map Prod.fst ↔ kind ∈ kinds
  names : (counts.map fun entry => name entry.1).Nodup
  total : (counts.map Prod.snd).sum = kinds.length

section Counts

variable {κ : Type} [DecidableEq κ]

/-- A list is as long as the counts of its kinds together, in whatever order these are listed. -/
theorem sum_count_eq_length {keys kinds : List κ} (hnodup : keys.Nodup)
    (hmem : ∀ kind, kind ∈ keys ↔ kind ∈ kinds) : (keys.map kinds.count).sum = kinds.length := by
  have hperm : keys.Perm kinds.dedup :=
    (List.perm_ext_iff_of_nodup hnodup kinds.nodup_dedup).2 fun kind => by
      rw [hmem, List.mem_dedup]
  calc (keys.map kinds.count).sum
      = (kinds.dedup.map kinds.count).sum := (hperm.map kinds.count).sum_eq
    _ = kinds.length := List.sum_map_count_dedup_eq_length kinds

theorem countsOf_map {name : κ → String} (hname : Function.Injective name) {keys kinds : List κ}
    (hnodup : keys.Nodup) (hmem : ∀ kind, kind ∈ keys ↔ kind ∈ kinds) :
    CountsOf name kinds (keys.map fun kind => (kind, kinds.count kind)) where
  count := fun entry hentry => by
    obtain ⟨kind, -, rfl⟩ := List.mem_map.1 hentry
    rfl
  listed := fun kind => by
    rw [List.map_map, ← hmem]
    exact ⟨fun h => by simpa using h, fun h => by simpa using h⟩
  names := by
    rw [List.map_map]
    exact hnodup.map hname
  total := by
    rw [List.map_map]
    exact sum_count_eq_length hnodup hmem

end Counts

theorem nodup_all : Category.all.Nodup := by decide

theorem categoryCounts_countsOf (comments : List (Judged α)) :
    CountsOf Category.name (comments.map (·.verdict.category)) (categoryCounts comments) := by
  refine countsOf_map Category.name_injective (nodup_all.filter _) fun category => ?_
  rw [List.mem_filter, List.contains_iff_mem, and_iff_right (Category.mem_all category)]

theorem categoryCounts_sublist (comments : List (Judged α)) :
    ((categoryCounts comments).map Prod.fst).Sublist Category.all := by
  rw [categoryCounts, List.map_map]
  exact (List.map_id _).symm ▸ List.filter_sublist

theorem treatmentCounts_countsOf (steps : List Step) :
    CountsOf Treatment.name (steps.map (·.treatment)) (treatmentCounts steps) :=
  countsOf_map Treatment.name_injective (nodup_eraseDups _) fun _ => List.mem_eraseDups

/-! ### Entries -/

/-- The steps that are planned for a file. -/
def planned (file : FileOutcome α) : List Step :=
  match file.plan with
  | some plan => plan.steps
  | none => []

theorem flatMap_plan (file : FileOutcome α) : file.plan.toList.flatMap (·.steps) = planned file := by
  rw [planned]
  cases file.plan with
  | none => rfl
  | some plan => exact List.append_nil plan.steps

theorem steps_eq (outcome : Outcome α) : outcome.steps = outcome.files.flatMap planned := by
  rw [Outcome.steps, List.filterMap_eq_flatMap_toList, List.flatMap_assoc]
  exact List.flatMap_congr fun file _ => flatMap_plan file

/-- What a report says about a file. -/
structure Describes (drift : Drift.DriftReport α) (includeKept : Bool) (file : FileOutcome α)
    (entry : FileReport α) : Prop where
  fileId : entry.fileId = file.fileId
  all : includeKept = true → entry.steps = planned file
  changed : includeKept = false →
    entry.steps = (planned file).filter fun step => step.treatment ≠ .keep
  findings : entry.findings = drift.findings.filter fun finding =>
    finding.first.fileId = file.fileId ∨ finding.second.fileId = file.fileId
  truncated : entry.truncated = true ↔
    ∃ warning ∈ drift.warnings, warning.concerns file.fileId = true

theorem describes_fileReport (drift : Drift.DriftReport α) (includeKept : Bool)
    (file : FileOutcome α) :
    Describes drift includeKept file (fileReport drift includeKept file) := by
  refine ⟨rfl, fun h => ?_, fun h => ?_, ?_, List.any_eq_true⟩
  · rw [fileReport, flatMap_plan, h]
    exact List.filter_eq_self.2 fun _ _ => rfl
  · rw [fileReport, flatMap_plan, h]
    exact List.filter_congr fun step _ => Bool.eq_iff_iff.2 (by simp)
  · exact List.filter_congr fun finding _ => Bool.eq_iff_iff.2 (by simp [Finding.touches])

/-- The counts of a summary, taken over the files of an outcome. -/
structure Sums (outcome : Outcome α) (summary : Summary) : Prop where
  comments : summary.comments = (outcome.files.map (·.comments.length)).sum
  categories : CountsOf Category.name
    (outcome.files.flatMap fun file => file.comments.map (·.verdict.category)) summary.categories
  ascending : (summary.categories.map Prod.fst).Sublist Category.all
  treatments : CountsOf Treatment.name
    (outcome.files.flatMap fun file => (planned file).map (·.treatment)) summary.treatments

theorem sums_summaryOf (outcome : Outcome α) : Sums outcome (summaryOf outcome) where
  comments := List.length_flatMap
  categories := by
    have hcounts := categoryCounts_countsOf outcome.comments
    rwa [Outcome.comments, List.map_flatMap] at hcounts
  ascending := categoryCounts_sublist outcome.comments
  treatments := by
    have hcounts := treatmentCounts_countsOf outcome.steps
    rwa [steps_eq, List.map_flatMap, ← steps_eq] at hcounts

/-- A report neither loses nor invents anything: its entries describe the files in their order, its
counts add up to the comments and steps of all files, and whether comments that are kept are listed
makes no difference to its summary. -/
theorem ofOutcome_conserves (outcome : Outcome α) (includeKept : Bool) :
    List.Forall₂ (Describes outcome.drift includeKept) outcome.files
        (ofOutcome outcome includeKept).files ∧
      Sums outcome (ofOutcome outcome includeKept).summary ∧
      (ofOutcome outcome true).summary = (ofOutcome outcome false).summary := by
  refine ⟨?_, sums_summaryOf outcome, rfl⟩
  rw [ofOutcome, List.forall₂_map_right_iff, List.forall₂_same]
  exact fun file _ => describes_fileReport outcome.drift includeKept file

end Report

end Marginalia
