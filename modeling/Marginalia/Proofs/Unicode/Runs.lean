import Marginalia.Unicode.Blank
import Marginalia.Unicode.Letter

/-! Characters below a bound and characters on runs: what holds of each of the code points holds of
every such character. A shift takes the code points of a run to as many others. -/

namespace Marginalia.Unicode

theorem forall_of_lt {P : Char → Prop} {bound : Nat} (all : ∀ n < bound, P (Char.ofNat n))
    {c : Char} (h : c.toNat < bound) : P c := by
  have hc := all c.toNat h
  rwa [Char.ofNat_toNat] at hc

/-- A number that is no code point stands for the null character. -/
theorem toNat_ofNat_or (n : Nat) : (Char.ofNat n).toNat = n ∨ Char.ofNat n = '\x00' := by
  by_cases hvalid : n.isValidChar
  · rw [show Char.ofNat n = Char.ofNatAux n hvalid from dif_pos hvalid]
    exact .inl rfl
  · exact .inr (dif_neg hvalid)

theorem exists_run {n : Nat} {runs : List Run} (h : onRun n runs = true) :
    ∃ run ∈ runs, run.1 ≤ n ∧ n ≤ run.2.1 := by
  induction runs with
  | nil => simp [onRun] at h
  | cons run rest ih =>
    obtain ⟨first, last, step⟩ := run
    rw [onRun] at h
    split at h
    · simp at h
    · rw [Bool.or_eq_true, Bool.and_eq_true] at h
      rcases h with ⟨hlast, -⟩ | h
      · exact ⟨_, List.mem_cons_self, by simpa using Nat.not_lt.1 ‹_›, by simpa using hlast⟩
      · obtain ⟨run, hmem, hrun⟩ := ih h
        exact ⟨run, List.mem_cons_of_mem _ hmem, hrun⟩

/-- The code points from the first to the last of each run. -/
def codes (runs : List Run) : List Nat :=
  runs.flatMap fun run => List.range' run.1 (run.2.1 + 1 - run.1)

theorem mem_codes_of_onRun {n : Nat} {runs : List Run} (h : onRun n runs = true) :
    n ∈ codes runs := by
  obtain ⟨run, hmem, hfirst, hlast⟩ := exists_run h
  refine List.mem_flatMap.2 ⟨run, hmem, List.mem_range'_1.2 ⟨hfirst, ?_⟩⟩
  omega

/-- For the few characters on short runs, a check of each code point is a proof. -/
theorem forall_of_onRun {P : Char → Prop} {runs : List Run} {c : Char}
    (h : onRun c.toNat runs = true) (all : ∀ n ∈ codes runs, P (Char.ofNat n)) : P c := by
  have hc := all _ (mem_codes_of_onRun h)
  rwa [Char.ofNat_toNat] at hc

/-- A code point lies on the run of a shift. -/
def Covers (shift : Shift) (n : Nat) : Prop :=
  shift.1 ≤ n ∧ n ≤ shift.2.1 ∧ (n - shift.1) % shift.2.2.1 = 0

theorem exists_covers {n m : Nat} {shifts : List Shift} (h : shifted? n shifts = some m) :
    ∃ shift ∈ shifts, Covers shift n ∧ m = shift.2.2.2 + (n - shift.1) := by
  induction shifts with
  | nil => cases h
  | cons shift rest ih =>
    obtain ⟨first, last, step, image⟩ := shift
    rw [shifted?] at h
    split at h
    · cases h
    · next hfirst =>
      split at h
      · next hcovered =>
        simp only [Bool.and_eq_true, decide_eq_true_eq, beq_iff_eq] at hcovered
        obtain rfl := Option.some.inj h
        exact ⟨_, List.mem_cons_self, ⟨Nat.not_lt.1 hfirst, hcovered⟩, rfl⟩
      · obtain ⟨shift, hmem, hshift⟩ := ih h
        exact ⟨shift, List.mem_cons_of_mem _ hmem, hshift⟩

theorem isLetterOrNumeral_of_isBlank {c : Char} (h : isBlank c = true) :
    isLetterOrNumeral c = false :=
  forall_of_onRun (P := fun c => isLetterOrNumeral c = false) h (by decide +kernel)

theorem isLetter_of_isBlank {c : Char} (h : isBlank c = true) : isLetter c = false :=
  (Bool.or_eq_false_iff.1 (isLetterOrNumeral_of_isBlank h)).1

end Marginalia.Unicode
