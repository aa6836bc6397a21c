import Marginalia.Proofs.Unicode.Case

/-! A letter stays a letter in lower case. Each image under lower case is looked up in the table of
letters; the images and the table are compared as the bits of two numbers. -/

namespace Marginalia.Unicode

/-! ### Runs as bits -/

/-- The code points of the runs in steps of one, as the bits of one number. -/
def runBits : List Run → Nat
  | [] => 0
  | (first, last, step) :: rest =>
    runBits rest ||| if step = 1 then (1 <<< (last + 1 - first) - 1) <<< first else 0

/-- Runs that ascend by their first code points. -/
def Ascends (runs : List Run) : Prop := runs.Pairwise fun run next => run.1 ≤ next.1

theorem onRun_of_testBit {runs : List Run} (h : Ascends runs) {n : Nat}
    (hn : (runBits runs).testBit n = true) : onRun n runs = true := by
  have hreached {runs : List Run} (hn : (runBits runs).testBit n = true) :
      ∃ run ∈ runs, run.1 ≤ n := by
    induction runs with
    | nil => simp [runBits] at hn
    | cons run rest ih =>
      rw [runBits, Nat.testBit_or, Bool.or_eq_true] at hn
      rcases hn with hn | hn
      · obtain ⟨run, hmem, hfirst⟩ := ih hn
        exact ⟨run, List.mem_cons_of_mem _ hmem, hfirst⟩
      · split at hn
        · rw [Nat.testBit_shiftLeft, Bool.and_eq_true, decide_eq_true_eq] at hn
          exact ⟨run, List.mem_cons_self, hn.1⟩
        · simp at hn
  induction runs with
  | nil => simp [runBits] at hn
  | cons run rest ih =>
    obtain ⟨first, last, step⟩ := run
    obtain ⟨hfirst, hrest⟩ := List.pairwise_cons.1 h
    -- No run before the one of the code point begins after it, so the look-up does not stop early.
    have hbegun : ¬n < first := by
      obtain ⟨run, hmem, hle⟩ := hreached hn
      rcases List.mem_cons.1 hmem with rfl | hmem
      · exact Nat.not_lt.2 hle
      · exact Nat.not_lt.2 (Nat.le_trans (hfirst run hmem) hle)
    rw [runBits, Nat.testBit_or, Bool.or_eq_true] at hn
    rw [onRun, if_neg hbegun, Bool.or_eq_true]
    rcases hn with hn | hn
    · exact .inr (ih hrest hn)
    · refine .inl ?_
      split at hn
      · next hstep =>
        rw [Nat.testBit_shiftLeft, Nat.one_shiftLeft, Nat.testBit_two_pow_sub_one] at hn
        simp only [Bool.and_eq_true, decide_eq_true_eq] at hn
        have hlast : n ≤ last := by omega
        simp [hstep, hlast, Nat.mod_one]
      · simp at hn

/-! ### Letters in lower case -/

theorem ascends_alphabetic : Ascends alphabetic := by
  have : Trans (fun run next : Run => run.1 ≤ next.1) (fun run next : Run => run.1 ≤ next.1)
      (fun run next : Run => run.1 ≤ next.1) := ⟨Nat.le_trans⟩
  have hchain : alphabetic.IsChain fun run next => run.1 ≤ next.1 := by decide +kernel
  exact List.isChain_iff_pairwise.1 hchain

theorem onRun_of_mem_images {n : Nat} (h : n ∈ images lowerShifts) : onRun n alphabetic = true := by
  have hsubset : bits (images lowerShifts) &&& runBits alphabetic = bits (images lowerShifts) := by
    decide +kernel
  have hbit := testBit_bits h
  rw [← hsubset, Nat.testBit_and, Bool.and_eq_true] at hbit
  exact onRun_of_testBit ascends_alphabetic hbit.2

/-- The runs of letters hold no number between the two halves of the code space. -/
theorem isValidChar_of_onRun {n : Nat} (h : onRun n alphabetic = true) : n.isValidChar := by
  have hall : ∀ run ∈ alphabetic, run.2.1 < 0xd800 ∨ 0xdfff < run.1 ∧ run.2.1 < 0x110000 := by
    decide +kernel
  obtain ⟨run, hmem, hfirst, hlast⟩ := exists_run h
  have := hall run hmem
  unfold Nat.isValidChar
  omega

theorem isLetter_ofNat_of_mem_images {n : Nat} (h : n ∈ images lowerShifts) :
    isLetter (Char.ofNat n) = true := by
  have hrun := onRun_of_mem_images h
  rw [isLetter, show Char.ofNat n = Char.ofNatAux n (isValidChar_of_onRun hrun) from dif_pos _]
  exact hrun

/-- Of the two characters for a capital I with a dot the first is a letter. -/
theorem exists_lowerChar_of_isLetter {c : Char} (h : isLetter c = true) :
    ∃ d rest, lowerChar c = d :: rest ∧ isLetter d = true := by
  rw [lowerChar]
  split
  · next hascii =>
    refine ⟨c.toLower, [], rfl, ?_⟩
    exact forall_of_lt (P := fun c => isLetter c = true → isLetter c.toLower = true)
      (by decide +kernel) hascii h
  · split
    · exact ⟨'i', ['\u0307'], rfl, by decide +kernel⟩
    · refine ⟨_, [], rfl, ?_⟩
      cases hshifted : shifted? c.toNat lowerShifts with
      | none => exact h
      | some image => exact isLetter_ofNat_of_mem_images (mem_images hshifted)

end Marginalia.Unicode
