import Marginalia.Proofs.Analysis.Schedules

/-! A file that fails affects no other file, on no schedule. What a run comes to is told by the
files that are done when it ends; of these one can be left out or put in, and a failed file counts
neither for drift nor for the plans of other files. -/

namespace Marginalia.Analysis

variable {α : Type} [Score α]

/-! ### Files that can be done -/

/-- Whether a run can end when just the marked files are done, if there is room for so many more
tasks: a file that is not done takes up room, and without room no further file is taken up. -/
def paced : Nat → List Bool → Bool
  | 0, done => done.all (!·)
  | _ + 1, [] => true
  | room + 1, true :: rest => paced (room + 1) rest
  | room + 1, false :: rest => paced room rest

theorem paced_zero_iff {done : List Bool} : paced 0 done = true ↔ ∀ mark ∈ done, mark = false := by
  rw [paced, List.all_eq_true]
  exact forall₂_congr fun mark _ => by rw [Bool.not_eq_true']

theorem paced_of_count_lt {room : Nat} {done : List Bool}
    (h : ∀ front back, done = front ++ true :: back → front.count false < room) :
    paced room done = true := by
  induction done generalizing room with
  | nil => cases room <;> rfl
  | cons first rest ih =>
    cases room with
    | zero =>
      refine paced_zero_iff.2 fun mark hmark => eq_false_of_ne_true fun htrue => ?_
      obtain ⟨front, back, hsplit⟩ := List.append_of_mem (htrue ▸ hmark)
      exact Nat.not_lt_zero _ (h front back hsplit)
    | succ room =>
      cases first with
      | true =>
        refine ih fun front back hrest => ?_
        simpa using h (true :: front) back (by rw [hrest]; rfl)
      | false =>
        refine ih fun front back hrest => ?_
        simpa using h (false :: front) back (by rw [hrest]; rfl)

namespace Analyst

/-! ### What schedules lead to -/

variable {analyst : Analyst α} {pending : List Pending} {limit : Nat} {stage : Stage α}
  {result : Except Fault (Outcome α)}

theorem Accounts.paced {done : List (Pending × Nat)}
    (h : analyst.Accounts limit pending stage done) :
    paced limit (pending.zipIdx.map fun file => decide (file ∈ done)) = true := by
  refine paced_of_count_lt fun front back hsplit => ?_
  obtain ⟨earlier, rest, hfiles, rfl, hrest⟩ := List.map_eq_append_iff.1 hsplit
  obtain ⟨file, later, rfl, hfile, rfl⟩ := List.map_eq_cons_iff.1 hrest
  have hwaiting : file ∉ stage.waiting := by
    intro hmem
    have hnodup := h.perm.nodup_iff.2 (nodup_zipIdx pending)
    rw [List.append_assoc] at hnodup
    exact List.disjoint_of_nodup_append hnodup hmem
      (List.mem_append_right _ (of_decide_eq_true hfile))
  refine Nat.lt_of_le_of_lt (Nat.le_of_eq ?_) (h.room earlier file later hfiles hwaiting)
  rw [List.count_eq_countP, List.countP_map]
  exact List.countP_congr fun _ _ => by simp

end Analyst

end Marginalia.Analysis
