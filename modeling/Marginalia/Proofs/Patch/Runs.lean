import Marginalia.Proofs.Patch.Coverage

/-! The steps after joining as runs of the steps before. Every step is the join of a run of neighbours
and covers just these; what the members of a run have in common it keeps, and no two deletions are left
that only blanks separate. -/

namespace Marginalia.Patch

open Marginalia.Text

/-- A run of steps and the step that they are joined to. -/
inductive Run (text : List Char) : List Step → Step → Prop
  | one (step : Step) : Run text [step] step
  | join {a b m : Step} {rest : List Step} : Joins text a b →
      Run text (joined a b :: rest) m → Run text (a :: b :: rest) m

variable {text : List Char} {steps merged run : List Step} {m : Step}

namespace Run

theorem ne_nil (h : Run text run m) : run ≠ [] := by
  cases h <;> simp

/-- A run begins as its first step does. -/
theorem head (h : Run text run m) : ∀ first ∈ run.head?, m.place.start = first.place.start ∧
    m.place.fileId = first.place.fileId ∧ m.line = first.line ∧
      m.replacement = first.replacement := by
  induction h with
  | one step => simp
  | join _ _ ih => simpa [joined] using ih

theorem treatment_eq (h : Run text run m) : ∀ s ∈ run, m.treatment = s.treatment := by
  induction h with
  | one step => simp
  | @join a b m rest hj _ ih =>
    have ha : m.treatment = a.treatment := ih (joined a b) List.mem_cons_self
    have hab : a.treatment = b.treatment := by
      have hleft := hj.left
      have hright := hj.right
      simp only [Step.deletes, beq_iff_eq] at hleft hright
      rw [hleft, hright]
    intro s hs
    rw [List.mem_cons, List.mem_cons] at hs
    rcases hs with rfl | rfl | hs
    · exact ha
    · exact ha.trans hab
    · exact ih s (List.mem_cons_of_mem _ hs)

/-- What deletes nothing is a run by itself. -/
theorem eq_of_not_deletes (h : Run text run m) (hm : m.deletes = false) : run = [m] := by
  cases h with
  | one step => rfl
  | @join a b m rest hj hrest =>
    have ht := hrest.treatment_eq (joined a b) List.mem_cons_self
    have hd : m.deletes = a.deletes := by rw [Step.deletes, ht]; rfl
    rw [hm, hj.left] at hd
    cases hd

/-- What joining keeps when both steps agree on it, and else replaces for good: a run has it from its
members when all agree, and otherwise the replacement. -/
theorem common {τ : Type} [DecidableEq τ] (f : Step → τ) (mixed : τ)
    (hf : ∀ a b, f (joined a b) = if f a = f b then f a else mixed) (h : Run text run m) :
    (∀ x, (∀ s ∈ run, f s = x) → f m = x) ∧ ((¬∃ x, ∀ s ∈ run, f s = x) → f m = mixed) := by
  induction h with
  | one step =>
    exact ⟨fun x hx => hx step List.mem_cons_self, fun hnone => absurd ⟨f step, by simp⟩ hnone⟩
  | @join a b m rest _ _ ih =>
    obtain ⟨hsame, hmixed⟩ := ih
    by_cases hab : f a = f b
    · have hjoined : f (joined a b) = f a := by rw [hf, if_pos hab]
      have hiff : ∀ x, (∀ s ∈ joined a b :: rest, f s = x) ↔ ∀ s ∈ a :: b :: rest, f s = x := by
        intro x
        simp [hjoined, ← hab]
      simp only [hiff] at hsame hmixed
      exact ⟨hsame, hmixed⟩
    · -- Once two differ, the join agrees with nothing but the replacement itself.
      have hjoined : f (joined a b) = mixed := by rw [hf, if_neg hab]
      have hm : f m = mixed := by
        by_cases hrest : ∃ x, ∀ s ∈ joined a b :: rest, f s = x
        · obtain ⟨x, hx⟩ := hrest
          rw [hsame x hx, ← hx _ List.mem_cons_self, hjoined]
        · exact hmixed hrest
      refine ⟨fun x hx => absurd ?_ hab, fun _ => hm⟩
      rw [hx a (by simp), hx b (by simp)]

/-- A run reaches over its members. -/
theorem within (h : Run text run m) (hfit : ∀ s ∈ run, s.Fits text) (hasc : Ascending run) :
    ∀ s ∈ run, m.place.start ≤ s.place.start ∧ s.place.stop ≤ m.place.stop := by
  induction h with
  | one step => simp
  | @join a b m rest hj _ ih =>
    have hwithin := ih (fits_join hfit hasc hj) (ascending_joined hasc)
    have hab := (List.pairwise_cons.1 hasc).1 b List.mem_cons_self
    have ha := (hfit a (by simp)).start_lt_stop
    have hb := (hfit b (by simp)).start_lt_stop
    obtain ⟨hstart, hstop⟩ := hwithin (joined a b) List.mem_cons_self
    rw [joined_start] at hstart
    rw [joined_stop] at hstop
    intro s hs
    rw [List.mem_cons, List.mem_cons] at hs
    rcases hs with rfl | rfl | hs
    · omega
    · omega
    · exact hwithin s (List.mem_cons_of_mem _ hs)

end Run

/-- Joining cuts the steps in runs. -/
theorem Merges.exists_runs (h : Merges text steps merged) :
    ∃ runs : List (List Step), runs.flatten = steps ∧ List.Forall₂ (Run text) runs merged := by
  induction h with
  | nil => exact ⟨[], rfl, .nil⟩
  | @pass step rest merged _ _ ih =>
    obtain ⟨runs, rfl, hruns⟩ := ih
    exact ⟨[step] :: runs, rfl, .cons (.one step) hruns⟩
  | @join a b rest merged hj _ ih =>
    obtain ⟨runs, hflatten, hruns⟩ := ih
    cases hruns with
    | nil => simp at hflatten
    | @cons run m runs merged hrun hruns =>
      obtain ⟨first, tail, rfl⟩ := List.exists_cons_of_ne_nil hrun.ne_nil
      rw [List.flatten_cons, List.cons_append, List.cons.injEq] at hflatten
      obtain ⟨rfl, rfl⟩ := hflatten
      exact ⟨(a :: b :: tail) :: runs, rfl, .cons (.join hj hrun) hruns⟩

/-- The first step after joining begins and treats as the first one before. -/
theorem Merges.head (h : Merges text steps merged) : ∀ m ∈ merged.head?, ∃ s ∈ steps.head?,
    m.place.start = s.place.start ∧ m.deletes = s.deletes := by
  induction h with
  | nil => simp
  | pass _ _ _ => simp
  | @join a b rest merged _ _ ih => simpa using ih

/-- A step that its next one is not joined to is joined to no later one either: the next one stands
before that and holds another character than blanks. -/
theorem Merges.not_joins_of_pass {step next : Step} {rest : List Step}
    (h : Merges text (next :: rest) merged) (hnot : ¬Joins text step next)
    (hasc : Ascending (step :: next :: rest)) (hfit : ∀ s ∈ next :: rest, s.Fits text)
    (hsolid : ∃ c ∈ cells text, next.place.holds c.start = true ∧ Unicode.isBlank c.char = false) :
    ∀ m ∈ merged, ¬Joins text step m := by
  intro m hm hj
  obtain ⟨hnext, hasc⟩ := List.pairwise_cons.1 hasc
  cases merged with
  | nil => cases hm
  | cons m₀ others =>
    obtain ⟨_, hhead, hstart, hdeletes⟩ := h.head m₀ rfl
    obtain rfl := Option.some.inj hhead
    rcases List.mem_cons.1 hm with rfl | hm
    · exact hnot ⟨hj.left, hdeletes ▸ hj.right, hstart ▸ hj.blanks⟩
    · have hlater := (List.pairwise_cons.1 (h.ascending hasc)).1 m hm
      have hlt := (h.fits hfit hasc m₀ List.mem_cons_self).start_lt_stop
      obtain ⟨s, hs, hms⟩ := h.exists_start m (List.mem_cons_of_mem m₀ hm)
      have hle : next.place.stop ≤ m.place.start := by
        rcases List.mem_cons.1 hs with rfl | hs
        · omega
        · exact hms ▸ (List.pairwise_cons.1 hasc).1 s hs
      obtain ⟨c, hc, hholds, hblank⟩ := hsolid
      have hstep := hnext next List.mem_cons_self
      rw [Place.holds_iff] at hholds
      have := hj.blanks c hc (by omega) (by omega)
      rw [hblank] at this
      contradiction

/-- No two deletions are left that only blanks separate, when every step holds another character. -/
theorem Merges.pairwise_not_joins (h : Merges text steps merged) (hasc : Ascending steps)
    (hfit : ∀ s ∈ steps, s.Fits text)
    (hsolid : ∀ s ∈ steps, ∃ c ∈ cells text, s.place.holds c.start = true ∧
      Unicode.isBlank c.char = false) : merged.Pairwise fun a b => ¬Joins text a b := by
  induction h with
  | nil => exact List.Pairwise.nil
  | @pass step rest merged hnot hrest ih =>
    have hfit' : ∀ s ∈ rest, s.Fits text := fun s hs => hfit s (List.mem_cons_of_mem step hs)
    have hsolid' : ∀ s ∈ rest, ∃ c ∈ cells text, s.place.holds c.start = true ∧
        Unicode.isBlank c.char = false := fun s hs => hsolid s (List.mem_cons_of_mem step hs)
    refine List.pairwise_cons.2 ⟨?_, ih (List.pairwise_cons.1 hasc).2 hfit' hsolid'⟩
    cases rest with
    | nil => cases hrest; simp
    | cons next rest =>
      exact hrest.not_joins_of_pass (hnot next rfl) hasc hfit' (hsolid' next List.mem_cons_self)
  | @join a b rest merged hj _ ih =>
    refine ih (ascending_joined hasc) (fits_join hfit hasc hj) fun s hs => ?_
    rcases List.mem_cons.1 hs with rfl | hs
    · obtain ⟨c, hc, hholds, hblank⟩ := hsolid a List.mem_cons_self
      have hab := (List.pairwise_cons.1 hasc).1 b List.mem_cons_self
      have ha := (hfit a (by simp)).start_lt_stop
      have hb := (hfit b (by simp)).start_lt_stop
      exact ⟨c, hc, (holds_joined ha hb hab _).2 (.inl hholds), hblank⟩
    · exact hsolid s (by simp [hs])

end Marginalia.Patch
