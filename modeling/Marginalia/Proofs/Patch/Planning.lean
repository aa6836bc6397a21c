import Marginalia.Patch.Planning
import Marginalia.Proofs.Patch.Merging
import Marginalia.Proofs.Patch.Widening

/-! The plan for well-placed comments: there always is one, its steps fit the text and ascend, and
it does what was decided about every comment. What it deletes besides are blanks. -/

namespace Marginalia.Patch

open Marginalia.Text

variable {α : Type}

/-- Comments of a file as they are found in its text: solid places that are apart. -/
structure WellPlaced (text : List Char) (fileId : String) (comments : List (Judged α)) : Prop where
  own : ∀ k ∈ comments, k.comment.fileId = fileId
  solid : ∀ k ∈ comments, Solid text k.comment.place
  apart : comments.Pairwise fun a b => a.comment.place.Apart b.comment.place

instance (text : List Char) (fileId : String) (comments : List (Judged α)) :
    Decidable (WellPlaced text fileId comments) :=
  decidable_of_iff ((∀ k ∈ comments, k.comment.fileId = fileId) ∧
      (∀ k ∈ comments, Solid text k.comment.place) ∧
      comments.Pairwise fun a b => a.comment.place.Apart b.comment.place)
    ⟨fun ⟨h1, h2, h3⟩ => ⟨h1, h2, h3⟩, fun ⟨h1, h2, h3⟩ => ⟨h1, h2, h3⟩⟩

/-- A comment as far as plans read it. -/
def placed (fileId : String) (start : Nat) (raw : String) (category : Category)
    (typos : List Typo) : Judged Nat where
  comment := ⟨fileId, start, start + raw.utf8ByteSize, 1, .line, raw, "", 0, "", 0⟩
  verdict := ⟨category, 0, [], typos⟩

/-- The default policy, but fillers are deleted. -/
def deletingFillers : Policy := { Policy.default with deleteFiller := true }

/-- What is decided about a comment of a file. -/
def decidedFor (policy : Policy) (drift : List (Finding α)) (fileId : String) (judged : Judged α) :
    Step :=
  decide policy (isDrifted drift fileId judged.comment.place) judged

/-- What is decided about comments. -/
def decided (policy : Policy) (drift : List (Finding α)) (fileId : String)
    (comments : List (Judged α)) : List Step :=
  comments.map (decidedFor policy drift fileId)

/-- A step with what goes with it. -/
def widenStep (text : List Char) (step : Step) : Step :=
  if step.deletes then { step with place := widened text step.place } else step

@[simp] theorem decidedFor_place (policy : Policy) (drift : List (Finding α)) (fileId : String)
    (judged : Judged α) :
    (decidedFor policy drift fileId judged).place = judged.comment.place := rfl

theorem treatmentOf_ne_rewrite (policy : Policy) (drifted : Bool) (category : Category) :
    (treatmentOf policy drifted category).1 ≠ .rewrite := by
  unfold treatmentOf
  split
  · simp
  · cases category <;> simp only [deletion?] <;> (try split) <;> simp

theorem decidedFor_replacement (policy : Policy) (drift : List (Finding α)) (fileId : String)
    (judged : Judged α) (h : (decidedFor policy drift fileId judged).treatment = .rewrite) :
    (decidedFor policy drift fileId judged).replacement.isSome = true := by
  rw [decidedFor, decide] at h ⊢
  simp only at h ⊢
  split at h
  · next hr => rw [if_pos hr, Option.isSome_some]
  · exact absurd h (treatmentOf_ne_rewrite policy _ _)

/-! ### Comments in order -/

theorem ownComments_perm {text : List Char} {fileId : String} {comments : List (Judged α)}
    (h : WellPlaced text fileId comments) : (ownComments fileId comments).Perm comments := by
  have hfilter : comments.filter (fun judged => judged.comment.fileId == fileId) = comments := by
    rw [List.filter_eq_self]
    intro k hk
    simpa using h.own k hk
  rw [ownComments, hfilter]
  exact List.mergeSort_perm _ _

/-- Comments of one file that ascend need no sorting. -/
theorem ownComments_eq {fileId : String} {comments : List (Judged α)}
    (hown : ∀ k ∈ comments, (k.comment.fileId == fileId) = true)
    (hsorted : comments.Pairwise fun a b => ((compare a.comment.start b.comment.start).then
      (compare a.comment.stop b.comment.stop)).isLE = true) :
    ownComments fileId comments = comments := by
  rw [ownComments, List.filter_eq_self.2 hown]
  exact List.mergeSort_of_pairwise hsorted

theorem ownComments_sorted (fileId : String) (comments : List (Judged α)) :
    (ownComments fileId comments).Pairwise fun a b => a.comment.start < b.comment.start ∨
      a.comment.start = b.comment.start ∧ a.comment.stop ≤ b.comment.stop :=
  pairwise_mergeSort_ranges _ _ _

theorem ownComments_pairwise {text : List Char} {fileId : String} {comments : List (Judged α)}
    (h : WellPlaced text fileId comments) : (ownComments fileId comments).Pairwise
      fun a b => a.comment.place.stop ≤ b.comment.place.start := by
  have hperm := ownComments_perm h
  have hapart : (ownComments fileId comments).Pairwise
      fun a b => a.comment.place.Apart b.comment.place :=
    hperm.symm.pairwise h.apart fun hab => hab.symm
  refine ((ownComments_sorted fileId comments).and hapart).imp_of_mem fun {a b} ha hb hab => ?_
  have ha := (h.solid a (hperm.mem_iff.1 ha)).start_lt_stop
  have hb := (h.solid b (hperm.mem_iff.1 hb)).start_lt_stop
  rcases hab with ⟨hle, hab | hba⟩
  · exact hab
  · simp only [Comment.place] at *
    omega

/-- The order of the comments plays no part in what is decided about them. -/
theorem mem_decided_iff {text : List Char} {fileId : String} {comments : List (Judged α)}
    (h : WellPlaced text fileId comments) (policy : Policy) (drift : List (Finding α)) {s : Step} :
    s ∈ decided policy drift fileId (ownComments fileId comments) ↔
      s ∈ decided policy drift fileId comments :=
  ((ownComments_perm h).map _).mem_iff

/-! ### The plan -/

variable {text : List Char} {steps : List Step}

/-- Steps that stand in solid places. -/
structure Stands (text : List Char) (steps : List Step) : Prop where
  solid : ∀ s ∈ steps, Solid text s.place
  replacement : ∀ s ∈ steps, s.treatment = .rewrite → s.replacement.isSome = true
  ascending : Ascending steps

theorem Stands.fits (h : Stands text steps) : ∀ s ∈ steps, s.Fits text := fun s hs =>
  ⟨(h.solid s hs).start_lt_stop, (h.solid s hs).start_boundary, (h.solid s hs).stop_boundary,
    h.replacement s hs⟩

@[simp] theorem widenStep_treatment (text : List Char) (step : Step) :
    (widenStep text step).treatment = step.treatment := by
  rw [widenStep]
  split <;> rfl

@[simp] theorem widenStep_category (text : List Char) (step : Step) :
    (widenStep text step).category = step.category := by
  rw [widenStep]
  split <;> rfl

@[simp] theorem widenStep_reason (text : List Char) (step : Step) :
    (widenStep text step).reason = step.reason := by
  rw [widenStep]
  split <;> rfl

@[simp] theorem widenStep_replacement (text : List Char) (step : Step) :
    (widenStep text step).replacement = step.replacement := by
  rw [widenStep]
  split <;> rfl

@[simp] theorem widenStep_line (text : List Char) (step : Step) :
    (widenStep text step).line = step.line := by
  rw [widenStep]
  split <;> rfl

@[simp] theorem widenStep_fileId (text : List Char) (step : Step) :
    (widenStep text step).place.fileId = step.place.fileId := by
  rw [widenStep]
  split
  · simp only [widened]
    split <;> rfl
  · rfl

@[simp] theorem widenStep_deletes (text : List Char) (step : Step) :
    (widenStep text step).deletes = step.deletes := by
  rw [Step.deletes, Step.deletes, widenStep_treatment]

theorem widenStep_of_not {step : Step} (h : step.deletes = false) :
    widenStep text step = step := by
  simp [widenStep, h]

theorem widens_widenStep {step : Step} (h : step.Fits text) (hd : step.deletes = true) :
    Widens text step.place (widenStep text step).place := by
  rw [widenStep, if_pos hd]
  exact widens_widened h.start_boundary h.stop_boundary

theorem extends_widenStep {step : Step} (h : step.Fits text) :
    Extends text step.place (widenStep text step).place := by
  cases hd : step.deletes with
  | true => exact (widens_widenStep h hd).extends h.start_boundary h.stop_boundary
  | false =>
    rw [widenStep_of_not hd]
    exact Extends.refl h.start_boundary h.stop_boundary

theorem widen_eq {step : Step} (h : step.Fits text) :
    widen text step = .ok (widenStep text step) := by
  have := h.start_lt_stop
  have := le_size_of_isBoundary h.stop_boundary
  rw [widen, widenStep]
  split
  · rw [if_neg (by omega)]
  · rfl

theorem fits_widenStep {step : Step} (h : step.Fits text) : (widenStep text step).Fits text := by
  have hext := extends_widenStep h
  refine ⟨?_, hext.start_boundary, hext.stop_boundary, fun ht => ?_⟩
  · have := h.start_lt_stop
    have := hext.start_le
    have := hext.le_stop
    omega
  · rw [widenStep_treatment] at ht
    rw [widenStep]
    split
    · exact h.replacement ht
    · exact h.replacement ht

theorem ensureDisjoint_eq (fileId : String) (h : Ascending steps) :
    ensureDisjoint fileId steps = .ok () := by
  induction h with
  | nil => rfl
  | @cons a rest ha _ ih =>
    cases rest with
    | nil => rfl
    | cons b rest =>
      have := ha b List.mem_cons_self
      rw [ensureDisjoint, if_neg (by omega)]
      exact ih

/-- Steps in solid places still ascend when they are widened. -/
theorem Stands.ascending_widened (h : Stands text steps) :
    Ascending (steps.map (widenStep text)) := by
  refine List.pairwise_map.2 (h.ascending.imp_of_mem fun {a b} ha hb hab => ?_)
  exact Extends.stop_le_start (h.solid a ha) (h.solid b hb) hab (extends_widenStep (h.fits a ha))
    (extends_widenStep (h.fits b hb))

theorem Stands.fits_widened (h : Stands text steps) :
    ∀ s ∈ steps.map (widenStep text), s.Fits text := by
  intro s hs
  obtain ⟨d, hd, rfl⟩ := List.mem_map.1 hs
  exact fits_widenStep (h.fits d hd)

theorem stands_decided {fileId : String} {comments : List (Judged α)}
    (h : WellPlaced text fileId comments) (policy : Policy) (drift : List (Finding α)) :
    Stands text (decided policy drift fileId (ownComments fileId comments)) where
  solid := by
    intro s hs
    obtain ⟨k, hk, rfl⟩ := List.mem_map.1 hs
    exact h.solid k ((ownComments_perm h).mem_iff.1 hk)
  replacement := by
    intro s hs ht
    obtain ⟨k, hk, rfl⟩ := List.mem_map.1 hs
    exact decidedFor_replacement policy drift fileId k ht
  ascending := List.pairwise_map.2 (ownComments_pairwise h)

theorem planFor_nil (policy : Policy) (fileId source : String) (drift : List (Finding α)) :
    planFor policy fileId source [] drift = .ok ⟨fileId, []⟩ := by
  rw [planFor, ownComments_eq (by simp) List.Pairwise.nil]
  rfl

/-- Comments that end within a text are all decided. -/
theorem mapM_decideWithin (policy : Policy) (drift : List (Finding α)) (fileId : String)
    {limit : Nat} {comments : List (Judged α)} (h : ∀ k ∈ comments, k.comment.stop ≤ limit) :
    comments.mapM (decideWithin policy drift fileId limit) =
      .ok (decided policy drift fileId comments) :=
  mapM_eq_ok fun k hk => if_neg (Nat.not_lt.2 (h k hk))

/-- There is a plan for well-placed comments: the decisions, widened and joined. -/
theorem planFor_eq {source fileId : String} {comments : List (Judged α)}
    (h : WellPlaced source.toList fileId comments) (policy : Policy) (drift : List (Finding α)) :
    ∃ steps, planFor policy fileId source comments drift = .ok ⟨fileId, steps⟩ ∧
      Merges source.toList ((decided policy drift fileId (ownComments fileId comments)).map
        (widenStep source.toList)) steps := by
  have hstands := stands_decided h policy drift
  obtain ⟨steps, hmerge, hrel⟩ := merges_merge hstands.fits_widened hstands.ascending_widened
  refine ⟨steps, ?_, hrel⟩
  have hdecide := mapM_decideWithin policy drift fileId
    fun k hk => (h.solid k ((ownComments_perm h).mem_iff.1 hk)).stop_le_size
  have hwiden := mapM_eq_ok fun s hs => widen_eq (hstands.fits s hs)
  rw [planFor]
  simp only [hdecide, hwiden, hmerge, bind, Except.bind, ensureDisjoint_eq fileId hstands.ascending,
    ensureDisjoint_eq fileId (hrel.ascending hstands.ascending_widened)]

end Marginalia.Patch
