import Marginalia.Command.Layers
import Marginalia.Proofs.Patch.Decisions

/-! Plans under two policies. A policy that deletes more categories takes no byte back that another
one deletes, although with more deletions other ones are joined. -/

namespace Marginalia

/-- Of two policies, the second one deletes every category that the first one deletes, and it flags
drift only where the first one does. In what else the two differ plays no part. -/
structure Policy.DeletesMore (p q : Policy) : Prop where
  filler : p.deleteFiller = true → q.deleteFiller = true
  redundant : p.deleteRedundant = true → q.deleteRedundant = true
  placeholder : p.deletePlaceholder = true → q.deletePlaceholder = true
  flagDrift : q.flagDrift = true → p.flagDrift = true

instance (p q : Policy) : Decidable (p.DeletesMore q) :=
  decidable_of_iff ((p.deleteFiller = true → q.deleteFiller = true) ∧
      (p.deleteRedundant = true → q.deleteRedundant = true) ∧
      (p.deletePlaceholder = true → q.deletePlaceholder = true) ∧
      (q.flagDrift = true → p.flagDrift = true))
    ⟨fun ⟨h1, h2, h3, h4⟩ => ⟨h1, h2, h3, h4⟩, fun ⟨h1, h2, h3, h4⟩ => ⟨h1, h2, h3, h4⟩⟩

namespace Patch

open Marginalia.Text

variable {α : Type} {p q : Policy} {drift : List (Finding α)} {fileId source : String}
  {comments : List (Judged α)} {k : Judged α} {steps : List Step}

/-! ### Decisions -/

theorem isSome_deletion?_mono (h : p.DeletesMore q) {category : Category}
    (hp : (deletion? p category).isSome = true) : (deletion? q category).isSome = true := by
  cases category with
  | filler =>
    simp only [deletion?, Option.isSome_ite] at hp ⊢
    exact h.filler hp
  | redundant =>
    simp only [deletion?, Option.isSome_ite] at hp ⊢
    exact h.redundant hp
  | placeholder =>
    simp only [deletion?, Option.isSome_ite] at hp ⊢
    exact h.placeholder hp
  | misleading | typoNoise | informative => contradiction

theorem decidedFor_deletes_mono (h : p.DeletesMore q)
    (hp : (decidedFor p drift fileId k).deletes = true) :
    (decidedFor q drift fileId k).deletes = true := by
  rw [decidedFor_deletes_iff] at hp ⊢
  obtain ⟨hfresh, hdelete⟩ := hp
  exact ⟨fun hflag => hfresh (hflag.imp_right h.flagDrift), isSome_deletion?_mono h hdelete⟩

theorem widenStep_place_mono (h : p.DeletesMore q) (text : List Char)
    (hp : (decidedFor p drift fileId k).deletes = true) :
    (widenStep text (decidedFor q drift fileId k)).place =
      (widenStep text (decidedFor p drift fileId k)).place := by
  rw [widenStep, widenStep, if_pos hp, if_pos (decidedFor_deletes_mono h hp)]
  rfl

theorem treatmentOf_of_flag (hdrift : p.flagDrift = q.flagDrift) {drifted : Bool}
    {category : Category} (h : (treatmentOf p drifted category).1 = .flag) :
    treatmentOf q drifted category = treatmentOf p drifted category := by
  unfold treatmentOf at h ⊢
  rw [← hdrift]
  by_cases hflagged : (drifted && p.flagDrift) = true
  · rw [if_pos hflagged, if_pos hflagged]
  · rw [if_neg hflagged] at h ⊢
    rw [if_neg hflagged]
    cases category with
    | misleading | informative | typoNoise => rfl
    | filler | redundant | placeholder =>
      simp only [deletion?] at h
      split at h <;> contradiction

/-- What is flagged is so by its category or as drifted, whatever is deleted. -/
theorem decidedFor_of_flag (hdrift : p.flagDrift = q.flagDrift)
    (h : (decidedFor p drift fileId k).treatment = .flag) :
    decidedFor q drift fileId k = decidedFor p drift fileId k := by
  have hflag : (treatmentOf p (isDrifted drift fileId k.comment.place) k.verdict.category).1 =
      .flag := by
    rw [decidedFor, decide] at h
    dsimp only at h
    split at h
    · contradiction
    · exact h
  have hsame := treatmentOf_of_flag hdrift hflag
  have hkept : (Treatment.flag == .keep) = false := rfl
  simp only [decidedFor, decide, hsame, hflag, hkept, Bool.false_and]

/-! ### Plans -/

/-- More deletions leave other runs of them to join, but two that only blanks separate stay such. -/
theorem Carries.deletes_mono {text : List Char} {merged merged' : List Step}
    (hp : Carries text (decided p drift fileId comments) merged)
    (hq : Carries text (decided q drift fileId comments) merged') (h : p.DeletesMore q)
    {offset : Nat} (hd : Deletes merged offset) : Deletes merged' offset := by
  rcases hp.deletes_cases hd with ⟨s, hs, hsd, hholds⟩ | ⟨a, ha, b, hb, hj, h1, h2⟩
  · obtain ⟨k, hk, rfl⟩ := List.mem_map.1 hs
    have hwidened := widenStep_place_mono h text hsd
    exact hq.deletes_of_widened (List.mem_map_of_mem hk) (decidedFor_deletes_mono h hsd)
      (by rw [hwidened, hholds])
  · obtain ⟨j, hj', rfl⟩ := List.mem_map.1 ha
    obtain ⟨k, hk, rfl⟩ := List.mem_map.1 hb
    have hjoins : Joins text (decidedFor q drift fileId j) (decidedFor q drift fileId k) :=
      ⟨decidedFor_deletes_mono h hj.left, decidedFor_deletes_mono h hj.right, hj.blanks⟩
    exact hq.deletes_between (List.mem_map_of_mem hj') (List.mem_map_of_mem hk) hjoins h1 h2

theorem Carries.mem_of_flag {text : List Char} {merged merged' : List Step}
    (hp : Carries text (decided p drift fileId comments) merged)
    (hq : Carries text (decided q drift fileId comments) merged')
    (hdrift : p.flagDrift = q.flagDrift) {s : Step} (hs : s.treatment = .flag)
    (hmem : s ∈ merged) : s ∈ merged' := by
  have hstays : s.deletes = false := by rw [Step.deletes, hs]; rfl
  rw [hp.mem_iff hstays] at hmem
  obtain ⟨k, hk, rfl⟩ := List.mem_map.1 hmem
  rw [hq.mem_iff hstays, ← decidedFor_of_flag hdrift hs]
  exact List.mem_map_of_mem hk

/-- Under a policy that deletes more, every byte that goes under the other one goes, too. Where both
flag drift, they flag the same comments. -/
theorem planFor_deletes_mono (h : WellPlaced source.toList fileId (ofFile fileId comments))
    (hmore : p.DeletesMore q) (drift : List (Finding α)) :
    ∃ plan plan', planFor p fileId source comments drift = .ok plan ∧
      planFor q fileId source comments drift = .ok plan' ∧
      (∀ offset, Deletes plan.steps offset → Deletes plan'.steps offset) ∧
      (p.flagDrift = q.flagDrift → ∀ s : Step, s.treatment = .flag →
        (s ∈ plan.steps ↔ s ∈ plan'.steps)) := by
  obtain ⟨merged, hplan, hp, -⟩ := exists_carries h p drift
  obtain ⟨merged', hplan', hq, -⟩ := exists_carries h q drift
  rw [planFor_ofFile] at hplan hplan'
  refine ⟨_, _, hplan, hplan', fun offset => hp.deletes_mono hq hmore, fun hdrift s hs => ?_⟩
  exact ⟨hp.mem_of_flag hq hdrift hs, hq.mem_of_flag hp hdrift.symm hs⟩

/-- The lone deletion of a filler becomes part of one for two comments. -/
theorem deleted_still_of_run :
    WellPlaced "// a\n// TODO\nrun(); // safe\n".toList "a.js" (ofFile "a.js"
      [placed "a.js" 0 "// a" .filler [], placed "a.js" 5 "// TODO" .placeholder [],
        placed "a.js" 20 "// safe" .misleading []]) ∧
    deletingFillers.DeletesMore { deletingFillers with deletePlaceholder := true } ∧
    ∃ plan, planFor { deletingFillers with deletePlaceholder := true } "a.js"
        "// a\n// TODO\nrun(); // safe\n"
        [placed "a.js" 0 "// a" .filler [], placed "a.js" 5 "// TODO" .placeholder [],
          placed "a.js" 20 "// safe" .misleading []] [] = .ok plan ∧
      (∀ offset < 5, Deletes plan.steps offset) ∧
      ⟨⟨"a.js", 20, 27⟩, .flag, none, some .misleading, "unverified_claim", 1⟩ ∈ plan.steps := by
  have hplaced : WellPlaced "// a\n// TODO\nrun(); // safe\n".toList "a.js" (ofFile "a.js"
      [placed "a.js" 0 "// a" .filler [], placed "a.js" 5 "// TODO" .placeholder [],
        placed "a.js" 20 "// safe" .misleading []]) := by decide
  have hmore : deletingFillers.DeletesMore { deletingFillers with deletePlaceholder := true } := by
    decide
  have hfirst : planFor deletingFillers "a.js" "// a\n// TODO\nrun(); // safe\n"
      [placed "a.js" 0 "// a" .filler [], placed "a.js" 5 "// TODO" .placeholder [],
        placed "a.js" 20 "// safe" .misleading []] [] =
      .ok ⟨"a.js", [⟨⟨"a.js", 0, 5⟩, .delete, none, some .filler, "delete_filler", 1⟩,
        ⟨⟨"a.js", 5, 12⟩, .keep, none, some .placeholder, "policy_keep", 1⟩,
        ⟨⟨"a.js", 20, 27⟩, .flag, none, some .misleading, "unverified_claim", 1⟩]⟩ := by
    rw [planFor, ownComments_eq (by decide) (by decide)]
    decide +kernel
  obtain ⟨plan, plan', hplan, hplan', hdeletes, hflags⟩ := planFor_deletes_mono hplaced hmore []
  obtain rfl := Except.ok.inj (hplan.symm.trans hfirst)
  refine ⟨hplaced, hmore, plan', hplan', fun offset ho => hdeletes offset ?_, ?_⟩
  · exact ⟨_, List.mem_cons_self, rfl, Place.holds_iff.2 ⟨Nat.zero_le _, ho⟩⟩
  · exact (hflags rfl _ rfl).1 (by decide)

end Patch

namespace Command

/-- Options of a command line never take a deletion back. -/
theorem AnalyzeRequest.overPolicy_deletesMore (request : AnalyzeRequest) (policy : Policy) :
    policy.DeletesMore (request.overPolicy policy) where
  filler h := by rw [overPolicy, h, Bool.true_or]
  redundant h := by rw [overPolicy, h, Bool.true_or]
  placeholder h := by rw [overPolicy, h, Bool.true_or]
  flagDrift h := (Bool.and_eq_true_iff.1 h).1

end Command

end Marginalia
