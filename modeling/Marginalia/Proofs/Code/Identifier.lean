import Marginalia.Code.Identifier
import Marginalia.Proofs.Unicode.Letters

/-! The parts of an identifier: its characters in lower case, without low lines and hyphens, cut
where one of these stood and before each capital that follows a small letter or a digit. -/

namespace Marginalia.Code

open Marginalia.Unicode

/-- A character that joins parts and belongs to none. -/
def isJoint (c : Char) : Bool := c == '_' || c == '-'

/-- The characters of a text that belong to parts. -/
def kept (text : List Char) : List Char := text.filter fun c => !isJoint c

/-- A text in lower case, character by character. -/
def small (text : List Char) : List Char := text.flatMap lowerChar

theorem kept_append (a b : List Char) : kept (a ++ b) = kept a ++ kept b := List.filter_append a b

theorem kept_cons_joint {c : Char} (h : isJoint c = true) (rest : List Char) :
    kept (c :: rest) = kept rest :=
  List.filter_cons_of_neg (by simp [h])

theorem kept_cons {c : Char} (h : isJoint c = false) (rest : List Char) :
    kept (c :: rest) = c :: kept rest :=
  List.filter_cons_of_pos (by simp [h])

theorem small_append (a b : List Char) : small (a ++ b) = small a ++ small b :=
  List.flatMap_append

theorem isEmpty_small (text : List Char) : (small text).isEmpty = text.isEmpty := by
  cases text with
  | nil => rfl
  | cons c rest =>
    obtain ⟨d, more, h⟩ := List.exists_cons_of_ne_nil (lowerChar_ne_nil c)
    rw [small, List.flatMap_cons, h]
    rfl

/-- Lower case brings no joints about. -/
theorem isJoint_of_mem_lowerChar {c d : Char} (hd : d ∈ lowerChar c) (h : isJoint d = true) :
    isJoint c = true := by
  rw [lowerChar] at hd
  split at hd
  · next hascii =>
    obtain rfl := List.mem_singleton.1 hd
    exact forall_of_lt (P := fun c => isJoint c.toLower = true → isJoint c = true)
      (by decide) hascii h
  · split at hd
    · have hnone : ∀ d ∈ ['i', '\u0307'], isJoint d = false := by simp [isJoint]
      rw [hnone d hd] at h
      cases h
    · obtain rfl := List.mem_singleton.1 hd
      cases hshifted : shifted? c.toNat lowerShifts with
      | none =>
        rw [hshifted] at h
        exact h
      | some image =>
        have hletter := isLetter_ofNat_of_mem_images (mem_images hshifted)
        rw [hshifted, isJoint, Bool.or_eq_true, beq_iff_eq, beq_iff_eq] at h
        rcases h with h | h
        all_goals
          change Char.ofNat image = _ at h
          rw [h] at hletter
          exact absurd hletter (by decide +kernel)

/-! ### Groups of characters -/

/-- Whether a capital ends the group in hand. -/
def cuts (group : List Char) (breakable : Bool) (c : Char) : Bool :=
  isUpperLetter c && breakable && !group.isEmpty

/-- The groups that end where a character is read. -/
def closedBy (group : List Char) (breakable : Bool) (c : Char) : List (List Char) :=
  if isJoint c then pending group else if cuts group breakable c then [group] else []

/-- The group in hand after a character is read. -/
def handAfter (group : List Char) (breakable : Bool) (c : Char) : List Char :=
  if isJoint c then [] else if cuts group breakable c then [c] else group ++ [c]

/-- The rest of an identifier in groups of characters, one for each part, given the group in hand and
whether a capital would end it. -/
def groupsAfter (group : List Char) (breakable : Bool) : List Char → List (List Char)
  | [] => pending group
  | c :: rest => closedBy group breakable c ++
      groupsAfter (handAfter group breakable c) (!isJoint c && endsPart c) rest

/-- The characters of an identifier in groups, one for each part. -/
def groups (identifier : String) : List (List Char) := groupsAfter [] false identifier.toList

theorem pending_small (group : List Char) : pending (small group) = (pending group).map small := by
  rw [pending, pending, isEmpty_small]
  split <;> rfl

theorem splitAfter_small (group : List Char) (breakable : Bool) (rest : List Char) :
    splitAfter (small group) breakable rest = (groupsAfter group breakable rest).map small := by
  induction rest generalizing group breakable with
  | nil => exact pending_small group
  | cons c rest ih =>
    have hone : lowerChar c = small [c] := (List.append_nil _).symm
    rw [splitAfter, groupsAfter, List.map_append, ← ih, isEmpty_small, closedBy, handAfter]
    change (if isJoint c = true then _ else if cuts group breakable c = true then _ else _) = _
    split
    · next h => rw [h, pending_small]; rfl
    · next h =>
      rw [Bool.eq_false_iff.2 h, Bool.not_false, Bool.true_and]
      split
      · rw [hone]; rfl
      · rw [hone, ← small_append]; rfl

theorem identifierParts_eq (identifier : String) :
    identifierParts identifier = (groups identifier).map fun group => String.ofList (small group) := by
  have h : splitAfter [] false identifier.toList = (groups identifier).map small :=
    splitAfter_small [] false identifier.toList
  rw [identifierParts, h, List.map_map]
  rfl

theorem flatten_pending (group : List Char) : (pending group).flatten = group := by
  rw [pending]
  split
  · next h => rw [List.isEmpty_iff.1 h]; rfl
  · exact List.append_nil group

theorem ne_nil_of_mem_pending {group g : List Char} (h : g ∈ pending group) : g ≠ [] := by
  rw [pending] at h
  split at h
  · cases h
  · next hne =>
    obtain rfl := List.mem_singleton.1 h
    simpa using hne

theorem pending_of_ne_nil {group : List Char} (h : group ≠ []) : pending group = [group] :=
  if_neg (by simpa using h)

section Step

variable (group : List Char) (breakable : Bool) (c : Char)

theorem flatten_closedBy :
    (closedBy group breakable c).flatten ++ handAfter group breakable c = group ++ kept [c] := by
  rw [closedBy, handAfter]
  split
  · next h => rw [flatten_pending, kept_cons_joint h]; rfl
  · next h =>
    rw [kept_cons (Bool.eq_false_iff.2 h)]
    split <;> simp [kept]

theorem ne_nil_of_mem_closedBy {g : List Char} (h : g ∈ closedBy group breakable c) : g ≠ [] := by
  rw [closedBy] at h
  split at h
  · exact ne_nil_of_mem_pending h
  · split at h
    · next hcuts =>
      obtain rfl := List.mem_singleton.1 h
      rintro rfl
      simp [cuts] at hcuts
    · cases h

theorem handAfter_ne_nil (h : isJoint c = false) : handAfter group breakable c ≠ [] := by
  rw [handAfter, if_neg (by simp [h])]
  split <;> simp

end Step

theorem flatten_groupsAfter (group : List Char) (breakable : Bool) (rest : List Char) :
    (groupsAfter group breakable rest).flatten = group ++ kept rest := by
  induction rest generalizing group breakable with
  | nil => rw [groupsAfter, flatten_pending, kept, List.filter_nil, List.append_nil]
  | cons c rest ih =>
    rw [groupsAfter, List.flatten_append, ih, ← List.append_assoc, flatten_closedBy,
      List.append_assoc, ← kept_append, List.singleton_append]

theorem ne_nil_of_mem_groupsAfter {group : List Char} {breakable : Bool} {rest g : List Char}
    (h : g ∈ groupsAfter group breakable rest) : g ≠ [] := by
  induction rest generalizing group breakable with
  | nil => exact ne_nil_of_mem_pending h
  | cons c rest ih =>
    rcases List.mem_append.1 h with h | h
    · exact ne_nil_of_mem_closedBy group breakable c h
    · exact ih h

/-! ### Cuts -/

/-- Up to a character of a part, reading closes some groups and has one in hand, whatever follows. -/
theorem exists_closed (front : List Char) {a : Char} (ha : isJoint a = false) (group : List Char)
    (breakable : Bool) :
    ∃ closed hand, hand ≠ [] ∧ closed.flatten ++ hand = group ++ kept (front ++ [a]) ∧
      ∀ rest, groupsAfter group breakable (front ++ a :: rest) =
        closed ++ groupsAfter hand (endsPart a) rest := by
  induction front generalizing group breakable with
  | nil =>
    refine ⟨closedBy group breakable a, handAfter group breakable a,
      handAfter_ne_nil group breakable a ha, flatten_closedBy group breakable a, fun rest => ?_⟩
    rw [List.nil_append, groupsAfter, ha, Bool.not_false, Bool.true_and]
  | cons c front ih =>
    obtain ⟨closed, hand, hne, hflat, hread⟩ :=
      ih (handAfter group breakable c) (!isJoint c && endsPart c)
    refine ⟨closedBy group breakable c ++ closed, hand, hne, ?_, fun rest => ?_⟩
    · rw [List.flatten_append, List.append_assoc, hflat, ← List.append_assoc, flatten_closedBy,
        List.append_assoc, ← kept_append, List.singleton_append, List.cons_append]
    · rw [List.cons_append, groupsAfter, hread, List.append_assoc]

/-- A group in hand is the beginning of the next group. -/
theorem exists_groupsAfter_eq {group : List Char} (h : group ≠ []) (breakable : Bool)
    (rest : List Char) :
    ∃ more others, groupsAfter group breakable rest = (group ++ more) :: others := by
  induction rest generalizing group breakable with
  | nil => exact ⟨[], [], by rw [groupsAfter, pending_of_ne_nil h, List.append_nil]⟩
  | cons c rest ih =>
    rw [groupsAfter, closedBy, handAfter]
    split
    · exact ⟨[], _, by rw [pending_of_ne_nil h, List.append_nil, List.singleton_append]⟩
    · split
      · exact ⟨[], _, by rw [List.append_nil, List.singleton_append]⟩
      · have hne : group ++ [c] ≠ [] := by simp
        obtain ⟨more, others, hmore⟩ := ih hne _
        exact ⟨c :: more, others, by rw [List.nil_append, hmore, List.append_assoc]; rfl⟩

/-- No groups end within a group. -/
theorem flatten_ne_of_straddled {closed others before after : List (List Char)}
    {hand more : List Char} (hhand : hand ≠ []) (hmore : more ≠ [])
    (h : closed ++ (hand ++ more) :: others = before ++ after) :
    before.flatten ≠ closed.flatten ++ hand := by
  intro hflat
  rcases List.append_eq_append_iff.1 h with ⟨middle, rfl, hmiddle⟩ | ⟨middle, rfl, -⟩
  · rw [List.flatten_append, List.append_cancel_left_eq] at hflat
    cases middle with
    | nil => exact hhand hflat.symm
    | cons group middle =>
      obtain ⟨rfl, -⟩ := List.cons.inj hmiddle
      rw [List.flatten_cons, List.append_assoc, List.append_right_eq_self] at hflat
      exact hmore (List.append_eq_nil_iff.1 hflat).1
  · rw [List.flatten_append, List.append_assoc, List.self_eq_append_right] at hflat
    exact hhand (List.append_eq_nil_iff.1 hflat).2

/-- Groups are cut between two neighbours exactly where a joint stands between them, or a capital
follows a small letter or a digit. -/
theorem cut_iff {front joints back : List Char} {a b : Char} (ha : isJoint a = false)
    (hb : isJoint b = false) (hjoints : ∀ c ∈ joints, isJoint c = true) :
    (∃ before after, groupsAfter [] false (front ++ a :: (joints ++ b :: back)) = before ++ after ∧
        before.flatten = kept (front ++ [a])) ↔
      joints ≠ [] ∨ endsPart a = true ∧ isUpperLetter b = true := by
  obtain ⟨closed, hand, hne, hflat, hread⟩ := exists_closed front ha [] false
  rw [List.nil_append] at hflat
  rw [hread, ← hflat]
  have hcut (others : List (List Char)) : ∃ before after, closed ++ ([hand] ++ others) =
      before ++ after ∧ before.flatten = closed.flatten ++ hand :=
    ⟨closed ++ [hand], others, (List.append_assoc ..).symm, by simp⟩
  cases joints with
  | cons j joints =>
    rw [List.cons_append, groupsAfter, closedBy, if_pos (hjoints j List.mem_cons_self),
      pending_of_ne_nil hne]
    exact iff_of_true (hcut _) (.inl (List.cons_ne_nil j joints))
  | nil =>
    have hjoint : ¬isJoint b = true := by simp [hb]
    have hcuts : cuts hand (endsPart a) b = true ↔ endsPart a = true ∧ isUpperLetter b = true := by
      simp [cuts, hne, and_comm]
    rw [List.nil_append, groupsAfter, closedBy, handAfter, if_neg hjoint, if_neg hjoint]
    split
    · next h => exact iff_of_true (hcut _) (.inr (hcuts.1 h))
    · next h =>
      refine iff_of_false ?_ fun hor => h (hcuts.2 (hor.resolve_left fun hnil => hnil rfl))
      rintro ⟨before, after, hgroups, hbefore⟩
      have hbegun : hand ++ [b] ≠ [] := by simp
      obtain ⟨more, others, hmore⟩ :=
        exists_groupsAfter_eq hbegun (!isJoint b && endsPart b) back
      rw [List.nil_append, hmore, List.append_assoc] at hgroups
      exact flatten_ne_of_straddled hne (by simp) hgroups hbefore

theorem mem_parts {identifier part : String} (h : part ∈ identifierParts identifier) :
    part ≠ "" ∧ ∀ c ∈ part.toList, isJoint c = false := by
  rw [identifierParts_eq] at h
  obtain ⟨group, hgroup, rfl⟩ := List.mem_map.1 h
  rw [String.toList_ofList]
  constructor
  · intro hempty
    have hsmall : (small group).isEmpty = true := by
      rw [List.isEmpty_iff, ← String.toList_ofList (l := small group), hempty]
      rfl
    rw [isEmpty_small, List.isEmpty_iff] at hsmall
    exact ne_nil_of_mem_groupsAfter hgroup hsmall
  · intro d hd
    obtain ⟨c, hc, hd⟩ := List.mem_flatMap.1 hd
    have hkept : c ∈ kept identifier.toList := by
      have hflat := flatten_groupsAfter [] false identifier.toList
      rw [List.nil_append] at hflat
      rw [← hflat]
      exact List.mem_flatten_of_mem hgroup hc
    have hjoint := (List.mem_filter.1 hkept).2
    by_contra hd'
    simp [isJoint_of_mem_lowerChar hd (by simpa using hd')] at hjoint

/-- An identifier is cut into parts and loses nothing but its joints. The parts are groups of its
other characters in lower case; between two such characters there is a cut exactly if a joint stands
between them, or a capital follows a small letter or a digit. -/
theorem identifierParts_cut (identifier : String) :
    (∀ part ∈ identifierParts identifier, part ≠ "" ∧ '_' ∉ part.toList ∧ '-' ∉ part.toList) ∧
      (identifierParts identifier).flatMap String.toList = small (kept identifier.toList) ∧
      ∃ groups : List (List Char),
        identifierParts identifier = groups.map (fun group => String.ofList (small group)) ∧
        (∀ group ∈ groups, group ≠ []) ∧ groups.flatten = kept identifier.toList ∧
        ∀ front a joints b back, identifier.toList = front ++ a :: (joints ++ b :: back) →
          isJoint a = false → isJoint b = false → (∀ c ∈ joints, isJoint c = true) →
          ((∃ before after, groups = before ++ after ∧ before.flatten = kept (front ++ [a])) ↔
            joints ≠ [] ∨ (isLowerLetter a = true ∨ a.isDigit = true) ∧ isUpperLetter b = true) := by
  have hflat : (groups identifier).flatten = kept identifier.toList :=
    flatten_groupsAfter [] false identifier.toList
  refine ⟨fun part hpart => ?_, ?_, groups identifier, identifierParts_eq identifier,
    fun group hgroup => ne_nil_of_mem_groupsAfter hgroup, hflat, ?_⟩
  · obtain ⟨hne, hjoint⟩ := mem_parts hpart
    exact ⟨hne, fun h => absurd (hjoint _ h) (by decide), fun h => absurd (hjoint _ h) (by decide)⟩
  · rw [identifierParts_eq, List.flatMap_map, ← hflat, small, List.flatten_eq_flatMap,
      List.flatMap_assoc]
    exact List.flatMap_congr fun group _ => String.toList_ofList
  · intro front a joints b back hidentifier ha hb hjoints
    rw [← Bool.or_eq_true, groups, hidentifier]
    exact cut_iff ha hb hjoints

example : identifierParts "__userID2Name-İX_" = ["user", "id2", "name", "i̇x"] := by decide +kernel

end Marginalia.Code
