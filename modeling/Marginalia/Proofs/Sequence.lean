import Mathlib.Data.List.Forall2
import Mathlib.Data.List.Induction

/-! Members of lists that a relation orders, lists without repetitions, and lists whose members go
through a function that can fail: the results are those of the members, in order. -/

namespace Marginalia

variable {ε σ τ υ : Type}

theorem eq_or_rel_of_pairwise {R : τ → τ → Prop} {l : List τ} (h : l.Pairwise R) {a b : τ}
    (ha : a ∈ l) (hb : b ∈ l) : a = b ∨ R a b ∨ R b a := by
  induction h with
  | nil => simp at ha
  | cons hx _ ih =>
    rw [List.mem_cons] at ha hb
    rcases ha with rfl | ha <;> rcases hb with rfl | hb
    · exact .inl rfl
    · exact .inr (.inl (hx b hb))
    · exact .inr (.inr (hx a ha))
    · exact ih ha hb

/-- What is sorted by a key ascends by it. -/
theorem pairwise_mergeSort_isLE (cmp : τ → τ → Ordering) [Std.TransCmp cmp] (key : σ → τ)
    (l : List σ) : (l.mergeSort fun a b => (cmp (key a) (key b)).isLE).Pairwise
      fun a b => (cmp (key a) (key b)).isLE = true := by
  refine List.pairwise_mergeSort (fun _ _ _ => Std.TransCmp.isLE_trans) (fun a b => ?_) l
  have hswap : cmp (key b) (key a) = (cmp (key a) (key b)).swap := Std.OrientedCmp.eq_swap
  rw [hswap]
  cases cmp (key a) (key b) <;> rfl

theorem eq_lt_of_isLE {o : Ordering} (h : o.isLE = true) (hne : o ≠ .eq) : o = .lt :=
  (Ordering.isLE_iff_eq_lt_or_eq_eq.1 h).resolve_right hne

theorem ranges_isLE_iff {start stop start' stop' : Nat} :
    ((compare start start').then (compare stop stop')).isLE = true ↔
      start < start' ∨ start = start' ∧ stop ≤ stop' := by
  rcases Nat.lt_trichotomy start start' with h | h | h
  · simp [Nat.compare_eq_lt.2 h, h]
  · simp [h, Nat.isLE_compare]
  · simp [Nat.compare_eq_gt.2 h]
    omega

theorem pairwise_mergeSort_ranges (start stop : σ → Nat) (l : List σ) :
    (l.mergeSort fun a b =>
      ((compare (start a) (start b)).then (compare (stop a) (stop b))).isLE).Pairwise fun a b =>
        start a < start b ∨ start a = start b ∧ stop a ≤ stop b := by
  simp only [← ranges_isLE_iff]
  exact pairwise_mergeSort_isLE (compareLex (compareOn start) (compareOn stop)) id l

/-- The first member of a kind, as the relation orders the members. -/
theorem exists_least {R : τ → τ → Prop} {l : List τ} (h : l.Pairwise R) {p : τ → Prop}
    (hp : ∃ a ∈ l, p a) : ∃ a ∈ l, p a ∧ ∀ b ∈ l, p b → b = a ∨ R a b := by
  induction h with
  | nil => simp at hp
  | @cons x rest hx _ ih =>
    by_cases hpx : p x
    · refine ⟨x, List.mem_cons_self, hpx, fun b hb _ => ?_⟩
      exact (List.mem_cons.1 hb).imp_right (hx b)
    · obtain ⟨a, ha, hpa, hleast⟩ := ih ((List.exists_mem_cons_iff ..).1 hp |>.resolve_left hpx)
      refine ⟨a, List.mem_cons_of_mem x ha, hpa, fun b hb hpb => ?_⟩
      rcases List.mem_cons.1 hb with rfl | hb
      · exact absurd hpb hpx
      · exact hleast b hb hpb

theorem exists_greatest {R : τ → τ → Prop} {l : List τ} (h : l.Pairwise R) {p : τ → Prop}
    (hp : ∃ a ∈ l, p a) : ∃ a ∈ l, p a ∧ ∀ b ∈ l, p b → b = a ∨ R b a := by
  obtain ⟨a, ha, hpa, hleast⟩ := exists_least (List.pairwise_reverse.2 h)
    (hp.imp fun b hb => ⟨List.mem_reverse.2 hb.1, hb.2⟩)
  exact ⟨a, List.mem_reverse.1 ha, hpa, fun b hb => hleast b (List.mem_reverse.2 hb)⟩

theorem countP_eq_one {p : τ → Bool} {l : List τ}
    (h : l.Pairwise fun a b => ¬(p a = true ∧ p b = true)) {a : τ} (ha : a ∈ l) (hp : p a = true) :
    l.countP p = 1 := by
  induction h with
  | nil => simp at ha
  | @cons b rest hb _ ih =>
    rcases List.mem_cons.1 ha with rfl | ha
    · have hrest : rest.countP p = 0 := by
        rw [List.countP_eq_zero]
        exact fun c hc hpc => hb c hc ⟨hp, hpc⟩
      rw [List.countP_cons_of_pos hp, hrest]
    · have hpb : ¬p b = true := fun hpb => hb a ha ⟨hpb, hp⟩
      rw [List.countP_cons_of_neg hpb]
      exact ih ha

theorem eq_false_of_mem_head?_dropWhile {p : τ → Bool} {l : List τ} {x : τ}
    (h : x ∈ (l.dropWhile p).head?) : p x = false := by
  have := List.head?_dropWhile_not p l
  rw [Option.mem_def.1 h] at this
  simpa using this

/-! ### Lists without repetitions -/

section EraseDups

variable {r : τ → τ → Bool}

/-- What erasing repetitions goes through: the first member, then the rest without its repeats. -/
theorem eraseDupsBy_induction {P : List τ → Prop} (nil : P [])
    (cons : ∀ x rest, P (rest.filter fun y => r y x = false) → P (x :: rest)) (l : List τ) :
    P l := by
  induction hn : l.length using Nat.strongRecOn generalizing l with
  | _ n ih =>
    cases l with
    | nil => exact nil
    | cons x rest =>
      refine cons x rest (ih _ ?_ _ rfl)
      rw [← hn]
      exact Nat.lt_succ_of_le (List.length_filter_le _ _)

theorem eraseDupsBy_sublist (l : List τ) : (l.eraseDupsBy r).Sublist l := by
  induction l using eraseDupsBy_induction (r := r) with
  | nil => simp
  | cons x rest ih =>
    rw [List.eraseDupsBy_cons]
    exact (ih.trans List.filter_sublist).cons_cons x

theorem mem_of_mem_eraseDupsBy {l : List τ} {x : τ} (h : x ∈ l.eraseDupsBy r) : x ∈ l :=
  (eraseDupsBy_sublist l).mem h

/-- A member that is erased repeats an earlier one that stays. -/
theorem exists_mem_eraseDupsBy (hr : ∀ x, r x x = true) {l : List τ} {x : τ} (h : x ∈ l) :
    ∃ y ∈ l.eraseDupsBy r, r x y = true := by
  induction l using eraseDupsBy_induction (r := r) with
  | nil => simp at h
  | cons y rest ih =>
    rw [List.eraseDupsBy_cons]
    by_cases hxy : r x y = true
    · exact ⟨y, List.mem_cons_self, hxy⟩
    · have hrest : x ∈ rest.filter fun z => r z y = false := by
        rcases List.mem_cons.1 h with rfl | hx
        · exact absurd (hr x) hxy
        · simpa [hx] using hxy
      obtain ⟨z, hz, hxz⟩ := ih hrest
      exact ⟨z, List.mem_cons_of_mem y hz, hxz⟩

theorem pairwise_eraseDupsBy (l : List τ) :
    (l.eraseDupsBy r).Pairwise fun x y => r y x = false := by
  induction l using eraseDupsBy_induction (r := r) with
  | nil => simp
  | cons x rest ih =>
    rw [List.eraseDupsBy_cons, List.pairwise_cons]
    refine ⟨fun y hy => ?_, ih⟩
    simpa using (List.mem_filter.1 (mem_of_mem_eraseDupsBy hy)).2

theorem eraseDupsBy_map {f : σ → τ} {q : σ → σ → Bool} {l : List σ}
    (h : ∀ x ∈ l, ∀ y ∈ l, r (f x) (f y) = q x y) :
    (l.map f).eraseDupsBy r = (l.eraseDupsBy q).map f := by
  induction l using eraseDupsBy_induction (r := q) with
  | nil => rfl
  | cons x rest ih =>
    have hrest : (rest.map f).filter (fun y => r y (f x) = false) =
        (rest.filter fun y => q y x = false).map f := by
      rw [List.filter_map]
      refine congrArg (List.map f) (List.filter_congr fun y hy => ?_)
      rw [Function.comp_apply, h y (List.mem_cons_of_mem x hy) x List.mem_cons_self]
    rw [List.map_cons, List.eraseDupsBy_cons, List.eraseDupsBy_cons, List.map_cons, hrest, ih]
    intro y hy z hz
    exact h y (List.mem_cons_of_mem x (List.mem_filter.1 hy).1) z
      (List.mem_cons_of_mem x (List.mem_filter.1 hz).1)

/-- Lists of which the second repeats nothing of the first go through the erasing one by one. -/
theorem eraseDupsBy_append {l m : List τ} (h : ∀ x ∈ l, ∀ y ∈ m, r y x = false) :
    (l ++ m).eraseDupsBy r = l.eraseDupsBy r ++ m.eraseDupsBy r := by
  induction l using eraseDupsBy_induction (r := r) with
  | nil => simp
  | cons x rest ih =>
    have hm : m.filter (fun y => r y x = false) = m :=
      List.filter_eq_self.2 fun y hy => by simpa using h x List.mem_cons_self y hy
    rw [List.cons_append, List.eraseDupsBy_cons, List.eraseDupsBy_cons, List.filter_append, hm, ih,
      List.cons_append]
    exact fun y hy z hz => h y (List.mem_cons_of_mem x (List.mem_filter.1 hy).1) z hz

theorem eraseDupsBy_flatMap {f : σ → List τ} {l : List σ}
    (h : l.Pairwise fun a b => ∀ x ∈ f a, ∀ y ∈ f b, r y x = false) :
    (l.flatMap f).eraseDupsBy r = l.flatMap fun a => (f a).eraseDupsBy r := by
  induction h with
  | nil => rfl
  | @cons a rest ha _ ih =>
    rw [List.flatMap_cons, List.flatMap_cons, eraseDupsBy_append, ih]
    intro x hx y hy
    obtain ⟨b, hb, hy⟩ := List.mem_flatMap.1 hy
    exact ha b hb x hx y hy

theorem nodup_eraseDups [BEq τ] [LawfulBEq τ] (l : List τ) : l.eraseDups.Nodup := by
  refine (pairwise_eraseDupsBy (r := (· == ·)) l).imp ?_
  rintro x y h rfl
  simp at h

theorem eraseDups_concat [BEq τ] [LawfulBEq τ] (l : List τ) (x : τ) :
    (l ++ [x]).eraseDups = if x ∈ l then l.eraseDups else l.eraseDups ++ [x] := by
  rw [List.eraseDups_append, List.cons_removeAll, List.nil_removeAll]
  by_cases h : x ∈ l
  · simp [h]
  · simp [h, List.eraseDups_cons]

/-- What is left stands in the order in which it first occurs. -/
theorem pairwise_idxOf_eraseDups [BEq τ] [LawfulBEq τ] (l : List τ) :
    l.eraseDups.Pairwise fun x y => l.idxOf x < l.idxOf y := by
  induction l using List.reverseRecOn with
  | nil => simp
  | append_singleton l x ih =>
    have hold : l.eraseDups.Pairwise fun y z => (l ++ [x]).idxOf y < (l ++ [x]).idxOf z := by
      refine ih.imp_of_mem fun hy hz hlt => ?_
      rwa [List.idxOf_append_of_mem (List.mem_eraseDups.1 hy),
        List.idxOf_append_of_mem (List.mem_eraseDups.1 hz)]
    rw [eraseDups_concat]
    split
    · exact hold
    · next hnew =>
      refine List.pairwise_append.2 ⟨hold, List.pairwise_singleton .., fun y hy z hz => ?_⟩
      have hmem := List.mem_eraseDups.1 hy
      have hlt := List.idxOf_lt_length_of_mem hmem
      rw [List.mem_singleton.1 hz, List.idxOf_append_of_mem hmem,
        List.idxOf_append, if_neg hnew]
      omega

end EraseDups

/-! ### Lists cut at a separator -/

section SplitOn

variable [BEq τ] [LawfulBEq τ] {x : τ}

theorem not_mem_of_mem_splitOn {l p : List τ} (h : p ∈ l.splitOn x) : x ∉ p := by
  induction hn : l.length using Nat.strongRecOn generalizing l with
  | _ n ih =>
    by_cases hx : x ∈ l
    · obtain ⟨front, back, rfl, hfront⟩ := List.eq_append_cons_of_mem hx
      rw [List.splitOn_append_cons_self_of_not_mem hfront, List.mem_cons] at h
      rcases h with rfl | h
      · exact hfront
      · refine ih back.length ?_ h rfl
        rw [← hn, List.length_append, List.length_cons]
        omega
    · rw [List.splitOn_eq_singleton hx, List.mem_singleton] at h
      rwa [h]

theorem exists_mem_splitOn {l : List τ} (h : x ∈ l) :
    ∃ p ∈ l.splitOn x, ∃ rest, l = p ++ x :: rest := by
  obtain ⟨front, back, rfl, hfront⟩ := List.eq_append_cons_of_mem h
  rw [List.splitOn_append_cons_self_of_not_mem hfront]
  exact ⟨front, List.mem_cons_self, back, rfl⟩

theorem splitOn_subset_of_mem {l : List τ} {ls : List (List τ)} (h : l ∈ ls) :
    l.splitOn x ⊆ ([x].intercalate ls).splitOn x := by
  induction ls with
  | nil => simp at h
  | cons first rest ih =>
    cases rest with
    | nil =>
      rw [List.mem_singleton.1 h, List.intercalate_singleton]
      exact List.Subset.refl _
    | cons next rest =>
      rw [List.intercalate_cons_cons, List.append_assoc, List.singleton_append,
        List.splitOn_append_cons_self]
      rcases List.mem_cons.1 h with rfl | h
      · exact List.subset_append_left _ _
      · exact List.subset_append_of_subset_right _ (ih h)

end SplitOn

/-! ### Members of two kinds -/

section Kinds

variable (p : σ → Bool) (f : σ → τ) (g : σ → υ) (l : List σ)

theorem filterMap_getLeft? :
    (l.map fun x => if p x then Sum.inr (g x) else Sum.inl (f x)).filterMap Sum.getLeft? =
      (l.filter fun x => !p x).map f := by
  induction l with
  | nil => rfl
  | cons x rest ih => cases hp : p x <;> simpa [List.filterMap_cons, hp] using ih

theorem filterMap_getRight? :
    (l.map fun x => if p x then Sum.inr (g x) else Sum.inl (f x)).filterMap Sum.getRight? =
      (l.filter p).map g := by
  induction l with
  | nil => rfl
  | cons x rest ih => cases hp : p x <;> simpa [List.filterMap_cons, hp] using ih

end Kinds

/-! ### Steps that can fail -/

theorem bind_eq_ok_iff {x : Except ε σ} {f : σ → Except ε τ} {r : τ} :
    x >>= f = .ok r ↔ ∃ a, x = .ok a ∧ f a = .ok r := by
  cases x with
  | error e => simp [bind, Except.bind]
  | ok a => simp [bind, Except.bind]

theorem mapM_eq_ok_iff {f : σ → Except ε τ} {l : List σ} {r : List τ} :
    l.mapM f = .ok r ↔ List.Forall₂ (fun x y => f x = .ok y) l r := by
  induction l generalizing r with
  | nil => simp [pure, Except.pure, eq_comm]
  | cons x rest ih =>
    rw [List.mapM_cons, bind_eq_ok_iff, List.forall₂_cons_left_iff]
    constructor
    · rintro ⟨y, hy, h⟩
      obtain ⟨ys, hys, h⟩ := bind_eq_ok_iff.1 h
      cases h
      exact ⟨y, ys, hy, ih.1 hys, rfl⟩
    · rintro ⟨y, ys, hy, hys, rfl⟩
      exact ⟨y, hy, bind_eq_ok_iff.2 ⟨ys, ih.2 hys, rfl⟩⟩

theorem mapM_eq_ok_iff_map {f : σ → Except ε τ} {g : σ → τ} {P : σ → Prop} {l : List σ} {r : List τ}
    (h : ∀ x y, f x = .ok y ↔ y = g x ∧ P x) : l.mapM f = .ok r ↔ r = l.map g ∧ ∀ x ∈ l, P x := by
  rw [mapM_eq_ok_iff]
  simp only [h]
  induction l generalizing r with
  | nil => simp
  | cons x rest ih =>
    rw [List.forall₂_cons_left_iff]
    simp only [ih, List.map_cons, List.forall_mem_cons]
    constructor
    · rintro ⟨y, ys, ⟨rfl, hx⟩, ⟨rfl, hrest⟩, rfl⟩
      exact ⟨rfl, hx, hrest⟩
    · rintro ⟨rfl, hx, hrest⟩
      exact ⟨_, _, ⟨rfl, hx⟩, ⟨rfl, hrest⟩, rfl⟩

theorem mapM_eq_some_iff {f : σ → Option τ} {l : List σ} {r : List τ} :
    l.mapM f = some r ↔ List.Forall₂ (fun x y => f x = some y) l r := by
  induction l generalizing r with
  | nil => simp [pure, eq_comm]
  | cons x rest ih =>
    simp only [List.mapM_cons, Option.bind_eq_bind, Option.bind_eq_some_iff, ih,
      List.forall₂_cons_left_iff, pure, Option.some.injEq]
    constructor
    · rintro ⟨y, hy, ys, hys, rfl⟩
      exact ⟨y, ys, hy, hys, rfl⟩
    · rintro ⟨y, ys, hy, hys, rfl⟩
      exact ⟨y, hy, ys, hys, rfl⟩

theorem mapM_eq_none_iff {f : σ → Option τ} {l : List σ} :
    l.mapM f = none ↔ ∃ x ∈ l, f x = none := by
  induction l with
  | nil => simp [pure]
  | cons x rest ih =>
    rw [List.mapM_cons, List.exists_mem_cons_iff, ← ih]
    cases f x with
    | none => simp
    | some y => cases rest.mapM f <;> simp [pure]

theorem mapM_eq_some_filterMap {f : σ → Option τ} {l : List σ}
    (h : ∀ x ∈ l, (f x).isSome = true) : l.mapM f = some (l.filterMap f) := by
  induction l with
  | nil => rfl
  | cons x rest ih =>
    obtain ⟨hx, hrest⟩ := List.forall_mem_cons.1 h
    obtain ⟨y, hy⟩ := Option.isSome_iff_exists.1 hx
    rw [List.mapM_cons, ih hrest, hy, List.filterMap_cons_some hy]
    rfl

theorem mapM_eq_ok {f : σ → Except ε τ} {g : σ → τ} {l : List σ}
    (h : ∀ x ∈ l, f x = .ok (g x)) : l.mapM f = .ok (l.map g) := by
  rw [mapM_eq_ok_iff, List.forall₂_map_right_iff, List.forall₂_same]
  exact h

/-- Members that give nothing can be left out beforehand; the faults, too, are then the same. -/
theorem mapM_filter {f : σ → Except ε (Option τ)} {p : σ → Bool}
    (h : ∀ x, p x = false → f x = .ok none) (l : List σ) :
    ((l.filter p).mapM f).map (List.filterMap id) = (l.mapM f).map (List.filterMap id) := by
  induction l with
  | nil => rfl
  | cons x rest ih =>
    cases hp : p x with
    | false =>
      rw [List.filter_cons_of_neg (by simp [hp]), ih, List.mapM_cons, h x hp]
      cases rest.mapM f <;> rfl
    | true =>
      rw [List.filter_cons_of_pos hp, List.mapM_cons, List.mapM_cons]
      cases f x with
      | error fault => rfl
      | ok y =>
        cases hfound : (rest.filter p).mapM f <;> cases hall : rest.mapM f <;>
          simp_all [Except.map, bind, Except.bind, pure, Except.pure, List.filterMap_cons]

theorem mem_of_lookup_eq_some [BEq σ] [LawfulBEq σ] {l : List (σ × τ)} {key : σ} {value : τ}
    (h : l.lookup key = some value) : (key, value) ∈ l := by
  obtain ⟨before, after, rfl, -⟩ := List.lookup_eq_some_iff.1 h
  simp

/-! ### Lists compared through numbers -/

/-- Numbers as the bits of one number, so that two long lists are compared at once. -/
def bits : List Nat → Nat
  | [] => 0
  | n :: rest => bits rest ||| 1 <<< n

theorem testBit_bits {numbers : List Nat} {n : Nat} (h : n ∈ numbers) :
    (bits numbers).testBit n = true := by
  induction numbers with
  | nil => cases h
  | cons number rest ih =>
    rw [bits, Nat.testBit_or, Bool.or_eq_true]
    rcases List.mem_cons.1 h with rfl | h
    · exact .inr (by simp)
    · exact .inl (ih h)

theorem notMem_of_bits {l l' : List Nat} (h : bits l &&& bits l' = 0) : ∀ n ∈ l, n ∉ l' := by
  intro n hn hn'
  have hboth : (bits l &&& bits l').testBit n = true := by
    rw [Nat.testBit_and, testBit_bits hn, testBit_bits hn']
    rfl
  rw [h, Nat.zero_testBit] at hboth
  cases hboth

/-- Lists whose members have no number in common have no member in common. -/
theorem notMem_of_bits_map (number : σ → Nat) {l l' : List σ}
    (h : bits (l.map number) &&& bits (l'.map number) = 0) : ∀ x ∈ l, x ∉ l' :=
  fun _ hx hx' => notMem_of_bits h _ (List.mem_map_of_mem hx) (List.mem_map_of_mem hx')

/-! ### Members side by side -/

theorem exists_mem_zip_left {R : σ → τ → Prop} {l : List σ} {r : List τ}
    (h : List.Forall₂ R l r) {y : τ} (hy : y ∈ r) : ∃ x, (x, y) ∈ l.zip r := by
  rw [← List.map_snd_zip (Nat.le_of_eq h.length_eq.symm)] at hy
  obtain ⟨⟨x, y⟩, hpair, rfl⟩ := List.mem_map.1 hy
  exact ⟨x, hpair⟩

theorem exists_mem_zip_right {R : σ → τ → Prop} {l : List σ} {r : List τ}
    (h : List.Forall₂ R l r) {x : σ} (hx : x ∈ l) : ∃ y, (x, y) ∈ l.zip r := by
  rw [← List.map_fst_zip (Nat.le_of_eq h.length_eq)] at hx
  obtain ⟨⟨x, y⟩, hpair, rfl⟩ := List.mem_map.1 hx
  exact ⟨y, hpair⟩

theorem exists_of_forall₂ {R : σ → τ → Prop} {l : List σ} {r : List τ}
    (h : List.Forall₂ R l r) {y : τ} (hy : y ∈ r) : ∃ x ∈ l, R x y := by
  obtain ⟨x, hpair⟩ := exists_mem_zip_left h hy
  exact ⟨x, (List.of_mem_zip hpair).1, (List.forall₂_iff_zip.1 h).2 hpair⟩

theorem forall₂_mem {R : σ → τ → Prop} {l : List σ} {r : List τ} (h : List.Forall₂ R l r) :
    List.Forall₂ (fun x y => R x y ∧ x ∈ l ∧ y ∈ r) l r := by
  induction h with
  | nil => exact .nil
  | cons hxy _ ih =>
    refine .cons ⟨hxy, List.mem_cons_self, List.mem_cons_self⟩ (ih.imp ?_)
    rintro x y ⟨hxy, hx, hy⟩
    exact ⟨hxy, List.mem_cons_of_mem _ hx, List.mem_cons_of_mem _ hy⟩

section Zip

variable {R : σ → τ → Prop} {S : τ × σ → υ → Prop} {l : List σ} {m : List τ} {r : List υ}

/-- Results of members and of their results, beside the members. -/
theorem forall₂_of_zip (h : List.Forall₂ R l m) (hzip : List.Forall₂ S (m.zip l) r) :
    List.Forall₂ (fun x z => ∃ y, R x y ∧ S (y, x) z) l r := by
  induction h generalizing r with
  | nil =>
    cases hzip
    exact .nil
  | cons hxy _ ih =>
    cases hzip with
    | cons hz hrest => exact .cons ⟨_, hxy, hz⟩ (ih hrest)

/-- Results of members and of their results, beside each other. -/
theorem forall₂_of_zip_right (h : List.Forall₂ R l m) (hzip : List.Forall₂ S (m.zip l) r) :
    List.Forall₂ (fun y z => ∃ x, R x y ∧ S (y, x) z) m r := by
  induction h generalizing r with
  | nil =>
    cases hzip
    exact .nil
  | cons hxy _ ih =>
    cases hzip with
    | cons hz hrest => exact .cons ⟨_, hxy, hz⟩ (ih hrest)

end Zip

/-- What holds of all members side by side can be decided by the members of the first list. -/
theorem forall₂_iff_forall {R S : σ → τ → Prop} {P : σ → Prop} {l : List σ} {r : List τ}
    (h : List.Forall₂ R l r) (hiff : ∀ x y, R x y → (S x y ↔ P x)) :
    List.Forall₂ S l r ↔ ∀ x ∈ l, P x := by
  induction h with
  | nil => simp
  | cons hxy _ ih => simp [ih, hiff _ _ hxy]

end Marginalia
