import Marginalia.Extraction.Comments
import Marginalia.Proofs.Patch.Widening
import Marginalia.Proofs.Text.Trim
import Mathlib.Data.List.Sort

/-! Comments found in trees that are sound, as those of a parser are: they are solid pieces of the
text, and they ascend, so that sorting them changes nothing and no two begin at one offset. -/

namespace Marginalia.Extraction

open Marginalia.Syntax Marginalia.Text Marginalia.Patch

variable {text : List Char} {conventions : Conventions} {fileId : String}

/-- The character at an offset is no blank. -/
def BeginsSolid (text : List Char) (offset : Nat) : Prop :=
  ∀ c ∈ cells text, c.start = offset → Unicode.isBlank c.char = false

/-- The character before an offset is no blank. -/
def EndsSolid (text : List Char) (offset : Nat) : Prop :=
  ∀ c ∈ cells text, c.stop = offset → Unicode.isBlank c.char = false

/-- A node below the given ones: a piece of the text, with children in order inside of it. No
comment or docstring begins with a blank, and no docstring ends with one. -/
structure SoundNode (text : List Char) (conventions : Conventions) (ancestors : List Tree)
    (tree : Tree) : Prop where
  le : tree.start ≤ tree.stop
  start_boundary : isBoundary text tree.start = true
  stop_boundary : isBoundary text tree.stop = true
  inside : ∀ child ∈ tree.children, tree.start ≤ child.start ∧ child.stop ≤ tree.stop
  ascending : tree.children.Pairwise fun a b => a.stop ≤ b.start
  comment : conventions.isComment tree = true → BeginsSolid text tree.start
  docstring : conventions.docstrings = true → (documented? tree ancestors).isSome = true →
    tree.start < tree.stop ∧ BeginsSolid text tree.start ∧ EndsSolid text tree.stop

mutual

/-- A tree of which every node is sound. -/
def Sound (text : List Char) (conventions : Conventions) (ancestors : List Tree) : Tree → Prop
  | .node kind start stop children =>
    SoundNode text conventions ancestors (.node kind start stop children) ∧
      SoundAmong text conventions (.node kind start stop children :: ancestors) children

/-- Trees of which every node is sound. -/
def SoundAmong (text : List Char) (conventions : Conventions) (ancestors : List Tree) :
    List Tree → Prop
  | [] => True
  | tree :: rest =>
    Sound text conventions ancestors tree ∧ SoundAmong text conventions ancestors rest

end

instance (text : List Char) (offset : Nat) : Decidable (BeginsSolid text offset) :=
  inferInstanceAs
    (Decidable (∀ c ∈ cells text, c.start = offset → Unicode.isBlank c.char = false))

instance (text : List Char) (offset : Nat) : Decidable (EndsSolid text offset) :=
  inferInstanceAs
    (Decidable (∀ c ∈ cells text, c.stop = offset → Unicode.isBlank c.char = false))

instance (text : List Char) (conventions : Conventions) (ancestors : List Tree) (tree : Tree) :
    Decidable (SoundNode text conventions ancestors tree) :=
  decidable_of_iff (tree.start ≤ tree.stop ∧ isBoundary text tree.start = true ∧
      isBoundary text tree.stop = true ∧
      (∀ child ∈ tree.children, tree.start ≤ child.start ∧ child.stop ≤ tree.stop) ∧
      (tree.children.Pairwise fun a b => a.stop ≤ b.start) ∧
      (conventions.isComment tree = true → BeginsSolid text tree.start) ∧
      (conventions.docstrings = true → (documented? tree ancestors).isSome = true →
        tree.start < tree.stop ∧ BeginsSolid text tree.start ∧ EndsSolid text tree.stop))
    ⟨fun ⟨h1, h2, h3, h4, h5, h6, h7⟩ => ⟨h1, h2, h3, h4, h5, h6, h7⟩,
      fun ⟨h1, h2, h3, h4, h5, h6, h7⟩ => ⟨h1, h2, h3, h4, h5, h6, h7⟩⟩

mutual

instance decidableSound (text : List Char) (conventions : Conventions) (ancestors : List Tree) :
    (tree : Tree) → Decidable (Sound text conventions ancestors tree)
  | .node kind start stop children =>
    have := decidableSoundAmong text conventions (.node kind start stop children :: ancestors)
      children
    inferInstanceAs (Decidable (_ ∧ _))

instance decidableSoundAmong (text : List Char) (conventions : Conventions)
    (ancestors : List Tree) : (trees : List Tree) →
    Decidable (SoundAmong text conventions ancestors trees)
  | [] => .isTrue trivial
  | tree :: rest =>
    have := decidableSound text conventions ancestors tree
    have := decidableSoundAmong text conventions ancestors rest
    inferInstanceAs (Decidable (_ ∧ _))

end

theorem Sound.node {ancestors : List Tree} {tree : Tree}
    (h : Sound text conventions ancestors tree) : SoundNode text conventions ancestors tree := by
  cases tree
  exact h.1

def Found.place (fileId : String) (found : Found) : Place := ⟨fileId, found.start, found.stop⟩

/-- Solid pieces of a range of the text that ascend. -/
structure Placed (text : List Char) (fileId : String) (start stop : Nat)
    (found : List Found) : Prop where
  solid : ∀ f ∈ found, Solid text (f.place fileId)
  inside : ∀ f ∈ found, start ≤ f.start ∧ f.stop ≤ stop
  ascending : found.Pairwise fun a b => a.stop ≤ b.start

namespace Placed

variable {start middle stop : Nat} {a b : List Found}

theorem nil : Placed text fileId start stop [] :=
  ⟨by simp, by simp, List.Pairwise.nil⟩

theorem singleton {f : Found} (h : Solid text (f.place fileId)) (hs : start ≤ f.start)
    (he : f.stop ≤ stop) : Placed text fileId start stop [f] :=
  ⟨by simpa using h, by simpa using ⟨hs, he⟩, List.pairwise_singleton _ _⟩

theorem append (ha : Placed text fileId start middle a) (hb : Placed text fileId middle stop b)
    (hs : start ≤ middle) (he : middle ≤ stop) : Placed text fileId start stop (a ++ b) where
  solid := by
    intro f hf
    rcases List.mem_append.1 hf with hf | hf
    · exact ha.solid f hf
    · exact hb.solid f hf
  inside := by
    intro f hf
    rcases List.mem_append.1 hf with hf | hf
    · have := ha.inside f hf
      omega
    · have := hb.inside f hf
      omega
  ascending := by
    refine List.pairwise_append.2 ⟨ha.ascending, hb.ascending, fun f hf g hg => ?_⟩
    have := ha.inside f hf
    have := hb.inside g hg
    omega

theorem widen {start' stop' : Nat} (h : Placed text fileId start stop a) (hs : start' ≤ start)
    (he : stop ≤ stop') : Placed text fileId start' stop' a where
  solid := h.solid
  inside := fun f hf => by
    have := h.inside f hf
    omega
  ascending := h.ascending

end Placed

/-! ### One node -/

theorem solid_trimEnd {start stop : Nat} (hs : isBoundary text start = true)
    (he : isBoundary text stop = true) (hle : start ≤ stop) (hsolid : BeginsSolid text start)
    (hne : trimEnd (slice text start stop) ≠ []) :
    Solid text ⟨fileId, start, start + size (trimEnd (slice text start stop))⟩ ∧
      start + size (trimEnd (slice text start stop)) ≤ stop := by
  obtain ⟨front, middle, back, rfl, rfl, rfl⟩ := exists_append_of_isBoundary₂ hs he hle
  rw [slice_append] at hne ⊢
  obtain ⟨blanks, -, hsplit, hlast⟩ := exists_trimEnd_append middle
  generalize trimEnd middle = kept at hne hsplit hlast ⊢
  subst hsplit
  rcases List.eq_nil_or_concat kept with rfl | ⟨init, c, hkept⟩
  · exact absurd rfl hne
  · obtain rfl : kept = init ++ [c] := by rw [hkept, List.concat_eq_append]
    have hstop : size front + size (init ++ [c]) = size (front ++ init) + c.utf8Size := by
      simp only [size_append, size]
      omega
    have htext : front ++ (init ++ [c] ++ blanks) ++ back =
        (front ++ init) ++ c :: (blanks ++ back) := by simp
    have hmem : ⟨size (front ++ init), c⟩ ∈ cells (front ++ (init ++ [c] ++ blanks) ++ back) :=
      htext ▸ mem_cells_append (front ++ init) c (blanks ++ back)
    have hc := c.utf8Size_pos
    refine ⟨⟨?_, hs, ?_, hsolid, ?_⟩, ?_⟩
    · show size front < size front + size (init ++ [c])
      simp only [size_append, size]
      omega
    · show isBoundary _ (size front + size (init ++ [c])) = true
      rw [hstop]
      exact isBoundary_stop hmem
    · intro d hd hdstop
      rw [hstop] at hdstop
      have hlt := d.start_lt_stop
      have hstart : (⟨size (front ++ init), c⟩ : Cell).stop = d.stop := hdstop.symm
      rcases eq_or_stop_le hd hmem with rfl | h1 | h1
      · exact hlast c (by simp)
      · have : size (front ++ init) < Cell.stop ⟨size (front ++ init), c⟩ :=
          Cell.start_lt_stop ⟨_, c⟩
        simp only at h1
        omega
      · omega
    · simp only [size_append]
      omega

/-! ### Whole trees -/

theorem docstring?_eq_some {source : List Char} {tree : Tree} {position : Position} {found : Found}
    (h : docstring? source conventions tree position = some found) :
    conventions.docstrings = true ∧ ∃ definition,
      documented? tree position.ancestors = some definition ∧
      found.start = tree.start ∧ found.stop = tree.stop ∧
      found.context = definition.elim (contextOf source conventions tree position)
        fun d => some (d.start, d.stop) := by
  rw [docstring?] at h
  split at h
  · next hdocstrings =>
    obtain ⟨definition, hdefinition, rfl⟩ := Option.map_eq_some_iff.1 h
    exact ⟨hdocstrings, definition, hdefinition, rfl, rfl, by cases definition <;> rfl⟩
  · cases h

mutual

/-- What is found in a sound tree. -/
theorem findIn_placed (fileId : String) : (tree : Tree) →
    (ancestors preceding following : List Tree) → Sound text conventions ancestors tree →
    Placed text fileId tree.start tree.stop
      (findIn text conventions ancestors preceding following tree)
  | .node kind start stop children, ancestors, preceding, following, h => by
    obtain ⟨hnode, hchildren⟩ := h
    rw [findIn]
    split
    · next hcomment =>
      rw [comment?]
      split
      · exact Placed.nil
      · next hne =>
        obtain ⟨hsolid, hle⟩ := solid_trimEnd hnode.start_boundary hnode.stop_boundary hnode.le
          (hnode.comment hcomment) (by simpa using hne)
        exact Placed.singleton hsolid (Nat.le_refl _) hle
    · -- A docstring is taken whole, so what is below it is not looked at.
      split
      · next found hfound =>
        obtain ⟨hdocstrings, definition, hdefinition, hstart, hstop, -⟩ := docstring?_eq_some hfound
        obtain ⟨hlt, hbegin, hend⟩ := hnode.docstring hdocstrings (by rw [hdefinition]; rfl)
        have hplace : found.place fileId = ⟨fileId, start, stop⟩ := by
          rw [Found.place, hstart, hstop, Tree.start, Tree.stop]
        refine Placed.singleton ?_ (Nat.le_of_eq hstart.symm) (Nat.le_of_eq hstop)
        rw [hplace]
        exact ⟨hlt, hnode.start_boundary, hnode.stop_boundary, hbegin, hend⟩
      · exact findAmong_placed fileId children _ [] hnode.inside hnode.ascending hchildren

theorem findAmong_placed (fileId : String) : (trees : List Tree) →
    (ancestors preceding : List Tree) → {start stop : Nat} →
    (∀ tree ∈ trees, start ≤ tree.start ∧ tree.stop ≤ stop) →
    (trees.Pairwise fun a b => a.stop ≤ b.start) → SoundAmong text conventions ancestors trees →
      Placed text fileId start stop (findAmong text conventions ancestors preceding trees)
  | [], ancestors, preceding, start, stop, hinside, hascending, h => by
    rw [findAmong]
    exact Placed.nil
  | tree :: rest, ancestors, preceding, start, stop, hinside, hascending, h => by
    obtain ⟨htree, hrest⟩ := h
    obtain ⟨hnext, hascending⟩ := List.pairwise_cons.1 hascending
    obtain ⟨hstart, hstop⟩ := hinside tree List.mem_cons_self
    have hle := htree.node.le
    have hfirst := findIn_placed fileId tree ancestors preceding rest htree
    have hothers := findAmong_placed fileId rest ancestors (tree :: preceding)
      (fun other ho => ⟨hnext other ho, (hinside other (List.mem_cons_of_mem tree ho)).2⟩)
      hascending hrest
    rw [findAmong]
    exact (hfirst.widen hstart (Nat.le_refl _)).append hothers (Nat.le_trans hstart hle) hstop

end

/-! ### Extraction -/

theorem dropRepeated_eq {found : List Found}
    (h : found.Pairwise fun a b => a.start < b.start) : dropRepeated found = found := by
  induction h with
  | nil => simp [dropRepeated]
  | @cons a rest ha _ ih =>
    cases rest with
    | nil => simp [dropRepeated]
    | cons b rest =>
      have := ha b List.mem_cons_self
      rw [dropRepeated, if_neg (by omega), ih]

/-- The comments of a sound tree are in order as they are found, and none is dropped. -/
theorem findAll_eq {tree : Tree} (h : Sound text conventions [] tree) :
    findAll text conventions tree = findIn text conventions [] [] [] tree := by
  have hplaced := findIn_placed "" tree [] [] [] h
  have hstrict : (findIn text conventions [] [] [] tree).Pairwise fun a b => a.start < b.start := by
    refine hplaced.ascending.imp_of_mem fun {a b} ha _ hab => ?_
    have hlt : a.start < a.stop := (hplaced.solid a ha).start_lt_stop
    omega
  rw [findAll, List.mergeSort_of_pairwise, dropRepeated_eq hstrict]
  exact hstrict.imp fun hab => by simpa using Nat.le_of_lt hab

theorem dropRepeated_subset (found : List Found) : dropRepeated found ⊆ found := by
  fun_induction dropRepeated found with
  | case1 a b rest _ ih =>
    intro f hf
    rcases List.mem_cons.1 (ih hf) with rfl | hf
    · exact List.mem_cons_self
    · exact List.mem_cons_of_mem a (List.mem_cons_of_mem b hf)
  | case2 a b rest _ ih => exact List.cons_subset_cons a ih
  | case3 rest => exact List.Subset.refl rest

/-- Of what ascends, no two are left that begin at one offset. -/
theorem pairwise_dropRepeated {found : List Found}
    (h : found.Pairwise fun a b => a.start ≤ b.start) :
    (dropRepeated found).Pairwise fun a b => a.start < b.start := by
  fun_induction dropRepeated found with
  | case1 a b rest _ ih =>
    obtain ⟨ha, h⟩ := List.pairwise_cons.1 h
    obtain ⟨-, h⟩ := List.pairwise_cons.1 h
    exact ih (List.pairwise_cons.2 ⟨fun f hf => ha f (List.mem_cons_of_mem b hf), h⟩)
  | case2 a b rest hne ih =>
    obtain ⟨ha, h⟩ := List.pairwise_cons.1 h
    refine List.pairwise_cons.2 ⟨fun f hf => ?_, ih h⟩
    have hab := ha b List.mem_cons_self
    rcases List.mem_cons.1 (dropRepeated_subset _ hf) with rfl | hf
    · omega
    · have := (List.pairwise_cons.1 h).1 f hf
      omega
  | case3 rest hrest =>
    match rest with
    | [] => exact List.Pairwise.nil
    | [a] => exact List.pairwise_singleton _ a
    | a :: b :: rest => exact absurd rfl (hrest a b rest)

/-- Comments of a file with bytes, of which no two begin at one offset. -/
structure Distinct (fileId : String) (comments : List Comment) : Prop where
  own : ∀ c ∈ comments, c.fileId = fileId
  filled : ∀ c ∈ comments, c.start < c.stop
  ascending : comments.Pairwise fun a b => a.start < b.start

/-- What is extracted is what was found, located; every comment has bytes. -/
theorem extract_eq_ok {source : String} {tree : Tree} {comments : List Comment}
    (h : extract conventions fileId source tree = .ok comments) :
    (findAll source.toList conventions tree).map (located fileId source.toList
        ((findAll source.toList conventions tree).map fun f => (f.start, f.stop))) = comments ∧
      ∀ c ∈ comments, c.check = .ok () := by
  rw [extract, mapM_eq_ok_iff] at h
  have hmembers : List.Forall₂ (fun f c => located fileId source.toList
      ((findAll source.toList conventions tree).map fun f => (f.start, f.stop)) f = c ∧
        c.check = .ok ()) (findAll source.toList conventions tree) comments := by
    refine h.imp fun f c hc => ?_
    cases hcheck : (located fileId source.toList
      ((findAll source.toList conventions tree).map fun f => (f.start, f.stop)) f).check with
    | error fault => simp [hcheck, Except.map] at hc
    | ok =>
      simp only [hcheck, Except.map, Except.ok.injEq] at hc
      exact ⟨hc, hc ▸ hcheck⟩
  refine ⟨?_, fun c hc => ?_⟩
  · rw [← List.forall₂_eq_eq_eq, List.forall₂_map_left_iff]
    exact hmembers.imp fun _ _ => And.left
  · obtain ⟨f, -, -, hcheck⟩ := exists_of_forall₂ hmembers hc
    exact hcheck

/-- Whatever the tree, extraction gives such comments. -/
theorem distinct_of_extract {source : String} {tree : Tree} {comments : List Comment}
    (h : extract conventions fileId source tree = .ok comments) : Distinct fileId comments := by
  obtain ⟨rfl, hcheck⟩ := extract_eq_ok h
  refine ⟨fun c hc => ?_, fun c hc => ?_, ?_⟩
  · obtain ⟨f, -, rfl⟩ := List.mem_map.1 hc
    rfl
  · have hfilled := hcheck c hc
    rw [Comment.check] at hfilled
    split at hfilled
    · cases hfilled
    · next hlt => exact Nat.not_le.1 hlt
  · refine List.pairwise_map.2 (pairwise_dropRepeated ?_)
    exact List.pairwise_mergeSort' (fun a b : Found => a.start ≤ b.start) _

/-- Comments of a file: solid pieces of its text that ascend. -/
structure InOrder (text : List Char) (fileId : String) (comments : List Comment) : Prop where
  own : ∀ c ∈ comments, c.fileId = fileId
  solid : ∀ c ∈ comments, Solid text c.place
  ascending : comments.Pairwise fun a b => a.stop ≤ b.start

/-- The comments of a sound tree are extracted as they are found. -/
theorem extract_eq {source : String} {tree : Tree} (h : Sound source.toList conventions [] tree)
    (fileId : String) : extract conventions fileId source tree =
      .ok ((findIn source.toList conventions [] [] [] tree).map (located fileId source.toList
        ((findIn source.toList conventions [] [] [] tree).map fun f => (f.start, f.stop)))) := by
  have hplaced := findIn_placed fileId tree [] [] [] h
  rw [extract, findAll_eq h]
  generalize findIn source.toList conventions [] [] [] tree = found at hplaced
  refine mapM_eq_ok fun f hf => ?_
  have hlt : f.start < f.stop := (hplaced.solid f hf).start_lt_stop
  have hcheck : (located fileId source.toList (found.map fun f => (f.start, f.stop)) f).check =
      .ok () := by
    rw [Comment.check, if_neg]
    simp only [located]
    omega
  simp only [hcheck]
  rfl

/-- Every comment of a sound tree is extracted, at its place. -/
theorem exists_extract {source : String} {tree : Tree}
    (h : Sound source.toList conventions [] tree) (fileId : String) :
    ∃ comments, extract conventions fileId source tree = .ok comments ∧
      comments.map Comment.place =
        (findIn source.toList conventions [] [] [] tree).map (Found.place fileId) ∧
      InOrder source.toList fileId comments := by
  have hplaced := findIn_placed fileId tree [] [] [] h
  refine ⟨_, extract_eq h fileId, ?_, ?_, ?_, ?_⟩
  · rw [List.map_map]
    rfl
  · intro c hc
    obtain ⟨f, -, rfl⟩ := List.mem_map.1 hc
    rfl
  · intro c hc
    obtain ⟨f, hf, rfl⟩ := List.mem_map.1 hc
    exact hplaced.solid f hf
  · exact List.pairwise_map.2 hplaced.ascending

end Marginalia.Extraction
