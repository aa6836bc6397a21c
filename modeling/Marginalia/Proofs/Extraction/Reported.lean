import Marginalia.Proofs.Extraction.Bodies
import Marginalia.Proofs.Extraction.Surroundings
import Mathlib.Data.List.TakeWhile

/-! Which nodes of a tree are extracted: the comments, and in Python the strings that begin the body
of a module, a function or a class, unless they are inside of another such node. There is exactly one
comment for each of them, in their order, and it is located exactly. -/

namespace Marginalia.Extraction

open Marginalia.Syntax Marginalia.Text Marginalia.Patch

/-- Whether a node is the body of a module, a function or a class. -/
def isBody (ancestors : List Tree) (tree : Tree) : Bool :=
  tree.kind == .module || tree.kind == .block && ancestors.head?.any isDefinition

/-- Whether a node is a statement of a body that is nothing but a string, and no statement of the
body begins before it. -/
def isFirstString : List Tree → Tree → Bool
  | body :: around, tree =>
    isBody around body && isBareString tree && (statements body).all fun s => tree.start ≤ s.start
  | [], _ => false

/-- Whether a node is a comment of a language or one of the strings that Python takes for one. -/
def isNote (language : Language) (ancestors : List Tree) (tree : Tree) : Bool :=
  language.profile.conventions.commentKinds.contains tree.kind ||
    language == .python && isFirstString ancestors tree

/-- Whether a note is among nodes of which each stands in the next one. -/
def anyNote (language : Language) : List Tree → Bool
  | tree :: around => isNote language around tree || anyNote language around
  | [] => false

/-- Whether a node is a note that is inside of no other. -/
def isOutermost (language : Language) (node : List Tree × Tree) : Bool :=
  isNote language node.1 node.2 && !anyNote language node.1

/-- The notes in a tree that are inside of no others. -/
def notes (language : Language) (tree : Tree) : List Tree :=
  ((nodes [] tree).filter (isOutermost language)).map Prod.snd

/-- The comment of a note: it begins with the note, and after it only blanks are left. -/
structure Marks (text : List Char) (note : Tree) (start stop : Nat) : Prop where
  start_eq : start = note.start
  stop_le : stop ≤ note.stop
  blanks : AllBetween Unicode.isBlank text stop note.stop

/-- A comment among those of a text: a piece of the text that begins and ends with characters that
are no blanks, on the line after the line ends before it. The code around it is that of a range,
without the characters that stand in comments. -/
structure Located (text : List Char) (comments : List Comment) (c : Comment) : Prop where
  start_lt_stop : c.start < c.stop
  start_boundary : isBoundary text c.start = true
  stop_boundary : isBoundary text c.stop = true
  raw : c.raw.toList = slice text c.start c.stop
  first : ∃ x, c.raw.toList.head? = some x ∧ Unicode.isBlank x = false
  last : ∃ x, c.raw.toList.getLast? = some x ∧ Unicode.isBlank x = false
  line : c.line = 1 + (cellsIn text 0 c.start).countP (·.char == '\n')
  code : ∃ stop, c.code.toList =
    codeOutside text (comments.map fun k => (k.start, k.stop)) c.anchor stop
  block : ∃ stop, c.block.toList =
    codeOutside text (comments.map fun k => (k.start, k.stop)) c.blockStart stop

variable {text : List Char} {language : Language}

/-! ### First statements -/

theorem mem_statements {body tree : Tree} : tree ∈ statements body ↔
    tree ∈ body.children ∧ tree.isNamed = true ∧ tree.kind ≠ .comment := by
  simp only [statements, Tree.namedChildren, List.mem_filter, bne_iff_ne, and_assoc]

/-- The first statement of a body begins where a given one does exactly when none begins before. -/
theorem isFirstStatement_iff {body tree : Tree} (htree : tree ∈ statements body)
    (hascending : body.children.Pairwise fun a b => a.start ≤ b.start) :
    isFirstStatement body tree = true ↔ ∀ s ∈ statements body, tree.start ≤ s.start := by
  have hsorted := hascending.sublist (statements_sublist body)
  have hhead : body.namedChildren.find? (fun child => child.kind != .comment) =
      (statements body).head? := by rw [statements, List.head?_filter]
  rw [isFirstStatement, hhead]
  cases hstatements : statements body with
  | nil => simp [hstatements] at htree
  | cons first rest =>
    rw [hstatements] at htree hsorted
    have hfirst := (List.pairwise_cons.1 hsorted).1
    have hle : first.start ≤ tree.start := by
      rcases List.mem_cons.1 htree with rfl | htree
      · exact Nat.le_refl _
      · exact hfirst tree htree
    simp only [List.head?_cons, Option.map_some, beq_iff_eq, Option.some.injEq]
    constructor
    · intro hstart s hs
      rcases List.mem_cons.1 hs with rfl | hs
      · exact Nat.le_of_eq hstart.symm
      · exact hstart ▸ hfirst s hs
    · intro hall
      exact Nat.le_antisymm hle (hall first List.mem_cons_self)

theorem documented?_isSome (tree parent : Tree) (around : List Tree) :
    (documented? tree (parent :: around)).isSome =
      (isBareString tree && isFirstStatement parent tree && isBody around parent) := by
  simp only [documented?]
  by_cases h : (isBareString tree && isFirstStatement parent tree) = true
  · rw [if_pos h, h, Bool.true_and, isBody]
    split
    · next hkind => simp [hkind]
    · next definition _ hkind =>
      rw [← isDefinition]
      cases hdefinition : isDefinition definition <;> simp [hkind, hdefinition]
    · next around _ _ hmodule hblock =>
      have hnot : parent.kind ≠ .module := fun hkind => hmodule hkind
      cases around with
      | nil => simp [hnot]
      | cons definition rest =>
        have hsuite : parent.kind ≠ .block := fun hkind => hblock definition rest hkind rfl
        simp [hnot, hsuite]
  · rw [if_neg h, Bool.eq_false_iff.2 h]
    rfl

/-- The walk takes just the strings that begin a body for docstrings. -/
theorem isDocstring_eq_isFirstString {tree parent : Tree} {around : List Tree}
    (htree : tree ∈ parent.children)
    (hascending : parent.children.Pairwise fun a b => a.start ≤ b.start) :
    isDocstring (parent :: around) tree = isFirstString (parent :: around) tree := by
  rw [isDocstring, documented?_isSome, isFirstString, Bool.and_comm, ← Bool.and_assoc]
  cases hbare : isBareString tree with
  | false => simp
  | true =>
    have hkind : tree.kind = .expressionStatement := by
      simp only [isBareString, Bool.and_eq_true, beq_iff_eq] at hbare
      exact hbare.1
    have hmem : tree ∈ statements parent :=
      mem_statements.2 ⟨htree, by simp [Tree.isNamed, hkind, NodeKind.isNamed], by simp [hkind]⟩
    congr 1
    rw [Bool.eq_iff_iff, isFirstStatement_iff hmem hascending]
    simp

theorem SoundNode.starts_ascending {conventions : Conventions} {ancestors : List Tree} {tree : Tree}
    (h : Sound text conventions ancestors tree) :
    tree.children.Pairwise fun a b => a.start ≤ b.start :=
  h.node.ascending.imp_of_mem fun ha _ hab =>
    Nat.le_trans (h.children.of_mem ha).node.le hab

/-! ### The walk -/

/-- A node with the node around it, of which the children ascend. -/
def Inside : List Tree → Tree → Prop
  | parent :: _, tree =>
    tree ∈ parent.children ∧ parent.children.Pairwise fun a b => a.start ≤ b.start
  | [], _ => True

theorem docstrings_eq (language : Language) :
    language.profile.conventions.docstrings = (language == .python) := by
  cases language <;> rfl

/-- A note is what the walk stops at. -/
theorem isNote_eq (language : Language) {ancestors : List Tree} {tree : Tree}
    (h : Inside ancestors tree) :
    isNote language ancestors tree = (language.profile.conventions.isComment tree ||
      language.profile.conventions.docstrings && isDocstring ancestors tree) := by
  rw [isNote, docstrings_eq, Conventions.isComment]
  cases ancestors with
  | nil => rfl
  | cons parent around => rw [isDocstring_eq_isFirstString h.1 h.2]

theorem anyNote_append (front : List Tree) {around : List Tree}
    (h : anyNote language around = true) : anyNote language (front ++ around) = true := by
  induction front with
  | nil => exact h
  | cons tree front ih => rw [List.cons_append, anyNote, ih, Bool.or_true]

mutual

theorem exists_append_of_mem_nodes : (tree : Tree) → (ancestors : List Tree) →
    ∀ n ∈ nodes ancestors tree, ∃ front, n.1 = front ++ ancestors
  | .node kind start stop children, ancestors, n, hn => by
    rw [nodes] at hn
    rcases List.mem_cons.1 hn with rfl | hn
    · exact ⟨[], rfl⟩
    · obtain ⟨front, hfront⟩ := exists_append_of_mem_nodesAmong children _ n hn
      exact ⟨front ++ [.node kind start stop children], by rw [hfront, List.append_cons]⟩

theorem exists_append_of_mem_nodesAmong : (trees : List Tree) → (ancestors : List Tree) →
    ∀ n ∈ nodesAmong ancestors trees, ∃ front, n.1 = front ++ ancestors
  | [], _, _, hn => nomatch hn
  | tree :: rest, ancestors, n, hn => by
    rw [nodesAmong] at hn
    rcases List.mem_append.1 hn with hn | hn
    · exact exists_append_of_mem_nodes tree ancestors n hn
    · exact exists_append_of_mem_nodesAmong rest ancestors n hn

end

/-- Nothing inside of a note is reported. -/
theorem filter_nodesAmong_of_anyNote {ancestors : List Tree} (trees : List Tree)
    (h : anyNote language ancestors = true) :
    (nodesAmong ancestors trees).filter (isOutermost language) = [] := by
  rw [List.filter_eq_nil_iff]
  intro n hn
  obtain ⟨front, hfront⟩ := exists_append_of_mem_nodesAmong trees ancestors n hn
  simp [isOutermost, hfront, anyNote_append front h]

theorem nodes_eq (ancestors : List Tree) (tree : Tree) :
    nodes ancestors tree = (ancestors, tree) :: nodesAmong (tree :: ancestors) tree.children := by
  cases tree
  rw [nodes, Tree.children]

theorem filter_nodes_of_isNote {ancestors : List Tree} {tree : Tree}
    (hnote : isNote language ancestors tree = true) (hany : anyNote language ancestors = false) :
    (nodes ancestors tree).filter (isOutermost language) = [(ancestors, tree)] := by
  have hbelow : anyNote language (tree :: ancestors) = true := by rw [anyNote, hnote, Bool.true_or]
  have hown : isOutermost language (ancestors, tree) = true := by simp [isOutermost, hnote, hany]
  rw [nodes_eq, List.filter_cons_of_pos hown, filter_nodesAmong_of_anyNote _ hbelow]

theorem filter_nodes_of_not_isNote {ancestors : List Tree} {tree : Tree}
    (hnote : isNote language ancestors tree = false) :
    (nodes ancestors tree).filter (isOutermost language) =
      (nodesAmong (tree :: ancestors) tree.children).filter (isOutermost language) := by
  rw [nodes_eq, List.filter_cons_of_neg (by simp [isOutermost, hnote])]

/-! ### Marked nodes -/

/-- A piece of the text that begins with a character that is no blank does not go with the blanks at
its end. -/
theorem trimEnd_slice_ne_nil {start stop : Nat} (hs : isBoundary text start = true)
    (he : isBoundary text stop = true) (hlt : start < stop) (hsolid : BeginsSolid text start) :
    trimEnd (slice text start stop) ≠ [] := by
  intro hnil
  rw [trimEnd, List.reverse_eq_nil_iff, List.dropWhile_eq_nil_iff] at hnil
  obtain ⟨c, hc, hstart⟩ := exists_cell_start hs (Nat.lt_of_lt_of_le hlt (le_size_of_isBoundary he))
  have hmem : c.char ∈ slice text start stop := by
    rw [← map_char_cellsIn hs he (Nat.le_of_lt hlt)]
    exact List.mem_map_of_mem (mem_cellsIn.2 ⟨hc, by omega, by omega⟩)
  have hblank := hnil c.char (List.mem_reverse.2 hmem)
  rw [hsolid c hc hstart] at hblank
  contradiction

/-- What is cut off the end of a comment are blanks. -/
theorem blanks_after_trimEnd {start stop : Nat} (hs : isBoundary text start = true)
    (he : isBoundary text stop = true) (hle : start ≤ stop) :
    AllBetween Unicode.isBlank text (start + size (trimEnd (slice text start stop))) stop := by
  obtain ⟨front, middle, back, rfl, rfl, rfl⟩ := exists_append_of_isBoundary₂ hs he hle
  rw [slice_append]
  obtain ⟨blanks, hblanks, hsplit, -⟩ := exists_trimEnd_append middle
  generalize trimEnd middle = kept at hsplit
  subst hsplit
  have htext : front ++ (kept ++ blanks) ++ back = front ++ kept ++ blanks ++ back := by
    simp only [List.append_assoc]
  have hsize : size (front ++ (kept ++ blanks)) = size (front ++ kept ++ blanks) := by
    rw [List.append_assoc]
  rw [← size_append, htext, hsize, ← all_slice_iff, slice_append]
  · exact List.all_eq_true.2 hblanks
  · rw [List.append_assoc (front ++ kept)]
    exact isBoundary_append (front ++ kept) _
  · exact isBoundary_append _ _
  · rw [size_append (front ++ kept)]
    exact Nat.le_add_right _ _

/-- The comment of a node that is one. -/
theorem comment?_marks {conventions : Conventions} {ancestors : List Tree} {tree : Tree}
    (position : Position) (h : SoundNode text conventions ancestors tree)
    (hcomment : conventions.isComment tree = true) (hfilled : tree.start < tree.stop) :
    ∃ f, comment? text conventions tree position = some f ∧ Marks text tree f.start f.stop := by
  have hne := trimEnd_slice_ne_nil h.start_boundary h.stop_boundary hfilled (h.comment hcomment)
  have hsolid : Solid text ⟨"", tree.start, _⟩ ∧ _ :=
    solid_trimEnd h.start_boundary h.stop_boundary h.le (h.comment hcomment) hne
  rw [comment?]
  simp only [List.isEmpty_iff, if_neg hne]
  exact ⟨_, rfl, rfl, hsolid.2, blanks_after_trimEnd h.start_boundary h.stop_boundary h.le⟩

theorem marks_whole (tree : Tree) : Marks text tree tree.start tree.stop where
  start_eq := rfl
  stop_le := Nat.le_refl _
  blanks := fun _ _ h1 h2 => absurd h2 (Nat.not_lt.2 h1)

mutual

/-- The walk through a sound tree finds one comment for each outermost note, in their order. -/
theorem findIn_marks : (tree : Tree) → (ancestors preceding following : List Tree) →
    Sound text language.profile.conventions ancestors tree →
    (∀ n ∈ nodes ancestors tree, language.profile.conventions.isComment n.2 = true →
      n.2.start < n.2.stop) →
    Inside ancestors tree → anyNote language ancestors = false →
    List.Forall₂ (fun n f => Marks text n.2 f.start f.stop)
      ((nodes ancestors tree).filter (isOutermost language))
      (findIn text language.profile.conventions ancestors preceding following tree)
  | .node kind start stop children, ancestors, preceding, following, h, hfilled, hinside, hany => by
    have hnote := isNote_eq language hinside
    have hnode := h.node
    rw [findIn]
    split
    · next hcomment =>
      rw [hcomment, Bool.true_or] at hnote
      obtain ⟨f, hfound, hmarks⟩ := comment?_marks ⟨ancestors, preceding, following⟩ hnode
        hcomment (hfilled _ (by rw [nodes]; exact List.mem_cons_self) hcomment)
      rw [filter_nodes_of_isNote hnote hany, hfound]
      exact .cons hmarks .nil
    · next hcomment =>
      rw [Bool.not_eq_true] at hcomment
      rw [hcomment, Bool.false_or] at hnote
      split
      · next found hfound =>
        obtain ⟨hdocstrings, definition, hdefinition, hstart, hstop, -⟩ := docstring?_eq_some hfound
        rw [hdocstrings, isDocstring, hdefinition, Bool.true_and] at hnote
        rw [filter_nodes_of_isNote hnote hany]
        refine .cons ?_ .nil
        rw [hstart, hstop]
        exact marks_whole _
      · next hfound =>
        have hplain := congrArg Option.isSome hfound
        rw [isSome_docstring?] at hplain
        rw [hplain] at hnote
        rw [filter_nodes_of_not_isNote hnote]
        refine findAmong_marks children _ _ [] h.2 (fun n hn => hfilled n ?_)
          (SoundNode.starts_ascending h) (fun _ ht => ht) ?_
        · rw [nodes]
          exact List.mem_cons_of_mem _ hn
        · rw [anyNote, hnote, hany]
          rfl
termination_by structural tree => tree

theorem findAmong_marks : (trees : List Tree) → (parent : Tree) →
    (around preceding : List Tree) →
    SoundAmong text language.profile.conventions (parent :: around) trees →
    (∀ n ∈ nodesAmong (parent :: around) trees,
      language.profile.conventions.isComment n.2 = true → n.2.start < n.2.stop) →
    (parent.children.Pairwise fun a b => a.start ≤ b.start) → trees ⊆ parent.children →
    anyNote language (parent :: around) = false →
    List.Forall₂ (fun n f => Marks text n.2 f.start f.stop)
      ((nodesAmong (parent :: around) trees).filter (isOutermost language))
      (findAmong text language.profile.conventions (parent :: around) preceding trees)
  | [], _, _, _, _, _, _, _, _ => by
    rw [nodesAmong, findAmong]
    exact .nil
  | tree :: rest, parent, around, preceding, h, hfilled, hascending, hsubset, hany => by
    obtain ⟨htree, hsubset⟩ := List.cons_subset.1 hsubset
    rw [nodesAmong] at hfilled ⊢
    rw [findAmong, List.filter_append]
    refine List.rel_append ?_ ?_
    · exact findIn_marks tree _ preceding rest h.1
        (fun n hn => hfilled n (List.mem_append_left _ hn)) ⟨htree, hascending⟩ hany
    · exact findAmong_marks rest parent around (tree :: preceding) h.2
        (fun n hn => hfilled n (List.mem_append_right _ hn)) hascending hsubset hany
termination_by structural trees => trees

end

/-! ### Extraction -/

theorem lineOf_eq {offset : Nat} (h : isBoundary text offset = true) :
    lineOf text offset = (cellsIn text 0 offset).countP (·.char == '\n') := by
  have hbefore : before text offset = (cellsIn text 0 offset).map Cell.char := by
    rw [map_char_cellsIn (isBoundary_zero text) h (Nat.zero_le _), slice, after_zero, Nat.sub_zero]
  have hline : lineOf text offset = (before text offset).count '\n' := by
    obtain ⟨a, b, rfl, rfl⟩ := exists_append_of_isBoundary h
    rw [lineOf_append, before_append]
  rw [hline, hbefore, List.count, List.countP_map]
  rfl

theorem head?_slice {start stop : Nat} (hs : isBoundary text start = true)
    (he : isBoundary text stop = true) (hlt : start < stop) :
    ∃ c ∈ cells text, c.start = start ∧ (slice text start stop).head? = some c.char := by
  obtain ⟨c, hc, rfl⟩ := exists_cell_start hs (Nat.lt_of_lt_of_le hlt (le_size_of_isBoundary he))
  refine ⟨c, hc, rfl, ?_⟩
  have hstop := stop_le_of_isBoundary hc he hlt
  rw [← map_char_cellsIn hs he (Nat.le_of_lt hlt),
    ← cellsIn_append text (Nat.le_of_lt c.start_lt_stop) hstop, cellsIn_cell hc]
  rfl

theorem getLast?_slice {start stop : Nat} (hs : isBoundary text start = true)
    (he : isBoundary text stop = true) (hlt : start < stop) :
    ∃ c ∈ cells text, c.stop = stop ∧ (slice text start stop).getLast? = some c.char := by
  obtain ⟨c, hc, rfl⟩ := exists_cell_stop he (Nat.lt_of_le_of_lt (Nat.zero_le _) hlt)
  refine ⟨c, hc, rfl, ?_⟩
  have hstart := start_of_isBoundary hc hs hlt
  rw [← map_char_cellsIn hs he (Nat.le_of_lt hlt),
    ← cellsIn_append text hstart (Nat.le_of_lt c.start_lt_stop), cellsIn_cell hc]
  simp

theorem cut_of_placed {fileId : String} {start stop : Nat} {found : List Found}
    (h : Placed text fileId start stop found) :
    Cut text (found.map fun f => (f.start, f.stop)) where
  lt := by
    intro r hr
    obtain ⟨f, hf, rfl⟩ := List.mem_map.1 hr
    exact (h.solid f hf).start_lt_stop
  boundary := by
    intro r hr
    obtain ⟨f, hf, rfl⟩ := List.mem_map.1 hr
    exact ⟨(h.solid f hf).start_boundary, (h.solid f hf).stop_boundary⟩
  ascending := List.pairwise_map.2 h.ascending

/-- A comment that is found is located among all. -/
theorem located_located {fileId : String} {found : List Found} {f : Found}
    (hcut : Cut text (found.map fun f => (f.start, f.stop))) (hsolid : Solid text (f.place fileId))
    (hcontext : ∀ range ∈ f.context,
      isBoundary text range.1 = true ∧ isBoundary text range.2 = true) :
    Located text
      (found.map (located fileId text (found.map fun f => (f.start, f.stop))))
      (located fileId text (found.map fun f => (f.start, f.stop)) f) := by
  have hranges : (found.map (located fileId text (found.map fun f => (f.start, f.stop)))).map
      (fun k => (k.start, k.stop)) = found.map fun f => (f.start, f.stop) := by
    rw [List.map_map]
    rfl
  have hs : isBoundary text f.start = true := hsolid.start_boundary
  have he : isBoundary text f.stop = true := hsolid.stop_boundary
  have hlt : f.start < f.stop := hsolid.start_lt_stop
  refine ⟨hlt, hs, he, ?_, ?_, ?_, ?_, ?_, ?_⟩
  · exact String.toList_ofList
  · obtain ⟨c, hc, hstart, hhead⟩ := head?_slice hs he hlt
    exact ⟨c.char, by simpa [located] using hhead, hsolid.first c hc hstart⟩
  · obtain ⟨c, hc, hstop, hlast⟩ := getLast?_slice hs he hlt
    exact ⟨c.char, by simpa [located] using hlast, hsolid.last c hc hstop⟩
  · show lineOf text f.start + 1 = 1 + (cellsIn text 0 f.start).countP (·.char == '\n')
    rw [lineOf_eq hs, Nat.add_comm]
  · rw [hranges]
    obtain ⟨stop, hcode⟩ := exists_documentedLine hcut hs
    exact ⟨stop, by simpa [located] using hcode⟩
  · rw [hranges]
    cases hblock : f.context with
    | none => exact ⟨0, by simp [located, hblock, codeOutside_of_le]⟩
    | some range =>
      obtain ⟨hstart, hstop⟩ := hcontext range hblock
      exact ⟨range.2, by simpa [located, hblock] using codeBetween_eq hcut hstart hstop⟩

/-- Extraction reports every outermost note of a sound tree once, in order, and nothing else. What it
reports is apart, and is located exactly. -/
theorem extract_reports_notes {source : String} {language : Language} {tree : Tree}
    (h : Sound source.toList language.profile.conventions [] tree)
    (hfilled : ∀ n ∈ nodes [] tree, language.profile.conventions.isComment n.2 = true →
      n.2.start < n.2.stop) (fileId : String) :
    ∃ comments, extract language.profile.conventions fileId source tree = .ok comments ∧
      List.Forall₂ (fun note c => Marks source.toList note c.start c.stop)
        (notes language tree) comments ∧
      (comments.Pairwise fun a b => a.start < b.start ∧ a.stop ≤ b.start) ∧
      ∀ c ∈ comments, c.fileId = fileId ∧ Located source.toList comments c := by
  have hplaced := findIn_placed fileId tree [] [] [] h
  have hmarks := findIn_marks tree [] [] [] h hfilled trivial rfl
  have hcontext := bounded_context tree [] [] [] h (by simp) (by simp) (by simp)
  refine ⟨_, extract_eq h fileId, ?_, ?_, ?_⟩
  · rw [notes, List.forall₂_map_left_iff, List.forall₂_map_right_iff]
    exact hmarks
  · refine List.pairwise_map.2 (hplaced.ascending.imp_of_mem fun {a b} ha _ hab => ⟨?_, hab⟩)
    have hlt : a.start < a.stop := (hplaced.solid a ha).start_lt_stop
    exact Nat.lt_of_lt_of_le hlt hab
  · intro c hc
    obtain ⟨f, hf, rfl⟩ := List.mem_map.1 hc
    exact ⟨rfl, located_located (cut_of_placed hplaced) (hplaced.solid f hf) (hcontext f hf)⟩

/-- The docstring of a function, and a comment below it with a blank at its end. -/
theorem notes_of_documented_function :
    ∃ a b, extract Language.python.profile.conventions "a.py"
        "def f():\n    \"\"\"Adds.\"\"\"\n    # ok \n    return 1\n" (Language.tree .python
          "def f():\n    \"\"\"Adds.\"\"\"\n    # ok \n    return 1\n") = .ok [a, b] ∧
      (a.start = 13 ∧ a.line = 2) ∧ b.start = 29 ∧ b.line = 3 ∧
      b.raw.toList.getLast? ≠ some ' ' := by
  generalize hsource : "def f():\n    \"\"\"Adds.\"\"\"\n    # ok \n    return 1\n" = source
  have hsound : Sound source.toList Language.python.profile.conventions []
      (Language.tree .python source) := by
    rw [← hsource]
    decide +kernel
  have hfilled : ∀ n ∈ nodes [] (Language.tree .python source),
      Language.python.profile.conventions.isComment n.2 = true → n.2.start < n.2.stop := by
    rw [← hsource]
    decide +kernel
  have hnotes : (notes .python (Language.tree .python source)).map Tree.start = [13, 29] := by
    rw [← hsource]
    decide +kernel
  obtain ⟨comments, hextract, hmarks, -, hlocated⟩ := extract_reports_notes hsound hfilled "a.py"
  have hstarts : comments.map Comment.start = [13, 29] := by
    rw [← hnotes, ← List.forall₂_eq_eq_eq, List.forall₂_map_left_iff, List.forall₂_map_right_iff]
    exact hmarks.flip.imp fun _ _ h => h.start_eq
  obtain ⟨a, rest, rfl, ha, hrest⟩ := List.map_eq_cons_iff.1 hstarts
  obtain ⟨b, rest, rfl, hb, hnil⟩ := List.map_eq_cons_iff.1 hrest
  obtain rfl := List.map_eq_nil_iff.1 hnil
  obtain ⟨-, hfirst⟩ := hlocated a (by simp)
  obtain ⟨-, hsecond⟩ := hlocated b (by simp)
  refine ⟨a, b, hextract, ⟨ha, ?_⟩, hb, ?_, ?_⟩
  · rw [hfirst.line, ha, ← hsource]
    decide +kernel
  · rw [hsecond.line, hb, ← hsource]
    decide +kernel
  · obtain ⟨x, hlast, hblank⟩ := hsecond.last
    rw [hlast]
    rintro ⟨⟩
    contradiction

end Marginalia.Extraction
