import Marginalia.Language
import Marginalia.Proofs.Extraction.Trees

/-! Definitions and their bodies in a tree. A statement of a body that is no docstring begins with
code, so nothing is found over its first character, and a docstring is found as it stands. -/

namespace Marginalia.Extraction

open Marginalia.Syntax Marginalia.Text

variable {text : List Char} {conventions : Conventions}

/-! ### Nodes -/

mutual

/-- The nodes of a tree, each with the nodes around it, innermost first. -/
def nodes (ancestors : List Tree) : Tree → List (List Tree × Tree)
  | .node kind start stop children =>
    (ancestors, .node kind start stop children) ::
      nodesAmong (.node kind start stop children :: ancestors) children

/-- The nodes of some trees, each with the nodes around it. -/
def nodesAmong (ancestors : List Tree) : List Tree → List (List Tree × Tree)
  | [] => []
  | tree :: rest => nodes ancestors tree ++ nodesAmong ancestors rest

end

def isDefinition (tree : Tree) : Bool :=
  tree.kind == .functionDefinition || tree.kind == .classDefinition

/-- The block that is the body of a definition. -/
def body? (definition : Tree) : Option Tree := definition.children.find? (·.kind == .block)

/-- The statements of a block. -/
def statements (block : Tree) : List Tree :=
  block.namedChildren.filter fun child => child.kind != .comment

def isDocstring (ancestors : List Tree) (tree : Tree) : Bool :=
  (documented? tree ancestors).isSome

mutual

/-- Whether the first token of a tree is code, so that no comment or docstring begins with it. -/
def leadsWithCode (conventions : Conventions) (ancestors : List Tree) : Tree → Bool
  | .node kind start stop children =>
    let tree := Syntax.Tree.node kind start stop children
    start < stop && !conventions.isComment tree && !isDocstring ancestors tree &&
      leadsWithCodeAt conventions (tree :: ancestors) start children

/-- Whether the first of some trees begins at an offset, with code. -/
def leadsWithCodeAt (conventions : Conventions) (ancestors : List Tree) (offset : Nat) :
    List Tree → Bool
  | [] => true
  | first :: _ => first.start == offset && leadsWithCode conventions ancestors first

end

/-- The first character of a tree is code and no blank. -/
structure BeginsWithCode (text : List Char) (conventions : Conventions) (ancestors : List Tree)
    (tree : Tree) : Prop where
  leads : leadsWithCode conventions ancestors tree = true
  solid : BeginsSolid text tree.start

/-- The character before an offset is no letter. -/
def EndsMarked (text : List Char) (offset : Nat) : Prop :=
  ∀ c ∈ cells text, c.stop = offset → Unicode.isLetter c.char = false

/-- A node below the given ones. A comment is a token, and no definition stands in a docstring. A
definition begins with code and has a body with statements: its docstring, which ends with a quote,
and others, which begin with code. -/
structure BodiedNode (text : List Char) (conventions : Conventions) (ancestors : List Tree)
    (tree : Tree) : Prop where
  comment : conventions.isComment tree = true → tree.children = []
  docstring : isDocstring ancestors tree = true →
    ∀ node ∈ nodesAmong (tree :: ancestors) tree.children, isDefinition node.2 = false
  definition : isDefinition tree = true → BeginsWithCode text conventions ancestors tree ∧
    (body? tree).isSome = true ∧ ∀ block ∈ body? tree, statements block ≠ [] ∧
      ∀ s ∈ statements block,
        isDocstring (block :: tree :: ancestors) s = true ∧ EndsMarked text s.stop ∨
          BeginsWithCode text conventions (block :: tree :: ancestors) s

/-- A tree of which every definition has a body. -/
def Bodied (text : List Char) (conventions : Conventions) (tree : Tree) : Prop :=
  ∀ node ∈ nodes [] tree, BodiedNode text conventions node.1 node.2

instance (text : List Char) (conventions : Conventions) (ancestors : List Tree) (tree : Tree) :
    Decidable (BeginsWithCode text conventions ancestors tree) :=
  decidable_of_iff
    (leadsWithCode conventions ancestors tree = true ∧ BeginsSolid text tree.start)
    ⟨fun ⟨h1, h2⟩ => ⟨h1, h2⟩, fun ⟨h1, h2⟩ => ⟨h1, h2⟩⟩

instance (text : List Char) (offset : Nat) : Decidable (EndsMarked text offset) :=
  inferInstanceAs
    (Decidable (∀ c ∈ cells text, c.stop = offset → Unicode.isLetter c.char = false))

instance (text : List Char) (conventions : Conventions) (ancestors : List Tree) (tree : Tree) :
    Decidable (BodiedNode text conventions ancestors tree) :=
  decidable_of_iff ((conventions.isComment tree = true → tree.children.isEmpty = true) ∧
      (isDocstring ancestors tree = true →
        ∀ node ∈ nodesAmong (tree :: ancestors) tree.children, isDefinition node.2 = false) ∧
      (isDefinition tree = true → BeginsWithCode text conventions ancestors tree ∧
        (body? tree).isSome = true ∧ ∀ block ∈ body? tree, statements block ≠ [] ∧
          ∀ s ∈ statements block,
            isDocstring (block :: tree :: ancestors) s = true ∧ EndsMarked text s.stop ∨
              BeginsWithCode text conventions (block :: tree :: ancestors) s))
    ⟨fun ⟨h1, h2, h3⟩ => ⟨fun h => List.isEmpty_iff.1 (h1 h), h2, h3⟩,
      fun ⟨h1, h2, h3⟩ => ⟨fun h => List.isEmpty_iff.2 (h1 h), h2, h3⟩⟩

instance (text : List Char) (conventions : Conventions) (tree : Tree) :
    Decidable (Bodied text conventions tree) :=
  inferInstanceAs (Decidable (∀ node ∈ nodes [] tree, BodiedNode text conventions node.1 node.2))

/-! ### What is found around a node -/

/-- What is found in a tree, cut in what is before a piece, in it, and after it. -/
def Around (whole part : List Found) (start stop : Nat) : Prop :=
  ∃ front back, whole = front ++ part ++ back ∧ (∀ f ∈ front, f.stop ≤ start) ∧
    ∀ f ∈ back, stop ≤ f.start

namespace Around

variable {whole part inner : List Found} {start stop start' stop' : Nat}

theorem refl (part : List Found) (start stop : Nat) : Around part part start stop :=
  ⟨[], [], by simp, nofun, nofun⟩

theorem trans (h : Around whole part start stop) (h' : Around part inner start' stop')
    (hs : start ≤ start') (he : stop' ≤ stop) : Around whole inner start' stop' := by
  obtain ⟨front, back, rfl, hfront, hback⟩ := h
  obtain ⟨front', back', rfl, hfront', hback'⟩ := h'
  refine ⟨front ++ front', back' ++ back, by simp, fun f hf => ?_, fun f hf => ?_⟩
  · rcases List.mem_append.1 hf with hf | hf
    · exact Nat.le_trans (hfront f hf) hs
    · exact hfront' f hf
  · rcases List.mem_append.1 hf with hf | hf
    · exact hback' f hf
    · exact Nat.le_trans he (hback f hf)

theorem mem (h : Around whole part start stop) {f : Found} (hf : f ∈ part) : f ∈ whole := by
  obtain ⟨front, back, rfl, -, -⟩ := h
  simp [hf]

/-- Nothing is found over an offset in a piece when nothing in the piece is. -/
theorem not_over (h : Around whole part start stop) {offset : Nat} (hs : start ≤ offset)
    (he : offset < stop) (hpart : ∀ f ∈ part, offset < f.start) :
    ∀ f ∈ whole, f.stop ≤ offset ∨ offset < f.start := by
  obtain ⟨front, back, rfl, hfront, hback⟩ := h
  intro f hf
  rcases List.mem_append.1 hf with hf | hf
  · rcases List.mem_append.1 hf with hf | hf
    · exact .inl (Nat.le_trans (hfront f hf) hs)
    · exact .inr (hpart f hf)
  · exact .inr (Nat.lt_of_lt_of_le he (hback f hf))

end Around

theorem isSome_docstring? {source : List Char} {tree : Tree} {position : Position} :
    (docstring? source conventions tree position).isSome =
      (conventions.docstrings && isDocstring position.ancestors tree) := by
  rw [docstring?, isDocstring]
  split <;> simp [*]

theorem findIn_eq_findAmong {tree : Tree} {ancestors : List Tree} (preceding following : List Tree)
    (hcomment : conventions.isComment tree = false)
    (hdocstring : isDocstring ancestors tree = false) :
    findIn text conventions ancestors preceding following tree =
      findAmong text conventions (tree :: ancestors) [] tree.children := by
  cases tree with
  | node kind start stop children =>
    rw [isDocstring, Option.isSome_eq_false_iff, Option.isNone_iff_eq_none] at hdocstring
    rw [findIn]
    simp [hcomment, docstring?, hdocstring, Tree.children]

theorem SoundAmong.of_mem {ancestors trees : List Tree}
    (h : SoundAmong text conventions ancestors trees) {tree : Tree} (ht : tree ∈ trees) :
    Sound text conventions ancestors tree := by
  induction trees with
  | nil => cases ht
  | cons first rest ih =>
    rcases List.mem_cons.1 ht with rfl | ht
    · exact h.1
    · exact ih h.2 ht

theorem Sound.children {ancestors : List Tree} {tree : Tree}
    (h : Sound text conventions ancestors tree) :
    SoundAmong text conventions (tree :: ancestors) tree.children := by
  cases tree
  exact h.2

/-- A tree among others is searched by itself. -/
theorem around_findAmong {trees : List Tree} {ancestors : List Tree} {bound : Nat}
    (preceding : List Tree) (hbound : ∀ tree ∈ trees, tree.stop ≤ bound)
    (hascending : trees.Pairwise fun a b => a.stop ≤ b.start)
    (hsound : SoundAmong text conventions ancestors trees) {tree : Tree} (ht : tree ∈ trees) :
    ∃ before after, Around (findAmong text conventions ancestors preceding trees)
      (findIn text conventions ancestors before after tree) tree.start tree.stop := by
  induction trees generalizing preceding with
  | nil => cases ht
  | cons first rest ih =>
    obtain ⟨hfirst, hrest⟩ := hsound
    obtain ⟨hnext, hlater⟩ := List.pairwise_cons.1 hascending
    have hboundRest : ∀ tree ∈ rest, tree.stop ≤ bound :=
      fun tree ht => hbound tree (List.mem_cons_of_mem first ht)
    rw [findAmong]
    rcases List.mem_cons.1 ht with rfl | ht
    · have hplaced := findAmong_placed "" rest ancestors (tree :: preceding)
        (fun other ho => ⟨hnext other ho, hboundRest other ho⟩) hlater hrest
      exact ⟨preceding, rest, [], _, rfl, nofun, fun f hf => (hplaced.inside f hf).1⟩
    · have hplaced := findIn_placed "" first ancestors preceding rest hfirst
      obtain ⟨before, after, front, back, heq, hfront, hback⟩ :=
        ih (first :: preceding) hboundRest hlater hrest ht
      refine ⟨before, after,
        findIn text conventions ancestors preceding rest first ++ front, back, ?_, ?_, hback⟩
      · rw [heq]
        simp only [List.append_assoc]
      · intro f hf
        rcases List.mem_append.1 hf with hf | hf
        · exact Nat.le_trans (hplaced.inside f hf).2 (hnext tree ht)
        · exact hfront f hf

theorem start_lt_stop_of_leadsWithCode {ancestors : List Tree} {tree : Tree}
    (h : leadsWithCode conventions ancestors tree = true) : tree.start < tree.stop := by
  cases tree
  simp only [leadsWithCode, Bool.and_eq_true, decide_eq_true_eq] at h
  exact h.1.1.1

theorem BeginsWithCode.isDocstring_eq_false {ancestors : List Tree} {tree : Tree}
    (h : BeginsWithCode text conventions ancestors tree) : isDocstring ancestors tree = false := by
  have hleads := h.leads
  cases tree
  simp only [leadsWithCode, Bool.and_eq_true, Bool.not_eq_true'] at hleads
  exact hleads.1.2

mutual

/-- What is found in a tree that begins with code comes after its first character. -/
theorem start_lt_of_leadsWithCode : (tree : Tree) → (ancestors preceding following : List Tree) →
    Sound text conventions ancestors tree → leadsWithCode conventions ancestors tree = true →
    ∀ f ∈ findIn text conventions ancestors preceding following tree, tree.start < f.start
  | .node kind start stop children, ancestors, preceding, following, hsound, hleads => by
    simp only [leadsWithCode, Bool.and_eq_true, Bool.not_eq_true'] at hleads
    obtain ⟨⟨⟨-, hcomment⟩, hdocstring⟩, hfirst⟩ := hleads
    rw [findIn_eq_findAmong preceding following hcomment hdocstring]
    exact start_lt_of_leadsWithCodeAt children _ [] (fun tree ht => (hsound.node.inside tree ht).2)
      hsound.node.ascending hsound.children hfirst

theorem start_lt_of_leadsWithCodeAt : (trees : List Tree) → (ancestors preceding : List Tree) →
    {offset bound : Nat} → (∀ tree ∈ trees, tree.stop ≤ bound) →
    (trees.Pairwise fun a b => a.stop ≤ b.start) → SoundAmong text conventions ancestors trees →
    leadsWithCodeAt conventions ancestors offset trees = true →
    ∀ f ∈ findAmong text conventions ancestors preceding trees, offset < f.start
  | [], _, _, _, _, _, _, _, _ => by
    rw [findAmong]
    exact fun _ hf => nomatch hf
  | first :: rest, ancestors, preceding, offset, bound, hbound, hascending, hsound, hleads => by
    obtain ⟨hfirst, hrest⟩ := hsound
    obtain ⟨hnext, hlater⟩ := List.pairwise_cons.1 hascending
    rw [leadsWithCodeAt, Bool.and_eq_true, beq_iff_eq] at hleads
    obtain ⟨rfl, hleads⟩ := hleads
    have hplaced := findAmong_placed "" rest ancestors (first :: preceding)
      (fun other ho => ⟨hnext other ho, hbound other (List.mem_cons_of_mem first ho)⟩) hlater hrest
    intro f hf
    rw [findAmong] at hf
    rcases List.mem_append.1 hf with hf | hf
    · exact start_lt_of_leadsWithCode first ancestors preceding rest hfirst hleads f hf
    · exact Nat.lt_of_lt_of_le (start_lt_stop_of_leadsWithCode hleads) (hplaced.inside f hf).1

end

/-- A sound node that is searched by itself. -/
structure Searched (text : List Char) (conventions : Conventions) (whole : List Found)
    (ancestors : List Tree) (tree : Tree) : Prop where
  sound : Sound text conventions ancestors tree
  around : ∃ preceding following, Around whole
    (findIn text conventions ancestors preceding following tree) tree.start tree.stop

namespace Searched

variable {whole : List Found} {ancestors : List Tree} {tree : Tree}

theorem child {child : Tree} (h : Searched text conventions whole ancestors tree)
    (hcomment : conventions.isComment tree = false)
    (hdocstring : isDocstring ancestors tree = false) (hchild : child ∈ tree.children) :
    Searched text conventions whole (tree :: ancestors) child := by
  obtain ⟨preceding, following, haround⟩ := h.around
  rw [findIn_eq_findAmong preceding following hcomment hdocstring] at haround
  have hinside := h.sound.node.inside child hchild
  obtain ⟨before, after, hwithin⟩ := around_findAmong []
    (fun other ho => (h.sound.node.inside other ho).2) h.sound.node.ascending h.sound.children hchild
  exact ⟨h.sound.children.of_mem hchild, before, after, haround.trans hwithin hinside.1 hinside.2⟩

mutual

/-- Definitions are searched by themselves: none is part of a comment or a docstring. -/
theorem definition : (tree : Tree) → (ancestors : List Tree) →
    Searched text conventions whole ancestors tree →
    (∀ node ∈ nodes ancestors tree, BodiedNode text conventions node.1 node.2) →
    ∀ node ∈ nodes ancestors tree, isDefinition node.2 = true →
      Searched text conventions whole node.1 node.2
  | .node kind start stop children, ancestors, h, hbodied, node, hnode, hdefinition => by
    rw [nodes] at hnode hbodied
    rcases List.mem_cons.1 hnode with rfl | hnode
    · exact h
    · have hown := hbodied _ List.mem_cons_self
      have hcomment : conventions.isComment (.node kind start stop children) = false := by
        rw [← Bool.not_eq_true]
        intro hcomment
        obtain rfl : children = [] := hown.comment hcomment
        cases hnode
      have hdocstring : isDocstring ancestors (.node kind start stop children) = false := by
        rw [← Bool.not_eq_true]
        intro hdocstring
        have hplain := hown.docstring hdocstring node hnode
        rw [hdefinition] at hplain
        cases hplain
      exact definitionAmong children _ (fun child hchild => h.child hcomment hdocstring hchild)
        (fun n hn => hbodied n (List.mem_cons_of_mem _ hn)) node hnode hdefinition

theorem definitionAmong : (trees : List Tree) → (ancestors : List Tree) →
    (∀ tree ∈ trees, Searched text conventions whole ancestors tree) →
    (∀ node ∈ nodesAmong ancestors trees, BodiedNode text conventions node.1 node.2) →
    ∀ node ∈ nodesAmong ancestors trees, isDefinition node.2 = true →
      Searched text conventions whole node.1 node.2
  | [], _, _, _, _, hnode, _ => nomatch hnode
  | tree :: rest, ancestors, h, hbodied, node, hnode, hdefinition => by
    rw [nodesAmong] at hnode hbodied
    rcases List.mem_append.1 hnode with hnode | hnode
    · exact definition tree ancestors (h tree List.mem_cons_self)
        (fun n hn => hbodied n (List.mem_append_left _ hn)) node hnode hdefinition
    · exact definitionAmong rest ancestors (fun t ht => h t (List.mem_cons_of_mem tree ht))
        (fun n hn => hbodied n (List.mem_append_right _ hn)) node hnode hdefinition

end

/-- Nothing is found over the first character of a node that begins with code. -/
theorem not_over (h : Searched text conventions whole ancestors tree)
    (hleads : leadsWithCode conventions ancestors tree = true) :
    ∀ f ∈ whole, f.stop ≤ tree.start ∨ tree.start < f.start := by
  obtain ⟨preceding, following, haround⟩ := h.around
  exact haround.not_over (Nat.le_refl _) (start_lt_stop_of_leadsWithCode hleads)
    (start_lt_of_leadsWithCode tree ancestors preceding following h.sound hleads)

/-- A docstring is found as it stands. -/
theorem exists_docstring (h : Searched text conventions whole ancestors tree)
    (hconventions : conventions.docstrings = true) (hcomment : conventions.isComment tree = false)
    (hdocstring : isDocstring ancestors tree = true) :
    ∃ f ∈ whole, f.start = tree.start ∧ f.stop = tree.stop := by
  obtain ⟨preceding, following, haround⟩ := h.around
  obtain ⟨definition, hdefinition⟩ := Option.isSome_iff_exists.1 hdocstring
  cases tree with
  | node kind start stop children =>
    rw [findIn] at haround
    simp only [hcomment, docstring?, hconventions, hdefinition] at haround
    exact ⟨_, haround.mem List.mem_cons_self, rfl, rfl⟩

end Searched

/-! ### Statements -/

theorem isComment_python_eq_false {tree : Tree} (h : tree.kind ≠ .comment) :
    Language.python.profile.conventions.isComment tree = false := by
  simp [Conventions.isComment, Language.profile, h]

theorem isDocstring_eq_false {ancestors : List Tree} {tree : Tree}
    (h : tree.kind ≠ .expressionStatement) : isDocstring ancestors tree = false := by
  have hbare : isBareString tree = false := by simp [isBareString, h]
  cases ancestors with
  | nil => rfl
  | cons parent rest => simp [isDocstring, documented?, hbare]

theorem kind_of_isDefinition {tree : Tree} (h : isDefinition tree = true) :
    tree.kind ≠ .comment ∧ tree.kind ≠ .expressionStatement := by
  rw [isDefinition, Bool.or_eq_true, beq_iff_eq, beq_iff_eq] at h
  rcases h with h | h <;> rw [h] <;> decide

theorem body?_eq_some {definition block : Tree} (h : body? definition = some block) :
    block ∈ definition.children ∧ block.kind = .block :=
  ⟨List.mem_of_find?_eq_some h, by simpa using List.find?_some h⟩

theorem statements_sublist (block : Tree) : (statements block).Sublist block.children :=
  List.filter_sublist.trans List.filter_sublist

theorem kind_of_mem_statements {block tree : Tree} (h : tree ∈ statements block) :
    tree.kind ≠ .comment := by
  simpa using (List.mem_filter.1 h).2

/-- The statements of the body of a definition are searched by themselves. -/
theorem Searched.statement {whole : List Found} {ancestors : List Tree}
    {definition block : Tree}
    (h : Searched text Language.python.profile.conventions whole ancestors definition)
    (hdefinition : isDefinition definition = true) (hblock : body? definition = some block) :
    Sound text Language.python.profile.conventions (definition :: ancestors) block ∧
      ∀ s ∈ statements block, Searched text Language.python.profile.conventions whole
        (block :: definition :: ancestors) s := by
  obtain ⟨hmem, hkind⟩ := body?_eq_some hblock
  obtain ⟨hcomment, hexpression⟩ := kind_of_isDefinition hdefinition
  have hbody := h.child (isComment_python_eq_false hcomment) (isDocstring_eq_false hexpression) hmem
  refine ⟨hbody.sound, fun s hs => ?_⟩
  exact hbody.child (isComment_python_eq_false (by rw [hkind]; decide))
    (isDocstring_eq_false (by rw [hkind]; decide)) ((statements_sublist block).mem hs)

/-- A docstring begins where the first statement beside it does. -/
theorem start_of_isDocstring {ancestors : List Tree} {block tree : Tree}
    (h : isDocstring (block :: ancestors) tree = true) :
    (statements block).head?.map Tree.start = some tree.start := by
  have hfirst : isFirstStatement block tree = true := by
    by_contra hnot
    simp [isDocstring, documented?, hnot] at h
  rw [statements, List.head?_filter]
  simpa [isFirstStatement] using hfirst

/-- A body with nothing but docstrings is one docstring. -/
theorem exists_statements_eq {ancestors : List Tree} {block : Tree}
    (hsound : Sound text conventions ancestors block) (hconventions : conventions.docstrings = true)
    (hne : statements block ≠ [])
    (hall : ∀ s ∈ statements block, isDocstring (block :: ancestors) s = true) :
    ∃ s, statements block = [s] := by
  have hascending := hsound.node.ascending.sublist (statements_sublist block)
  have hstart : ∀ s ∈ statements block,
      (statements block).head?.map Tree.start = some s.start := fun s hs =>
    start_of_isDocstring (hall s hs)
  have hlt : ∀ s ∈ statements block, s.start < s.stop := fun s hs =>
    ((hsound.children.of_mem ((statements_sublist block).mem hs)).node.docstring hconventions
      (hall s hs)).1
  match hstatements : statements block with
  | [] => exact absurd hstatements hne
  | [s] => exact ⟨s, rfl⟩
  | a :: b :: rest =>
    -- A second docstring would begin where the first one does, and not after it.
    rw [hstatements] at hascending hstart hlt
    have hnext := (List.pairwise_cons.1 hascending).1 b List.mem_cons_self
    have hsame : some a.start = some b.start := hstart b (by simp)
    have hfirst := hlt a (by simp)
    rw [Option.some.injEq] at hsame
    omega

end Marginalia.Extraction
