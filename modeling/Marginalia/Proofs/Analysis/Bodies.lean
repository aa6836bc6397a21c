import Marginalia.Proofs.Analysis.Convergence
import Marginalia.Proofs.Extraction.Bodies
import Marginalia.Proofs.Patch.Respelling

/-! What rewriting leaves of the bodies of definitions. Every statement that is no docstring stands
afterwards, so a body is emptied exactly when it is one docstring and that docstring is deleted. -/

namespace Marginalia.Analysis

open Marginalia.Syntax Marginalia.Text Marginalia.Extraction Marginalia.Patch

/-- A node that stands in the text after steps: not only blanks are left of it, and code begins as it
did. -/
structure Remains (text : List Char) (steps : List Step) (ancestors : List Tree) (tree : Tree) :
    Prop where
  solid : ∃ c ∈ madeOf steps text tree.start tree.stop, Unicode.isBlank c = false
  begins : isDocstring ancestors tree = false →
    (madeOf steps text tree.start tree.stop).head? = (slice text tree.start tree.stop).head?

instance (text : List Char) (steps : List Step) (ancestors : List Tree) (tree : Tree) :
    Decidable (Remains text steps ancestors tree) :=
  decidable_of_iff
    ((madeOf steps text tree.start tree.stop).any (fun c => !Unicode.isBlank c) = true ∧
      (isDocstring ancestors tree = false → (madeOf steps text tree.start tree.stop).head? =
        (slice text tree.start tree.stop).head?))
    ⟨fun ⟨h1, h2⟩ => ⟨by simpa using h1, h2⟩, fun ⟨h1, h2⟩ => ⟨by simpa using h1, h2⟩⟩

section Remains

variable {text : List Char} {steps merged : List Step} {ancestors : List Tree} {tree : Tree}

theorem image_of_not_edits_of_solid (h : Carries text steps merged) {c : Cell} (hc : c ∈ cells text)
    (hblank : Unicode.isBlank c.char = false) (hnot : ¬Edits steps c.start) :
    image merged c = [c.char] := by
  rcases h.image_cases hc with heq | ⟨hgone, -, -⟩
  · rw [heq]
    exact image_of_not_edits h.stands.ascending.apart hnot
  · rw [hblank] at hgone
    cases hgone

/-- A node of which the first character is not edited remains. -/
theorem Remains.of_not_edits (h : Carries text steps merged)
    (hsolid : BeginsSolid text tree.start) (hstart : isBoundary text tree.start = true)
    (hstop : isBoundary text tree.stop = true) (hlt : tree.start < tree.stop)
    (hnot : ¬Edits steps tree.start) : Remains text merged ancestors tree := by
  have hsize := le_size_of_isBoundary hstop
  obtain ⟨c, hc, hcstart⟩ := exists_cell_start hstart (by omega)
  have hcstop := stop_le_of_isBoundary hc hstop (by omega)
  have hblank := hsolid c hc hcstart
  have himage := image_of_not_edits_of_solid h hc hblank (by rwa [hcstart])
  have hcells : cellsIn text tree.start tree.stop = c :: cellsIn text c.stop tree.stop := by
    rw [← hcstart, ← cellsIn_append text (Nat.le_of_lt c.start_lt_stop) hcstop, cellsIn_cell hc]
    rfl
  have hmade : madeOf merged text tree.start tree.stop =
      c.char :: madeOf merged text c.stop tree.stop := by
    rw [madeOf, hcells, List.flatMap_cons, himage]
    rfl
  refine ⟨⟨c.char, by rw [hmade]; exact List.mem_cons_self, hblank⟩, fun _ => ?_⟩
  rw [hmade, ← map_char_cellsIn hstart hstop (Nat.le_of_lt hlt), hcells]
  rfl

/-- A docstring that is respelled remains: the quote at its end is no letter. -/
theorem Remains.of_respelled {typos : List Typo} {raw fileId : String}
    (hsolid : Solid text ⟨fileId, tree.start, tree.stop⟩) (hmarked : EndsMarked text tree.stop)
    (hraw : raw.toList = slice text tree.start tree.stop)
    (hmade : madeOf merged text tree.start tree.stop = (respell typos raw).toList)
    (hdocstring : isDocstring ancestors tree = true) : Remains text merged ancestors tree := by
  have hstart : isBoundary text tree.start = true := hsolid.start_boundary
  have hstop : isBoundary text tree.stop = true := hsolid.stop_boundary
  have hlt : tree.start < tree.stop := hsolid.start_lt_stop
  obtain ⟨c, hc, hcstop⟩ := exists_cell_stop hstop (by omega)
  have hclt := c.start_lt_stop
  have hcstart := start_of_isBoundary hc hstart (by omega)
  have hmem : c.char ∈ raw.toList := by
    rw [hraw, ← map_char_cellsIn hstart hstop (Nat.le_of_lt hlt)]
    exact List.mem_map_of_mem (mem_cellsIn.2 ⟨hc, hcstart, by omega⟩)
  refine ⟨⟨c.char, ?_, hsolid.last c hc hcstop⟩, fun hcode => ?_⟩
  · rw [hmade, respell, String.toList_ofList]
    exact mem_respellAfter (hmarked c hc hcstop) hmem []
  · rw [hdocstring] at hcode
    cases hcode

/-- Nothing is left of a node that is deleted. -/
theorem not_remains_of_deletes (h : Carries text steps merged) {s : Step} (hs : s ∈ steps)
    (hdeletes : s.deletes = true) {fileId : String}
    (hplace : s.place = ⟨fileId, tree.start, tree.stop⟩) : ¬Remains text merged ancestors tree := by
  rintro ⟨⟨x, hx, -⟩, -⟩
  obtain ⟨c, hc, hx⟩ := List.mem_flatMap.1 hx
  have hholds : s.place.holds c.start = true := by
    rw [hplace]
    exact Place.holds_iff.2 (mem_cellsIn.1 hc).2
  rw [image_of_deletes h.ascending.apart (h.deletes_of_mem hs hdeletes hholds)] at hx
  cases hx

end Remains

/-! ### Planned files -/

variable {α : Type} [Score α]

/-- Whether a comment is deleted: it has text, it is of a category that the policy deletes, and it is
not flagged as drifted. -/
def Analyst.Deletes (analyst : Analyst α) (drift : List (Finding α)) (comment : Comment) : Prop :=
  lacksText comment = false ∧
    ¬(isDrifted drift comment.fileId comment.place = true ∧
      analyst.settings.policy.flagDrift = true) ∧
    (deletion? analyst.settings.policy (verdictFor analyst.judge comment).category).isSome = true

def Analyst.stepFor (analyst : Analyst α) (drift : List (Finding α)) (fileId : String)
    (c : Comment) : Step :=
  decidedFor analyst.settings.policy drift fileId ⟨c, verdictFor analyst.judge c⟩

/-- A file whose comments are those found in its tree, with the steps that carry out what is decided
about them. -/
structure Carried (analyst : Analyst α) (drift : List (Finding α)) (fileId : String)
    (text : List Char) (whole : List Found) (comments : List Comment) (merged : List Step) :
    Prop where
  order : InOrder text fileId comments
  places : comments.map Comment.place = whole.map (Found.place fileId)
  raw : ∀ c ∈ comments, c.raw.toList = slice text c.start c.stop
  carries : Carries text (decided analyst.settings.policy drift fileId
    (ownComments fileId (found analyst fileId comments).comments)) merged

namespace Carried

variable {analyst : Analyst α} {drift : List (Finding α)} {fileId : String} {text : List Char}
  {whole : List Found} {comments : List Comment} {merged : List Step} {ancestors : List Tree}
  {tree : Tree} {c : Comment}

theorem stepFor_deletes_iff (h : Carried analyst drift fileId text whole comments merged)
    (hc : c ∈ comments) (htext : lacksText c = false) :
    (analyst.stepFor drift fileId c).deletes = true ↔ analyst.Deletes drift c := by
  rw [Analyst.stepFor, decidedFor_deletes_iff, Analyst.Deletes, h.order.own c hc]
  exact (and_iff_right htext).symm

/-- The decisions are about the comments that have text. -/
theorem mem_steps_iff (h : Carried analyst drift fileId text whole comments merged) {s : Step} :
    s ∈ decided analyst.settings.policy drift fileId
        (ownComments fileId (found analyst fileId comments).comments) ↔
      ∃ c ∈ comments, lacksText c = false ∧ analyst.stepFor drift fileId c = s := by
  have hplaced := wellPlaced_of_inOrder h.order (fun c => !lacksText c) (verdictFor analyst.judge)
  rw [found, mem_decided_iff hplaced, decided]
  simp only [List.mem_map, List.mem_filter, Bool.not_eq_true', Analyst.stepFor]
  constructor
  · rintro ⟨_, ⟨c, ⟨hc, htext⟩, rfl⟩, rfl⟩
    exact ⟨c, hc, htext, rfl⟩
  · rintro ⟨c, hc, htext, rfl⟩
    exact ⟨_, ⟨c, ⟨hc, htext⟩, rfl⟩, rfl⟩

/-- What is edited is a comment that has text. -/
theorem exists_of_edits (h : Carried analyst drift fileId text whole comments merged) {offset : Nat}
    (hedits : Edits (decided analyst.settings.policy drift fileId
      (ownComments fileId (found analyst fileId comments).comments)) offset) :
    ∃ c ∈ comments, lacksText c = false ∧
      (analyst.stepFor drift fileId c).treatment.edits = true ∧
      c.place.holds offset = true := by
  obtain ⟨_, hs, hedited, hholds⟩ := hedits
  obtain ⟨c, hc, htext, rfl⟩ := h.mem_steps_iff.1 hs
  exact ⟨c, hc, htext, hedited, hholds⟩

/-- Characters outside of comments stay. -/
theorem image_eq (h : Carried analyst drift fileId text whole comments merged) {x : Cell}
    (hx : x ∈ cells text) (hblank : Unicode.isBlank x.char = false)
    (hout : ∀ c ∈ comments, c.place.holds x.start = false) : image merged x = [x.char] := by
  refine image_of_not_edits_of_solid h.carries hx hblank fun hedits => ?_
  obtain ⟨c, hc, -, -, hholds⟩ := h.exists_of_edits hedits
  rw [hout c hc] at hholds
  cases hholds

/-- What begins with code remains: no comment is found over its first character. -/
theorem remains_of_code (h : Carried analyst drift fileId text whole comments merged)
    {conventions : Conventions} (hsearched : Searched text conventions whole ancestors tree)
    (hcode : BeginsWithCode text conventions ancestors tree) :
    Remains text merged ancestors tree := by
  have hnode := hsearched.sound.node
  refine .of_not_edits h.carries hcode.solid hnode.start_boundary hnode.stop_boundary
    (start_lt_stop_of_leadsWithCode hcode.leads) fun hedits => ?_
  obtain ⟨c, hc, -, -, hholds⟩ := h.exists_of_edits hedits
  obtain ⟨f, hf, hplace⟩ : ∃ f ∈ whole, f.place fileId = c.place :=
    List.mem_map.1 (h.places ▸ List.mem_map_of_mem hc)
  rw [← hplace] at hholds
  have hover : f.start ≤ tree.start ∧ tree.start < f.stop := Place.holds_iff.1 hholds
  have hapart := hsearched.not_over hcode.leads f hf
  omega

/-- A comment over the first byte of another one is that one. -/
theorem eq_of_holds_start (h : Carried analyst drift fileId text whole comments merged)
    {d : Comment} (hc : c ∈ comments) (hd : d ∈ comments) (hholds : d.place.holds c.start = true) :
    d = c := by
  have hover : d.start ≤ c.start ∧ c.start < d.stop := Place.holds_iff.1 hholds
  have hlt : c.start < c.stop := (h.order.solid c hc).start_lt_stop
  rcases eq_or_rel_of_pairwise h.order.ascending hd hc with rfl | hdc | hcd
  · rfl
  · omega
  · omega

/-- A docstring remains unless it is deleted. -/
theorem remains_docstring_iff (h : Carried analyst drift fileId text whole comments merged)
    (hc : c ∈ comments) (hplace : c.place = ⟨fileId, tree.start, tree.stop⟩)
    (hmarked : EndsMarked text tree.stop) (hdocstring : isDocstring ancestors tree = true) :
    Remains text merged ancestors tree ↔ ¬analyst.Deletes drift c := by
  have hstart : c.start = tree.start := congrArg Place.start hplace
  have hstop : c.stop = tree.stop := congrArg Place.stop hplace
  have hstepPlace : (analyst.stepFor drift fileId c).place = ⟨fileId, tree.start, tree.stop⟩ :=
    hplace
  have hsolid := h.order.solid c hc
  rw [hplace] at hsolid
  constructor
  · intro hremains hdeleted
    have hstep := h.mem_steps_iff.2 ⟨c, hc, hdeleted.1, rfl⟩
    exact not_remains_of_deletes h.carries hstep
      ((h.stepFor_deletes_iff hc hdeleted.1).2 hdeleted) hstepPlace hremains
  · intro hkept
    by_cases hedits : Edits (decided analyst.settings.policy drift fileId
      (ownComments fileId (found analyst fileId comments).comments)) tree.start
    · obtain ⟨d, hd, htext, hedited, hholds⟩ := h.exists_of_edits hedits
      obtain rfl := h.eq_of_holds_start hc hd (hstart ▸ hholds)
      -- An edit that deletes nothing respells.
      have hnot := (h.stepFor_deletes_iff hc htext).not.2 hkept
      have hrewrite : (analyst.stepFor drift fileId d).treatment = .rewrite := by
        rw [Step.deletes, beq_iff_eq] at hnot
        cases ht : (analyst.stepFor drift fileId d).treatment with
        | rewrite => rfl
        | delete => exact absurd ht hnot
        | keep | flag => simp [ht, Treatment.edits] at hedited
      have hmem := (h.carries.mem_iff (Bool.not_eq_true _ ▸ hnot)).2
        (h.mem_steps_iff.2 ⟨d, hd, htext, rfl⟩)
      have hmade := madeOf_of_mem h.carries.ascending.apart hmem (h.carries.fits _ hmem)
      have hreplacement : (analyst.stepFor drift fileId d).replacement =
          some (respell (verdictFor analyst.judge d).typos d.raw) := decidedFor_of_rewrite hrewrite
      rw [hstepPlace, Step.result, hrewrite, hreplacement, Option.getD_some] at hmade
      have hraw := h.raw d hd
      rw [hstart, hstop] at hraw
      exact .of_respelled hsolid hmarked hraw hmade hdocstring
    · exact .of_not_edits h.carries hsolid.first hsolid.start_boundary hsolid.stop_boundary
        hsolid.start_lt_stop hedits

/-- A body keeps a statement unless it is one docstring and that one is deleted. -/
theorem exists_remains_iff (h : Carried analyst drift fileId text whole comments merged)
    {definition block : Tree}
    (hsearched : Searched text Language.python.profile.conventions whole ancestors definition)
    (hnode : BodiedNode text Language.python.profile.conventions ancestors definition)
    (hdefinition : isDefinition definition = true) (hblock : body? definition = some block) :
    (∃ s ∈ statements block, Remains text merged (block :: definition :: ancestors) s) ↔
      ¬∃ s, statements block = [s] ∧ isDocstring (block :: definition :: ancestors) s = true ∧
        ∃ c ∈ comments, c.place = ⟨fileId, s.start, s.stop⟩ ∧ analyst.Deletes drift c := by
  obtain ⟨hne, hall⟩ := (hnode.definition hdefinition).2.2 block hblock
  obtain ⟨hsound, hstatement⟩ := hsearched.statement hdefinition hblock
  have hmarked : ∀ s ∈ statements block, isDocstring (block :: definition :: ancestors) s = true →
      EndsMarked text s.stop := by
    intro s hs hdoc
    rcases hall s hs with ⟨-, hmarked⟩ | hcode
    · exact hmarked
    · rw [hcode.isDocstring_eq_false] at hdoc
      cases hdoc
  constructor
  · rintro ⟨s, hs, hremains⟩ ⟨t, ht, hdoc, c, hc, hplace, hdeleted⟩
    obtain rfl : s = t := by rwa [ht, List.mem_singleton] at hs
    exact (h.remains_docstring_iff hc hplace (hmarked s hs hdoc) hdoc).1 hremains hdeleted
  · intro hnot
    by_cases hdocs : ∀ s ∈ statements block,
        isDocstring (block :: definition :: ancestors) s = true
    · obtain ⟨s, hs⟩ := exists_statements_eq hsound rfl hne hdocs
      have hmem : s ∈ statements block := by rw [hs]; exact List.mem_cons_self
      have hdoc := hdocs s hmem
      obtain ⟨f, hf, hfstart, hfstop⟩ := (hstatement s hmem).exists_docstring rfl
        (isComment_python_eq_false (kind_of_mem_statements hmem)) hdoc
      obtain ⟨c, hc, hplace⟩ : ∃ c ∈ comments, c.place = f.place fileId :=
        List.mem_map.1 (h.places ▸ List.mem_map_of_mem hf)
      rw [Found.place, hfstart, hfstop] at hplace
      exact ⟨s, hmem, (h.remains_docstring_iff hc hplace (hmarked s hmem hdoc) hdoc).2
        fun hdeleted => hnot ⟨s, hs, hdoc, c, hc, hplace, hdeleted⟩⟩
    · simp only [not_forall, Bool.not_eq_true] at hdocs
      obtain ⟨s, hs, hplain⟩ := hdocs
      rcases hall s hs with ⟨hdoc, -⟩ | hcode
      · rw [hplain] at hdoc
        cases hdoc
      · exact ⟨s, hs, h.remains_of_code (hstatement s hs) hcode⟩

end Carried

/-! ### Bodies -/

/-- A Python file can be examined, planned and rewritten. Its code stays: besides blanks, characters
outside of comments and docstrings, and every definition with them. The body of a definition keeps a
statement unless it is nothing but a docstring and that one is deleted. -/
theorem body_keeps_statement_iff (analyst : Analyst α) {source : Source}
    (hlanguage : Language.named source.language = .ok .python)
    (hsound : Sound source.text.toList Language.python.profile.conventions []
      (analyst.tree .python source.text))
    (hbodied : Bodied source.text.toList Language.python.profile.conventions
      (analyst.tree .python source.text)) (drift : List (Finding α)) :
    ∃ comments plan,
      extract Language.python.profile.conventions source.fileId source.text
        (analyst.tree .python source.text) = .ok comments ∧
      analyst.examine source = .ok (found analyst source.fileId comments) ∧
      analyst.withPlan drift (found analyst source.fileId comments) (.loaded source) =
        .ok { found analyst source.fileId comments with plan := some plan } ∧
      Patch.apply source.text plan =
        .ok (String.ofList (patched plan.steps source.text.toList)) ∧
      (∀ x ∈ cells source.text.toList, Unicode.isBlank x.char = false →
        (∀ c ∈ comments, c.place.holds x.start = false) → image plan.steps x = [x.char]) ∧
      ∀ ancestors definition, (ancestors, definition) ∈ nodes [] (analyst.tree .python source.text) →
        isDefinition definition = true →
        Remains source.text.toList plan.steps ancestors definition ∧
        ∃ block, body? definition = some block ∧
          ((∃ s ∈ statements block,
              Remains source.text.toList plan.steps (block :: definition :: ancestors) s) ↔
            ¬∃ s, statements block = [s] ∧
              isDocstring (block :: definition :: ancestors) s = true ∧
              ∃ c ∈ comments, c.place = ⟨source.fileId, s.start, s.stop⟩ ∧
                analyst.Deletes drift c) := by
  obtain ⟨comments, hextract, hplaces, horder, hexamine⟩ := exists_examine hlanguage hsound
  obtain ⟨merged, hplan, hcarries, happly⟩ := exists_withPlan analyst horder drift
  have hraw : ∀ c ∈ comments, c.raw.toList = slice source.text.toList c.start c.stop := by
    rw [← Except.ok.inj ((extract_eq hsound source.fileId).symm.trans hextract)]
    intro c hc
    obtain ⟨f, -, rfl⟩ := List.mem_map.1 hc
    exact String.toList_ofList
  have hcarried : Carried analyst drift source.fileId source.text.toList _ comments merged :=
    ⟨horder, hplaces, hraw, hcarries⟩
  have hroot : Searched source.text.toList Language.python.profile.conventions
      (findIn source.text.toList Language.python.profile.conventions [] [] []
        (analyst.tree .python source.text)) [] (analyst.tree .python source.text) :=
    ⟨hsound, [], [], Around.refl _ _ _⟩
  refine ⟨comments, _, hextract, hexamine, hplan, happly, fun x => hcarried.image_eq,
    fun ancestors definition hmem hdefinition => ?_⟩
  have hsearched := hroot.definition _ _ hbodied _ hmem hdefinition
  have hnode := hbodied _ hmem
  obtain ⟨hbegins, hsome, -⟩ := hnode.definition hdefinition
  obtain ⟨block, hblock⟩ := Option.isSome_iff_exists.1 hsome
  exact ⟨hcarried.remains_of_code hsearched hbegins, block, hblock,
    hcarried.exists_remains_iff hsearched hnode hdefinition hblock⟩

def returningSource : Source :=
  ⟨"a.py", "def f():\n    \"\"\"TODO\"\"\"\n    return 1\n", "py", none⟩

/-- A docstring with a statement after it. -/
theorem body_keeps_statement_of_return :
    ∃ (analyst : Analyst Rat) (plan : Plan), Analyst.ofSettings markerSettings = .ok analyst ∧
      Patch.apply returningSource.text plan =
        .ok (String.ofList (patched plan.steps returningSource.text.toList)) ∧
      ∀ ancestors definition,
        (ancestors, definition) ∈ nodes [] (analyst.tree .python returningSource.text) →
        isDefinition definition = true → ∃ block, body? definition = some block ∧
          ∃ s ∈ statements block,
            Remains returningSource.text.toList plan.steps (block :: definition :: ancestors) s := by
  have hcheck : markerSettings.check = .ok () := by decide +kernel
  obtain ⟨analyst, hsettings, htree⟩ := Analyst.exists_ofSettings hcheck
  have hlanguage : Language.named returningSource.language = .ok .python := by decide +kernel
  have hsound : Sound returningSource.text.toList Language.python.profile.conventions []
      (Language.tree .python returningSource.text) := by decide +kernel
  have hbodied : Bodied returningSource.text.toList Language.python.profile.conventions
      (Language.tree .python returningSource.text) := by decide +kernel
  have htwo : ∀ node ∈ nodes [] (Language.tree .python returningSource.text),
      ∀ block ∈ body? node.2, (statements block).length = 2 := by decide +kernel
  rw [← htree] at hsound hbodied htwo
  obtain ⟨comments, plan, -, -, -, happly, -, hbodies⟩ :=
    body_keeps_statement_iff analyst hlanguage hsound hbodied []
  refine ⟨analyst, plan, hsettings, happly, fun ancestors definition hmem hdefinition => ?_⟩
  obtain ⟨-, block, hblock, hiff⟩ := hbodies ancestors definition hmem hdefinition
  refine ⟨block, hblock, hiff.2 ?_⟩
  rintro ⟨s, hs, -⟩
  have hlength := htwo _ hmem block hblock
  rw [hs] at hlength
  cases hlength

def markerBodySource : Source := ⟨"a.py", "def f():\n    \"\"\"TODO\"\"\"\n", "py", none⟩

/-- A docstring that is all of a body goes when it is a marker, and the body is empty. -/
theorem body_emptied_of_marker :
    ∃ comments plan,
      Analyst.ofSettings markerSettings = .ok markerAnalyst ∧
      Sound markerBodySource.text.toList Language.python.profile.conventions []
        (Language.tree .python markerBodySource.text) ∧
      markerAnalyst.examine markerBodySource = .ok (found markerAnalyst "a.py" comments) ∧
      markerAnalyst.withPlan [] (found markerAnalyst "a.py" comments) (.loaded markerBodySource) =
        .ok { found markerAnalyst "a.py" comments with plan := some plan } ∧
      Patch.apply markerBodySource.text plan = .ok "def f():\n" ∧
      ∃ node ∈ nodes [] (Language.tree .python markerBodySource.text),
        isDefinition node.2 = true ∧ ∃ block ∈ body? node.2, statements block ≠ [] ∧
          ∀ s ∈ statements block,
            ¬Remains markerBodySource.text.toList plan.steps (block :: node.2 :: node.1) s := by
  have hsound : Sound markerBodySource.text.toList Language.python.profile.conventions []
      (Language.tree .python markerBodySource.text) := by decide +kernel
  obtain ⟨docstring, hplace, hline, hmarker, hlone⟩ : ∃ docstring : Comment,
      docstring.place = ⟨"a.py", 13, 23⟩ ∧ docstring.line = 2 ∧ isMarker docstring = true ∧
        Lone markerBodySource .python docstring :=
    ⟨⟨"a.py", 13, 23, 2, .block, "\"\"\"TODO\"\"\"", "def f():", 0, "def f():", 0⟩, rfl, rfl,
      by decide +kernel, lone_of_findIn (by decide +kernel) (by decide +kernel) (by decide +kernel) (by decide +kernel)⟩
  have hcategory := category_judgedMarker_iff.2 hmarker
  simp only [judgedMarker] at hcategory
  obtain ⟨plan, hsteps, hplan, happly⟩ := hlone.plan_of_placeholder hcategory
  have hfound : (found markerAnalyst "a.py" [docstring]).comments =
      [⟨docstring, verdictFor markerAnalyst.judge docstring⟩] := by
    simp [found, hlone.text]
  rw [← hfound] at hplan
  rw [withoutMarker, hplace, hline] at happly
  rw [hplace, hline] at hsteps
  refine ⟨[docstring], plan, ofSettings_markerSettings, hsound,
    examine_eq hlone.named hlone.extracted, withPlan_found hplan, ?_, ?_⟩
  · rw [happly]
    decide +kernel
  · rw [hsteps]
    decide +kernel

end Marginalia.Analysis
