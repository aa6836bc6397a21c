import Marginalia.Files.Path
import Marginalia.Proofs.Sequence
import Mathlib.Data.String.Basic

/-! Paths to the entries of directories: the steps that are added, and what is left of such a path
from the directory on. -/

namespace Marginalia.Files

/-! ### Texts between slashes -/

/-- Splitting a text at slashes, after a front that is cut off and the beginning of a text between
slashes. -/
theorem splitOnAux_slash (front text rest : List Char) (found : List String) :
    String.splitOnAux (String.ofList (front ++ text ++ rest)) "/" ⟨String.utf8Len front⟩
        ⟨String.utf8Len front + String.utf8Len text⟩ 0 found =
      found.reverse ++ (rest.splitOnPPrepend (· == '/') text.reverse).map String.ofList := by
  have hextract := String.extract_of_valid front text rest
  rw [String.splitOnAux]
  cases rest with
  | nil =>
    have hend : String.Pos.Raw.atEnd (String.ofList (front ++ text ++ []))
        ⟨String.utf8Len front + String.utf8Len text⟩ = true := by
      simp [String.atEnd_iff, -String.ofList_append]
    rw [if_pos hend, hextract, List.reverse_cons, List.splitOnPPrepend_nil, List.reverse_reverse]
    rfl
  | cons c rest =>
    have hend : ¬String.Pos.Raw.atEnd (String.ofList (front ++ text ++ c :: rest))
        ⟨String.utf8Len front + String.utf8Len text⟩ = true := by
      have := c.utf8Size_pos
      simp [String.atEnd_iff, -String.ofList_append]
      omega
    have hget : String.Pos.Raw.get (String.ofList (front ++ text ++ c :: rest))
        ⟨String.utf8Len front + String.utf8Len text⟩ = c := by
      simpa [-String.ofList_append] using String.get_of_valid (front ++ text) (c :: rest)
    have hnext : String.Pos.Raw.next (String.ofList (front ++ text ++ c :: rest))
        ⟨String.utf8Len front + String.utf8Len text⟩ =
        ⟨String.utf8Len front + String.utf8Len text + c.utf8Size⟩ := by
      simpa [-String.ofList_append, Nat.add_assoc] using
        String.next_of_valid (front ++ text) c rest
    have hslash : String.Pos.Raw.get "/" 0 = '/' ∧ String.Pos.Raw.next "/" 0 = ⟨1⟩ ∧
        String.Pos.Raw.atEnd "/" ⟨1⟩ = true := by decide
    rw [if_neg hend, hget, hslash.1, List.splitOnPPrepend_cons_eq_if]
    dsimp only
    rw [hslash.2.1, if_pos hslash.2.2]
    split
    · next hc =>
      obtain rfl := beq_iff_eq.1 hc
      have hback : (⟨String.utf8Len front + String.utf8Len text + '/'.utf8Size⟩ :
          String.Pos.Raw).unoffsetBy ⟨1⟩ = ⟨String.utf8Len front + String.utf8Len text⟩ := rfl
      rw [hnext, hback, hextract]
      simpa [-String.ofList_append, Nat.add_assoc] using
        splitOnAux_slash (front ++ text ++ ['/']) [] rest (String.ofList text :: found)
    · have hback : (⟨String.utf8Len front + String.utf8Len text⟩ : String.Pos.Raw).unoffsetBy 0 =
          ⟨String.utf8Len front + String.utf8Len text⟩ := rfl
      rw [hback, hnext]
      simpa [-String.ofList_append, Nat.add_assoc] using
        splitOnAux_slash front (text ++ [c]) rest found

theorem splitOn_slash (path : String) :
    path.splitOn "/" = (path.toList.splitOn '/').map String.ofList := by
  have h := splitOnAux_slash [] [] path.toList []
  rw [List.splitOn_eq_splitOnP]
  simpa [String.splitOn] using h

theorem exists_splitOn_slash (path : String) : ∃ first others, path.splitOn "/" = first :: others := by
  refine List.exists_cons_of_ne_nil fun hnil => ?_
  rw [splitOn_slash] at hnil
  exact List.splitOn_ne_nil _ _ (List.map_eq_nil_iff.1 hnil)

/-- What may stand in a directory: a name that is no step of its own. -/
@[mk_iff]
structure IsName (name : String) : Prop where
  ne_empty : name ≠ ""
  ne_here : name ≠ "."
  ne_up : name ≠ ".."
  slash : '/' ∉ name.toList

instance (name : String) : Decidable (IsName name) := decidable_of_iff _ (isName_iff name).symm

theorem IsName.ofText? {name : String} (h : IsName name) : Step.ofText? name = some (.name name) := by
  simp [Step.ofText?, h.ne_empty, h.ne_here, h.ne_up]

theorem eq_of_ofText? {text name : String} (h : Step.ofText? text = some (.name name)) :
    text = name := by
  rw [Step.ofText?] at h
  split at h
  · cases h
  · split at h
    · cases h
    · exact Step.name.inj (Option.some.inj h)

/-- A text between slashes that means nothing. -/
def Meaningless (text : String) : Prop := Step.ofText? text = none

theorem meaningless_iff {text : String} : Meaningless text ↔ text = "" ∨ text = "." := by
  rw [Meaningless, Step.ofText?]
  split
  · next h => simpa using h
  · next h => split <;> simpa using h

theorem IsName.not_meaningless {name : String} (h : IsName name) : ¬Meaningless name := by
  simp [Meaningless, h.ofText?]

/-- The name of an entry takes the place of the nothing after a slash at the end. -/
theorem exists_splitOn_within (directory : String) {name : String} (h : IsName name) :
    ∃ front, (within directory name).splitOn "/" = front ++ [name] ∧
      (directory.splitOn "/" = front ++ [""] ∨ directory.splitOn "/" = front ∧ front ≠ [""]) := by
  have hname : name.toList.splitOn '/' = [name.toList] := List.splitOn_eq_singleton h.slash
  have hsplit (before : List Char) :
      (before ++ '/' :: name.toList).splitOn '/' = before.splitOn '/' ++ [name.toList] := by
    rw [List.splitOn_append_cons_self, hname]
  simp only [splitOn_slash, within]
  by_cases hempty : directory = ""
  · refine ⟨[], ?_, .inl (by rw [hempty]; decide)⟩
    rw [if_pos (by simp [hempty]), hempty, String.empty_append, hname]
    simp
  · by_cases hends : directory.endsWith "/" = true
    · obtain ⟨before, hbefore⟩ := String.Slice.endsWith_string_iff.1 hends
      have hdirectory : directory.toList = before ++ ['/'] := by simpa using hbefore.symm
      refine ⟨(before.splitOn '/').map String.ofList, ?_, .inl ?_⟩
      · rw [if_pos (by simp [hends]), String.toList_append, hdirectory, List.append_assoc,
          List.singleton_append, hsplit]
        simp
      · rw [hdirectory, List.splitOn_append_cons_self]
        simp
    · refine ⟨(directory.toList.splitOn '/').map String.ofList, ?_, .inr ⟨rfl, fun hone => ?_⟩⟩
      · rw [if_neg (by simp [hempty, hends]), String.toList_append, String.toList_append,
          List.append_assoc]
        exact (congrArg _ (hsplit directory.toList)).trans (by simp)
      · obtain ⟨text, htext, hnil⟩ := List.map_eq_singleton_iff.1 hone
        have hlist : directory.toList = ['/'].intercalate (directory.toList.splitOn '/') :=
          (List.intercalate_splitOn '/').symm
        rw [htext, String.ofList_eq_empty_iff.1 hnil] at hlist
        exact hempty (String.toList_eq_nil_iff.1 hlist)

/-! ### Reading a path -/

/-- The beginning of texts between slashes that is a step of its own, and the texts after it. -/
def cutLead : List String → Option Step × List String
  | "" :: text :: texts => (some .root, text :: texts)
  | "." :: texts => (some .here, texts)
  | texts => (none, texts)

theorem leadAndTexts_eq (path : String) : leadAndTexts path = cutLead (path.splitOn "/") := rfl

theorem cutLead_of_not_meaningless {first : String} (h : ¬Meaningless first) (texts : List String) :
    cutLead (first :: texts) = (none, first :: texts) := by
  rw [meaningless_iff, not_or] at h
  rw [cutLead.eq_def]
  split
  · next heq => exact absurd (List.cons.inj heq).1 h.1
  · next heq => exact absurd (List.cons.inj heq).1 h.2
  · rfl

theorem exists_cutLead (first : String) (front : List String) :
    ∃ lead kept, (lead = some .root ∨ lead = some .here ∨ lead = none) ∧
      (lead = none → kept = first :: front ∧ ¬Meaningless first) ∧
      ∀ tail, (first ≠ "" ∨ front ++ tail ≠ []) →
        cutLead (first :: (front ++ tail)) = (lead, kept ++ tail) := by
  by_cases hroot : first = ""
  · refine ⟨some .root, front, .inl rfl, by simp, fun tail htail => ?_⟩
    obtain ⟨text, texts, htexts⟩ :=
      List.exists_cons_of_ne_nil (htail.resolve_left fun hne => hne hroot)
    rw [hroot, htexts]
    rfl
  · by_cases hhere : first = "."
    · exact ⟨some .here, front, .inr (.inl rfl), by simp, fun tail _ => by rw [hhere]; rfl⟩
    · have hfirst : ¬Meaningless first := by
        rw [meaningless_iff]
        exact not_or.2 ⟨hroot, hhere⟩
      exact ⟨none, first :: front, .inr (.inr rfl), fun _ => ⟨rfl, hfirst⟩, fun tail _ =>
        cutLead_of_not_meaningless hfirst (front ++ tail)⟩

/-- A path begins with a lead, goes on with texts and ends in texts that mean nothing. -/
structure Reads (path : String) (lead : Option Step) (front blanks : List String) : Prop where
  eq : leadAndTexts path = (lead, front ++ blanks)
  meaningless : ∀ text ∈ blanks, Meaningless text
  known : lead = some .root ∨ lead = some .here ∨ lead = none
  /-- A text that means nothing would be the lead. -/
  begun : lead = none → ∀ text ∈ front.head?, ¬Meaningless text

section Reads

variable {path : String} {lead : Option Step} {front names blanks : List String}

theorem filterMap_meaningless (h : ∀ text ∈ blanks, Meaningless text) :
    blanks.filterMap Step.ofText? = [] :=
  List.filterMap_eq_nil_iff.2 h

theorem Reads.steps_eq (h : Reads path lead front blanks) :
    steps path = lead.toList ++ front.filterMap Step.ofText? := by
  rw [steps, h.eq]
  dsimp only
  rw [List.filterMap_append, filterMap_meaningless h.meaningless, List.append_nil]

theorem exists_reads_within (directory : String) {name : String} (h : IsName name) :
    ∃ lead front blanks, Reads directory lead front blanks ∧
      Reads (within directory name) lead (front ++ [name]) [] := by
  obtain ⟨front, hwithin, hdirectory⟩ := exists_splitOn_within directory h
  have hblank : ∀ text ∈ [""], Meaningless text := by simp [meaningless_iff]
  have hnone : ∀ text ∈ ([] : List String), Meaningless text := by simp
  cases front with
  | nil =>
    have htexts : directory.splitOn "/" = [""] := hdirectory.resolve_right fun hnil => by
      obtain ⟨first, others, hsplit⟩ := exists_splitOn_slash directory
      rw [hnil.1] at hsplit
      cases hsplit
    have hname : cutLead [name] = (none, [name]) := cutLead_of_not_meaningless h.not_meaningless []
    refine ⟨none, [], [""], ⟨by rw [leadAndTexts_eq, htexts]; rfl, hblank, by simp, by simp⟩,
      ⟨by rw [leadAndTexts_eq, hwithin]; exact hname, hnone, by simp, fun _ text htext => ?_⟩⟩
    obtain rfl := Option.some.inj htext
    exact h.not_meaningless
  | cons first front =>
    obtain ⟨lead, kept, hknown, hlead, hcut⟩ := exists_cutLead first front
    have hbegun (tail : List String) : lead = none → ∀ text ∈ (kept ++ tail).head?,
        ¬Meaningless text := by
      intro hnone text htext
      obtain ⟨rfl, hfirst⟩ := hlead hnone
      obtain rfl := Option.some.inj htext
      exact hfirst
    have hreads : Reads (within directory name) lead (kept ++ [name]) [] := by
      refine ⟨?_, hnone, hknown, hbegun [name]⟩
      rw [leadAndTexts_eq, hwithin, List.cons_append, hcut _ (.inr (by simp)), List.append_nil]
    rcases hdirectory with htexts | ⟨htexts, hne⟩
    · refine ⟨lead, kept, [""], ⟨?_, hblank, hknown, by simpa using hbegun []⟩, hreads⟩
      rw [leadAndTexts_eq, htexts, List.cons_append, hcut _ (.inr (by simp))]
    · refine ⟨lead, kept, [], ⟨?_, hnone, hknown, by simpa using hbegun []⟩, hreads⟩
      have hcut' := hcut [] (by
        rw [List.append_nil, ← not_and_or]
        rintro ⟨rfl, rfl⟩
        exact hne rfl)
      rwa [leadAndTexts_eq, htexts, ← List.append_nil front]

theorem eq_nil_of_getLast? (front : List String) (h : ∀ text ∈ blanks, Meaningless text)
    (hlast : ∀ text ∈ (front ++ blanks).getLast?, ¬Meaningless text) : blanks = [] := by
  by_contra hne
  rw [List.getLast?_append_of_ne_nil _ hne, List.getLast?_eq_some_getLast hne] at hlast
  exact hlast _ rfl (h _ (List.getLast_mem hne))

/-- The path of what stands below a directory under some names. -/
theorem exists_reads_foldl (root : String) {names : List String} (hne : names ≠ [])
    (h : ∀ name ∈ names, IsName name) :
    ∃ lead front blanks, Reads root lead front blanks ∧
      Reads (names.foldl within root) lead (front ++ names) [] := by
  induction names using List.reverseRecOn with
  | nil => exact absurd rfl hne
  | append_singleton names name ih =>
    obtain ⟨hnames, hname⟩ := List.forall_mem_append.1 h
    rw [List.foldl_append, List.foldl_cons, List.foldl_nil]
    obtain ⟨lead, front, blanks, hdirectory, hwithin⟩ :=
      exists_reads_within (names.foldl within root) (hname name List.mem_cons_self)
    by_cases hnil : names = []
    · subst hnil
      exact ⟨lead, front, blanks, hdirectory, hwithin⟩
    · obtain ⟨lead', front', blanks', hroot, hreads⟩ := ih hnil hnames
      have heq := hdirectory.eq.symm.trans hreads.eq
      rw [List.append_nil, Prod.mk.injEq] at heq
      obtain ⟨rfl, htexts⟩ := heq
      -- The directory ends in a name, so it does not end in a text that means nothing.
      have hblanks : blanks = [] := by
        refine eq_nil_of_getLast? front hdirectory.meaningless fun text htext => ?_
        rw [htexts, List.getLast?_append_of_ne_nil _ hnil] at htext
        exact (hnames text (List.mem_of_getLast? htext)).not_meaningless
      rw [hblanks, List.append_nil] at htexts
      exact ⟨lead, front', blanks', hroot, by rwa [htexts, List.append_assoc] at hwithin⟩

/-- Names on the way down are the steps that are added. -/
theorem steps_foldl_within (root : String) {names : List String}
    (h : ∀ name ∈ names, IsName name) :
    steps (names.foldl within root) = steps root ++ names.map .name := by
  by_cases hne : names = []
  · rw [hne, List.map_nil, List.append_nil, List.foldl_nil]
  · obtain ⟨lead, front, blanks, hroot, hreads⟩ := exists_reads_foldl root hne h
    have hnames : names.filterMap Step.ofText? = names.map .name := by
      rw [← List.filterMap_eq_map]
      exact List.filterMap_congr fun name hname => (h name hname).ofText?
    rw [hreads.steps_eq, hroot.steps_eq, List.filterMap_append, hnames, List.append_assoc]

/-! ### Paths from a directory on -/

/-- What is left after the steps of a front is what follows it, after texts that mean nothing. -/
theorem exists_dropSteps (front rest : List String) :
    ∃ gap, (∀ text ∈ gap, Meaningless text) ∧
      dropSteps (front ++ rest) (front.filterMap Step.ofText?) = some (gap ++ rest) := by
  induction front with
  | nil => exact ⟨[], by simp, by cases rest <;> rfl⟩
  | cons text front ih =>
    obtain ⟨gap, hgap, hdrop⟩ := ih
    cases htext : Step.ofText? text with
    | some step =>
      refine ⟨gap, hgap, ?_⟩
      rw [List.filterMap_cons_some htext, List.cons_append, dropSteps, htext]
      dsimp only
      rw [if_pos rfl, hdrop]
    | none =>
      rw [List.filterMap_cons_none htext]
      cases hsteps : front.filterMap Step.ofText? with
      | nil =>
        refine ⟨text :: front, List.forall_mem_cons.2 ⟨htext, ?_⟩, rfl⟩
        exact List.filterMap_eq_nil_iff.1 hsteps
      | cons step others =>
        refine ⟨gap, hgap, ?_⟩
        rw [List.cons_append, dropSteps, htext]
        dsimp only
        rw [← hsteps, hdrop]

theorem dropWhile_meaningless {gap rest : List String} (hgap : ∀ text ∈ gap, Meaningless text)
    (hrest : ∀ text ∈ rest.head?, ¬Meaningless text) :
    (gap ++ rest).dropWhile (fun text => (Step.ofText? text).isNone) = rest := by
  rw [List.dropWhile_append_of_pos fun text htext => Option.isNone_iff_eq_none.2 (hgap text htext)]
  cases rest with
  | nil => rfl
  | cons text rest =>
    exact List.dropWhile_cons_of_neg fun h => hrest text rfl (Option.isNone_iff_eq_none.1 h)

theorem withoutBlankEnd_append (hblanks : ∀ text ∈ blanks, Meaningless text)
    (hnames : ∀ text ∈ names.getLast?, ¬Meaningless text) :
    withoutBlankEnd (names ++ blanks) = names := by
  rw [withoutBlankEnd, List.reverse_append, dropWhile_meaningless, List.reverse_reverse]
  · exact fun text htext => hblanks text (List.mem_reverse.1 htext)
  · rwa [List.head?_reverse]

/-- What is left of a path from the steps of its front on. -/
theorem Reads.relativeTo?_eq (h : Reads path lead (front ++ names) blanks) (hne : names ≠ [])
    (hnames : ∀ name ∈ names, ¬Meaningless name) :
    relativeTo? path (lead.toList ++ front.filterMap Step.ofText?) =
      some (String.intercalate "/" names) := by
  have hhead : ∀ text ∈ (names ++ blanks).head?, ¬Meaningless text := by
    obtain ⟨name, others, rfl⟩ := List.exists_cons_of_ne_nil hne
    intro text htext
    obtain rfl := Option.some.inj htext
    exact hnames _ List.mem_cons_self
  have hend : withoutBlankEnd (names ++ blanks) = names :=
    withoutBlankEnd_append h.meaningless fun text htext => hnames text (List.mem_of_getLast? htext)
  obtain ⟨gap, hgap, hdrop⟩ := exists_dropSteps front (names ++ blanks)
  have hbelow : (dropSteps (front ++ names ++ blanks) (front.filterMap Step.ofText?)).map
      (fun rest => String.intercalate "/"
        (withoutBlankEnd (rest.dropWhile fun t => (Step.ofText? t).isNone))) =
      some (String.intercalate "/" names) := by
    rw [List.append_assoc, hdrop, Option.map_some, dropWhile_meaningless hgap hhead, hend]
  rw [relativeTo?, h.eq]
  rcases h.known with rfl | rfl | rfl
  · exact (if_pos rfl).trans hbelow
  · exact (if_pos rfl).trans hbelow
  · -- Without a lead and a front the base has no steps, and nothing is dropped from the path.
    rw [Option.toList_none, List.nil_append]
    cases hsteps : front.filterMap Step.ofText? with
    | nil =>
      have hfront : front = [] := by
        cases front with
        | nil => rfl
        | cons text others =>
          exact absurd (List.filterMap_eq_nil_iff.1 hsteps text List.mem_cons_self)
            (h.begun rfl text rfl)
      rw [hfront, List.nil_append]
      exact congrArg (fun texts => some (String.intercalate "/" texts)) hend
    | cons step others => rwa [hsteps] at hbelow

theorem relativeTo?_foldl_within (root : String) {names : List String} (hne : names ≠ [])
    (h : ∀ name ∈ names, IsName name) :
    relativeTo? (names.foldl within root) (steps root) = some (String.intercalate "/" names) := by
  obtain ⟨lead, front, blanks, hroot, hreads⟩ := exists_reads_foldl root hne h
  rw [hroot.steps_eq]
  exact hreads.relativeTo?_eq hne fun name hname => (h name hname).not_meaningless

theorem exists_append_meaningless (texts : List String) :
    ∃ front blanks, texts = front ++ blanks ∧ (∀ text ∈ blanks, Meaningless text) ∧
      ∀ text ∈ front.getLast?, ¬Meaningless text := by
  induction texts using List.reverseRecOn with
  | nil => exact ⟨[], [], rfl, by simp, by simp⟩
  | append_singleton texts last ih =>
    by_cases hlast : Meaningless last
    · obtain ⟨front, blanks, rfl, hblanks, hfront⟩ := ih
      refine ⟨front, blanks ++ [last], List.append_assoc .., ?_, hfront⟩
      exact List.forall_mem_append.2 ⟨hblanks, List.forall_mem_singleton.2 hlast⟩
    · exact ⟨texts ++ [last], [], (List.append_nil _).symm, by simp, by simpa using hlast⟩

theorem exists_reads (path : String) :
    ∃ lead front blanks, Reads path lead front blanks ∧
      ∀ text ∈ front.getLast?, ¬Meaningless text := by
  obtain ⟨first, others, htexts⟩ := exists_splitOn_slash path
  obtain ⟨lead, kept, hknown, hlead, hcut⟩ := exists_cutLead first others
  by_cases hempty : first ≠ "" ∨ others ≠ []
  · obtain ⟨front, blanks, rfl, hblanks, hfront⟩ := exists_append_meaningless kept
    refine ⟨lead, front, blanks, ⟨?_, hblanks, hknown, fun hnone text htext => ?_⟩, hfront⟩
    · have hcut' := hcut [] (by rwa [List.append_nil])
      rwa [leadAndTexts_eq, htexts, ← List.append_nil others, ← List.append_nil (front ++ blanks)]
    · obtain ⟨hkept, hfirst⟩ := hlead hnone
      cases front with
      | nil => cases htext
      | cons head front =>
        obtain rfl := Option.some.inj htext
        rwa [(List.cons.inj hkept).1]
  · rw [not_or, not_not, not_not] at hempty
    refine ⟨none, [], [""], ⟨?_, by simp [meaningless_iff], by simp, by simp⟩, by simp⟩
    rw [leadAndTexts_eq, htexts, hempty.1, hempty.2]
    rfl

/-- A file is left as its name by the directory in which it stands. -/
theorem relativeTo?_parentSteps {name : String} (h : fileName? path = some name) :
    relativeTo? path (parentSteps path) = some name := by
  obtain ⟨lead, front, blanks, hreads, hlast⟩ := exists_reads path
  have hsteps := hreads.steps_eq
  rcases List.eq_nil_or_concat front with rfl | ⟨front, text, rfl⟩
  · rw [fileName?, hsteps] at h
    rcases hreads.known with rfl | rfl | rfl <;> cases h
  · rw [List.concat_eq_append] at hreads hsteps hlast
    have htext : ¬Meaningless text := hlast text (by simp)
    obtain ⟨step, hstep⟩ := Option.ne_none_iff_exists'.1 htext
    rw [List.filterMap_append, List.filterMap_cons_some hstep, List.filterMap_nil,
      ← List.append_assoc] at hsteps
    have hname : step = .name name := by
      rw [fileName?, hsteps, List.getLast?_concat] at h
      cases step <;> simp_all
    subst hname
    have hparent : parentSteps path = lead.toList ++ front.filterMap Step.ofText? := by
      rw [parentSteps, hsteps, List.getLast?_concat, List.dropLast_concat]
    obtain rfl := eq_of_ofText? hstep
    rw [hparent, hreads.relativeTo?_eq (by simp) (by simpa using htext)]
    rfl

end Reads

end Marginalia.Files
