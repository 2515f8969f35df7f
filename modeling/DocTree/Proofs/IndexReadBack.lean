import DocTree.Proofs.IndexLinks
import DocTree.Proofs.PreorderDepths

/-!
# The index read back

Whoever has the Markdown text alone can tell the tree from its index. A line ends where a title ends
that has no newline, so there is one for each node, in the order of the walk. The last bracket of a
line closes its link, and every bracket before that belongs to the title and has a backslash of its
own in front; so the title, the anchor and the kind can be taken apart again, whatever brackets and
backslashes the title has. The indentation gives the depth, and the depths give the tree.

The reader is a specification and no part of the program. It is defined on lines of characters and
knows none of the functions that write them: it cuts, counts blanks and takes backslashes away, and
that it finds what was written is proved. A line of which it can make nothing gives no label, and
the statement says in particular that this does not happen.

It is not a reader of Markdown. A renderer would take some titles for something else, such as one
that ends in a backslash, and yet nothing is lost: the closing bracket is known as the last one,
since neither anchors nor kinds have a bracket. Which links a renderer sees is another question, and
is answered for labels on their own.

The condition on titles cannot be left out, because a title with a newline in it can contain what
looks like a line of its own.
-/

set_option autoImplicit false

namespace DocTree

open DocTree.Text

/-! ## Reading an index

From the document to lines, from a line to a label, and from the indentation of all lines to trees.
The last step is the one of `linesUnder`, by which a line belongs to the nearest one above it that
is indented less. -/

/-- The title of a record as a reader sees it: the name of a section, and the identifier of any
other record. -/
def Record.displayedTitle (record : Record) : String :=
  if record.kind = .sectionKind then record.name else record.id

structure IndexLabel where
  title : String
  anchor : String
  kind : Kind

namespace Index

/-- The lines of the index in a document: those behind the heading, up to an empty one. A document
without records has no index, and then there are none. -/
def lines (document : String) : List (List Char) :=
  ((document.toList.splitOn '\n').drop 2).takeWhile fun line => !line.isEmpty

def indent (line : List Char) : Nat := (line.takeWhile (· == ' ')).length

/-- The text without the backslash in front of each bracket. Other backslashes stay, and so does the
one in front of such a backslash. -/
def unescapeBrackets : List Char → List Char
  | [] => []
  | c :: rest =>
    if c = '\\' ∧ (rest.head? = some '[' ∨ rest.head? = some ']') then unescapeBrackets rest
    else c :: unescapeBrackets rest

/-- What stands in a line, the last bracket of which closes the link. Three characters are dropped
before the title, the bullet and the opening bracket, and two before the anchor and the kind each.
-/
def label? (line : List Char) : Option IndexLabel :=
  (lastCut (· == ']') ((line.dropWhile (· == ' ')).drop 3)).bind fun link =>
    (firstCut (· == ')') (link.after.drop 2)).map fun address =>
      { title := String.ofList (unescapeBrackets link.before)
        anchor := String.ofList address.before
        kind := Kind.ofName (String.ofList ((address.after.drop 2).takeWhile (· != '_'))) }

/-- The labelled trees that lines make by their indentation. A line is known by its number here;
there are no more levels than lines, so the unfolding reaches all of them. -/
def outline (lines : List (List Char)) : List (Outline (Option IndexLabel)) :=
  (linesUnder (lines.map indent) none).map fun k =>
    (Tree.unfold (fun j => linesUnder (lines.map indent) (some j)) (lines.length + 1) k).labelled
      fun k => lines[k]?.bind label?

end Index

namespace Documentation

def indexLabel? (doc : Documentation) (n : Nat) : Option IndexLabel := do
  let record ← doc.record? n
  let anchor ← doc.anchors[(doc.walk.map Prod.snd).idxOf n]?
  some ⟨record.displayedTitle, anchor, record.kind⟩

/-- The trees of the documentation with what the index says of each node. Node numbers are gone in
it, since they depend on the files. -/
def outline (doc : Documentation) : List (Outline (Option IndexLabel)) :=
  doc.trees.map (Tree.labelled doc.indexLabel?)

def TitlesInLine (doc : Documentation) : Prop :=
  ∀ entry ∈ doc.walkRecords, '\n' ∉ entry.2.displayedTitle.toList

instance : DecidablePred TitlesInLine := fun doc =>
  inferInstanceAs (Decidable (∀ entry ∈ doc.walkRecords, '\n' ∉ entry.2.displayedTitle.toList))

/-- The index in the text of the document, read back: each line by itself, then which line belongs
under which, and in the end the trees as a whole. -/
structure IndexReadsBack (doc : Documentation) : Prop where
  length_lines : (Index.lines doc.markdown).length = doc.walk.length
  line : ∀ k depth n : Nat, doc.walk[k]? = some (depth, n) → ∃ line record anchor,
    (Index.lines doc.markdown)[k]? = some line ∧ doc.record? n = some record ∧
      doc.anchors[k]? = some anchor ∧ Index.indent line = 2 * depth ∧
      Index.label? line = some ⟨record.displayedTitle, anchor, record.kind⟩
  parent_iff : ∀ j k p n : Nat, (doc.walk.map Prod.snd)[j]? = some p →
    (doc.walk.map Prod.snd)[k]? = some n →
      (parentLine ((Index.lines doc.markdown).map Index.indent) k = some j ↔ n ∈ doc.children p)
  topLevel_iff : ∀ k n : Nat, (doc.walk.map Prod.snd)[k]? = some n →
    (parentLine ((Index.lines doc.markdown).map Index.indent) k = none ↔ n ∈ doc.topLevel)
  children_eq : ∀ j p : Nat, (doc.walk.map Prod.snd)[j]? = some p →
    (linesUnder ((Index.lines doc.markdown).map Index.indent) (some j)).map
      (fun k => (doc.walk.map Prod.snd)[k]?) = (doc.children p).map some
  topLevel_eq : (linesUnder ((Index.lines doc.markdown).map Index.indent) none).map
    (fun k => (doc.walk.map Prod.snd)[k]?) = doc.topLevel.map some
  outline_eq : Index.outline (Index.lines doc.markdown) = doc.outline

end Documentation

/-! ## Lines

The item of a record is cut where the reader cuts it. Each cut is at the first or the last character
of a kind, so what has to be shown is where there are none of them: behind the link, in the anchor,
in the name of the kind. -/

namespace Index

theorem head?_escapeBrackets (text : List Char) {c : Char} (hc : c = '[' ∨ c = ']') :
    (escapeBrackets text).head? ≠ some c := by
  cases text with
  | nil => simp [escapeBrackets]
  | cons d rest =>
    by_cases hd : d = '[' ∨ d = ']'
    · rw [escapeBrackets_bracket hd]
      rcases hc with rfl | rfl <;> simp
    · rw [escapeBrackets_other hd]
      intro h
      cases Option.some.inj h
      exact hd hc

/-- **The backslashes put in front of brackets can be taken off**, whatever others there are: behind
a backslash of the text's own there is never a bracket. -/
theorem unescapeBrackets_escapeBrackets (text : List Char) :
    unescapeBrackets (escapeBrackets text) = text := by
  induction text with
  | nil => rfl
  | cons c rest ih =>
    by_cases hc : c = '[' ∨ c = ']'
    · have hne : c ≠ '\\' := by
        rintro rfl
        simp at hc
      rw [escapeBrackets_bracket hc]
      simp [unescapeBrackets, hc, hne, ih]
    · have left := head?_escapeBrackets rest (c := '[') (Or.inl rfl)
      have right := head?_escapeBrackets rest (c := ']') (Or.inr rfl)
      rw [escapeBrackets_other hc]
      simp [unescapeBrackets, left, right, ih]

end Index

theorem Kind.ofName_name (kind : Kind) : ofName kind.name = kind := by
  cases kind <;> decide

theorem Kind.not_mem_name (kind : Kind) {c : Char} (hc : c = '\n' ∨ c = ']' ∨ c = '_') :
    c ∉ kind.name.toList := by
  rcases hc with rfl | rfl | rfl <;> cases kind <;> decide

namespace Record

theorem title_eq_displayedTitle (record : Record) : record.title = record.displayedTitle := by
  simp [title, displayedTitle, isSection]

/-- The item of a record in the index, without the newline, as one list of characters in which each
mark can be looked for. -/
def indexText (record : Record) (depth : Nat) (anchor : String) : List Char :=
  List.replicate (2 * depth) ' ' ++ '*' :: ' ' :: '[' :: (escapeBrackets record.title.toList
    ++ ']' :: '(' :: '#' :: (anchor.toList ++ ')' :: ' ' :: '_' :: (record.kind.name.toList ++ ['_'])))

theorem toList_indexLine (record : Record) (depth : Nat) (anchor : String) :
    (record.indexLine depth anchor).toList = record.indexText depth anchor ++ ['\n'] := by
  simp [indexLine, indexItem, indexLink, indexText]

theorem indexText_ne_nil (record : Record) (depth : Nat) (anchor : String) :
    record.indexText depth anchor ≠ [] := by
  simp [indexText]

theorem newline_not_mem_indexText {record : Record} (h : '\n' ∉ record.displayedTitle.toList)
    (depth : Nat) {anchor : String} (ha : Anchor.Plain anchor) :
    '\n' ∉ record.indexText depth anchor := by
  have hanchor : '\n' ∉ anchor.toList := ha.not_mem (by decide +kernel)
  have hkind := record.kind.not_mem_name (c := '\n') (Or.inl rfl)
  rw [← title_eq_displayedTitle] at h
  have htitle : '\n' ∉ escapeBrackets record.title.toList := by
    intro hm
    obtain ⟨c, hc, hm⟩ := List.mem_flatMap.1 hm
    split at hm
    case isTrue bracket =>
      rcases bracket with rfl | rfl <;> simp at hm
    case isFalse =>
      rw [List.mem_singleton] at hm
      exact h (hm ▸ hc)
  simp [indexText, hanchor, hkind, htitle]

theorem indent_indexText (record : Record) (depth : Nat) (anchor : String) :
    Index.indent (record.indexText depth anchor) = 2 * depth := by
  simp [Index.indent, indexText, List.takeWhile_append_of_pos]

/-- **A line is taken apart again.** Nothing is asked of the record: whatever its title has in it,
the bracket that closes the link is behind, and neither the anchor nor the kind has another one. -/
theorem label?_indexText (record : Record) (depth : Nat) {anchor : String}
    (ha : Anchor.Plain anchor) :
    Index.label? (record.indexText depth anchor)
      = some ⟨record.displayedTitle, anchor, record.kind⟩ := by
  have hbracket : ']' ∉ anchor.toList := ha.not_mem (by decide +kernel)
  have hparenthesis : ')' ∉ anchor.toList := ha.not_mem (by decide +kernel)
  have item : ((record.indexText depth anchor).dropWhile (· == ' ')).drop 3
      = escapeBrackets record.title.toList ++ ']' :: ('(' :: '#' :: (anchor.toList
        ++ ')' :: (' ' :: '_' :: (record.kind.name.toList ++ ['_'])))) := by
    simp [indexText, List.dropWhile_append_of_pos]
  -- the anchor is plain and a kind is words, so the last bracket ends the title
  have behind : ∀ c ∈ '(' :: '#' :: (anchor.toList
      ++ ')' :: (' ' :: '_' :: (record.kind.name.toList ++ ['_']))), (c == ']') = false := by
    intro c hc
    rw [beq_eq_false_iff_ne]
    rintro rfl
    simp [hbracket, record.kind.not_mem_name (c := ']') (Or.inr (Or.inl rfl))] at hc
  have kindName : (record.kind.name.toList ++ ['_']).takeWhile (· != '_')
      = record.kind.name.toList := by
    rw [List.takeWhile_append_of_pos]
    · simp
    · intro c hc
      rw [bne_iff_ne]
      rintro rfl
      exact record.kind.not_mem_name (Or.inr (Or.inr rfl)) hc
  rw [Index.label?, item, lastCut_of_mark behind rfl, Option.bind_some]
  simp only [List.drop_succ_cons, List.drop_zero]
  rw [firstCut_of_mark (free_of_not_mem hparenthesis) rfl, Option.map_some]
  simp only [List.drop_succ_cons, List.drop_zero, kindName, String.ofList_toList, Kind.ofName_name,
    Index.unescapeBrackets_escapeBrackets, title_eq_displayedTitle]

end Record

/-! ## The text

The lines of the document are the heading, an empty one, the items and whatever is in the blocks.
The first block is written behind a newline, so the index ends at an empty line, and no item is
empty. -/

theorem Text.splitOn_lines {texts : List (List Char)} (free : ∀ text ∈ texts, '\n' ∉ text)
    (rest : List Char) :
    (texts.flatMap (· ++ ['\n']) ++ rest).splitOn '\n' = texts ++ rest.splitOn '\n' := by
  induction texts with
  | nil => rfl
  | cons text texts ih =>
    rw [List.flatMap_cons, List.append_assoc, List.append_assoc, List.singleton_append,
      List.splitOn_append_cons_self_of_not_mem (free text List.mem_cons_self),
      ih fun other ho => free other (List.mem_cons_of_mem _ ho), List.cons_append]

namespace Documentation

def indexTexts (doc : Documentation) : List (List Char) :=
  doc.walkRecords.zipWith (fun entry anchor => entry.2.indexText entry.1 anchor) doc.anchors

theorem exists_of_mem_indexTexts {doc : Documentation} {text : List Char}
    (h : text ∈ doc.indexTexts) :
    ∃ entry ∈ doc.walkRecords, ∃ anchor ∈ doc.anchors, text = entry.2.indexText entry.1 anchor := by
  obtain ⟨k, hk, rfl⟩ := List.mem_iff_getElem.1 h
  simp only [indexTexts, List.getElem_zipWith]
  exact ⟨_, List.getElem_mem _, _, List.getElem_mem _, rfl⟩

theorem toList_join_indexLines (doc : Documentation) :
    (String.join doc.indexLines).toList = doc.indexTexts.flatMap (· ++ ['\n']) := by
  rw [String.toList_join, indexLines, indexTexts, List.flatMap_def, List.flatMap_def,
    List.map_zipWith, List.map_zipWith]
  simp only [Record.toList_indexLine]

/-- **The lines of the index in the text are its items**, when no title goes on in another line.
What follows them begins with an empty line, which no item is. -/
theorem lines_markdown {doc : Documentation} (inLine : doc.TitlesInLine) :
    Index.lines doc.markdown = doc.indexTexts := by
  have free : ∀ text ∈ doc.indexTexts, '\n' ∉ text := by
    intro text ht
    obtain ⟨entry, he, anchor, ha, rfl⟩ := exists_of_mem_indexTexts ht
    exact Record.newline_not_mem_indexText (inLine entry he) entry.1 (plain_of_mem_anchors ha)
  rw [markdown]
  split
  case isTrue empty =>
    rw [indexTexts, List.isEmpty_iff.1 empty]
    rfl
  case isFalse some =>
    obtain ⟨block, blocks, hblocks⟩ : ∃ block blocks, doc.blocks = block :: blocks := by
      apply List.exists_cons_of_ne_nil
      intro none
      have length := length_anchors doc
      rw [Documentation.blocks, List.zipWith_eq_nil_iff] at none
      rcases none with none | none
      · exact some (List.isEmpty_iff.2 none)
      · rw [none] at length
        exact some (List.isEmpty_iff.2 (List.eq_nil_of_length_eq_zero length.symm))
    -- the first block begins with an empty line
    obtain ⟨rest, hrest⟩ : ∃ rest,
        (String.join (doc.blocks.map ("\n" ++ ·))).toList = '\n' :: rest := by
      rw [hblocks]
      simp
    have split : ("## Index\n\n" ++ String.join doc.indexLines
          ++ String.join (doc.blocks.map ("\n" ++ ·))).toList
        = ("## Index".toList :: [] :: doc.indexTexts).flatMap (· ++ ['\n']) ++ '\n' :: rest := by
      rw [String.toList_append, String.toList_append, toList_join_indexLines, hrest]
      simp
    have freeAll : ∀ text ∈ "## Index".toList :: [] :: doc.indexTexts, '\n' ∉ text := by
      intro text ht
      rcases List.mem_cons.1 ht with rfl | ht
      · decide
      · rcases List.mem_cons.1 ht with rfl | ht
        · exact List.not_mem_nil
        · exact free text ht
    have nonempty : ∀ text ∈ doc.indexTexts, (!text.isEmpty) = true := by
      intro text ht
      obtain ⟨entry, -, anchor, -, rfl⟩ := exists_of_mem_indexTexts ht
      simp [Record.indexText_ne_nil]
    rw [Index.lines, split, splitOn_lines freeAll, List.cons_append, List.cons_append,
      List.drop_succ_cons, List.drop_succ_cons, List.drop_zero,
      List.takeWhile_append_of_pos nonempty, List.splitOn_cons_eq_if_modifyHead,
      if_pos (beq_self_eq_true _)]
    simp

/-! ## The tree

The indentation of the lines is that of the walk, and that a walk can be read back from its
indentation is known (`Walk.indents`). What is added is the labels, node by node. -/

section Tree

variable (options : Options) (files : List SourceFile)

theorem walk_eq_steps : (ofFiles options files).walk
    = Walk.steps (ofFiles options files).children (ofFiles options files).nodes.size
        (ofFiles options files).topLevel := rfl

/-- The nodes are those of the walk and the nameless section. So unfolding the lines by their number
goes as deep as unfolding the nodes by theirs. -/
theorem size_eq_length_walk :
    (ofFiles options files).nodes.size = (ofFiles options files).walk.length + 1 := by
  have zero : 0 < (ofFiles options files).nodes.size := by
    obtain ⟨node, hnode, -⟩ := Option.map_eq_some_iff.1
      ((Assembly.key_eq_empty_iff options files 0).2 rfl)
    obtain ⟨hlt, -⟩ := Array.getElem?_eq_some_iff.1 hnode
    exact Nat.lt_of_lt_of_eq hlt (size_ofForest _).symm
  have length := (Assembly.walk_perm options files).length_eq
  rw [List.length_map, List.length_erase_of_mem (List.mem_range.2 zero), List.length_range] at length
  omega

variable {options files} (inLine : (ofFiles options files).TitlesInLine)
include inLine

theorem exists_line {k depth n : Nat} (h : (ofFiles options files).walk[k]? = some (depth, n)) :
    ∃ line record anchor, (Index.lines (ofFiles options files).markdown)[k]? = some line ∧
      (ofFiles options files).record? n = some record ∧
      (ofFiles options files).anchors[k]? = some anchor ∧ Index.indent line = 2 * depth ∧
      Index.label? line = some ⟨record.displayedTitle, anchor, record.kind⟩ := by
  obtain ⟨record, hrecord, hwalk⟩ := exists_walkRecord options files h
  obtain ⟨hk, -⟩ := List.getElem?_eq_some_iff.1 hwalk
  rw [← length_anchors] at hk
  have ha := List.getElem?_eq_getElem hk
  refine ⟨record.indexText depth (ofFiles options files).anchors[k], record, _, ?_, hrecord, ha,
    record.indent_indexText _ _,
    record.label?_indexText depth (plain_of_mem_anchors (List.getElem_mem hk))⟩
  rw [lines_markdown inLine, indexTexts, List.getElem?_zipWith, hwalk, ha]

theorem length_lines :
    (Index.lines (ofFiles options files).markdown).length = (ofFiles options files).walk.length := by
  rw [lines_markdown inLine, indexTexts, List.length_zipWith, length_anchors, Nat.min_self,
    length_walkRecords]

theorem map_indent_lines : (Index.lines (ofFiles options files).markdown).map Index.indent
    = Walk.indents (ofFiles options files).walk := by
  apply List.ext_getElem?
  intro k
  rw [List.getElem?_map, Walk.indents, List.getElem?_map]
  cases h : (ofFiles options files).walk[k]? with
  | none =>
    rw [List.getElem?_eq_none_iff, ← length_lines inLine, ← List.getElem?_eq_none_iff] at h
    rw [h]
    rfl
  | some entry =>
    obtain ⟨line, record, anchor, hline, -, -, hindent, -⟩ := exists_line inLine h
    rw [hline, Option.map_some, Option.map_some, hindent]

theorem label_of_line {k n : Nat}
    (hk : ((ofFiles options files).walk.map Prod.snd)[k]? = some n) :
    (Index.lines (ofFiles options files).markdown)[k]?.bind Index.label?
      = (ofFiles options files).indexLabel? n := by
  have nodup := (Assembly.spans options files).nodup_steps
  rw [← walk_eq_steps] at nodup
  obtain ⟨depth, hentry⟩ := Walk.exists_step hk
  obtain ⟨line, record, anchor, hline, hrecord, ha, -, hlabel⟩ := exists_line inLine hentry
  have place : ((ofFiles options files).walk.map Prod.snd).idxOf n = k := by
    obtain ⟨hlt, rfl⟩ := List.getElem?_eq_some_iff.1 hk
    exact nodup.idxOf_getElem k hlt
  rw [hline, Option.bind_some, hlabel, indexLabel?, hrecord, place, ha]
  rfl

/-- **The lines make the trees of the documentation.** The numbers of lines are taken to the nodes
that the walk has in these places, roots to roots and children to children. -/
theorem outline_lines :
    Index.outline (Index.lines (ofFiles options files).markdown)
      = (ofFiles options files).outline := by
  have spans := Assembly.spans options files
  have length := length_lines inLine
  have node : ∀ {parent : Option Nat} {nodes : List Nat},
      (linesUnder (Walk.indents (ofFiles options files).walk) parent).map
          (fun k => ((ofFiles options files).walk.map Prod.snd)[k]?) = nodes.map some →
        (linesUnder (Walk.indents (ofFiles options files).walk) parent).map
          (fun k => ((ofFiles options files).walk.map Prod.snd).getD k 0) = nodes := by
    intro parent nodes h
    have same := congrArg (List.map fun number => number.getD 0) h
    simpa [Function.comp_def, List.getD_eq_getElem?_getD] using same
  have inside : ∀ {parent : Option Nat},
      ∀ k ∈ linesUnder (Walk.indents (ofFiles options files).walk) parent,
        k < (ofFiles options files).walk.length := by
    intro parent k hk
    have hrange := List.mem_range.1 (List.mem_of_mem_filter hk)
    rwa [Walk.indents, List.length_map] at hrange
  have number : ∀ {k : Nat}, k < (ofFiles options files).walk.length →
      ((ofFiles options files).walk.map Prod.snd)[k]?
        = some (((ofFiles options files).walk.map Prod.snd).getD k 0) := by
    intro k hk
    simp [List.getD_eq_getElem?_getD, hk]
  have closed : ∀ k, k < (ofFiles options files).walk.length →
      ∀ c ∈ linesUnder (Walk.indents (ofFiles options files).walk) (some k),
        c < (ofFiles options files).walk.length := fun _ _ => inside
  have same : ∀ k, k < (ofFiles options files).walk.length →
      (linesUnder (Walk.indents (ofFiles options files).walk) (some k)).map
          (fun k => ((ofFiles options files).walk.map Prod.snd).getD k 0)
        = (ofFiles options files).children
            (((ofFiles options files).walk.map Prod.snd).getD k 0) :=
    fun k hk => node (spans.linesUnder_some (number hk))
  have labels : ∀ k, k < (ofFiles options files).walk.length →
      (Index.lines (ofFiles options files).markdown)[k]?.bind Index.label?
        = (ofFiles options files).indexLabel?
            (((ofFiles options files).walk.map Prod.snd).getD k 0) :=
    fun k hk => label_of_line inLine (number hk)
  -- both are unfolded from their roots, the one over places of lines and the other over nodes
  rw [Index.outline, map_indent_lines inLine, outline, trees, List.map_map,
    ← node spans.linesUnder_none, List.map_map, length, ← size_eq_length_walk]
  apply List.map_congr_left
  intro k hk
  exact Tree.labelled_unfold_congr closed same labels _ (inside k hk)

theorem readsBack : (ofFiles options files).IndexReadsBack := by
  have spans := Assembly.spans options files
  have indents := map_indent_lines inLine
  constructor
  case length_lines => exact length_lines inLine
  case line => exact fun k depth n h => exists_line inLine h
  case parent_iff =>
    intro j k p n hj hk
    rw [indents]
    exact spans.parentLine_eq_some_iff hj hk
  case topLevel_iff =>
    intro k n hk
    rw [indents]
    exact spans.parentLine_eq_none_iff hk
  case children_eq =>
    intro j p hj
    rw [indents]
    exact spans.linesUnder_some hj
  case topLevel_eq =>
    rw [indents]
    exact spans.linesUnder_none
  case outline_eq => exact outline_lines inLine

end Tree

/-- **The tree, titles, anchors and kinds can be read off the index**, so documentations with the
same index have the same labelled trees. The two need not come from the same files, nor have the
same numbers for their nodes, and only their labels are compared. -/
theorem indexReadsBack_ofFiles (options : Options) (files : List SourceFile)
    (inLine : (ofFiles options files).TitlesInLine) :
    (ofFiles options files).IndexReadsBack ∧
      ∀ (other : Options) (others : List SourceFile), (ofFiles other others).TitlesInLine →
        Index.lines (ofFiles options files).markdown
            = Index.lines (ofFiles other others).markdown →
          (ofFiles options files).outline = (ofFiles other others).outline := by
  refine ⟨readsBack inLine, ?_⟩
  intro other others inLine' same
  calc (ofFiles options files).outline
      = Index.outline (Index.lines (ofFiles options files).markdown) :=
        (outline_lines inLine).symm
    _ = Index.outline (Index.lines (ofFiles other others).markdown) := by rw [same]
    _ = (ofFiles other others).outline := outline_lines inLine'

def bracketFiles : List SourceFile :=
  [SourceFile.ofRecords "dom.json"
    [RawRecord.brief "DOM" .sectionKind none, RawRecord.brief "Element" .classKind (some "DOM"),
     RawRecord.brief "Element#[]" .method (some "DOM")]]

theorem order_bracketFiles (options : Options)
    (keys : (Listing.merge options bracketFiles).inferSections.keys
      = ["", "DOM", "DOM.Element", "DOM.Element#[]"]) :
    (Listing.merge options bracketFiles).inferSections.canonicalOrder
      = ["", "DOM", "DOM.Element", "DOM.Element#[]"] :=
  Listing.canonicalOrder_eq (.of_eq keys) (by decide +kernel)

/-- Addresses do not stand in the index, so another link template leaves it the same, and with it
the trees. -/
theorem indexReadsBack_bracketFiles :
    (ofFiles Options.plain bracketFiles).TitlesInLine ∧
      (ofFiles (Options.withTemplate "source") bracketFiles).TitlesInLine ∧
      Index.lines (ofFiles Options.plain bracketFiles).markdown
        = Index.lines (ofFiles (Options.withTemplate "source") bracketFiles).markdown ∧
      (ofFiles Options.plain bracketFiles).IndexReadsBack ∧
      (ofFiles Options.plain bracketFiles).outline
        = (ofFiles (Options.withTemplate "source") bracketFiles).outline := by
  have order := order_bracketFiles Options.plain (by decide +kernel)
  have order' := order_bracketFiles (Options.withTemplate "source") (by decide +kernel)
  have inLine : (ofFiles Options.plain bracketFiles).TitlesInLine := by
    rw [Listing.ofFiles_of_order order]
    decide +kernel
  have inLine' : (ofFiles (Options.withTemplate "source") bracketFiles).TitlesInLine := by
    rw [Listing.ofFiles_of_order order']
    decide +kernel
  have same : Index.lines (ofFiles Options.plain bracketFiles).markdown
      = Index.lines (ofFiles (Options.withTemplate "source") bracketFiles).markdown := by
    rw [lines_markdown inLine, lines_markdown inLine', Listing.ofFiles_of_order order,
      Listing.ofFiles_of_order order']
    decide +kernel
  have back := indexReadsBack_ofFiles Options.plain bracketFiles inLine
  exact ⟨inLine, inLine', same, back.1, back.2 _ _ inLine' same⟩

end Documentation

end DocTree
