import DocTree.Documentation.Markdown
import DocTree.Proofs.Anchors
import DocTree.Proofs.Cuts
import DocTree.Proofs.Occurrences
import DocTree.Proofs.WalkOrder

/-!
# Index links resolve

The index and the blocks of a Markdown document are made from the same walk and the same anchors, so
they agree item by item; what takes an argument is that an anchor stands in the document only once.
Each line of the document is counted on its own. No text of a record has the beginning of an anchor
in it, none can be put together where a text meets the words around it, and the anchor in front of a
block is another one for each block.

Counting goes by occurrences of a pattern in the whole text, overlapping ones included, and the
document is taken apart at places that no occurrence can span. An anchor begins with an angle
bracket and has no line end in it. So no occurrence goes over the end of a line, and none begins in
words that have no angle bracket; between them these two facts cover every place where a text of a
record is put next to something else. Where a list of names is joined, the comma does for the line
end.

Texts are only asked not to have the beginning of an anchor. They may have other markup, single
brackets and quotes, and `<a` as well. To forbid angle brackets altogether would be easier to prove
from, and would leave out descriptions in which other tags are used.

Titles are written with their square brackets escaped, which puts a backslash in front of some
characters. That this neither makes nor breaks an occurrence is a fact about patterns without such
characters.
-/

set_option autoImplicit false

namespace DocTree

open DocTree.Text

/-! ## The statement

For the `k`-th node of the walk there are a `k`-th line and a `k`-th block, and what they have to do
with each other is said in terms of the texts themselves: the link in the line, the anchor that the
block begins with, and how often this stands in the document. -/

namespace Anchor

def opening : List Char := ['<', 'a', ' ', 'i', 'd', '=']

def tag (anchor : String) : String := "<a id=\"" ++ anchor ++ "\"></a>"

end Anchor

def Record.texts (record : Record) : List String :=
  [record.id, record.name] ++ record.description.toList ++ record.shortDescription.toList
    ++ record.aliases ++ record.subclasses.getD [] ++ record.href.toList

/-- No text of the record has the beginning of an anchor in it. A description may hold any markup,
so this cannot be had from how records are written. -/
def Record.Unanchored (record : Record) : Prop :=
  ∀ text ∈ record.texts, ¬ Anchor.opening <:+: text.toList

instance : DecidablePred Record.Unanchored := fun record =>
  inferInstanceAs (Decidable (∀ text ∈ record.texts, ¬ Anchor.opening <:+: text.toList))

namespace Documentation

/-- `line` and `block` stand in the document for the node, the one as its item in the index and the
other as its block, and the item leads to the block. -/
structure LinkedEntry (doc : Documentation) (node : Nat × Nat) (anchor line block : String) :
    Prop where
  record : ∃ record, doc.record? node.2 = some record ∧ line = record.indexLine node.1 anchor ∧
    block = record.block anchor
  link : ∃ before after, line = before ++ "](#" ++ anchor ++ ")" ++ after
  target : ∃ rest, block = Anchor.tag anchor ++ "\n" ++ rest
  plain : Anchor.Plain anchor
  once : occurrences (Anchor.tag anchor).toList doc.markdown.toList = 1

/-- The document is an index and blocks that go together, one of each for every node in the order of
the walk. -/
structure IndexLinks (doc : Documentation) : Prop where
  without_nodes : doc.walk = [] → doc.markdown = ""
  with_nodes : doc.walk ≠ [] → doc.markdown =
    "## Index\n\n" ++ String.join doc.indexLines ++ String.join (doc.blocks.map ("\n" ++ ·))
  length_anchors : doc.anchors.length = doc.walk.length
  length_indexLines : doc.indexLines.length = doc.walk.length
  length_blocks : doc.blocks.length = doc.walk.length
  entry : ∀ (k : Nat) node, doc.walk[k]? = some node → ∃ anchor line block,
    doc.anchors[k]? = some anchor ∧ doc.indexLines[k]? = some line ∧
      doc.blocks[k]? = some block ∧ doc.LinkedEntry node anchor line block

end Documentation

/-! ## Anchors in anchors

An anchor as it stands in the document is counted in another one. There is one place where it can
begin, and from there the identifier goes up to the next quote, so the two are the same or there is
no occurrence. That identifiers have no quotes is part of their being plain. -/

namespace Anchor

theorem toList_tag (anchor : String) :
    (tag anchor).toList
      = '<' :: ("a id=\"".toList ++ anchor.toList) ++ '"' :: ['>', '<', '/', 'a', '>'] := by
  simp [tag]

theorem opening_prefix_tag (anchor : String) : opening <+: (tag anchor).toList := by
  rw [toList_tag]
  exact ⟨'"' :: anchor.toList ++ '"' :: ['>', '<', '/', 'a', '>'], by simp [opening]⟩

theorem tag_ne_nil (anchor : String) : (tag anchor).toList ≠ [] := by
  rw [toList_tag]
  exact List.cons_ne_nil _ _

theorem newline_not_mem_tag {anchor : String} (h : Plain anchor) : '\n' ∉ (tag anchor).toList := by
  have hnot : '\n' ∉ anchor.toList := h.not_mem (by decide +kernel)
  simp [toList_tag, hnot]

/-- **One anchor stands in the text of another only if they are the same.** Between its quotes a tag
has no quote, so a shorter anchor is not found at the beginning of a longer one. -/
theorem occurrences_tag {a b : String} (ha : Plain a) (hb : Plain b) :
    occurrences (tag a).toList (tag b).toList = if b = a then 1 else 0 := by
  have quote : ∀ {anchor : String}, Plain anchor → ∀ c ∈ anchor.toList, (c == '"') = false := by
    intro anchor h
    exact free_of_not_mem (h.not_mem (by decide +kernel))
  have angle : '<' ∉ "a id=\"".toList ++ b.toList ++ ['"', '>'] := by
    have hnot : '<' ∉ b.toList := hb.not_mem (by decide +kernel)
    simp [hnot]
  -- behind its first character there is only the closing tag that begins with an angle
  have later : occurrences (tag a).toList
      (("a id=\"".toList ++ b.toList ++ ['"', '>']) ++ ['<', '/', 'a', '>']) = 0 := by
    refine occurrences_eq_zero_of_prefix (opening_prefix_tag a) ?_
    rw [opening, occurrences_append_of_not_mem angle]
    decide
  have first : (tag a).toList.isPrefixOf (tag b).toList = true ↔ b = a := by
    rw [List.isPrefixOf_iff_prefix]
    constructor
    · rintro ⟨rest, h⟩
      simp only [toList_tag, List.cons_append, List.append_assoc, List.cons.injEq,
        List.append_cancel_left_eq, true_and] at h
      -- both are cut at the quote that ends the attribute
      have hcut := congrArg (firstCut (· == '"')) h
      rw [firstCut_of_mark (quote ha) rfl, firstCut_of_mark (quote hb) rfl] at hcut
      exact String.toList_injective (congrArg Cut.before (Option.some.inj hcut)).symm
    · rintro rfl
      exact List.prefix_refl _
  have split : (tag b).toList
      = '<' :: (("a id=\"".toList ++ b.toList ++ ['"', '>']) ++ ['<', '/', 'a', '>']) := by
    simp [toList_tag]
  rw [split, occurrences_cons, later, ← split]
  simp only [first, Nat.zero_add]

end Anchor

/-! ## One record

The line of a record has none of its text outside the title and the link, so it has no anchor. The
block begins with its own one, and its other paragraphs are texts of the record with words around
them. -/

namespace Record

open DocTree.Anchor

theorem angle_not_mem_name (kind : Kind) : '<' ∉ kind.name.toList := by
  cases kind <;> decide

variable {record : Record} (h : record.Unanchored)
include h

theorem Unanchored.none {text : String} (hm : text ∈ record.texts) :
    occurrences opening text.toList = 0 :=
  occurrences_eq_zero_iff.2 (h text hm)

theorem Unanchored.title : occurrences opening record.title.toList = 0 := by
  rw [Record.title]
  split
  · exact h.none (by simp [texts])
  · exact h.none (by simp [texts])

theorem Unanchored.indexLine (depth : Nat) {anchor : String} (ha : Plain anchor) :
    occurrences opening (record.indexLine depth anchor).toList = 0 := by
  have hline : (record.indexLine depth anchor).toList
      = (List.replicate (2 * depth) ' ' ++ ['*', ' ', '['])
        ++ (escapeBrackets record.title.toList
          ++ ']' :: ("(#".toList ++ anchor.toList ++ ") _".toList ++ record.kind.name.toList
            ++ "_\n".toList)) := by
    simp [Record.indexLine, indexItem, indexLink]
  have front : '<' ∉ List.replicate (2 * depth) ' ' ++ ['*', ' ', '['] := by
    simp [List.mem_replicate]
  have back : '<' ∉ "(#".toList ++ anchor.toList ++ ") _".toList ++ record.kind.name.toList
      ++ "_\n".toList := by
    have hnot : '<' ∉ anchor.toList := ha.not_mem (by decide +kernel)
    simp [hnot, angle_not_mem_name]
  rw [hline, opening, occurrences_append_of_not_mem front,
    occurrences_append_mark (by decide), occurrences_escapeBrackets (by decide) (by decide),
    occurrences_of_not_mem back]
  exact h.title

omit h in
theorem occurrences_namesParagraph {word : String} (hword : '<' ∉ word.toList)
    {names : List String} (hnames : ∀ name ∈ names, occurrences opening name.toList = 0) :
    ∀ text ∈ namesParagraph word names, occurrences opening text.toList = 0 := by
  have joined : occurrences opening (", ".intercalate names).toList = 0 := by
    induction names with
    | nil => decide
    | cons name rest ih =>
      have hname := hnames name List.mem_cons_self
      have hrest := ih fun other ho => hnames other (List.mem_cons_of_mem _ ho)
      cases rest with
      | nil => simpa using hname
      | cons other rest =>
        rw [String.intercalate_cons_cons, String.toList_append, String.toList_append,
          List.append_assoc]
        show occurrences opening (name.toList ++ ',' :: ([' '] ++ _)) = 0
        -- the comma ends the one name, and the blank does not begin an anchor with the next
        rw [occurrences_append_mark (by decide), hname, Nat.zero_add, opening,
          occurrences_append_of_not_mem (by decide)]
        exact hrest
  intro text hm
  cases names with
  | nil => cases hm
  | cons name rest =>
    cases List.mem_singleton.1 hm
    have front : '<' ∉ word.toList ++ [':', ' '] := by simp [hword]
    rw [String.toList_append, String.toList_append, opening]
    exact (occurrences_append_of_not_mem front _).trans joined

/-- A block is its anchor and paragraphs that have none. They do not depend on the anchor, so the
same list serves for whichever is looked for. -/
theorem Unanchored.exists_paragraphs : ∃ body : List String,
    (∀ anchor, record.paragraphs anchor = tag anchor :: body) ∧
      ∀ text ∈ body, occurrences opening text.toList = 0 := by
  refine ⟨_, fun anchor => by simp only [paragraphs, List.cons_append]; rfl, ?_⟩
  simp only [List.nil_append, List.forall_mem_append, List.forall_mem_cons]
  have heading : occurrences opening
      ((if record.isSection then "## " else "### ") ++ record.title).toList = 0 := by
    rw [String.toList_append, opening, occurrences_append_of_not_mem (by split <;> decide)]
    exact h.title
  have kind : ∀ text ∈ (if record.isSection then [] else ["_" ++ record.kind.name ++ "_"]),
      occurrences opening text.toList = 0 := by
    split
    · exact List.forall_mem_nil _
    · refine List.forall_mem_singleton.2 (occurrences_of_not_mem ?_)
      simp [angle_not_mem_name]
  have description : ∀ text ∈ record.longDescription, occurrences opening text.toList = 0 := by
    rw [longDescription]
    split
    · exact List.forall_mem_nil _
    · exact fun text hm => h.none (by simp_all [texts])
  have source : ∀ text ∈ record.href.toList.map fun href => "[source](" ++ href ++ ")",
      occurrences opening text.toList = 0 := by
    intro text hm
    obtain ⟨href, hhref, rfl⟩ := List.mem_map.1 hm
    have hnone : occurrences opening href.toList = 0 := h.none (by simp_all [texts])
    rw [String.toList_append, String.toList_append, List.append_assoc, opening,
      occurrences_append_of_not_mem (by decide)]
    exact (occurrences_append_mark (by decide) _ []).trans hnone
  refine ⟨heading, ⟨⟨⟨⟨kind, fun text hm => h.none (by simp_all [texts])⟩, description⟩, ?_⟩, ?_⟩,
    source⟩
  · exact occurrences_namesParagraph (by decide) fun name hn => h.none (by simp_all [texts])
  · exact occurrences_namesParagraph (by decide) fun name hn => h.none (by simp_all [texts])

omit h in
theorem occurrences_paragraphs {pattern : List Char} (hne : pattern ≠ []) (hm : '\n' ∉ pattern)
    (texts : List String) :
    occurrences pattern ("\n".intercalate (texts.map (· ++ "\n"))).toList
      = (texts.map fun text => occurrences pattern text.toList).sum := by
  have line : ∀ (text : String) (rest : List Char),
      occurrences pattern ((text ++ "\n").toList ++ rest)
        = occurrences pattern text.toList + occurrences pattern rest := by
    intro text rest
    rw [String.toList_append, List.append_assoc]
    exact occurrences_append_mark hm _ _
  induction texts with
  | nil => exact occurrences_nil hne
  | cons text texts ih =>
    cases texts with
    | nil =>
      have hline := line text []
      rw [List.append_nil, occurrences_nil hne] at hline
      simpa using hline
    | cons other texts =>
      rw [List.map_cons, List.map_cons, String.intercalate_cons_cons, String.toList_append,
        String.toList_append, List.append_assoc, line, List.map_cons, List.sum_cons, ← ih]
      exact congrArg (_ + ·) (occurrences_mark hne hm _)

/-- **The anchor of a block stands in it, and no other.** It is put in front of the texts of the
record, of which none has the beginning of a tag. -/
theorem Unanchored.block {a b : String} (ha : Plain a) (hb : Plain b) :
    occurrences (tag a).toList (record.block b).toList = if b = a then 1 else 0 := by
  obtain ⟨body, hparagraphs, hbody⟩ := h.exists_paragraphs
  have none : (body.map fun text => occurrences (tag a).toList text.toList).sum = 0 := by
    refine List.sum_eq_zero_iff_forall_eq_nat.2 fun count hc => ?_
    obtain ⟨text, hm, rfl⟩ := List.mem_map.1 hc
    exact occurrences_eq_zero_of_prefix (opening_prefix_tag a) (hbody text hm)
  rw [Record.block, hparagraphs, occurrences_paragraphs (tag_ne_nil a) (newline_not_mem_tag ha),
    List.map_cons, List.sum_cons, occurrences_tag ha hb, none, Nat.add_zero]

end Record

/-! ## The document

Header, lines and blocks all end in a line end, so the count of the document is the sum of their
counts. All but one of the summands for an anchor are zero. -/

namespace Documentation

open DocTree.Anchor

theorem newline_suffix_indexLine (record : Record) (depth : Nat) (anchor : String) :
    ['\n'] <:+ (record.indexLine depth anchor).toList := by
  simp only [Record.indexLine, String.toList_append]
  exact ⟨_, List.append_assoc _ ['_'] ['\n']⟩

theorem newline_suffix_block (record : Record) (anchor : String) :
    ['\n'] <:+ (record.block anchor).toList := by
  have last : ∀ (text : String) (texts : List String),
      ['\n'] <:+ ("\n".intercalate ((text :: texts).map (· ++ "\n"))).toList := by
    intro text texts
    induction texts generalizing text with
    | nil => simp
    | cons other texts ih =>
      rw [List.map_cons, List.map_cons, String.intercalate_cons_cons, String.toList_append]
      exact (ih other).trans (List.suffix_append _ _)
  exact last _ _

variable (doc : Documentation)

theorem length_anchors : doc.anchors.length = doc.walkRecords.length := by
  rw [anchors, length_assign, List.length_map]

variable {doc}

theorem plain_of_mem_anchors {anchor : String} (h : anchor ∈ doc.anchors) : Plain anchor :=
  plain_of_mem_assignFrom h

theorem sum_blocks {entries : List (Nat × Record)} {anchors : List String} {a : String}
    (ha : Plain a) (plain : ∀ b ∈ anchors, Plain b) (same : anchors.length = entries.length)
    (unanchored : ∀ entry ∈ entries, entry.2.Unanchored) :
    ((entries.zipWith (fun entry b => entry.2.block b) anchors).map fun block =>
      occurrences (tag a).toList ('\n' :: block.toList)).sum = anchors.count a := by
  induction entries generalizing anchors with
  | nil =>
    rw [List.eq_nil_of_length_eq_zero same]
    rfl
  | cons entry entries ih =>
    cases anchors with
    | nil => cases same
    | cons b anchors =>
      have hrest := ih (fun c hc => plain c (List.mem_cons_of_mem _ hc)) (Nat.succ.inj same)
        fun other ho => unanchored other (List.mem_cons_of_mem _ ho)
      have hfirst := (unanchored entry List.mem_cons_self).block ha (plain b List.mem_cons_self)
      rw [List.zipWith_cons_cons, List.map_cons, List.sum_cons, hrest,
        occurrences_mark (tag_ne_nil a) (newline_not_mem_tag ha), hfirst, List.count_cons,
        Nat.add_comm]
      simp only [beq_iff_eq]

/-- **Each anchor stands in the document as often as a block has it.** The index refers to anchors
without writing their tags, and from one block to the next no tag can reach. -/
theorem occurrences_markdown (unanchored : ∀ entry ∈ doc.walkRecords, entry.2.Unanchored)
    {a : String} (ha : Plain a) :
    occurrences (tag a).toList doc.markdown.toList = doc.anchors.count a := by
  rw [markdown]
  split
  case isTrue empty =>
    have none := length_anchors doc
    rw [List.isEmpty_iff.1 empty] at none
    rw [List.eq_nil_of_length_eq_zero none]
    exact occurrences_nil (tag_ne_nil a)
  case isFalse =>
    -- the index and the blocks as one list of texts that end their lines
    have split : ("## Index\n\n" ++ String.join doc.indexLines
          ++ String.join (doc.blocks.map ("\n" ++ ·))).toList
        = "## Index\n\n".toList ++ (doc.indexLines.map String.toList
          ++ doc.blocks.map fun block => '\n' :: block.toList).flatten := by
      simp [String.toList_join, List.flatMap_def, Function.comp_def]
    have ends : ∀ text ∈ doc.indexLines.map String.toList
        ++ doc.blocks.map fun block => '\n' :: block.toList, ['\n'] <:+ text := by
      intro text ht
      rcases List.mem_append.1 ht with ht | ht
      · obtain ⟨line, hl, rfl⟩ := List.mem_map.1 ht
        obtain ⟨k, hk, rfl⟩ := List.mem_iff_getElem.1 hl
        simp only [indexLines, List.getElem_zipWith]
        exact newline_suffix_indexLine _ _ _
      · obtain ⟨block, hb, rfl⟩ := List.mem_map.1 ht
        obtain ⟨k, hk, rfl⟩ := List.mem_iff_getElem.1 hb
        simp only [blocks, List.getElem_zipWith]
        exact (newline_suffix_block _ _).trans (List.suffix_cons _ _)
    have lines : (doc.indexLines.map fun line => occurrences (tag a).toList line.toList).sum
        = 0 := by
      refine List.sum_eq_zero_iff_forall_eq_nat.2 fun count hc => ?_
      obtain ⟨line, hl, rfl⟩ := List.mem_map.1 hc
      obtain ⟨k, hk, rfl⟩ := List.mem_iff_getElem.1 hl
      simp only [indexLines, List.getElem_zipWith]
      exact occurrences_eq_zero_of_prefix (opening_prefix_tag a)
        ((unanchored _ (List.getElem_mem _)).indexLine _
          (plain_of_mem_anchors (List.getElem_mem _)))
    have header : occurrences (tag a).toList "## Index\n\n".toList = 0 :=
      occurrences_eq_zero_of_prefix (opening_prefix_tag a) (by decide)
    have headed : ['\n'] <:+ "## Index\n\n".toList := by decide
    have hne := tag_ne_nil a
    have hm := newline_not_mem_tag ha
    rw [split, occurrences_append_of_suffix hne hm headed, header, Nat.zero_add,
      occurrences_flatten hne hm ends, List.map_append, List.sum_append, List.map_map,
      List.map_map]
    refine (congrArg (· + _) lines).trans ((Nat.zero_add _).trans ?_)
    exact sum_blocks ha (fun b hb => plain_of_mem_anchors hb) (length_anchors doc) unanchored

section Walk

variable (options : Options) (files : List SourceFile)

theorem isSome_record_of_mem_walk {node : Nat × Nat} (h : node ∈ (ofFiles options files).walk) :
    (((ofFiles options files).record? node.2).map fun record => (node.1, record)).isSome = true := by
  obtain ⟨hlt, -⟩ := (Assembly.mem_walk_iff options files).1 (List.mem_map_of_mem h)
  rw [record?, Array.getElem?_eq_getElem hlt]
  rfl

theorem length_walkRecords :
    (ofFiles options files).walkRecords.length = (ofFiles options files).walk.length :=
  List.filterMap_length_eq_length.2 fun _ h => isSome_record_of_mem_walk options files h

theorem exists_walkRecord {k : Nat} {node : Nat × Nat}
    (h : (ofFiles options files).walk[k]? = some node) :
    ∃ record, (ofFiles options files).record? node.2 = some record ∧
      (ofFiles options files).walkRecords[k]? = some (node.1, record) := by
  have hrecord := Forest.getElem?_filterMap_of_isSome
    (fun _ => isSome_record_of_mem_walk options files) k
  rw [h] at hrecord
  obtain ⟨entry, he⟩ := Option.isSome_iff_exists.1
    (isSome_record_of_mem_walk options files (List.mem_of_getElem? h))
  obtain ⟨record, hr, rfl⟩ := Option.map_eq_some_iff.1 he
  exact ⟨record, hr, hrecord.trans he⟩

/-- **The links of an index resolve**: the `k`-th item, the `k`-th block and the `k`-th node go
together, and the anchor to which the item links stands in the document once. -/
theorem indexLinks_ofFiles
    (unanchored : ∀ entry ∈ (ofFiles options files).walkRecords, entry.2.Unanchored) :
    (ofFiles options files).IndexLinks := by
  have length := length_walkRecords options files
  have anchors := (length_anchors (ofFiles options files)).trans length
  constructor
  case without_nodes =>
    intro none
    rw [none] at length
    rw [markdown, List.eq_nil_of_length_eq_zero length]
    rfl
  case with_nodes =>
    intro some
    refine if_neg fun empty => ?_
    rw [List.isEmpty_iff.1 empty] at length
    exact some (List.eq_nil_of_length_eq_zero length.symm)
  case length_anchors => exact anchors
  case length_indexLines => rw [indexLines, List.length_zipWith, length, anchors, Nat.min_self]
  case length_blocks => rw [blocks, List.length_zipWith, length, anchors, Nat.min_self]
  case entry =>
    intro k node hnode
    obtain ⟨record, hrecord, hwalk⟩ := exists_walkRecord options files hnode
    obtain ⟨hk, -⟩ := List.getElem?_eq_some_iff.1 hnode
    obtain ⟨anchor, ha⟩ : ∃ anchor, (ofFiles options files).anchors[k]? = some anchor :=
      ⟨_, List.getElem?_eq_getElem (anchors ▸ hk)⟩
    have hmem := List.mem_of_getElem? ha
    refine ⟨anchor, record.indexLine node.1 anchor, record.block anchor, ha, ?_, ?_, ?_⟩
    · rw [indexLines, List.getElem?_zipWith, hwalk, ha]
    · rw [blocks, List.getElem?_zipWith, hwalk, ha]
    constructor
    case record => exact ⟨record, hrecord, rfl, rfl⟩
    case link =>
      refine ⟨String.ofList (List.replicate (2 * node.1) ' ') ++ "* " ++ "["
        ++ String.ofList (escapeBrackets record.title.toList), " _" ++ record.kind.name ++ "_\n", ?_⟩
      simp only [Record.indexLine, indexItem, indexLink, String.append_assoc]
    case target =>
      simp only [Record.block, Record.paragraphs, List.cons_append, List.map_cons,
        String.intercalate_cons_cons, tag, String.append_assoc]
      exact ⟨_, rfl⟩
    case plain => exact plain_of_mem_anchors hmem
    case once =>
      rw [occurrences_markdown unanchored (plain_of_mem_anchors hmem)]
      exact List.count_eq_one_of_mem (nodup_assign _) hmem

end Walk

def casedFiles : List SourceFile :=
  [SourceFile.ofRecords "sections.json"
    [RawRecord.brief "DOM" .sectionKind none, RawRecord.brief "Dom" .sectionKind none,
     RawRecord.brief "Dom-1" .sectionKind none]]

theorem order_casedFiles :
    (Listing.merge Options.plain casedFiles).inferSections.canonicalOrder
      = ["", "DOM", "Dom", "Dom-1"] := by
  have keys : (Listing.merge Options.plain casedFiles).inferSections.keys
      = ["", "DOM", "Dom", "Dom-1"] := by decide +kernel
  exact Listing.canonicalOrder_eq (.of_eq keys) (by decide +kernel)

theorem indexLinks_casedFiles :
    (ofFiles Options.plain casedFiles).anchors = ["dom", "dom-1", "dom-1-1"] ∧
      (∀ entry ∈ (ofFiles Options.plain casedFiles).walkRecords, entry.2.Unanchored) ∧
      (ofFiles Options.plain casedFiles).IndexLinks := by
  have unanchored :
      ∀ entry ∈ (ofFiles Options.plain casedFiles).walkRecords, entry.2.Unanchored := by
    rw [Listing.ofFiles_of_order order_casedFiles]
    decide +kernel
  have anchors : (ofFiles Options.plain casedFiles).anchors = ["dom", "dom-1", "dom-1-1"] := by
    rw [Listing.ofFiles_of_order order_casedFiles]
    decide +kernel
  exact ⟨anchors, unanchored, indexLinks_ofFiles Options.plain casedFiles unanchored⟩

end Documentation

end DocTree
