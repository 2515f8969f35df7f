import DocTree.Proofs.Families

/-!
# Where documented symbols nest

The parent of a symbol is named by its identifier as the comments gave it, although the tree is made
from keys in which a section stands in front and may have been put there by inference. The two agree
because a symbol and its parent begin with the same segment, so they stand behind the same front
(`IsFront.unique`), and the key of the one names that of the other. A symbol without a parent hangs
on its front: on the section of its family, or on the nameless one, which gives it a place at the
top level.

The sections that sections carry do not count: a section stands under its own identifier, whatever
it carries.

So the whole description of a place (`Nests`) is in terms of what the files document: parents by
identifiers, sections by families. The keys of the listing, which the tree is made from, occur in
the proof only. They are held in one predicate (`ShowsSymbol`): a node shows a symbol behind a
front, and the front is that of the family. Each case of a place is then one lemma about it.

A front without a record of its own is the case that is easily overlooked. A symbol may carry a
section that nothing documents; its key has a parent that is not in the listing, and so it comes to
the top level, like one whose parent is not documented.

A node is the only one for its identifier because both conditions on the files hold. Without them
the same identifier could stand behind two fronts.
-/

set_option autoImplicit false

namespace DocTree

/-! ## Nodes

Symbols are recognised by the key under which they are listed, and sections by their names, since
the list has no sections. -/

namespace Documentation

/-- Whether node `n` is reached and shows a symbol, listed under `id`. It need not be the node that
the list has there, which is why it is asked of the node. -/
def SymbolNode (doc : Documentation) (n : Nat) (id : String) : Prop :=
  n ∈ doc.walk.map Prod.snd ∧
    ∃ node, doc.nodes[n]? = some node ∧ node.record.isSection = false ∧ node.key = id

/-- Whether node `n` is reached and shows the section named `s`. Names keep the case of a section's
identifier, so sections that differ in case alone are told apart. -/
def SectionNode (doc : Documentation) (n : Nat) (s : String) : Prop :=
  n ∈ doc.walk.map Prod.snd ∧
    ∃ node, doc.nodes[n]? = some node ∧ node.record.isSection = true ∧ node.record.name = s

end Documentation

/-- Node `n` is the node of the documented symbol `id`, in its place: under its parent where that is
documented, under the section of its family where that has a record, else at the top level. -/
structure Nests (files : List SourceFile) (doc : Documentation) (id : String) (n : Nat) : Prop where
  node : doc.SymbolNode n id
  only : ∀ m, doc.SymbolNode m id → m = n
  listed : doc.lookup id = some n
  under_parent : ∀ parent, Ident.parentKey id = some parent → Documented files parent →
    ∃ p, doc.SymbolNode p parent ∧ n ∈ doc.children p
  orphan : ∀ parent, Ident.parentKey id = some parent → ¬ Documented files parent →
    n ∈ doc.topLevel
  under_section : Ident.Plain id → ∀ s, FamilySection files id s → SectionRecord files s →
    ∃ p, doc.SectionNode p s ∧ (∀ q, doc.SectionNode q s → q = p) ∧ n ∈ doc.children p
  sectionless : Ident.Plain id → (∀ s, FamilySection files id s → ¬ SectionRecord files s) →
    n ∈ doc.topLevel

namespace Listing

/-! ## Nodes and entries

Which nodes show symbols and sections, and of which entries. A plain key has a section under it and
a key with a point has a symbol; this decides in each case what the parent in the forest is. -/

/-- Node `n` shows the symbol `id` behind `front`, the front of its family. The front is the section
that the family has, if it has one, also where nothing documents that. -/
structure ShowsSymbol (options : Options) (files : List SourceFile) (n : Nat) (id front : String) :
    Prop where
  isFront : IsFront files (Ident.firstSegment id) front
  entry : ∃ record, Shows (merge options files).inferSections n (Ident.qualify (some front) id)
    record ∧ record.isSection = false

section Nodes

variable {options : Options} {files : List SourceFile}

theorem ShowsSymbol.number_unique {n m : Nat} {id front : String}
    (h : ShowsSymbol options files n id front) (h' : ShowsSymbol options files m id front) :
    n = m := by
  obtain ⟨_, hn, -⟩ := h.entry
  obtain ⟨_, hm, -⟩ := h'.entry
  exact hn.number_unique hm

theorem Shows.symbolNode {n : Nat} {key : String} {record : Record}
    (h : Shows (merge options files).inferSections n key record)
    (hsection : record.isSection = false) :
    (Documentation.ofFiles options files).SymbolNode n (Ident.stripSection key) := by
  have labelled := labelled_resolved options files
  obtain ⟨node, hnode, hkey, hkind, -⟩ := h.fixed labelled
  refine ⟨(mem_walk_iff labelled).2 ⟨_, _, h⟩, node, hnode, hkind.trans hsection, ?_⟩
  rw [hkey, settled_id labelled h.entry hsection]

theorem exists_shows_of_symbolNode {n : Nat} {id : String}
    (h : (Documentation.ofFiles options files).SymbolNode n id) :
    ∃ key record, Shows (merge options files).inferSections n key record ∧
      record.isSection = false ∧ Ident.stripSection key = id := by
  have labelled := labelled_resolved options files
  obtain ⟨hwalk, node, hnode, hsection, rfl⟩ := h
  obtain ⟨key, record, hn⟩ := (mem_walk_iff labelled).1 hwalk
  obtain ⟨other, hother, hkey, hkind, -⟩ := hn.fixed labelled
  cases Option.some.inj (hnode.symm.trans hother)
  have hrecord := hkind.symm.trans hsection
  exact ⟨key, record, hn, hrecord, by rw [hkey, settled_id labelled hn.entry hrecord]⟩

/-- Under a key without separators stands a section, the nameless one or one of a file. Symbols have
the point that was put in front of their identifier. -/
theorem section_of_plain_key {s : String} {record : Record} (hs : Ident.Plain s)
    (h : (merge options files).inferSections.get? s = some record) :
    record.isSection = true ∧ (s = "" ∨ SectionRecord files s) := by
  have no_symbol : ∀ {front id : String}, s ≠ Ident.qualify (some front) id := by
    rintro front id rfl
    exact hs.point_not_mem (point_mem_qualify front id)
  rcases inferSections_cases h with ⟨-, hr⟩ | ⟨key, t, -, moves, -, rfl, -⟩
  · rcases merge_cases hr with ⟨rfl, rfl⟩ | ⟨source, hm, hk, rfl, rfl⟩ | ⟨_, _, id, _, hkey, _⟩
    · exact ⟨rfl, Or.inl rfl⟩
    · exact ⟨beq_iff_eq.2 hk, Or.inr ⟨source, hm, hk, rfl⟩⟩
    · exact absurd hkey no_symbol
  · -- a key that was moved has the separator it began with
    obtain ⟨mark, rest, hmark, hkey⟩ := lacksSection_iff.1 moves.lacks
    refine absurd ?_ (hs.not_mem_of_separator hmark)
    rw [String.toList_append, hkey]
    exact List.mem_append_right _ List.mem_cons_self

theorem section_mem_keys (options : Options) {s : String} (h : SectionRecord files s)
    (hs : Ident.Plain s) : s ∈ (merge options files).inferSections.keys := by
  obtain ⟨source, hm, hk, rfl⟩ := h
  rcases mem_keys_inferSections (section_mem_keys_merge options hm hk) with
    ⟨t, moves, -⟩ | ⟨-, hkey⟩
  · have hlacks := moves.lacks
    rw [not_lacksSection_of_plain hs] at hlacks
    cases hlacks
  · exact hkey

theorem Shows.sectionNode {n : Nat} {s : String} {record : Record}
    (h : Shows (merge options files).inferSections n s record) (hs : Ident.Plain s)
    (hsection : record.isSection = true) :
    ∃ node, (Documentation.ofFiles options files).nodes[n]? = some node ∧
      node.record.isSection = true ∧ node.record.name = s ∧ node.record.id = Text.lower s := by
  have labelled := labelled_resolved options files
  have documented : Ident.stripSection record.id = s := by
    rw [labelled _ _ h.entry, Ident.stripSection_of_no_point hs.point_not_mem]
  obtain ⟨node, hnode, -, hkind, hname, -⟩ := h.fixed labelled
  obtain ⟨other, hother, hshape⟩ := h.shape labelled
  cases Option.some.inj (hnode.symm.trans hother)
  have hid := congrArg (fun shape => shape.2.1) hshape
  refine ⟨node, hnode, hkind.trans hsection, hname.trans ?_, hid.trans ?_⟩
  · rw [Record.settled]
    dsimp only
    rw [documented, Ident.localName_of_plain hs]
  · have hsettled : record.settled.isSection = true := hsection
    rw [Record.shown_of_section hsettled, Record.shape, Record.settled]
    dsimp only
    rw [if_pos hsection, documented]

variable (plain : PlainSections files)
include plain

theorem exists_showsSymbol (options : Options) {id : String} (h : Documented files id) :
    ∃ n front, ShowsSymbol options files n id front := by
  obtain ⟨source, hs, hd⟩ := h
  obtain ⟨front, n, record, hf, hn, hsection⟩ :=
    exists_shows_of_documents options plain.pointFree hs hd
  exact ⟨n, front, hf.isFront plain hs hd, record, hn, hsection⟩

theorem Shows.showsSymbol {n : Nat} {key : String} {record : Record}
    (h : Shows (merge options files).inferSections n key record)
    (hsection : record.isSection = false) :
    ∃ front, ShowsSymbol options files n (Ident.stripSection key) front ∧
      Documented files (Ident.stripSection key) := by
  obtain ⟨source, hs, id, front, hd, hf, hpoint, rfl, -⟩ := h.origin plain.pointFree hsection
  rw [Ident.stripSection_qualify hpoint]
  exact ⟨front, ⟨hf.isFront plain hs hd, record, h, hsection⟩, source, hs, hd⟩

theorem ShowsSymbol.symbolNode {n : Nat} {id front : String}
    (h : ShowsSymbol options files n id front) :
    (Documentation.ofFiles options files).SymbolNode n id := by
  obtain ⟨record, hn, hsection⟩ := h.entry
  have hnode := hn.symbolNode hsection
  rwa [Ident.stripSection_qualify (h.isFront.plain plain).point_not_mem] at hnode

theorem showsSymbol_of_symbolNode {n : Nat} {id : String}
    (h : (Documentation.ofFiles options files).SymbolNode n id) :
    ∃ front, ShowsSymbol options files n id front := by
  obtain ⟨key, record, hn, hsection, rfl⟩ := exists_shows_of_symbolNode h
  obtain ⟨front, hshows, -⟩ := hn.showsSymbol plain hsection
  exact ⟨front, hshows⟩

/-! ## Sections

A section with a plain identifier is neither moved nor cut, so its name says its key. -/

theorem exists_sectionNode (options : Options) {s : String} (h : SectionRecord files s)
    (hne : s ≠ "") :
    ∃ n record, Shows (merge options files).inferSections n s record ∧
      (Documentation.ofFiles options files).SectionNode n s := by
  have hs := h.plain plain
  obtain ⟨record, hr⟩ := Catalog.mem_keys_iff_exists.1 (section_mem_keys options h hs)
  obtain ⟨hsection, -⟩ := section_of_plain_key hs hr
  obtain ⟨n, hn⟩ := exists_shows hr fun hnl => hne hnl.2
  obtain ⟨node, hnode, hkind, hname, -⟩ := hn.sectionNode hs hsection
  exact ⟨n, record, hn, (mem_walk_iff (labelled_resolved options files)).2 ⟨_, _, hn⟩, node, hnode,
    hkind, hname⟩

theorem plain_of_merged_section {key : String} {record : Record}
    (h : (merge options files).get? key = some record) (hsection : record.isSection = true) :
    Ident.Plain key := by
  rcases merge_cases h with ⟨rfl, -⟩ | ⟨source, hm, hk, rfl, -⟩ | ⟨source, -, id, hd, -, rfl⟩
  · exact Ident.plain_empty
  · exact (plain source hm).1 hk
  · have hno := isSection_ofRaw hd.not_section (options.href source.1 source.2.line)
    exact absurd hsection (Bool.eq_false_iff.1 hno)

theorem shows_of_sectionNode {n : Nat} {s : String}
    (h : (Documentation.ofFiles options files).SectionNode n s) :
    ∃ record, Shows (merge options files).inferSections n s record := by
  have labelled := labelled_resolved options files
  obtain ⟨hwalk, node, hnode, hsection, hname⟩ := h
  obtain ⟨key, record, hn⟩ := (mem_walk_iff labelled).1 hwalk
  obtain ⟨other, hother, -, hkind, hsettled, -⟩ := hn.fixed labelled
  cases Option.some.inj (hnode.symm.trans hother)
  have hrecord := hkind.symm.trans hsection
  have hkey : Ident.Plain key := by
    rcases inferSections_cases hn.entry with ⟨-, hr⟩ | ⟨first, t, kept, moves, hr, -, rfl⟩
    · exact plain_of_merged_section plain hr hrecord
    · have hlacks := moves.lacks
      rw [not_lacksSection_of_plain (plain_of_merged_section plain hr hrecord)] at hlacks
      cases hlacks
  rw [hname, Record.settled] at hsettled
  dsimp only at hsettled
  rw [labelled _ _ hn.entry, Ident.stripSection_of_no_point hkey.point_not_mem,
    Ident.localName_of_plain hkey] at hsettled
  exact ⟨record, hsettled ▸ hn⟩

/-! ## Places

The parent of a qualified key is found by cases on the identifier: it has a parent of its own, and
then the front goes over to it, or it has none, and then the front is what is left. -/

theorem ShowsSymbol.lookup (one : OneSectionPerFamily files) {n : Nat} {id front : String}
    (h : ShowsSymbol options files n id front) :
    (Documentation.ofFiles options files).lookup id = some n := by
  have labelled := labelled_resolved options files
  obtain ⟨record, hn, hsection⟩ := h.entry
  obtain ⟨m, hm⟩ := hn.lookup labelled hsection
  rw [Ident.stripSection_qualify (h.isFront.plain plain).point_not_mem] at hm
  obtain ⟨key, other, hother, hkind, rfl⟩ := shows_of_lookup labelled hm
  obtain ⟨front', h', -⟩ := hother.showsSymbol plain hkind
  cases h.isFront.unique one h'.isFront
  cases h.number_unique h'
  exact hm

theorem ShowsSymbol.under_parent (one : OneSectionPerFamily files) {n p : Nat}
    {id parent front other : String} (h : ShowsSymbol options files n id front)
    (hp : ShowsSymbol options files p parent other) (hkey : Ident.parentKey id = some parent) :
    n ∈ (Documentation.ofFiles options files).children p := by
  have same := hp.isFront
  rw [Ident.firstSegment_parentKey hkey] at same
  cases h.isFront.unique one same
  obtain ⟨record, hn, -⟩ := h.entry
  obtain ⟨kept, hm, -⟩ := hp.entry
  exact hn.mem_children (labelled_resolved options files) hm
    (Ident.parentKey_qualify_of_some (h.isFront.plain plain) hkey)

theorem ShowsSymbol.orphan {n : Nat} {id parent front : String}
    (h : ShowsSymbol options files n id front) (hkey : Ident.parentKey id = some parent)
    (undocumented : ¬ Documented files parent) :
    n ∈ (Documentation.ofFiles options files).topLevel := by
  obtain ⟨record, hn, -⟩ := h.entry
  have hplain := h.isFront.plain plain
  refine hn.mem_topLevel (labelled_resolved options files) fun key hk other ho => ?_
  rw [Ident.parentKey_qualify_of_some hplain hkey] at hk
  -- under the key of the parent no section stands, and a symbol there would be the parent
  cases hk
  rcases inferSections_origin plain.pointFree ho with ⟨-, hno⟩ | ⟨source, hs, id', f, hd, hf, he, -⟩
  · exact absurd (point_mem_qualify front parent) hno
  · obtain ⟨-, rfl⟩ := Ident.qualify_inj hplain.point_not_mem
      (hf.point_not_mem (plain.pointFree.sectionText hs)) he
    exact absurd ⟨source, hs, hd⟩ undocumented

theorem ShowsSymbol.parentKey {n : Nat} {id front : String}
    (h : ShowsSymbol options files n id front) (hid : Ident.Plain id) :
    Ident.parentKey (Ident.qualify (some front) id) = some front :=
  Ident.parentKey_qualify_of_plain (h.isFront.plain plain) hid

theorem ShowsSymbol.under_section (one : OneSectionPerFamily files) {n : Nat}
    {id front s : String} (h : ShowsSymbol options files n id front) (hid : Ident.Plain id)
    (hs : FamilySection files id s) (hrecord : SectionRecord files s) :
    ∃ p, (Documentation.ofFiles options files).SectionNode p s ∧
      (∀ q, (Documentation.ofFiles options files).SectionNode q s → q = p) ∧
      n ∈ (Documentation.ofFiles options files).children p := by
  have hfront := h.isFront
  rw [Ident.firstSegment_of_plain hid] at hfront
  cases hfront.unique one (Or.inl hs)
  obtain ⟨record, hn, -⟩ := h.entry
  obtain ⟨p, other, hp, hnode⟩ :=
    exists_sectionNode plain options hrecord hs.ne_empty
  refine ⟨p, hnode, fun q hq => ?_,
    hn.mem_children (labelled_resolved options files) hp (h.parentKey plain hid)⟩
  obtain ⟨_, hshows⟩ := shows_of_sectionNode plain hq
  exact hshows.number_unique hp

theorem ShowsSymbol.sectionless {n : Nat} {id front : String}
    (h : ShowsSymbol options files n id front) (hid : Ident.Plain id)
    (none : ∀ s, FamilySection files id s → ¬ SectionRecord files s) :
    n ∈ (Documentation.ofFiles options files).topLevel := by
  have hfront := h.isFront
  rw [Ident.firstSegment_of_plain hid] at hfront
  obtain ⟨record, hn, -⟩ := h.entry
  refine hn.mem_topLevel (labelled_resolved options files) fun key hk other ho => ?_
  rw [h.parentKey plain hid] at hk
  cases hk
  obtain ⟨hsection, hname⟩ := section_of_plain_key (h.isFront.plain plain) ho
  refine ⟨hsection, ?_⟩
  rcases hfront with hs | ⟨hempty, -⟩
  · exact hname.resolve_right (none _ hs)
  · exact hempty

/-- Behind an empty front no section is above a symbol without a parent. Its key names the nameless
section for a parent, and that is not shown. -/
theorem ShowsSymbol.no_section_above {n p : Nat} {id s : String}
    (h : ShowsSymbol options files n id "") (hid : Ident.Plain id)
    (hp : (Documentation.ofFiles options files).SectionNode p s) :
    n ∉ (Documentation.ofFiles options files).children p := by
  intro hc
  have labelled := labelled_resolved options files
  obtain ⟨_, hn, -⟩ := h.entry
  obtain ⟨parent, hkey, hnumber⟩ := hn.exists_parent labelled hc
  rw [h.parentKey plain hid] at hkey
  cases hkey
  -- the node above is the nameless section, and that is not reached
  obtain ⟨hwalk, node, hnode, hsection, -⟩ := hp
  obtain ⟨key, record, hshows⟩ := (mem_walk_iff labelled).1 hwalk
  obtain ⟨other, hother, -, hkind, -⟩ := hshows.fixed labelled
  cases Option.some.inj (hnode.symm.trans hother)
  exact hshows.named ⟨hkind.symm.trans hsection,
    Option.some.inj (hshows.number.symm.trans hnumber)⟩

end Nodes

end Listing

/-! ## The finished documentation

The cases of a place, put together. Below are files in which a section is lent within a family, and
some in which a section carries one, which nobody gets. -/

/-- **Every documented symbol has one node, in the place that its identifier says.** The front of
its family is found first; the entry behind that front has a node, and the parent of its key decides
where that stands. -/
theorem Documentation.exists_nests (options : Options) {files : List SourceFile}
    (plain : PlainSections files) (one : OneSectionPerFamily files) {id : String}
    (documented : Documented files id) :
    ∃ n, Nests files (Documentation.ofFiles options files) id n := by
  obtain ⟨n, front, h⟩ := Listing.exists_showsSymbol plain options documented
  refine ⟨n, ?_⟩
  constructor
  case node => exact h.symbolNode plain
  case only =>
    intro m hm
    obtain ⟨other, h'⟩ := Listing.showsSymbol_of_symbolNode plain hm
    cases h.isFront.unique one h'.isFront
    exact h'.number_unique h
  case listed => exact h.lookup plain one
  case under_parent =>
    intro parent hkey hparent
    obtain ⟨p, other, hp⟩ := Listing.exists_showsSymbol plain options hparent
    exact ⟨p, hp.symbolNode plain, h.under_parent plain one hp hkey⟩
  case orphan => exact fun parent hkey hparent => h.orphan plain hkey hparent
  case under_section => exact fun hid s hs hrecord => h.under_section plain one hid hs hrecord
  case sectionless => exact fun hid none => h.sectionless plain hid none

/-- A family whose section only one of its symbols carries, and a symbol without its parent. -/
def familyFiles : List SourceFile :=
  [SourceFile.ofRecords "ajax.json"
    [RawRecord.brief "Ajax" .namespaceKind none, RawRecord.brief "Utilities" .sectionKind none,
     RawRecord.brief "Ajax.Updater" .classKind (some "Utilities")],
   SourceFile.ofRecords "dom.json" [RawRecord.brief "Element#update" .method (some "DOM")]]

theorem Documentation.exists_nests_familyFiles :
    PlainSections familyFiles ∧ OneSectionPerFamily familyFiles ∧ Documented familyFiles "Ajax" ∧
      ∃ n, Nests familyFiles (Documentation.ofFiles Options.plain familyFiles) "Ajax" n := by
  have documented : Documented familyFiles "Ajax" :=
    ⟨("ajax.json", RawRecord.brief "Ajax" .namespaceKind none),
      List.mem_of_getElem? (i := 0) rfl, Or.inl ⟨by decide, rfl⟩⟩
  exact ⟨by decide, by decide, documented,
    Documentation.exists_nests Options.plain (by decide) (by decide) documented⟩

/-- A section that carries a section, and a symbol of the same name that carries none. -/
def sectionedSectionFiles : List SourceFile :=
  [SourceFile.ofRecords "sections.json"
    [RawRecord.brief "Lib" .sectionKind none, RawRecord.brief "Ajax" .sectionKind (some "Lib")],
   SourceFile.ofRecords "ajax.json" [RawRecord.brief "Ajax" .classKind none]]

/-- **The section that a section carries is ignored**: it gives no place to the symbols that begin
with its name. -/
theorem Documentation.section_of_section_ignored :
    PlainSections sectionedSectionFiles ∧ OneSectionPerFamily sectionedSectionFiles ∧
      Documented sectionedSectionFiles "Ajax" ∧ Ident.Plain "Ajax" ∧
      (∃ source ∈ sourceRecords sectionedSectionFiles,
        source.2.sectionText = "Lib" ∧ Ident.firstSegment source.2.id = "Ajax") ∧
      SectionRecord sectionedSectionFiles "Lib" ∧
      ∀ n p, (Documentation.ofFiles Options.plain sectionedSectionFiles).SymbolNode n "Ajax" →
        (Documentation.ofFiles Options.plain sectionedSectionFiles).SectionNode p "Lib" →
          n ∉ (Documentation.ofFiles Options.plain sectionedSectionFiles).children p := by
  have plain : PlainSections sectionedSectionFiles := by decide
  have bare : ∀ source ∈ sourceRecords sectionedSectionFiles,
      source.2.kind ≠ .sectionKind → source.2.sectionText = "" := by decide
  refine ⟨plain, by decide, ?_, by decide, ?_, ?_, ?_⟩
  · exact ⟨("ajax.json", RawRecord.brief "Ajax" .classKind none),
      List.mem_of_getElem? (i := 2) rfl, Or.inl ⟨by decide, rfl⟩⟩
  · exact ⟨("sections.json", RawRecord.brief "Ajax" .sectionKind (some "Lib")),
      List.mem_of_getElem? (i := 1) rfl, rfl, by decide⟩
  · exact ⟨("sections.json", RawRecord.brief "Lib" .sectionKind none),
      List.mem_of_getElem? (i := 0) rfl, rfl, rfl⟩
  · intro n p hn hp
    obtain ⟨front, h⟩ := Listing.showsSymbol_of_symbolNode plain hn
    rcases h.isFront with ⟨source, hm, hk, rfl, hne, -⟩ | ⟨rfl, -⟩
    · exact absurd (bare source hm hk) hne
    · exact h.no_section_above plain (by decide) hp

end DocTree
