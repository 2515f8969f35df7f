import DocTree.Proofs.DocumentedSymbols

/-!
# What becomes of documented names

Finishing takes the section off a key by cutting at the first point, whatever the section was. That
undoes the qualification of a symbol exactly when its section has no point: of a section such as
`Lib 1.0` only `Lib 1` goes, and the rest stays in front of the identifier. A section stands under
its own identifier, with nothing to take off, and is cut all the same; then the part after its last
separator is taken for its name. So it keeps its name exactly when that has no separator.

An inferred section makes no difference to either. It is the first segment of a key, so it has no
separator, and it is taken off with what stands behind it (`Front.stripSection`): the outcome
depends on the record's own section alone, although the key does not.

No condition on the files is made. Instead the conditions come out, as equivalences in the
structures below, and with them what happens where they fail: the key is then the identifier behind
the rest of its section, and never the identifier itself, since the rest ends in a point
(`qualify_ne_self`). An implication in one direction would leave open whether names with points
might survive by luck.

The files at the end show the failing case. A class in the section `Lib 1.0` is listed as `0.Foo`,
while the record that documents it says `Foo`, and so do the links and bounds that were written from
it.
-/

set_option autoImplicit false

namespace DocTree

/-! ## The statement

A node stands for a record of the files, and through its content it is pinned to that one record.
What it is listed under is then compared with what the record documents. -/

/-- What the node of the symbol `id`, which a record of the files documents, is listed under, and
for which sections that is the documented identifier itself. -/
structure SymbolNamed (options : Options) (doc : Documentation) (source : String × RawRecord)
    (id : String) (node : Node) : Prop where
  documents : source.2.Documents id
  content : node.record.content = source.2.content (options.href source.1 source.2.line)
  listed : ∃ m, doc.lookup node.key = some m
  key_eq : node.key =
    if '.' ∈ source.2.sectionText.toList then
      Ident.qualify (some (Ident.stripSection source.2.sectionText)) id
    else id
  key_eq_iff : node.key = id ↔ '.' ∉ source.2.sectionText.toList

/-- What the node of a section of the files is named. Only sections of one segment keep their
identifier for a name. -/
structure SectionNamed (options : Options) (source : String × RawRecord) (node : Node) :
    Prop where
  kind : source.2.kind = .sectionKind
  nonempty : source.2.id ≠ ""
  content : node.record.content = source.2.content (options.href source.1 source.2.line)
  name_eq_iff : node.record.name = source.2.id ↔ Ident.Plain source.2.id

theorem Record.name_settled (record : Record) :
    record.settled.name = Ident.localName (Ident.stripSection record.id) := rfl

namespace Listing

/-! ## Symbols

The qualified key of a symbol is its front, a point and the identifier. Of the front an inferred
section has no point, so the cut falls behind it or later: at the first point of the record's own
section, or at the point that ends the front. -/

/-- **What is taken off a front** is the inferred section and the record's own up to a point. An
inferred section is plain and has no point itself. -/
theorem Front.stripSection {listing : Listing} {sectionText id front : String}
    (h : Front listing sectionText id front) :
    Ident.stripSection (Ident.qualify (some front) id) =
      if '.' ∈ sectionText.toList then
        Ident.qualify (some (Ident.stripSection sectionText)) id
      else id := by
  have own : Ident.stripSection (Ident.qualify (some front) id)
      = Ident.stripSection (Ident.qualify (some sectionText) id) := by
    cases h with
    | kept => rfl
    | moved s moves =>
      rw [← Ident.append_qualify]
      exact Ident.stripSection_append moves.plain.point_not_mem (point_mem_qualify sectionText id)
  rw [own]
  split
  case isTrue point => exact Ident.stripSection_qualify_of_point point id
  case isFalse point => exact Ident.stripSection_qualify point id

theorem qualify_ne_self (s id : String) : Ident.qualify (some s) id ≠ id := by
  intro he
  have hlen := congrArg (fun text : String => text.toList.length) he
  rw [Ident.toList_qualify, List.length_append, List.length_cons] at hlen
  omega

section Named

variable {options : Options} {files : List SourceFile} {n : Nat} {key : String} {record : Record}
  {node : Node}

theorem Shows.symbolNamed (h : Shows (merge options files).inferSections n key record)
    (hnode : (Documentation.ofFiles options files).nodes[n]? = some node)
    (hsection : node.record.isSection = false) :
    ∃ source ∈ sourceRecords files, ∃ id,
      SymbolNamed options (Documentation.ofFiles options files) source id node := by
  have labelled := labelled_resolved options files
  obtain ⟨same, hsame, hkey, hkind, -, -, hcontent⟩ := h.fixed labelled
  cases Option.some.inj (hnode.symm.trans hsame)
  have hrecord := hkind.symm.trans hsection
  obtain ⟨m, hm⟩ := h.lookup labelled hrecord
  rw [settled_id labelled h.entry hrecord] at hkey
  obtain ⟨source, hs, id, front, hd, behind, rfl, rfl⟩ :=
    (origin_of_get? h.entry).of_symbol hrecord
  have hstrip := hkey.trans behind.stripSection
  refine ⟨source, hs, id, ?_⟩
  constructor
  case documents => exact hd
  case content => exact hcontent
  case listed => exact ⟨m, by rw [hkey]; exact hm⟩
  case key_eq => exact hstrip
  case key_eq_iff =>
    rw [hstrip]
    split
    case isTrue point => exact iff_of_false (qualify_ne_self _ id) (not_not.2 point)
    case isFalse point => exact iff_of_true rfl point

/-! ## Sections

The identifier of a section is not qualified, and cutting it at its first point can only take
something away from it. A part behind the last separator is taken for the name afterwards; both are
harmless exactly for an identifier of one segment. -/

/-- A section keeps a name of one segment and loses a part of any other: up to the first point, and
then up to the last separator. -/
theorem Shows.sectionNamed (h : Shows (merge options files).inferSections n key record)
    (hnode : (Documentation.ofFiles options files).nodes[n]? = some node)
    (hsection : node.record.isSection = true) :
    ∃ source ∈ sourceRecords files, SectionNamed options source node := by
  have labelled := labelled_resolved options files
  obtain ⟨same, hsame, -, hkind, hname, -, hcontent⟩ := h.fixed labelled
  cases Option.some.inj (hnode.symm.trans hsame)
  rw [Record.name_settled, labelled key record h.entry] at hname
  have hrecord := hkind.symm.trans hsection
  have hnamed := h.named
  cases origin_of_get? h.entry with
  | nameless => exact absurd ⟨rfl, rfl⟩ hnamed
  | @keptSection source hs hk =>
    refine ⟨source, hs, hk, fun he => hnamed ⟨hrecord, he⟩, hcontent, ?_⟩
    rw [hname]
    exact Ident.localName_stripSection_eq_iff
  | @movedSection source s hs hk moves =>
    -- only what begins with a separator is moved
    have hid : ¬ Ident.Plain source.2.id := by
      intro hplain
      have hlacks := moves.lacks
      rw [not_lacksSection_of_plain hplain] at hlacks
      cases hlacks
    refine ⟨source, hs, hk, fun he => hid ?_, hcontent, ?_⟩
    · rw [he]
      exact Ident.plain_empty
    · rw [hname]
      exact iff_of_false (Ident.localName_stripSection_append_ne moves.plain hid) hid
  | @symbol source id front hs hd behind =>
    have hcopy := isSection_ofRaw hd.not_section (options.href source.1 source.2.line)
    exact absurd hrecord (Bool.eq_false_iff.1 hcopy)

end Named

end Listing

/-! ## The finished documentation

Both cases together, for every node that a walk reaches. -/

/-- **A symbol is listed under its documented identifier exactly when its section has no point, and
a section keeps its name exactly when that has no separator.** -/
theorem Documentation.named_ofFiles (options : Options) (files : List SourceFile) {n : Nat}
    {node : Node} (reached : n ∈ (Documentation.ofFiles options files).walk.map Prod.snd)
    (hnode : (Documentation.ofFiles options files).nodes[n]? = some node) :
    ∃ source ∈ sourceRecords files,
      (node.record.isSection = true ∧ SectionNamed options source node) ∨
        (node.record.isSection = false ∧ ∃ id,
          SymbolNamed options (Documentation.ofFiles options files) source id node) := by
  obtain ⟨key, record, hn⟩ := (Listing.mem_walk_iff (Listing.labelled_resolved options files)).1
    reached
  cases hsection : node.record.isSection with
  | true =>
    obtain ⟨source, hs, hnamed⟩ := hn.sectionNamed hnode hsection
    exact ⟨source, hs, Or.inl ⟨rfl, hnamed⟩⟩
  | false =>
    obtain ⟨source, hs, id, hnamed⟩ := hn.symbolNamed hnode hsection
    exact ⟨source, hs, Or.inr ⟨rfl, id, hnamed⟩⟩

def versionedFiles : List SourceFile :=
  [SourceFile.ofRecords "lib.json"
    [RawRecord.brief "Lib 1.0" .sectionKind none,
     RawRecord.brief "Foo" .classKind (some "Lib 1.0")]]

theorem Listing.order_versionedFiles :
    (merge Options.plain versionedFiles).inferSections.canonicalOrder
      = ["", "Lib 1.0", "Lib 1.0.Foo"] := by
  have keys : (merge Options.plain versionedFiles).inferSections.keys
      = ["", "Lib 1.0", "Lib 1.0.Foo"] := by decide +kernel
  exact canonicalOrder_eq (.of_eq keys) (by decide +kernel)

theorem Documentation.named_versionedFiles :
    2 ∈ (Documentation.ofFiles Options.plain versionedFiles).walk.map Prod.snd ∧
      ∃ node, (Documentation.ofFiles Options.plain versionedFiles).nodes[2]? = some node ∧
        ∃ source ∈ sourceRecords versionedFiles,
          (node.record.isSection = true ∧ SectionNamed Options.plain source node) ∨
            (node.record.isSection = false ∧ ∃ id,
              SymbolNamed Options.plain (Documentation.ofFiles Options.plain versionedFiles) source
                id node) := by
  have reached : 2 ∈ (Documentation.ofFiles Options.plain versionedFiles).walk.map Prod.snd := by
    rw [Listing.ofFiles_of_order Listing.order_versionedFiles]
    decide +kernel
  have size : (Documentation.ofFiles Options.plain versionedFiles).nodes.size = 3 := by
    rw [Listing.ofFiles_of_order Listing.order_versionedFiles]
    decide +kernel
  have hnode := Array.getElem?_eq_getElem (Nat.lt_of_lt_of_eq (Nat.lt_succ_self 2) size.symm)
  exact ⟨reached, _, hnode,
    Documentation.named_ofFiles Options.plain versionedFiles reached hnode⟩

/-- **Documented names do not survive a section with a point.** The class is listed under an
identifier that nothing documents, and the section is reached under a name that no section has. -/
theorem Documentation.names_cut_at_point :
    Documented versionedFiles "Foo" ∧
      (Documentation.ofFiles Options.plain versionedFiles).list.keys = ["0.Foo"] ∧
      ¬ Documented versionedFiles "0.Foo" ∧
      (∀ source ∈ sourceRecords versionedFiles, source.2.kind = .sectionKind →
        source.2.id = "Lib 1.0") ∧
      ((Documentation.ofFiles Options.plain versionedFiles).walkRecords.filter
        fun entry => entry.2.isSection).map (fun entry => entry.2.name) = ["0"] := by
  refine ⟨?_, ?_, ?_, by decide, ?_⟩
  · exact ⟨("lib.json", RawRecord.brief "Foo" .classKind (some "Lib 1.0")),
      List.mem_of_getElem? (i := 1) rfl, Or.inl ⟨by decide, rfl⟩⟩
  · rw [Listing.ofFiles_of_order Listing.order_versionedFiles]
    decide +kernel
  · rintro ⟨source, hs, hd⟩
    have differ : ∀ source ∈ sourceRecords versionedFiles,
        Ident.segments source.2.id ≠ Ident.segments "0.Foo" ∨ source.2.kind = .sectionKind := by
      decide
    rcases differ source hs with hne | hk
    · exact hne hd.segments_eq
    · exact hd.not_section hk
  · rw [Listing.ofFiles_of_order Listing.order_versionedFiles]
    decide +kernel

end DocTree
