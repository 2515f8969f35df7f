import DocTree.Proofs.Published
import DocTree.Proofs.SectionInference

/-!
# Documented symbols are found, and nothing else

Between a record in a file and the record that is found under its identifier stand two places where
keys are rewritten and three where one record can take the place of another. What carries through is
where an entry comes from: it is a section, under a key without a point, or the copy of one record
of a file, under an identifier which that record documents, behind a front without a point. The
point that ends the front keeps the two apart, and the front can be taken off again, so an
identifier is listed for a record that documents it and for no other reason.

The front of a symbol is its section or, when its record came without one, what is inferred for it
(`Front`); sections may hold the other separators, and then even a record with a section can move.

Where an entry comes from is said once, by an inductive predicate with a constructor for each way
(`Origin`), and most of what is proved about finished documentation starts from it. It needs no
condition on the files. Conditions come in only where a key is read: `PointFree` makes the first
point of a key the one that ends its front. It would be no use to follow single records through the
pass instead, as a record can be overwritten at any of the three places; from the entry back to its
origin nothing is lost.

One entry keeps no memory of the others that had the same key. So what is found under an identifier
is the content of *some* record that documents it, and which one is settled elsewhere.
-/

set_option autoImplicit false

namespace DocTree

/-! ## Copies

A record of a file is copied with its address filled in and with new identifiers. Its content is
what all of this leaves alone. -/

/-- A record that was made from a record of a file and is no section. Its identifier is not
mentioned, since a copy has another one at each step. -/
structure IsCopy (options : Options) (source : String × RawRecord) (record : Record) : Prop where
  not_section : record.isSection = false
  content : record.content = source.2.content (options.href source.1 source.2.line)

/-- No section has a point in its identifier, and no record carries a section with one. This is what
it takes for a section in front of an identifier to be taken off whole. -/
abbrev PointFree : List SourceFile → Prop := EverySection fun text => '.' ∉ text.toList

theorem PointFree.sectionText {files : List SourceFile} (h : PointFree files)
    {source : String × RawRecord} (hs : source ∈ sourceRecords files) :
    '.' ∉ source.2.sectionText.toList := EverySection.sectionText h (by decide) hs

namespace Listing

/-! ## Fronts

A front is what inference left in front of an identifier. As a relation it can be split into its two
cases without running the pass, and both cases still say under which hypothesis they hold. -/

/-- What stands in front of a symbol once sections are inferred: the section that its record
carries, behind the one that it is given if it is given one. -/
inductive Front (listing : Listing) (sectionText id : String) : String → Prop where
  | kept (stays : ∀ s, ¬ Moves listing (Ident.qualify (some sectionText) id) s) :
      Front listing sectionText id sectionText
  | moved (s : String) (moves : Moves listing (Ident.qualify (some sectionText) id) s) :
      Front listing sectionText id (s ++ sectionText)

theorem Front.point_not_mem {listing : Listing} {sectionText id front : String}
    (h : Front listing sectionText id front) (point : '.' ∉ sectionText.toList) :
    '.' ∉ front.toList := by
  cases h with
  | kept => exact point
  | moved s moves =>
    rw [String.toList_append, List.mem_append]
    exact fun hm => hm.elim moves.plain.point_not_mem point

theorem exists_front {listing : Listing} {sectionText id : String}
    (h : Ident.qualify (some sectionText) id ∈ listing.keys) :
    ∃ front, Front listing sectionText id front ∧
      Ident.qualify (some front) id ∈ listing.inferSections.keys := by
  rcases mem_keys_inferSections h with ⟨s, moves, hm⟩ | ⟨stays, hm⟩
  · rw [Ident.append_qualify] at hm
    exact ⟨s ++ sectionText, Front.moved s moves, hm⟩
  · exact ⟨sectionText, Front.kept stays, hm⟩

theorem Labelled.inferSections {listing : Listing} (h : listing.Labelled) :
    listing.inferSections.Labelled := by
  intro key record hr
  rcases inferSections_cases hr with ⟨-, hr⟩ | ⟨-, -, -, -, -, -, rfl⟩
  · exact h key record hr
  · rfl

/-! ## Where entries come from

From here on a listing is the one that files are merged into, with sections inferred. Its entries
have four origins, of which one is a curiosity: a section whose identifier begins with a separator
is taken for a symbol without a section, and moved. -/

/-- How an entry comes to be in the listing of files once sections are inferred: a symbol stands
behind its front, and a section under its own identifier, unless that begins with a separator and
was taken for the key of a symbol without a section. -/
inductive Origin (options : Options) (files : List SourceFile) : String → Record → Prop where
  | nameless : Origin options files "" Record.root
  | keptSection {source : String × RawRecord} (mem : source ∈ sourceRecords files)
      (kind : source.2.kind = .sectionKind) :
      Origin options files source.2.id
        (Record.ofRaw source.2 (options.href source.1 source.2.line))
  | movedSection {source : String × RawRecord} {s : String} (mem : source ∈ sourceRecords files)
      (kind : source.2.kind = .sectionKind) (moves : Moves (merge options files) source.2.id s) :
      Origin options files (s ++ source.2.id)
        { Record.ofRaw source.2 (options.href source.1 source.2.line) with
          id := s ++ source.2.id }
  | symbol {source : String × RawRecord} {id front : String} (mem : source ∈ sourceRecords files)
      (documents : source.2.Documents id)
      (behind : Front (merge options files) source.2.sectionText id front) :
      Origin options files (Ident.qualify (some front) id)
        { Record.ofRaw source.2 (options.href source.1 source.2.line) with
          id := Ident.qualify (some front) id
          bound := counterpart source.2 id }

theorem lacksSection_empty : lacksSection "" = false := rfl

/-- **Every entry has an origin**, whatever sections hold. An entry is followed back through
inference first, and from there to the record that it was placed for. -/
theorem origin_of_get? {options : Options} {files : List SourceFile} {key : String}
    {record : Record} (h : (merge options files).inferSections.get? key = some record) :
    Origin options files key record := by
  rcases inferSections_cases h with ⟨stays, hr⟩ | ⟨first, s, kept, moves, hr, rfl, rfl⟩
  · rcases merge_cases hr with
      ⟨rfl, rfl⟩ | ⟨source, hs, hk, rfl, rfl⟩ | ⟨source, hs, id, hd, rfl, rfl⟩
    · exact .nameless
    · exact .keptSection hs hk
    · exact .symbol hs hd (.kept stays)
  · rcases merge_cases hr with
      ⟨rfl, rfl⟩ | ⟨source, hs, hk, rfl, rfl⟩ | ⟨source, hs, id, hd, rfl, rfl⟩
    · have lacks := moves.lacks
      rw [lacksSection_empty] at lacks
      cases lacks
    · exact .movedSection hs hk moves
    · rw [Ident.append_qualify]
      exact .symbol hs hd (.moved s moves)

theorem Origin.of_symbol {options : Options} {files : List SourceFile} {key : String}
    {record : Record} (h : Origin options files key record) (hsection : record.isSection = false) :
    ∃ source ∈ sourceRecords files, ∃ id front, source.2.Documents id ∧
      Front (merge options files) source.2.sectionText id front ∧
      key = Ident.qualify (some front) id ∧
      record = { Record.ofRaw source.2 (options.href source.1 source.2.line) with
        id := key, bound := counterpart source.2 id } := by
  cases h with
  | nameless => cases hsection
  | keptSection hs hk => exact absurd hk (beq_eq_false_iff_ne.1 hsection)
  | movedSection hs hk moves => exact absurd hk (beq_eq_false_iff_ne.1 hsection)
  | @symbol source id front hs hd behind =>
    exact ⟨source, hs, id, front, hd, behind, rfl, rfl⟩

section Origin

variable {options : Options} {files : List SourceFile} (points : PointFree files)
include points

/-- Where no section has a point, the key of an entry tells a section from a symbol. A symbol has
the point behind its front, and a moved section is no exception to the rule for sections. -/
theorem inferSections_origin {key : String} {record : Record}
    (h : (merge options files).inferSections.get? key = some record) :
    (record.isSection = true ∧ '.' ∉ key.toList) ∨
      ∃ source ∈ sourceRecords files, ∃ id front, source.2.Documents id ∧
        Front (merge options files) source.2.sectionText id front ∧
        key = Ident.qualify (some front) id ∧ IsCopy options source record := by
  cases origin_of_get? h with
  | nameless => exact Or.inl ⟨rfl, by simp⟩
  | keptSection hs hk => exact Or.inl ⟨beq_iff_eq.2 hk, (points _ hs).1 hk⟩
  | movedSection hs hk moves =>
    refine Or.inl ⟨beq_iff_eq.2 hk, ?_⟩
    rw [String.toList_append, List.mem_append]
    exact fun hm => hm.elim moves.plain.point_not_mem ((points _ hs).1 hk)
  | @symbol source id front hs hd behind =>
    have copied := isSection_ofRaw hd.not_section (options.href source.1 source.2.line)
    exact Or.inr ⟨source, hs, id, front, hd, behind, rfl, copied, rfl⟩

theorem not_section_of_point {key : String} {record : Record}
    (h : (merge options files).inferSections.get? key = some record) (hp : '.' ∈ key.toList) :
    record.isSection = false := by
  rcases inferSections_origin points h with ⟨-, hno⟩ | ⟨source, -, id, front, -, -, -, hcopy⟩
  · exact absurd hp hno
  · exact hcopy.not_section

end Origin

theorem point_mem_qualify (front id : String) :
    '.' ∈ (Ident.qualify (some front) id).toList := by
  rw [Ident.toList_qualify]
  exact List.mem_append_right _ List.mem_cons_self

theorem qualify_ne_empty (front id : String) : Ident.qualify (some front) id ≠ "" := by
  intro he
  have point := point_mem_qualify front id
  rw [he] at point
  cases point

theorem labelled_resolved (options : Options) (files : List SourceFile) :
    (merge options files).inferSections.Labelled := (labelled_merge options files).inferSections

theorem exists_shows_of_documents (options : Options) {files : List SourceFile}
    (points : PointFree files) {source : String × RawRecord} (hs : source ∈ sourceRecords files)
    {id : String} (hd : source.2.Documents id) :
    ∃ front n record, Front (merge options files) source.2.sectionText id front ∧
      Shows (merge options files).inferSections n (Ident.qualify (some front) id) record ∧
      record.isSection = false := by
  obtain ⟨front, hfront, hm⟩ := exists_front (qualify_mem_keys_merge options hs hd)
  obtain ⟨record, hr⟩ := Catalog.mem_keys_iff_exists.1 hm
  have hsection := not_section_of_point points hr (point_mem_qualify front id)
  obtain ⟨n, hn⟩ := exists_shows hr fun hnl => by
    rw [hsection] at hnl
    cases hnl.1
  exact ⟨front, n, record, hfront, hn, hsection⟩

theorem Shows.origin {options : Options} {files : List SourceFile} (points : PointFree files)
    {n : Nat} {key : String} {record : Record}
    (h : Shows (merge options files).inferSections n key record)
    (hsection : record.isSection = false) :
    ∃ source ∈ sourceRecords files, ∃ id front, source.2.Documents id ∧
      Front (merge options files) source.2.sectionText id front ∧ '.' ∉ front.toList ∧
      key = Ident.qualify (some front) id ∧ IsCopy options source record := by
  rcases inferSections_origin points h.entry with
    ⟨hyes, -⟩ | ⟨source, hs, id, front, hd, hf, he, hc⟩
  · rw [hsection] at hyes
    cases hyes
  · exact ⟨source, hs, id, front, hd, hf, hf.point_not_mem (points.sectionText hs), he, hc⟩

end Listing

theorem Assembly.visited_once (options : Options) (files : List SourceFile) :
    (ofFiles options files).forest.visited.Nodup :=
  Listing.visited_once (Listing.labelled_resolved options files)

/-! ## The finished documentation

The list is made from nodes, nodes from entries, and entries have origins; in the other direction a
documented identifier has a key, the key an entry, and the entry a node that is shown. -/

/-- **No documented symbol disappears and none is invented.** An identifier is found exactly when a
record of the files documents it, and what is found there is the content of one such record, with
the address that its own file and line give. -/
theorem Documentation.get?_ofFiles_iff_documented (options : Options) {files : List SourceFile}
    (points : PointFree files) (id : String) :
    (((Documentation.ofFiles options files).get? id).isSome = true ↔ Documented files id) ∧
      ∀ record, (Documentation.ofFiles options files).get? id = some record →
        ∃ source ∈ sourceRecords files, source.2.Documents id ∧
          record.content = source.2.content (options.href source.1 source.2.line) ∧
          record.sectionName = none := by
  have labelled := Listing.labelled_resolved options files
  -- what is found is what some node shows, and that was documented
  have found : ∀ record, (Documentation.ofFiles options files).get? id = some record →
      ∃ source ∈ sourceRecords files, source.2.Documents id ∧
        record.content = source.2.content (options.href source.1 source.2.line) ∧
        record.sectionName = none := by
    intro record h
    obtain ⟨n, hlookup, hrecord⟩ := Option.bind_eq_some_iff.1 h
    obtain ⟨key, kept, hshows, hsection, rfl⟩ := Listing.shows_of_lookup labelled hlookup
    obtain ⟨source, hs, id, front, hd, -, hpoint, rfl, hcopy⟩ := hshows.origin points hsection
    obtain ⟨node, hnode, -, -, -, hname, hcontent⟩ := hshows.fixed labelled
    obtain ⟨other, hother, rfl⟩ := Option.map_eq_some_iff.1 hrecord
    cases Option.some.inj (hnode.symm.trans hother)
    rw [Ident.stripSection_qualify hpoint]
    exact ⟨source, hs, hd, hcontent.trans hcopy.content, hname⟩
  refine ⟨⟨fun h => ?_, ?_⟩, found⟩
  · obtain ⟨record, hrecord⟩ := Option.isSome_iff_exists.1 h
    obtain ⟨source, hs, hd, -⟩ := found record hrecord
    exact ⟨source, hs, hd⟩
  -- what is documented is shown, though the list may have another node for it
  · rintro ⟨source, hs, hd⟩
    obtain ⟨front, n, record, hfront, hshows, hsection⟩ :=
      Listing.exists_shows_of_documents options points hs hd
    obtain ⟨m, hm⟩ := hshows.lookup labelled hsection
    rw [Ident.stripSection_qualify (hfront.point_not_mem (points.sectionText hs))] at hm
    obtain ⟨key, kept, hkept, -, -⟩ := Listing.shows_of_lookup labelled hm
    obtain ⟨node, hnode, -⟩ := hkept.fixed labelled
    refine Option.isSome_iff_exists.2 ⟨node.record, ?_⟩
    exact Option.bind_eq_some_iff.2 ⟨m, hm, Option.map_eq_some_iff.2 ⟨node, hnode, rfl⟩⟩

def boundMethodFiles : List SourceFile :=
  [SourceFile.ofRecords "lib.json"
    [RawRecord.brief "Lib#1" .sectionKind none,
     RawRecord.brief "Ajax" .namespaceKind (some "Lib#1")],
   SourceFile.ofRecords "get.json" [{ RawRecord.brief "Ajax.get" .method none with bound := true }]]

/-- The instance method that no file names is found. -/
theorem Documentation.get?_boundMethodFiles :
    PointFree boundMethodFiles ∧
      ((Documentation.ofFiles Options.plain boundMethodFiles).get? "Ajax#get").isSome = true := by
  have documented : Documented boundMethodFiles "Ajax#get" :=
    ⟨("get.json", { RawRecord.brief "Ajax.get" .method none with bound := true }),
      List.mem_of_getElem? (i := 2) rfl, Or.inr ⟨rfl, rfl, by decide⟩⟩
  exact ⟨by decide, (Documentation.get?_ofFiles_iff_documented Options.plain (by decide) _).1.2
    documented⟩

end DocTree
