import DocTree.Documentation.Json
import DocTree.Proofs.Nesting
import Mathlib.Data.List.Forall2

/-!
# References to children

In the flat list a record names the records below it by their keys. The tree was made from qualified
keys and the list is kept under final ones, so whether a name leads anywhere depends on three
things: that nothing below a symbol is a section, since sections are not listed; that a parent is
still the parent when both lose their section; and that keys were taken before constructors got the
identifiers under which they are shown.

Sections that records carry may be any text here. Only the identifiers of section records must not
have separators, else a section could come to stand below a symbol. The condition is about the files
(`PlainSectionIds`), and it is used once, in `not_section_of_parent`: whatever has a parent in the
forest has a separator in its key, and no key of a section has one then.

A name may be shared. Two symbols that differ only in their sections have the same key in the list,
which has a place for one of them, so the name of a child can lead to another node than the child.
The statement therefore says that every name is listed, and that it leads to this child unless
another symbol has the same name; the second cannot be had without the condition, and the first does
not need it. Whichever node it leads to, the parent that can be read from the name is the key of the
record that mentions it.

Constructors are the one kind where key and shown identifier differ (`Ident.constructorId_ne`). The
references are made of keys, and a clause of the statement says so.
-/

set_option autoImplicit false

namespace DocTree

/-! ## The statement

A reference is a text in the written object of the parent. What it should do is said for one
reference; the theorem then says that the references of a record stand for its children one by one,
in their order. -/

def PlainSectionIds (files : List SourceFile) : Prop :=
  ∀ source ∈ sourceRecords files, source.2.kind = .sectionKind → Ident.Plain source.2.id

instance : DecidablePred PlainSectionIds := fun files =>
  inferInstanceAs (Decidable (∀ source ∈ sourceRecords files,
    source.2.kind = .sectionKind → Ident.Plain source.2.id))

/-- `name` is written for the child `c` of the record that is listed under `key`. The clauses say
what a reader can do with the name: look it up, and go back from it to the key. -/
structure ChildReference (doc : Documentation) (key : String) (c : Nat) (name : String) :
    Prop where
  node : doc.SymbolNode c name
  listed : name ∈ doc.list.keys
  /-- The name leads to this child unless another symbol is listed under it as well. -/
  resolves : (∀ m, doc.SymbolNode m name → m = c) → doc.lookup name = some c
  parent : Ident.parentKey name = some key
  /-- A constructor is named by its key although it is shown under another identifier. -/
  shown : ∀ record, doc.record? c = some record → record.kind = .constructor →
    record.id = Ident.constructorId name ∧ record.id ≠ name

/-! ## Constructors

`new Foo` is shown for `Foo.new`, and the list keeps the latter. That the two differ is not quite
for free: `new ` is put in front and a final `.new` is taken off, so the lengths may well be equal.
The blank decides it. -/

theorem Ident.constructorId_ne (id : String) : constructorId id ≠ id := by
  intro he
  have new : "new ".toList.count ' ' = 1 := by decide
  have blanks := congrArg (fun text => text.toList.count ' ') he
  simp only [constructorId, String.toList_append, String.toList_ofList, List.count_append, new]
    at blanks
  split at blanks
  case isTrue h =>
    -- a final `.new` that is left out has no blank
    obtain ⟨front, hfront⟩ := List.isSuffixOf_iff_suffix.1 h
    have tail : ".new".toList = ['.', 'n', 'e', 'w'] := by decide
    rw [← hfront, tail] at blanks
    simp at blanks
  case isFalse => omega

/-- Whatever is shown as a constructor is one, and its identifier is the one that is made for it. -/
theorem Record.shown_constructor {record : Record} (h : record.shown.kind = .constructor) :
    record.shown.id = Ident.constructorId record.id := by
  have hkind := (shown_kind_eq_iff (by decide) record).1 h
  rw [shown, if_pos hkind]

namespace Listing

section Nodes

variable {options : Options} {files : List SourceFile} (plain : PlainSectionIds files)
include plain

/-- What has a parent is a symbol: the key of a section stays without separators. -/
theorem not_section_of_parent {key parent : String} {record : Record}
    (h : (merge options files).inferSections.get? key = some record)
    (hparent : Ident.parentKey key = some parent) : record.isSection = false := by
  have separated : ¬ Ident.Plain key := by
    intro hkey
    rw [Ident.parentKey_eq_none_iff.2 hkey] at hparent
    cases hparent
  cases origin_of_get? h with
  | nameless => exact absurd Ident.plain_empty separated
  | keptSection hs hk => exact absurd (plain _ hs hk) separated
  | movedSection hs hk moves =>
    have hlacks := moves.lacks
    rw [not_lacksSection_of_plain (plain _ hs hk)] at hlacks
    cases hlacks
  | symbol hs hd behind => exact beq_eq_false_iff_ne.2 hd.not_section

/-- **A reference to a child leads to it.** The child and its node are found through the forest,
over qualified keys; everything that the reference says is then read from the finished node, over
final ones. `stripSection` is the bridge, and it respects parents because the key of a symbol has a
point in it. -/
theorem Shows.childReference {n c : Nat} {key : String} {record : Record}
    (h : Shows (merge options files).inferSections n key record)
    (hsection : record.isSection = false)
    (hc : c ∈ (Documentation.ofFiles options files).children n) :
    ∃ node, (Documentation.ofFiles options files).nodes[c]? = some node ∧
      ChildReference (Documentation.ofFiles options files) (Ident.stripSection key) c node.key := by
  have labelled := labelled_resolved options files
  obtain ⟨name, parent, child, hshows, hparent, hnumber⟩ :=
    exists_shows_of_mem_children labelled hc
  -- a number belongs to one key, so the parent that is found is the record at hand
  cases Option.some.inj (h.number.symm.trans hnumber)
  have hchild := not_section_of_parent plain hshows.entry hparent
  obtain ⟨node, hnode, hkey, -⟩ := hshows.fixed labelled
  obtain ⟨m, hm⟩ := hshows.lookup labelled hchild
  rw [settled_id labelled hshows.entry hchild] at hkey
  refine ⟨node, hnode, ?_⟩
  rw [hkey]
  constructor
  case node => exact hshows.symbolNode hchild
  case listed => exact Catalog.mem_keys_of_get? hm
  case resolves =>
    intro only
    obtain ⟨other, kept, hother, hkept, hname⟩ := shows_of_lookup labelled hm
    have hsame := only m (hname ▸ hother.symbolNode hkept)
    rw [← hsame]
    exact hm
  case parent =>
    refine Ident.parentKey_stripSection hparent ?_
    obtain ⟨source, -, id, front, -, -, rfl, -⟩ := (origin_of_get? h.entry).of_symbol hsection
    exact point_mem_qualify front id
  case shown =>
    intro found hfound hkind
    rw [Documentation.record?, ofFiles_eq_publish, hnode] at hfound
    cases hfound
    obtain ⟨same, hsame, hshape⟩ := hshows.shape labelled
    cases Option.some.inj (hnode.symm.trans hsame)
    simp only [Record.shape, Prod.mk.injEq] at hshape
    have hid : node.record.id = Ident.constructorId (Ident.stripSection name) := by
      rw [hshape.2.1, Record.shown_constructor (hshape.1.symm.trans hkind),
        settled_id labelled hshows.entry hchild]
    exact ⟨hid, hid ▸ Ident.constructorId_ne _⟩

end Nodes

end Listing

/-! ## The finished documentation

The written object ends in the list of references, whatever its other members are; those are
described elsewhere and left open here. -/

theorem forall₂_filterMap {α β : Type} {R : α → β → Prop} {f : α → Option β} {items : List α}
    (h : ∀ a ∈ items, ∃ b, f a = some b ∧ R a b) : List.Forall₂ R items (items.filterMap f) := by
  induction items with
  | nil => exact .nil
  | cons a rest ih =>
    obtain ⟨b, hb, hr⟩ := h a List.mem_cons_self
    rw [List.filterMap_cons, hb]
    exact .cons hr (ih fun c hc => h c (List.mem_cons_of_mem _ hc))

/-- **The list is closed under its references to children**: the names that are written for the
children of a listed record are those of its children one by one, and each is listed. -/
theorem Documentation.childReferences_ofFiles (options : Options) {files : List SourceFile}
    (plain : PlainSectionIds files) {key : String} {n : Nat}
    (listed : (Documentation.ofFiles options files).lookup key = some n) :
    ∃ names members,
      (Documentation.ofFiles options files).listValue n
        = .object (members ++ [("children", .array (names.map Json.Value.string))]) ∧
      List.Forall₂ (ChildReference (Documentation.ofFiles options files) key)
        ((Documentation.ofFiles options files).children n) names := by
  have labelled := Listing.labelled_resolved options files
  obtain ⟨first, record, hshows, hsection, rfl⟩ := Listing.shows_of_lookup labelled listed
  obtain ⟨node, hnode, -⟩ := hshows.fixed labelled
  refine ⟨(Documentation.ofFiles options files).childKeys n, node.record.members, ?_, ?_⟩
  · rw [listValue, recordValue, record?, Listing.ofFiles_eq_publish, hnode]
    rfl
  · refine forall₂_filterMap fun c hc => ?_
    obtain ⟨child, hchild, hreference⟩ := hshows.childReference plain hsection hc
    exact ⟨child.key, by rw [hchild]; rfl, hreference⟩

def constructorFiles : List SourceFile :=
  [SourceFile.ofRecords "request.json"
    [RawRecord.brief "DOM" .sectionKind none, RawRecord.brief "Request" .classKind (some "Lib#1"),
     RawRecord.brief "Request.new" .constructor (some "Lib#1")]]

theorem Listing.order_constructorFiles :
    (merge Options.plain constructorFiles).inferSections.canonicalOrder
      = ["", "DOM", "Lib#1.Request", "Lib#1.Request.new"] := by
  have keys : (merge Options.plain constructorFiles).inferSections.keys
      = ["", "DOM", "Lib#1.Request", "Lib#1.Request.new"] := by decide +kernel
  exact canonicalOrder_eq (.of_eq keys) (by decide +kernel)

theorem Documentation.childReferences_constructorFiles :
    PlainSectionIds constructorFiles ∧
      (Documentation.ofFiles Options.plain constructorFiles).lookup "Request" = some 2 ∧
      ∃ names members,
        (Documentation.ofFiles Options.plain constructorFiles).listValue 2
          = .object (members ++ [("children", .array (names.map Json.Value.string))]) ∧
        List.Forall₂ (ChildReference (Documentation.ofFiles Options.plain constructorFiles)
          "Request") ((Documentation.ofFiles Options.plain constructorFiles).children 2) names := by
  have plain : PlainSectionIds constructorFiles := by decide
  have listed : (Documentation.ofFiles Options.plain constructorFiles).lookup "Request"
      = some 2 := by
    rw [Listing.ofFiles_of_order Listing.order_constructorFiles]
    decide +kernel
  exact ⟨plain, listed, Documentation.childReferences_ofFiles Options.plain plain listed⟩

end DocTree
