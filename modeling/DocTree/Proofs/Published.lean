import DocTree.Assembly.Basic
import DocTree.Proofs.Finishing

/-!
# The documentation of a listing

A listing is published in its canonical order. Its documentation has one node for each entry but the
nameless section, and what a node is can be said of the entry alone: where the key sends it in the
tree, under which identifier it is found, and what it says. Nothing here looks at the forest any
more; `Shows` is all that later modules use.

The listing has to be labelled, so that an entry under another key is never taken for the nameless
section.

Three things are brought together: the forest, which is known by its parents and children; the walk,
which meets every node but one; and finishing, which keeps the tree and the fixed part of each
record. Each of them speaks of numbers of nodes. A number stands for a place in the canonical order,
hence for a key, and everything that is said of a number here is said of its key instead.

The nameless section has a node as well, which no walk meets. It is left out of `Shows`, and it is
the reason why being at the top level has two cases: a root, or a child of that section.

What is found under an identifier need not be the entry that one started from. Two keys can end in
the same identifier, and the list has room for one of them. So looking up gives *an* entry, in both
directions, and it is left to conditions on the files to make it the same.
-/

set_option autoImplicit false

namespace DocTree

namespace Listing

def publish (listing : Listing) : Documentation :=
  Documentation.ofForest (Forest.assemble listing listing.canonicalOrder)

theorem ofFiles_eq_publish (options : Options) (files : List SourceFile) :
    Documentation.ofFiles options files = (merge options files).inferSections.publish := rfl

theorem ofFiles_of_order {options : Options} {files : List SourceFile} {keys : List String}
    (h : (merge options files).inferSections.canonicalOrder = keys) :
    Documentation.ofFiles options files
      = Documentation.ofForest (Forest.assemble (merge options files).inferSections keys) := by
  rw [ofFiles_eq_publish, publish, h]

/-- Node `n` of the documentation shows the record under `key`. The last clause leaves the nameless
section out. -/
structure Shows (listing : Listing) (n : Nat) (key : String) (record : Record) : Prop where
  number : listing.canonicalOrder[n]? = some key
  entry : listing.get? key = some record
  named : ¬ (record.isSection = true ∧ key = "")

variable {listing : Listing}

theorem exists_shows {key : String} {record : Record} (h : listing.get? key = some record)
    (named : ¬ (record.isSection = true ∧ key = "")) : ∃ n, Shows listing n key record := by
  obtain ⟨n, hn⟩ := List.mem_iff_getElem?.1 (mem_canonicalOrder.2 (Catalog.mem_keys_of_get? h))
  exact ⟨n, hn, h, named⟩

theorem Shows.number_unique {n m : Nat} {key : String} {record other : Record}
    (h : Shows listing n key record) (h' : Shows listing m key other) : n = m := by
  obtain ⟨hlt, -⟩ := List.getElem?_eq_some_iff.1 h.number
  exact (List.getElem?_inj hlt (canonicalOrder_nodup listing)).1 (h.number.trans h'.number.symm)

theorem exists_node {n : Nat} {key : String} {record : Record}
    (hnumber : listing.canonicalOrder[n]? = some key) (hentry : listing.get? key = some record) :
    ∃ node, (Forest.assemble listing listing.canonicalOrder).nodes[n]? = some node ∧
      node.key = key ∧ node.record = record :=
  ⟨⟨key, record, Forest.withParent (Forest.parents listing.canonicalOrder) (some n)⟩,
    (Forest.assemble_nodes_eq_some_iff (Forest.known_canonicalOrder listing)).2
      ⟨hnumber, hentry, rfl⟩, rfl, rfl⟩

theorem entry_of_node {n : Nat} {node : Node}
    (h : (Forest.assemble listing listing.canonicalOrder).nodes[n]? = some node) :
    listing.canonicalOrder[n]? = some node.key ∧ listing.get? node.key = some node.record := by
  obtain ⟨hnumber, hentry, -⟩ :=
    (Forest.assemble_nodes_eq_some_iff (Forest.known_canonicalOrder listing)).1 h
  exact ⟨hnumber, hentry⟩

section Labelled

variable (labelled : listing.Labelled)
include labelled

/-- In a labelled listing the nameless section is what stands under the empty key. -/
theorem isNameless_iff {n : Nat} {node : Node}
    (hnode : (Forest.assemble listing listing.canonicalOrder).nodes[n]? = some node) :
    (Forest.assemble listing listing.canonicalOrder).isNameless n = true ↔
      node.record.isSection = true ∧ node.key = "" := by
  rw [Forest.isNameless, hnode]
  dsimp only
  rw [labelled _ _ (entry_of_node hnode).2, Bool.and_eq_true, beq_iff_eq]

theorem nameless_root (n : Nat)
    (h : (Forest.assemble listing listing.canonicalOrder).isNameless n = true) :
    n ∈ (Forest.assemble listing listing.canonicalOrder).roots := by
  cases hnode : (Forest.assemble listing listing.canonicalOrder).nodes[n]? with
  | none =>
    rw [Forest.isNameless, hnode] at h
    cases h
  | some node =>
    obtain ⟨-, hkey⟩ := (isNameless_iff labelled hnode).1 h
    refine Forest.mem_roots_iff.2 ⟨node.key, (entry_of_node hnode).1, fun parent hp => ?_⟩
    rw [hkey, Ident.parentKey_eq_none_iff.2 Ident.plain_empty] at hp
    cases hp

theorem visited_once : (Forest.assemble listing listing.canonicalOrder).visited.Nodup :=
  Forest.visited_nodup (nameless_root labelled)

/-- **The nodes that a walk meets are those that show an entry.** From here on nodes are spoken of
by their entries, and the walk does not occur. -/
theorem mem_visited_iff_shows {n : Nat} :
    n ∈ (Forest.assemble listing listing.canonicalOrder).visited ↔
      ∃ key record, Shows listing n key record := by
  rw [Forest.mem_visited_iff (nameless_root labelled), Forest.mem_named_iff]
  constructor
  · rintro ⟨hsize, hnamed⟩
    obtain ⟨hnumber, hentry⟩ := entry_of_node (Array.getElem?_eq_getElem hsize)
    refine ⟨_, _, hnumber, hentry, fun hnl => ?_⟩
    rw [(isNameless_iff labelled (Array.getElem?_eq_getElem hsize)).2 hnl] at hnamed
    cases hnamed
  · rintro ⟨key, record, h⟩
    obtain ⟨node, hnode, rfl, rfl⟩ := exists_node h.number h.entry
    refine ⟨(Array.getElem?_eq_some_iff.1 hnode).1, Bool.eq_false_iff.2 fun hnl => ?_⟩
    exact h.named ((isNameless_iff labelled hnode).1 hnl)

theorem mem_walk_iff {n : Nat} :
    n ∈ listing.publish.walk.map Prod.snd ↔ ∃ key record, Shows listing n key record := by
  rw [publish, Documentation.map_snd_walk (visited_once labelled)]
  exact mem_visited_iff_shows labelled

/-! ## Where it is

The place of an entry is decided by its key and by what stands under the key of its parent: an entry
that is shown, the nameless section, or nothing. -/

theorem Shows.mem_children {n p : Nat} {key parent : String} {record other : Record}
    (h : Shows listing n key record) (hp : Shows listing p parent other)
    (hkey : Ident.parentKey key = some parent) : n ∈ listing.publish.children p := by
  rw [publish, Documentation.children_ofForest (visited_once labelled)]
  exact Forest.mem_children_iff.2 ⟨key, parent, h.number, hkey, hp.number⟩

theorem Shows.exists_parent {n p : Nat} {key : String} {record : Record}
    (h : Shows listing n key record) (hc : n ∈ listing.publish.children p) :
    ∃ parent, Ident.parentKey key = some parent ∧ listing.canonicalOrder[p]? = some parent := by
  rw [publish, Documentation.children_ofForest (visited_once labelled)] at hc
  obtain ⟨other, parent, hnumber, hkey, hp⟩ := Forest.mem_children_iff.1 hc
  cases Option.some.inj (h.number.symm.trans hnumber)
  exact ⟨parent, hkey, hp⟩

theorem exists_shows_of_mem_children {p c : Nat} (hc : c ∈ listing.publish.children p) :
    ∃ key parent record, Shows listing c key record ∧ Ident.parentKey key = some parent ∧
      listing.canonicalOrder[p]? = some parent := by
  rw [publish, Documentation.children_ofForest (visited_once labelled)] at hc
  obtain ⟨key, parent, hnumber, hkey, hp⟩ := Forest.mem_children_iff.1 hc
  obtain ⟨record, hentry⟩ := Catalog.mem_keys_iff_exists.1
    (Forest.known_canonicalOrder listing key (List.mem_of_getElem? hnumber))
  refine ⟨key, parent, record, ⟨hnumber, hentry, ?_⟩, hkey, hp⟩
  rintro ⟨-, rfl⟩
  rw [Ident.parentKey_eq_none_iff.2 Ident.plain_empty] at hkey
  cases hkey

theorem Shows.mem_topLevel {n : Nat} {key : String} {record : Record}
    (h : Shows listing n key record)
    (alone : ∀ parent, Ident.parentKey key = some parent → ∀ other,
      listing.get? parent = some other → other.isSection = true ∧ parent = "") :
    n ∈ listing.publish.topLevel := by
  rw [publish, Documentation.topLevel_ofForest]
  refine Forest.mem_topLevel_iff.2 ?_
  have hnamed : (Forest.assemble listing listing.canonicalOrder).isNameless n = false :=
    (Forest.mem_named_iff.1 ((Forest.mem_visited_iff (nameless_root labelled)).1
      ((mem_visited_iff_shows labelled).2 ⟨key, record, h⟩))).2
  -- a root stays at the top level, and a child of the nameless section comes there in its place
  by_cases hp : ∃ parent, Ident.parentKey key = some parent ∧ parent ∈ listing.keys
  · obtain ⟨parent, hkey, hmem⟩ := hp
    obtain ⟨other, ho⟩ := Catalog.mem_keys_iff_exists.1 hmem
    obtain ⟨r, hr⟩ := List.mem_iff_getElem?.1 (mem_canonicalOrder.2 hmem)
    obtain ⟨node, hnode, rfl, rfl⟩ := exists_node hr ho
    have hnl := (isNameless_iff labelled hnode).2 (alone node.key hkey node.record ho)
    exact Or.inr ⟨r, nameless_root labelled r hnl, hnl,
      Forest.mem_children_iff.2 ⟨key, node.key, h.number, hkey, hr⟩⟩
  · refine Or.inl ⟨Forest.mem_roots_iff.2 ⟨key, h.number, fun parent hkey hmem => ?_⟩, hnamed⟩
    exact hp ⟨parent, hkey, hmem⟩

theorem Shows.siblings {n m : Nat} {key other : String} {record kept : Record}
    (h : Shows listing n key record) (h' : Shows listing m other kept)
    (same : Ident.parentKey other = Ident.parentKey key) :
    (∃ p ∈ listing.publish.walk.map Prod.snd,
      n ∈ listing.publish.children p ∧ m ∈ listing.publish.children p) ∨
      (n ∈ listing.publish.topLevel ∧ m ∈ listing.publish.topLevel) := by
  by_cases hp : ∃ p parent above, Ident.parentKey key = some parent ∧ Shows listing p parent above
  · obtain ⟨p, parent, above, hkey, hshows⟩ := hp
    refine Or.inl ⟨p, (mem_walk_iff labelled).2 ⟨parent, above, hshows⟩, ?_, ?_⟩
    · exact h.mem_children labelled hshows hkey
    · exact h'.mem_children labelled hshows (same.trans hkey)
  · -- the parent has no node, so it is nothing but the nameless section
    have alone : ∀ parent, Ident.parentKey key = some parent → ∀ above,
        listing.get? parent = some above → above.isSection = true ∧ parent = "" := by
      intro parent hkey above habove
      by_contra hnamed
      obtain ⟨p, hshows⟩ := exists_shows habove hnamed
      exact hp ⟨p, parent, above, hkey, hshows⟩
    refine Or.inr ⟨h.mem_topLevel labelled alone, h'.mem_topLevel labelled ?_⟩
    intro parent hother
    exact alone parent (same.symm.trans hother)

/-! ## What it is

The record of a node comes from that of its entry by settling, linking and showing. Of the first
nothing is lost to the others in the parts that are named here. -/

theorem Shows.fixed {n : Nat} {key : String} {record : Record} (h : Shows listing n key record) :
    ∃ node, listing.publish.nodes[n]? = some node ∧ node.key = record.settled.id ∧
      node.record.isSection = record.isSection ∧ node.record.name = record.settled.name ∧
      node.record.sectionName = none ∧ node.record.content = record.content := by
  obtain ⟨kept, hkept, -, rfl⟩ := exists_node h.number h.entry
  have hfixed := Documentation.getElem?_ofForest (visited_once labelled)
    ((mem_visited_iff_shows labelled).2 ⟨key, kept.record, h⟩)
  rw [hkept] at hfixed
  obtain ⟨node, hnode, he⟩ := Option.map_eq_some_iff.1 hfixed
  refine ⟨node, hnode, ?_⟩
  exact ⟨congrArg Fixed.key he, congrArg Fixed.isSection he, congrArg Fixed.name he,
    congrArg Fixed.sectionName he, congrArg Fixed.content he⟩

theorem Shows.shape {n : Nat} {key : String} {record : Record} (h : Shows listing n key record) :
    ∃ node, listing.publish.nodes[n]? = some node ∧
      node.record.shape = record.settled.shown.shape := by
  obtain ⟨kept, hkept, -, rfl⟩ := exists_node h.number h.entry
  have hshape := Documentation.shape_ofForest (visited_once labelled)
    ((mem_visited_iff_shows labelled).2 ⟨key, kept.record, h⟩)
  rw [hkept] at hshape
  exact Option.map_eq_some_iff.1 hshape

theorem settled_id {key : String} {record : Record} (h : listing.get? key = some record)
    (hs : record.isSection = false) : record.settled.id = Ident.stripSection key := by
  rw [Record.settled]
  dsimp only
  rw [if_neg (by rw [hs]; decide), labelled key record h]

/-- **What is found under an identifier** is an entry that ends in it, and every entry that is no
section has its identifier in the list. -/
theorem shows_of_lookup {id : String} {n : Nat} (h : listing.publish.lookup id = some n) :
    ∃ key record, Shows listing n key record ∧ record.isSection = false ∧
      Ident.stripSection key = id := by
  obtain ⟨hvisited, node, hnode, hsection, rfl⟩ :=
    Documentation.of_lookup_ofForest (visited_once labelled) h
  obtain ⟨key, record, hshows⟩ := (mem_visited_iff_shows labelled).1 hvisited
  obtain ⟨kept, hkept, rfl, rfl⟩ := exists_node hshows.number hshows.entry
  cases Option.some.inj (hnode.symm.trans hkept)
  exact ⟨node.key, node.record, hshows, hsection, (settled_id labelled hshows.entry hsection).symm⟩

theorem Shows.lookup {n : Nat} {key : String} {record : Record} (h : Shows listing n key record)
    (hs : record.isSection = false) :
    ∃ m, listing.publish.lookup (Ident.stripSection key) = some m := by
  obtain ⟨node, hnode, rfl, rfl⟩ := exists_node h.number h.entry
  rw [← settled_id labelled h.entry hs]
  exact Option.isSome_iff_exists.1 (Documentation.isSome_lookup_ofForest (visited_once labelled)
    ((mem_visited_iff_shows labelled).2 ⟨node.key, node.record, h⟩) hnode hs)

end Labelled

end Listing

end DocTree
