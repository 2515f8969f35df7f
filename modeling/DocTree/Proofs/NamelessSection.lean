import DocTree.Proofs.DocumentedSymbols

/-!
# The section without a name

Merging puts a section without a name in front, so that records without a section have something to
hang on. Whatever the files say, its key stays what it was: it is not moved to an inferred section,
and nothing but a section comes to stand under it. The empty key begins every other one, so this
section is node number zero, a root, and the one node that a walk leaves out.

A file can document a section with an empty name of its own, which then takes the place of the one
that merging made. So the facts below are about the key and never about the record that stands under
it: it is some section, and no more is known. A symbol cannot get there, since a qualified
identifier has a point in it even when both of its parts are empty.

What is proved here discharges the hypotheses under which a walk is exhaustive and free of
repetitions. Both ask for the nameless node to be a root, and for there to be one of them.
-/

set_option autoImplicit false

namespace DocTree

namespace Listing

theorem empty_mem_keys (options : Options) (files : List SourceFile) :
    "" ∈ (merge options files).inferSections.keys := by
  have merged : "" ∈ (merge options files).keys := Catalog.mem_keys_ofList.2 List.mem_cons_self
  rcases mem_keys_inferSections merged with ⟨s, moves, -⟩ | ⟨-, hm⟩
  · have lacks := moves.lacks
    rw [lacksSection_empty] at lacks
    cases lacks
  · exact hm

theorem isSection_of_get?_empty {options : Options} {files : List SourceFile} {record : Record}
    (h : (merge options files).inferSections.get? "" = some record) : record.isSection = true := by
  generalize hkey : "" = key at h
  cases origin_of_get? h with
  | nameless => rfl
  | keptSection _ hk => exact beq_iff_eq.2 hk
  | movedSection _ hk _ => exact beq_iff_eq.2 hk
  | symbol => exact absurd hkey.symm (qualify_ne_empty _ _)

theorem canonicalOrder_zero {listing : Listing} (h : "" ∈ listing.keys) :
    listing.canonicalOrder[0]? = some "" := by
  obtain ⟨i, hi⟩ := List.mem_iff_getElem?.1 (mem_canonicalOrder.2 h)
  cases hfirst : listing.canonicalOrder[0]? with
  | none =>
    rw [List.eq_nil_of_length_eq_zero (Nat.le_zero.1 (List.getElem?_eq_none_iff.1 hfirst))] at hi
    cases hi
  | some key =>
    by_cases hne : key = ""
    · rw [hne]
    -- a key in front of the empty one would be an extension of it, and those come later
    · rw [← String.empty_append (s := key)] at hfirst
      exact absurd (lt_of_append hne hi hfirst) (Nat.not_lt_zero i)

end Listing

namespace Assembly

variable (options : Options) (files : List SourceFile)

theorem getElem?_order_eq_empty_iff {n : Nat} :
    (ofFiles options files).order[n]? = some "" ↔ n = 0 := by
  have zero := Listing.canonicalOrder_zero (Listing.empty_mem_keys options files)
  constructor
  · intro hn
    obtain ⟨hlt, -⟩ := List.getElem?_eq_some_iff.1 hn
    exact (List.getElem?_inj hlt (Listing.canonicalOrder_nodup _)).1 (hn.trans zero.symm)
  · rintro rfl
    exact zero

/-- **The nameless section is node number zero**, and no other node is. Its key is the empty one,
which stands before all others in the canonical order. -/
theorem isNameless_iff {n : Nat} :
    (ofFiles options files).forest.isNameless n = true ↔ n = 0 := by
  rw [← getElem?_order_eq_empty_iff options files]
  constructor
  · intro h
    cases hnode : (ofFiles options files).forest.nodes[n]? with
    | none =>
      rw [Forest.isNameless, hnode] at h
      cases h
    | some node =>
      have hkey := ((Listing.isNameless_iff (Listing.labelled_resolved options files) hnode).1 h).2
      rw [← hkey]
      exact (Listing.entry_of_node hnode).1
  · intro hn
    obtain ⟨record, hr⟩ := Catalog.mem_keys_iff_exists.1 (Listing.empty_mem_keys options files)
    obtain ⟨node, hnode, hkey, rfl⟩ := Listing.exists_node hn hr
    exact (Listing.isNameless_iff (Listing.labelled_resolved options files) hnode).2
      ⟨Listing.isSection_of_get?_empty hr, hkey⟩

theorem nameless_root (n : Nat) (h : (ofFiles options files).forest.isNameless n = true) :
    n ∈ (ofFiles options files).forest.roots :=
  Listing.nameless_root (Listing.labelled_resolved options files) n h

end Assembly

end DocTree
