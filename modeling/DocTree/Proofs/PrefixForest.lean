import DocTree.Proofs.AnyOrder
import DocTree.Proofs.CanonicalOrder

/-!
# The forest of prefixes

In the canonical order the forest hangs every record on the one that its key names as its parent, if
the listing has such a record at all. Nodes are attached from the last to the first under a guard: a
node that is attached already adopts no more. What makes the guard idle is that a parent has a
smaller number than its child (`parent_lt`), hence has not been looked at when the child is. All
else holds in any order.

The parent of a key is what stands before one of its separators, so it is a prefix of the key. It is
the longest one that could be a key of its own only if nothing between is one; a record whose
immediate parent is missing does not hang on the next one further up, but is a root. That is what
the condition for roots says, and why the top level of a documentation may hold more than sections.
-/

set_option autoImplicit false

namespace DocTree

namespace Forest

/-! ## In the canonical order

The table of parents without its guard is the list of named parents. From here on whether a node is
a child of another can be read off their keys. -/

section Canonical

variable (listing : Listing)

theorem known_canonicalOrder : ∀ key ∈ listing.canonicalOrder, key ∈ listing.keys :=
  fun _ h => Listing.mem_canonicalOrder.1 h

/-- **A parent has the smaller number**: its key begins the child's. -/
theorem parent_lt {i p : Nat} {key : String} (hi : listing.canonicalOrder[i]? = some key)
    (hp : namedParent listing.canonicalOrder key = some p) : p < i := by
  obtain ⟨parent, hparent, hget⟩ :=
    (namedParent_eq_some_iff (Listing.canonicalOrder_nodup listing)).1 hp
  obtain ⟨mark, rest, -, hkey⟩ := Ident.parentKey_eq_some hparent
  have hjoin : key = parent ++ String.ofList (mark :: rest) := by
    rw [← String.toList_inj, hkey, String.toList_append, String.toList_ofList]
  rw [hjoin] at hi
  refine Listing.lt_of_append (fun he => ?_) hget hi
  have hnil := congrArg String.toList he
  rw [String.toList_ofList] at hnil
  cases hnil

/-- **The guard is idle where parents come first**: the table is the named parents, with nothing
filtered out. -/
theorem parents_canonicalOrder :
    parents listing.canonicalOrder
      = listing.canonicalOrder.map (namedParent listing.canonicalOrder) := by
  apply List.ext_getElem?
  intro i
  rw [getElem?_parents, List.getElem?_map]
  cases hkey : listing.canonicalOrder[i]? with
  | none => rfl
  | some key =>
    rw [Option.map_some, Option.map_some]
    congr 1
    cases hp : namedParent listing.canonicalOrder key with
    | none => rfl
    | some p =>
      have hlt := parent_lt listing hkey hp
      simp [hlt]

variable {listing}

theorem parents_eq_some_iff {i : Nat} {parent : Option Nat} :
    (parents listing.canonicalOrder)[i]? = some parent ↔
      ∃ key, listing.canonicalOrder[i]? = some key ∧
        namedParent listing.canonicalOrder key = parent := by
  rw [parents_canonicalOrder, List.getElem?_map, Option.map_eq_some_iff]

theorem parents_lt {i p : Nat}
    (h : (parents listing.canonicalOrder)[i]? = some (some p)) : p < i := by
  obtain ⟨key, hkey, hp⟩ := parents_eq_some_iff.1 h
  exact parent_lt listing hkey hp

theorem children_assemble (n : Nat) :
    (assemble listing listing.canonicalOrder).children n
      = withParent (parents listing.canonicalOrder) (some n) :=
  children_of_known (known_canonicalOrder listing) n

/-- **A node is a child of the one that its key names.** The right side knows of keys and their
numbers only, and not of how nodes are attached. -/
theorem mem_children_iff {p i : Nat} :
    i ∈ (assemble listing listing.canonicalOrder).children p ↔
      ∃ key parent, listing.canonicalOrder[i]? = some key ∧ Ident.parentKey key = some parent ∧
        listing.canonicalOrder[p]? = some parent := by
  rw [children_assemble, mem_withParent, parents_eq_some_iff]
  simp only [namedParent_eq_some_iff (Listing.canonicalOrder_nodup listing), exists_and_left]

/-- A node is a root where the listing has no key that its own one names as its parent, be it that
it names none at all. -/
theorem mem_roots_iff {i : Nat} :
    i ∈ (assemble listing listing.canonicalOrder).roots ↔
      ∃ key, listing.canonicalOrder[i]? = some key ∧
        ∀ parent, Ident.parentKey key = some parent → parent ∉ listing.keys := by
  rw [roots_assemble, mem_withParent, parents_eq_some_iff]
  refine exists_congr fun key => and_congr_right fun _ => ?_
  rw [Option.eq_none_iff_forall_ne_some]
  simp only [ne_eq, namedParent_eq_some_iff (Listing.canonicalOrder_nodup listing), not_exists,
    not_and]
  constructor
  · intro h parent hp hm
    obtain ⟨p, hget⟩ := List.mem_iff_getElem?.1 (Listing.mem_canonicalOrder.2 hm)
    exact h p parent hp hget
  · intro h p parent hp hget
    exact h parent hp (Listing.mem_canonicalOrder.1 (List.mem_of_getElem? hget))

theorem lt_of_up {child parent : Nat}
    (h : Up (assemble listing listing.canonicalOrder) child parent) : parent < child := by
  rw [Up, children_assemble, mem_withParent] at h
  exact parents_lt h

theorem root_or_child {n : Nat} (h : n < (assemble listing listing.canonicalOrder).nodes.size) :
    n ∈ (assemble listing listing.canonicalOrder).roots ∨
      ∃ p, n ∈ (assemble listing listing.canonicalOrder).children p :=
  root_or_up (known_canonicalOrder listing) h

theorem reaches_root {i : Nat} (hi : i < (assemble listing listing.canonicalOrder).nodes.size) :
    ∃ root ∈ (assemble listing listing.canonicalOrder).roots,
      Relation.ReflTransGen (Up (assemble listing listing.canonicalOrder)) i root :=
  climb_ends (known_canonicalOrder listing) hi

/-! ## The whole forest -/

theorem map_key_assemble :
    (assemble listing listing.canonicalOrder).nodes.toList.map Node.key
      = listing.canonicalOrder :=
  map_key_of_known (known_canonicalOrder listing)

theorem flatMap_children_assemble :
    (assemble listing listing.canonicalOrder).nodes.toList.flatMap Node.children
      = (List.range (parents listing.canonicalOrder).length).flatMap fun p =>
        withParent (parents listing.canonicalOrder) (some p) :=
  flatMap_children_of_known (known_canonicalOrder listing)

/-! ## Node by node

The same facts about a node and its record, as they are stated in the end. -/

theorem record_of_node {node : Node} (h : node ∈ (assemble listing listing.canonicalOrder).nodes) :
    listing.get? node.key = some node.record :=
  record_of_known (known_canonicalOrder listing) h

theorem sorted_of_node {node : Node} (h : node ∈ (assemble listing listing.canonicalOrder).nodes) :
    node.children.Pairwise (· < ·) :=
  sorted_of_known (known_canonicalOrder listing) h

theorem mem_children_of_node {p i : Nat} {parent child : Node}
    (hp : (assemble listing listing.canonicalOrder).nodes[p]? = some parent)
    (hi : (assemble listing listing.canonicalOrder).nodes[i]? = some child) :
    i ∈ parent.children ↔ Ident.parentKey child.key = some parent.key := by
  obtain ⟨hpk, -, hpc⟩ := (assemble_nodes_eq_some_iff (known_canonicalOrder listing)).1 hp
  obtain ⟨hik, -, -⟩ := (assemble_nodes_eq_some_iff (known_canonicalOrder listing)).1 hi
  rw [hpc, ← children_assemble, mem_children_iff]
  constructor
  · rintro ⟨key, name, hkey, hname, hget⟩
    rw [hik] at hkey
    rw [hpk] at hget
    rw [Option.some.inj hkey, hname, Option.some.inj hget]
  · intro hname
    exact ⟨child.key, parent.key, hik, hname, hpk⟩

theorem mem_roots_of_node {i : Nat} {node : Node}
    (hi : (assemble listing listing.canonicalOrder).nodes[i]? = some node) :
    i ∈ (assemble listing listing.canonicalOrder).roots ↔ Ident.parentKey node.key = none ∨
      ∃ parent, Ident.parentKey node.key = some parent ∧ parent ∉ listing.keys := by
  obtain ⟨hik, -, -⟩ := (assemble_nodes_eq_some_iff (known_canonicalOrder listing)).1 hi
  rw [mem_roots_iff]
  constructor
  · rintro ⟨key, hkey, hnone⟩
    cases Option.some.inj (hik.symm.trans hkey)
    cases hname : Ident.parentKey node.key with
    | none => exact Or.inl rfl
    | some parent => exact Or.inr ⟨parent, rfl, hnone parent hname⟩
  · rintro (hnone | ⟨parent, hname, hout⟩)
    · refine ⟨node.key, hik, fun parent hname => ?_⟩
      rw [hnone] at hname
      cases hname
    · refine ⟨node.key, hik, fun other hother => ?_⟩
      rw [Option.some.inj (hother.symm.trans hname)]
      exact hout

end Canonical

/-- What it is for a forest to hang the records of a listing by the prefixes of their keys. Children
and roots are determined by the keys alone; the other fields say that nothing is lost and nothing is
circular. -/
structure IsPrefixForest (listing : Listing) (forest : Forest) : Prop where
  /-- The nodes have the keys of the listing in the canonical order, ... -/
  keys_eq : forest.nodes.toList.map Node.key = listing.canonicalOrder
  /-- ... each key once, ... -/
  keys_perm : (forest.nodes.toList.map Node.key).Perm listing.keys
  /-- ... each with its record. -/
  record_eq : ∀ node ∈ forest.nodes, listing.get? node.key = some node.record
  /-- The children of a node are those that name it as their parent. -/
  mem_children_iff : ∀ {p i : Nat} {parent child : Node}, forest.nodes[p]? = some parent →
    forest.nodes[i]? = some child →
      (i ∈ parent.children ↔ Ident.parentKey child.key = some parent.key)
  /-- The roots are the nodes that name no parent or one that is not there. -/
  mem_roots_iff : ∀ {i : Nat} {node : Node}, forest.nodes[i]? = some node →
    (i ∈ forest.roots ↔ Ident.parentKey node.key = none ∨
      ∃ parent, Ident.parentKey node.key = some parent ∧ parent ∉ listing.keys)
  /-- Every node is once among the roots and the children of all nodes. -/
  once : (forest.roots ++ forest.nodes.toList.flatMap Node.children).Perm
    (List.range forest.nodes.size)
  children_sorted : ∀ node ∈ forest.nodes, node.children.Pairwise (· < ·)
  roots_sorted : forest.roots.Pairwise (· < ·)
  /-- No way up goes on for ever, ... -/
  wellFounded_up : WellFounded fun parent child => Up forest child parent
  /-- ... and from every node one leads to a root. -/
  reaches_root : ∀ i < forest.nodes.size, ∃ root ∈ forest.roots,
    Relation.ReflTransGen (Up forest) i root

/-- When the turn of a node has come, the parent that its key names may adopt it. Nodes take their
turns from the last one on, so the parent is still among those without a place. -/
theorem mayAdopt_canonicalOrder {listing : Listing} {front rest : List String} {key : String}
    {p : Nat} (turn : listing.canonicalOrder = front ++ key :: rest)
    (hp : namedParent listing.canonicalOrder key = some p) :
    (attachAll listing.canonicalOrder (rest.zipIdx (front.length + 1))).mayAdopt p front.length
      = true := by
  have hlength : front.length + 1 + rest.length = listing.canonicalOrder.length := by
    rw [turn, List.length_append, List.length_cons]
    omega
  -- the parent stands in `front`, where nothing is attached yet
  have hkey : listing.canonicalOrder[front.length]? = some key := by simp [turn]
  rw [(holds_attachAll listing.canonicalOrder hlength).mayAdopt,
    decide_eq_true (parent_lt listing hkey hp), Bool.true_or]

/-- **In the canonical order, the forest is the one of prefixes**, and the guard on adoption
refuses no parent that is there. -/
theorem assemble_canonicalOrder_isPrefixForest (listing : Listing) :
    IsPrefixForest listing (assemble listing listing.canonicalOrder) ∧
      ∀ front key rest, listing.canonicalOrder = front ++ key :: rest →
        ∀ p, namedParent listing.canonicalOrder key = some p →
          (attachAll listing.canonicalOrder (rest.zipIdx (front.length + 1))).mayAdopt p
            front.length = true := by
  refine ⟨?_, fun front key rest turn p hp => mayAdopt_canonicalOrder turn hp⟩
  constructor
  case keys_eq => exact map_key_assemble
  case keys_perm =>
    rw [map_key_assemble]
    exact Listing.canonicalOrder_perm listing
  case record_eq => exact fun node => record_of_node
  case mem_children_iff => exact mem_children_of_node
  case mem_roots_iff => exact mem_roots_of_node
  case once =>
    rw [roots_assemble, flatMap_children_assemble,
      size_assemble_nodes (known_canonicalOrder listing), ← length_parents]
    exact fibres_perm_range parents_inside
  case children_sorted => exact fun node => sorted_of_node
  case roots_sorted =>
    rw [roots_assemble]
    exact withParent_sorted _ none
  case wellFounded_up => exact Subrelation.wf lt_of_up Nat.lt_wfRel.wf
  case reaches_root => exact fun i hi => reaches_root hi

end Forest

end DocTree
