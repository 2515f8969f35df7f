import DocTree.Documentation.Finish
import DocTree.Proofs.Catalogs
import DocTree.Proofs.Identifiers
import DocTree.Proofs.ParentTable
import Mathlib.Logic.Relation

/-!
# Forests in any order

What holds of a forest whichever way its nodes are numbered. The guard on adoption looks at what was
attached before, so in an order that has parents behind their children the table of parents is
settled by a recursion along chains of any length. But one equation describes it
(`getElem?_parents`): a node has the parent that its key names, if that stands in front of it or is
a root.

Whatever the guard refuses, the children lists and the roots are the fibres of one table, so no node
is lost and none is in two places. And a parent has the shorter key, so no way up comes back to
where it began: this, unlike the numbers, does not depend on the order.

The condition in the equation is circular on its face, since whether the parent is a root is another
entry of the same table. It is not circular in the loop, where the later entry is settled first, and
the proof follows the loop. In the statement for nodes the circle is gone: a parent that comes later
refuses its child exactly when it is itself a child of some node (`mem_children_iff_of_known`), and
which nodes are children of others can be seen from the forest.
-/

set_option autoImplicit false

namespace DocTree

namespace Forest

/-! ## The fibres of a table of parents

A counting argument that knows nothing of keys: each number has one entry in the table, so it is in
one fibre. -/

/-- **Every node is once among the roots and the children of all nodes**, when no parent lies
outside the table. -/
theorem fibres_perm_range {parents : List (Option Nat)}
    (inside : ∀ {i p : Nat}, parents[i]? = some (some p) → p < parents.length) :
    (withParent parents none ++
      (List.range parents.length).flatMap fun p => withParent parents (some p)).Perm
      (List.range parents.length) := by
  have children_nodup :
      ((List.range parents.length).flatMap fun p => withParent parents (some p)).Nodup := by
    rw [List.nodup_flatMap]
    refine ⟨fun p _ => withParent_nodup parents (some p), ?_⟩
    exact List.nodup_range.imp fun hne => withParent_disjoint fun he => hne (Option.some.inj he)
  have apart : (withParent parents none).Disjoint
      ((List.range parents.length).flatMap fun p => withParent parents (some p)) := by
    intro i hroot hchild
    obtain ⟨p, -, hp⟩ := List.mem_flatMap.1 hchild
    exact withParent_disjoint (Option.some_ne_none p) hp hroot
  -- neither side has repetitions, so it is enough to compare the members
  refine (List.perm_ext_iff_of_nodup
    ((withParent_nodup parents none).append children_nodup apart) List.nodup_range).2 fun i => ?_
  rw [List.mem_append, List.mem_range, mem_withParent]
  constructor
  · rintro (hroot | hchild)
    · exact (List.getElem?_eq_some_iff.1 hroot).1
    · obtain ⟨p, -, hp⟩ := List.mem_flatMap.1 hchild
      exact (List.getElem?_eq_some_iff.1 (mem_withParent.1 hp)).1
  · intro hi
    have hget : parents[i]? = some parents[i] := List.getElem?_eq_getElem hi
    cases hp : parents[i] with
    | none => exact Or.inl (hp ▸ hget)
    | some p =>
      rw [hp] at hget
      refine Or.inr (List.mem_flatMap.2 ⟨p, ?_, mem_withParent.2 hget⟩)
      exact List.mem_range.2 (inside hget)

/-! ## The table that an order gives

The equation is proved for the table from any number on, because that is how the recursion goes; for
the whole table it is a statement about numbers alone. -/

theorem getElem?_parentsFrom (order : List String) (i : Nat) (keys : List String) (j : Nat) :
    (parentsFrom order i keys)[j]? = keys[j]?.map fun key =>
      (namedParent order key).filter fun p =>
        p < i + j || (i + j < p && (parentsFrom order i keys)[p - i]? == some none) := by
  induction keys generalizing i j with
  | nil => rfl
  | cons key rest ih =>
    rw [parentsFrom]
    cases j with
    | zero =>
      simp only [List.getElem?_cons_zero, Option.map_some, Nat.add_zero]
      congr 2
      funext p
      -- behind the node itself, the table at `p` is that of the rest
      cases hd : p - i with
      | zero =>
        have hle : ¬ i < p := by omega
        simp [hle]
      | succ d => rw [List.getElem?_cons_succ, Nat.add_sub_cancel]
    | succ j =>
      rw [List.getElem?_cons_succ, List.getElem?_cons_succ, ih]
      congr 1
      funext other
      congr 1
      funext p
      have hsum : i + 1 + j = i + (j + 1) := by omega
      rw [hsum]
      cases hd : p - i with
      | zero =>
        have hle : ¬ i + (j + 1) < p := by omega
        simp [hle]
      | succ d =>
        have hrest : p - (i + 1) = d := by omega
        rw [List.getElem?_cons_succ, hrest]

/-- **A node has the parent that its key names**, if that comes before it or is a root. The table
stands on both sides of the equation; the entry on the right is one that the loop has settled
before. -/
theorem getElem?_parents (order : List String) (i : Nat) :
    (parents order)[i]? = order[i]?.map fun key =>
      (namedParent order key).filter fun p =>
        p < i || (i < p && (parents order)[p]? == some none) := by
  rw [parents, getElem?_parentsFrom]
  simp only [Nat.zero_add, Nat.sub_zero]

theorem parents_eq_some_some_iff {order : List String} {i p : Nat} :
    (parents order)[i]? = some (some p) ↔ ∃ key, order[i]? = some key ∧
      namedParent order key = some p ∧ (p < i ∨ (i < p ∧ (parents order)[p]? = some none)) := by
  rw [getElem?_parents, Option.map_eq_some_iff]
  refine exists_congr fun key => and_congr_right fun _ => ?_
  rw [Option.filter_eq_some_iff]
  simp

theorem parents_inside {order : List String} {i p : Nat}
    (h : (parents order)[i]? = some (some p)) : p < (parents order).length := by
  obtain ⟨key, -, hp, -⟩ := parents_eq_some_some_iff.1 h
  obtain ⟨parent, -, hidx⟩ := Option.bind_eq_some_iff.1 hp
  obtain ⟨hlt, -⟩ := List.idxOf?_eq_some_iff.1 hidx
  rw [length_parents]
  exact hlt

theorem namedParent_eq_some_iff {order : List String} (hn : order.Nodup) {key : String} {p : Nat} :
    namedParent order key = some p ↔
      ∃ parent, Ident.parentKey key = some parent ∧ order[p]? = some parent := by
  rw [namedParent, Option.bind_eq_some_iff]
  refine exists_congr fun parent => and_congr_right fun _ => ?_
  rw [List.idxOf?_eq_some_iff, List.getElem?_eq_some_iff]
  constructor
  · rintro ⟨hp, he, -⟩
    exact ⟨hp, he⟩
  · rintro ⟨hp, he⟩
    refine ⟨hp, he, fun j hj hje => ?_⟩
    exact Nat.ne_of_lt hj ((List.Nodup.getElem_inj_iff hn).1 (hje.trans he.symm))

/-! ## The nodes

When every key of the order is in the listing no node is left out, and the number of a node is that
of its key. -/

theorem getElem?_filterMap_of_isSome {α β : Type} {f : α → Option β} {items : List α}
    (h : ∀ a ∈ items, (f a).isSome = true) (i : Nat) :
    (items.filterMap f)[i]? = items[i]?.bind f := by
  induction items generalizing i with
  | nil => rfl
  | cons a rest ih =>
    obtain ⟨b, hb⟩ := Option.isSome_iff_exists.1 (h a List.mem_cons_self)
    have hrest : ∀ c ∈ rest, (f c).isSome = true := fun c hc => h c (List.mem_cons_of_mem _ hc)
    rw [List.filterMap_cons_some hb]
    cases i with
    | zero => exact hb.symm
    | succ j => exact ih hrest j

section Assemble

variable {listing : Listing} {order : List String}

/-- **Node `i` holds the `i`-th key and its record.** Without `known` a key could be left out, and
the nodes after it would have other numbers than their keys. -/
theorem getElem?_assemble_nodes (known : ∀ key ∈ order, key ∈ listing.keys) (i : Nat) :
    (assemble listing order).nodes[i]? = order[i]?.bind fun key =>
      (listing.get? key).map fun record => ⟨key, record, withParent (parents order) (some i)⟩ := by
  have total : ∀ entry ∈ order.zipIdx, ((listing.get? entry.1).map fun record =>
      (⟨entry.1, record, withParent (parents order) (some entry.2)⟩ : Node)).isSome = true := by
    rintro ⟨key, j⟩ hm
    rw [Option.isSome_map]
    have hkey := List.mem_of_getElem? (List.mem_zipIdx_iff_getElem?.1 hm)
    exact Catalog.mem_keys_iff.1 (known key hkey)
  rw [assemble_eq, List.getElem?_toArray, getElem?_filterMap_of_isSome total, List.getElem?_zipIdx]
  cases order[i]? with
  | none => rfl
  | some key => simp

theorem size_assemble_nodes (known : ∀ key ∈ order, key ∈ listing.keys) :
    (assemble listing order).nodes.size = order.length := by
  have same : ∀ i : Nat, (assemble listing order).nodes[i]? = none ↔ order[i]? = none := by
    intro i
    rw [getElem?_assemble_nodes known]
    cases hkey : order[i]? with
    | none => simp
    | some key =>
      obtain ⟨record, hr⟩ :=
        Catalog.mem_keys_iff_exists.1 (known key (List.mem_of_getElem? hkey))
      simp [hr]
  have outside : ∀ i : Nat, (assemble listing order).nodes.size ≤ i ↔ order.length ≤ i := by
    intro i
    rw [← Array.getElem?_eq_none_iff, same, List.getElem?_eq_none_iff]
  exact Nat.le_antisymm ((outside _).2 (Nat.le_refl _)) ((outside _).1 (Nat.le_refl _))

theorem assemble_nodes_eq_some_iff (known : ∀ key ∈ order, key ∈ listing.keys) {i : Nat}
    {node : Node} :
    (assemble listing order).nodes[i]? = some node ↔
      order[i]? = some node.key ∧ listing.get? node.key = some node.record ∧
        node.children = withParent (parents order) (some i) := by
  rw [getElem?_assemble_nodes known, Option.bind_eq_some_iff]
  constructor
  · rintro ⟨key, hkey, hnode⟩
    obtain ⟨record, hr, rfl⟩ := Option.map_eq_some_iff.1 hnode
    exact ⟨hkey, hr, rfl⟩
  · rintro ⟨hkey, hr, hc⟩
    refine ⟨node.key, hkey, ?_⟩
    rw [hr, Option.map_some, ← hc]

end Assemble

/-! ## Children and roots

The fibres again, now of the nodes of a forest. The children of a number that is no node are none,
on both sides. -/

/-- Whether the one node hangs directly on the other. Chains of this relation are the climbs of
which it is shown that they end. -/
def Up (forest : Forest) (child parent : Nat) : Prop := child ∈ forest.children parent

section Known

variable {listing : Listing} {order : List String} (known : ∀ key ∈ order, key ∈ listing.keys)
include known

theorem children_of_known (n : Nat) :
    (assemble listing order).children n = withParent (parents order) (some n) := by
  rw [children, getElem?_assemble_nodes known]
  cases hkey : order[n]? with
  | some key =>
    obtain ⟨record, hr⟩ := Catalog.mem_keys_iff_exists.1 (known key (List.mem_of_getElem? hkey))
    rw [Option.bind_some, hr]
    rfl
  | none =>
    refine (List.eq_nil_iff_forall_not_mem.2 fun i hi => ?_).symm
    have hlt := parents_inside (mem_withParent.1 hi)
    rw [length_parents] at hlt
    exact absurd (List.getElem?_eq_none_iff.1 hkey) (Nat.not_le.2 hlt)

theorem up_iff {child parent : Nat} :
    Up (assemble listing order) child parent ↔ (parents order)[child]? = some (some parent) := by
  rw [Up, children_of_known known, mem_withParent]

theorem map_key_of_known : (assemble listing order).nodes.toList.map Node.key = order := by
  apply List.ext_getElem?
  intro i
  rw [List.getElem?_map, Array.getElem?_toList, getElem?_assemble_nodes known]
  cases hkey : order[i]? with
  | none => rfl
  | some key =>
    obtain ⟨record, hr⟩ := Catalog.mem_keys_iff_exists.1 (known key (List.mem_of_getElem? hkey))
    rw [Option.bind_some, hr]
    rfl

theorem flatMap_children_of_known :
    (assemble listing order).nodes.toList.flatMap Node.children
      = (List.range (parents order).length).flatMap fun p =>
        withParent (parents order) (some p) := by
  rw [List.flatMap_def, List.flatMap_def]
  congr 1
  apply List.ext_getElem?
  intro i
  have hc := children_of_known known i
  rw [children] at hc
  rw [List.getElem?_map, List.getElem?_map, Array.getElem?_toList]
  cases hn : (assemble listing order).nodes[i]? with
  | some node =>
    rw [hn] at hc
    have hi := (Array.getElem?_eq_some_iff.1 hn).1
    rw [size_assemble_nodes known, ← length_parents] at hi
    rw [List.getElem?_range hi]
    exact congrArg some hc
  | none =>
    rw [Array.getElem?_eq_none_iff, size_assemble_nodes known, ← length_parents] at hn
    rw [List.getElem?_eq_none (by rw [List.length_range]; exact hn)]
    rfl

/-- **Every node is once** among the roots and the children. Of the order only that its keys are
known is needed here, not that they are distinct. -/
theorem once_of_known :
    ((assemble listing order).roots ++
      (assemble listing order).nodes.toList.flatMap Node.children).Perm
      (List.range (assemble listing order).nodes.size) := by
  rw [roots_assemble, flatMap_children_of_known known, size_assemble_nodes known, ← length_parents]
  exact fibres_perm_range parents_inside

theorem record_of_known {node : Node} (h : node ∈ (assemble listing order).nodes) :
    listing.get? node.key = some node.record := by
  obtain ⟨i, hi⟩ := Array.mem_iff_getElem?.1 h
  exact ((assemble_nodes_eq_some_iff known).1 hi).2.1

theorem sorted_of_known {node : Node} (h : node ∈ (assemble listing order).nodes) :
    node.children.Pairwise (· < ·) := by
  obtain ⟨i, hi⟩ := Array.mem_iff_getElem?.1 h
  rw [((assemble_nodes_eq_some_iff known).1 hi).2.2]
  exact withParent_sorted _ _

theorem root_or_up {n : Nat} (h : n < (assemble listing order).nodes.size) :
    n ∈ (assemble listing order).roots ∨ ∃ p, Up (assemble listing order) n p := by
  rw [size_assemble_nodes known, ← length_parents] at h
  have hget := List.getElem?_eq_getElem h
  cases hp : (parents order)[n] with
  | none =>
    rw [roots_assemble]
    exact Or.inl (mem_withParent.2 (hp ▸ hget))
  | some p => exact Or.inr ⟨p, (up_iff known).2 (hp ▸ hget)⟩

/-! ## The way up

The length of keys is the measure. It decreases with each step up whatever the order of the nodes,
which their numbers do only in the canonical one. -/

/-- **A parent has the shorter key**, whatever its number. Its key is what stands before a separator
in the key of the child. -/
theorem length_lt_of_up {child parent : Nat} (h : Up (assemble listing order) child parent) :
    (order.getD parent "").length < (order.getD child "").length := by
  obtain ⟨key, hkey, hp, -⟩ := parents_eq_some_some_iff.1 ((up_iff known).1 h)
  obtain ⟨name, hname, hidx⟩ := Option.bind_eq_some_iff.1 hp
  obtain ⟨hlt, hget, -⟩ := List.idxOf?_eq_some_iff.1 hidx
  obtain ⟨mark, rest, -, hjoin⟩ := Ident.parentKey_eq_some hname
  rw [List.getD_eq_getElem?_getD, List.getD_eq_getElem?_getD, hkey, List.getElem?_eq_getElem hlt,
    hget, Option.getD_some, Option.getD_some, ← String.length_toList, ← String.length_toList, hjoin,
    List.length_append, List.length_cons]
  omega

theorem length_lt_of_climb {child above : Nat}
    (h : Relation.TransGen (Up (assemble listing order)) child above) :
    (order.getD above "").length < (order.getD child "").length := by
  induction h with
  | single step => exact length_lt_of_up known step
  | tail _ step ih => exact Nat.lt_trans (length_lt_of_up known step) ih

theorem climb_ends {i : Nat} (hi : i < (assemble listing order).nodes.size) :
    ∃ root ∈ (assemble listing order).roots,
      Relation.ReflTransGen (Up (assemble listing order)) i root := by
  generalize hlength : (order.getD i "").length = n
  induction n using Nat.strongRecOn generalizing i with
  | ind n ih =>
    rcases root_or_up known hi with hroot | ⟨p, hp⟩
    · exact ⟨i, hroot, .refl⟩
    · have hlt := length_lt_of_up known hp
      have hinside := parents_inside ((up_iff known).1 hp)
      rw [length_parents, ← size_assemble_nodes known] at hinside
      rw [hlength] at hlt
      obtain ⟨root, hroot, hclimb⟩ := ih _ hlt hinside rfl
      exact ⟨root, hroot, .head hp hclimb⟩

omit known in
theorem parentKey_ne_self (key : String) : Ident.parentKey key ≠ some key := by
  intro h
  obtain ⟨mark, rest, -, hjoin⟩ := Ident.parentKey_eq_some h
  have hlength := congrArg List.length hjoin
  rw [List.length_append, List.length_cons] at hlength
  omega

theorem not_up_iff {p : Nat} (h : p < order.length) :
    (¬ ∃ q, Up (assemble listing order) p q) ↔ (parents order)[p]? = some none := by
  simp only [up_iff known]
  rw [← length_parents] at h
  rw [List.getElem?_eq_getElem h]
  cases (parents order)[p] <;> simp

/-- A child is one that names the node as its parent, unless the node comes later and is itself a
child of some node. -/
theorem mem_children_iff_of_known (distinct : order.Nodup) {p i : Nat} {parent child : Node}
    (hp : (assemble listing order).nodes[p]? = some parent)
    (hi : (assemble listing order).nodes[i]? = some child) :
    i ∈ parent.children ↔ Ident.parentKey child.key = some parent.key ∧
      ¬ (i < p ∧ ∃ q, Up (assemble listing order) p q) := by
  obtain ⟨hpk, -, hpc⟩ := (assemble_nodes_eq_some_iff known).1 hp
  obtain ⟨hik, -, -⟩ := (assemble_nodes_eq_some_iff known).1 hi
  have names : namedParent order child.key = some p ↔
      Ident.parentKey child.key = some parent.key := by
    rw [namedParent_eq_some_iff distinct, hpk]
    simp
  rw [hpc, mem_withParent, parents_eq_some_some_iff,
    ← not_up_iff known (List.getElem?_eq_some_iff.1 hpk).1]
  constructor
  · rintro ⟨key, hkey, hname, hfirst⟩
    cases Option.some.inj (hik.symm.trans hkey)
    refine ⟨names.1 hname, ?_⟩
    rintro ⟨hlt, hchild⟩
    rcases hfirst with hlt' | ⟨-, hroot⟩
    · exact Nat.lt_asymm hlt hlt'
    · exact hroot hchild
  · rintro ⟨hname, hguard⟩
    refine ⟨child.key, hik, names.2 hname, ?_⟩
    -- a parent in front adopts in any case, one behind only if it is a root itself
    rcases Nat.lt_trichotomy p i with hlt | rfl | hgt
    · exact Or.inl hlt
    · rw [hi] at hp
      cases hp
      exact absurd hname (parentKey_ne_self _)
    · exact Or.inr ⟨hgt, fun hchild => hguard ⟨hgt, hchild⟩⟩

end Known

/-! ## The whole forest

The laws as one structure, and a listing in an order that is not canonical, where the guard refuses
a parent. -/

/-- What it is for a forest to hang the records of a listing in an order of its keys: every record
once, children in order, no circles, and which nodes hang on which. -/
structure HangsInOrder (listing : Listing) (order : List String) (forest : Forest) : Prop where
  /-- Node `i` has the `i`-th key and its record. -/
  keys_eq : forest.nodes.toList.map Node.key = order
  record_eq : ∀ node ∈ forest.nodes, listing.get? node.key = some node.record
  /-- Every node is once among the roots and the children of all nodes. -/
  once : (forest.roots ++ forest.nodes.toList.flatMap Node.children).Perm
    (List.range forest.nodes.size)
  children_sorted : ∀ node ∈ forest.nodes, node.children.Pairwise (· < ·)
  roots_sorted : forest.roots.Pairwise (· < ·)
  no_cycle : ∀ i, ¬ Relation.TransGen (Up forest) i i
  reaches_root : ∀ i < forest.nodes.size, ∃ root ∈ forest.roots,
    Relation.ReflTransGen (Up forest) i root
  /-- A node adopts all that name it as their parent, except, if it is a child itself, those in
  front of it. -/
  mem_children_iff : ∀ {p i : Nat} {parent child : Node}, forest.nodes[p]? = some parent →
    forest.nodes[i]? = some child →
      (i ∈ parent.children ↔ Ident.parentKey child.key = some parent.key ∧
        ¬ (i < p ∧ ∃ q, p ∈ forest.children q))

/-- **In any order of the keys, assembly gives a forest**, and the guard refuses a parent only where
it comes later and has a parent itself. -/
theorem assemble_hangsInOrder {listing : Listing} {order : List String}
    (perm : order.Perm listing.keys) : HangsInOrder listing order (assemble listing order) := by
  have known : ∀ key ∈ order, key ∈ listing.keys := fun _ hm => perm.mem_iff.1 hm
  constructor
  case keys_eq => exact map_key_of_known known
  case record_eq => exact fun _ => record_of_known known
  case once => exact once_of_known known
  case children_sorted => exact fun _ => sorted_of_known known
  case roots_sorted =>
    rw [roots_assemble]
    exact withParent_sorted _ none
  case no_cycle => exact fun i h => Nat.lt_irrefl _ (length_lt_of_climb known h)
  case reaches_root => exact fun _ => climb_ends known
  case mem_children_iff => exact mem_children_iff_of_known known (perm.nodup_iff.2 listing.nodup)

/-- A type with a member in a section. -/
def chainListing : Listing :=
  Catalog.ofList [("S", Record.root), ("S.A", Record.root), ("S.A.b", Record.root)]

/-- The member comes before its type, which is in the section already when the member's turn has
come. So the member stays a root. -/
theorem assemble_hangsInOrder_chain :
    ["S.A.b", "S", "S.A"].Perm chainListing.keys ∧
      HangsInOrder chainListing ["S.A.b", "S", "S.A"]
        (assemble chainListing ["S.A.b", "S", "S.A"]) ∧
      (assemble chainListing ["S.A.b", "S", "S.A"]).roots = [0, 1] := by
  have perm : ["S.A.b", "S", "S.A"].Perm chainListing.keys := by decide
  exact ⟨perm, assemble_hangsInOrder perm, by decide⟩

end Forest

end DocTree
