import DocTree.Documentation.Basic
import Mathlib.Data.List.Flatten
import Mathlib.Data.List.Nodup
import Mathlib.Data.List.Perm.Subperm
import Mathlib.Data.List.Range

/-!
# Walking over numbered nodes

The walk with a worklist is the recursive preorder of the unfolded trees (`preorder_eq`), provided
that it is given as many rounds as there are nodes in them. Both are stated over a function that
gives the children of a number, under two conditions: children have greater numbers, so that
unfolding ends; and the starting nodes and the children of all owners are different, so that no node
comes up twice and the number of nodes bounds the rounds.

The two conditions are a structure (`Spans`), which is all that later modules know of the walk. It
has a set of owners beside the starting nodes, because not every node of a documentation is reached:
the nameless section is not, and its children start the walk in its place. The children of a node
that is not reached must not be counted, or they would come twice.

The walk has a bound on its rounds and the unfolding one on its levels. Neither is visible in what
they give, and in both cases the number of nodes is what makes it so: of the rounds since no node
comes up twice, of the levels since numbers grow on the way down.
-/

set_option autoImplicit false

namespace DocTree

/-! ## The preorder of a tree

On nested trees the preorder is a mutual recursion over a tree and its children, with nothing to
bound. -/

mutual

/-- The numbers of a tree, a node before what is below it, each with its depth. -/
def Tree.preorder (depth : Nat) : Tree → List (Nat × Nat)
  | .node n children => (depth, n) :: Tree.preorders (depth + 1) children

/-- The numbers of trees, one tree after the other, all from the same depth. -/
def Tree.preorders (depth : Nat) : List Tree → List (Nat × Nat)
  | [] => []
  | tree :: rest => tree.preorder depth ++ Tree.preorders depth rest

end

theorem Tree.preorders_eq_flatMap (depth : Nat) (trees : List Tree) :
    Tree.preorders depth trees = trees.flatMap (Tree.preorder depth) := by
  induction trees with
  | nil => rfl
  | cons tree rest ih => rw [Tree.preorders, List.flatMap_cons, ih]

mutual

theorem Tree.map_snd_preorder (depth other : Nat) : ∀ tree : Tree,
    (tree.preorder depth).map Prod.snd = (tree.preorder other).map Prod.snd
  | .node n children => by
    rw [Tree.preorder, Tree.preorder, List.map_cons, List.map_cons,
      Tree.map_snd_preorders (depth + 1) (other + 1) children]

theorem Tree.map_snd_preorders (depth other : Nat) : ∀ trees : List Tree,
    (Tree.preorders depth trees).map Prod.snd = (Tree.preorders other trees).map Prod.snd
  | [] => rfl
  | tree :: rest => by
    rw [Tree.preorders, Tree.preorders, List.map_append, List.map_append,
      Tree.map_snd_preorder depth other tree, Tree.map_snd_preorders depth other rest]

end

namespace Walk

/-! ## Trees of nodes whose children have greater numbers

Below a node of a large number there is little left, so unfolding by one level more changes nothing
as soon as there are levels enough (`unfold_succ`). From that the tree below a node satisfies the
equation of a recursion without a bound. -/

/-- Children have greater numbers than their parent, up to a bound. It is this that ends the
recursion: below a node there are at most as many levels as numbers above its own. -/
def Descends (children : Nat → List Nat) (size : Nat) : Prop :=
  ∀ p, ∀ c ∈ children p, p < c ∧ c < size

/-- The preorder of the tree below a node, with the depth of the node. As many levels are unfolded
as there are numbers, which is always enough. -/
def below (children : Nat → List Nat) (size : Nat) (entry : Nat × Nat) : List (Nat × Nat) :=
  (Tree.unfold children size entry.2).preorder entry.1

def numbersBelow (children : Nat → List Nat) (size n : Nat) : List Nat :=
  (below children size (0, n)).map Prod.snd

section Unfolding

variable {children : Nat → List Nat} {size : Nat} (down : Descends children size)
include down

theorem unfold_succ {levels n : Nat} (h : size - n ≤ levels) :
    Tree.unfold children (levels + 1) n = Tree.unfold children levels n := by
  induction levels generalizing n with
  | zero =>
    have none : children n = [] := by
      refine List.eq_nil_iff_forall_not_mem.2 fun c hc => ?_
      have := down n c hc
      omega
    rw [Tree.unfold, Tree.unfold, none]
    rfl
  | succ levels ih =>
    rw [Tree.unfold, Tree.unfold]
    congr 1
    refine List.map_congr_left fun c hc => ih ?_
    have := down n c hc
    omega

theorem below_eq (depth n : Nat) :
    below children size (depth, n)
      = (depth, n) :: (children n).flatMap fun c => below children size (depth + 1, c) := by
  rw [below, ← unfold_succ down (Nat.sub_le size n), Tree.unfold, Tree.preorder,
    Tree.preorders_eq_flatMap, List.flatMap_map]
  rfl

/-- Taking a node off a worklist and putting its children in front leaves the rest to be walked.
This is one round of the loop, seen from what it still has to do. -/
theorem flatMap_below_cons (depth n : Nat) (rest : List (Nat × Nat)) :
    ((depth, n) :: rest).flatMap (below children size)
      = (depth, n) :: ((children n).map (fun c => (depth + 1, c)) ++ rest).flatMap
          (below children size) := by
  rw [List.flatMap_cons, below_eq down, List.cons_append, List.flatMap_append, List.flatMap_map]

/-- **The worklist walks in preorder**, when there are rounds enough for all nodes. One round emits
one entry of the walk that is left, so the length of that is the measure. -/
theorem preorder_eq {rounds : Nat} {work : List (Nat × Nat)}
    (enough : (work.flatMap (below children size)).length ≤ rounds) :
    preorder children rounds work = work.flatMap (below children size) := by
  induction rounds generalizing work with
  | zero => exact (List.eq_nil_of_length_eq_zero (Nat.le_zero.1 enough)).symm
  | succ rounds ih =>
    cases work with
    | nil => rfl
    | cons entry rest =>
      obtain ⟨depth, n⟩ := entry
      rw [flatMap_below_cons down] at enough ⊢
      rw [preorder, ih (Nat.le_of_succ_le_succ enough)]

theorem numbersBelow_eq (n : Nat) :
    numbersBelow children size n
      = n :: (children n).flatMap (numbersBelow children size) := by
  rw [numbersBelow, below_eq down, List.map_cons, List.map_flatMap]
  congr 2
  funext c
  exact Tree.map_snd_preorder 1 0 _

omit down in
theorem flatMap_perm_append {f : Nat → List Nat} {starts : List Nat}
    (h : ∀ n ∈ starts, (f n).Perm (n :: (f n).flatMap children)) :
    (starts.flatMap f).Perm (starts ++ (starts.flatMap f).flatMap children) := by
  induction starts with
  | nil => exact .refl _
  | cons n rest ih =>
    have hrest := ih fun m hm => h m (List.mem_cons_of_mem _ hm)
    rw [List.flatMap_cons, List.flatMap_append]
    calc List.Perm (f n ++ rest.flatMap f)
          ((n :: (f n).flatMap children) ++ (rest ++ (rest.flatMap f).flatMap children)) :=
          (h n List.mem_cons_self).append hrest
      List.Perm _ (n :: rest ++ ((f n).flatMap children ++ (rest.flatMap f).flatMap children)) := by
          rw [List.cons_append, List.cons_append]
          refine .cons n ?_
          rw [← List.append_assoc, ← List.append_assoc]
          exact List.perm_append_comm.append_right _

/-- **What is visited is where one starts and the children of what is visited**, with as many
repetitions on one side as on the other. -/
theorem numbersBelow_perm (n : Nat) :
    (numbersBelow children size n).Perm
      (n :: (numbersBelow children size n).flatMap children) := by
  induction hm : size - n using Nat.strongRecOn generalizing n with
  | ind m ih =>
    have lower : ∀ c ∈ children n, (numbersBelow children size c).Perm
        (c :: (numbersBelow children size c).flatMap children) := by
      intro c hc
      have := down n c hc
      exact ih (size - c) (by omega) c rfl
    rw [numbersBelow_eq down, List.flatMap_cons]
    exact .cons n (flatMap_perm_append lower)

end Unfolding

/-! ## Nodes that come up once

What is visited is where the walk starts and the children of what is visited. Counted with
repetitions, that equation and the distinctness of starting nodes and children leave no room for a
second visit. -/

/-- Starting nodes from which a walk stays among its owners and meets each of them at most once. The
last clause says so of single edges: no node is named twice, as a start or as a child. -/
structure Spans (children : Nat → List Nat) (size : Nat) (starts owners : List Nat) : Prop where
  descends : Descends children size
  start_owner : ∀ n ∈ starts, n ∈ owners
  child_owner : ∀ p ∈ owners, ∀ c ∈ children p, c ∈ owners
  owner_lt : ∀ n ∈ owners, n < size
  apart : (starts ++ owners.flatMap children).Nodup

section Spans

variable {children : Nat → List Nat} {size : Nat} {starts owners : List Nat}

def visited (children : Nat → List Nat) (size : Nat) (starts : List Nat) : List Nat :=
  starts.flatMap (numbersBelow children size)

theorem visited_perm (down : Descends children size) (starts : List Nat) :
    (visited children size starts).Perm
      (starts ++ (visited children size starts).flatMap children) :=
  flatMap_perm_append fun n _ => numbersBelow_perm down n

theorem mem_visited_iff (down : Descends children size) {n : Nat} :
    n ∈ visited children size starts ↔
      n ∈ starts ∨ ∃ p ∈ visited children size starts, n ∈ children p := by
  rw [(visited_perm down starts).mem_iff, List.mem_append, List.mem_flatMap]

variable (h : Spans children size starts owners)
include h

theorem Spans.mem_owners {n : Nat} (hn : n ∈ visited children size starts) : n ∈ owners := by
  induction n using Nat.strongRecOn with
  | ind n ih =>
    rcases (mem_visited_iff h.descends).1 hn with hs | ⟨p, hp, hc⟩
    · exact h.start_owner n hs
    · exact h.child_owner p (ih p (h.descends p n hc).1 hp) n hc

/-- Only the children of smaller nodes can be a given node. -/
theorem Spans.count_flatMap_children (nodes : List Nat) (m : Nat) :
    (nodes.flatMap children).count m = ((nodes.filter (· < m)).flatMap children).count m := by
  induction nodes with
  | nil => rfl
  | cons p rest ih =>
    rw [List.flatMap_cons, List.count_append, ih, List.filter_cons]
    by_cases hp : p < m
    · rw [if_pos (by simpa using hp), List.flatMap_cons, List.count_append]
    · rw [if_neg (by simpa using hp),
        List.count_eq_zero_of_not_mem fun hm => hp (h.descends p m hm).1, Nat.zero_add]

/-- **No node is visited twice.** For a node that were, all parents are smaller, so by induction
each of them is visited once, and the node is twice among the starting nodes and the children. -/
theorem Spans.visited_nodup : (visited children size starts).Nodup := by
  refine List.nodup_iff_count_le_one.2 fun m => ?_
  induction m using Nat.strongRecOn with
  | ind m ih =>
    have smaller_nodup : ((visited children size starts).filter (· < m)).Nodup := by
      refine List.nodup_iff_count_le_one.2 fun k => ?_
      by_cases hk : k < m
      · exact Nat.le_trans (List.filter_sublist.count_le k) (ih k hk)
      · rw [List.count_eq_zero_of_not_mem fun hm => hk (by simpa using (List.mem_filter.1 hm).2)]
        exact Nat.zero_le 1
    -- distinct owners, so their children are among those of all owners, repetitions counted
    have smaller_owners : ((visited children size starts).filter (· < m)).Subperm owners :=
      List.subperm_of_subset smaller_nodup fun k hk => h.mem_owners (List.mem_filter.1 hk).1
    obtain ⟨some_owners, hperm, hsub⟩ := smaller_owners
    calc (visited children size starts).count m
        = (starts ++ (visited children size starts).flatMap children).count m :=
          (visited_perm h.descends starts).count_eq m
      _ = (starts ++ some_owners.flatMap children).count m := by
          rw [List.count_append, List.count_append, h.count_flatMap_children,
            (hperm.flatMap_right children).count_eq m]
      _ ≤ (starts ++ owners.flatMap children).count m :=
          ((hsub.flatMap children).append_left starts).count_le m
      _ ≤ 1 := List.nodup_iff_count_le_one.1 h.apart m

theorem Spans.length_visited_le : (visited children size starts).length ≤ size := by
  have hsub : (visited children size starts).Subperm (List.range size) :=
    List.subperm_of_subset h.visited_nodup fun n hn =>
      List.mem_range.2 (h.owner_lt n (h.mem_owners hn))
  simpa using hsub.length_le

/-- As many rounds as there are nodes are enough, since no node is visited twice and all are below
the bound. -/
theorem Spans.enough :
    ((starts.map fun n => (0, n)).flatMap (below children size)).length ≤ size := by
  have hlen := h.length_visited_le
  rw [visited] at hlen
  rw [List.flatMap_map, List.length_flatMap]
  rw [List.length_flatMap] at hlen
  simpa [numbersBelow] using hlen

theorem Spans.preorder_eq :
    preorder children size (starts.map fun n => (0, n))
      = (starts.map fun n => (0, n)).flatMap (below children size) :=
  Walk.preorder_eq h.descends h.enough

theorem Spans.map_snd_preorder :
    (preorder children size (starts.map fun n => (0, n))).map Prod.snd
      = visited children size starts := by
  rw [h.preorder_eq, List.flatMap_map, List.map_flatMap]
  rfl

end Spans

end Walk

end DocTree
