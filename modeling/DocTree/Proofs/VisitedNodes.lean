import DocTree.Proofs.PrefixForest
import DocTree.Proofs.Traversal

/-!
# Every node is visited, and once

The top level is the roots with the children of the nameless section in its place. A walk from there
visits every node but that section: a node is at the top level or a child, and its parent has the
smaller number. It visits none twice, for the starting nodes and the children of the other nodes are
all different; this needs the nameless section to be a root, since otherwise its children would be
visited from their place at the top level and once more from their parent.

That condition is a hypothesis here and is discharged for the forests of files, where the section
stands under the empty key, which names no parent. A forest in which two nodes count as nameless, or
one that hangs below another, is not excluded by the types, and the argument for the top level
(`topLevel_nodup`) is made so that it covers two nameless roots as well.
-/

set_option autoImplicit false

namespace DocTree

namespace Forest

variable {listing : Listing}

/-! ## One parent at most

Children lists are fibres of one table, so a node is in one of them or among the roots, and never in
two. -/

theorem lt_size_of_mem_roots {n : Nat}
    (h : n ∈ (assemble listing listing.canonicalOrder).roots) :
    n < (assemble listing listing.canonicalOrder).nodes.size := by
  obtain ⟨key, hkey, -⟩ := mem_roots_iff.1 h
  rw [size_assemble_nodes (known_canonicalOrder listing)]
  exact (List.getElem?_eq_some_iff.1 hkey).1

theorem lt_size_of_mem_children {p n : Nat}
    (h : n ∈ (assemble listing listing.canonicalOrder).children p) :
    n < (assemble listing listing.canonicalOrder).nodes.size := by
  obtain ⟨key, -, hkey, -⟩ := mem_children_iff.1 h
  rw [size_assemble_nodes (known_canonicalOrder listing)]
  exact (List.getElem?_eq_some_iff.1 hkey).1

theorem descends_assemble (listing : Listing) :
    Walk.Descends (assemble listing listing.canonicalOrder).children
      (assemble listing listing.canonicalOrder).nodes.size :=
  fun _ _ h => ⟨lt_of_up h, lt_size_of_mem_children h⟩

theorem not_root_of_mem_children {p n : Nat}
    (h : n ∈ (assemble listing listing.canonicalOrder).children p) :
    n ∉ (assemble listing listing.canonicalOrder).roots := by
  rw [children_assemble] at h
  rw [roots_assemble]
  exact fun hr => withParent_disjoint (Option.some_ne_none p) h hr

theorem eq_of_mem_children {p q n : Nat}
    (hp : n ∈ (assemble listing listing.canonicalOrder).children p)
    (hq : n ∈ (assemble listing listing.canonicalOrder).children q) : p = q := by
  rw [children_assemble] at hp hq
  by_contra hne
  exact withParent_disjoint (fun he => hne (Option.some.inj he)) hp hq

theorem children_sorted (p : Nat) :
    ((assemble listing listing.canonicalOrder).children p).Pairwise (· < ·) := by
  rw [children_assemble]
  exact withParent_sorted _ _

theorem roots_sorted : (assemble listing listing.canonicalOrder).roots.Pairwise (· < ·) := by
  rw [roots_assemble]
  exact withParent_sorted _ _

theorem children_nodup (p : Nat) :
    ((assemble listing listing.canonicalOrder).children p).Nodup :=
  (children_sorted p).imp Nat.ne_of_lt

theorem roots_nodup : (assemble listing listing.canonicalOrder).roots.Nodup :=
  roots_sorted.imp Nat.ne_of_lt

/-! ## The top level

The roots that stay and the children that move up. Both come from lists without repetitions, and a
child is no root. -/

theorem mem_topLevel_iff {forest : Forest} {n : Nat} :
    n ∈ forest.topLevel ↔
      (n ∈ forest.roots ∧ forest.isNameless n = false) ∨
        ∃ r ∈ forest.roots, forest.isNameless r = true ∧ n ∈ forest.children r := by
  rw [topLevel, List.mem_flatMap]
  constructor
  · rintro ⟨r, hr, hn⟩
    cases hnl : forest.isNameless r with
    | true => exact Or.inr ⟨r, hr, hnl, by rwa [if_pos hnl] at hn⟩
    | false =>
      rw [if_neg (by simp [hnl]), List.mem_singleton] at hn
      subst hn
      exact Or.inl ⟨hr, hnl⟩
  · rintro (⟨hr, hnl⟩ | ⟨r, hr, hnl, hn⟩)
    · exact ⟨n, hr, by simp [hnl]⟩
    · exact ⟨r, hr, by rwa [if_pos hnl]⟩

def named (forest : Forest) : List Nat :=
  (List.range forest.nodes.size).filter fun n => !forest.isNameless n

theorem mem_named_iff {forest : Forest} {n : Nat} :
    n ∈ forest.named ↔ n < forest.nodes.size ∧ forest.isNameless n = false := by
  rw [named, List.mem_filter, List.mem_range, Bool.not_eq_true']

theorem topLevel_nodup : (assemble listing listing.canonicalOrder).topLevel.Nodup := by
  rw [topLevel, List.nodup_flatMap]
  constructor
  · intro r hr
    split
    · exact children_nodup r
    · exact List.nodup_singleton r
  · refine roots_nodup.imp_of_mem fun {a b} ha hb hne => ?_
    intro n hna hnb
    dsimp only at hna hnb
    split at hna <;> split at hnb
    · exact hne (eq_of_mem_children hna hnb)
    · rw [List.mem_singleton] at hnb
      exact not_root_of_mem_children hna (hnb ▸ hb)
    · rw [List.mem_singleton] at hna
      exact not_root_of_mem_children hnb (hna ▸ ha)
    · rw [List.mem_singleton] at hna hnb
      exact hne (hna.symm.trans hnb)

/-- A node at the top level is no child of a node that is visited. It may be a child of the nameless
section, which is not. -/
theorem topLevel_disjoint_children :
    (assemble listing listing.canonicalOrder).topLevel.Disjoint
      ((assemble listing listing.canonicalOrder).named.flatMap
        (assemble listing listing.canonicalOrder).children) := by
  intro n htop hchild
  obtain ⟨p, hp, hc⟩ := List.mem_flatMap.1 hchild
  rcases mem_topLevel_iff.1 htop with ⟨hr, -⟩ | ⟨r, -, hnl, hn⟩
  · exact not_root_of_mem_children hc hr
  · have hpn := (mem_named_iff.1 hp).2
    rw [eq_of_mem_children hc hn, hnl] at hpn
    cases hpn

/-! ## The walk

All conditions of `Walk.Spans`, with the named nodes as its owners. -/

section Walk

variable (nameless_root : ∀ n, (assemble listing listing.canonicalOrder).isNameless n = true →
  n ∈ (assemble listing listing.canonicalOrder).roots)
include nameless_root

theorem named_of_mem_children {p n : Nat}
    (h : n ∈ (assemble listing listing.canonicalOrder).children p) :
    n ∈ (assemble listing listing.canonicalOrder).named := by
  refine mem_named_iff.2 ⟨lt_size_of_mem_children h, Bool.eq_false_iff.2 fun hn => ?_⟩
  exact not_root_of_mem_children h (nameless_root n hn)

theorem named_of_mem_topLevel {n : Nat}
    (h : n ∈ (assemble listing listing.canonicalOrder).topLevel) :
    n ∈ (assemble listing listing.canonicalOrder).named := by
  rcases mem_topLevel_iff.1 h with ⟨hr, hn⟩ | ⟨r, -, -, hc⟩
  · exact mem_named_iff.2 ⟨lt_size_of_mem_roots hr, hn⟩
  · exact named_of_mem_children nameless_root hc

theorem spans_assemble :
    Walk.Spans (assemble listing listing.canonicalOrder).children
      (assemble listing listing.canonicalOrder).nodes.size
      (assemble listing listing.canonicalOrder).topLevel
      (assemble listing listing.canonicalOrder).named where
  descends := descends_assemble listing
  start_owner _ h := named_of_mem_topLevel nameless_root h
  child_owner _ _ _ h := named_of_mem_children nameless_root h
  owner_lt _ h := (mem_named_iff.1 h).1
  apart := by
    refine topLevel_nodup.append ?_ topLevel_disjoint_children
    rw [List.nodup_flatMap]
    refine ⟨fun p _ => children_nodup p, (List.nodup_range.filter _).imp fun hne n ha hb => ?_⟩
    exact hne (eq_of_mem_children ha hb)

theorem visited_eq :
    (assemble listing listing.canonicalOrder).visited
      = Walk.visited (assemble listing listing.canonicalOrder).children
        (assemble listing listing.canonicalOrder).nodes.size
        (assemble listing listing.canonicalOrder).topLevel :=
  (spans_assemble nameless_root).map_snd_preorder

theorem visited_nodup : (assemble listing listing.canonicalOrder).visited.Nodup := by
  rw [visited_eq nameless_root]
  exact (spans_assemble nameless_root).visited_nodup

/-- **Every node but the nameless section is visited.** From any node the way up ends at a root, and
the walk goes back down on it. -/
theorem mem_visited_iff {n : Nat} :
    n ∈ (assemble listing listing.canonicalOrder).visited ↔
      n ∈ (assemble listing listing.canonicalOrder).named := by
  rw [visited_eq nameless_root]
  constructor
  · exact (spans_assemble nameless_root).mem_owners
  · intro h
    -- a parent has the smaller number, so it is visited already
    induction n using Nat.strongRecOn with
    | ind n ih =>
      obtain ⟨hsize, hnamed⟩ := mem_named_iff.1 h
      rw [Walk.mem_visited_iff (descends_assemble listing)]
      rcases root_or_child hsize with hroot | ⟨p, hp⟩
      · exact Or.inl (mem_topLevel_iff.2 (Or.inl ⟨hroot, hnamed⟩))
      · cases hnl : (assemble listing listing.canonicalOrder).isNameless p with
        | true => exact Or.inl (mem_topLevel_iff.2 (Or.inr ⟨p, nameless_root p hnl, hnl, hp⟩))
        | false =>
          have hlt := (descends_assemble listing p n hp).1
          exact Or.inr ⟨p, ih p hlt (mem_named_iff.2 ⟨Nat.lt_trans hlt hsize, hnl⟩), hp⟩

end Walk

end Forest

end DocTree
