import DocTree.Forest
import Mathlib.Data.List.Nodup
import Mathlib.Data.List.Range

/-!
# The table of parents

Attaching fills two tables from the last node to the first. After each step they hold what one
recursion over the keys says (`Holds`): the parents of the nodes looked at, and none for those in
front of them; and the children of each node are the numbers that have it as their parent,
ascending, since every new one is smaller than all before. So the forest can be read off the one
table `parents`, its children lists and its roots being the fibres of that (`assemble_eq`).

Nothing is assumed of the order, not even that its keys are distinct or in the listing. This is
where the loop over mutable tables ends and a list that can be reasoned about begins: no later
module mentions `Links`. The recursion has the guard of the loop in it, read as a question to the
part of the table that is finished, and it is the shape of this question that decides which order of
the nodes makes it easy.
-/

set_option autoImplicit false

namespace DocTree

namespace Forest

/-! ## The recursion and the fibres

A fibre is listed by filtering the numbered table, so it is ascending and free of repetitions by
construction, and membership in it is an entry of the table. -/

/-- The parents of the nodes from number `i` on, which have the given keys. A parent further on
adopts only if it has no parent. -/
def parentsFrom (order : List String) (i : Nat) : List String → List (Option Nat)
  | [] => []
  | key :: rest =>
    let later := parentsFrom order (i + 1) rest
    let adopts (p : Nat) : Bool := p < i || (i < p && later[p - i - 1]? == some none)
    (namedParent order key).filter adopts :: later

def parents (order : List String) : List (Option Nat) := parentsFrom order 0 order

/-- The numbers of the nodes with the given parent, ascending; without one, those of the roots. It
is the fibre of the table over the parent. -/
def withParent (parents : List (Option Nat)) (parent : Option Nat) : List Nat :=
  (parents.zipIdx.filter fun entry => entry.1 == parent).map Prod.snd

theorem length_parentsFrom (order : List String) (i : Nat) (keys : List String) :
    (parentsFrom order i keys).length = keys.length := by
  induction keys generalizing i with
  | nil => rfl
  | cons key rest ih => rw [parentsFrom, List.length_cons, List.length_cons, ih]

theorem length_parents (order : List String) : (parents order).length = order.length :=
  length_parentsFrom order 0 order

theorem mem_withParent {parents : List (Option Nat)} {parent : Option Nat} {i : Nat} :
    i ∈ withParent parents parent ↔ parents[i]? = some parent := by
  rw [withParent, List.mem_map]
  constructor
  · rintro ⟨⟨named, j⟩, hm, rfl⟩
    obtain ⟨hz, he⟩ := List.mem_filter.1 hm
    rw [List.mem_zipIdx_iff_getElem?] at hz
    exact hz.trans (congrArg some (beq_iff_eq.1 he))
  · intro h
    refine ⟨(parent, i), List.mem_filter.2 ⟨?_, beq_self_eq_true _⟩, rfl⟩
    exact List.mem_zipIdx_iff_getElem?.2 h

theorem withParent_sorted (parents : List (Option Nat)) (parent : Option Nat) :
    (withParent parents parent).Pairwise (· < ·) := by
  refine List.Pairwise.sublist (List.filter_sublist.map Prod.snd) ?_
  rw [List.zipIdx_map_snd]
  exact List.pairwise_lt_range'

theorem withParent_nodup (parents : List (Option Nat)) (parent : Option Nat) :
    (withParent parents parent).Nodup :=
  (withParent_sorted parents parent).imp Nat.ne_of_lt

theorem withParent_disjoint {parents : List (Option Nat)} {a b : Option Nat} (h : a ≠ b) :
    (withParent parents a).Disjoint (withParent parents b) := by
  intro i ha hb
  rw [mem_withParent] at ha hb
  exact h (Option.some.inj (ha.symm.trans hb))

theorem withParent_eq {parents : List (Option Nat)} {parent : Option Nat} {numbers : List Nat}
    (sorted : numbers.Pairwise (· < ·))
    (h : ∀ i, i ∈ numbers ↔ parents[i]? = some parent) : withParent parents parent = numbers := by
  refine List.Perm.eq_of_pairwise (fun a b _ _ hab hba => absurd hab (Nat.lt_asymm hba))
    (withParent_sorted parents parent) sorted ?_
  refine (List.perm_ext_iff_of_nodup (withParent_nodup parents parent)
    (sorted.imp Nat.ne_of_lt)).2 fun i => ?_
  rw [mem_withParent, h]

/-- The entry behind which none has a parent joins one fibre, at its front. Nodes are attached from
the last one to the first, so this is the entry that a step sets. -/
theorem withParent_set {parents : List (Option Nat)} {i : Nat}
    (blank : ∀ k ≤ i, parents[k]? = some none) (p q : Nat) :
    withParent (parents.set i (some p)) (some q)
      = if p = q then i :: withParent parents (some q) else withParent parents (some q) := by
  have inside : i < parents.length := (List.getElem?_eq_some_iff.1 (blank i (Nat.le_refl i))).1
  split
  · rename_i heq
    subst heq
    refine withParent_eq (List.pairwise_cons.2 ⟨fun k hk => ?_, withParent_sorted _ _⟩) fun k => ?_
    · by_contra hle
      have hnone := blank k (Nat.not_lt.1 hle)
      rw [mem_withParent.1 hk] at hnone
      cases hnone
    · rw [List.mem_cons, mem_withParent, List.getElem?_set]
      by_cases hk : i = k
      · simp [hk.symm, inside]
      · simp [hk, Ne.symm hk]
  · rename_i hne
    refine withParent_eq (withParent_sorted _ _) fun k => ?_
    rw [mem_withParent, List.getElem?_set]
    by_cases hk : i = k
    · rw [← hk, blank i (Nat.le_refl i)]
      simp [inside, hne]
    · rw [if_neg hk]

/-! ## The tables while nodes are attached

The invariant has one field for each table. A step either leaves a node without a parent or sets one
entry, and the table in front of that entry is blank (`withParent_set`), which puts the new child at
the front of its fibre. -/

/-- What the tables hold when the nodes from number `i` on, with the given parents, are attached:
nothing for those before, and the children of every node in ascending order. -/
structure Holds (size i : Nat) (later : List (Option Nat)) (links : Links) : Prop where
  parents : links.parents.toList = List.replicate i none ++ later
  children : ∀ p < size,
    links.children[p]? = some (withParent (List.replicate i none ++ later) (some p))

theorem holds_blank (size : Nat) : Holds size size [] (Links.blank size) where
  parents := by rw [Links.blank, Array.toList_replicate, List.append_nil]
  children p hp := by
    rw [Links.blank, Array.getElem?_replicate, if_pos hp]
    refine congrArg some (withParent_eq List.Pairwise.nil fun i => ?_).symm
    rw [List.append_nil, List.getElem?_replicate]
    split <;> simp

/-- A node may be adopted by any before it, and by one behind it that has no parent. The check of
the program looks at the table, of which this says what is in it. -/
theorem Holds.mayAdopt {size i : Nat} {later : List (Option Nat)} {links : Links}
    (h : Holds size (i + 1) later links) (p : Nat) :
    links.mayAdopt p i
      = (decide (p < i) || (decide (i < p) && later[p - i - 1]? == some none)) := by
  -- where `p` stands in the table: in the blank part, at the node itself, or among those done
  rw [Links.mayAdopt, ← Array.getElem?_toList, h.parents]
  rcases Nat.lt_trichotomy p i with hlt | rfl | hgt
  · rw [List.getElem?_append_left (by rw [List.length_replicate]; omega),
      List.getElem?_replicate, if_pos (by omega)]
    simp [hlt, Nat.ne_of_lt hlt]
  · simp
  · rw [List.getElem?_append_right (by rw [List.length_replicate]; omega), List.length_replicate]
    have hsub : p - (i + 1) = p - i - 1 := by omega
    simp [hgt, Nat.not_lt.2 (Nat.le_of_lt hgt), (Nat.ne_of_lt hgt).symm, hsub]

/-- A node that is not adopted leaves the tables as they are; the blank part gets shorter by one. -/
theorem Holds.skip {size i : Nat} {later : List (Option Nat)} {links : Links}
    (h : Holds size (i + 1) later links) : Holds size i (none :: later) links := by
  have same : List.replicate (i + 1) none ++ later = List.replicate i none ++ none :: later := by
    rw [List.replicate_succ', List.append_assoc]
    rfl
  exact ⟨same ▸ h.parents, same ▸ h.children⟩

/-- A node that is adopted comes before the other children, as all that are attached have greater
numbers. -/
theorem Holds.adopt {size i : Nat} {later : List (Option Nat)} {links : Links}
    (h : Holds size (i + 1) later links) (p : Nat) :
    Holds size i (some p :: later) (links.adopt p i) := by
  -- up to the node nothing is attached, so its number is below all that hang on `p`
  have blank : ∀ k ≤ i, (List.replicate i none ++ none :: later)[k]? = some none := by
    intro k hk
    rcases Nat.lt_or_eq_of_le hk with hlt | rfl
    · rw [List.getElem?_append_left (by rw [List.length_replicate]; exact hlt),
        List.getElem?_replicate, if_pos hlt]
    · simp
  have table : List.replicate i none ++ some p :: later
      = (List.replicate i none ++ none :: later).set i (some p) := by simp
  constructor
  case parents =>
    rw [Links.adopt, Array.toList_setIfInBounds, h.skip.parents, table]
  case children =>
    intro q hq
    rw [Links.adopt, Array.getElem?_modify, h.skip.children q hq, table, withParent_set blank]
    split <;> rfl

theorem Holds.attach {order : List String} {i : Nat} {key : String} {rest : List String}
    {links : Links} (h : Holds order.length (i + 1) (parentsFrom order (i + 1) rest) links) :
    Holds order.length i (parentsFrom order i (key :: rest))
      (Forest.attach order (key, i) links) := by
  rw [parentsFrom, Forest.attach]
  dsimp only
  cases namedParent order key with
  | none => exact h.skip
  | some p =>
    dsimp only
    rw [h.mayAdopt p, Option.filter_some]
    split
    · exact h.adopt p
    · exact h.skip

/-- **All steps**, over the nodes from number `i` on. The recursion ends with the last node and
works its way to the front, so the induction is on the keys that are left. -/
theorem holds_attachAll (order : List String) {i : Nat} {keys : List String}
    (h : i + keys.length = order.length) :
    Holds order.length i (parentsFrom order i keys) (attachAll order (keys.zipIdx i)) := by
  induction keys generalizing i with
  | nil =>
    rw [List.length_nil, Nat.add_zero] at h
    subst h
    exact holds_blank order.length
  | cons key rest ih =>
    refine Holds.attach (ih ?_)
    rw [List.length_cons] at h
    omega

theorem holds_links (order : List String) : Holds order.length 0 (parents order) (links order) :=
  holds_attachAll order (Nat.zero_add _)

theorem parents_links (order : List String) : (links order).parents.toList = parents order :=
  (holds_links order).parents

/-! ## The forest

The nodes and the roots of the forest in terms of the table. -/

/-- **The forest is its table of parents.** The lists of children and of roots are both read off it,
and neither the two tables nor the order of the steps occurs any more. -/
theorem assemble_eq (listing : Listing) (order : List String) :
    assemble listing order =
      ⟨(order.zipIdx.filterMap fun entry => (listing.get? entry.1).map fun record =>
        (⟨entry.1, record, withParent (parents order) (some entry.2)⟩ : Node)).toArray,
        withParent (parents order) none⟩ := by
  have nodes : ∀ entry ∈ order.zipIdx,
      (links order).children.getD entry.2 [] = withParent (parents order) (some entry.2) := by
    rintro ⟨key, i⟩ hm
    have hlt := (List.getElem?_eq_some_iff.1 (List.mem_zipIdx_iff_getElem?.1 hm)).1
    rw [Array.getD_eq_getD_getElem?, (holds_links order).children i hlt]
    rfl
  have roots : (List.range order.length).filter (fun n => (links order).parents[n]? == some none)
      = withParent (parents order) none := by
    refine (withParent_eq (List.pairwise_lt_range.filter _) fun i => ?_).symm
    rw [List.mem_filter, List.mem_range, beq_iff_eq, ← Array.getElem?_toList, parents_links]
    refine ⟨And.right, fun h => ⟨?_, h⟩⟩
    rw [← length_parents]
    exact (List.getElem?_eq_some_iff.1 h).1
  rw [assemble, roots]
  congr 2
  refine List.filterMap_congr fun entry hm => ?_
  rw [nodes entry hm]

theorem roots_assemble (listing : Listing) (order : List String) :
    (assemble listing order).roots = withParent (parents order) none := by rw [assemble_eq]

end Forest

end DocTree
