import DocTree.Documentation.Json
import DocTree.Proofs.NamelessSection

/-!
# One order of the nodes

The nodes are gone through four times: by a stack when they are settled and listed, by a stack with
depths when a reader walks, by recursion when the tree is written out, and by the list, which
remembers when its identifiers came. All four go in the same order. The stacks are the worklist of
`preorder` upside down, so that what is taken off is its last entry and children are put on from the
last to the first; a stack needs no bound on its rounds, since the bound that `preorder` has is
never reached (`Walk.Spans.enough`). The written tree is unfolded to a number of levels, and that
bound is never reached either, since children have greater numbers.

That loops end is part of the statement, so they are not described by functions with a bound. A
loop over a stack is a relation that holds only when the stack has been emptied (`Drains`), and a
tree that is written out is one that holds only when every child has been written inside (`Nested`).
Of both it is shown that they hold of what the bounded functions give; a bound that was too small
would show there.

The order of the nodes is compared through one list of pairs, the walk. It has the depth of each
node as the number of objects around it in the text, which is the same as the number of steps from
the top level. Forgetting the depths gives the order in which nodes were settled.

The list has fewer entries than the walk. Sections are left out, and of nodes with one key only the
last one is found, while the key keeps the place that it got from the first.
-/

set_option autoImplicit false

namespace DocTree

/-! ## Stacks

A stack is a list with its top at the end, as it is in the program. It is related to a worklist with
its head at the front, for which the preorder is known. -/

namespace Walk

/-- A loop that takes the last entry off a stack until there is none. For each entry that comes out,
what comes next is put on in reverse, the first of it to be taken off first. -/
inductive Drains {α : Type} (next : α → List α) : List α → List α → Prop where
  | done : Drains next [] []
  | pop {stack out : List α} {entry : α}
      (rest : Drains next (stack ++ (next entry).reverse) out) :
      Drains next (stack ++ [entry]) (entry :: out)

/-- A loop that sees less of each entry does the same. This is how a walk with depths comes to be
one without. -/
theorem Drains.map {α β : Type} {next : α → List α} {seen : β → List β} {f : α → β}
    (same : ∀ entry, (next entry).map f = seen (f entry)) {stack out : List α}
    (h : Drains next stack out) : Drains seen (stack.map f) (out.map f) := by
  induction h with
  | done => exact .done
  | @pop stack out entry _ ih =>
    rw [List.map_append, List.map_reverse, same] at ih
    rw [List.map_append]
    exact .pop ih

def deeper (children : Nat → List Nat) (entry : Nat × Nat) : List (Nat × Nat) :=
  (children entry.2).map fun c => (entry.1 + 1, c)

/-- **The stack gives the preorder**, its last entry being the head of the worklist. Each round of
the worklist is one `pop`, with the list turned round. -/
theorem drains_preorder {children : Nat → List Nat} {size : Nat} (down : Descends children size)
    {rounds : Nat} {work : List (Nat × Nat)}
    (enough : (work.flatMap (below children size)).length ≤ rounds) :
    Drains (deeper children) work.reverse (preorder children rounds work) := by
  induction rounds generalizing work with
  | zero =>
    cases work with
    | nil => exact .done
    | cons entry rest =>
      rw [flatMap_below_cons down] at enough
      exact absurd enough (Nat.not_succ_le_zero _)
  | succ rounds ih =>
    cases work with
    | nil => exact .done
    | cons entry rest =>
      rw [flatMap_below_cons down] at enough
      have hrest := ih (Nat.le_of_succ_le_succ enough)
      rw [List.reverse_append] at hrest
      rw [List.reverse_cons, preorder]
      exact .pop hrest

section Spans

variable {children : Nat → List Nat} {size : Nat} {starts owners : List Nat}
  (h : Spans children size starts owners)
include h

theorem Spans.drains :
    Drains (deeper children) (starts.map fun n => (0, n)).reverse
      (preorder children size (starts.map fun n => (0, n))) :=
  drains_preorder h.descends h.enough

/-- The depths make no difference to the order. A walk that does not keep them drains the stack of
numbers in the same way. -/
theorem Spans.drains_numbers :
    Drains children starts.reverse
      ((preorder children size (starts.map fun n => (0, n))).map Prod.snd) := by
  have forget : ∀ entry, (deeper children entry).map Prod.snd = children entry.2 := by
    intro entry
    rw [deeper, List.map_map]
    exact List.map_id _
  have starts_eq : (starts.map fun n => (0, n)).map Prod.snd = starts := by
    rw [List.map_map]
    exact List.map_id _
  have hnumbers := h.drains.map forget
  rw [List.map_reverse, starts_eq] at hnumbers
  exact hnumbers

end Spans

end Walk

/-! ## The written tree

Objects are compared with nodes along the text: first an object, then all that is inside it, then
what stands beside it. -/

namespace Documentation

open DocTree.Json

/-- The values `items` are written for the nodes `numbers`, each with those of its children inside,
and `out` has the nodes in the order of the text, each with the number of objects around it. -/
inductive Nested (doc : Documentation) :
    Nat → List Nat → List Value → List (Nat × Nat) → Prop where
  | none {depth : Nat} : Nested doc depth [] [] []
  | node {depth n : Nat} {record : Record} {numbers : List Nat} {inner items : List Value}
      {below after : List (Nat × Nat)} (shown : doc.record? n = some record)
      (inside : Nested doc (depth + 1) (doc.children n) inner below)
      (rest : Nested doc depth numbers items after) :
      Nested doc depth (n :: numbers)
        (.object (record.members ++ [("children", .array inner)]) :: items)
        ((depth, n) :: (below ++ after))

/-- Levels enough for the greater numbers are enough for all that is below. A node of a large number
needs few, so the levels may decrease on the way down. -/
theorem nested_unfold {doc : Documentation} (down : Walk.Descends doc.children doc.nodes.size)
    {levels depth : Nat} {numbers : List Nat}
    (inside : ∀ n ∈ numbers, n < doc.nodes.size ∧ doc.nodes.size - n ≤ levels) :
    Nested doc depth numbers (treeValues doc (numbers.map (Tree.unfold doc.children levels)))
      (Tree.preorders depth (numbers.map (Tree.unfold doc.children levels))) := by
  induction levels generalizing depth numbers with
  | zero =>
    cases numbers with
    | nil => exact .none
    | cons n rest =>
      obtain ⟨hlt, hlevels⟩ := inside n List.mem_cons_self
      omega
  | succ levels ih =>
    -- the outer induction goes down to children, this one along siblings
    induction numbers with
    | nil => exact .none
    | cons n rest ihrest =>
      obtain ⟨hlt, hlevels⟩ := inside n List.mem_cons_self
      have hrecord : doc.record? n = some doc.nodes[n].record := by
        rw [record?, Array.getElem?_eq_getElem hlt]
        rfl
      have hinner := @ih (depth + 1) (doc.children n) fun c hc => by
        have hdown := down n c hc
        omega
      rw [List.map_cons, treeValues, Tree.unfold, treeValue, recordValue, hrecord,
        Tree.preorders, Tree.preorder, List.cons_append]
      exact .node hrecord hinner (ihrest fun m hm => inside m (List.mem_cons_of_mem _ hm))

/-! ## The statement

Each way through the documentation has its clause. They all speak of the same walk, so that any two
of them can be compared. -/

/-- The entries of a list filled on a walk: one for each node that is no section, under its key. -/
def walkEntries (doc : Documentation) : List (String × Nat) :=
  (doc.walk.map Prod.snd).filterMap (listEntry doc.nodes)

/-- How the ways through a documentation agree, with each other and with the forest that it was made
from. -/
structure WalksOnce (forest : Forest) (doc : Documentation) : Prop where
  size_eq : doc.nodes.size = forest.nodes.size
  children_lt : ∀ p, ∀ c ∈ doc.children p, c < doc.nodes.size
  topLevel_lt : ∀ n ∈ doc.topLevel, n < doc.nodes.size
  list_lt : ∀ n ∈ doc.list.values, n < doc.nodes.size
  walk_drains : Walk.Drains (Walk.deeper doc.children)
    (doc.topLevel.map fun n => (0, n)).reverse doc.walk
  visit_drains : Walk.Drains forest.children forest.topLevel.reverse (doc.walk.map Prod.snd)
  /-- The nameless section has the number zero, ... -/
  key_eq_empty_iff : ∀ n, forest.nodes[n]?.map Node.key = some "" ↔ n = 0
  /-- ... and it alone is left out. -/
  walk_perm : (doc.walk.map Prod.snd).Perm ((List.range doc.nodes.size).erase 0)
  value_nested : ∃ list items,
    doc.value = .object [("list", list), ("tree", .object [("children", .array items)])] ∧
      Nested doc 0 doc.topLevel items doc.walk
  list_keys : doc.list.keys = (doc.walkEntries.map Prod.fst).eraseDups
  lookup_eq : ∀ id, doc.lookup id
    = (doc.walkEntries.filter fun entry => entry.1 == id).getLast?.map Prod.snd

end Documentation

/-! ## The assembled documentation

The hypotheses of the lemmas above hold for forests that are made from files, as the nameless
section is a root there and has the number zero. -/

namespace Assembly

variable (options : Options) (files : List SourceFile)

theorem spans :
    Walk.Spans (Documentation.ofFiles options files).children
      (Documentation.ofFiles options files).nodes.size
      (Documentation.ofFiles options files).topLevel (ofFiles options files).forest.named := by
  have hspans : Walk.Spans (ofFiles options files).forest.children
      (ofFiles options files).forest.nodes.size (ofFiles options files).forest.topLevel
      (ofFiles options files).forest.named := Forest.spans_assemble (nameless_root options files)
  rw [← Documentation.children_ofForest (visited_once options files),
    ← Documentation.size_ofForest, ← Documentation.topLevel_ofForest] at hspans
  exact hspans

theorem map_snd_walk :
    (Documentation.ofFiles options files).walk.map Prod.snd
      = (ofFiles options files).forest.visited :=
  Documentation.map_snd_walk (visited_once options files)

theorem list_eq_ofList :
    (Documentation.ofFiles options files).list
      = Catalog.ofList (Documentation.ofFiles options files).walkEntries := by
  rw [Documentation.walkEntries, map_snd_walk]
  refine (Documentation.list_ofForest _).trans (congrArg Catalog.ofList ?_)
  exact List.filterMap_congr fun n _ => (Documentation.listEntry_ofForest _ n).symm

theorem mem_walk_iff {n : Nat} :
    n ∈ (Documentation.ofFiles options files).walk.map Prod.snd ↔
      n < (Documentation.ofFiles options files).nodes.size ∧ n ≠ 0 := by
  rw [map_snd_walk]
  refine (Forest.mem_visited_iff (nameless_root options files)).trans ?_
  rw [Forest.mem_named_iff, ← Bool.not_eq_true]
  exact and_congr (by rw [← Documentation.size_ofForest]; rfl)
    (not_congr (isNameless_iff options files))

theorem walk_perm :
    ((Documentation.ofFiles options files).walk.map Prod.snd).Perm
      ((List.range (Documentation.ofFiles options files).nodes.size).erase 0) := by
  have hwalk : ((Documentation.ofFiles options files).walk.map Prod.snd).Nodup := by
    rw [map_snd_walk]
    exact visited_once options files
  refine (List.perm_ext_iff_of_nodup hwalk (List.nodup_range.erase 0)).2 fun n => ?_
  rw [mem_walk_iff, List.nodup_range.mem_erase_iff, List.mem_range]
  exact and_comm

theorem key_eq_empty_iff (n : Nat) :
    (ofFiles options files).forest.nodes[n]?.map Node.key = some "" ↔ n = 0 := by
  rw [← getElem?_order_eq_empty_iff options files, ← Array.getElem?_toList, ← List.getElem?_map]
  exact iff_of_eq (congrArg (fun keys : List String => keys[n]? = some "") Forest.map_key_assemble)

end Assembly

/-- **All ways through a documentation agree and miss nothing**, but for the nameless section. The
forest is walked before the documentation is finished, and the documentation when it is written;
numbers and order are the same. -/
theorem Documentation.walksOnce_ofFiles (options : Options) (files : List SourceFile) :
    WalksOnce (Assembly.ofFiles options files).forest (Documentation.ofFiles options files) := by
  have hspans := Assembly.spans options files
  have hlist := Assembly.list_eq_ofList options files
  have hwalk : (Documentation.ofFiles options files).walk
      = Tree.preorders 0 (Documentation.ofFiles options files).trees := by
    rw [walk, hspans.preorder_eq, trees, Tree.preorders_eq_flatMap, List.flatMap_map,
      List.flatMap_map]
    rfl
  have htop : ∀ n ∈ (Documentation.ofFiles options files).topLevel,
      n < (Documentation.ofFiles options files).nodes.size :=
    fun n hn => hspans.owner_lt n (hspans.start_owner n hn)
  constructor
  case size_eq => exact Documentation.size_ofForest _
  case children_lt => exact fun p c hc => (hspans.descends p c hc).2
  case topLevel_lt => exact htop
  case list_lt =>
    intro n hn
    obtain ⟨⟨id, n⟩, he, rfl⟩ := List.mem_map.1 hn
    have hvalue := Catalog.get?_of_mem he
    rw [hlist, Catalog.get?_ofList] at hvalue
    -- an entry of the list comes from a node of the walk
    obtain ⟨m, hm, hentry⟩ := List.mem_filterMap.1 (Catalog.mem_of_lastValue hvalue)
    obtain ⟨node, -, -, hnode⟩ := listEntry_eq_some_iff.1 hentry
    cases hnode
    exact ((Assembly.mem_walk_iff options files).1 hm).1
  case walk_drains => exact hspans.drains
  case visit_drains =>
    rw [Assembly.map_snd_walk]
    exact (Forest.spans_assemble (Assembly.nameless_root options files)).drains_numbers
  case key_eq_empty_iff => exact Assembly.key_eq_empty_iff options files
  case walk_perm => exact Assembly.walk_perm options files
  case value_nested =>
    refine ⟨_, _, rfl, ?_⟩
    rw [hwalk]
    exact nested_unfold hspans.descends fun n hn => ⟨htop n hn, Nat.sub_le _ _⟩
  case list_keys => rw [hlist, Catalog.keys_ofList]
  case lookup_eq =>
    intro id
    rw [lookup, hlist, Catalog.get?_ofList, Catalog.lastValue_eq_getLast?]

end DocTree
