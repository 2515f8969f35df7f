import DocTree.Proofs.Traversal

/-!
# Depths tell the tree

In a preorder the children of a node come after it, and what stands between the node and one of them
is the other children and all below these, none of it less deep than the child. So the parent of an
entry is the last one before it that is one level up. Lines that are indented by their depth, two
blanks a level, therefore give the tree back with the children of each node in order.

There are two ways to say that a list of depths determines a tree. One is a parser that takes lines
and builds nested trees with a stack; the other, taken here, asks of each line which line is its
parent. The second needs no stack and no notion of a well-formed list of depths: `parentLine` is
defined for all indentations, and only the theorem needs that they come from a walk. The trees are
then built from the parents of lines as they were built from the children of nodes, by the same
unfolding, so that comparing the two is comparing the children of corresponding numbers
(`Tree.labelled_unfold_congr`).
-/

set_option autoImplicit false

namespace DocTree

/-! ## Lines under lines

What is read off a list of indentations, whatever these are. -/

def lastBelow (p : Nat → Bool) : Nat → Option Nat
  | 0 => none
  | k + 1 => if p k then some k else lastBelow p k

theorem lastBelow_eq_some_iff {p : Nat → Bool} {k j : Nat} :
    lastBelow p k = some j ↔ j < k ∧ p j = true ∧ ∀ i, j < i → i < k → p i = false := by
  induction k with
  | zero => simp [lastBelow]
  | succ k ih =>
    rw [lastBelow]
    split
    case isTrue hk =>
      rw [Option.some.injEq]
      constructor
      · rintro rfl
        exact ⟨Nat.lt_succ_self k, hk, fun i hlt hi => by omega⟩
      · rintro ⟨hj, -, between⟩
        by_contra hne
        have hnone := between k (by omega) (Nat.lt_succ_self k)
        rw [hk] at hnone
        cases hnone
    case isFalse hk =>
      rw [ih]
      constructor
      · rintro ⟨hj, hpj, between⟩
        refine ⟨Nat.lt_succ_of_lt hj, hpj, fun i hlt hi => ?_⟩
        rcases Nat.lt_succ_iff_lt_or_eq.1 hi with hi | rfl
        · exact between i hlt hi
        · exact Bool.eq_false_iff.2 hk
      · rintro ⟨hj, hpj, between⟩
        rcases Nat.lt_succ_iff_lt_or_eq.1 hj with hj | rfl
        · exact ⟨hj, hpj, fun i hlt hi => between i hlt (Nat.lt_succ_of_lt hi)⟩
        · exact absurd hpj hk

theorem lastBelow_eq_none {p : Nat → Bool} {k : Nat} (h : ∀ i, i < k → p i = false) :
    lastBelow p k = none := by
  rw [Option.eq_none_iff_forall_ne_some]
  intro j hj
  obtain ⟨hlt, hpj, -⟩ := lastBelow_eq_some_iff.1 hj
  rw [h j hlt] at hpj
  cases hpj

/-- The nearest line before line `k` that is indented by two blanks less. Lines between the two may
be indented in any way; in an index they are indented at least as far as line `k`. -/
def parentLine (indents : List Nat) (k : Nat) : Option Nat :=
  lastBelow (fun j => indents.getD j 0 + 2 == indents.getD k 0) k

def linesUnder (indents : List Nat) (parent : Option Nat) : List Nat :=
  (List.range indents.length).filter fun k => parentLine indents k == parent

/-! ## Preorders

The tree below a node stands in the walk in one piece, with everything in it at least one level
deeper than the node. The split of the walk at a node and one of its children is stated with the
piece between them. -/

mutual

theorem Tree.le_of_mem_preorder {entry : Nat × Nat} (depth : Nat) : ∀ tree : Tree,
    entry ∈ tree.preorder depth → depth ≤ entry.1
  | .node n children => by
    intro h
    rcases List.mem_cons.1 h with rfl | h
    · exact Nat.le_refl depth
    · exact Nat.le_of_succ_le (Tree.le_of_mem_preorders (depth + 1) children h)

theorem Tree.le_of_mem_preorders {entry : Nat × Nat} (depth : Nat) : ∀ trees : List Tree,
    entry ∈ Tree.preorders depth trees → depth ≤ entry.1
  | [] => by
    intro h
    cases h
  | tree :: rest => by
    intro h
    rcases List.mem_append.1 h with h | h
    · exact Tree.le_of_mem_preorder depth tree h
    · exact Tree.le_of_mem_preorders depth rest h

end

namespace Walk

section Below

variable {children : Nat → List Nat} {size : Nat} (down : Descends children size)
include down

/-- What is below an entry of a tree stands in the tree in one piece. Numbers grow on the way down,
so the induction is on how many are left above the number of the root. -/
theorem below_isInfix_below {entry : Nat × Nat} {depth n : Nat}
    (h : entry ∈ below children size (depth, n)) :
    below children size entry <:+: below children size (depth, n) := by
  induction hm : size - n using Nat.strongRecOn generalizing depth n with
  | ind m ih =>
    rw [below_eq down] at h
    rcases List.mem_cons.1 h with rfl | h
    · exact List.infix_rfl
    · obtain ⟨c, hc, hentry⟩ := List.mem_flatMap.1 h
      have hdown := down n c hc
      have inside := ih (size - c) (by omega) hentry rfl
      have among : below children size (depth + 1, c) <:+:
          (children n).flatMap fun c => below children size (depth + 1, c) := by
        rw [List.flatMap_def]
        exact List.infix_of_mem_flatten (List.mem_map_of_mem hc)
      rw [below_eq down depth n]
      exact (inside.trans among).trans (List.suffix_cons _ _).isInfix

theorem below_isInfix_walk {work : List (Nat × Nat)} {entry : Nat × Nat}
    (h : entry ∈ work.flatMap (below children size)) :
    below children size entry <:+: work.flatMap (below children size) := by
  obtain ⟨start, hs, hentry⟩ := List.mem_flatMap.1 h
  have among : below children size start <:+: work.flatMap (below children size) := by
    rw [List.flatMap_def]
    exact List.infix_of_mem_flatten (List.mem_map_of_mem hs)
  exact (below_isInfix_below down hentry).trans among

/-- **Nothing between a node and its child is less deep than the child.** What stands there are the
children before it with all that is below them, which `between` is made of. -/
theorem exists_between {work : List (Nat × Nat)} {depth p c : Nat}
    (h : (depth, p) ∈ work.flatMap (below children size)) (hc : c ∈ children p) :
    ∃ front between back, work.flatMap (below children size)
        = front ++ (depth, p) :: (between ++ (depth + 1, c) :: back) ∧
      ∀ entry ∈ between, depth + 1 ≤ entry.1 := by
  obtain ⟨front, after, hwalk⟩ := below_isInfix_walk down h
  obtain ⟨before, behind, hchildren⟩ := List.append_of_mem hc
  refine ⟨front, before.flatMap fun c => below children size (depth + 1, c),
    ((children c).flatMap fun c => below children size (depth + 2, c))
      ++ (behind.flatMap fun c => below children size (depth + 1, c)) ++ after, ?_, ?_⟩
  · rw [← hwalk, below_eq down depth p, hchildren, List.flatMap_append, List.flatMap_cons,
      below_eq down (depth + 1) c]
    simp
  · intro entry hentry
    obtain ⟨sibling, -, hentry⟩ := List.mem_flatMap.1 hentry
    exact Tree.le_of_mem_preorder _ _ hentry

omit down in
theorem sublist_flatMap {f : Nat → List Nat} (first : ∀ n, ∃ rest, f n = n :: rest)
    (numbers : List Nat) : numbers.Sublist (numbers.flatMap f) := by
  induction numbers with
  | nil => exact .slnil
  | cons n rest ih =>
    obtain ⟨others, hn⟩ := first n
    rw [List.flatMap_cons, hn, List.cons_append]
    exact (ih.trans (List.sublist_append_right _ _)).cons_cons n

theorem sublist_map_snd (depth : Nat) (numbers : List Nat) :
    numbers.Sublist ((numbers.flatMap fun c => below children size (depth, c)).map Prod.snd) := by
  rw [List.map_flatMap]
  apply sublist_flatMap
  intro n
  rw [below_eq down]
  exact ⟨_, rfl⟩

theorem children_sublist {work : List (Nat × Nat)} {depth p : Nat}
    (h : (depth, p) ∈ work.flatMap (below children size)) :
    (children p).Sublist ((work.flatMap (below children size)).map Prod.snd) := by
  have inside := (below_isInfix_walk down h).sublist.map Prod.snd
  rw [below_eq down, List.map_cons] at inside
  exact ((sublist_map_snd down (depth + 1) (children p)).trans
    (List.sublist_cons_self _ _)).trans inside

end Below

/-! ## The tree of a walk

Numbers of lines stand for nodes, since no node comes up twice. The lines under a line are then
those of the children, and they ascend in the order of the children because these are a sublist of
the walk. -/

def indents (walk : List (Nat × Nat)) : List Nat := walk.map fun entry => 2 * entry.1

theorem getD_indents {walk : List (Nat × Nat)} {k : Nat} {entry : Nat × Nat}
    (h : walk[k]? = some entry) : (indents walk).getD k 0 = 2 * entry.1 := by
  rw [indents, List.getD_eq_getElem?_getD, List.getElem?_map, h]
  rfl

section Spans

variable {children : Nat → List Nat} {size : Nat} {starts owners : List Nat}
  (h : Spans children size starts owners)

def steps (children : Nat → List Nat) (size : Nat) (starts : List Nat) : List (Nat × Nat) :=
  preorder children size (starts.map fun n => (0, n))

include h

theorem Spans.steps_eq : steps children size starts
    = (starts.map fun n => (0, n)).flatMap (below children size) := h.preorder_eq

theorem Spans.nodup_steps : ((steps children size starts).map Prod.snd).Nodup := by
  rw [steps, h.map_snd_preorder]
  exact h.visited_nodup

theorem Spans.mem_steps_of_start {n : Nat} (hn : n ∈ starts) :
    (0, n) ∈ steps children size starts := by
  rw [h.steps_eq, List.flatMap_map]
  refine List.mem_flatMap.2 ⟨n, hn, ?_⟩
  rw [below_eq h.descends]
  exact List.mem_cons_self

/-- The entry of a node is determined by its place. No node is visited twice, so a depth that is
known for the node is the depth in the entry that is found at the place. -/
theorem Spans.getElem?_steps {k n : Nat} {depth : Nat}
    (hk : ((steps children size starts).map Prod.snd)[k]? = some n)
    (hmem : (depth, n) ∈ steps children size starts) :
    (steps children size starts)[k]? = some (depth, n) := by
  obtain ⟨i, hi⟩ := List.mem_iff_getElem?.1 hmem
  have hn : ((steps children size starts).map Prod.snd)[i]? = some n := by
    rw [List.getElem?_map, hi]
    rfl
  obtain ⟨hlt, -⟩ := List.getElem?_eq_some_iff.1 hn
  rw [← (List.getElem?_inj hlt h.nodup_steps).1 (hn.trans hk.symm)]
  exact hi

omit h in
theorem exists_step {k n : Nat}
    (hk : ((steps children size starts).map Prod.snd)[k]? = some n) :
    ∃ depth, (steps children size starts)[k]? = some (depth, n) := by
  rw [List.getElem?_map, Option.map_eq_some_iff] at hk
  obtain ⟨⟨depth, m⟩, hentry, rfl⟩ := hk
  exact ⟨depth, hentry⟩

theorem Spans.parentLine_of_start {k n : Nat}
    (hk : ((steps children size starts).map Prod.snd)[k]? = some n) (hn : n ∈ starts) :
    parentLine (indents (steps children size starts)) k = none := by
  apply lastBelow_eq_none
  intro i _
  rw [getD_indents (h.getElem?_steps hk (h.mem_steps_of_start hn))]
  exact beq_eq_false_iff_ne.2 (Nat.succ_ne_zero _)

theorem Spans.parentLine_of_child {j k p n : Nat}
    (hj : ((steps children size starts).map Prod.snd)[j]? = some p)
    (hk : ((steps children size starts).map Prod.snd)[k]? = some n) (hn : n ∈ children p) :
    parentLine (indents (steps children size starts)) k = some j := by
  obtain ⟨depth, hp⟩ := exists_step hj
  have hmem := List.mem_of_getElem? hp
  rw [h.steps_eq] at hmem
  obtain ⟨front, between, back, hwalk, deeper⟩ := exists_between h.descends hmem hn
  rw [← h.steps_eq] at hwalk
  -- the places of the two nodes in the split
  have place : ∀ {i m : Nat}, ((steps children size starts).map Prod.snd)[i]? = some m →
      ∀ place depth, (steps children size starts)[place]? = some (depth, m) → i = place := by
    intro i m hi place depth hplace
    obtain ⟨hlt, -⟩ := List.getElem?_eq_some_iff.1 hi
    refine (List.getElem?_inj hlt h.nodup_steps).1 (hi.trans ?_)
    rw [List.getElem?_map, hplace]
    rfl
  have atParent : (steps children size starts)[front.length]? = some (depth, p) := by
    rw [hwalk]
    simp
  have atChild : (steps children size starts)[front.length + 1 + between.length]?
      = some (depth + 1, n) := by
    rw [hwalk, List.getElem?_append_right (by omega)]
    simp [Nat.add_assoc, Nat.add_comm 1]
  obtain rfl := place hj _ _ atParent
  obtain rfl := place hk _ _ atChild
  refine lastBelow_eq_some_iff.2 ⟨by omega, ?_, fun i hlt hi => ?_⟩
  · rw [getD_indents atParent, getD_indents atChild, beq_iff_eq]
    omega
  · obtain ⟨m, rfl⟩ : ∃ m, i = front.length + 1 + m := ⟨i - front.length - 1, by omega⟩
    have hm : m < between.length := by omega
    have atBetween : (steps children size starts)[front.length + 1 + m]? = some between[m] := by
      rw [hwalk, List.getElem?_append_right (by omega)]
      simp [Nat.add_assoc, Nat.add_comm 1, List.getElem?_append_left hm]
    have hdeep := deeper between[m] (List.getElem_mem hm)
    rw [getD_indents atBetween, getD_indents atChild, beq_eq_false_iff_ne]
    omega

theorem Spans.start_or_child {k n : Nat}
    (hk : ((steps children size starts).map Prod.snd)[k]? = some n) :
    n ∈ starts ∨ ∃ j p : Nat, ((steps children size starts).map Prod.snd)[j]? = some p ∧
      n ∈ children p := by
  have hn := List.mem_of_getElem? hk
  rw [steps, h.map_snd_preorder, mem_visited_iff h.descends] at hn
  apply hn.imp_right
  rintro ⟨p, hp, hc⟩
  rw [← h.map_snd_preorder] at hp
  obtain ⟨j, hj⟩ := List.mem_iff_getElem?.1 hp
  exact ⟨j, p, hj, hc⟩

/-- **The parent line of a node is the line of its parent.** From left to right, a line that is no
start is that of a child, and the line of its parent is then the only candidate. -/
theorem Spans.parentLine_eq_some_iff {j k p n : Nat}
    (hj : ((steps children size starts).map Prod.snd)[j]? = some p)
    (hk : ((steps children size starts).map Prod.snd)[k]? = some n) :
    parentLine (indents (steps children size starts)) k = some j ↔ n ∈ children p := by
  constructor
  · intro hline
    rcases h.start_or_child hk with hn | ⟨i, q, hi, hc⟩
    · rw [h.parentLine_of_start hk hn] at hline
      cases hline
    · rw [h.parentLine_of_child hi hk hc] at hline
      cases hline
      rw [hi] at hj
      cases hj
      exact hc
  · exact h.parentLine_of_child hj hk

/-- The lines without a parent line are those of the nodes at which the walk starts. -/
theorem Spans.parentLine_eq_none_iff {k n : Nat}
    (hk : ((steps children size starts).map Prod.snd)[k]? = some n) :
    parentLine (indents (steps children size starts)) k = none ↔ n ∈ starts := by
  constructor
  · intro hline
    rcases h.start_or_child hk with hn | ⟨i, q, hi, hc⟩
    · exact hn
    · rw [h.parentLine_of_child hi hk hc] at hline
      cases hline
  · exact h.parentLine_of_start hk

omit h in
/-- Different elements filtered for those of a sublist are the sublist. This is what turns a
description of the lines under a line into the list of children in their order. -/
theorem filter_mem_of_sublist {some all : List Nat} (sub : some.Sublist all) (nodup : all.Nodup) :
    all.filter (fun n => decide (n ∈ some)) = some := by
  induction sub with
  | slnil => rfl
  | cons n sub ih =>
    obtain ⟨hn, hrest⟩ := List.nodup_cons.1 nodup
    rw [List.filter_cons_of_neg (by simpa using fun hm => hn (sub.subset hm))]
    exact ih hrest
  | cons_cons n sub ih =>
    obtain ⟨hn, hrest⟩ := List.nodup_cons.1 nodup
    rw [List.filter_cons_of_pos (by simp)]
    congr 1
    refine Eq.trans (List.filter_congr fun m hm => ?_) (ih hrest)
    have hne : m ≠ n := fun he => hn (he ▸ hm)
    simp [hne]

/-- The lines with one parent are those of a sublist of the walk, when they are those of its nodes.
Both kinds of lines, those of children and those of starting nodes, are such sublists. -/
theorem Spans.map_linesUnder {parent : Option Nat} {nodes : List Nat}
    (sub : nodes.Sublist ((steps children size starts).map Prod.snd))
    (same : ∀ k n : Nat, ((steps children size starts).map Prod.snd)[k]? = some n →
      (parentLine (indents (steps children size starts)) k = parent ↔ n ∈ nodes)) :
    (linesUnder (indents (steps children size starts)) parent).map
        (fun k => ((steps children size starts).map Prod.snd)[k]?) = nodes.map some := by
  have nodup := h.nodup_steps
  have length : (indents (steps children size starts)).length
      = ((steps children size starts).map Prod.snd).length := by simp [indents]
  -- from here on it does not matter how the numbers were found
  generalize (steps children size starts).map Prod.snd = numbers at sub same nodup length ⊢
  have lines : linesUnder (indents (steps children size starts)) parent
      = (List.range numbers.length).filter
          ((fun number : Option Nat => number.any fun n => decide (n ∈ nodes)) ∘
            fun k => numbers[k]?) := by
    rw [linesUnder, length]
    apply List.filter_congr
    intro k hk
    have hn := List.getElem?_eq_getElem (List.mem_range.1 hk)
    rw [Bool.eq_iff_iff, beq_iff_eq, same k _ hn]
    simp [hn]
  have all : (List.range numbers.length).map (fun k => numbers[k]?) = numbers.map some := by
    apply List.ext_getElem?
    intro k
    by_cases hk : k < numbers.length
    · simp [hk]
    · simp [hk]
  rw [lines, ← List.filter_map, all, List.filter_map]
  exact congrArg (List.map some) (filter_mem_of_sublist sub nodup)

/-- **The lines under a line are those of its children, in order.** -/
theorem Spans.linesUnder_some {j p : Nat}
    (hj : ((steps children size starts).map Prod.snd)[j]? = some p) :
    (linesUnder (indents (steps children size starts)) (some j)).map
        (fun k => ((steps children size starts).map Prod.snd)[k]?) = (children p).map some := by
  apply h.map_linesUnder
  · obtain ⟨depth, hp⟩ := exists_step hj
    have hmem := List.mem_of_getElem? hp
    rw [h.steps_eq] at hmem ⊢
    exact children_sublist h.descends hmem
  · intro k n hk
    exact h.parentLine_eq_some_iff hj hk

/-- The lines under no line are those of the starting nodes, in order. -/
theorem Spans.linesUnder_none :
    (linesUnder (indents (steps children size starts)) none).map
        (fun k => ((steps children size starts).map Prod.snd)[k]?) = starts.map some := by
  apply h.map_linesUnder
  · rw [h.steps_eq, List.flatMap_map]
    exact sublist_map_snd h.descends 0 starts
  · intro k n hk
    exact h.parentLine_eq_none_iff hk

end Spans

end Walk

/-! ## Labelled trees

Trees without numbers. Two documentations number their nodes differently, and it is only the labels
that can be compared. -/

/-- A label with the trees below it. A `Tree` has numbers of nodes, which mean nothing outside of
the documentation that they are from. -/
inductive Outline (α : Type) where
  | node (label : α) (below : List (Outline α))

mutual

def Tree.labelled {α : Type} (label : Nat → α) : Tree → Outline α
  | .node n children => .node (label n) (Tree.allLabelled label children)

def Tree.allLabelled {α : Type} (label : Nat → α) : List Tree → List (Outline α)
  | [] => []
  | tree :: rest => tree.labelled label :: Tree.allLabelled label rest

end

theorem Tree.allLabelled_eq_map {α : Type} (label : Nat → α) (trees : List Tree) :
    Tree.allLabelled label trees = trees.map (Tree.labelled label) := by
  induction trees with
  | nil => rfl
  | cons tree rest ih => rw [Tree.allLabelled, List.map_cons, ih]

/-- Trees are labelled alike when one set of numbers is taken to the other, with the children of
each in order and the same labels. -/
theorem Tree.labelled_unfold_congr {α : Type} {children others : Nat → List Nat}
    {label otherLabel : Nat → α} {node : Nat → Nat} {among : Nat → Prop}
    (closed : ∀ k, among k → ∀ c ∈ children k, among c)
    (same : ∀ k, among k → (children k).map node = others (node k))
    (sameLabel : ∀ k, among k → label k = otherLabel (node k)) (levels : Nat) {k : Nat}
    (hk : among k) :
    (Tree.unfold children levels k).labelled label
      = (Tree.unfold others levels (node k)).labelled otherLabel := by
  induction levels generalizing k with
  | zero => rw [Tree.unfold, Tree.unfold, Tree.labelled, Tree.labelled, sameLabel k hk]; rfl
  | succ levels ih =>
    rw [Tree.unfold, Tree.unfold, Tree.labelled, Tree.labelled, sameLabel k hk,
      Tree.allLabelled_eq_map, Tree.allLabelled_eq_map, List.map_map, List.map_map,
      ← same k hk, List.map_map]
    congr 1
    apply List.map_congr_left
    intro c hc
    exact ih (closed k hk c hc)

end DocTree
