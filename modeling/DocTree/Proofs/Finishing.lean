import DocTree.Documentation.Finish
import DocTree.Proofs.SourceRecords
import DocTree.Proofs.VisitedNodes

/-!
# What finishing keeps

Finishing writes to the nodes in four passes. The first settles each visited node, and the list is
filled from what it leaves. The others enter links and show kinds, and they touch neither the shape
of the tree nor what the list was filled from: `Node.fixed` is what they all keep, `SameFrame` says
it of whole documentations, and a run of changes keeps the frame because each one does. So the
finished documentation can be read off the listing that it was made from (`Shows`).

A pass is a fold that changes one node at a time. Two facts about such folds carry everything below.
What every change leaves alone is left alone by the fold (`map_foldl_modify`), whichever nodes it
visits and however often. And where the visited nodes are all different, each of them is changed
exactly once, by what it was before (`getElem?_foldl_modify`); settling and showing need this, as
neither can be done twice to the same effect.

There are two parts of a record that passes are compared by. `Fixed` is kept from settling on, and
the list, the tree and the names come from it. `Record.shape` is what links leave alone although
showing does not, so it is followed only up to the last pass and read there as shown.

Nothing here knows of files. The forest is arbitrary but for the visited nodes being distinct, which
holds for forests of files and is supplied where those are finished.
-/

set_option autoImplicit false

namespace DocTree

/-! ## Nodes

Of one record: what the passes change of it and what they keep. The kinds are the delicate part,
because the list leaves sections out and showing changes kinds. It never makes a section, nor
unmakes one, as only members change and a member stays one. -/

/-- What stays of a node once it is settled. Of the kind it has only whether it is that of a
section, since the others may be shown as something else. -/
structure Fixed where
  key : String
  children : List Nat
  isSection : Bool
  name : String
  path : String
  sectionName : Option String
  content : Content

def Node.fixed (node : Node) : Fixed :=
  ⟨node.key, node.children, node.record.isSection, node.record.name, node.record.path,
    node.record.sectionName, node.record.content⟩

def Keeps (f : Record → Record) : Prop := ∀ node : Node, (node.mapRecord f).fixed = node.fixed

theorem keeps_addAlias (id : String) : Keeps (Record.addAlias id) := fun _ => rfl

theorem keeps_addSubclass (id : String) : Keeps (Record.addSubclass id) := fun _ => rfl

def Kind.memberKinds : List Kind :=
  [.method, .prototype, .event, .utility, .classMethod, .instanceMethod, .classPrototype,
   .instancePrototype]

theorem Record.memberKind_mem {kind : Kind} (h : kind.isMember = true) (id : String) :
    memberKind kind id ∈ Kind.memberKinds := by
  have own : kind ∈ Kind.memberKinds := by
    revert h
    cases kind <;> decide
  have side : ∀ side, kind.onSide side ∈ Kind.memberKinds := by
    intro side
    revert h
    cases kind <;> cases side <;> decide
  unfold memberKind
  dsimp only
  split
  · decide
  · split
    · decide
    · split
      · exact side _
      · split
        · exact side _
        · exact own

/-- A kind that no member is shown with is shown only where it was there before. Sections, classes
and constructors are such kinds, and each time it is this that lets a record be recognised after it
has been shown. -/
theorem Record.shown_kind_eq_iff {kind : Kind} (apart : kind ∉ Kind.memberKinds)
    (record : Record) : record.shown.kind = kind ↔ record.kind = kind := by
  unfold shown
  split
  · rfl
  · split
    case isTrue member =>
      refine iff_of_false (fun he => apart ?_) (fun he => apart ?_)
      · exact he ▸ memberKind_mem member record.id
      · rw [he] at member
        revert member
        cases kind <;> decide
    case isFalse => rfl

theorem Record.shown_of_section {record : Record} (h : record.isSection = true) :
    record.shown = record := by
  have hkind : record.kind = .sectionKind := beq_iff_eq.1 h
  unfold shown
  rw [if_neg (by rw [hkind]; decide), if_neg (by rw [hkind]; decide)]

/-- A record is shown with its own fields but for the identifier and the kind. Whatever else is
asked of a shown record can be asked of the record itself. -/
theorem Record.shown_eq (record : Record) :
    record.shown = { record with id := record.shown.id, kind := record.shown.kind } := by
  unfold shown
  split
  · rfl
  · split <;> rfl

theorem keeps_shown : Keeps Record.shown := by
  intro node
  have section_eq : node.record.shown.isSection = node.record.isSection := by
    rw [Bool.eq_iff_iff, Record.isSection, Record.isSection, beq_iff_eq, beq_iff_eq]
    exact Record.shown_kind_eq_iff (by decide) node.record
  rw [Node.fixed, Node.mapRecord, section_eq, Record.shown_eq]
  rfl

def Record.shape (record : Record) : Kind × String × Option String :=
  (record.kind, record.id, record.bound)

theorem Record.shape_shown_congr {record other : Record} (h : record.shape = other.shape) :
    record.shown.shape = other.shown.shape := by
  simp only [Record.shape, Prod.mk.injEq] at h
  obtain ⟨hkind, hid, hbound⟩ := h
  unfold Record.shown
  rw [hkind, hid]
  split
  · simp only [Record.shape, hbound]
  · split <;> simp only [Record.shape, hkind, hid, hbound]

theorem Forest.children_eq (forest : Forest) (n : Nat) :
    forest.children n = (forest.nodes[n]?.map Node.children).getD [] := by
  unfold Forest.children
  cases forest.nodes[n]? <;> rfl

/-! ## Documentations with the same frame

The list, the top level and the fixed part of every node. A documentation with the same frame has
the same names and the same walk. -/

namespace Documentation

/-- The same list and the same tree, and nodes that differ in links and shown forms alone. What only
depends on these need not be followed through the passes. -/
structure SameFrame (doc other : Documentation) : Prop where
  list : doc.list = other.list
  topLevel : doc.topLevel = other.topLevel
  fixed : doc.nodes.map Node.fixed = other.nodes.map Node.fixed

theorem SameFrame.trans {doc other third : Documentation} (h : SameFrame doc other)
    (h' : SameFrame other third) : SameFrame doc third :=
  ⟨h.list.trans h'.list, h.topLevel.trans h'.topLevel, h.fixed.trans h'.fixed⟩

theorem SameFrame.getElem? {doc other : Documentation} (h : SameFrame doc other) (n : Nat) :
    doc.nodes[n]?.map Node.fixed = other.nodes[n]?.map Node.fixed := by
  rw [← Array.getElem?_map, h.fixed, Array.getElem?_map]

/-- A change keeps the part of every node that it leaves alone in one, and then so does a run of
changes. -/
theorem map_modify {β : Type} {part : Node → β} {f : Record → Record}
    (keeps : ∀ node, part (node.mapRecord f) = part node) (doc : Documentation) (n : Nat) :
    (doc.modify n f).nodes.map part = doc.nodes.map part := by
  refine Array.ext_getElem? fun i => ?_
  rw [Array.getElem?_map, Array.getElem?_map, modify, Array.getElem?_modify]
  by_cases hi : n = i
  · rw [if_pos hi, Option.map_map]
    exact congrArg (fun g => Option.map g doc.nodes[i]?) (funext keeps)
  · rw [if_neg hi]

theorem map_foldl_modify {α β : Type} {part : Node → β} {number : α → Nat}
    {change : α → Record → Record}
    (keeps : ∀ link node, part (node.mapRecord (change link)) = part node) (links : List α)
    (doc : Documentation) :
    (links.foldl (fun doc link => doc.modify (number link) (change link)) doc).nodes.map part
      = doc.nodes.map part := by
  induction links generalizing doc with
  | nil => rfl
  | cons link rest ih => rw [List.foldl_cons, ih, map_modify (keeps link)]

theorem sameFrame_foldl {α : Type} {number : α → Nat} {change : α → Record → Record}
    (keeps : ∀ link, Keeps (change link)) (links : List α) (doc : Documentation) :
    SameFrame (links.foldl (fun doc link => doc.modify (number link) (change link)) doc) doc := by
  constructor
  case fixed => exact map_foldl_modify keeps links doc
  case list =>
    induction links generalizing doc with
    | nil => rfl
    | cons link rest ih => exact ih _
  case topLevel =>
    induction links generalizing doc with
    | nil => rfl
    | cons link rest ih => exact ih _

/-- **Links and shown forms keep the frame** of the settled documentation. Each of the three passes
is a run of changes at nodes, and each change keeps the fixed part. -/
theorem sameFrame_ofForest (forest : Forest) : SameFrame (ofForest forest) (settle forest) :=
  (sameFrame_foldl (fun _ => keeps_shown) forest.visited _).trans
    ((sameFrame_foldl (fun _ => keeps_addSubclass _)
      (settle forest).linkAliases.subclassLinks _).trans
      (sameFrame_foldl (fun _ => keeps_addAlias _) (settle forest).aliasLinks _))

/-! ## The settled documentation

The first pass, and the list that is filled from it. Nodes of the same key overwrite each other in
the list, so an identifier leads to the last visited node of that key, and a node need not be found
under its own one. -/

/-- Each of different nodes is changed once, by what it was before. That they are different is
needed: a node that came twice would be changed twice. -/
theorem getElem?_foldl_modify (f : Node → Node) {numbers : List Nat} (distinct : numbers.Nodup)
    (nodes : Array Node) (i : Nat) :
    (numbers.foldl (fun nodes n => nodes.modify n f) nodes)[i]?
      = if i ∈ numbers then nodes[i]?.map f else nodes[i]? := by
  induction numbers generalizing nodes with
  | nil => rfl
  | cons n rest ih =>
    obtain ⟨hn, hrest⟩ := List.nodup_cons.1 distinct
    rw [List.foldl_cons, ih hrest, Array.getElem?_modify]
    by_cases hi : n = i
    · subst hi
      -- a later change does not come back to it
      rw [if_neg hn, if_pos rfl, if_pos List.mem_cons_self]
    · rw [if_neg hi]
      by_cases hm : i ∈ rest
      · rw [if_pos hm, if_pos (List.mem_cons_of_mem _ hm)]
      · rw [if_neg hm, if_neg fun h => hm ((List.mem_cons.1 h).resolve_left (Ne.symm hi))]

def listEntry (nodes : Array Node) (n : Nat) : Option (String × Nat) :=
  (nodes[n]?.filter fun node => !node.record.isSection).map fun node => (node.key, n)

theorem listEntry_eq_fixed (nodes : Array Node) (n : Nat) :
    listEntry nodes n
      = ((nodes[n]?.map Node.fixed).filter fun kept => !kept.isSection).map
          fun kept => (kept.key, n) := by
  unfold listEntry
  cases nodes[n]? with
  | none => rfl
  | some node => cases hs : node.record.isSection <;> simp [hs, Option.filter, Node.fixed]

theorem listEntry_eq_some_iff {nodes : Array Node} {n : Nat} {entry : String × Nat} :
    listEntry nodes n = some entry ↔
      ∃ node, nodes[n]? = some node ∧ node.record.isSection = false ∧ (node.key, n) = entry := by
  simp only [listEntry, Option.map_eq_some_iff, Option.filter_eq_some_iff, Bool.not_eq_true',
    and_assoc]

theorem listNode_eq (nodes : Array Node) (list : Catalog Nat) (n : Nat) :
    listNode nodes list n =
      match listEntry nodes n with
      | some entry => list.insert entry.1 entry.2
      | none => list := by
  unfold listNode listEntry
  cases nodes[n]? with
  | none => rfl
  | some node => cases hs : node.record.isSection <;> simp [hs, Option.filter]

theorem foldl_listNode (nodes : Array Node) (numbers : List Nat) (list : Catalog Nat) :
    numbers.foldl (listNode nodes) list
      = (numbers.filterMap (listEntry nodes)).foldl
          (fun list entry => list.insert entry.1 entry.2) list := by
  induction numbers generalizing list with
  | nil => rfl
  | cons n rest ih =>
    rw [List.foldl_cons, ih, listNode_eq, List.filterMap_cons]
    cases listEntry nodes n <;> rfl

theorem children_eq (doc : Documentation) (n : Nat) :
    doc.children n = (doc.nodes[n]?.map Node.children).getD [] := by
  unfold children
  cases doc.nodes[n]? <;> rfl

theorem size_foldl_modify (f : Node → Node) (numbers : List Nat) (nodes : Array Node) :
    (numbers.foldl (fun nodes n => nodes.modify n f) nodes).size = nodes.size := by
  induction numbers generalizing nodes with
  | nil => rfl
  | cons n rest ih => rw [List.foldl_cons, ih, Array.size_modify]

section OfForest

variable (forest : Forest)

theorem topLevel_ofForest : (ofForest forest).topLevel = forest.topLevel :=
  (sameFrame_ofForest forest).topLevel

theorem size_ofForest : (ofForest forest).nodes.size = forest.nodes.size := by
  have hsize := congrArg Array.size (sameFrame_ofForest forest).fixed
  rw [Array.size_map, Array.size_map] at hsize
  exact hsize.trans (size_foldl_modify Node.settled forest.visited forest.nodes)

theorem list_ofForest :
    (ofForest forest).list
      = Catalog.ofList (forest.visited.filterMap (listEntry (settle forest).nodes)) :=
  (sameFrame_ofForest forest).list.trans (foldl_listNode _ forest.visited _)

/-- Under each identifier the list has the last visited node that makes an entry there. Sections
make none, and of other nodes of one key the later replaces the earlier. -/
theorem lookup_ofForest (id : String) :
    (ofForest forest).lookup id
      = Catalog.lastValue id (forest.visited.filterMap (listEntry (settle forest).nodes)) := by
  rw [lookup, list_ofForest, Catalog.get?_ofList]

theorem listEntry_ofForest (n : Nat) :
    listEntry (ofForest forest).nodes n = listEntry (settle forest).nodes n := by
  rw [listEntry_eq_fixed, listEntry_eq_fixed, (sameFrame_ofForest forest).getElem? n]

variable {forest}

/-- A listed node has the key under which it is listed, and is no section. The converse fails where
two nodes have the same key. -/
theorem node_of_lookup {id : String} {n : Nat} (h : (ofForest forest).lookup id = some n) :
    ∃ node, (ofForest forest).nodes[n]? = some node ∧ node.record.isSection = false ∧
      node.key = id := by
  rw [lookup_ofForest] at h
  obtain ⟨m, -, he⟩ := List.mem_filterMap.1 (Catalog.mem_of_lastValue h)
  rw [← listEntry_ofForest] at he
  obtain ⟨node, hnode, hsection, hentry⟩ := listEntry_eq_some_iff.1 he
  cases hentry
  exact ⟨node, hnode, hsection, rfl⟩

theorem lookup_inj {id other : String} {n : Nat} (h : (ofForest forest).lookup id = some n)
    (h' : (ofForest forest).lookup other = some n) : id = other := by
  obtain ⟨node, hnode, -, rfl⟩ := node_of_lookup h
  obtain ⟨same, hsame, -, rfl⟩ := node_of_lookup h'
  rw [Option.some.inj (hnode.symm.trans hsame)]

end OfForest

theorem nodes_showRecords (doc : Documentation) (numbers : List Nat) :
    (doc.showRecords numbers).nodes
      = numbers.foldl (fun nodes n => nodes.modify n (Node.mapRecord Record.shown)) doc.nodes := by
  induction numbers generalizing doc with
  | nil => rfl
  | cons n rest ih => exact ih _

section Once

variable {forest : Forest} (once : forest.visited.Nodup)
include once

theorem getElem?_settle (n : Nat) :
    (settle forest).nodes[n]?
      = if n ∈ forest.visited then forest.nodes[n]?.map Node.settled else forest.nodes[n]? :=
  getElem?_foldl_modify Node.settled once forest.nodes n

theorem getElem?_ofForest {n : Nat} (hn : n ∈ forest.visited) :
    (ofForest forest).nodes[n]?.map Node.fixed
      = forest.nodes[n]?.map fun node => node.settled.fixed := by
  rw [(sameFrame_ofForest forest).getElem? n, getElem?_settle once, if_pos hn, Option.map_map]
  rfl

theorem children_ofForest : (ofForest forest).children = forest.children := by
  funext n
  have hfixed := congrArg (Option.map Fixed.children) ((sameFrame_ofForest forest).getElem? n)
  rw [Option.map_map, Option.map_map] at hfixed
  have hsettled : (settle forest).nodes[n]?.map Node.children
      = forest.nodes[n]?.map Node.children := by
    rw [getElem?_settle once]
    split
    · rw [Option.map_map]
      rfl
    · rfl
  rw [children_eq, forest.children_eq]
  exact congrArg (fun children => children.getD []) (hfixed.trans hsettled)

theorem map_snd_walk : (ofForest forest).walk.map Prod.snd = forest.visited := by
  rw [walk, children_ofForest once, size_ofForest, topLevel_ofForest]
  rfl

theorem listEntry_settle {n : Nat} (hn : n ∈ forest.visited) {entry : String × Nat} :
    listEntry (settle forest).nodes n = some entry ↔
      ∃ node, forest.nodes[n]? = some node ∧ node.record.isSection = false ∧
        (node.settled.key, n) = entry := by
  rw [listEntry_eq_some_iff, getElem?_settle once, if_pos hn]
  constructor
  · rintro ⟨settled, hs, hsection, he⟩
    obtain ⟨node, hnode, rfl⟩ := Option.map_eq_some_iff.1 hs
    exact ⟨node, hnode, hsection, he⟩
  · rintro ⟨node, hnode, hsection, he⟩
    exact ⟨node.settled, Option.map_eq_some_iff.2 ⟨node, hnode, rfl⟩, hsection, he⟩

theorem of_lookup_ofForest {id : String} {n : Nat} (h : (ofForest forest).lookup id = some n) :
    n ∈ forest.visited ∧ ∃ node, forest.nodes[n]? = some node ∧ node.record.isSection = false ∧
      node.settled.key = id := by
  rw [lookup_ofForest] at h
  obtain ⟨m, hm, he⟩ := List.mem_filterMap.1 (Catalog.mem_of_lastValue h)
  obtain ⟨node, hnode, hsection, hentry⟩ := (listEntry_settle once hm).1 he
  cases hentry
  exact ⟨hm, node, hnode, hsection, rfl⟩

/-- Whatever was visited and is no section has its identifier in the list. Its number may not be
there: this is as much as the list promises. -/
theorem isSome_lookup_ofForest {n : Nat} {node : Node} (hn : n ∈ forest.visited)
    (hnode : forest.nodes[n]? = some node) (hsection : node.record.isSection = false) :
    ((ofForest forest).lookup node.settled.key).isSome = true := by
  rw [lookup_ofForest]
  refine Catalog.lastValue_isSome (List.mem_map.2 ⟨(node.settled.key, n), ?_, rfl⟩)
  exact List.mem_filterMap.2 ⟨n, hn, (listEntry_settle once hn).2 ⟨node, hnode, hsection, rfl⟩⟩

/-- Links leave the shape of a record alone, so the shown one is that of the settled record. The
shape cannot be part of `Fixed`, as showing changes it; it is carried through the two linking passes
and changed by the last one, once. -/
theorem shape_ofForest {n : Nat} (hn : n ∈ forest.visited) :
    (ofForest forest).nodes[n]?.map (fun node => node.record.shape)
      = forest.nodes[n]?.map fun node => node.record.settled.shown.shape := by
  have aliases : (settle forest).linkAliases.nodes.map (fun node => node.record.shape)
      = (settle forest).nodes.map fun node => node.record.shape :=
    map_foldl_modify (fun _ _ => rfl) _ _
  have linked : (settle forest).linkAliases.linkSubclasses.nodes.map (fun node => node.record.shape)
      = (settle forest).linkAliases.nodes.map fun node => node.record.shape :=
    map_foldl_modify (fun _ _ => rfl) _ _
  have same := congrArg (fun shapes => shapes[n]?) (linked.trans aliases)
  simp only [Array.getElem?_map, getElem?_settle once, if_pos hn, Option.map_map] at same
  rw [ofForest, nodes_showRecords, getElem?_foldl_modify _ once, if_pos hn, Option.map_map]
  cases hnode : forest.nodes[n]? with
  | none =>
    rw [hnode, Option.map_none, Option.map_eq_none_iff] at same
    rw [same, Option.map_none, Option.map_none]
  | some node =>
    rw [hnode, Option.map_some] at same
    obtain ⟨kept, hkept, hshape⟩ := Option.map_eq_some_iff.1 same
    rw [hkept]
    exact congrArg some (Record.shape_shown_congr hshape)

end Once

end Documentation

end DocTree
