import DocTree.Proofs.DocumentedSymbols

/-!
# Links say who names whom

A record names another one as what it is an alias of, or as the class that its own is derived from.
Finishing turns these references around: the record that is named gets a list of those that name it.
The references are collected from the list, and the nodes are changed one link at a time, so what a
node has in the end is what it had, followed by the keys of the records that name it, in the order
of the list (`map_snd_linksBy`). It had nothing, and as a node is listed under its own key alone,
only a name that is this key leads to it. So both lists of a record can be read off the finished
documentation, and a node that the list does not lead to has nothing in them.

The two kinds of links are alike but for one point: an alias may name anything, while a link to a
derived class is entered only where both ends are classes. They are therefore handled together as
far as possible. `linksBy` takes the function that finds the target, and `keysWhere_target` takes
the reference that leads there.

Links are found in the documentation as it is between two passes, and the statement is about the
finished one. What the search for links looks at (`Saying`) is kept by all later passes: whether a
record is a class, and its content. The kind itself is not kept, since members are shown under other
kinds, and so the search cannot be compared by kinds.

Nodes with the same key as another one are not forgotten. They are in the tree and shown, and yet no
name leads to them, so their lists stay empty; a statement about listed records alone would leave
open what is written for them.
-/

set_option autoImplicit false

namespace DocTree

/-! ## Records before they are linked

No record comes from its file with anything in these lists. Classes have an empty list for derived
ones and nothing else has one, which is how a class without derived ones is told from a record that
cannot have any. -/

/-- A record that no other is entered at yet; a class has a list of derived ones to enter at.
Records are in this state when they are settled and the search for links begins. -/
structure Record.Unlinked (record : Record) : Prop where
  aliases : record.aliases = []
  subclasses : record.subclasses = if record.kind = .classKind then some [] else none

theorem Listing.Origin.unlinked {options : Options} {files : List SourceFile} {key : String}
    {record : Record} (h : Origin options files key record) : record.Unlinked := by
  cases h with
  | nameless => exact ⟨rfl, rfl⟩
  | keptSection _ _ => exact ⟨rfl, rfl⟩
  | movedSection _ _ _ => exact ⟨rfl, rfl⟩
  | symbol _ _ _ => exact ⟨rfl, rfl⟩

/-- What the search for links looks at in a record. The passes change records, but not this of them,
so what one record says can be read off before or after a pass. -/
structure Saying where
  isClass : Bool
  content : Content

def Record.said (record : Record) : Saying := ⟨record.kind == .classKind, record.content⟩

def Saying.superclass (saying : Saying) : Option String :=
  if saying.isClass then saying.content.superclass else none

theorem Record.superclass_said_eq_some_iff {record : Record} {name : String} :
    record.said.superclass = some name ↔
      record.kind = .classKind ∧ record.superclass = some name := by
  simp [Saying.superclass, said, content]

theorem Record.said_shown (record : Record) : record.shown.said = record.said := by
  have class_eq : (record.shown.kind == .classKind) = (record.kind == .classKind) := by
    rw [Bool.eq_iff_iff, beq_iff_eq, beq_iff_eq]
    exact shown_kind_eq_iff (by decide) record
  rw [said, class_eq, shown_eq]
  rfl

namespace Documentation

/-! ## Records by what they say

Which listed records have a property, and by which links they point. The first is what a statement
can say, the second is what a pass goes through. -/

def keysWhere (doc : Documentation) (p : Record → Bool) : List String :=
  doc.list.keys.filter fun key => (doc.get? key).any p

/-- The links that records make to the nodes that they name, in the order of the list. A record that
names no node of the documentation makes none. -/
def linksBy (doc : Documentation) (target : Record → Option Nat) : List (Nat × String) :=
  doc.listed.filterMap fun entry => (target entry.2).map fun n => (n, entry.1)

section Listed

variable {doc other : Documentation}

theorem get?_of_mem_list {entry : String × Nat} (h : entry ∈ doc.list.entries) :
    doc.get? entry.1 = doc.record? entry.2 := by
  rw [get?, lookup, Catalog.get?_of_mem h, Option.bind_some]

theorem keysWhere_nodup (doc : Documentation) (p : Record → Bool) : (doc.keysWhere p).Nodup :=
  doc.list.nodup.filter _

theorem keysWhere_eq_entries (doc : Documentation) (p : Record → Bool) :
    doc.keysWhere p
      = (doc.list.entries.filter fun entry => (doc.record? entry.2).any p).map Prod.fst := by
  rw [keysWhere, Catalog.keys, List.filter_map]
  refine congrArg (List.map Prod.fst) (List.filter_congr fun entry he => ?_)
  exact congrArg (Option.any p) (get?_of_mem_list he)

theorem keysWhere_congr {p q : Record → Bool} (list : doc.list = other.list)
    (same : ∀ n, (doc.record? n).any p = (other.record? n).any q) :
    doc.keysWhere p = other.keysWhere q := by
  rw [keysWhere_eq_entries, keysWhere_eq_entries, list]
  exact congrArg (List.map Prod.fst) (List.filter_congr fun entry _ => same entry.2)

theorem keysWhere_eq_nil {p : Record → Bool} (none : ∀ record, p record = false) :
    doc.keysWhere p = [] := by
  rw [keysWhere, List.filter_eq_nil_iff]
  intro key _
  cases doc.get? key with
  | none => exact Bool.false_ne_true
  | some record => exact Bool.eq_false_iff.1 (none record)

/-- **The links to one node** come from the records that name it. The search writes through a list
of pairs; this reads off that list what is entered at a single node. -/
theorem map_snd_linksBy (doc : Documentation) (target : Record → Option Nat) (n : Nat) :
    ((doc.linksBy target).filter fun link => link.1 == n).map Prod.snd
      = doc.keysWhere fun record => target record == some n := by
  rw [keysWhere_eq_entries, linksBy, listed]
  induction doc.list.entries with
  | nil => rfl
  | cons entry rest ih =>
    rw [List.filterMap_cons, List.filter_cons]
    cases doc.record? entry.2 with
    | none => exact ih
    | some record =>
      rw [Option.map_some, Option.any_some]
      dsimp only
      rw [List.filterMap_cons]
      cases target record with
      | none => exact ih
      | some m =>
        rw [Option.map_some]
        dsimp only
        rw [List.filter_cons]
        by_cases hm : m = n
        · rw [if_pos (beq_iff_eq.2 hm), if_pos (beq_iff_eq.2 (congrArg some hm)), List.map_cons, ih]
          rfl
        · rw [if_neg fun h => hm (beq_iff_eq.1 h),
            if_neg fun h => hm (Option.some.inj (beq_iff_eq.1 h)), ih]

end Listed

/-! ## The links that a node gets

A pass changes nodes in the order of the links. Read at one node it is a fold over the links with
that number, and each of them adds one key at the end. -/

/-- A run of changes, read at one node: those with its number, one after the other. Here a node may
be changed many times, unlike when it is settled or shown. -/
theorem getElem?_nodes_foldl {α : Type} (number : α → Nat) (change : α → Record → Record)
    (links : List α) (doc : Documentation) (n : Nat) :
    (links.foldl (fun doc link => doc.modify (number link) (change link)) doc).nodes[n]?
      = doc.nodes[n]?.map (Node.mapRecord fun record =>
          (links.filter fun link => number link == n).foldl
            (fun record link => change link record) record) := by
  induction links generalizing doc with
  | nil => exact Option.map_id'.symm
  | cons link rest ih =>
    rw [List.foldl_cons, ih, modify, Array.getElem?_modify, List.filter_cons]
    by_cases hn : number link = n
    · rw [if_pos hn, if_pos (beq_iff_eq.2 hn), Option.map_map]
      rfl
    · rw [if_neg hn, if_neg fun h => hn (beq_iff_eq.1 h)]

theorem aliases_foldl_addAlias (links : List (Nat × String)) (record : Record) :
    (links.foldl (fun record link => record.addAlias link.2) record).aliases
      = record.aliases ++ links.map Prod.snd := by
  induction links generalizing record with
  | nil => exact (List.append_nil _).symm
  | cons link rest ih =>
    rw [List.foldl_cons, ih, Record.addAlias, List.append_assoc, List.map_cons]
    rfl

theorem subclasses_foldl_addSubclass (links : List (Nat × String)) (record : Record) :
    (links.foldl (fun record link => record.addSubclass link.2) record).subclasses
      = record.subclasses.map (· ++ links.map Prod.snd) := by
  induction links generalizing record with
  | nil => simp
  | cons link rest ih =>
    rw [List.foldl_cons, ih, Record.addSubclass, Option.map_map]
    refine congrFun (congrArg Option.map (funext fun subclasses => ?_)) record.subclasses
    simp

theorem aliases_linkAliases (doc : Documentation) (n : Nat) :
    doc.linkAliases.nodes[n]?.map (fun node => node.record.aliases)
      = doc.nodes[n]?.map fun node => node.record.aliases
          ++ doc.keysWhere fun record => doc.aliasTarget record == some n := by
  rw [linkAliases, getElem?_nodes_foldl, Option.map_map, ← map_snd_linksBy]
  refine congrFun (congrArg Option.map (funext fun node => ?_)) _
  exact aliases_foldl_addAlias _ node.record

theorem subclasses_linkSubclasses (doc : Documentation) (n : Nat) :
    doc.linkSubclasses.nodes[n]?.map (fun node => node.record.subclasses)
      = doc.nodes[n]?.map fun node => node.record.subclasses.map
          (· ++ doc.keysWhere fun record => doc.superclassTarget record == some n) := by
  rw [linkSubclasses, getElem?_nodes_foldl, Option.map_map, ← map_snd_linksBy]
  refine congrFun (congrArg Option.map (funext fun node => ?_)) _
  exact subclasses_foldl_addSubclass _ node.record

/-! ## What finishing does with the links

The passes around the two that enter links are shown to change neither the lists that links are
entered in nor what the links are found by. After that the intermediate documentations are gone from
the statements. -/

section OfForest

variable (forest : Forest)

theorem said_linkAliases (doc : Documentation) :
    doc.linkAliases.nodes.map (fun node => node.record.said)
      = doc.nodes.map fun node => node.record.said :=
  map_foldl_modify (fun _ _ => rfl) doc.aliasLinks doc

theorem said_ofForest :
    (ofForest forest).nodes.map (fun node => node.record.said)
      = (settle forest).linkAliases.nodes.map fun node => node.record.said := by
  have linked : (settle forest).linkAliases.linkSubclasses.nodes.map (fun node => node.record.said)
      = (settle forest).linkAliases.nodes.map fun node => node.record.said :=
    map_foldl_modify (fun _ _ => rfl) _ _
  rw [← linked]
  exact map_foldl_modify (fun _ node => node.record.said_shown) forest.visited _

theorem aliases_ofForest (n : Nat) :
    (ofForest forest).nodes[n]?.map (fun node => node.record.aliases)
      = (settle forest).nodes[n]?.map fun node => node.record.aliases
          ++ (settle forest).keysWhere fun record =>
            (settle forest).aliasTarget record == some n := by
  have linked : (settle forest).linkAliases.linkSubclasses.nodes.map
        (fun node => node.record.aliases)
      = (settle forest).linkAliases.nodes.map fun node => node.record.aliases :=
    map_foldl_modify (fun _ _ => rfl) _ _
  have shown : (ofForest forest).nodes.map (fun node => node.record.aliases)
      = (settle forest).linkAliases.linkSubclasses.nodes.map fun node => node.record.aliases :=
    map_foldl_modify (fun _ node => congrArg Record.aliases node.record.shown_eq) forest.visited _
  rw [← aliases_linkAliases, ← Array.getElem?_map, shown, linked, Array.getElem?_map]

theorem subclasses_ofForest (n : Nat) :
    (ofForest forest).nodes[n]?.map (fun node => node.record.subclasses)
      = (settle forest).linkAliases.nodes[n]?.map fun node => node.record.subclasses.map
          (· ++ (settle forest).linkAliases.keysWhere fun record =>
            (settle forest).linkAliases.superclassTarget record == some n) := by
  have shown : (ofForest forest).nodes.map (fun node => node.record.subclasses)
      = (settle forest).linkAliases.linkSubclasses.nodes.map fun node => node.record.subclasses :=
    map_foldl_modify (fun _ node => congrArg Record.subclasses node.record.shown_eq)
      forest.visited _
  rw [← subclasses_linkSubclasses, ← Array.getElem?_map, shown, Array.getElem?_map]

end OfForest

section Names

variable {forest : Forest}

theorem list_settle (forest : Forest) : (settle forest).list = (ofForest forest).list :=
  (sameFrame_ofForest forest).list.symm

theorem list_linkAliases (forest : Forest) :
    (settle forest).linkAliases.list = (ofForest forest).list :=
  (sameFrame_foldl (fun _ => keeps_addAlias _) _ _).list.trans (list_settle forest)

theorem lookup_settle (forest : Forest) (key : String) :
    (settle forest).lookup key = (ofForest forest).lookup key :=
  congrArg (fun list : Catalog Nat => list.get? key) (list_settle forest)

theorem lookup_linkAliases (forest : Forest) (key : String) :
    (settle forest).linkAliases.lookup key = (ofForest forest).lookup key :=
  congrArg (fun list : Catalog Nat => list.get? key) (list_linkAliases forest)

/-- The records that name a listed node are those that name its key. A name leads to a node through
the list, and `lookup_inj` says that no other key leads there. -/
theorem keysWhere_target {doc : Documentation} (list : doc.list = (ofForest forest).list)
    (said : (ofForest forest).nodes.map (fun node => node.record.said)
      = doc.nodes.map fun node => node.record.said)
    {target : Record → Option Nat} (reference : Saying → Option String) {key : String} {n : Nat}
    (listed : (ofForest forest).lookup key = some n)
    (hits : ∀ record, target record = some n ↔
      ∃ name, reference record.said = some name ∧ (ofForest forest).lookup name = some n) :
    doc.keysWhere (fun record => target record == some n)
      = (ofForest forest).keysWhere fun record => reference record.said == some key := by
  have named : ∀ record, (target record == some n) = (reference record.said == some key) := by
    intro record
    rw [Bool.eq_iff_iff, beq_iff_eq, beq_iff_eq, hits]
    constructor
    · rintro ⟨name, hname, hlookup⟩
      rw [hname, lookup_inj hlookup listed]
    · intro hname
      exact ⟨key, hname, listed⟩
  have through : ∀ node : Option Node,
      (node.map Node.record).any (fun record => reference record.said == some key)
        = (node.map fun node => node.record.said).any fun part => reference part == some key := by
    intro node
    cases node <;> rfl
  refine keysWhere_congr list fun m => ?_
  have same := congrArg (fun parts => parts[m]?) said
  simp only [Array.getElem?_map] at same
  simp only [named, record?]
  rw [through, through, same]

/-- Where the list has another node under the key of a node, no record names it. A name is looked up
in the list, so a node that another one has replaced there cannot be found. -/
theorem keysWhere_unlisted {doc : Documentation} {target : Record → Option Nat} {n : Nat}
    {node : Node} (hnode : (ofForest forest).nodes[n]? = some node)
    (unlisted : (ofForest forest).lookup node.key ≠ some n)
    (hits : ∀ record, target record = some n → ∃ name, (ofForest forest).lookup name = some n) :
    doc.keysWhere (fun record => target record == some n) = [] := by
  refine keysWhere_eq_nil fun record => beq_false_of_ne fun htarget => ?_
  obtain ⟨name, hname⟩ := hits record htarget
  obtain ⟨same, hsame, -, rfl⟩ := node_of_lookup hname
  cases Option.some.inj (hnode.symm.trans hsame)
  exact unlisted hname

theorem aliasTarget_settle_iff {record : Record} {n : Nat} :
    (settle forest).aliasTarget record = some n ↔
      ∃ name, record.aliasOf = some name ∧ (ofForest forest).lookup name = some n := by
  simp only [aliasTarget, Option.bind_eq_some_iff, lookup_settle]

theorem superclassTarget_linkAliases_iff {record : Record} {n : Nat} :
    (settle forest).linkAliases.superclassTarget record = some n ↔
      record.kind = .classKind ∧ ∃ name, record.superclass = some name ∧
        (ofForest forest).lookup name = some n ∧
        ∃ kept, (settle forest).linkAliases.nodes[n]? = some kept ∧
          kept.record.kind = .classKind := by
  rw [superclassTarget]
  by_cases hclass : record.kind = .classKind
  · rw [if_pos hclass]
    simp only [hclass, true_and, Option.bind_eq_some_iff, classNode, Option.filter_eq_some_iff,
      record?, lookup_linkAliases]
    refine exists_congr fun name => and_congr_right fun _ => and_congr_right fun _ => ?_
    cases (settle forest).linkAliases.nodes[n]? <;> simp
  · simp [hclass]

/-- A node is a class when links to classes are collected if it is shown as one. The kind that is
shown can be another one than the kind collected with, but not where either is that of a class. -/
theorem class_iff_of_node {n : Nat} {node : Node}
    (h : (ofForest forest).nodes[n]? = some node) :
    ∃ kept, (settle forest).linkAliases.nodes[n]? = some kept ∧
      (kept.record.kind = .classKind ↔ node.record.kind = .classKind) := by
  have hsaid := congrArg (fun parts => parts[n]?) (said_ofForest forest)
  simp only [Array.getElem?_map, h, Option.map_some] at hsaid
  obtain ⟨kept, hkept, he⟩ := Option.map_eq_some_iff.1 hsaid.symm
  refine ⟨kept, hkept, ?_⟩
  simpa only [Record.said, beq_iff_eq] using Bool.eq_iff_iff.1 (congrArg Saying.isClass he)

theorem keysWhere_aliasTarget {key : String} {n : Nat}
    (listed : (ofForest forest).lookup key = some n) :
    (settle forest).keysWhere (fun record => (settle forest).aliasTarget record == some n)
      = (ofForest forest).keysWhere fun other => other.aliasOf == some key := by
  have said := (said_ofForest forest).trans (said_linkAliases (settle forest))
  exact keysWhere_target (list_settle forest) said (fun saying => saying.content.aliasOf) listed
    fun _ => aliasTarget_settle_iff

theorem keysWhere_superclassTarget {key : String} {n : Nat} {node : Node}
    (listed : (ofForest forest).lookup key = some n)
    (hnode : (ofForest forest).nodes[n]? = some node) (hclass : node.record.kind = .classKind) :
    (settle forest).linkAliases.keysWhere
        (fun record => (settle forest).linkAliases.superclassTarget record == some n)
      = (ofForest forest).keysWhere fun other =>
          other.kind == .classKind && other.superclass == some key := by
  obtain ⟨kept, hkept, class_iff⟩ := class_iff_of_node hnode
  have hits : ∀ record, (settle forest).linkAliases.superclassTarget record = some n ↔
      ∃ name, record.said.superclass = some name ∧ (ofForest forest).lookup name = some n := by
    intro record
    simp only [superclassTarget_linkAliases_iff, Record.superclass_said_eq_some_iff]
    constructor
    · rintro ⟨hrecord, name, hname, hlookup, -⟩
      exact ⟨name, ⟨hrecord, hname⟩, hlookup⟩
    · rintro ⟨name, ⟨hrecord, hname⟩, hlookup⟩
      exact ⟨hrecord, name, hname, hlookup, kept, hkept, class_iff.2 hclass⟩
  rw [keysWhere_target (list_linkAliases forest) (said_ofForest forest) Saying.superclass listed
    hits]
  refine congrArg (keysWhere _) (funext fun other => ?_)
  rw [Bool.eq_iff_iff, Bool.and_eq_true, beq_iff_eq, beq_iff_eq, beq_iff_eq]
  exact Record.superclass_said_eq_some_iff

end Names

section Unlinked

variable {forest : Forest} (once : forest.visited.Nodup)
  (unlinked : ∀ (n : Nat) (node : Node), forest.nodes[n]? = some node → node.record.Unlinked)
include once unlinked

theorem unlinked_settle {n : Nat} {node : Node} (h : (settle forest).nodes[n]? = some node) :
    node.record.Unlinked := by
  rw [getElem?_settle once] at h
  split at h
  · obtain ⟨kept, hkept, rfl⟩ := Option.map_eq_some_iff.1 h
    have fresh := unlinked n kept hkept
    exact ⟨fresh.aliases, fresh.subclasses⟩
  · exact unlinked n node h

theorem aliases_of_node {n : Nat} {node : Node} (h : (ofForest forest).nodes[n]? = some node) :
    node.record.aliases
      = (settle forest).keysWhere fun record => (settle forest).aliasTarget record == some n := by
  have entered := aliases_ofForest forest n
  rw [h, Option.map_some] at entered
  obtain ⟨kept, hkept, he⟩ := Option.map_eq_some_iff.1 entered.symm
  rw [← he, (unlinked_settle once unlinked hkept).aliases, List.nil_append]

/-- The derived classes of a node are the keys of the classes that name it, if it is a class; what
is no class has no list at all, not an empty one. -/
theorem subclasses_of_node {n : Nat} {node : Node}
    (h : (ofForest forest).nodes[n]? = some node) :
    node.record.subclasses
      = if node.record.kind = .classKind then
          some ((settle forest).linkAliases.keysWhere fun record =>
            (settle forest).linkAliases.superclassTarget record == some n)
        else none := by
  have entered := subclasses_ofForest forest n
  obtain ⟨kept, hkept, class_iff⟩ := class_iff_of_node h
  rw [h, hkept, Option.map_some, Option.map_some, Option.some.injEq] at entered
  have fresh : kept.record.subclasses
      = if kept.record.kind = .classKind then some [] else none := by
    have same : (settle forest).linkAliases.nodes.map
          (fun node => (node.record.kind, node.record.subclasses))
        = (settle forest).nodes.map fun node => (node.record.kind, node.record.subclasses) :=
      map_foldl_modify (fun _ _ => rfl) _ _
    have hpart := congrArg (fun parts => parts[n]?) same
    simp only [Array.getElem?_map, hkept, Option.map_some] at hpart
    obtain ⟨first, hfirst, heq⟩ := Option.map_eq_some_iff.1 hpart.symm
    simp only [Prod.mk.injEq] at heq
    rw [← heq.1, ← heq.2]
    exact (unlinked_settle once unlinked hfirst).subclasses
  rw [entered, fresh]
  simp only [class_iff]
  split <;> rfl

end Unlinked

theorem unlinked_ofFiles (options : Options) (files : List SourceFile) (n : Nat) (node : Node)
    (h : (Assembly.ofFiles options files).forest.nodes[n]? = some node) : node.record.Unlinked :=
  (Listing.origin_of_get? (Listing.entry_of_node h).2).unlinked

/-! ## Aliases

The record of an alias is not changed by being one; it keeps the name that it gave. So the statement
can be read backwards as well: whatever names a listed key is found in the list of that record. -/

/-- What it is for the aliases of all records to say which records name them. It speaks of the
finished documentation alone: of its list, its records and the keys in them. -/
structure AliasesExact (doc : Documentation) : Prop where
  /-- A listed record has the keys of the listed records that are aliases of its key, each once and
  in the order of the list, ... -/
  listed : ∀ key ∈ doc.list.keys, ∃ record, doc.get? key = some record ∧
    record.aliases = doc.keysWhere (fun other => other.aliasOf == some key) ∧ record.aliases.Nodup
  /-- ... a node that the list does not have under its key has none, ... -/
  unlisted : ∀ (n : Nat) (node : Node), doc.nodes[n]? = some node →
    doc.lookup node.key ≠ some n → node.record.aliases = []
  /-- ... and neither has a section. -/
  sections : ∀ (n : Nat) (node : Node), doc.nodes[n]? = some node →
    node.record.isSection = true → node.record.aliases = []

/-- **Alias links are exact**, for all files and options. They are the keys of the records that say
so, each once and in the order of the list, and a node that the list does not show has none. -/
theorem aliasesExact_ofFiles (options : Options) (files : List SourceFile) :
    AliasesExact (ofFiles options files) := by
  have once := Assembly.visited_once options files
  have unlinked := unlinked_ofFiles options files
  have unlisted : ∀ (n : Nat) (node : Node), (ofFiles options files).nodes[n]? = some node →
      (ofFiles options files).lookup node.key ≠ some n → node.record.aliases = [] := by
    intro n node hnode hne
    rw [aliases_of_node once unlinked hnode]
    refine keysWhere_unlisted hnode hne fun record htarget => ?_
    obtain ⟨name, -, hname⟩ := aliasTarget_settle_iff.1 htarget
    exact ⟨name, hname⟩
  constructor
  case listed =>
    intro key hkey
    obtain ⟨n, hn⟩ := Catalog.mem_keys_iff_exists.1 hkey
    obtain ⟨node, hnode, -, -⟩ := node_of_lookup hn
    have named : node.record.aliases
        = (ofFiles options files).keysWhere fun other => other.aliasOf == some key :=
      (aliases_of_node once unlinked hnode).trans (keysWhere_aliasTarget hn)
    refine ⟨node.record, ?_, named, named ▸ keysWhere_nodup _ _⟩
    exact Option.bind_eq_some_iff.2 ⟨n, hn, Option.map_eq_some_iff.2 ⟨node, hnode, rfl⟩⟩
  case unlisted => exact unlisted
  case sections =>
    intro n node hnode hsection
    refine unlisted n node hnode fun hlookup => ?_
    -- only records that are no sections are listed
    obtain ⟨same, hsame, hother, -⟩ := node_of_lookup hlookup
    cases Option.some.inj (hnode.symm.trans hsame)
    rw [hsection] at hother
    cases hother

/-! ## Derived classes

As for aliases, with the kind as an additional condition on both ends. It is read from the shown
record, which is a class exactly if it was one. -/

/-- What it is for the lists of derived classes to say which classes name a class. Besides the names
that it holds, a list says by being there that its record is a class. -/
structure SubclassesExact (doc : Documentation) : Prop where
  /-- Classes have a list of derived ones, and nothing else has, ... -/
  isSome_iff : ∀ n record, doc.record? n = some record →
    (record.subclasses.isSome = true ↔ record.kind = .classKind)
  /-- ... a listed class has the keys of the listed classes that are derived from its key, each once
  and in the order of the list, ... -/
  listed : ∀ key record, doc.get? key = some record → record.kind = .classKind →
    ∃ subclasses, record.subclasses = some subclasses ∧ subclasses.Nodup ∧
      subclasses = doc.keysWhere fun other =>
        other.kind == .classKind && other.superclass == some key
  /-- ... and a class that the list does not have under its key has none. -/
  unlisted : ∀ (n : Nat) (node : Node), doc.nodes[n]? = some node →
    node.record.kind = .classKind → doc.lookup node.key ≠ some n →
      node.record.subclasses = some []

/-- **Links to derived classes are exact**, for all files and options. A record that is no class has
no list, and is not entered in one either, whatever base it names. -/
theorem subclassesExact_ofFiles (options : Options) (files : List SourceFile) :
    SubclassesExact (ofFiles options files) := by
  have once := Assembly.visited_once options files
  have unlinked := unlinked_ofFiles options files
  constructor
  case isSome_iff =>
    intro n record hrecord
    obtain ⟨node, hnode, rfl⟩ := Option.map_eq_some_iff.1 hrecord
    rw [subclasses_of_node once unlinked hnode]
    by_cases hclass : node.record.kind = .classKind <;> simp [hclass]
  case listed =>
    intro key record hget hclass
    obtain ⟨n, hn, hrecord⟩ := Option.bind_eq_some_iff.1 hget
    obtain ⟨node, hnode, rfl⟩ := Option.map_eq_some_iff.1 hrecord
    refine ⟨_, ?_, keysWhere_nodup _ _, keysWhere_superclassTarget hn hnode hclass⟩
    exact (subclasses_of_node once unlinked hnode).trans (if_pos hclass)
  case unlisted =>
    intro n node hnode hclass hne
    rw [subclasses_of_node once unlinked hnode, if_pos hclass]
    refine congrArg some (keysWhere_unlisted hnode hne fun record htarget => ?_)
    obtain ⟨-, name, -, hname, -⟩ := superclassTarget_linkAliases_iff.1 htarget
    exact ⟨name, hname⟩

end Documentation

end DocTree
