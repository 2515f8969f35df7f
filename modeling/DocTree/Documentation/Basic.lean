import DocTree.Forest

/-!
# Documentation

The finished records: numbered nodes, a list of all that are not sections under their final
identifiers, and the numbers of the top-level nodes. A reader finds a record by its identifier or a
section by its name, and goes through all of them in tree order with `walk`.

Nodes refer to each other by number, and nothing in the type says that a number is one of a node or
that the children of a node do not lead back to it. Those are properties of the documentations that
an assembly makes, and `Proofs.Finishing` and `Proofs.VisitedNodes` prove them there. The type is
what a reader of the output could build, so it is kept as plain as that.

`walk` keeps a worklist of nodes with their depths. Each round takes one node off it, and no node
comes up twice, so the number of nodes bounds the rounds. `trees` gives the same nodes as nested
trees, for output that nests. Both are cut off by a number, and in both cases the number of nodes is
enough (`Walk.Spans.enough`), so the bound never shows.
-/

set_option autoImplicit false

namespace DocTree

/-! ## Walking through nodes

The worklist takes the children of a node in front of what is left, so a node comes before
everything below it and the trees come one after the other. `children` is an argument since the same
walk is made over forests and over documentations. -/

/-- The nodes of a worklist and all below them, parents first, each with its depth. One round takes
one node, and the number of rounds is given because children are an arbitrary function here. -/
def preorder (children : Nat → List Nat) : Nat → List (Nat × Nat) → List (Nat × Nat)
  | 0, _ => []
  | _ + 1, [] => []
  | rounds + 1, (depth, n) :: rest =>
    (depth, n) :: preorder children rounds ((children n).map (fun c => (depth + 1, c)) ++ rest)

inductive Tree where
  | node (number : Nat) (children : List Tree)

/-- The tree below a node, down to a number of levels. With fewer levels than the tree has, what is
further down is left out. -/
def Tree.unfold (children : Nat → List Nat) : Nat → Nat → Tree
  | 0, n => .node n []
  | levels + 1, n => .node n ((children n).map (Tree.unfold children levels))

/-! ## The type -/

/-- Records in a tree, and the list of those that are not sections. The list refers to nodes by
their numbers, so a record is in one place only. -/
structure Documentation where
  nodes : Array Node
  /-- The numbers of the nodes under their final identifiers. -/
  list : Catalog Nat
  topLevel : List Nat

namespace Documentation

def record? (doc : Documentation) (n : Nat) : Option Record := doc.nodes[n]?.map Node.record

def children (doc : Documentation) (n : Nat) : List Nat :=
  match doc.nodes[n]? with
  | some node => node.children
  | none => []

def size (doc : Documentation) : Nat := doc.list.size

def isEmpty (doc : Documentation) : Bool := doc.list.entries.isEmpty

def lookup (doc : Documentation) (id : String) : Option Nat := doc.list.get? id

def get? (doc : Documentation) (id : String) : Option Record := (doc.lookup id).bind doc.record?

/-- The top-level section of a name, whatever the case of its letters. It goes by the identifier,
which a section has in lower case. -/
def findSection (doc : Documentation) (name : String) : Option Nat :=
  let id := Text.lower name
  doc.topLevel.find? fun n =>
    match doc.record? n with
    | some record => record.isSection && record.id == id
    | none => false

/-- All nodes in tree order, parents before their children, with their depths. Anchors, the index
and the blocks of a document follow this order. -/
def walk (doc : Documentation) : List (Nat × Nat) :=
  preorder doc.children doc.nodes.size (doc.topLevel.map fun n => (0, n))

def walkRecords (doc : Documentation) : List (Nat × Record) :=
  doc.walk.filterMap fun entry => (doc.record? entry.2).map fun record => (entry.1, record)

def trees (doc : Documentation) : List Tree :=
  doc.topLevel.map (Tree.unfold doc.children doc.nodes.size)

end Documentation

end DocTree
