import DocTree.Documentation.Basic

/-!
# Finishing the forest

A forest becomes documentation in four steps, each over all nodes:

* the section without a name gives its place to its children;
* each record gets its final identifier, its name and its path, and the list is filled;
* aliases and derived classes are entered at the records that they name;
* constructors get the identifier under which they are shown, and members the kind that goes with
  the form of their identifier.

The list is filled before constructors are renamed, so it has them under the identifiers that the
comments gave. Links are entered before that too, and by key: whoever names a constructor as the
target of an alias names it as the comment did.

None of the steps adds a node or moves one. They change the record in a node and, once, its key,
which is why every fact on the shape of the tree is proved of the forest and carried over
(`Documentation.SameFrame` in `Proofs.Finishing`).
-/

set_option autoImplicit false

namespace DocTree

namespace Record

/-! ## One record

The kind of a member is read off its identifier: a dollar sign in front first, then an event, then
the side. A member whose identifier shows none of these keeps its coarse kind. -/

/-- The record with its final identifier, name and path. Sections have lower-case identifiers, and
so stay apart from a class of the same name; their names keep their case. -/
def settled (record : Record) : Record :=
  let documented := Ident.stripSection record.id
  let id := if record.isSection then Text.lower documented else documented
  { record with
    id := id
    name := Ident.localName documented
    path := Ident.outputPath id
    sectionName := none }

def memberKind (kind : Kind) (id : String) : Kind :=
  let cs := id.toList
  if cs.head? == some '$' then .utility
  else if cs.contains '@' then .event
  else if cs.contains '#' then kind.onSide .onInstance
  else if cs.contains '.' then kind.onSide .onClass
  else kind

/-- The record as it is shown: a constructor by its type, a member with its side. Identifiers in the
list are not changed by this, only the one that the record shows. -/
def shown (record : Record) : Record :=
  if record.kind = .constructor then { record with id := Ident.constructorId record.id }
  else if record.kind.isMember then { record with kind := memberKind record.kind record.id }
  else record

def addAlias (id : String) (record : Record) : Record :=
  { record with aliases := record.aliases ++ [id] }

/-- The record with one more derived class, if it keeps them. A record without a list is no class,
and is left alone. -/
def addSubclass (id : String) (record : Record) : Record :=
  { record with subclasses := record.subclasses.map (· ++ [id]) }

end Record

def Node.mapRecord (f : Record → Record) (node : Node) : Node :=
  { node with record := f node.record }

def Node.settled (node : Node) : Node :=
  let record := node.record.settled
  { node with record := record, key := record.id }

/-! ## The forest -/

namespace Forest

def children (forest : Forest) (n : Nat) : List Nat :=
  match forest.nodes[n]? with
  | some node => node.children
  | none => []

def isNameless (forest : Forest) (n : Nat) : Bool :=
  match forest.nodes[n]? with
  | some node => node.record.isSection && node.record.id == ""
  | none => false

/-- The roots, the section without a name replaced by its children. They come in its place, which is
the first one. -/
def topLevel (forest : Forest) : List Nat :=
  forest.roots.flatMap fun n => if forest.isNameless n then forest.children n else [n]

def visited (forest : Forest) : List Nat :=
  (preorder forest.children forest.nodes.size (forest.topLevel.map fun n => (0, n))).map Prod.snd

end Forest

/-! ## Links between records

An alias is entered at the record that it names, and a class at the class from which it is derived.
A name that is found nowhere, and a superclass that is no class, leave no trace in the
documentation; the log reports them. All of the links are worked out from the listed records before
the first is entered. -/

namespace Documentation

def modify (doc : Documentation) (n : Nat) (f : Record → Record) : Documentation :=
  { doc with nodes := doc.nodes.modify n (Node.mapRecord f) }

def listed (doc : Documentation) : List (String × Record) :=
  doc.list.entries.filterMap fun entry =>
    (doc.record? entry.2).map fun record => (entry.1, record)

/-- The node that a record names as the one it is an alias of, if there is such a node. Sections are
not in the list, so none can be named. -/
def aliasTarget (doc : Documentation) (record : Record) : Option Nat :=
  record.aliasOf.bind doc.lookup

def aliasLinks (doc : Documentation) : List (Nat × String) :=
  doc.listed.filterMap fun entry => (doc.aliasTarget entry.2).map fun n => (n, entry.1)

def classNode (doc : Documentation) (id : String) : Option Nat :=
  (doc.lookup id).filter fun n =>
    match doc.record? n with
    | some record => record.kind == .classKind
    | none => false

def superclassTarget (doc : Documentation) (record : Record) : Option Nat :=
  if record.kind = .classKind then record.superclass.bind doc.classNode else none

def subclassLinks (doc : Documentation) : List (Nat × String) :=
  doc.listed.filterMap fun entry => (doc.superclassTarget entry.2).map fun n => (n, entry.1)

def linkAliases (doc : Documentation) : Documentation :=
  doc.aliasLinks.foldl (fun doc link => doc.modify link.1 (Record.addAlias link.2)) doc

def linkSubclasses (doc : Documentation) : Documentation :=
  doc.subclassLinks.foldl (fun doc link => doc.modify link.1 (Record.addSubclass link.2)) doc

/-! ## All steps -/

/-- Lists a node under its key, unless it is a section. A node of the same key that was listed
before is replaced. -/
def listNode (nodes : Array Node) (list : Catalog Nat) (n : Nat) : Catalog Nat :=
  match nodes[n]? with
  | some node => if node.record.isSection then list else list.insert node.key n
  | none => list

def settle (forest : Forest) : Documentation :=
  let nodes := forest.visited.foldl (fun nodes n => nodes.modify n Node.settled) forest.nodes
  { nodes := nodes
    -- of two nodes with one key, the one that is visited later is listed
    list := forest.visited.foldl (listNode nodes) Catalog.empty
    topLevel := forest.topLevel }

def showRecords (doc : Documentation) (numbers : List Nat) : Documentation :=
  numbers.foldl (fun doc n => doc.modify n Record.shown) doc

def ofForest (forest : Forest) : Documentation :=
  (settle forest).linkAliases.linkSubclasses.showRecords forest.visited

end Documentation

end DocTree
